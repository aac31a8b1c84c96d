import SearchCompiler.Proofs.DateShapes
import SearchCompiler.Proofs.HookProtocol
import SearchCompiler.Proofs.ReadCharacters

/-! Where a build is cut short. With attached functions that always answer, one thing is left that
can stop a build: an offset without a colon is cut after its third byte, and a digit of another
script may lie across that byte. A build ends with a document exactly where no end of a range it
compiles is such a term, so always where the query is ASCII. Quotes, which are cut off too, are
single bytes. -/
namespace SearchCompiler.OffsetCuts
open Build Calendar Calendar.DateTerm Query Settings Text
open BuildSemantics DateShapes HookProtocol ReadCharacters

/-! ## Bytes and characters -/

/-- A character of a text ends after so many bytes of its encoding, so it can be cut there. -/
def CutsAt (bytes : Nat) (text : List Char) : Prop :=
  String.Pos.Raw.IsValid (String.ofList text) ⟨bytes⟩

theorem cutsAt_iff {bytes : Nat} {text : List Char} :
    CutsAt bytes text ↔
      ∃ front back, text = front ++ back ∧ (String.ofList front).utf8ByteSize = bytes := by
  unfold CutsAt
  rw [String.Pos.Raw.isValid_iff_exists_append]
  constructor
  · rintro ⟨front, back, halves, size⟩
    refine ⟨front.toList, back.toList, ?_, ?_⟩
    · rw [← String.toList_append, ← halves, String.toList_ofList]
    · rw [String.ofList_toList]
      exact (congrArg String.Pos.Raw.byteIdx size).symm
  · rintro ⟨front, back, rfl, rfl⟩
    exact ⟨_, _, String.ofList_append, rfl⟩

theorem cutsAt_zero (text : List Char) : CutsAt 0 text :=
  cutsAt_iff.mpr ⟨[], text, rfl, rfl⟩

theorem cutsAt_nil {bytes : Nat} : CutsAt (bytes + 1) [] ↔ False := by
  rw [cutsAt_iff]
  refine iff_false_intro ?_
  rintro ⟨front, back, empty, size⟩
  rw [(List.append_eq_nil_iff.mp empty.symm).1] at size
  cases size

/-- A first character that is not cut off whole is not cut off. -/
theorem cutsAt_cons {bytes : Nat} {c : Char} {rest : List Char} :
    CutsAt (bytes + 1) (c :: rest) ↔
      c.utf8Size ≤ bytes + 1 ∧ CutsAt (bytes + 1 - c.utf8Size) rest := by
  have size (front : List Char) : (String.ofList (c :: front)).utf8ByteSize =
      c.utf8Size + (String.ofList front).utf8ByteSize := by
    rw [String.ofList_cons, String.utf8ByteSize_append, String.utf8ByteSize_singleton]
  simp only [cutsAt_iff]
  constructor
  · rintro ⟨front, back, halves, reaches⟩
    cases front with
    | nil => cases reaches
    | cons d front =>
      rw [List.cons_append] at halves
      obtain ⟨rfl, rfl⟩ := List.cons.inj halves
      rw [size] at reaches
      exact ⟨by omega, front, back, rfl, by omega⟩
  · rintro ⟨fits, front, back, rfl, reaches⟩
    exact ⟨c :: front, back, rfl, by rw [size, reaches]; omega⟩

theorem dividesAfter_iff {bytes : Nat} {text : List Char} :
    dividesAfter bytes text = true ↔ CutsAt bytes text := by
  fun_induction dividesAfter bytes text with
  | case1 text => exact iff_of_true rfl (cutsAt_zero text)
  | case2 bytes => exact iff_of_false Bool.false_ne_true cutsAt_nil.mp
  | case3 bytes c rest ih => rw [Bool.and_eq_true, decide_eq_true_iff, ih, cutsAt_cons]

/-- Text can be cut anywhere where each character is one byte. -/
theorem cutsAt_ascii {bytes : Nat} {text : List Char} (ascii : ∀ c ∈ text, c.utf8Size = 1)
    (within : bytes ≤ text.length) : CutsAt bytes text := by
  induction text generalizing bytes with
  | nil =>
    cases Nat.le_zero.mp within
    exact cutsAt_zero []
  | cons c rest ih =>
    cases bytes with
    | zero => exact cutsAt_zero _
    | succ bytes =>
      rw [List.forall_mem_cons] at ascii
      rw [cutsAt_cons, ascii.1, Nat.add_sub_cancel]
      exact ⟨Nat.le_add_left 1 bytes, ih ascii.2 (Nat.le_of_succ_le_succ within)⟩

/-- The quotes around a text can be cut off. -/
theorem quoted_cuts {text : List Char} (quoted : isQuoted text = true) :
    CutsAt 1 text ∧ CutsAt ((String.ofList text).utf8ByteSize - 1) text := by
  obtain ⟨middle, rfl⟩ := isQuoted_iff.mp quoted
  refine ⟨cutsAt_iff.mpr ⟨['"'], middle ++ ['"'], rfl, rfl⟩,
    cutsAt_iff.mpr ⟨'"' :: middle, ['"'], rfl, ?_⟩⟩
  rw [String.ofList_append, String.utf8ByteSize_append]
  rfl

/-! ## Date terms -/

/-- A date and time with an offset that has no colon, whose third byte lies within a digit. -/
def SplitsDigit (term : List Char) : Prop :=
  ∃ date time sign hour minute, IsDate date ∧ IsTime time ∧ (sign = '+' ∨ sign = '-') ∧
    IsDigits 2 hour ∧ IsDigits 2 minute ∧
    term = dateText date ++ 'T' :: (timeText time ++ sign :: (hour ++ minute)) ∧
    ¬ CutsAt 3 (sign :: (hour ++ minute))

variable {clock : Instant} {term : List Char} {fault : DateFault}

/-- No digit of ASCII is split. -/
theorem not_splitsDigit (ascii : ∀ c ∈ term, c.utf8Size = 1) : ¬ SplitsDigit term := by
  rintro ⟨date, time, sign, hour, minute, _, _, _, isHour, _, rfl, splits⟩
  refine splits (cutsAt_ascii (fun c member => ascii c ?_) ?_)
  · exact List.mem_append_right _ (List.mem_cons_of_mem _ (List.mem_append_right _ member))
  · rw [List.length_cons, List.length_append, isHour.length]
    omega

theorem dateTime?_error_iff : dateTime? term = .error fault ↔ SplitsDigit term := by
  cases fault
  constructor
  · intro failed
    unfold dateTime? at failed
    split at failed
    · cases failed
    · next date time zone shaped =>
      obtain ⟨isDate, isTime, zoneText, isZone, rfl⟩ := dateTimeShape?_eq_some_iff.mp shaped
      split at failed
      · cases failed
      · next divides =>
        cases isZone with
        | absent => exact absurd rfl divides
        | zulu => exact absurd rfl divides
        | offset colon signed isHour isMinute =>
          cases colon with
          | true => exact absurd rfl divides
          | false =>
            exact ⟨date, time, _, _, _, isDate, isTime, signed, isHour, isMinute, rfl,
              fun cuts => divides (dividesAfter_iff.mpr cuts)⟩
  · rintro ⟨date, time, sign, hour, minute, isDate, isTime, signed, isHour, isMinute, rfl, splits⟩
    have shaped : dateTimeShape?
        (dateText date ++ 'T' :: (timeText time ++ sign :: (hour ++ minute))) =
          some (date, time, .offset sign hour false minute) :=
      dateTimeShape?_eq_some_iff.mpr
        ⟨isDate, isTime, _, .offset false signed isHour isMinute, rfl⟩
    have whole : ¬ (ZoneShape.offset sign hour false minute).divides = true :=
      fun divides => splits (dividesAfter_iff.mp divides)
    simp only [dateTime?, shaped]
    rw [if_neg whole]

/-- A date term is read to its end unless it splits a digit. -/
theorem resolve_error_iff : resolve clock term = .error fault ↔ SplitsDigit term := by
  constructor
  · intro failed
    unfold resolve readAny at failed
    split at failed
    · cases failed
    · cases found : dateTime? term with
      | ok value =>
        rw [found] at failed
        cases failed
      | error other => exact dateTime?_error_iff.mp found
  · intro splits
    have failed : dateTime? term = .error fault := dateTime?_error_iff.mpr splits
    obtain ⟨date, time, sign, hour, minute, isDate, _, _, _, _, rfl, _⟩ := splits
    rw [resolve, readAny, date?_eq_none isDate]
    simp only [failed]
    rfl

theorem resolve_ok_iff :
    (∃ found, resolve clock term = .ok found) ↔ ¬ SplitsDigit term := by
  cases read : resolve clock term with
  | ok found =>
    refine iff_of_true ⟨found, rfl⟩ fun splits => ?_
    have failed : resolve clock term = .error .offsetCut := resolve_error_iff.mpr splits
    rw [failed] at read
    cases read
  | error fault =>
    refine iff_of_false ?_ (not_not_intro (resolve_error_iff.mp read))
    rintro ⟨found, same⟩
    cases same

/-! ## Fields -/

/-- No field has a decoder, and the functions that are attached answer whatever they are given. -/
structure HooksAnswer (settings : Entity) : Prop where
  undecoded : ∀ key field, (key, field) ∈ settings.fields.entries → field.decoder = none
  resolves : ∀ key field resolver, (key, field) ∈ settings.fields.entries →
    field.resolver = some resolver → ∀ polarity given, ∃ found, resolver polarity given = .ok found
  embeds : ∀ search embedder, vectorSearch? settings = some (search, embedder) →
    ∀ text, ∃ vector, embedder text = .ok vector

variable {compiler : Compiler} {polarity : Polarity} {key : String} {field : Field}
variable {values : FieldValues}

theorem rangeClauses_ends_iff {ends : Endpoints} :
    (∃ clauses, (rangeClauses clock field ends).outcome = .ok clauses) ↔
      ¬ SplitsDigit ends.start.toList ∧ ¬ SplitsDigit ends.stop.toList := by
  rw [← @resolve_ok_iff clock, ← @resolve_ok_iff clock]
  simp only [rangeClauses_ok_iff]
  constructor
  · rintro ⟨_, first, last, start, stop, _⟩
    exact ⟨⟨first, start⟩, ⟨last, stop⟩⟩
  · rintro ⟨⟨first, start⟩, ⟨last, stop⟩⟩
    exact ⟨_, first, last, start, stop, rfl⟩

theorem termClauses_ends (answers : HooksAnswer compiler.settings)
    (declared : (key, field) ∈ compiler.settings.fields.entries) (polarity : Polarity)
    (given : List String) :
    ∃ clauses, (termClauses polarity key field given).outcome = .ok clauses := by
  simp only [termClauses_ok_iff]
  cases attached : field.resolver with
  | none => exact ⟨_, given, by rw [lookedFor, attached], rfl⟩
  | some resolver =>
    obtain ⟨found, answered⟩ := answers.resolves key field resolver declared attached polarity given
    exact ⟨_, found, by rw [lookedFor, attached]; exact answered, rfl⟩

/-- A field compiles unless an end of its range splits a digit. -/
theorem fieldClauses_ends_iff (answers : HooksAnswer compiler.settings)
    (declared : (key, field) ∈ compiler.settings.fields.entries) :
    (∃ clauses, (fieldClauses clock polarity key field values).outcome = .ok clauses) ↔
      ∀ ends, field.kind = .range → values = .range ends →
        ¬ SplitsDigit ends.start.toList ∧ ¬ SplitsDigit ends.stop.toList := by
  have leaves : (∃ clauses, (fieldClauses clock polarity key field values).outcome = .ok clauses) ↔
      ∃ found, (leafClauses clock polarity key field values).outcome = .ok found := by
    have plain : decoded polarity field values = values := by
      rw [decoded, answers.undecoded key field declared]
    simp only [fieldClauses, Recorded.bind_ok_iff, decodedValues_outcome, plain, Except.ok.injEq]
    constructor
    · rintro ⟨_, _, rfl, found, compiles, _⟩
      exact ⟨found, compiles⟩
    · rintro ⟨found, compiles⟩
      exact ⟨_, _, rfl, found, compiles, rfl⟩
  rw [leaves]
  unfold leafClauses
  cases kind : field.kind <;> cases values <;> simp only [reduceCtorEq, false_implies, implies_true]
  case term.list given =>
    obtain ⟨clauses, compiles⟩ := termClauses_ends answers declared polarity given
    refine iff_of_true ⟨clauses, ?_⟩ trivial
    rw [Recorded.rescue_ok_iff (by simp [Recorded.note_bind, Recorded.fail])]
    exact compiles
  case range.range ends =>
    simp [Recorded.rescue_ok_iff, Recorded.fail, rangeClauses_ends_iff]
  all_goals exact iff_of_true ⟨_, rfl⟩ trivial

theorem clausesOf_ends_iff {asked : List Request} :
    (∃ clauses, (clausesOf clock polarity asked).outcome = .ok clauses) ↔
      ∀ request ∈ asked, ∃ clauses,
        (fieldClauses clock polarity request.key request.field request.values).outcome =
          .ok clauses := by
  induction asked with
  | nil => exact iff_of_true ⟨[], rfl⟩ (List.forall_mem_nil _)
  | cons request rest ih =>
    rw [List.forall_mem_cons, ← ih]
    simp only [clausesOf, Recorded.bind_ok_iff]
    constructor
    · rintro ⟨_, first, compiles, others, compileRest, _⟩
      exact ⟨⟨first, compiles⟩, others, compileRest⟩
    · rintro ⟨⟨first, compiles⟩, others, compileRest⟩
      exact ⟨_, first, compiles, others, compileRest, rfl⟩

/-! ## Builds -/

/-- A query gives the term as an end of the range of a declared range field. -/
def IsEnd (compiler : Compiler) (query : String) (term : List Char) : Prop :=
  ∃ polarity key field ends, (key, field) ∈ compiler.settings.fields.entries ∧
    field.kind = .range ∧
    (side (readingOf compiler query) polarity).values? key = some (.range ends) ∧
    IsEndOf term ends

variable {query : String}

theorem sides_end_iff (answers : HooksAnswer compiler.settings) :
    (∀ polarity, ∃ clauses, (groupClauses compiler polarity
      (side (readingOf compiler query) polarity)).outcome = .ok clauses) ↔
      ∀ term, IsEnd compiler query term → ¬ SplitsDigit term := by
  have group (polarity : Polarity) : (∃ clauses, (groupClauses compiler polarity
      (side (readingOf compiler query) polarity)).outcome = .ok clauses) ↔
      ∀ request ∈ requests compiler.settings (side (readingOf compiler query) polarity),
        ∃ clauses, (fieldClauses compiler.clock polarity request.key request.field
          request.values).outcome = .ok clauses := clausesOf_ends_iff
  simp only [group]
  constructor
  · rintro compile term ⟨polarity, key, field, ends, declared, kind, given, same⟩
    have compiles := compile polarity ⟨key, field, .range ends⟩ (mem_requests.mpr ⟨declared, given⟩)
    have whole := (fieldClauses_ends_iff answers declared).mp compiles ends kind rfl
    rcases same with rfl | rfl
    · exact whole.1
    · exact whole.2
  · intro whole polarity request asked
    obtain ⟨declared, given⟩ := mem_requests.mp asked
    refine (fieldClauses_ends_iff answers declared).mpr fun ends kind same => ?_
    rw [same] at given
    exact ⟨whole _ ⟨polarity, _, _, ends, declared, kind, given, .inl rfl⟩,
      whole _ ⟨polarity, _, _, ends, declared, kind, given, .inr rfl⟩⟩

/-- Where the embedder answers, a document is put together in every mode. -/
theorem assembled_exists (answers : HooksAnswer compiler.settings) (freeText : FreeText)
    (filter : Document.BoolFilter) : ∃ document,
      Assembled compiler.settings freeText filter (modeFor compiler.settings freeText) document := by
  obtain plain | ⟨search, embedder, searching⟩ :=
    keyword_or_searching compiler.settings freeText
  · rw [plain]
    exact ⟨_, .keyword⟩
  · obtain ⟨vector, made⟩ := answers.embeds search embedder searching.found freeText.text
    rw [searching.mode]
    cases style : search.style with
    | replacing => exact ⟨_, .vector searching made style⟩
    | hybrid => exact ⟨_, .hybrid searching made style⟩

theorem plan_fine (answers : HooksAnswer compiler.settings) :
    (plan compiler query).findSome? Planned.failure = none := by
  refine List.findSome?_eq_none_iff.mpr fun step planned => ?_
  refine Option.eq_none_iff_forall_ne_some.mpr fun error failed => ?_
  have blames := plan_blames planned failed
  unfold Blames at blames
  split at blames
  · exact blames
  · obtain ⟨field, resolver, polarity, cause, declared, attached, failed, _⟩ := blames
    obtain ⟨found, answered⟩ := answers.resolves _ field resolver declared attached polarity _
    rw [answered] at failed
    cases failed
  · obtain ⟨search, embedder, cause, found, failed, _⟩ := blames
    obtain ⟨vector, made⟩ := answers.embeds search embedder found _
    rw [made] at failed
    cases failed

theorem build_ends_iff (answers : HooksAnswer compiler.settings) :
    (∃ built, (compiler.build query).outcome = .ok built) ↔
      ∀ term, IsEnd compiler query term → ¬ SplitsDigit term := by
  rw [← sides_end_iff answers]
  constructor
  · rintro ⟨built, ended⟩
    exact (build_ok_iff.mp ended).1
  · intro sides
    obtain ⟨document, assembled⟩ := assembled_exists answers (searchTextOf compiler query)
      (plainFilter compiler (readingOf compiler query))
    exact ⟨⟨document, _, _⟩, build_ok_iff.mpr ⟨sides, rfl, rfl, assembled⟩⟩

/-- The hooks are not to blame for a build that fails. -/
theorem failure_offsetCut (answers : HooksAnswer compiler.settings) {failure : Failure}
    (failed : (compiler.build query).outcome = .error failure) : failure = .date .offsetCut := by
  cases failure with
  | date fault => cases fault; rfl
  | hook error =>
    have carried : CarriesOut (compiler.build query) (plan compiler query) := by
      refine build_follows fun fault other => ?_
      rw [failed] at other
      cases other
    have stopped := (carried.failed error).mp failed
    rw [plan_fine answers] at stopped
    cases stopped

/-- The default tokenizer finds only ASCII in an ASCII query. -/
theorem isEnd_ascii (reads : compiler.tokenizer = tokenize)
    (ascii : ∀ c ∈ query.toList, c.utf8Size = 1) (isEnd : IsEnd compiler query term) :
    ∀ c ∈ term, c.utf8Size = 1 := by
  obtain ⟨polarity, key, field, ends, _, _, given, isEnd⟩ := isEnd
  rw [readingOf, reads] at given
  exact fun c member => ascii c (tokenize_subset given isEnd member)

/-- **Builds are cut short by offsets alone.** Where attached functions answer, a build ends with a
document exactly if no end of a range splits a digit, and a build that does not has met such an end.
So whatever is typed in ASCII builds. Nothing else that is cut is cut within a character: quotes come
off whole. -/
theorem only_offsets_cut_builds (answers : HooksAnswer compiler.settings) (query : String) :
    ((∃ built, (compiler.build query).outcome = .ok built) ↔
      ∀ term, IsEnd compiler query term → ¬ SplitsDigit term) ∧
    (∀ failure, (compiler.build query).outcome = .error failure → failure = .date .offsetCut) ∧
    (compiler.tokenizer = tokenize → (∀ c ∈ query.toList, c.utf8Size = 1) →
      ∃ built, (compiler.build query).outcome = .ok built) ∧
    ∀ text, isQuoted text = true →
      CutsAt 1 text ∧ CutsAt ((String.ofList text).utf8ByteSize - 1) text := by
  refine ⟨build_ends_iff answers, fun _ => failure_offsetCut answers, fun reads ascii => ?_,
    fun _ => quoted_cuts⟩
  exact (build_ends_iff answers).mpr fun _ isEnd =>
    not_splitsDigit (isEnd_ascii reads ascii isEnd)

/-! ## A diary -/

/-- Entries that are found by their dates. -/
def diary : Compiler where
  settings :=
    { fields := ⟨[("date", { kind := .range, indexField := "created" })], by simp⟩
      phraseFields := ["title"] }
  usable := by
    have typeable : ["date"].findSome? keyError? = none := by decide +kernel
    exact Option.or_eq_none_iff.mpr ⟨typeable, rfl⟩
  clock := .ofSeconds 0

theorem diary_hooksAnswer : HooksAnswer diary.settings where
  undecoded := by
    intro key field declared
    cases List.mem_singleton.mp declared
    rfl
  resolves := by
    intro key field resolver declared attached
    cases List.mem_singleton.mp declared
    cases attached
  embeds := by
    intro search embedder found
    cases found

/-- A range that begins with a date and time in which one digit of the offset is Devanagari. -/
def foreignDigit : String := "date:2023_10_01T12:30:45+1०00-now"

/-- No function is attached to the diary, yet a digit of another script stops its build. -/
theorem foreign_digit_stops_build :
    HooksAnswer diary.settings ∧ diary.tokenizer = tokenize ∧
      (diary.build foreignDigit).outcome = .error (.date .offsetCut) :=
  ⟨diary_hooksAnswer, rfl, rfl⟩

/-- The diary builds a date typed in ASCII, and the one with a foreign digit exactly if none of its
ends splits a digit. -/
theorem diary_builds_ascii :
    (∃ built, (diary.build "date:2023_10_01-now").outcome = .ok built) ∧
      ((∃ built, (diary.build foreignDigit).outcome = .ok built) ↔
        ∀ term, IsEnd diary foreignDigit term → ¬ SplitsDigit term) := by
  have ascii : "date:2023_10_01-now".toList.all (fun c => decide (c.utf8Size = 1)) = true := by
    decide +kernel
  have builds := (only_offsets_cut_builds diary_hooksAnswer "date:2023_10_01-now").2.2.1 rfl
    fun c member => of_decide_eq_true (List.all_eq_true.mp ascii c member)
  exact ⟨builds, (only_offsets_cut_builds diary_hooksAnswer foreignDigit).1⟩

end SearchCompiler.OffsetCuts

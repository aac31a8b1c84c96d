import SearchCompiler.Proofs.BuildAccounts
import SearchCompiler.Proofs.DateShapes

/-! When the time of a build does not matter. A date term asks the clock only where it is `now` or
begins with `now_`: every other term has its meaning, or has none, whatever the time. A build reads
the terms of the ranges that it comes to compile, field after field and asked before excluded, until
a field stops it; where none of these asks the clock, two builds at different times are the same. -/
namespace SearchCompiler.ClockIndependence
open Build Calendar Calendar.DateTerm Query Settings
open BuildAccounts BuildSemantics DateShapes DropReports

/-! ## Terms -/

/-- A term whose meaning hangs on the clock: `now`, or whatever begins with `now_`. -/
def AsksClock (term : List Char) : Prop :=
  term = ['n', 'o', 'w'] ∨ ['n', 'o', 'w', '_'] <+: term

instance (term : List Char) : Decidable (AsksClock term) := inferInstanceAs (Decidable (_ ∨ _))

variable {term : List Char}

theorem relative?_of_timeless (timeless : ¬ AsksClock term) (clock : Instant) :
    relative? clock term = none := by
  have unnamed : stripStart ['n', 'o', 'w', '_'] term = none := by
    refine Option.eq_none_iff_forall_ne_some.mpr fun rest stripped => ?_
    exact timeless (.inr ⟨rest, (stripStart_eq_some_iff.mp stripped).symm⟩)
  rw [relative?, unnamed]
  rfl

/-- A term that does not ask for the clock means the same at any time. -/
theorem resolve_timeless (timeless : ¬ AsksClock term) (first second : Instant) :
    resolve first term = resolve second term := by
  have unnamed : term ≠ ['n', 'o', 'w'] := fun same => timeless (.inl same)
  unfold resolve readAny now?
  simp only [if_neg unnamed, relative?_of_timeless timeless]

/-! ## Fields -/

/-- Neither end of a range asks for the clock. -/
def Timeless (ends : Endpoints) : Prop :=
  ¬ AsksClock ends.start.toList ∧ ¬ AsksClock ends.stop.toList

/-- A range comes to be compiled for some requests: it is what a range field is given behind its
decoder, and every request before that field compiles. -/
inductive Reaches (clock : Instant) (polarity : Polarity) (ends : Endpoints) : List Request → Prop
  | here {request : Request} {rest : List Request} (kind : request.field.kind = .range)
      (given : decoded polarity request.field request.values = .range ends) :
      Reaches clock polarity ends (request :: rest)
  | later {request : Request} {rest : List Request}
      (compiles : ∃ clauses, (fieldClauses clock polarity request.key request.field
        request.values).outcome = .ok clauses)
      (reaches : Reaches clock polarity ends rest) : Reaches clock polarity ends (request :: rest)

variable {first : Instant} {polarity : Polarity} {field : Field} {values : FieldValues}

theorem rangeClauses_timeless {ends : Endpoints} (timeless : Timeless ends) (second : Instant) :
    rangeClauses first field ends = rangeClauses second field ends := by
  unfold rangeClauses
  rw [resolve_timeless timeless.1 first second, resolve_timeless timeless.2 first second]

/-- A range field reads the clock through the ends of its range, and no other field reads it. -/
theorem leafClauses_timeless {key : String}
    (timeless : ∀ ends, field.kind = .range → values = .range ends → Timeless ends)
    (second : Instant) :
    leafClauses first polarity key field values = leafClauses second polarity key field values := by
  unfold leafClauses
  cases kind : field.kind with
  | term => cases values <;> rfl
  | text => cases values <;> rfl
  | range =>
    cases values with
    | list given => rfl
    | range ends =>
      dsimp only
      rw [rangeClauses_timeless (timeless ends kind rfl) second]

theorem fieldClauses_timeless {key : String}
    (timeless : ∀ ends, field.kind = .range → decoded polarity field values = .range ends →
      Timeless ends) (second : Instant) :
    fieldClauses first polarity key field values =
      fieldClauses second polarity key field values := by
  unfold fieldClauses
  rw [Recorded.bind_of_ok decodedValues_outcome, Recorded.bind_of_ok decodedValues_outcome,
    leafClauses_timeless timeless second]

/-- Requests are compiled one after another, so only what comes to be compiled is to be timeless. -/
theorem clausesOf_timeless {asked : List Request}
    (timeless : ∀ ends, Reaches first polarity ends asked → Timeless ends) (second : Instant) :
    clausesOf first polarity asked = clausesOf second polarity asked := by
  induction asked with
  | nil => rfl
  | cons request rest ih =>
    have same : fieldClauses first polarity request.key request.field request.values =
        fieldClauses second polarity request.key request.field request.values := by
      apply fieldClauses_timeless
      intro ends kind given
      exact timeless ends (.here kind given)
    rw [clausesOf, clausesOf, ← same]
    cases ended : (fieldClauses first polarity request.key request.field request.values).outcome with
    | error failure => rw [Recorded.bind_of_error ended, Recorded.bind_of_error ended]
    | ok clauses =>
      have others : clausesOf first polarity rest = clausesOf second polarity rest := by
        apply ih
        intro ends reaches
        exact timeless ends (.later ⟨clauses, ended⟩ reaches)
      rw [Recorded.bind_of_ok ended, Recorded.bind_of_ok ended, others]

/-! ## Builds -/

/-- The compiler at another time. -/
def withClock (compiler : Compiler) (clock : Instant) : Compiler := { compiler with clock }

/-- A range that a build comes to compile: on the side that is asked for, or on the one that is
excluded, where the other side compiles. -/
inductive Compares (compiler : Compiler) (query : String) (ends : Endpoints) : Prop
  | asked (reaches : Reaches compiler.clock .included ends
      (requests compiler.settings (side (readingOf compiler query) .included)))
  | excluded
      (compiles : ∃ clauses, (groupClauses compiler .included
        (side (readingOf compiler query) .included)).outcome = .ok clauses)
      (reaches : Reaches compiler.clock .excluded ends
        (requests compiler.settings (side (readingOf compiler query) .excluded)))

variable {compiler : Compiler} {query : String}

theorem groupClauses_timeless {group : TokenGroup}
    (timeless : ∀ ends, Reaches compiler.clock polarity ends (requests compiler.settings group) →
      Timeless ends) (clock : Instant) :
    groupClauses (withClock compiler clock) polarity group =
      groupClauses compiler polarity group := by
  have same := clausesOf_timeless timeless clock
  unfold groupClauses
  rw [same]
  rfl

/-- The filter of a query is the only part of a build that reads the clock. -/
theorem filterOf_timeless (timeless : ∀ ends, Compares compiler query ends → Timeless ends)
    (clock : Instant) :
    filterOf (withClock compiler clock) (readingOf compiler query) =
      filterOf compiler (readingOf compiler query) := by
  cases reading : readingOf compiler query with
  | bare text => rfl
  | structured parsed =>
    have asked : groupClauses (withClock compiler clock) .included parsed.included =
        groupClauses compiler .included parsed.included := by
      apply groupClauses_timeless
      intro ends reaches
      apply timeless ends
      apply Compares.asked
      rwa [reading]
    unfold filterOf
    dsimp only
    rw [asked]
    cases ended : (groupClauses compiler .included parsed.included).outcome with
    | error failure => rw [Recorded.bind_of_error ended, Recorded.bind_of_error ended]
    | ok clauses =>
      have excluded : groupClauses (withClock compiler clock) .excluded parsed.excluded =
          groupClauses compiler .excluded parsed.excluded := by
        apply groupClauses_timeless
        intro ends reaches
        apply timeless ends
        apply Compares.excluded
        · exact ⟨clauses, by rwa [reading]⟩
        · rwa [reading]
      rw [excluded]
      rfl

/-- **The clock does not interfere.** Where no range that a build comes to compile has an end that
asks for the clock, the build is the same at any other time: it ends with the same document or the
same failure, and makes the same calls, events and counts on the way. -/
theorem clock_irrelevant (timeless : ∀ ends, Compares compiler query ends → Timeless ends)
    (clock : Instant) : (withClock compiler clock).build query = compiler.build query := by
  have filters : filterOf (withClock compiler clock) (readingOf (withClock compiler clock) query) =
      filterOf compiler (readingOf compiler query) := filterOf_timeless timeless clock
  have compiled : compile (withClock compiler clock) query = compile compiler query := by
    rw [compile_eq, compile_eq, filters]
    rfl
  unfold Compiler.build
  rw [compiled]

/-- A search for papers of a span of time, refusing those with a tag that is unknown or of today. -/
def olderPapers : String := "date:2023_10_01-1699834414 -tag:red -date:now-now"

/-- The field of the archive whose tags nobody knows. -/
def unknownTag : Field :=
  { kind := .term, indexField := "tags", resolver := some fun _ _ => .error "unknown" }

/-- The archive compiles the dates asked for, and is stopped by the tag before it comes to today. -/
theorem archive_older_papers :
    (∀ ends, Compares archive olderPapers ends → Timeless ends) ∧
      (withClock archive (.ofSeconds 1699834414)).build olderPapers = archive.build olderPapers := by
  have timeless : ∀ ends, Compares archive olderPapers ends → Timeless ends := by
    intro ends compares
    cases compares with
    | asked reaches =>
      have dates : requests archive.settings (side (readingOf archive olderPapers) .included) =
          [⟨"date", { kind := .range, indexField := "created" },
            .range ⟨"2023_10_01", "1699834414"⟩⟩] := rfl
      rw [dates] at reaches
      cases reaches with
      | here kind given =>
        cases given
        exact ⟨by decide +kernel, by decide +kernel⟩
      | later compiles reaches => cases reaches
    | excluded compiles reaches =>
      have both : requests archive.settings (side (readingOf archive olderPapers) .excluded) =
          [⟨"tag", unknownTag, .list ["red"]⟩,
            ⟨"date", { kind := .range, indexField := "created" }, .range ⟨"now", "now"⟩⟩] := rfl
      rw [both] at reaches
      cases reaches with
      | here kind given => cases kind
      | later compiles reaches =>
        obtain ⟨clauses, ended⟩ := compiles
        cases ended
  exact ⟨timeless, clock_irrelevant timeless _⟩

end SearchCompiler.ClockIndependence

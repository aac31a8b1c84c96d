import Mathlib.Data.List.TakeWhile
import SearchCompiler.Query.Term

/-! How a query divides into terms. What is written behind a term and set off by a blank cannot
change it, as long as no quote of the term stays open; so a query is read term by term, and text
without quotes divides by itself. The one thing that reaches over a blank is a quoted value: the
last `:"` of a run counts even where the quote in it closes a phrase. -/
namespace SearchCompiler.TermScanning
open Query Text

/-! ## Blanks and gaps -/

@[simp]
theorem isBlank_space : isBlank ' ' = true := by decide

@[simp]
theorem isBlank_quote : isBlank '"' = false := by decide

@[simp]
theorem isBlank_backslash : isBlank '\\' = false := by decide

@[simp]
theorem isBlank_colon : isBlank ':' = false := by decide

@[simp]
theorem isBlank_minus : isBlank '-' = false := by decide

/-- A place where a run of nonblank characters ends: a blank comes next, or nothing. -/
def AtGap (rest : List Char) : Prop := ∀ c ∈ rest.head?, isBlank c = true

theorem atGap_nil : AtGap [] := fun _ next => by cases next

theorem atGap_cons {c : Char} {rest : List Char} (blank : isBlank c = true) : AtGap (c :: rest) := by
  intro d next
  cases next
  exact blank

theorem AtGap.head?_ne {c : Char} {rest : List Char} (gap : AtGap rest)
    (nonblank : isBlank c = false) : rest.head? ≠ some c := by
  intro next
  rw [gap c next] at nonblank
  cases nonblank

/-- Blanks that set two texts apart: at least one. -/
structure IsGap (gap : List Char) : Prop where
  nonempty : gap ≠ []
  blank : ∀ c ∈ gap, isBlank c = true

theorem isGap_iff {gap : List Char} : IsGap gap ↔ gap ≠ [] ∧ gap.all isBlank = true :=
  ⟨fun isGap => ⟨isGap.nonempty, List.all_eq_true.mpr isGap.blank⟩,
    fun ⟨nonempty, blank⟩ => ⟨nonempty, List.all_eq_true.mp blank⟩⟩

instance (gap : List Char) : Decidable (IsGap gap) := decidable_of_iff _ isGap_iff.symm

theorem IsGap.atGap {gap rest : List Char} (isGap : IsGap gap) : AtGap (gap ++ rest) := by
  cases gap with
  | nil => exact absurd rfl isGap.nonempty
  | cons c more => exact atGap_cons (isGap.blank c List.mem_cons_self)

/-! ## Quoted text -/

/-- Text as it is written between quotes: a backslash before every quote. -/
def escape (text : List Char) : List Char :=
  text.flatMap fun c => if c = '"' then ['\\', '"'] else [c]

theorem escape_cons (c : Char) (text : List Char) :
    escape (c :: text) = (if c = '"' then ['\\', '"'] else [c]) ++ escape text := rfl

theorem escape_of_quoteless {text : List Char} (quoteless : '"' ∉ text) : escape text = text := by
  induction text with
  | nil => rfl
  | cons c rest ih =>
    rw [List.mem_cons, not_or] at quoteless
    rw [escape_cons, if_neg (Ne.symm quoteless.1), ih quoteless.2]
    rfl

/-- Text without backslashes, escaped, is closed by the first quote behind it. -/
theorem closeQuote_escape {text rest : List Char} (plain : '\\' ∉ text) :
    closeQuote (escape text ++ '"' :: rest) = some (escape text, rest) := by
  induction text with
  | nil => exact closeQuote_quote rest
  | cons c more ih =>
    rw [List.mem_cons, not_or] at plain
    have inner := ih plain.2
    rw [escape_cons]
    by_cases quote : c = '"'
    · simp [quote, closeQuote_escaped, inner]
    · simp [quote, closeQuote_plain quote (Ne.symm plain.1), inner]

/-- Text without backslashes is read back from its escaped form. -/
theorem unescape_escape {text : List Char} (plain : '\\' ∉ text) : unescape (escape text) = text := by
  change replaceFrom ['\\', '"'] ['"'] 0 (escape text) = text
  induction text with
  | nil => rfl
  | cons c more ih =>
    rw [List.mem_cons, not_or] at plain
    have inner := ih plain.2
    rw [escape_cons]
    by_cases quote : c = '"'
    · simp [quote, replaceFrom, inner]
    · simp [quote, replaceFrom, inner, plain.1]

/-- What is written in quotes is read back. -/
theorem unquote_escape {text : List Char} (plain : '\\' ∉ text) :
    unquote ('"' :: escape text ++ ['"']) = (text, true) := by
  rw [unquote_quoted, unescape_escape plain]

variable {text rest : List Char}

theorem literal?_of_quoteless (quoteless : '"' ∉ text) (gap : AtGap rest) :
    literal? (text ++ rest) = none := by
  refine literal?_eq_none fun opened => ?_
  cases text with
  | nil => exact absurd (gap '"' opened) (by simp)
  | cons c more => cases opened; exact quoteless List.mem_cons_self

/-! ## The quoted value of a run -/

theorem lastQuotedValue?_atGap (gap : AtGap rest) : lastQuotedValue? rest = none := by
  cases rest with
  | nil => rfl
  | cons c more => exact if_pos (gap c rfl)

/-- A quoted value of the run is one of the whole run. -/
theorem lastQuotedValue?_append {front value : List Char}
    (nonblank : ∀ c ∈ front, isBlank c = false) (found : lastQuotedValue? rest = some value) :
    lastQuotedValue? (front ++ rest) = some (front ++ value) := by
  induction front with
  | nil => exact found
  | cons c more ih =>
    rw [List.forall_mem_cons] at nonblank
    rw [List.cons_append, lastQuotedValue?, nonblank.1, ih nonblank.2]
    rfl

/-- A run without quotes has no quoted value. -/
theorem lastQuotedValue?_of_quoteless (quoteless : '"' ∉ text) (gap : AtGap rest) :
    lastQuotedValue? (text ++ rest) = none := by
  induction text with
  | nil => exact lastQuotedValue?_atGap gap
  | cons c more ih =>
    rw [List.mem_cons, not_or] at quoteless
    rw [List.cons_append, lastQuotedValue?, ih quoteless.2, literal?_of_quoteless quoteless.2 gap]
    split <;> simp

/-- Inside escaped text no colon stands before a quote, so its run has a quoted value only where the
text ends in a colon, holds no blank, and the quote that closes it opens another. -/
theorem lastQuotedValue?_escape (gap : AtGap rest)
    (closes : text.getLast? = some ':' → (∀ c ∈ text, isBlank c = false) →
      literal? ('"' :: rest) = none) :
    lastQuotedValue? (escape text ++ '"' :: rest) = none := by
  induction text with
  | nil =>
    simp [escape, lastQuotedValue?, lastQuotedValue?_atGap gap]
  | cons c more ih =>
    cases blank : isBlank c with
    | true =>
      have other : c ≠ '"' := fun same => by simp [same] at blank
      simp [escape_cons, other, lastQuotedValue?, blank]
    | false =>
      have inner : lastQuotedValue? (escape more ++ '"' :: rest) = none := by
        refine ih fun ends nonblank => closes ?_ (List.forall_mem_cons.mpr ⟨blank, nonblank⟩)
        rw [List.getLast?_cons, ends]
        rfl
      by_cases quote : c = '"'
      · subst quote
        simp [escape_cons, lastQuotedValue?, inner]
      · by_cases colon : c = ':'
        · subst colon
          have unopened : literal? (escape more ++ '"' :: rest) = none := by
            cases more with
            | nil => exact closes rfl (by simp [blank])
            | cons d others =>
              refine literal?_eq_none ?_
              rw [escape_cons]
              by_cases quote : d = '"' <;> simp [quote]
          simp [escape_cons, lastQuotedValue?, inner, unopened]
        · simp [escape_cons, quote, lastQuotedValue?, blank, inner, colon]

/-! ## One term and the rest -/

theorem literal?_begins {literal : List Char} (found : literal? text = some literal) :
    literal <+: text := by
  unfold literal? at found
  split at found
  · cases found
  · next c rest =>
    split at found
    · next quote =>
      subst quote
      obtain ⟨⟨content, behind⟩, closed, same⟩ := Option.map_eq_some_iff.mp found
      subst same
      exact ⟨behind, by simp [eq_append_of_closeQuote closed]⟩
    · cases found

theorem lastQuotedValue?_begins {value : List Char} (found : lastQuotedValue? text = some value) :
    value <+: text := by
  induction text generalizing value with
  | nil => cases found
  | cons c rest ih =>
    unfold lastQuotedValue? at found
    split at found
    · cases found
    · split at found
      · next later inner =>
        cases found
        exact (List.prefix_cons_inj c).mpr (ih inner)
      · split at found
        · obtain ⟨literal, inner, rfl⟩ := Option.map_eq_some_iff.mp found
          exact (List.prefix_cons_inj c).mpr (literal?_begins inner)
        · cases found

theorem signedLiteral?_begins {phrase : List Char} (found : signedLiteral? text = some phrase) :
    phrase <+: text := by
  unfold signedLiteral? at found
  split at found
  · cases found
  · next c rest =>
    split at found
    · obtain ⟨literal, inner, rfl⟩ := Option.map_eq_some_iff.mp found
      exact (List.prefix_cons_inj c).mpr (literal?_begins inner)
    · exact literal?_begins found

/-- A term is what the text begins with. -/
theorem termAt_begins {c : Char} : termAt c rest <+: c :: rest := by
  unfold termAt
  split
  · next value found => exact (List.prefix_cons_inj c).mpr (lastQuotedValue?_begins found)
  · split
    · next phrase found => exact signedLiteral?_begins found
    · exact List.takeWhile_prefix _

/-- The characters of a term are passed before the next one is looked for. -/
theorem termsFrom_length (passed rest : List Char) :
    termsFrom passed.length (passed ++ rest) = terms rest := by
  induction passed with
  | nil => rfl
  | cons c more ih => exact ih

theorem terms_cons {c : Char} (nonblank : isBlank c = false)
    (whole : termAt c (text ++ rest) = c :: text) :
    terms (c :: text ++ rest) = (c :: text) :: terms rest := by
  rw [terms, List.cons_append, termsFrom, nonblank, whole]
  simp [termsFrom_length]

theorem terms_blanks {gap : List Char} (blank : ∀ c ∈ gap, isBlank c = true) :
    terms (gap ++ rest) = terms rest := by
  induction gap with
  | nil => rfl
  | cons c more ih =>
    rw [List.forall_mem_cons] at blank
    rw [List.cons_append, terms, termsFrom, blank.1]
    exact ih blank.2

theorem run_append (gap : AtGap rest) : run (text ++ rest) = run text := by
  induction text with
  | nil =>
    cases rest with
    | nil => rfl
    | cons c more => simp [run, gap c rfl]
  | cons c more ih =>
    unfold run at ih ⊢
    rw [List.cons_append, List.takeWhile_cons, List.takeWhile_cons, ih]

theorem run_of_nonblank (nonblank : ∀ c ∈ text, isBlank c = false) : run text = text := by
  refine List.takeWhile_eq_self_iff.mpr fun c member => ?_
  rw [nonblank c member]
  rfl

theorem signedLiteral?_of_quoteless (quoteless : '"' ∉ text) (gap : AtGap rest) :
    signedLiteral? (text ++ rest) = none := by
  cases text with
  | nil =>
    cases rest with
    | nil => rfl
    | cons c more =>
      have other : c ≠ '-' := fun same => by
        subst same
        exact absurd (gap '-' rfl) (by simp)
      have unopened : literal? ([] ++ c :: more) = none := literal?_of_quoteless quoteless gap
      rw [List.nil_append, signedLiteral?, if_neg other]
      exact unopened
  | cons c more =>
    rw [List.cons_append, signedLiteral?]
    split
    · rw [literal?_of_quoteless (fun member => quoteless (List.mem_cons_of_mem _ member)) gap]
      rfl
    · exact literal?_of_quoteless quoteless gap

/-- A term without quotes is a run. -/
theorem termAt_of_quoteless {c : Char} (quoteless : '"' ∉ c :: text) (gap : AtGap rest) :
    termAt c (text ++ rest) = run (c :: text) := by
  have inner : '"' ∉ text := fun member => quoteless (List.mem_cons_of_mem _ member)
  have unsigned : signedLiteral? (c :: (text ++ rest)) = none :=
    signedLiteral?_of_quoteless quoteless gap
  have ends : run (c :: text ++ rest) = run (c :: text) := run_append gap
  rw [termAt, lastQuotedValue?_of_quoteless inner gap, unsigned]
  exact ends

/-- A text divides by itself where what follows it changes none of its terms. -/
theorem terms_append_of_termAt
    (unchanged : ∀ c more, c :: more <:+ text → termAt c (more ++ rest) = termAt c more) :
    terms (text ++ rest) = terms text ++ terms rest := by
  -- within a term that is being passed too, as long as it ends in the text
  have divides (skip : Nat) (within : skip ≤ text.length) :
      termsFrom skip (text ++ rest) = termsFrom skip text ++ termsFrom 0 rest := by
    induction text generalizing skip with
    | nil => rw [Nat.le_zero.mp within]; rfl
    | cons c more ih =>
      have inner d others (part : d :: others <:+ more) :
          termAt d (others ++ rest) = termAt d others :=
        unchanged d others (part.trans (List.suffix_cons c more))
      cases skip with
      | succ passed => exact ih inner passed (Nat.le_of_succ_le_succ within)
      | zero =>
        have short : (termAt c more).length - 1 ≤ more.length :=
          Nat.sub_le_of_le_add termAt_begins.length_le
        rw [List.cons_append, termsFrom, termsFrom, unchanged c more List.suffix_rfl]
        cases isBlank c with
        | true => exact ih inner 0 (Nat.zero_le _)
        | false =>
          change _ :: termsFrom _ _ = _ :: (termsFrom _ _ ++ _)
          rw [ih inner _ short]
  exact divides 0 (Nat.zero_le _)

/-- Text without quotes divides by itself, whatever follows behind a blank. -/
theorem terms_append (quoteless : '"' ∉ text) (gap : AtGap rest) :
    terms (text ++ rest) = terms text ++ terms rest := by
  refine terms_append_of_termAt fun c more part => ?_
  have inner : '"' ∉ c :: more := fun member => quoteless (part.subset member)
  have alone : termAt c (more ++ []) = run (c :: more) := termAt_of_quoteless inner atGap_nil
  rw [List.append_nil] at alone
  rw [termAt_of_quoteless inner gap, alone]

/-- A run without quotes is a term. -/
theorem terms_run (nonempty : text ≠ []) (nonblank : ∀ c ∈ text, isBlank c = false)
    (quoteless : '"' ∉ text) (gap : AtGap rest) : terms (text ++ rest) = text :: terms rest := by
  cases text with
  | nil => exact absurd rfl nonempty
  | cons c more =>
    refine terms_cons (nonblank c List.mem_cons_self) ?_
    rw [termAt_of_quoteless quoteless gap, run_of_nonblank nonblank]

variable {front body : List Char}

/-- A field with a quoted value is a term up to the quote that closes the value, where no other
value of the run comes later. -/
theorem terms_quotedValue (nonempty : front ≠ []) (nonblank : ∀ c ∈ front, isBlank c = false)
    (closed : closeQuote (body ++ '"' :: rest) = some (body, rest))
    (last : lastQuotedValue? (body ++ '"' :: rest) = none) :
    terms (front ++ ':' :: '"' :: body ++ '"' :: rest) =
      (front ++ ':' :: '"' :: body ++ ['"']) :: terms rest := by
  have value : lastQuotedValue? (':' :: '"' :: (body ++ '"' :: rest)) =
      some (':' :: '"' :: body ++ ['"']) := by
    simp [lastQuotedValue?, last, literal?_of_closeQuote closed]
  cases front with
  | nil => exact absurd rfl nonempty
  | cons c more =>
    rw [List.forall_mem_cons] at nonblank
    have whole : termAt c (more ++ ':' :: '"' :: (body ++ '"' :: rest)) =
        c :: (more ++ ':' :: '"' :: body ++ ['"']) := by
      rw [termAt, lastQuotedValue?_append nonblank.2 value]
      simp
    have divided : terms (c :: (more ++ ':' :: '"' :: body ++ ['"']) ++ rest) =
        (c :: (more ++ ':' :: '"' :: body ++ ['"'])) :: terms rest :=
      terms_cons nonblank.1 (by simpa using whole)
    simpa using divided

/-- A phrase is a term up to the quote that closes it, with the sign that may stand before it, where
its run has no quoted value. -/
theorem terms_phrase {sign : List Char} (signed : sign = [] ∨ sign = ['-'])
    (closed : closeQuote (body ++ '"' :: rest) = some (body, rest))
    (last : lastQuotedValue? (body ++ '"' :: rest) = none) :
    terms (sign ++ '"' :: body ++ '"' :: rest) = (sign ++ '"' :: body ++ ['"']) :: terms rest := by
  have literal := literal?_of_closeQuote closed
  obtain rfl | rfl := signed
  · have divided : terms ('"' :: (body ++ ['"']) ++ rest) = ('"' :: (body ++ ['"'])) :: terms rest :=
      terms_cons isBlank_quote (by simp [termAt, last, signedLiteral?, literal])
    simpa using divided
  · have inner : lastQuotedValue? ('"' :: (body ++ '"' :: rest)) = none := by
      simp [lastQuotedValue?, last]
    have divided : terms ('-' :: ('"' :: body ++ ['"']) ++ rest) =
        ('-' :: ('"' :: body ++ ['"'])) :: terms rest :=
      terms_cons isBlank_minus (by simp [termAt, inner, signedLiteral?, literal])
    simpa using divided

/-- Text without backslashes, escaped and in quotes, is a term, unless the quote that closes it opens
a value. -/
theorem terms_escaped {sign : List Char} (signed : sign = [] ∨ sign = ['-']) (plain : '\\' ∉ text)
    (gap : AtGap rest)
    (closes : text.getLast? = some ':' → (∀ c ∈ text, isBlank c = false) →
      literal? ('"' :: rest) = none) :
    terms (sign ++ '"' :: escape text ++ '"' :: rest) =
      (sign ++ '"' :: escape text ++ ['"']) :: terms rest :=
  terms_phrase signed (closeQuote_escape plain) (lastQuotedValue?_escape gap closes)

/-- A plain phrase behind text without quotes, with the sign that may stand before it, is one more
term. -/
theorem terms_phrase_last {sign phrase : List Char} (signed : sign = [] ∨ sign = ['-'])
    (quoteless : '"' ∉ text) (unquoted : '"' ∉ phrase) (plain : '\\' ∉ phrase) :
    terms (text ++ ' ' :: (sign ++ '"' :: phrase ++ ['"'])) =
      terms text ++ [sign ++ '"' :: phrase ++ ['"']] := by
  have phraseTerm := terms_escaped signed plain atGap_nil fun _ _ => rfl
  rw [escape_of_quoteless unquoted] at phraseTerm
  have behind : terms ([' '] ++ (sign ++ '"' :: phrase ++ ['"'])) =
      terms (sign ++ '"' :: phrase ++ ['"']) :=
    terms_blanks (by simp)
  rw [terms_append quoteless (atGap_cons isBlank_space)]
  exact congrArg (terms text ++ ·) (behind.trans phraseTerm)

/-! ## The seam before text without quotes -/

theorem closeQuote_of_quoteless (quoteless : '"' ∉ text) : closeQuote text = none := by
  cases closed : closeQuote text with
  | none => rfl
  | some halves =>
    rw [eq_append_of_closeQuote closed] at quoteless
    simp at quoteless

/-- No quote of the second text closes what is open in the first. -/
theorem closeQuote_append (quoteless : '"' ∉ rest) :
    closeQuote (text ++ rest) =
      (closeQuote text).map fun closed => (closed.1, closed.2 ++ rest) := by
  fun_induction closeQuote text with
  | case1 => exact closeQuote_of_quoteless quoteless
  | case2 more => exact closeQuote_quote (more ++ rest)
  | case3 =>
    exact closeQuote_of_quoteless fun member =>
      quoteless ((List.mem_cons.mp member).resolve_left (by decide))
  | case4 => rfl
  | case5 d more line _ ih => simp [closeQuote, line, ih, Function.comp_def]
  | case6 c more quote backslash ih =>
    rw [List.cons_append, closeQuote_plain quote backslash, ih, Option.map_map, Option.map_map]
    rfl

theorem literal?_append (quoteless : '"' ∉ rest) : literal? (text ++ rest) = literal? text := by
  cases text with
  | nil =>
    refine literal?_eq_none fun opened => ?_
    exact quoteless (List.mem_of_mem_head? opened)
  | cons c more =>
    rw [List.cons_append, literal?, literal?, closeQuote_append quoteless, Option.map_map]
    rfl

theorem lastQuotedValue?_append_gap (quoteless : '"' ∉ rest) (gap : AtGap rest) :
    lastQuotedValue? (text ++ rest) = lastQuotedValue? text := by
  induction text with
  | nil => exact lastQuotedValue?_atGap gap
  | cons c more ih =>
    rw [List.cons_append, lastQuotedValue?, lastQuotedValue?, ih, literal?_append quoteless]

/-- A term does not reach over a gap to text without quotes, even where it holds a quote that
nothing closes. -/
theorem termAt_append {c : Char} (quoteless : '"' ∉ rest) (gap : AtGap rest) :
    termAt c (text ++ rest) = termAt c text := by
  have signed : signedLiteral? (c :: (text ++ rest)) = signedLiteral? (c :: text) := by
    rw [signedLiteral?, signedLiteral?, literal?_append quoteless, ← List.cons_append,
      literal?_append quoteless]
  have ends : run (c :: text ++ rest) = run (c :: text) := run_append gap
  rw [termAt, termAt, lastQuotedValue?_append_gap quoteless gap, signed, ← ends, List.cons_append]

/-- Two texts with a gap between them divide each by itself, unless both hold quotes. -/
theorem terms_gap {gap : List Char} (isGap : IsGap gap)
    (quoteless : '"' ∉ text ∨ '"' ∉ rest) :
    terms (text ++ gap ++ rest) = terms text ++ terms rest := by
  have passed : terms (gap ++ rest) = terms rest := terms_blanks isGap.blank
  rw [List.append_assoc, ← passed]
  obtain first | second := quoteless
  · exact terms_append first isGap.atGap
  · refine terms_append_of_termAt fun c more _ => termAt_append (fun member => ?_) isGap.atGap
    rcases List.mem_append.mp member with blank | later
    · exact absurd (isGap.blank _ blank) (by simp)
    · exact second later

/-! ## Texts in a row -/

/-- Things in a row, with blanks before each but the first. -/
structure Spaced (α : Type) where
  first : α
  others : List (List Char × α)
  gaps : ∀ other ∈ others, IsGap other.1

namespace Spaced

variable {α : Type}

def items (row : Spaced α) : List α := row.first :: row.others.map Prod.snd

/-- The text of a row, given that of each thing in it. -/
def written (write : α → List Char) (row : Spaced α) : List Char :=
  write row.first ++ row.others.flatMap fun other => other.1 ++ write other.2

/-- What a row says is what the things in it say, one after the other, to a reader that passes over
gaps and reads each of them before any gap. -/
theorem read_written {β : Type} {read : List Char → List β} {said : α → List β}
    {write : α → List Char} {row : Spaced α} (nothing : read [] = [])
    (passes : ∀ gap rest, IsGap gap → read (gap ++ rest) = read rest)
    (each : ∀ item ∈ row.items, ∀ rest, AtGap rest →
      read (write item ++ rest) = said item ++ read rest) :
    read (row.written write) = row.items.flatMap said := by
  obtain ⟨first, others, gaps⟩ := row
  unfold written
  induction others generalizing first with
  | nil =>
    have alone := each first List.mem_cons_self [] atGap_nil
    rw [nothing] at alone
    simpa [items] using alone
  | cons other rest ih =>
    obtain ⟨gap, next⟩ := other
    rw [List.forall_mem_cons] at gaps
    have later : read (write next ++ rest.flatMap fun other => other.1 ++ write other.2) =
        (next :: rest.map Prod.snd).flatMap said :=
      ih next gaps.2 fun item member => each item (List.mem_cons_of_mem _ member)
    have divided := each first List.mem_cons_self
      (gap ++ (write next ++ rest.flatMap fun other => other.1 ++ write other.2)) gaps.1.atGap
    rw [passes gap _ gaps.1, later] at divided
    simpa [items] using divided

/-- A row divides into the texts in it, where each of them is a term before any gap. -/
theorem terms_written {write : α → List Char} {row : Spaced α}
    (each : ∀ item ∈ row.items, ∀ rest, AtGap rest →
      terms (write item ++ rest) = write item :: terms rest) :
    terms (row.written write) = row.items.map write := by
  rw [List.map_eq_flatMap]
  exact read_written rfl (fun _ _ isGap => terms_blanks isGap.blank) each

end Spaced

end SearchCompiler.TermScanning

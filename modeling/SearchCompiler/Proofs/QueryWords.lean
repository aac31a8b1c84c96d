import SearchCompiler.Proofs.TermScanning
import SearchCompiler.Proofs.TokenGroups

/-! Queries without quotes. They divide at their blanks and nowhere else, so the terms of such a
query are its words, and what it says is said word by word. -/
namespace SearchCompiler.QueryWords
open Query Text
open TermScanning TokenGroups

/-- The words of a text, which blanks set apart. -/
def words (text : List Char) : List (List Char) :=
  (text.splitOnP isBlank).filter fun word => !word.isEmpty

/-- A word: some characters, and none of them blank. -/
structure IsWord (word : List Char) : Prop where
  nonempty : word ≠ []
  nonblank : ∀ c ∈ word, isBlank c = false

variable {c : Char} {word text rest : List Char}

/-! ## Words one by one -/

theorem words_blank (blank : isBlank c = true) : words (c :: rest) = words rest := by
  rw [words, List.splitOnP_cons_eq_if_modifyHead, if_pos blank]
  rfl

/-- What stands before a gap is the first word. -/
theorem words_append (isWord : IsWord word) (gap : AtGap rest) :
    words (word ++ rest) = word :: words rest := by
  have kept : (!word.isEmpty) = true := by simpa using isWord.nonempty
  cases rest with
  | nil =>
    rw [List.append_nil, words, List.splitOnP_eq_singleton isWord.nonblank]
    exact List.filter_cons_of_pos kept
  | cons c more =>
    have blank : isBlank c = true := gap c rfl
    rw [words_blank blank, words, words,
      List.splitOnP_append_cons_of_forall_mem isWord.nonblank c blank]
    exact List.filter_cons_of_pos kept

/-- What holds of no text, and still holds with a blank or a word put before it, holds of every
text. -/
@[elab_as_elim]
theorem induction_words {motive : List Char → Prop} (nil : motive [])
    (blank : ∀ c rest, isBlank c = true → motive rest → motive (c :: rest))
    (word : ∀ word rest, IsWord word → AtGap rest → motive rest → motive (word ++ rest))
    (text : List Char) : motive text := by
  induction length : text.length using Nat.strong_induction_on generalizing text with
  | _ n ih =>
    subst length
    cases text with
    | nil => exact nil
    | cons c rest =>
      cases isBlank_c : isBlank c with
      | true => exact blank c rest isBlank_c (ih _ (Nat.lt_succ_self _) rest rfl)
      | false =>
        let behind := rest.dropWhile fun d => !isBlank d
        have divided : c :: rest = run (c :: rest) ++ behind := by
          simp [run, behind, isBlank_c]
        have isWord : IsWord (run (c :: rest)) := by
          refine ⟨by simp [run, isBlank_c], fun d member => ?_⟩
          simpa using List.mem_takeWhile_imp member
        have gap : AtGap behind := by
          intro d next
          have stops := List.head?_dropWhile_not (fun d => !isBlank d) rest
          rw [next] at stops
          simpa using stops
        have shorter : behind.length < (c :: rest).length :=
          Nat.lt_succ_of_le (List.dropWhile_suffix _).length_le
        rw [divided]
        exact word _ _ isWord gap (ih _ shorter behind rfl)

theorem isWord_of_mem (member : word ∈ words text) : IsWord word := by
  induction text using induction_words with
  | nil => cases member
  | blank c rest blank ih => exact ih (by rwa [words_blank blank] at member)
  | word first rest isWord gap ih =>
    rw [words_append isWord gap] at member
    rcases List.mem_cons.mp member with rfl | later
    · exact isWord
    · exact ih later

/-- A character that is not blank stands in one of the words. -/
theorem mem_iff_mem_word (nonblank : isBlank c = false) :
    c ∈ text ↔ ∃ word ∈ words text, c ∈ word := by
  induction text using induction_words with
  | nil => simp [words]
  | blank d rest blank ih =>
    have other : c ≠ d := fun same => by simp [same, blank] at nonblank
    simp [words_blank blank, other, ih]
  | word first rest isWord gap ih => simp [words_append isWord gap, ih]

/-! ## Queries -/

/-- The terms of a text without quotes are its words. -/
theorem terms_eq_words (quoteless : '"' ∉ text) : terms text = words text := by
  induction text using induction_words with
  | nil => rfl
  | blank c rest blank ih =>
    have passed : terms ([c] ++ rest) = terms rest :=
      terms_blanks (List.forall_mem_singleton.mpr blank)
    rw [words_blank blank, ← ih fun member => quoteless (List.mem_cons_of_mem _ member)]
    exact passed
  | word first rest isWord gap ih =>
    rw [List.mem_append, not_or] at quoteless
    rw [words_append isWord gap, terms_run isWord.nonempty isWord.nonblank quoteless.1 gap,
      ih quoteless.2]

/-- A query without quotes says what its words say. -/
theorem tokensOf_quoteless (vocabulary : Vocabulary) (negated : Bool) (quoteless : '"' ∉ text) :
    tokensOf vocabulary negated text =
      vocabulary.tokens negated ((words text).map SignedTerm.ofTerm) := by
  rw [tokensOf, terms_eq_words quoteless]

end SearchCompiler.QueryWords

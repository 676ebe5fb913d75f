import NetRun.Proofs.Text.Pieces

/-!
# Spellings of lines and words

A list of lines is spelled by more than one text, since the last line may or may
not be closed, and a list of words by more than one line, since blanks of any
kind and number stand around them.  Two relations say which texts spell what.
Every text spells one list of lines and every line one list of words: those that
it is split into.
-/

namespace NetRun.Text

/-! ## Lines -/

/-- The text is these lines.  A line feed closes each; behind the last it may be missing. -/
inductive SpellsLines :
    List Char → List (List Char) → Prop where
  | nil : SpellsLines [] []
  | unclosed {line : List Char} :
      line ≠ [] → '\n' ∉ line → SpellsLines line [line]
  | closed {line rest : List Char} {below : List (List Char)} :
      '\n' ∉ line → SpellsLines rest below → SpellsLines (line ++ '\n' :: rest) (line :: below)

/-- A text is split into the lines that it spells. -/
theorem spellsLines_iff
    {text : List Char}
    {pieces : List (List Char)} :
    SpellsLines text pieces ↔ lines text = pieces := by
  constructor
  · intro spells
    induction spells with
    | nil => rfl
    | unclosed nonempty inLine =>
        have split := lines_append nonempty inLine []
        rwa [List.append_nil, lines_nil, List.headD_nil, List.append_nil, List.tail_nil] at split
    | closed inLine _ induction => rw [lines_append_newline inLine, induction]
  · intro split
    induction pieces generalizing text with
    | nil =>
        rw [lines_eq_nil_iff.1 split]
        exact .nil
    | cons line below induction =>
        rcases exists_of_lines_eq_cons split with ⟨inLine, ⟨rfl, rfl⟩ | ⟨rest, rfl, isRest⟩⟩
        · refine .unclosed ?_ inLine
          rintro rfl
          cases split
        · exact .closed inLine (induction isRest)

/-! ## Words -/

/-- The line is these words, with blanks between them and perhaps around them. -/
inductive SpellsWords :
    List Char → List (List Char) → Prop where
  | nil {blanks : List Char} :
      (∀ c ∈ blanks, isBlank c = true) → SpellsWords blanks []
  | cons {blanks word rest : List Char} {others : List (List Char)} :
      (∀ c ∈ blanks, isBlank c = true) → word ≠ [] → (∀ c ∈ word, isBlank c = false) →
        atBoundary rest = true → SpellsWords rest others →
          SpellsWords (blanks ++ (word ++ rest)) (word :: others)

/-- A word has characters, and none of them is blank. -/
theorem solid_of_mem_words
    {line word : List Char}
    (listed : word ∈ words line) :
    word ≠ [] ∧ ∀ c ∈ word, isBlank c = false := by
  induction line generalizing word with
  | nil => exact absurd listed List.not_mem_nil
  | cons c line induction =>
      by_cases blank : isBlank c = true
      · rw [words_cons_blank blank] at listed
        exact induction listed
      · have solid : isBlank c = false := Bool.eq_false_iff.2 blank
        have single : [c] ≠ [] ∧ ∀ d ∈ [c], isBlank d = false :=
          ⟨List.cons_ne_nil _ _, List.forall_mem_singleton.2 solid⟩
        rw [words, if_neg blank] at listed
        split at listed
        case isTrue =>
          rcases List.mem_cons.1 listed with rfl | later
          · exact single
          · exact induction later
        case isFalse =>
          cases rest : words line with
          | nil =>
              rw [rest] at listed
              rw [List.mem_singleton.1 listed]
              exact single
          | cons piece pieces =>
              rw [rest] at listed induction
              rcases List.mem_cons.1 listed with rfl | later
              · refine ⟨List.cons_ne_nil _ _, List.forall_mem_cons.2 ⟨solid, ?_⟩⟩
                exact (induction List.mem_cons_self).2
              · exact induction (List.mem_cons_of_mem piece later)

/-- A line is split into the words that it spells. -/
theorem spellsWords_iff
    {line : List Char}
    {pieces : List (List Char)} :
    SpellsWords line pieces ↔ words line = pieces := by
  constructor
  · intro spells
    induction spells with
    | nil blank => exact words_eq_nil_iff.2 blank
    | cons blank nonempty solid boundary _ induction =>
        rw [words_append_of_blank blank, words_append nonempty solid boundary, induction]
  · intro split
    induction pieces generalizing line with
    | nil => exact .nil (words_eq_nil_iff.1 split)
    | cons word others induction =>
        rcases solid_of_mem_words (split ▸ List.mem_cons_self) with ⟨nonempty, solid⟩
        rcases exists_of_words_eq_cons split with ⟨blanks, rest, rfl, blank, boundary⟩
        rw [words_append_of_blank blank, words_append nonempty solid boundary,
          List.cons.injEq] at split
        exact .cons blank nonempty solid boundary (induction split.2)

end NetRun.Text

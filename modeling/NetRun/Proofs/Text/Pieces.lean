import NetRun.Text.Split

/-!
# Lines and words, taken apart

A text can be put together again from its pieces.  Its first line is closed by
a line feed or is the whole text, and behind the blanks in front of it, the
first word of a line goes on to a blank or to the end.
-/

namespace NetRun.Text

/-! ## Lines -/

theorem lines_eq_nil_iff
    {text : List Char} :
    lines text = [] ↔ text = [] := by
  cases text with
  | nil => simp
  | cons c rest =>
      rw [lines]
      split
      · simp
      · cases lines rest <;> simp [extend]

/-- A text has no more lines than characters. -/
theorem length_lines_le
    (text : List Char) :
    (lines text).length ≤ text.length := by
  induction text with
  | nil => exact Nat.le_refl 0
  | cons c rest induction =>
      rw [lines, List.length_cons]
      split
      · exact Nat.succ_le_succ induction
      · cases pieces : lines rest with
        | nil => exact Nat.succ_le_succ (Nat.zero_le _)
        | cons piece pieces =>
            rw [pieces] at induction
            exact Nat.le_succ_of_le induction

/-- Characters other than line feeds belong to the first line of what follows them. -/
theorem lines_append
    {start : List Char}
    (nonempty : start ≠ [])
    (inLine : '\n' ∉ start)
    (rest : List Char) :
    lines (start ++ rest) = (start ++ (lines rest).headD []) :: (lines rest).tail := by
  induction start with
  | nil => exact absurd rfl nonempty
  | cons c start induction =>
      rw [List.mem_cons, not_or] at inLine
      have proper : ¬ c = '\n' := fun equal => inLine.1 equal.symm
      rw [List.cons_append, lines, if_neg proper]
      cases start with
      | nil =>
          rw [List.nil_append]
          cases lines rest <;> rfl
      | cons d start =>
          rw [induction (List.cons_ne_nil d start) inLine.2]
          rfl

/-- The first line of a text is all of it, or a line feed closes it. -/
theorem exists_of_lines_eq_cons
    {text line : List Char}
    {below : List (List Char)}
    (split : lines text = line :: below) :
    '\n' ∉ line ∧
      ((text = line ∧ below = []) ∨
        ∃ rest, text = line ++ '\n' :: rest ∧ lines rest = below) := by
  induction text generalizing line below with
  | nil => cases split
  | cons c text induction =>
      rw [lines] at split
      by_cases newline : c = '\n'
      · rw [if_pos newline] at split
        cases split
        exact ⟨List.not_mem_nil, Or.inr ⟨text, by rw [newline]; rfl, rfl⟩⟩
      · rw [if_neg newline] at split
        have proper : ¬ '\n' = c := fun equal => newline equal.symm
        cases rest : lines text with
        | nil =>
            rw [rest] at split
            cases split
            rw [lines_eq_nil_iff.1 rest]
            exact ⟨by simpa using proper, Or.inl ⟨rfl, rfl⟩⟩
        | cons next others =>
            rw [rest] at split
            cases split
            rcases induction rest with ⟨inNext, ⟨rfl, rfl⟩ | ⟨behind, rfl, belowLines⟩⟩
            · exact ⟨by simpa using ⟨proper, inNext⟩, Or.inl ⟨rfl, rfl⟩⟩
            · exact ⟨by simpa using ⟨proper, inNext⟩, Or.inr ⟨behind, rfl, belowLines⟩⟩

/-- What follows the first line of a text begins with a line feed, if there is any of it. -/
theorem exists_append_of_lines_eq_cons
    {text line : List Char}
    {below : List (List Char)}
    (split : lines text = line :: below) :
    '\n' ∉ line ∧ ∃ ending, text = line ++ ending ∧ atBoundary ending = true := by
  rcases exists_of_lines_eq_cons split with ⟨inLine, ⟨rfl, -⟩ | ⟨rest, whole, -⟩⟩
  · exact ⟨inLine, [], (List.append_nil text).symm, rfl⟩
  · exact ⟨inLine, '\n' :: rest, whole, rfl⟩

/-- Texts that are put together from lines, each closed by a line feed, have these lines. -/
theorem lines_flatMap_newline
    {pieces : List (List Char)}
    (inLine : ∀ piece ∈ pieces, '\n' ∉ piece) :
    lines (pieces.flatMap fun piece => piece ++ ['\n']) = pieces := by
  induction pieces with
  | nil => rfl
  | cons piece pieces induction =>
      rcases List.forall_mem_cons.1 inLine with ⟨first, others⟩
      rw [List.flatMap_cons, List.append_assoc, List.singleton_append,
        lines_append_newline first, induction others]

/-! ## Runs -/

/-- A text has one longest run of a class of characters in front, and one rest behind it. -/
theorem run_append_inj
    {inRun : Char → Bool}
    {first second rest other : List Char}
    (firstRuns : ∀ c ∈ first, inRun c = true)
    (secondRuns : ∀ c ∈ second, inRun c = true)
    (restStops : rest.takeWhile inRun = [])
    (otherStops : other.takeWhile inRun = [])
    (same : first ++ rest = second ++ other) :
    first = second ∧ rest = other := by
  have runs := congrArg (List.takeWhile inRun) same
  rw [List.takeWhile_append_of_pos firstRuns, List.takeWhile_append_of_pos secondRuns,
    restStops, otherStops, List.append_nil, List.append_nil] at runs
  rw [runs] at same
  exact ⟨runs, List.append_cancel_left same⟩

/-! ## Words -/

/-- Only blanks belong to no word. -/
theorem words_eq_nil_iff
    {line : List Char} :
    words line = [] ↔ ∀ c ∈ line, isBlank c = true := by
  induction line with
  | nil => simp
  | cons c line induction =>
      rw [List.forall_mem_cons]
      by_cases blank : isBlank c = true
      · rw [words_cons_blank blank, induction]
        simp [blank]
      · rw [words, if_neg blank]
        constructor
        · intro noWord
          split at noWord
          · cases noWord
          · cases rest : words line <;> rw [rest] at noWord <;> cases noWord
        · intro allBlank
          exact absurd allBlank.1 blank

theorem words_append_of_blank
    {blanks : List Char}
    (blank : ∀ c ∈ blanks, isBlank c = true)
    (rest : List Char) :
    words (blanks ++ rest) = words rest := by
  induction blanks with
  | nil => rfl
  | cons c blanks induction =>
      rw [List.forall_mem_cons] at blank
      rw [List.cons_append, words_cons_blank blank.1, induction blank.2]

/-- A first word has only blanks in front of it, and a blank or nothing behind it. -/
theorem exists_of_words_eq_cons
    {line word : List Char}
    {others : List (List Char)}
    (split : words line = word :: others) :
    ∃ blanks rest,
      line = blanks ++ (word ++ rest) ∧
        (∀ c ∈ blanks, isBlank c = true) ∧ atBoundary rest = true := by
  induction line generalizing word others with
  | nil => cases split
  | cons c line induction =>
      by_cases blank : isBlank c = true
      · rw [words_cons_blank blank] at split
        rcases induction split with ⟨blanks, rest, rfl, allBlank, boundary⟩
        exact ⟨c :: blanks, rest, rfl, List.forall_mem_cons.2 ⟨blank, allBlank⟩, boundary⟩
      · rw [words, if_neg blank] at split
        by_cases ends : atBoundary line = true
        · rw [if_pos ends] at split
          cases split
          exact ⟨[], line, rfl, fun _ impossible => absurd impossible List.not_mem_nil, ends⟩
        · rw [if_neg ends] at split
          cases line with
          | nil => exact absurd rfl ends
          | cons d line =>
              cases tail : words (d :: line) with
              | nil => exact absurd (words_eq_nil_iff.1 tail d List.mem_cons_self) ends
              | cons next later =>
                  rw [tail] at split
                  cases split
                  rcases induction tail with ⟨blanks, rest, whole, allBlank, boundary⟩
                  cases blanks with
                  | nil =>
                      rw [whole]
                      exact ⟨[], rest, rfl,
                        fun _ impossible => absurd impossible List.not_mem_nil, boundary⟩
                  | cons b blanks =>
                      cases whole
                      exact absurd (allBlank d List.mem_cons_self) ends

theorem atBoundary_append
    {first second : List Char}
    (boundary : atBoundary first = true)
    (boundarySecond : atBoundary second = true) :
    atBoundary (first ++ second) = true := by
  cases first with
  | nil => exact boundarySecond
  | cons c first => exact boundary

/-- What follows a word on its own line goes on with a blank if what follows it at all does. -/
theorem atBoundary_headD_lines
    {rest : List Char}
    (boundary : atBoundary rest = true) :
    atBoundary ((lines rest).headD []) = true := by
  cases rest with
  | nil => rfl
  | cons c rest =>
      rw [lines]
      split
      · rfl
      · cases lines rest
        · exact boundary
        · exact boundary

end NetRun.Text

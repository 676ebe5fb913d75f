import NetRun.Text.Blank

/-!
# Lines and words

A text is read line by line, and a line word by word.  A line ends at a line
feed; a carriage return before it is a blank and so belongs to no word.  A
word is a longest run of characters that are not blank.

The main statements say what one separator does: a line feed closes the line
before it, and a blank closes the word before it.
-/

namespace NetRun.Text

/-- Put a character in front of the first piece, opening one if there is none. -/
def extend
    (c : Char) :
    List (List Char) → List (List Char)
  | [] => [[c]]
  | piece :: pieces => (c :: piece) :: pieces

/--
The lines of a text.  A final line feed opens no further line, so the empty
text has no line at all.
-/
def lines :
    List Char → List (List Char)
  | [] => []
  | c :: rest => if c = '\n' then [] :: lines rest else extend c (lines rest)

/-- The text is over or goes on with a blank: a word that stands here ends. -/
def atBoundary :
    List Char → Bool
  | [] => true
  | c :: _ => isBlank c

/-- The words of a line, in order. -/
def words :
    List Char → List (List Char)
  | [] => []
  | c :: rest =>
    if isBlank c then words rest
    else if atBoundary rest then [c] :: words rest
    else extend c (words rest)

@[simp]
theorem lines_nil :
    lines [] = [] :=
  rfl

/-- A line feed closes the line before it. -/
theorem lines_append_newline
    {line : List Char}
    (h : '\n' ∉ line)
    (rest : List Char) :
    lines (line ++ '\n' :: rest) = line :: lines rest := by
  induction line with
  | nil => simp [lines]
  | cons c line ih =>
    simp only [List.mem_cons, not_or] at h
    simp [lines, ih h.2, extend, Ne.symm h.1]

@[simp]
theorem words_nil :
    words [] = [] :=
  rfl

/-- A blank in front of a line belongs to no word. -/
theorem words_cons_blank
    {c : Char}
    (h : isBlank c = true)
    (rest : List Char) :
    words (c :: rest) = words rest := by
  simp [words, h]

/-- A word is closed by what follows it, if that is a blank or nothing. -/
theorem words_append
    {word : List Char}
    (nonempty : word ≠ [])
    (solid : ∀ c ∈ word, isBlank c = false)
    {rest : List Char}
    (boundary : atBoundary rest = true) :
    words (word ++ rest) = word :: words rest := by
  induction word with
  | nil => exact absurd rfl nonempty
  | cons c word ih =>
    have hc := solid c List.mem_cons_self
    cases word with
    | nil => simp [words, hc, boundary]
    | cons d word =>
      have hd : isBlank d = false := solid d (by simp)
      have tail := ih (by simp) (fun x hx => solid x (List.mem_cons_of_mem _ hx))
      rw [List.cons_append, words, if_neg (by simp [hc]), tail, List.cons_append]
      simp [atBoundary, hd, extend]

end NetRun.Text

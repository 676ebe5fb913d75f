/-!
# Uniform draws

A number below a bound is drawn from a stream of 32-bit words.  A word is
multiplied by the bound: the high half of the product is the number, and the
low half decides whether the word is accepted.  Each number below the bound
comes from the same number of accepted words.
-/

namespace NetRun.Uniform

/-- The number of zero bits in front of the highest bit that is set, of 32. -/
def leadingZeros
    (n : UInt32) :
    Nat :=
  if n = 0 then 32 else 31 - Nat.log2 n.toNat

/-- The largest low half that is accepted: the bound moved up to the highest bit, less one. -/
def acceptLimit
    (bound : UInt32) :
    Nat :=
  bound.toNat * Nat.pow 2 (leadingZeros bound) - 1

/-- The number that a word stands for, if it is accepted. -/
def candidate
    (bound word : UInt32) :
    Option UInt32 :=
  let product := word.toNat * bound.toNat
  if product % 4294967296 ≤ acceptLimit bound then
    some (UInt32.ofNat (product / 4294967296))
  else none

/--
Take words until one is accepted, but `tries` of them at most; if none is, the
number is zero.
-/
def below
    {σ : Type}
    (next : σ → UInt32 × σ)
    (bound : UInt32) :
    (tries : Nat) → σ → UInt32 × σ
  | 0, stream => (0, stream)
  | tries + 1, stream =>
    let (word, rest) := next stream
    match candidate bound word with
    | some number => (number, rest)
    | none => below next bound tries rest

/-- A list of words to draw from, followed by zeros, and the number of words taken. -/
structure Supply where
  taken : Nat
  words : List UInt32
deriving DecidableEq, Repr

/-- Take the next word. -/
def Supply.next
    (supply : Supply) :
    UInt32 × Supply :=
  match supply.words with
  | [] => (0, ⟨supply.taken + 1, []⟩)
  | word :: words => (word, ⟨supply.taken + 1, words⟩)

/-- Draw a number below a bound; a zero is always accepted, so a draw ends. -/
def Supply.below
    (bound : UInt32)
    (supply : Supply) :
    UInt32 × Supply :=
  Uniform.below Supply.next bound (supply.words.length + 1) supply

end NetRun.Uniform

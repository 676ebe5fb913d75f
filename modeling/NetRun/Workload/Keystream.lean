import NetRun.Workload.Uniform

/-!
# The keystream of the ChaCha cipher

Reproducible words come from the ChaCha cipher with twelve rounds.  A block of
sixteen words is worked out from a key of eight words and the number of the
block; the state is kept as four rows of four words, so that a round on the
diagonals is a round on the columns of turned rows.

A seed is spread over the key by a linear congruential generator.
-/

namespace NetRun.Keystream

/-- Turn the bits of a word to the left. -/
def rotateLeft
    (word : UInt32)
    (amount : UInt32) :
    UInt32 :=
  (word <<< amount) ||| (word >>> (32 - amount))

/-- Four words in a row. -/
structure Quad where
  a : UInt32
  b : UInt32
  c : UInt32
  d : UInt32
deriving DecidableEq, Repr

/-- Mix four words. -/
def quarterRound
    (words : Quad) :
    Quad :=
  let a := words.a + words.b
  let d := rotateLeft (words.d ^^^ a) 16
  let c := words.c + d
  let b := rotateLeft (words.b ^^^ c) 12
  let a := a + b
  let d := rotateLeft (d ^^^ a) 8
  let c := c + d
  let b := rotateLeft (b ^^^ c) 7
  ⟨a, b, c, d⟩

/-- Add two rows word by word. -/
def Quad.add
    (x y : Quad) :
    Quad :=
  ⟨x.a + y.a, x.b + y.b, x.c + y.c, x.d + y.d⟩

/-- Turn a row to the left by one place. -/
def Quad.turn
    (row : Quad) :
    Quad :=
  ⟨row.b, row.c, row.d, row.a⟩

/-- The words of a row, in order. -/
def Quad.toList
    (row : Quad) :
    List UInt32 :=
  [row.a, row.b, row.c, row.d]

/-- Sixteen words in four rows. -/
structure Grid where
  r0 : Quad
  r1 : Quad
  r2 : Quad
  r3 : Quad
deriving DecidableEq, Repr

/-- Add two grids word by word. -/
def Grid.add
    (x y : Grid) :
    Grid :=
  ⟨x.r0.add y.r0, x.r1.add y.r1, x.r2.add y.r2, x.r3.add y.r3⟩

/-- Rows become columns. -/
def Grid.transpose
    (grid : Grid) :
    Grid :=
  ⟨⟨grid.r0.a, grid.r1.a, grid.r2.a, grid.r3.a⟩,
    ⟨grid.r0.b, grid.r1.b, grid.r2.b, grid.r3.b⟩,
    ⟨grid.r0.c, grid.r1.c, grid.r2.c, grid.r3.c⟩,
    ⟨grid.r0.d, grid.r1.d, grid.r2.d, grid.r3.d⟩⟩

/-- Mix every column. -/
def Grid.columnRound
    (grid : Grid) :
    Grid :=
  let columns := grid.transpose
  Grid.transpose
    ⟨quarterRound columns.r0, quarterRound columns.r1, quarterRound columns.r2,
      quarterRound columns.r3⟩

/-- Turn the diagonals into columns. -/
def Grid.shear
    (grid : Grid) :
    Grid :=
  ⟨grid.r0, grid.r1.turn, grid.r2.turn.turn, grid.r3.turn.turn.turn⟩

/-- Turn the columns back into diagonals. -/
def Grid.unshear
    (grid : Grid) :
    Grid :=
  ⟨grid.r0, grid.r1.turn.turn.turn, grid.r2.turn.turn, grid.r3.turn⟩

/-- Mix every column and then every diagonal. -/
def Grid.doubleRound
    (grid : Grid) :
    Grid :=
  grid.columnRound.shear.columnRound.unshear

/-- A key of eight words. -/
structure Key where
  low : Quad
  high : Quad
deriving DecidableEq, Repr

/-- The state that a block starts from. -/
def start
    (key : Key)
    (block : UInt64) :
    Grid :=
  ⟨⟨0x61707865, 0x3320646e, 0x79622d32, 0x6b206574⟩, key.low, key.high,
    ⟨block.toUInt32, (block >>> 32).toUInt32, 0, 0⟩⟩

/-- The sixteen words of a block: six double rounds, added to the state before them. -/
def blockWords
    (key : Key)
    (block : UInt64) :
    List UInt32 :=
  let before := start key block
  let mixed := (List.range 6).foldl (fun grid _ => grid.doubleRound) before
  let grid := mixed.add before
  grid.r0.toList ++ grid.r1.toList ++ grid.r2.toList ++ grid.r3.toList

/-- One step of the generator that spreads a seed. -/
def seedStep
    (state : UInt64) :
    UInt64 :=
  state * 6364136223846793005 + 11634580027462260723

/-- The word that a state of the generator shows. -/
def seedWord
    (state : UInt64) :
    UInt32 :=
  let mixed := (((state >>> 18) ^^^ state) >>> 27).toUInt32
  let turn := (state >>> 59).toUInt32
  (mixed >>> turn) ||| (mixed <<< ((32 - turn) % 32))

/-- Four words and the state of the generator after them. -/
def seedQuad
    (state : UInt64) :
    Quad × UInt64 :=
  let s1 := seedStep state
  let s2 := seedStep s1
  let s3 := seedStep s2
  let s4 := seedStep s3
  (⟨seedWord s1, seedWord s2, seedWord s3, seedWord s4⟩, s4)

/-- The key that a seed stands for. -/
def Key.ofSeed
    (seed : UInt64) :
    Key :=
  let (low, state) := seedQuad seed
  ⟨low, (seedQuad state).1⟩

/-- A place in the keystream: the words left of a block, and the next block. -/
structure Stream where
  key : Key
  block : UInt64
  words : List UInt32
deriving DecidableEq, Repr

/-- The keystream from its start. -/
def Stream.ofKey
    (key : Key) :
    Stream :=
  ⟨key, 0, []⟩

/-- Take the next word. -/
def Stream.next
    (stream : Stream) :
    UInt32 × Stream :=
  match stream.words with
  | word :: words => (word, { stream with words := words })
  | [] =>
    match blockWords stream.key stream.block with
    | word :: words => (word, ⟨stream.key, stream.block + 1, words⟩)
    | [] => (0, stream)

/-- More words than one draw can be expected ever to need: each is accepted half the time. -/
def tries :
    Nat :=
  4096

/-- Draw a number below a bound. -/
def Stream.below
    (bound : UInt32)
    (stream : Stream) :
    UInt32 × Stream :=
  Uniform.below Stream.next bound tries stream

end NetRun.Keystream

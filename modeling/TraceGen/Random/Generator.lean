/-!
# A source of random words

The words are the key stream of ChaCha with 8 rounds, a 64-bit block counter that starts at 0 and a
nonce of zero. A seed of 64 bits is stretched to the eight words of the key by a linear congruential
generator whose states are mixed by a shift and a rotation.
-/

namespace TraceGen.Random

/-- Four words side by side. -/
abbrev Row := List UInt32

/-- The 16 words of a block in four rows. -/
structure Grid where
  /-- The first row. -/
  a : Row
  /-- The second row. -/
  b : Row
  /-- The third row. -/
  c : Row
  /-- The fourth row. -/
  d : Row

/-- Rotates a word to the left; the amount lies between 1 and 31. -/
def rotateWord (x : UInt32) (amount : UInt32) : UInt32 :=
  (x <<< amount) ||| (x >>> (32 - amount))

/-- Adds `y` to `x` and turns `z`, mixed with the sum, by `amount`. -/
def addTurn (amount : UInt32) (x y z : Row) : Row × Row :=
  let x := List.zipWith (· + ·) x y
  (x, List.zipWith (fun u v => rotateWord (u ^^^ v) amount) z x)

namespace Grid

/-- A quarter round on each of the four columns. -/
def mix (g : Grid) : Grid :=
  let (a, d) := addTurn 16 g.a g.b g.d
  let (c, b) := addTurn 12 g.c d g.b
  let (a, d) := addTurn 8 a b d
  let (c, b) := addTurn 7 c d b
  ⟨a, b, c, d⟩

/-- Moves the rows so that the diagonals become columns. -/
def slide (g : Grid) : Grid :=
  ⟨g.a, g.b.rotateLeft 1, g.c.rotateLeft 2, g.d.rotateLeft 3⟩

/-- Moves the rows back. -/
def unslide (g : Grid) : Grid :=
  ⟨g.a, g.b.rotateRight 1, g.c.rotateRight 2, g.d.rotateRight 3⟩

/-- A round on the columns and one on the diagonals. -/
def doubleRound (g : Grid) : Grid :=
  g.mix.slide.mix.unslide

/-- The words in order. -/
def words (g : Grid) : List UInt32 :=
  g.a ++ g.b ++ g.c ++ g.d

end Grid

/-- The block of the key stream at a counter. -/
def block (key : List UInt32) (counter : UInt64) : List UInt32 :=
  let start : Grid :=
    ⟨[0x61707865, 0x3320646e, 0x79622d32, 0x6b206574], key.take 4, key.drop 4,
      [counter.toUInt32, (counter >>> 32).toUInt32, 0, 0]⟩
  let last := start.doubleRound.doubleRound.doubleRound.doubleRound
  List.zipWith (· + ·) last.words start.words

/-- The next state of the generator that stretches a seed. -/
def stretchStep (state : UInt64) : UInt64 :=
  state * 6364136223846793005 + 11634580027462260723

/-- The word that a state of that generator gives. -/
def stretchWord (state : UInt64) : UInt32 :=
  let x := (((state >>> 18) ^^^ state) >>> 27).toUInt32
  let amount := (state >>> 59).toUInt32
  if amount = 0 then x else rotateWord x (32 - amount)

/-- The words that `n` steps from a state give. -/
def stretch : Nat → UInt64 → List UInt32
  | 0, _ => []
  | n + 1, state => stretchWord (stretchStep state) :: stretch n (stretchStep state)

/-- A key, the counter of the next block and the words of the last block that are still unused. -/
structure Generator where
  /-- The eight words of the key. -/
  key : List UInt32
  /-- The counter of the next block. -/
  counter : UInt64
  /-- The words that come next. -/
  pending : List UInt32

namespace Generator

/-- The generator of a seed. -/
def ofSeed (seed : UInt64) : Generator :=
  ⟨stretch 8 seed, 0, []⟩

/-- The next word. -/
def next (g : Generator) : UInt32 × Generator :=
  match g.pending with
  | w :: rest => (w, { g with pending := rest })
  | [] =>
    match block g.key g.counter with
    | w :: rest => (w, { g with counter := g.counter + 1, pending := rest })
    | [] => (0, g)

end Generator

end TraceGen.Random

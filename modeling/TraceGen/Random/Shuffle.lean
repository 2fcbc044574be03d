/-!
# Shuffling

`shuffle` rearranges a list by swaps that are drawn from any source of 32-bit words. Walking from
the front, it swaps each item with one at or before it. Several of these choices are cut out of one
number, drawn below a product of consecutive bounds, as long as the product fits into 32 bits.
-/

namespace TraceGen.Random

variable {σ α : Type}

/-- A number below `bound`, which is positive and fits into 32 bits: the high half of a product of
`bound` and a word, corrected by a second word where the low half could still carry. -/
def uniform (next : σ → UInt32 × σ) (bound : Nat) (s : σ) : Nat × σ :=
  let (w, s) := next s
  let high := w.toNat * bound / UInt32.size
  let low := w.toNat * bound % UInt32.size
  if low > UInt32.size - bound then
    let (w, s) := next s
    let carry := w.toNat * bound / UInt32.size
    (if low + carry ≥ UInt32.size then high + 1 else high, s)
  else (high, s)

/-- Multiplies `product` by `factor` and the numbers after it while the result stays below `2^32`;
also counts the factors. -/
def extend : Nat → Nat → Nat → Nat → Nat × Nat
  | 0, product, _, count => (product, count)
  | fuel + 1, product, factor, count =>
    if product * factor < UInt32.size then extend fuel (product * factor) (factor + 1) (count + 1)
    else (product, count)

/-- The product of `m` and the numbers after it that still fits into 32 bits, with the number of its
factors. From the second on each factor at least doubles the product, so 32 steps are enough. -/
def chunkBound (m : Nat) : Nat × Nat :=
  extend 32 m (m + 1) 1

/-- A stock of choices that have been drawn but not used. -/
structure Choices where
  /-- How many choices are left in the stock. -/
  left : Nat
  /-- The number that they are cut from. -/
  chunk : Nat

/-- A choice below `m`. -/
def Choices.below (next : σ → UInt32 × σ) (m : Nat) (c : Choices) (s : σ) :
    Nat × Choices × σ :=
  let (c, s) := if c.left = 0 then
      let (bound, count) := chunkBound m
      let (chunk, s) := uniform next bound s
      (Choices.mk (count - 1) chunk, s)
    else (Choices.mk (c.left - 1) c.chunk, s)
  if c.left = 0 then (c.chunk, c, s) else (c.chunk % m, ⟨c.left, c.chunk / m⟩, s)

/-- Swaps each of the last `n` items with one at or before it. -/
def shuffleFrom (next : σ → UInt32 × σ) : Nat → Choices → Array α → σ → Array α × σ
  | 0, _, items, s => (items, s)
  | n + 1, c, items, s =>
    let i := items.size - (n + 1)
    let (j, c, s) := c.below next (i + 1) s
    shuffleFrom next n c (items.swapIfInBounds i j) s

/-- Rearranges a list. A list of less than two items draws nothing. -/
def shuffle (next : σ → UInt32 × σ) (items : List α) (s : σ) : List α × σ :=
  if items.length < 2 then (items, s)
  else
    let (shuffled, s) := shuffleFrom next items.length ⟨1, 0⟩ items.toArray s
    (shuffled.toList, s)

end TraceGen.Random

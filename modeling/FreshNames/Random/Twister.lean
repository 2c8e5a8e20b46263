/-!
# The Mersenne twister

The generator MT19937 over words of 32 bits: a block of 624 words, renewed as a whole when all of
them have been given out, and a tempering of each word on its way out.

* `Twister.ofSeed` - the generator seeded with a number, whose 32-bit words, the least significant
  first, are the key;
* `Twister.draw` - the next 32 bits; `Twister.drawBits` - the next number of a few bits;
* `Twister.drawBelow` - the next number below a bound.
-/

set_option autoImplicit false

namespace FreshNames

/-- The state of the generator: the current block, and how many of its words have been given out. -/
structure Twister where
  block : Array UInt32
  used : Nat
  deriving DecidableEq

namespace Twister

/-- The number of words in a block. -/
def blockSize : Nat := 624

/-! ## Seeding -/

/-- The word of a block, zero outside. -/
def at? (block : Array UInt32) (i : Nat) : UInt32 := block.getD i 0

/-- A word mixed with its own upper bits. -/
def mixed (w : UInt32) : UInt32 := w ^^^ (w >>> 30)

/-- The block that a single word gives. -/
def initialBlock (seed : UInt32) : Array UInt32 :=
  (List.range (blockSize - 1)).foldl
    (fun block i => block.push (1812433253 * mixed (at? block i) + UInt32.ofNat (i + 1))) #[seed]

/-- A block, and the places in it and in the key where the seeding stands. -/
structure Seeding where
  block : Array UInt32
  place : Nat
  keyPlace : Nat

/-- Puts a word at the current place and goes on; after the last place the first word takes over
    the last one and the seeding starts again behind it. -/
def Seeding.put (s : Seeding) (w : UInt32) (keyPlace : Nat) : Seeding :=
  let block := s.block.setIfInBounds s.place w
  if s.place + 1 < blockSize then ⟨block, s.place + 1, keyPlace⟩
  else ⟨block.setIfInBounds 0 (at? block (blockSize - 1)), 1, keyPlace⟩

/-- One round of the first pass, which brings in the key. -/
def Seeding.takeKey (key : Array UInt32) (s : Seeding) : Seeding :=
  let w := (at? s.block s.place ^^^ (mixed (at? s.block (s.place - 1)) * 1664525))
    + at? key s.keyPlace + UInt32.ofNat s.keyPlace
  s.put w (if s.keyPlace + 1 < key.size then s.keyPlace + 1 else 0)

/-- One round of the second pass. -/
def Seeding.settle (s : Seeding) : Seeding :=
  let w := (at? s.block s.place ^^^ (mixed (at? s.block (s.place - 1)) * 1566083941))
    - UInt32.ofNat s.place
  s.put w s.keyPlace

/-- The generator seeded with a key of words. -/
def ofKey (key : Array UInt32) : Twister :=
  let start : Seeding := ⟨initialBlock 19650218, 1, 0⟩
  let first := (List.range (max blockSize key.size)).foldl (fun s _ => s.takeKey key) start
  let second := (List.range (blockSize - 1)).foldl (fun s _ => s.settle) first
  ⟨second.block.setIfInBounds 0 0x80000000, blockSize⟩

/-- The 32-bit words of a number, the least significant first; one word at least. -/
def wordsOf (n : Nat) : List UInt32 :=
  if n < 0x100000000 then [UInt32.ofNat n]
  else UInt32.ofNat (n % 0x100000000) :: wordsOf (n / 0x100000000)
termination_by n
decreasing_by omega

/-- The generator seeded with a number; its sign does not matter. -/
def ofSeed (seed : Int) : Twister := ofKey (wordsOf seed.natAbs).toArray

/-! ## Drawing -/

/-- The word that takes a place when the block is renewed. -/
def renewedWord (block : Array UInt32) (i : Nat) : UInt32 :=
  let y := (at? block i &&& 0x80000000) ||| (at? block ((i + 1) % blockSize) &&& 0x7fffffff)
  at? block ((i + 397) % blockSize) ^^^ (y >>> 1) ^^^ (if y &&& 1 = 0 then 0 else 0x9908b0df)

/-- The next block, word after word in place. -/
def renew (block : Array UInt32) : Array UInt32 :=
  (List.range blockSize).foldl (fun b i => b.setIfInBounds i (renewedWord b i)) block

/-- A word as it is given out. -/
def temper (w : UInt32) : UInt32 :=
  let w := w ^^^ (w >>> 11)
  let w := w ^^^ ((w <<< 7) &&& 0x9d2c5680)
  let w := w ^^^ ((w <<< 15) &&& 0xefc60000)
  w ^^^ (w >>> 18)

/-- The next 32 bits. -/
def draw (t : Twister) : UInt32 × Twister :=
  if t.used < blockSize then (temper (at? t.block t.used), { t with used := t.used + 1 })
  else
    let block := renew t.block
    (temper (at? block 0), ⟨block, 1⟩)

/-- The next number of `bits` bits, at most 32: the upper bits of the next word. -/
def drawBits (t : Twister) (bits : Nat) : Nat × Twister :=
  let (w, t) := t.draw
  (w.toNat / Nat.pow 2 (32 - bits), t)

/-- Draws numbers of `bits` bits until one is below the bound. -/
def drawUntil (bound bits : Nat) : (rounds : Nat) → Twister → Nat × Twister
  | 0, t => (0, t)
  | rounds + 1, t =>
    let (n, t) := t.drawBits bits
    if n < bound then (n, t) else drawUntil bound bits rounds t

/-- The number of bits of a number. -/
def bitLength (n : Nat) : Nat := if n = 0 then 0 else n.log2 + 1

/-- One round more than can be lost in a row.  A number of as many bits as the bound that is not
    below the bound has its top bit set, and the top bits of successive words are a linear recurring
    sequence of order 19937 and maximal period, in which no more than 19937 ones stand in a row. -/
def drawRounds : Nat := 19938

/-- The next number below a bound that is not zero. -/
def drawBelow (t : Twister) (bound : Nat) : Nat × Twister :=
  drawUntil bound (bitLength bound) drawRounds t

theorem drawUntil_lt {bound bits : Nat} (pos : 0 < bound) (rounds : Nat) (t : Twister) :
    (drawUntil bound bits rounds t).1 < bound := by
  induction rounds generalizing t with
  | zero => simpa [drawUntil] using pos
  | succ rounds ih =>
    simp only [drawUntil]
    split
    · assumption
    · exact ih _

theorem drawBelow_lt {bound : Nat} (pos : 0 < bound) (t : Twister) :
    (t.drawBelow bound).1 < bound :=
  drawUntil_lt pos _ t

end Twister

end FreshNames

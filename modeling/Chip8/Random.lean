/-!
# Random numbers

The generator is the Mersenne Twister with 624 words of 32 bits, keyed by the 32-bit words of a seed,
least significant first.  A number below a bound is drawn by taking as many leading bits of an output as
the bound has, again and again until the result is below the bound.
-/

namespace Chip8

/-- The state of the generator: a ring of words, and which of them is renewed next. -/
structure Random where
  words : Vector UInt32 624
  next : Fin 624
  deriving DecidableEq

namespace Random

/-! ### Keying -/

/-- A word with its two leading bits folded into its trailing ones. -/
def fold (w : UInt32) : UInt32 := w ^^^ (w >>> 30)

/-- The words before keying: the first is given, each other follows from the one before it. -/
def linear (first : UInt32) : Vector UInt32 624 :=
  ((List.finRange 624).foldl
    (fun (ws, before) pos =>
      let w := if pos = 0 then first else 1812433253 * fold before + UInt32.ofNat pos.val
      (ws.set pos.val w, w))
    (Vector.replicate 624 0, 0)).1

/-- Mixes into each word the one before it and an addend, which depends on the number of the step and on
the position.  Position 0 only ever holds a copy of the last word. -/
def stir (factor : UInt32) (addend : Nat → Fin 624 → UInt32) :
    Nat → Nat → Fin 624 → Vector UInt32 624 → Fin 624 × Vector UInt32 624
  | 0, _, pos, ws => (pos, ws)
  | steps + 1, k, pos, ws =>
    let before := ws[pos - 1]
    let w := (ws[pos] ^^^ (fold before * factor)) + addend k pos
    let ws := ws.set pos.val w
    if pos = 623 then stir factor addend steps (k + 1) 1 (ws.set 0 w)
    else stir factor addend steps (k + 1) (pos + 1) ws

/-- The generator with a list of words as its key. -/
def ofKey (key : Array UInt32) : Random :=
  let (pos, ws) := stir 1664525
    (fun k _ => key.getD (k % key.size) 0 + UInt32.ofNat (k % key.size))
    (max 624 key.size) 0 1 (linear 19650218)
  let (_, ws) := stir 1566083941 (fun _ pos => 0 - UInt32.ofNat pos.val) 623 0 pos ws
  ⟨ws.set 0 0x80000000, 0⟩

/-- The 32-bit words of a number, least significant first; zero has none. -/
def wordsOf (n : Nat) : List UInt32 :=
  if n = 0 then [] else UInt32.ofNat n :: wordsOf (n / 0x100000000)
  termination_by n
  decreasing_by omega

/-- The generator for a seed, whose sign does not count. -/
def ofSeed (seed : Int) : Random :=
  ofKey (if seed = 0 then #[0] else (wordsOf seed.natAbs).toArray)

instance : Inhabited Random := ⟨⟨Vector.replicate 624 0, 0⟩⟩

/-! ### Drawing -/

/-- Spreads the bits of a word over all its positions. -/
def temper (w : UInt32) : UInt32 :=
  let w := w ^^^ (w >>> 11)
  let w := w ^^^ ((w <<< 7) &&& 0x9d2c5680)
  let w := w ^^^ ((w <<< 15) &&& 0xefc60000)
  w ^^^ (w >>> 18)

/-- The next output: renews one word of the ring from itself, its successor and the word 397 places on. -/
def nextWord (g : Random) : UInt32 × Random :=
  let joined := (g.words[g.next] &&& 0x80000000) ||| (g.words[g.next + 1] &&& 0x7fffffff)
  let w := g.words[g.next + 397] ^^^ (joined >>> 1) ^^^ (if joined &&& 1 = 0 then 0 else 0x9908b0df)
  (temper w, ⟨g.words.set g.next.val w, g.next + 1⟩)

/-- Tries at most `tries` outputs for a number below `bound` in their `bits` leading bits. -/
def drawBelow (bound bits : Nat) : Nat → Random → Nat × Random
  | 0, g => (0, g)
  | tries + 1, g =>
    let (w, g) := g.nextWord
    let r := w.toNat >>> (32 - bits)
    if r < bound then (r, g) else drawBelow bound bits tries g

/-- The most tries that a bound which is a power of two can take.  It rejects an output exactly if the
leading bit is set; the leading bits are a maximal-length sequence of degree 19937, in which no run of
ones is longer than that. -/
def maxTries : Nat := 19938

/-- A number below a positive power of two. -/
def below (g : Random) (bound : Nat) : Nat × Random :=
  drawBelow bound (bound.log2 + 1) maxTries g

/-- What is drawn is below the bound. -/
theorem drawBelow_lt {bound bits : Nat} (h : 0 < bound) (tries : Nat) (g : Random) :
    (drawBelow bound bits tries g).1 < bound := by
  induction tries generalizing g with
  | zero => exact h
  | succ n ih =>
    simp only [drawBelow]
    split
    · assumption
    · exact ih _

def byte (g : Random) : UInt8 × Random :=
  let (r, g) := g.below 256
  (UInt8.ofNat r, g)

def key (g : Random) : Fin 16 × Random :=
  let drawn := g.below 16
  (⟨drawn.1, drawBelow_lt (by decide) _ _⟩, drawn.2)

end Random

end Chip8

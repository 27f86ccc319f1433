import Mathlib
import Chip8.Proofs.Keypad
import Chip8.Proofs.Machine.Randomness
import Chip8.Proofs.Machine.Transfer

/-!
# The choice among held keys

When several keys are held, the one that `Fx0A` goes on with is the nearest to a random start, going up and round the
pad.  Every start is drawn by some generator (`Random.key_drawing`), and a key that is held is the nearest to itself; so
every held key can be chosen, and no other (`nearest_key_wins`).
-/

namespace Chip8

namespace Random

/-- A generator that is about to draw a start: the bits 5, 21, 7 and 15 of a word end up in its leading five. -/
def drawing (start : Fin 16) : Random :=
  let put (i place : Nat) : UInt32 := if start.val.testBit i then 1 <<< UInt32.ofNat place else 0
  ⟨(Vector.replicate 624 0).set 396 (put 0 5 ||| put 1 21 ||| put 2 7 ||| put 3 15), Fin.last 623⟩

theorem key_drawing (start : Fin 16) : (drawing start).key.1 = start := by
  revert start
  decide +kernel

end Random

namespace Machine

/-- A word ends the wait for a key with one: the key goes to `Vx`, and the machine goes on to the next word. -/
def GoesOnWith (m : Machine) (w : Word) (k : Key) : Prop :=
  ∃ m', m.exec w = .ok (m', {}) ∧ m'.awaitingKey = false ∧ m'.reg w.x = UInt8.ofNat k.val ∧ m'.pc = m.pc + 2

section Choice

variable {m : Machine} {w : Word} {k : Key}

theorem awaitKey_of_firstDown? (x : Reg) (h : m.keys.firstDown? m.random.key.1.val = some k) :
    m.awaitKey x = ({ m with random := m.random.key.2, awaitingKey := false }.setReg x (UInt8.ofNat k.val)).advance := by
  unfold awaitKey
  simp only [h]

theorem ofNat_key_injective {k' : Key} (h : UInt8.ofNat k.val = UInt8.ofNat k'.val) : k = k' := by
  have hval := congrArg UInt8.toNat h
  simp only [UInt8.toNat_ofNat'] at hval
  exact Fin.ext (by omega)

/-- The wait ends with the key that the search finds from the start that is drawn. -/
theorem goesOnWith_iff (hop : w.op = 0xF) (hb : w.byte = 0x0A) :
    m.GoesOnWith w k ↔ m.keys.firstDown? m.random.key.1.val = some k := by
  have hexec : m.exec w = .ok (m.awaitKey w.x, {}) := m.exec_of_transfer hop hb rfl
  have hreg : ∀ k', m.keys.firstDown? m.random.key.1.val = some k' → (m.awaitKey w.x).reg w.x = UInt8.ofNat k'.val := by
    intro k' h
    rw [awaitKey_of_firstDown? w.x h, reg_advance, reg_setReg, if_pos rfl]
  constructor
  · rintro ⟨m', hm', hmark, hk, -⟩
    obtain rfl : m.awaitKey w.x = m' := congrArg Prod.fst (Except.ok.inj (hexec.symm.trans hm'))
    cases hfound : m.keys.firstDown? m.random.key.1.val with
    | none =>
      rw [awaitKey_of_none (KeyVector.firstDown?_eq_none_iff.mp hfound)] at hmark
      exact nomatch hmark
    | some k' => rw [ofNat_key_injective ((hreg k' hfound).symm.trans hk)]
  · intro hfound
    refine ⟨_, hexec, ?_, hreg k hfound, ?_⟩
    · rw [awaitKey_of_firstDown? w.x hfound]
      rfl
    · rw [awaitKey_of_firstDown? w.x hfound]
      rfl

end Choice

/-- **The nearest key wins, and every held key can.**  Whatever number is reported as the state of the keys, and from
whatever number a search starts: it fails exactly if no bit of the low sixteen is set, and else finds the held key that is
the fewest keys away, going up and round.  From one of the sixteen starts it finds any given key that is held.  So the
random start of `Fx0A` decides which of the held keys it goes on with, and each of them is chosen for some random number.
A vector that is made from a list of numbers holds the keys that these are modulo sixteen. -/
theorem nearest_key_wins :
    (∀ state start : Int,
      (∀ k, (KeyVector.ofInt state).isDown k ↔ state / 2 ^ k.val % 2 = 1) ∧
      ((KeyVector.ofInt state).firstDown? start = none ↔ ∀ k, ¬ (KeyVector.ofInt state).isDown k) ∧
      ∀ k : Key, (KeyVector.ofInt state).firstDown? start = some k ↔ (KeyVector.ofInt state).isDown k ∧
        ∀ k' : Key, (KeyVector.ofInt state).isDown k' → ((k.val : Int) - start) % 16 ≤ (k'.val - start) % 16) ∧
    (∀ (v : KeyVector) (k : Key), v.isDown k ↔ ∃ start : Fin 16, v.firstDown? start.val = some k) ∧
    (∀ (m : Machine) (w : Word), w.op = 0xF → w.byte = 0x0A → ∀ k,
      (∀ random, (m.withRandom random).GoesOnWith w k ↔ m.keys.firstDown? random.key.1.val = some k) ∧
      (m.keys.isDown k ↔ ∃ random, (m.withRandom random).GoesOnWith w k)) ∧
    ∀ (keys : List Int) (k : Key), (KeyVector.ofKeys keys).isDown k ↔ ∃ i ∈ keys, i % 16 = k.val := by
  refine ⟨fun state start => ⟨?_, ?_, ?_⟩, fun v k => ⟨?_, ?_⟩, fun m w hop hb k => ?_, ?_⟩
  · exact KeyVector.isDown_ofInt state
  · rw [KeyVector.firstDown?_eq_none_iff, KeyVector.eq_zero_iff]
    simp only [Bool.not_eq_true]
  · exact fun k => KeyVector.firstDown?_eq_some_iff
  · exact fun hdown => ⟨k, KeyVector.firstDown?_self hdown⟩
  · rintro ⟨start, hfound⟩
    exact KeyVector.isDown_of_firstDown? hfound
  · have hchoice : ∀ random, (m.withRandom random).GoesOnWith w k ↔ m.keys.firstDown? random.key.1.val = some k :=
      fun random => goesOnWith_iff hop hb
    refine ⟨hchoice, fun hdown => ⟨.drawing k, (hchoice _).mpr ?_⟩, ?_⟩
    · rw [Random.key_drawing]
      exact KeyVector.firstDown?_self hdown
    · rintro ⟨random, hgoes⟩
      exact KeyVector.isDown_of_firstDown? ((hchoice random).mp hgoes)
  · exact KeyVector.isDown_ofKeys

/-- A machine at which the keys `3` and `F` are held. -/
def twoKeys : Machine := { powerOn default with keys := KeyVector.ofKeys [3, -1, 19] }

/-- From `-12`, which is the start `4`, the search comes to `F` before it comes to `3`; `FA0A` can go on with both, and
with no other key. -/
theorem nearest_key_wins_two :
    Word.op 0xFA0A = 0xF ∧ Word.byte 0xFA0A = 0x0A ∧
      (KeyVector.ofInt (-32760)).firstDown? (-12) = some 15 ∧
      (∃ random, (twoKeys.withRandom random).GoesOnWith 0xFA0A 3) ∧
      (∃ random, (twoKeys.withRandom random).GoesOnWith 0xFA0A 15) ∧
      ¬ ∃ random, (twoKeys.withRandom random).GoesOnWith 0xFA0A 4 := by
  obtain ⟨hnumber, -, hwins, hlist⟩ := nearest_key_wins
  obtain ⟨-, -, hnearest⟩ := hnumber (-32760) (-12)
  have hop : Word.op 0xFA0A = 0xF := by decide
  have hb : Word.byte 0xFA0A = 0x0A := by decide
  have hheld : ∀ k, (∃ random, (twoKeys.withRandom random).GoesOnWith 0xFA0A k) ↔ ∃ i ∈ [3, -1, 19], i % 16 = (k.val : Int) :=
    fun k => ((hwins twoKeys 0xFA0A hop hb k).2).symm.trans (hlist [3, -1, 19] k)
  refine ⟨hop, hb, (hnearest 15).mpr (by decide), ?_, ?_, ?_⟩
  · exact (hheld 3).mpr (by decide)
  · exact (hheld 15).mpr (by decide)
  · exact fun h => absurd ((hheld 4).mp h) (by decide)

end Machine

end Chip8

import Mathlib
import Chip8.Proofs.Machine.Frame
import Chip8.Proofs.Machine.KeyWait

/-!
# Where random numbers show

Two machines that differ in their random numbers do the same, with the same answers, for as long as no step is left
to chance (`randomness_shows_where_documented`).  Only `Cxnn` and `Fx0A` draw random numbers at all.  What `Cxnn` draws
is masked with `nn`, so nothing is left of it for `nn = 0`; and what `Fx0A` draws is where a search starts, which only
matters for the choice among several held keys.

The numbers themselves drift apart with every draw.  So the two machines are followed as one machine with two
generators (`withRandom`), and what a step does commutes with putting another generator in, be it in another state
afterwards.
-/

namespace Chip8.Machine

def withRandom (m : Machine) (r : Random) : Machine := { m with random := r }

@[simp] theorem reg_withRandom (m : Machine) (r : Random) (x : Reg) : (m.withRandom r).reg x = m.reg x := rfl

/-- The two machines differ in their random numbers at most. -/
def Alike (m m' : Machine) : Prop := m' = m.withRandom m'.random

/-- Nothing of the next step is left to chance: a random byte is masked with zero, and at most one key is held when one
is looked for. -/
def Determined (m : Machine) : Prop :=
  m.Inside → (m.word.op = 0xC → m.word.byte = 0) ∧
    (m.word.op = 0xF → m.word.byte = 0x0A → ∀ k k', m.keys.isDown k → m.keys.isDown k' → k = k')

instance (m : Machine) : Decidable m.Determined := by unfold Determined; infer_instance

/-! ### One step -/

section Step

variable {m : Machine} {i : Instr} (r : Random)

/-- An answer stays, and the machine that goes with it gets other random numbers. -/
def answerWith (r : Random) (a : Except Fault (Machine × Effect)) : Except Fault (Machine × Effect) :=
  a.map fun p => (p.1.withRandom r, p.2)

theorem perform_withRandom (hi : i.drawsLots = false) :
    (m.withRandom r).perform i = answerWith r (m.perform i) := by
  cases i
  case ret =>
    have hstack : (m.withRandom r).stack = m.stack := rfl
    simp only [perform, hstack]
    cases m.stack <;> rfl
  case random | waitKey => cases hi
  case skipEqByte | skipNeByte | skipEq | skipNe | skipKey | skipNoKey =>
    simp only [perform, skipIf_eq]
    rfl
  all_goals rfl

/-- Of a random byte that is masked with zero nothing is left. -/
theorem perform_random_withRandom (x : Reg) :
    (m.withRandom r).perform (.random x 0) = answerWith r.byte.2 (m.perform (.random x 0)) := by
  have hrandom : (m.withRandom r).random = r := rfl
  simp only [perform, hrandom, UInt8.and_zero]
  -- what the generators answer is left alone: it would be worked out
  generalize r.byte = drawn
  generalize m.random.byte = drawn'
  simp only [answerWith, Except.map, withRandom, setReg, advance]

theorem awaitKey_withRandom (x : Reg) (hone : ∀ k k', m.keys.isDown k → m.keys.isDown k' → k = k') :
    (m.withRandom r).awaitKey x = (m.awaitKey x).withRandom r.key.2 := by
  have hkeys : (m.withRandom r).keys = m.keys := rfl
  have hrandom : (m.withRandom r).random = r := rfl
  simp only [awaitKey, hkeys, hrandom]
  generalize r.key = drawn
  generalize m.random.key = drawn'
  rw [KeyVector.firstDown?_eq_of_unique hone drawn'.1.val]
  cases m.keys.firstDown? drawn'.1.val <;> simp only [withRandom, setReg, advance]

theorem word_of_random {w : Word} {x : Reg} {mask : UInt8} (hd : Instr.decode? w = some (.random x mask)) :
    w.op = 0xC ∧ w.x = x ∧ w.byte = mask := by
  have hw := Instr.toNat_of_decode? hd
  have := mask.toNat_lt
  simp only [Instr.code, Instr.isShift, Bool.false_eq_true, if_false] at hw
  simp only [Fin.ext_iff, ← UInt8.toNat_inj, Word.val_op, Word.val_x, Word.toNat_byte_eq_mod]
  omega

/-- A step of which nothing is left to chance is the same step with other random numbers. -/
theorem Determined.step_withRandom (h : m.Determined) : ∃ r', (m.withRandom r).step = answerWith r' m.step := by
  have hinside : (m.withRandom r).Inside ↔ m.Inside := Iff.rfl
  have hword : (m.withRandom r).word = m.word := rfl
  unfold step
  by_cases hin : m.Inside
  · obtain ⟨hmask, hkeys⟩ := h hin
    rw [fetch_of_inside hin, fetch_of_inside (hinside.mpr hin), hword]
    dsimp only
    cases hd : Instr.decode? m.word with
    | none =>
      rw [exec_of_none hd, exec_of_none hd]
      exact ⟨r, rfl⟩
    | some i =>
      rw [exec_of_some hd, exec_of_some hd]
      by_cases hi : i.drawsLots = true
      · cases i <;> simp only [Instr.drawsLots, Bool.false_eq_true] at hi
        case random x mask =>
          obtain ⟨hop, -, rfl⟩ := word_of_random hd
          rw [hmask hop]
          exact ⟨_, perform_random_withRandom r x⟩
        case waitKey x =>
          obtain ⟨hop, hbyte⟩ := word_of_waitKey hd
          refine ⟨r.key.2, ?_⟩
          rw [perform, awaitKey_withRandom r x (hkeys hop hbyte)]
          rfl
      · exact ⟨r, perform_withRandom r (Bool.eq_false_of_not_eq_true hi)⟩
  · rw [fetch_of_not_inside hin, fetch_of_not_inside fun h => hin (hinside.mp h)]
    exact ⟨r, rfl⟩

end Step

/-! ### Histories -/

section History

variable {m m' : Machine}

theorem Alike.act (h : Alike m m') (e : Event) (hdet : e = .step → m.Determined) :
    Alike (m.act e).1 (m'.act e).1 ∧ (m'.act e).2 = (m.act e).2 := by
  rw [h]
  generalize m'.random = r
  cases e with
  | step =>
    obtain ⟨r', hstep⟩ := (hdet rfl).step_withRandom r
    unfold Machine.act
    rw [hstep]
    cases m.step <;> exact ⟨rfl, rfl⟩
  | tick => exact ⟨rfl, rfl⟩
  | input state => cases state <;> exact ⟨rfl, rfl⟩
  | load program =>
    have hmemory : (m.withRandom r).memory = m.memory := rfl
    simp only [Machine.act, load, hmemory]
    cases m.memory.load? program <;> exact ⟨rfl, rfl⟩
  | reset => exact ⟨rfl, rfl⟩

/-- No step of a history is left to chance. -/
def DeterminedAlong (m : Machine) (es : List Event) : Prop :=
  ∀ es₁ es₂, es = es₁ ++ .step :: es₂ → (m.after es₁).Determined

theorem determinedAlong_nil (m : Machine) : m.DeterminedAlong [] := by
  intro es₁ es₂ hes
  simp at hes

theorem determinedAlong_cons {e : Event} {es : List Event} :
    m.DeterminedAlong (e :: es) ↔ (e = .step → m.Determined) ∧ (m.act e).1.DeterminedAlong es := by
  constructor
  · intro h
    refine ⟨?_, ?_⟩
    · rintro rfl
      exact h [] es rfl
    · rintro es₁ es₂ rfl
      exact h (e :: es₁) es₂ rfl
  · rintro ⟨hfirst, hrest⟩ (_ | ⟨e', es₁⟩) es₂ hes
    · exact hfirst (List.cons.inj hes).1
    · obtain ⟨rfl, rfl⟩ := List.cons.inj hes
      exact hrest es₁ es₂ rfl

theorem determinedAlong_concat {e : Event} {es : List Event} :
    m.DeterminedAlong (es ++ [e]) ↔ m.DeterminedAlong es ∧ (e = .step → (m.after es).Determined) := by
  induction es generalizing m with
  | nil => simp [determinedAlong_cons, determinedAlong_nil]
  | cons e' es ih => rw [List.cons_append, determinedAlong_cons, determinedAlong_cons, ih, and_assoc, after_cons]

theorem Alike.after (h : Alike m m') {es : List Event} (hdet : m.DeterminedAlong es) :
    Alike (m.after es) (m'.after es) := by
  induction es generalizing m m' with
  | nil => exact h
  | cons e es ih =>
    obtain ⟨hfirst, hrest⟩ := determinedAlong_cons.mp hdet
    exact ih (h.act e hfirst).1 hrest

end History

/-! ### Randomness -/

theorem exec_random_masked (m : Machine) {w : Word} (hw : w.op = 0xC) :
    ∃ m' eff, m.exec w = .ok (m', eff) ∧ ∀ k, (m'.reg w.x).toNat.testBit k → w.byte.toNat.testBit k := by
  have hd : Instr.decode? w = some (.random w.x w.byte) := by simp [Instr.decode?, hw]
  rw [exec_of_some hd]
  simp only [perform]
  generalize m.random.byte = drawn
  refine ⟨_, _, rfl, fun k hk => ?_⟩
  rw [reg_advance, reg_setReg, if_pos rfl, UInt8.toNat_and, Nat.testBit_and, Bool.and_eq_true] at hk
  exact hk.2

/-- **Random numbers show only where they are meant to.**  Switch two machines on with any random numbers, and do the
same to both: load a program, let them step, let time pass, report keys, in any order.  After each event, as long as no
step up to there was left to chance, the two machines have given the same answer and differ in their random numbers at
most.  And where a random byte shows, under `Cxnn`, no bit of `Vx` is set that is not set in `nn`. -/
theorem randomness_shows_where_documented :
    (∀ (random random' : Random) (es : List Event) (e : Event),
      (powerOn random).DeterminedAlong (es ++ [e]) →
        (((powerOn random').after es).act e).2 = (((powerOn random).after es).act e).2 ∧
          Alike (((powerOn random).after es).act e).1 (((powerOn random').after es).act e).1) ∧
    (∀ (m : Machine) (w : Word), w.op = 0xC → ∃ m' eff, m.exec w = .ok (m', eff) ∧
      ∀ k, (m'.reg w.x).toNat.testBit k → w.byte.toNat.testBit k) := by
  refine ⟨fun random random' es e hdet => ?_, fun m w hw => m.exec_random_masked hw⟩
  obtain ⟨hbefore, hlast⟩ := determinedAlong_concat.mp hdet
  have hstart : Alike (powerOn random) (powerOn random') := rfl
  obtain ⟨halike, hanswer⟩ := (hstart.after hbefore).act e hlast
  exact ⟨hanswer, halike⟩

/-- A program that waits for a key and then masks a random byte with zero, while key `5` is held and no other. -/
def loneKey : List Event := [.load [0xF3, 0x0A, 0xC5, 0x00], .input (some 0x20), .step]

/-- Whatever the seed is, `V3` becomes `5` and `V5` becomes `0`. -/
theorem randomness_shows_where_documented_loneKey :
    (powerOn default).DeterminedAlong (loneKey ++ [.step]) ∧
      ∀ seed, (((powerOn (.ofSeed seed)).after loneKey).act .step).1.reg 0x3 = 5 ∧
        (((powerOn (.ofSeed seed)).after loneKey).act .step).1.reg 0x5 = 0 := by
  have hdet : (powerOn default).DeterminedAlong (loneKey ++ [.step]) := by
    refine determinedAlong_concat.mpr ⟨?_, fun _ => by decide +kernel⟩
    refine determinedAlong_cons.mpr ⟨nofun, determinedAlong_cons.mpr ⟨nofun, ?_⟩⟩
    exact determinedAlong_cons.mpr ⟨fun _ => by decide +kernel, determinedAlong_nil _⟩
  refine ⟨hdet, fun seed => ?_⟩
  obtain ⟨-, halike⟩ := randomness_shows_where_documented.1 default (.ofSeed seed) loneKey .step hdet
  rw [halike, reg_withRandom, reg_withRandom]
  decide +kernel

end Chip8.Machine

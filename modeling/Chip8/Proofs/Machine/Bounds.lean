import Mathlib
import Chip8.Proofs.Machine.History

/-!
# Bounds

No number of a machine leaves its range, whatever happens to it (`after_inRange`).  Registers, cells and pixels
are of types that hold no other values; the rest follows from `Tame`, which every event keeps.  The program
counter stays at or below `$10FE`: an instruction is fetched at `$FFE` at the latest, the longest jump is
`$FFF + $FF`, and a return goes behind an address where a call was fetched.  So no instruction sends it to where
sixteen bits would have to be cut.
-/

namespace Chip8.Machine

/-! ### What every event keeps -/

/-- The program counter has not run away, the open calls are addresses where an instruction was fetched, and
the timers are bytes. -/
structure Tame (m : Machine) : Prop where
  pc : m.pc.toNat ≤ 0x10FE
  calls : ∀ a ∈ m.stack, 0x200 ≤ a ∧ a ≤ 0xFFE
  delay : 0 ≤ m.timers.delay ∧ m.timers.delay ≤ 0xFF
  sound : 0 ≤ m.timers.sound ∧ m.timers.sound ≤ 0xFF

theorem tame_powerOn (r : Random) : (powerOn r).Tame where
  pc := by simp [powerOn, Memory.programStart]
  calls := by simp [powerOn]
  delay := by simp [powerOn]
  sound := by simp [powerOn]

theorem countDown_mem {n : Int} (h : 0 ≤ n ∧ n ≤ 0xFF) :
    0 ≤ Timers.countDown n ∧ Timers.countDown n ≤ 0xFF := by
  unfold Timers.countDown
  split <;> omega

section Step

variable {m m' : Machine} {i : Instr} {eff : Effect}

/-- An instruction sends the program counter at most to `$10FE`. -/
theorem Tame.target_mem (h : m.Tame) (hin : m.Inside) (hp : m.perform i = .ok (m', eff)) :
    0 ≤ m.target i ∧ m.target i ≤ 0x10FE := by
  obtain ⟨-, hpc⟩ := hin
  cases i
  case ret =>
    obtain ⟨caller, hs, -⟩ := perform_ret hp
    have := h.calls caller (by simp [hs])
    simp only [target, hs, List.headD_cons]
    omega
  case jumpOffset a =>
    have := (m.reg 0).toNat_lt
    simp only [target]
    omega
  all_goals
    simp only [target]
    try split
    all_goals omega

/-- Nothing is cut off where an instruction sends the program counter. -/
theorem Tame.toNat_pc (h : m.Tame) (hin : m.Inside) (hp : m.perform i = .ok (m', eff)) :
    (m'.pc.toNat : Int) = m.target i := by
  have ht := h.target_mem hin hp
  rw [perform_pc hp]
  omega

theorem Tame.stackAfter_mem (h : m.Tame) (hin : m.Inside) :
    ∀ a ∈ m.stackAfter i, 0x200 ≤ a ∧ a ≤ 0xFFE := by
  obtain ⟨h1, h2⟩ := hin
  intro a ha
  cases i
  case ret => exact h.calls a (List.mem_of_mem_tail ha)
  case call b =>
    rcases List.mem_cons.mp ha with rfl | ha
    · omega
    · exact h.calls a ha
  all_goals exact h.calls a ha

theorem Tame.timersAfter_mem (h : m.Tame) :
    (0 ≤ (m.timersAfter i).delay ∧ (m.timersAfter i).delay ≤ 0xFF) ∧
      0 ≤ (m.timersAfter i).sound ∧ (m.timersAfter i).sound ≤ 0xFF := by
  have hb : ∀ b : UInt8, (0 : Int) ≤ b.toNat ∧ (b.toNat : Int) ≤ 0xFF := by
    intro b
    have := b.toNat_lt
    omega
  cases i
  case setDelay x => exact ⟨hb _, h.sound⟩
  case setSound x => exact ⟨h.delay, hb _⟩
  all_goals exact ⟨h.delay, h.sound⟩

theorem Tame.step (h : m.Tame) (hs : m.step = .ok (m', eff)) : m'.Tame := by
  obtain ⟨i, hin, -, hp⟩ := step_eq_ok_iff.mp hs
  have ht := h.target_mem hin hp
  have hpc := h.toNat_pc hin hp
  have htimers := h.timersAfter_mem (i := i)
  rw [← perform_timers hp] at htimers
  exact {
    pc := by omega
    calls := perform_stack hp ▸ h.stackAfter_mem hin
    delay := htimers.1
    sound := htimers.2 }

end Step

theorem Tame.act {m : Machine} (h : m.Tame) (e : Event) : (m.act e).1.Tame := by
  cases e with
  | step =>
    cases hs : m.step with
    | ok r => simpa only [act_step_of_ok hs] using h.step hs
    | error f => simpa only [act_step_of_error hs] using h
  | tick => exact { h with delay := countDown_mem h.delay, sound := countDown_mem h.sound }
  | input state => cases state <;> exact { h with }
  | load program =>
    obtain ⟨memory, hm⟩ := act_load m program
    rw [hm]
    exact { h with }
  | reset => exact tame_powerOn _

theorem Tame.after {m : Machine} (h : m.Tame) (es : List Event) : (m.after es).Tame :=
  after_induction (fun _ e hm => hm.act e) h es

/-! ### The ranges -/

/-- Every part of a machine is in its range. -/
structure InRange (m : Machine) : Prop where
  registers : m.v.toList.length = 16 ∧ ∀ b ∈ m.v.toList, b.toNat ≤ 0xFF
  index : m.index.toNat ≤ 0xFFFF
  pc : m.pc.toNat ≤ 0x10FE
  calls : ∀ a ∈ m.stack, 0x200 ≤ a ∧ a ≤ 0xFFE
  delay : 0 ≤ m.timers.delay ∧ m.timers.delay ≤ 0xFF
  sound : 0 ≤ m.timers.sound ∧ m.timers.sound ≤ 0xFF
  keys : m.keys.toNat ≤ 0xFFFF
  memory : m.memory.cells.toList.length = 4096 ∧ ∀ b ∈ m.memory.cells.toList, b.toNat ≤ 0xFF
  frame : m.frame.length = 2048 ∧ ∀ p ∈ m.frame, p.toNat ≤ 1

theorem Tame.inRange {m : Machine} (h : m.Tame) : m.InRange where
  registers := ⟨by simp, fun b _ => Nat.le_of_lt_succ b.toNat_lt⟩
  index := Nat.le_of_lt_succ m.index.toNat_lt
  pc := h.pc
  calls := h.calls
  delay := h.delay
  sound := h.sound
  keys := Nat.le_of_lt_succ m.keys.isLt
  memory := ⟨by simp, fun b _ => Nat.le_of_lt_succ b.toNat_lt⟩
  frame := ⟨by simp [Machine.frame, Framebuffer.frame], fun p _ => p.toNat_le⟩

/-- Nothing is cut off by the next step: the program counter ends up exactly where it is sent, and a register
can take over the delay timer as it is. -/
structure Exact (m : Machine) : Prop where
  pc : ∀ m' eff, m.step = .ok (m', eff) →
    ∃ i, Instr.decode? m.word = some i ∧ (m'.pc.toNat : Int) = m.target i
  delay : ((UInt8.ofInt m.timers.delay).toNat : Int) = m.timers.delay

theorem Tame.exact {m : Machine} (h : m.Tame) : m.Exact where
  pc := by
    intro m' eff hs
    obtain ⟨i, hin, hd, hp⟩ := step_eq_ok_iff.mp hs
    exact ⟨i, hd, h.toNat_pc hin hp⟩
  delay := by
    have := h.delay
    simp only [UInt8.ofInt, UInt8.toNat_ofNat']
    omega

/-- **No number of a machine leaves its range**, and the program counter never wraps, whatever was done to the
machine since it was switched on, and whatever its random numbers are. -/
theorem after_inRange (random : Random) (es : List Event) :
    ((powerOn random).after es).InRange ∧ ((powerOn random).after es).Exact :=
  have h := (tame_powerOn random).after es
  ⟨h.inRange, h.exact⟩

end Chip8.Machine

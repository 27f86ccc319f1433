import Mathlib
import Chip8.Proofs.Emulator.Course
import Chip8.Proofs.Emulator.Progress
import Chip8.Proofs.Machine.History
import Chip8.Proofs.Scheduler

/-!
# Timers follow the clock

Whatever the program and the rate of the instructions, a timer shows what is left of its value after the periods that
the scheduler has handed out since the value was put there (`timers_follow_clock`).  In one cycle the instruction comes
first and the periods that are due come after it (`Cycle.timer`), so the periods of the very cycle that sets a timer
count already.  From there it is an induction over the cycles behind.

A cycle is told from outside: it has carried out an instruction if it has counted one, and then it is the one at the
program counter before it.
-/

namespace Chip8

/-! ### The two timers -/

inductive Timer
  | delay
  | sound
  deriving DecidableEq

def Timers.get (t : Timers) : Timer → Int
  | .delay => t.delay
  | .sound => t.sound

/-- The register from which an instruction sets a timer, if it does. -/
def Instr.source? : Instr → Timer → Option Reg
  | .setDelay x, .delay => some x
  | .setSound x, .sound => some x
  | _, _ => none

theorem Timers.get_tick (t : Timers) (k : Timer) : t.tick.get k = Timers.countDown (t.get k) := by
  cases k <;> rfl

theorem Timers.get_ticks {t : Timers} {k : Timer} (h : 0 ≤ t.get k) (n : Nat) :
    (t.ticks n).get k = max 0 (t.get k - n) := by
  induction n generalizing t with
  | zero =>
    rw [ticks]
    omega
  | succ n ih =>
    have htick : t.tick.get k = countDown (t.get k) := t.get_tick k
    unfold countDown at htick
    rw [ticks, ih (by split at htick <;> omega), htick]
    split <;> omega

theorem Machine.get_timersAfter (m : Machine) (i : Instr) (k : Timer) :
    (m.timersAfter i).get k =
      match i.source? k with
      | some x => (m.reg x).toNat
      | none => m.timers.get k := by
  cases i <;> cases k <;> rfl

/-- What a timer shows behind an instruction: the register that the instruction sets it from, or what it showed. -/
theorem Machine.timer_of_exec {m m' : Machine} {word : Word} {eff : Effect} (k : Timer)
    (hfetch : m.fetch = .ok word) (hexec : m.exec word = .ok (m', eff)) :
    ∃ instr, Instr.decode? m.word = some instr ∧
      m'.timers.get k =
        match instr.source? k with
        | some x => (m.reg x).toNat
        | none => m.timers.get k := by
  obtain ⟨-, rfl⟩ := fetch_eq_ok_iff.mp hfetch
  obtain ⟨instr, hdecode, hperform⟩ := exec_eq_ok_iff.mp hexec
  refine ⟨instr, hdecode, ?_⟩
  rw [perform_timers hperform, m.get_timersAfter]

namespace Emulator

/-! ### One cycle -/

/-- The cycle from `e` to `e'` has carried out an instruction. -/
def CarriesOut (e : Emulator) (instr : Instr) (e' : Emulator) : Prop :=
  e'.cycles = e.cycles + 1 ∧ Instr.decode? e.machine.word = some instr

/-- The cycle from `e` to `e'` has set a timer. -/
def SetsTimer (k : Timer) (e e' : Emulator) : Prop := ∃ instr x, e.CarriesOut instr e' ∧ instr.source? k = some x

/-- The periods that a scheduler has handed out from `e` to `e'`. -/
def handedOut (e e' : Emulator) : Int := e'.scheduler.consumed - e.scheduler.consumed

section Cycle

variable {i : Intake} {e e' : Emulator} {rs : List Request} {out : Except CycleError Signals} {k : Timer}

theorem taking_eq (e : Emulator) (i : Intake) :
    (e.taking i).machine.timers = e.machine.timers ∧ (e.taking i).machine.word = e.machine.word ∧
      ∀ x, (e.taking i).machine.reg x = e.machine.reg x := by
  unfold taking
  cases i.keys <;> split <;> exact ⟨rfl, rfl, fun _ => rfl⟩

theorem not_carriesOut_of_cycles {instr : Instr} (h : e'.cycles = e.cycles) : ¬ e.CarriesOut instr e' := by
  rintro ⟨hcycles, -⟩
  omega

/-- What a cycle does to a timer that shows nothing negative.  Behind the instruction the timer has a value: the one
that the instruction puts there, or else the one before.  Of that the periods are taken that the cycle hands out. -/
def TimerStep (k : Timer) (e e' : Emulator) : Prop :=
  0 ≤ handedOut e e' ∧ ∃ value, e'.machine.timers.get k = max 0 (value - handedOut e e') ∧
    (∀ instr x, e.CarriesOut instr e' → instr.source? k = some x → value = (e.machine.reg x).toNat) ∧
    (¬ SetsTimer k e e' → value = e.machine.timers.get k)

/-- A cycle that carries out nothing leaves the timers, and nothing is handed out. -/
theorem timerStep_of_idle (htimers : e'.machine.timers = e.machine.timers) (hscheduler : e'.scheduler = e.scheduler)
    (hcycles : e'.cycles = e.cycles) (hpos : 0 ≤ e.machine.timers.get k) : TimerStep k e e' := by
  have hnothing : handedOut e e' = 0 := by
    rw [handedOut, hscheduler]
    omega
  refine ⟨by omega, e.machine.timers.get k, ?_, ?_, fun _ => rfl⟩
  · rw [hnothing, htimers]
    omega
  · intro instr x hcarries
    exact absurd hcarries (not_carriesOut_of_cycles hcycles)

theorem Cycle.timerStep (hc : Cycle i e rs e' out) (hpos : 0 ≤ e.machine.timers.get k) : TimerStep k e e' := by
  obtain ⟨htimers, hword, hreg⟩ := taking_eq e i
  -- the two cycles that carry out something
  have hcarried : ∀ {word : Word} {m : Machine} {eff : Effect}, (e.taking i).machine.fetch = .ok word →
      (e.taking i).machine.exec word = .ok (m, eff) → e'.cycles = e.cycles + 1 →
      0 ≤ m.timers.get k ∧
      (∀ instr x, e.CarriesOut instr e' → instr.source? k = some x → m.timers.get k = (e.machine.reg x).toNat) ∧
      (¬ SetsTimer k e e' → m.timers.get k = e.machine.timers.get k) := by
    intro word m eff hfetch hexec hcycles
    obtain ⟨instr, hdecode, hvalue⟩ := Machine.timer_of_exec k hfetch hexec
    rw [hword] at hdecode
    rw [htimers] at hvalue
    cases hsource : instr.source? k with
    | some x =>
      simp only [hsource, hreg] at hvalue
      refine ⟨?_, ?_, ?_⟩
      · rw [hvalue]
        exact Int.natCast_nonneg _
      · intro instr' x' hcarries hx'
        obtain rfl : instr = instr' := Option.some.inj (hdecode.symm.trans hcarries.2)
        obtain rfl : x = x' := Option.some.inj (hsource.symm.trans hx')
        exact hvalue
      · intro hnot
        exact absurd ⟨instr, x, ⟨hcycles, hdecode⟩, hsource⟩ hnot
    | none =>
      simp only [hsource] at hvalue
      refine ⟨by omega, ?_, fun _ => hvalue⟩
      intro instr' x' hcarries hx'
      obtain rfl : instr = instr' := Option.some.inj (hdecode.symm.trans hcarries.2)
      exact nomatch hsource.symm.trans hx'
  cases hc with
  | left => exact timerStep_of_idle rfl rfl rfl hpos
  | lost => exact timerStep_of_idle htimers rfl rfl hpos
  | failed => exact timerStep_of_idle htimers rfl rfl hpos
  | @untimed word m eff err _ hfetch hexec hpoll =>
    obtain ⟨hvalue, hset, hkept⟩ := hcarried hfetch hexec rfl
    refine ⟨?_, m.timers.get k, ?_, hset, hkept⟩ <;> simp only [handedOut] <;> omega
  | @done word m eff due scheduler signals _ hfetch hexec hpoll _ =>
    obtain ⟨hvalue, hset, hkept⟩ := hcarried hfetch hexec rfl
    have hconsumed : scheduler.consumed = e.scheduler.consumed + due := Scheduler.consumed_of_poll hpoll
    have hticks : (m.ticks due).timers.get k = max 0 (m.timers.get k - due) := Timers.get_ticks hvalue due
    refine ⟨?_, m.timers.get k, ?_, hset, hkept⟩ <;> simp only [handedOut, hticks, hconsumed] <;> omega

theorem TimerStep.nonneg (h : TimerStep k e e') : 0 ≤ e'.machine.timers.get k := by
  obtain ⟨-, value, hvalue, -⟩ := h
  omega

end Cycle

/-! ### Cycles one after another -/

variable {W : Type}

/-- Cycles one after another, in any surroundings.  Between two of them neither timers nor scheduler are touched:
a program may be loaded, or the rate of the instructions changed. -/
structure Cycles (p : Peripherals (StateM W)) (n : Nat) (before after : Nat → Emulator) : Prop where
  cycle : ∀ l < n, ∃ s out s', play ((before l).step p.recorded) s = ((after l, out), s')
  timers : ∀ l, l + 1 < n → (before (l + 1)).machine.timers = (after l).machine.timers
  scheduler : ∀ l, l + 1 < n → (before (l + 1)).scheduler = (after l).scheduler

/-- After a cycle that sets a timer, and as long as none sets it again, the timer shows what is left of the value after
the periods handed out from the beginning of that cycle on; before any cycle sets it, what is left of the value at the
beginning. -/
def FollowClock (n : Nat) (before after : Nat → Emulator) : Prop :=
  ∀ k l, l < n →
    (∀ j instr x, j ≤ l → (before j).CarriesOut instr (after j) → instr.source? k = some x →
      (∀ l', j < l' → l' ≤ l → ¬ SetsTimer k (before l') (after l')) →
      (after l).machine.timers.get k = max 0 (((before j).machine.reg x).toNat - handedOut (before j) (after l))) ∧
    ((∀ l' ≤ l, ¬ SetsTimer k (before l') (after l')) →
      (after l).machine.timers.get k = max 0 ((before 0).machine.timers.get k - handedOut (before 0) (after l)))

section Cycles

variable {p : Peripherals (StateM W)} {n : Nat} {before after : Nat → Emulator} {k : Timer}

theorem Cycles.timerStep_of_nonneg (h : Cycles p n before after) {l : Nat} (hl : l < n)
    (hbefore : 0 ≤ (before l).machine.timers.get k) : TimerStep k (before l) (after l) := by
  obtain ⟨s, out, s', hstep⟩ := h.cycle l hl
  obtain ⟨i, rs, -, -, -, hc⟩ := cycle_of_step hstep
  exact hc.timerStep hbefore

theorem Cycles.timerStep (h : Cycles p n before after) (hpos : 0 ≤ (before 0).machine.timers.get k) {l : Nat}
    (hl : l < n) : TimerStep k (before l) (after l) := by
  induction l with
  | zero => exact h.timerStep_of_nonneg hl hpos
  | succ l ih =>
    refine h.timerStep_of_nonneg hl ?_
    rw [h.timers l hl]
    exact (ih (by omega)).nonneg

/-- What is left of a value goes on by the clock as long as the timer is not set. -/
theorem Cycles.timer_since (h : Cycles p n before after) (hpos : 0 ≤ (before 0).machine.timers.get k) {j l : Nat}
    (hjl : j ≤ l) {value : Int}
    (hj : (after j).machine.timers.get k = max 0 (value - handedOut (before j) (after j))) (hl : l < n)
    (hunset : ∀ l', j < l' → l' ≤ l → ¬ SetsTimer k (before l') (after l')) :
    (after l).machine.timers.get k = max 0 (value - handedOut (before j) (after l)) := by
  induction l, hjl using Nat.le_induction with
  | base => exact hj
  | succ l hjl ih =>
    have hshown := ih (by omega) fun l' hl' hle => hunset l' hl' (by omega)
    obtain ⟨hmore, value', htimer, -, hkept⟩ := h.timerStep hpos hl
    have hvalue : value' = (after l).machine.timers.get k := by
      rw [hkept (hunset (l + 1) (by omega) le_rfl), h.timers l hl]
    have hscheduler := h.scheduler l hl
    simp only [handedOut, hscheduler] at hmore htimer hshown ⊢
    omega

/-- **Cycle after cycle, the timers follow the clock.** -/
theorem Cycles.followClock (h : Cycles p n before after) (hpos : ∀ k, 0 ≤ (before 0).machine.timers.get k) :
    FollowClock n before after := by
  intro k l hl
  constructor
  · intro j instr x hjl hcarries hsource hunset
    obtain ⟨-, value, htimer, hset, -⟩ := h.timerStep (hpos k) (l := j) (by omega)
    rw [hset instr x hcarries hsource] at htimer
    exact h.timer_since (hpos k) hjl htimer hl hunset
  · intro hunset
    obtain ⟨-, value, htimer, -, hkept⟩ := h.timerStep (hpos k) (l := 0) (by omega)
    rw [hkept (hunset 0 (Nat.zero_le _))] at htimer
    exact h.timer_since (hpos k) (Nat.zero_le _) htimer hl fun l' _ hle => hunset l' hle

end Cycles

/-! ### Runs and calls -/

section Calls

variable {p : Peripherals (StateM W)} {e : Emulator} {s : Scene W} {n : Nat}

theorem cycles_of_underway (h : (play (e.underway p.recorded n) s).1.2 = (n, none)) :
    Cycles p (n + 1) (fun l => (play (e.underway p.recorded l) s).1.1)
      fun l => (play (e.underway p.recorded (l + 1)) s).1.1 where
  cycle := by
    intro l hl
    obtain ⟨⟨⟨eₗ, count, failure⟩, sₗ⟩, hrun⟩ : ∃ r, play (e.underway p.recorded l) s = r := ⟨_, rfl⟩
    have hgone := underway_of_le (Nat.le_of_lt_succ hl) h
    rw [hrun] at hgone
    obtain ⟨rfl, rfl⟩ := Prod.mk.inj hgone
    obtain ⟨⟨⟨e', out⟩, s'⟩, hstep⟩ :
      ∃ r, play (eₗ.step p.recorded) ⟨sₗ.log, (p.now sₗ.world).2⟩ = r := ⟨_, rfl⟩
    simp only [hrun, underway_succ_emulator hrun hstep]
    exact ⟨_, out, s', hstep⟩
  timers _ _ := rfl
  scheduler _ _ := rfl

theorem cycles_of_runCycles (h : (play (e.runCycles p.recorded n) s).1.2 = .ok n) :
    Cycles p (n + 1) (fun l => (play (e.runCycles p.recorded l) s).1.1)
      fun l => (play (e.runCycles p.recorded ((l + 1 : Nat) : Int)) s).1.1 where
  cycle := by
    intro l hl
    obtain ⟨⟨⟨eₗ, answer⟩, sₗ⟩, hrun⟩ : ∃ r, play (e.runCycles p.recorded l) s = r := ⟨_, rfl⟩
    have hgone := runCycles_of_le (Nat.le_of_lt_succ hl) h
    rw [hrun] at hgone
    obtain rfl : answer = .ok l := hgone
    obtain ⟨⟨⟨e', out⟩, s'⟩, hstep⟩ : ∃ r, play (eₗ.step p.recorded) sₗ = r := ⟨_, rfl⟩
    simp only [hrun, runCycles_succ_emulator hrun hstep]
    exact ⟨_, out, s', hstep⟩
  timers _ _ := rfl
  scheduler _ _ := rfl

/-- No call makes a timer negative. -/
theorem nonneg_of_call (c : Call) (h : ∀ k, 0 ≤ e.machine.timers.get k) :
    ∀ k, 0 ≤ (play (call p.recorded e c) s).1.machine.timers.get k := by
  by_cases hc : c = .reset
  · subst hc
    obtain ⟨now, w, hreset⟩ := play_reset p e s
    rw [Emulator.call, hreset]
    intro k
    cases k <;> exact le_rfl
  · rw [play_call]
    have hkept : Kept p (fun _ => True) fun e _ => ∀ k, 0 ≤ e.machine.timers.get k := by
      refine .of_log (L := fun e _ => ∀ k, 0 ≤ e.machine.timers.get k) trivial ?cycle (fun _ h => h) (fun h => h)
        (fun _ _ _ h => h) ?load
      case cycle =>
        intro i e rs e' out log hc _ h k
        exact (hc.timerStep (h k)).nonneg
      case load =>
        intro e log machine program hload h
        obtain ⟨memory, rfl⟩ := Machine.load_eq_ok hload
        exact h
    exact hkept.attend hc rfl trivial h

end Calls

/-- **The timers follow the clock, not the instructions.**  An emulator whose machine has just been switched on, with
any configuration, scheduler and world, has gone through any calls.  Then it runs, or goes through cycles without
waiting; and whatever it has gone through so far, in the next cycle too each timer shows what is left, after the periods
that the scheduler has handed out, of the value that the latest cycle to set it put there, or else of the value at the
start (of which a run begins with no period handed out).  The same holds of cycles with anything in between, until the
scheduler is restarted. -/
theorem timers_follow_clock {W : Type} (p : Peripherals (StateM W)) (config : Config) (random : Random)
    (scheduler : Scheduler) (w : W) (cs : List Call) :
    ∃ e s, play (calls p.recorded { config, machine := .powerOn random, scheduler } cs) ⟨[], w⟩ = (e, s) ∧
      ((play (e.underway p.recorded 0) s).1.1.machine = e.machine ∧
        (play (e.underway p.recorded 0) s).1.1.scheduler.consumed = 0) ∧
      (∀ n, (play (e.underway p.recorded n) s).1.2 = (n, none) →
        FollowClock (n + 1) (fun l => (play (e.underway p.recorded l) s).1.1)
          fun l => (play (e.underway p.recorded (l + 1)) s).1.1) ∧
      (∀ n : Nat, (play (e.runCycles p.recorded n) s).1.2 = .ok n →
        FollowClock (n + 1) (fun l => (play (e.runCycles p.recorded l) s).1.1)
          fun l => (play (e.runCycles p.recorded ((l + 1 : Nat) : Int)) s).1.1) ∧
      ∀ n before after, before 0 = e → Cycles p n before after → FollowClock n before after := by
  have hpos := calls_induction (P := fun e _ => ∀ k, 0 ≤ e.machine.timers.get k) (p := p)
    (fun c _ _ h => nonneg_of_call c h) (e := { config, machine := .powerOn random, scheduler }) (s := ⟨[], w⟩) cs
    (by intro k; cases k <;> exact le_rfl)
  refine ⟨_, _, rfl, ⟨rfl, rfl⟩, fun n hrun => ?_, fun n hrun => ?_, fun n before after hstart h => ?_⟩
  · exact (cycles_of_underway hrun).followClock hpos
  · exact (cycles_of_runCycles hrun).followClock hpos
  · refine h.followClock ?_
    rw [hstart]
    exact hpos

/-- Nobody at the keys, and a clock that goes on by half a second whenever it is read. -/
def halves : Peripherals (StateM Float) where
  poll := pure 0
  keys := pure none
  now := fun t => (t, t + 0.5)
  perform _ := pure ()

/-- In memory is a program that puts five into the delay timer and then goes round; a period is half a second. -/
def countdown : Emulator × Scene Float :=
  play (calls halves.recorded { config := {}, machine := .powerOn default, scheduler := ⟨0.5, 0.0, 0⟩ }
    [.load [0x60, 0x05, 0xF0, 0x15, 0x12, 0x04]]) ⟨[], 0.0⟩

/-- Three periods are handed out from the second cycle to the fourth, and two of the five are left. -/
theorem timers_follow_clock_countdown :
    (play (countdown.1.runCycles halves.recorded (3 : Nat)) countdown.2).1.2 = .ok 3 ∧
      (play (countdown.1.runCycles halves.recorded ((3 + 1 : Nat) : Int)) countdown.2).1.1.machine.timers.get .delay =
        max 0 (5 - 3) := by
  obtain ⟨e, s, hplay, -, -, hcycles, -⟩ := timers_follow_clock halves {} default ⟨0.5, 0.0, 0⟩ 0.0
    [.load [0x60, 0x05, 0xF0, 0x15, 0x12, 0x04]]
  obtain rfl : countdown.1 = e := congrArg Prod.fst hplay
  obtain rfl : countdown.2 = s := congrArg Prod.snd hplay
  have hgone : (play (countdown.1.runCycles halves.recorded (3 : Nat)) countdown.2).1.2 = .ok 3 := by
    decide +kernel
  refine ⟨hgone, ?_⟩
  have hset : CarriesOut (play (countdown.1.runCycles halves.recorded (1 : Nat)) countdown.2).1.1 (.setDelay 0)
      (play (countdown.1.runCycles halves.recorded ((1 + 1 : Nat) : Int)) countdown.2).1.1 :=
    ⟨by decide +kernel, by decide +kernel⟩
  have hunset : ∀ l' : Nat, 1 < l' → l' ≤ 3 →
      ¬ SetsTimer .delay (play (countdown.1.runCycles halves.recorded l') countdown.2).1.1
        (play (countdown.1.runCycles halves.recorded ((l' + 1 : Nat) : Int)) countdown.2).1.1 := by
    rintro l' hl hle ⟨instr, x, ⟨-, hdecode⟩, hsource⟩
    have hjump : Instr.decode? (play (countdown.1.runCycles halves.recorded l') countdown.2).1.1.machine.word =
        some (.jump 0x204) := by
      interval_cases l' <;> decide +kernel
    obtain rfl : Instr.jump 0x204 = instr := Option.some.inj (hjump.symm.trans hdecode)
    exact nomatch hsource
  have hvalue : ((play (countdown.1.runCycles halves.recorded (1 : Nat)) countdown.2).1.1.machine.reg 0).toNat = 5 := by
    decide +kernel
  have hpassed : handedOut (play (countdown.1.runCycles halves.recorded (1 : Nat)) countdown.2).1.1
      (play (countdown.1.runCycles halves.recorded ((3 + 1 : Nat) : Int)) countdown.2).1.1 = 3 := by
    decide +kernel
  have hshown := (hcycles 3 hgone .delay 3 (by omega)).1 1 _ 0 (by omega) hset rfl hunset
  dsimp only at hshown
  rw [hvalue, hpassed] at hshown
  exact hshown

end Emulator

end Chip8

import Mathlib
import Chip8.Proofs.Emulator.Accounts
import Chip8.Proofs.Emulator.Clock

/-!
# What a fault leaves behind

A cycle that ends in a fault of the machine commits nothing (`fault_commits_nothing`).  The fault comes behind the poll
and in front of everything else that a cycle does: so the machine has got its keys, a trace may have been noted, and that
is all.  Timers and scheduler stand where they stood, and what was due is still due.  A run passes the fault on as it is;
what it adds is to switch off the tone.
-/

namespace Chip8

variable {W : Type}

/-! ### The input of a cycle -/

/-- What the input device answers behind its poll: the key vector if the poll reports a new one, and else nothing, for
then it is not asked. -/
def Peripherals.answer (p : Peripherals (StateM W)) (w : W) : Option Int × W :=
  if (p.poll w).1.hasInputs then p.keys (p.poll w).2 else (none, (p.poll w).2)

/-- The world after some notices. -/
def Peripherals.noted (p : Peripherals (StateM W)) (w : W) (notices : List Notice) : W :=
  notices.foldl (fun w n => (p.perform (.note n) w).2) w

/-- Keys are all that a key vector changes. -/
theorem Machine.receiveKeys_eq (m : Machine) (keys : Option Int) :
    m.receiveKeys keys = { m with keys := (m.receiveKeys keys).keys } := by
  cases keys <;> rfl

/-- What is due at a reading of the clock is due at a later one, as long as it is not handed out. -/
theorem Scheduler.due_le_due {c c₁ : Scheduler} {now later : Float} {due : Nat} {periods periods' : Int}
    (hpoll : c.poll now = .ok (due, c₁)) (hnow : c.passed now = .ok periods) (hlater : c.passed later = .ok periods')
    (hle : periods ≤ periods') : ∃ due' c₂, c.poll later = .ok (due', c₂) ∧ due ≤ due' := by
  simp only [poll, hnow] at hpoll
  obtain ⟨hdue, -⟩ := Prod.mk.inj (Except.ok.inj hpoll)
  refine ⟨max c.consumed periods'.toNat - c.consumed, { c with consumed := max c.consumed periods'.toNat }, ?_, ?_⟩
  · simp only [poll, hlater]
  · omega

namespace Emulator

/-! ### One cycle -/

/-- The next cycle ends in a fault: the user stays, and the machine with its new keys fails. -/
structure Faults (p : Peripherals (StateM W)) (e : Emulator) (s : Scene W) (f : Fault) : Prop where
  stays : ¬ (p.poll s.world).1.wantsExit
  fails : (e.machine.receiveKeys (p.answer s.world).1).step = .error f

/-- What a cycle leaves that has committed nothing. -/
structure Uncommitted (p : Peripherals (StateM W)) (e : Emulator) (s : Scene W) (e' : Emulator) (s' : Scene W) :
    Prop where
  /-- Nothing has changed but the keys. -/
  unchanged : e' = { e with machine := { e.machine with keys := e'.machine.keys } }
  /-- The keys are those that the input device answered, if it was asked. -/
  keys : e'.machine.keys = (e.machine.receiveKeys (p.answer s.world).1).keys
  /-- Nothing was asked of the display and the audio device.  Besides the input device, only notices were given. -/
  requests : ∃ notices : List Notice,
    s'.log = s.log ++ notices.map .note ∧ s'.world = p.noted (p.answer s.world).2 notices
  /-- What was due at any time is due at the next poll, unless the clock has gone back. -/
  due : ∀ now due c periods later periods', e.scheduler.poll now = .ok (due, c) →
    e.scheduler.passed now = .ok periods → e.scheduler.passed later = .ok periods' → periods ≤ periods' →
    ∃ due' c', e'.scheduler.poll later = .ok (due', c') ∧ due ≤ due'

section Cycle

variable {p : Peripherals (StateM W)} {e e' : Emulator} {s s' : Scene W} {f : Fault}

theorem Uncommitted.tone_eq (h : Uncommitted p e s e' s') : e'.tone = e.tone := by
  rw [h.unchanged]

/-- If the user stays, a cycle goes on with the keys that the input device answers. -/
theorem play_step_of_stay (hstay : ¬ (p.poll s.world).1.wantsExit) :
    play (e.step p.recorded) s =
      play ({ e with machine := e.machine.receiveKeys (p.answer s.world).1 }.carryOut p.recorded (p.poll s.world).1)
        ⟨s.log, (p.answer s.world).2⟩ := by
  unfold Peripherals.answer
  rw [step, play_bind, play_poll, answered, if_neg hstay]
  by_cases hnew : (p.poll s.world).1.hasInputs
  · rw [if_pos hnew, if_pos hnew]
    rfl
  · rw [if_neg hnew, if_neg hnew]
    rfl

theorem play_carryOut_of_fault (hfault : e.machine.step = .error f) (signals : Signals) :
    ∃ notices : List Notice, play (e.carryOut p.recorded signals) s =
      ((e, .error (.fault f)), ⟨s.log ++ notices.map .note, p.noted s.world notices⟩) := by
  unfold Machine.step at hfault
  cases hfetch : e.machine.fetch with
  | error f' =>
    rw [hfetch] at hfault
    obtain rfl : f' = f := Except.error.inj hfault
    exact ⟨[], by simp [carryOut, hfetch, Peripherals.noted]⟩
  | ok word =>
    rw [hfetch] at hfault
    cases htrace : e.config.trace with
    | false => exact ⟨[], by simp [carryOut, hfetch, htrace, hfault, Peripherals.noted]⟩
    | true =>
      exact ⟨[.traced e.machine.pc word], by simp [carryOut, hfetch, htrace, hfault, Peripherals.noted]⟩

theorem play_carryOut_of_step {m : Machine} {eff : Effect} (hstep : e.machine.step = .ok (m, eff)) (signals : Signals) :
    (play (e.carryOut p.recorded signals) s).1.2 ≠ .error (.fault f) := by
  unfold Machine.step at hstep
  cases hfetch : e.machine.fetch with
  | error f' =>
    rw [hfetch] at hstep
    exact nomatch hstep
  | ok word =>
    rw [hfetch] at hstep
    obtain ⟨w, hplay⟩ := play_carryOut_of_ok p e s hfetch hstep signals
    obtain ⟨now, w', ⟨err, -, hsettle⟩ | ⟨due, scheduler, -, hsettle⟩⟩ := play_settle p
      { e with machine := m, cycles := e.cycles + 1 } ⟨s.log ++ (e.traceRequests word ++ warningRequests eff), w⟩
      (signals ||| eff.signals)
    · rw [hplay, hsettle]
      exact nofun
    · rw [hplay, hsettle]
      exact nofun

/-- **A cycle that ends in a fault commits nothing.** -/
theorem Faults.play_step (h : Faults p e s f) :
    ∃ e' s', play (e.step p.recorded) s = ((e', .error (.fault f)), s') ∧ Uncommitted p e s e' s' := by
  obtain ⟨notices, hplay⟩ := play_carryOut_of_fault (p := p) (s := ⟨s.log, (p.answer s.world).2⟩)
    (e := { e with machine := e.machine.receiveKeys (p.answer s.world).1 }) h.fails (p.poll s.world).1
  refine ⟨_, _, (play_step_of_stay h.stays).trans hplay, ?_, rfl, ⟨notices, rfl, rfl⟩, ?_⟩
  · rw [Machine.receiveKeys_eq]
  · intro now due c periods later periods' hpoll hnow hlater hle
    exact Scheduler.due_le_due hpoll hnow hlater hle

/-- A cycle answers a fault only if the machine fails. -/
theorem faults_iff : (play (e.step p.recorded) s).1.2 = .error (.fault f) ↔ Faults p e s f := by
  constructor
  · intro hout
    by_cases hexit : (p.poll s.world).1.wantsExit
    · rw [step_of_exit hexit] at hout
      exact nomatch hout
    · rw [play_step_of_stay hexit] at hout
      cases hstep : (e.machine.receiveKeys (p.answer s.world).1).step with
      | ok r => exact absurd hout (play_carryOut_of_step hstep _)
      | error f' =>
        obtain ⟨notices, hplay⟩ := play_carryOut_of_fault (p := p) (s := ⟨s.log, (p.answer s.world).2⟩)
          (e := { e with machine := e.machine.receiveKeys (p.answer s.world).1 }) hstep (p.poll s.world).1
        rw [hplay] at hout
        obtain rfl : f' = f := CycleError.fault.inj (Except.error.inj hout)
        exact ⟨hexit, hstep⟩
  · intro h
    obtain ⟨e', s', hplay, -⟩ := h.play_step
    rw [hplay]

end Cycle

/-! ### A run -/

/-- A run goes through `n` cycles, and the next one ends in a fault. -/
structure FaultsBehind (p : Peripherals (StateM W)) (e : Emulator) (s : Scene W) (n : Nat) (f : Fault) : Prop where
  through : (play (e.underway p.recorded n) s).1.2 = (n, none)
  faults : Faults p (runSetsOut p e s n).1 (runSetsOut p e s n).2 f

section Run

variable {p : Peripherals (StateM W)} {e e' eₙ : Emulator} {s s' sₙ : Scene W} {n limit : Nat} {f : Fault}

/-- A cycle that leaves the emulator ready has counted one instruction. -/
theorem cycles_of_step {signals : Signals} (hstep : play (e.step p.recorded) s = ((e', .ok signals), s'))
    (hstay : ¬ signals.wantsExit) : e'.cycles = e.cycles + 1 := by
  obtain ⟨i, rs, -, -, -, hc⟩ := cycle_of_step hstep
  cases hc with
  | left hexit => exact absurd hexit hstay
  | done => rfl

/-- A run that has gone through `n` cycles has counted them. -/
theorem cycles_of_through (hrun : (play (e.underway p.recorded n) s).1.2 = (n, none)) :
    (play (e.underway p.recorded n) s).1.1.cycles = e.cycles + n := by
  induction n with
  | zero => rfl
  | succ n ih =>
    have hbefore := underway_of_succ hrun
    have hsofar := ih hbefore
    obtain ⟨⟨⟨eₙ, _⟩, sₙ⟩, hn⟩ : ∃ r, play (e.underway p.recorded n) s = r := ⟨_, rfl⟩
    obtain ⟨⟨⟨e', out⟩, s'⟩, hstep⟩ :
      ∃ r, play (eₙ.step p.recorded) ⟨sₙ.log, (p.now sₙ.world).2⟩ = r := ⟨_, rfl⟩
    simp only [hn] at hbefore hsofar
    subst hbefore
    cases out with
    | error err =>
      rw [underway_succ_of_error hn hstep] at hrun
      exact nomatch hrun
    | ok signals =>
      by_cases hexit : signals.wantsExit
      · rw [underway_succ_of_exit hn hexit hstep] at hrun
        have hcount : n = n + 1 := congrArg Prod.fst hrun
        omega
      · obtain ⟨pause, -, hnext⟩ := underway_succ_of_stay hn hexit hstep
        rw [hnext, cycles_of_step hstep hexit, hsofar]
        rfl

/-- A run that ends in a fault has met it behind some of its cycles. -/
theorem exists_faultsBehind (hrun : (play (e.underway p.recorded limit) s).1.2.2 = some (.fault f)) :
    ∃ n < limit, FaultsBehind p e s n f := by
  induction limit with
  | zero => exact nomatch hrun
  | succ limit ih =>
    by_cases hall : (play (e.underway p.recorded limit) s).1.2 = (limit, none)
    · obtain ⟨⟨⟨eₙ, _⟩, sₙ⟩, hn⟩ : ∃ r, play (e.underway p.recorded limit) s = r := ⟨_, rfl⟩
      obtain ⟨⟨⟨e', out⟩, s'⟩, hstep⟩ :
        ∃ r, play (eₙ.step p.recorded) ⟨sₙ.log, (p.now sₙ.world).2⟩ = r := ⟨_, rfl⟩
      refine ⟨limit, limit.lt_succ_self, hall, ?_⟩
      simp only [hn] at hall
      subst hall
      have hfault : out = .error (.fault f) := by
        cases out with
        | error err =>
          rw [underway_succ_of_error hn hstep] at hrun
          rw [Option.some.inj hrun]
        | ok signals =>
          by_cases hexit : signals.wantsExit
          · rw [underway_succ_of_exit hn hexit hstep] at hrun
            exact nomatch hrun
          · obtain ⟨pause, -, hnext⟩ := underway_succ_of_stay hn hexit hstep
            rw [hnext] at hrun
            exact nomatch hrun
      rw [← faults_iff]
      simp only [runSetsOut, hn, hstep, hfault]
    · -- a run that has ended earlier is not taken up again
      have hsame : play (e.underway p.recorded (limit + 1)) s = play (e.underway p.recorded limit) s := by
        rw [underway_add, play_bind, if_neg fun h => hall (Prod.ext h.1 h.2)]
        rfl
      rw [hsame] at hrun
      obtain ⟨n, hn, h⟩ := ih hrun
      exact ⟨n, by omega, h⟩

/-- Behind a fault, a run switches off the tone and passes the fault on. -/
theorem FaultsBehind.play_within (h : FaultsBehind p e s n f) :
    ∃ e' s', Uncommitted p (runSetsOut p e s n).1 (runSetsOut p e s n).2 e' s' ∧
      (runSetsOut p e s n).1.cycles = e.cycles + n ∧
      ∀ limit, n < limit → ∃ w, play (e.within p.recorded limit) s =
        (({ e' with tone := false, running := false }, .error (.fault f)),
          ⟨s'.log ++ toneRequests e'.tone false ++ [.note (.runStopped n)], w⟩) := by
  obtain ⟨e', s', hstep, hun⟩ := h.faults.play_step
  refine ⟨e', s', hun, cycles_of_through h.through, fun limit hlimit => ?_⟩
  obtain ⟨⟨⟨eₙ, _⟩, sₙ⟩, hn⟩ : ∃ r, play (e.underway p.recorded n) s = r := ⟨_, rfl⟩
  have hthrough := h.through
  simp only [hn] at hthrough
  subst hthrough
  simp only [runSetsOut, hn] at hstep
  obtain ⟨w, hsilent⟩ := play_silence p e' s'
  refine ⟨(p.perform (.note (.runStopped n)) w).2, ?_⟩
  rw [within, play_bind, underway_of_error hn hstep hlimit]
  simp [stopping, outcome, hsilent]

theorem faultsBehind_iff : (play (e.within p.recorded limit) s).1.2 = .error (.fault f) ↔
    ∃ n < limit, FaultsBehind p e s n f := by
  constructor
  · intro hout
    refine exists_faultsBehind ?_
    obtain ⟨e', executed, failure, s', w, hrun, hplay⟩ := play_within p e s limit
    rw [hplay] at hout
    rw [hrun]
    cases failure with
    | none => exact nomatch hout
    | some err => exact congrArg some (Except.error.inj hout)
  · rintro ⟨n, hn, h⟩
    obtain ⟨e', s', -, -, hplay⟩ := h.play_within
    obtain ⟨w, hw⟩ := hplay limit hn
    rw [hw]

end Run

/-- **A fault commits nothing.**  Whatever the emulator, its peripherals and what went before, a cycle ends in a fault
exactly if the user stays and the machine, with the keys that it gets, fails so.  Then the emulator is as it was, but for
these keys; no device was asked for anything but the input device, and what was due is still due.

A run with a limit ends in a fault exactly if one of its cycles does.  It answers that very fault, with the emulator as
the cycles before the fault have left it, and so many of them counted; only the tone is switched off, if it was on, and
the run is over.  (A run without a limit is one that does not reach it.) -/
theorem fault_commits_nothing (p : Peripherals (StateM W)) (e : Emulator) (s : Scene W) (f : Fault) :
    ((play (e.step p.recorded) s).1.2 = .error (.fault f) ↔ Faults p e s f) ∧
    (Faults p e s f →
      ∃ e' s', play (e.step p.recorded) s = ((e', .error (.fault f)), s') ∧ Uncommitted p e s e' s') ∧
    (∀ limit, (play (e.within p.recorded limit) s).1.2 = .error (.fault f) ↔
      ∃ n < limit, FaultsBehind p e s n f) ∧
    (∀ n, FaultsBehind p e s n f →
      ∃ e' s', Uncommitted p (runSetsOut p e s n).1 (runSetsOut p e s n).2 e' s' ∧
        (runSetsOut p e s n).1.cycles = e.cycles + n ∧
        ∀ limit, n < limit → ∃ w, play (e.within p.recorded limit) s =
          (({ e' with tone := false, running := false }, .error (.fault f)),
            ⟨s'.log ++ toneRequests e'.tone false ++ [.note (.runStopped n)], w⟩)) ∧
    ∀ max, e.run p.recorded max = e.within p.recorded (limitOf max) :=
  ⟨faults_iff, Faults.play_step, fun _ => faultsBehind_iff, fun _ => FaultsBehind.play_within,
    fun _ => rfl⟩

/-- Somebody who holds key `4`, and a clock that goes on by half a second whenever it is read. -/
def holding : Peripherals (StateM Float) :=
  { halves with
    poll := pure .newInputs
    keys := pure (some 0x10) }

/-- In memory is a program that starts a tone and comes to a word that is no instruction; a period is half a second. -/
def faltering : Emulator :=
  (play (call holding.recorded { config := {}, machine := .powerOn default, scheduler := ⟨0.5, 0.0, 0⟩ }
    (.load [0x60, 0xFF, 0xF0, 0x18, 0xFF, 0xFF])) ⟨[], 0.0⟩).1

/-- A run of it fails behind two cycles, at the third word, and the tone that sounds is switched off. -/
theorem fault_commits_nothing_faltering :
    ∃ e' s' w, Uncommitted holding (runSetsOut holding faltering ⟨[], 0.0⟩ 2).1
        (runSetsOut holding faltering ⟨[], 0.0⟩ 2).2 e' s' ∧
      e'.tone = true ∧ e'.machine.keys = Key.bit 4 ∧
      play (faltering.run holding.recorded (some 10)) ⟨[], 0.0⟩ =
        (({ e' with tone := false, running := false }, .error (.fault (.unrecognized 0x204 0xFFFF))),
          ⟨s'.log ++ [.tone false, .play, .note (.runStopped 2)], w⟩) := by
  obtain ⟨-, -, -, hbehind, hwithin⟩ :=
    fault_commits_nothing holding faltering ⟨[], 0.0⟩ (.unrecognized 0x204 0xFFFF)
  have hthrough : (play (faltering.underway holding.recorded 2) ⟨[], 0.0⟩).1.2 = (2, none) := by decide +kernel
  have hfails : ((runSetsOut holding faltering ⟨[], 0.0⟩ 2).1.machine.receiveKeys (some 0x10)).step =
      .error (.unrecognized 0x204 0xFFFF) := by
    decide +kernel
  obtain ⟨e', s', hun, -, hplay⟩ := hbehind 2 ⟨hthrough, by decide, hfails⟩
  obtain ⟨w, hrun⟩ := hplay (limitOf (some 10)) (by decide)
  have hsounds : (runSetsOut holding faltering ⟨[], 0.0⟩ 2).1.tone = true := by decide +kernel
  have htone : e'.tone = true := hun.tone_eq.trans hsounds
  have hkeys : e'.machine.keys = Key.bit 4 := by
    rw [hun.keys]
    decide +kernel
  refine ⟨e', s', w, hun, htone, hkeys, ?_⟩
  rw [hwithin, hrun, htone]
  simp [toneRequests]

end Emulator

end Chip8

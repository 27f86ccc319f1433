import Mathlib
import Chip8.Proofs.Rate
import Chip8.Proofs.Emulator.Faults

/-!
# When periods cannot be counted

A step reads the clock once for its timers, when its instruction has been carried out (`Reads`).  It fails for reasons of
time exactly if the scheduler cannot count up to this reading (`step_timing`), and a step that does not come so far leaves
the scheduler alone.

So of all that is asked of an emulator only three things matter: its period, when its scheduler was started, and what the
clock says.  If all readings are good, in whatever sense, then a call that fails for reasons of time fails between two good
ones, by the period that the emulator was made with (`attendAll_accounted`).
-/

namespace Chip8

variable {W α β : Type}

/-! ### What actions answer -/

/-- Whatever the world and whatever was asked for before, an action answers so. -/
def Gives (x : StateT (List Request) (StateM W) α) (Q : α → Prop) : Prop := ∀ s : Scene W, Q (play x s).1

theorem Gives.pure {Q : α → Prop} {a : α} (h : Q a) : Gives (W := W) (pure a) Q := fun _ => h

theorem Gives.bind {x : StateT (List Request) (StateM W) α} {f : α → StateT (List Request) (StateM W) β}
    {P : α → Prop} {Q : β → Prop} (hx : Gives x P) (hf : ∀ a, P a → Gives (f a) Q) : Gives (x >>= f) Q :=
  fun s => hf _ (hx s) (play x s).2

/-- What an action answers may not matter. -/
theorem Gives.behind {x : StateT (List Request) (StateM W) α} {f : α → StateT (List Request) (StateM W) β}
    {Q : β → Prop} (hf : ∀ a, Gives (f a) Q) : Gives (x >>= f) Q :=
  fun s => hf _ (play x s).2

theorem Scheduler.started_of_poll {c c' : Scheduler} {now : Float} {due : Nat} (h : c.poll now = .ok (due, c')) :
    c'.started = c.started := by
  unfold poll at h
  split at h
  · obtain ⟨-, rfl⟩ := Prod.mk.inj (Except.ok.inj h)
    rfl
  · exact nomatch h

/-- The world after some requests. -/
def Peripherals.performed (p : Peripherals (StateM W)) (w : W) (rs : List Request) : W :=
  rs.foldl (fun w r => (p.perform r w).2) w

theorem Peripherals.performed_append (p : Peripherals (StateM W)) (w : W) (rs rs' : List Request) :
    p.performed w (rs ++ rs') = p.performed (p.performed w rs) rs' :=
  List.foldl_append

namespace Emulator

/-! ### One step -/

/-- The emulator with the keys that the input device answers. -/
def keyed (p : Peripherals (StateM W)) (e : Emulator) (s : Scene W) : Emulator :=
  { e with machine := e.machine.receiveKeys (p.answer s.world).1 }

/-- What the next step reads from the clock for its timers, if the user stays and the machine with its new keys does not
fail: it reads it when the word and a warning have been noted and the tone has been passed on. -/
def Reads (p : Peripherals (StateM W)) (e : Emulator) (s : Scene W) (now : Float) : Prop :=
  ¬ (p.poll s.world).1.wantsExit ∧ ∃ word m eff,
    (keyed p e s).machine.fetch = .ok word ∧ (keyed p e s).machine.exec word = .ok (m, eff) ∧
      (p.now (p.performed (p.answer s.world).2
        ((keyed p e s).traceRequests word ++ warningRequests eff ++ toneRequests e.tone m.tone))).1 = now

/-- Behind an instruction, a step ends as the scheduler says at a reading of the clock. -/
inductive Timing (e : Emulator) (now : Float) : Emulator × Except CycleError Signals → Prop
  | counted {e' : Emulator} {due : Nat} (signals : Signals) (hpoll : e.scheduler.poll now = .ok (due, e'.scheduler))
      (hconfig : e'.config = e.config) : Timing e now (e', .ok signals)
  | failed {e' : Emulator} {err : PollError} (hpoll : e.scheduler.poll now = .error err)
      (hscheduler : e'.scheduler = e.scheduler) (hconfig : e'.config = e.config) :
      Timing e now (e', .error (.timing err))

section Step

variable {p : Peripherals (StateM W)} {e e₁ : Emulator} {s : Scene W} {now : Float}
  {r : Emulator × Except CycleError Signals}

theorem Timing.of_same (h : Timing e₁ now r) (hscheduler : e₁.scheduler = e.scheduler) (hconfig : e₁.config = e.config) :
    Timing e now r := by
  cases h with
  | counted signals hpoll hc => exact .counted signals (hscheduler ▸ hpoll) (hc.trans hconfig)
  | failed hpoll hs hc => exact .failed (hscheduler ▸ hpoll) (hs.trans hscheduler) (hc.trans hconfig)

theorem pushTone_performed (p : Peripherals (StateM W)) (e : Emulator) (s : Scene W) :
    play (e.pushTone p.recorded) s =
      (({ e with tone := e.machine.tone }, toneSignal e.tone e.machine.tone),
        ⟨s.log ++ toneRequests e.tone e.machine.tone, p.performed s.world (toneRequests e.tone e.machine.tone)⟩) := by
  unfold pushTone toneSignal toneRequests
  by_cases h : e.machine.tone = e.tone
  · simp [h, Peripherals.performed]
  · simp [h, sound, Peripherals.performed]

theorem carryOut_performed {word : Word} {m : Machine} {eff : Effect} (hfetch : e.machine.fetch = .ok word)
    (hexec : e.machine.exec word = .ok (m, eff)) (signals : Signals) :
    play (e.carryOut p.recorded signals) s =
      play ({ e with machine := m, cycles := e.cycles + 1 }.settle p.recorded (signals ||| eff.signals))
        ⟨s.log ++ (e.traceRequests word ++ warningRequests eff),
          p.performed s.world (e.traceRequests word ++ warningRequests eff)⟩ := by
  unfold traceRequests warningRequests
  cases htrace : e.config.trace <;> cases hwarn : eff.warning <;>
    simp [carryOut, hfetch, hexec, htrace, hwarn, Peripherals.performed]

theorem settle_timing (p : Peripherals (StateM W)) (e : Emulator) (s : Scene W) (signals : Signals) :
    Timing e (p.now (p.performed s.world (toneRequests e.tone e.machine.tone))).1
      (play (e.settle p.recorded signals) s).1 := by
  generalize hnow : (p.now (p.performed s.world (toneRequests e.tone e.machine.tone))).1 = now
  cases hpoll : e.scheduler.poll now with
  | error err =>
    simp only [settle, play_bind, pushTone_performed, play_now, hnow, hpoll, play_pure]
    exact .failed hpoll rfl rfl
  | ok r =>
    obtain ⟨due, scheduler⟩ := r
    simp only [settle, play_bind, pushTone_performed, play_now, hnow, hpoll, play_pure]
    exact .counted _ hpoll rfl

/-- A step that reads the clock ends as the scheduler says. -/
theorem step_timing (h : Reads p e s now) : Timing e now (play (e.step p.recorded) s).1 := by
  obtain ⟨hstay, word, m, eff, hfetch, hexec, rfl⟩ := h
  have hcarry := carryOut_performed (p := p) (s := ⟨s.log, (p.answer s.world).2⟩) hfetch hexec (p.poll s.world).1
  rw [play_step_of_stay hstay, ← keyed, hcarry, Peripherals.performed_append]
  generalize (keyed p e s).traceRequests word ++ warningRequests eff = rs
  have htiming := settle_timing p { keyed p e s with machine := m, cycles := (keyed p e s).cycles + 1 }
    ⟨s.log ++ rs, p.performed (p.answer s.world).2 rs⟩ ((p.poll s.world).1 ||| eff.signals)
  exact htiming.of_same rfl rfl

/-- One that does not leaves the timers alone. -/
theorem step_of_not_reads (h : ∀ now, ¬ Reads p e s now) :
    ∃ e' out, (play (e.step p.recorded) s).1 = (e', out) ∧ e'.scheduler = e.scheduler ∧ e'.config = e.config ∧
      ∀ err, out ≠ .error (.timing err) := by
  by_cases hexit : (p.poll s.world).1.wantsExit
  · rw [step_of_exit hexit]
    exact ⟨_, _, rfl, rfl, rfl, nofun⟩
  · obtain ⟨f, hfails⟩ : ∃ f, (keyed p e s).machine.step = .error f := by
      unfold Machine.step
      cases hfetch : (keyed p e s).machine.fetch with
      | error f => exact ⟨f, rfl⟩
      | ok word =>
        cases hexec : (keyed p e s).machine.exec word with
        | error f => exact ⟨f, hexec⟩
        | ok r => exact absurd ⟨hexit, word, r.1, r.2, hfetch, hexec, rfl⟩ (h _)
    have hfaults : Faults p e s f := ⟨hexit, hfails⟩
    obtain ⟨e', s', hplay, hun⟩ := hfaults.play_step
    rw [hplay]
    refine ⟨_, _, rfl, ?_, ?_, nofun⟩ <;> rw [hun.unchanged]

end Step

/-! ### All calls -/

/-- The instruction rate is one, the period is this, and the scheduler was started at a good reading. -/
structure Clocked (period : Float) (Good : Float → Prop) (e : Emulator) : Prop where
  clock : e.config.clock.isClock
  period : e.scheduler.period = period
  started : Good e.scheduler.started

theorem Clocked.of_same {period : Float} {Good : Float → Prop} {e e' : Emulator} (h : Clocked period Good e)
    (hconfig : e'.config = e.config) (hperiod : e'.scheduler.period = e.scheduler.period)
    (hstarted : e'.scheduler.started = e.scheduler.started) : Clocked period Good e' := by
  refine ⟨?_, hperiod.trans h.period, ?_⟩
  · rw [hconfig]
    exact h.clock
  · rw [hstarted]
    exact h.started

/-- From one good reading to another, the periods cannot be counted. -/
def FailsBetween (period : Float) (Good : Float → Prop) (err : PollError) : Prop :=
  ∃ c : Scheduler, c.period = period ∧ Good c.started ∧ ∃ now, Good now ∧ c.poll now = .error err

/-- An emulator and an answer that is no failure to count periods, or one between good readings. -/
def Accounted (period : Float) (Good : Float → Prop) (r : Emulator × Except CycleError α) : Prop :=
  Clocked period Good r.1 ∧ ∀ err, r.2 = .error (.timing err) → FailsBetween period Good err

/-- The same of an emulator behind a call and how the call ended. -/
def Attended (period : Float) (Good : Float → Prop) (r : Emulator × Progress) : Prop :=
  Clocked period Good r.1 ∧ ∀ err, r.2 = .failed (.timing err) → FailsBetween period Good err

theorem Progress.of_ofCycle {out : Except CycleError Signals} {err : CycleError} (h : ofCycle out = .failed err) :
    out = .error err := by
  cases out with
  | ok signals =>
    unfold ofCycle at h
    dsimp only at h
    split at h <;> exact nomatch h
  | error err' => rw [Progress.failed.inj h]

theorem Progress.of_ofCount {limit : Nat} {out : Except CycleError Nat} {err : CycleError}
    (h : ofCount limit out = .failed err) : out = .error err := by
  cases out with
  | ok executed =>
    unfold ofCount at h
    dsimp only at h
    split at h <;> exact nomatch h
  | error err' => rw [Progress.failed.inj h]

section Calls

variable {period : Float} {Good : Float → Prop} {p : Peripherals (StateM W)} {e : Emulator}

theorem Accounted.of_ok (h : Clocked period Good e) (a : α) :
    Accounted period Good (e, (.ok a : Except CycleError α)) := by
  refine ⟨h, fun err herr => ?_⟩
  cases herr

theorem Accounted.of_error {err : CycleError} (h : Accounted period Good (e, (.error err : Except CycleError α))) :
    Accounted period Good (e, (.error err : Except CycleError β)) := by
  refine ⟨h.1, fun err' herr => h.2 err' ?_⟩
  rw [Except.error.inj herr]

theorem Attended.of_ready (h : Clocked period Good e) : Attended period Good (e, .ready) := by
  refine ⟨h, fun err herr => ?_⟩
  cases herr

variable (hgood : ∀ w, Good (p.now w).1) (h : Clocked period Good e)
include hgood h

theorem step_accounted : Gives (e.step p.recorded) (Accounted period Good) := by
  intro s
  by_cases hreads : ∃ now, Reads p e s now
  · obtain ⟨now, hreads⟩ := hreads
    have hnow : Good now := by
      obtain ⟨-, word, m, eff, -, -, rfl⟩ := hreads
      exact hgood _
    have htiming := step_timing hreads
    generalize (play (e.step p.recorded) s).1 = r at htiming
    cases htiming with
    | counted signals hpoll hconfig =>
      exact .of_ok (h.of_same hconfig (Scheduler.period_of_poll hpoll) (Scheduler.started_of_poll hpoll)) signals
    | failed hpoll hscheduler hconfig =>
      refine ⟨h.of_same hconfig (by rw [hscheduler]) (by rw [hscheduler]), fun err herr => ?_⟩
      obtain rfl := CycleError.timing.inj (Except.error.inj herr)
      exact ⟨_, h.period, h.started, now, hnow, hpoll⟩
  · obtain ⟨e', out, hplay, hscheduler, hconfig, hout⟩ := step_of_not_reads (not_exists.mp hreads)
    rw [hplay]
    refine ⟨h.of_same hconfig ?_ ?_, fun err herr => absurd herr (hout err)⟩ <;> rw [hscheduler]

theorem unpaced_accounted (limit executed : Nat) :
    Gives (unpaced p.recorded limit executed e) (Accounted period Good) := by
  induction limit generalizing executed e with
  | zero => exact .pure (.of_ok h executed)
  | succ limit ih =>
    rw [unpaced]
    refine (step_accounted hgood h).bind fun r hr => ?_
    obtain ⟨e', out⟩ := r
    cases out with
    | error err => exact .pure hr.of_error
    | ok signals =>
      by_cases hexit : signals.wantsExit
      · simp only [hexit, if_true]
        exact .pure (.of_ok hr.1 executed)
      · simp only [hexit]
        exact ih hr.1 _

theorem paced_accounted (seconds : Float) (limit executed : Nat) :
    Gives (paced p.recorded seconds limit executed e) fun r => Accounted period Good (r.1, outcome r.2.1 r.2.2) := by
  induction limit generalizing executed e with
  | zero => exact .pure (.of_ok h executed)
  | succ limit ih =>
    rw [paced]
    refine .behind fun started => ?_
    refine (step_accounted hgood h).bind fun r hr => ?_
    obtain ⟨e', out⟩ := r
    cases out with
    | error err => exact .pure hr.of_error
    | ok signals =>
      by_cases hexit : signals.wantsExit
      · simp only [hexit, if_true]
        exact .behind fun _ => .pure (.of_ok hr.1 executed)
      · simp only [hexit]
        exact .behind fun now => .behind fun _ => ih hr.1 _

omit hgood in
theorem silence_clocked : Gives (e.silence p.recorded) (Clocked period Good) := by
  intro s
  obtain ⟨w, hw⟩ := play_silence p e s
  rw [hw]
  exact ⟨h.clock, h.period, h.started⟩

theorem underway_accounted (limit : Nat) :
    Gives (e.underway p.recorded limit) fun r => Accounted period Good (r.1, outcome r.2.1 r.2.2) := by
  unfold underway
  have hnow : Gives p.recorded.now Good := fun s => hgood s.world
  refine hnow.bind fun now hstart => .behind fun _ => ?_
  have hset : Clocked period Good { e with scheduler := e.scheduler.restart now, running := true } :=
    ⟨h.clock, h.period, hstart⟩
  exact paced_accounted hgood hset _ _ _

omit hgood h in
theorem stopping_accounted {executed : Nat} {failure : Option CycleError}
    (h : Accounted period Good (e, outcome executed failure)) :
    Gives (stopping p.recorded e executed failure) (Accounted period Good) := by
  unfold stopping
  refine (silence_clocked h.1).bind fun e₁ h₁ => .behind fun _ => .pure ⟨?_, h.2⟩
  exact ⟨h₁.clock, h₁.period, h₁.started⟩

theorem run_accounted (max : Option Int) : Gives (e.run p.recorded max) (Accounted period Good) := by
  rw [run_eq]
  exact (underway_accounted hgood h (limitOf max)).bind fun r hr => stopping_accounted hr

theorem reset_clocked : Gives (e.reset p.recorded) (Clocked period Good) := by
  unfold reset
  have hnow : Gives p.recorded.now Good := fun s => hgood s.world
  exact (silence_clocked h).bind fun e₁ h₁ => hnow.bind fun now hstart => .pure ⟨h₁.clock, h₁.period, hstart⟩

omit hgood in
theorem load_clocked (program : List UInt8) : Gives (e.load p.recorded program) fun r => Clocked period Good r.1 := by
  unfold load
  split
  · exact .pure h
  · exact .behind fun _ => .pure ⟨h.clock, h.period, h.started⟩

omit hgood in
theorem withClock_clocked {clock : Rate} {e' : Emulator} (hclock : e.withClock clock = .ok e') : Clocked period Good e' := by
  have hcheck : clock.isClock := by
    by_contra hnot
    obtain ⟨err, herr, -⟩ := Rate.checkClock_of_not_isClock hnot
    simp [withClock, Config.withClock, herr] at hclock
  rw [withClock_eq_ok hclock]
  exact ⟨hcheck, h.period, h.started⟩

/-- A call that fails to count periods does so between good readings. -/
theorem attend_accounted (c : Call) : Gives (attend p.recorded e c) (Attended period Good) := by
  cases c with
  | step =>
    exact (step_accounted hgood h).bind fun r hr => .pure ⟨hr.1, fun err herr => hr.2 err (Progress.of_ofCycle herr)⟩
  | run max =>
    exact (run_accounted hgood h max).bind fun r hr =>
      .pure ⟨hr.1, fun err herr => hr.2 err (Progress.of_ofCount herr)⟩
  | runCycles count =>
    exact (unpaced_accounted hgood h _ _).bind fun r hr =>
      .pure ⟨hr.1, fun err herr => hr.2 err (Progress.of_ofCount herr)⟩
  | reset => exact (reset_clocked hgood h).bind fun e' h' => .pure (.of_ready h')
  | load program => exact (load_clocked h program).bind fun r h' => .pure (.of_ready h')
  | setClock clock =>
    simp only [attend]
    cases hclock : e.withClock clock with
    | ok e' => exact .pure (.of_ready (withClock_clocked h hclock))
    | error err => exact .pure (.of_ready h)

theorem attendAll_accounted (cs : List Call) : Gives (attendAll p.recorded e cs) fun r =>
    Clocked period Good r.1 ∧ ∀ err, .failed (.timing err) ∈ r.2 → FailsBetween period Good err := by
  induction cs generalizing e with
  | nil => exact .pure ⟨h, nofun⟩
  | cons c cs ih =>
    rw [attendAll]
    refine (attend_accounted hgood h c).bind fun r hr => (ih hr.1).bind fun rs hrs => .pure ⟨hrs.1, fun err herr => ?_⟩
    rcases List.mem_cons.mp herr with hhead | htail
    · exact hr.2 err hhead.symm
    · exact hrs.2 err htail

omit h in
theorem calls_clocked (cs : List Call) {s : Scene W} (h : Clocked period Good e) :
    Clocked period Good (play (calls p.recorded e cs) s).1 := by
  refine calls_induction (P := fun e _ => Clocked period Good e) (fun c e s he => ?_) cs h
  rw [play_call]
  exact (attend_accounted hgood he c s).1

end Calls

end Emulator

end Chip8

import Mathlib
import Chip8.Proofs.Emulator.Display
import Chip8.Proofs.Emulator.Keys
import Chip8.Proofs.Emulator.Observers

/-!
# Resets

Whatever an emulator has gone through, a reset leaves one that has just been created, but for its random numbers, which
go on (`reset_is_powerOn`).  Most of this can be read off the code of a reset; what cannot is that the parts that a reset
does not touch are as they were in the beginning.  An emulator is *settled* if no run goes on and its scheduler counts the
periods of its configuration, and every call leaves a settled emulator settled.

Outside the emulator a reset is no power-on.  The display and the input device are told nothing and ask for nothing.  They
report changes only, so they are in step with the machine afterwards exactly if nothing was lit, and if no key is held or
the input device happens to report (`reset_in_step_iff`).
-/

namespace Chip8

variable {V W W' : Type}

theorem Scheduler.restart_of_create {frequency : Rate} {now : Float} {c : Scheduler}
    (h : create frequency now = .ok c) (later : Float) : create frequency later = .ok (c.restart later) := by
  unfold create at h ⊢
  by_cases hpositive : frequency.isNotPositive
  · simp [hpositive] at h
  · cases hperiod : frequency.period with
    | error err => simp [hpositive, hperiod] at h
    | ok period =>
      obtain rfl : ⟨period, now, 0⟩ = c := by simpa [hpositive, hperiod] using h
      simp [hpositive, restart]

namespace Emulator

/-! ### Settled emulators -/

/-- No run goes on, and the scheduler, restarted at any time, is one for the configuration. -/
structure Settled (e : Emulator) : Prop where
  running : e.running = false
  scheduler : ∀ now, Scheduler.create e.config.timer now = .ok (e.scheduler.restart now)

/-- An emulator that has been created and then has gone through any calls, with the scene behind them. -/
def Reached (p : Peripherals (StateM W)) (e : Emulator) (s : Scene W) : Prop :=
  ∃ config seed now e₀ w cs, create config seed now = .ok e₀ ∧ play (calls p.recorded e₀ cs) ⟨[], w⟩ = (e, s)

section Settled

variable {p : Peripherals (StateM W)} {e e' : Emulator} {s : Scene W}

theorem settled_of_create {config : Config} {seed : Int} {now : Float} (h : create config seed now = .ok e) :
    e.Settled := by
  unfold create at h
  cases hscheduler : Scheduler.create config.timer now with
  | error err => simp [hscheduler] at h
  | ok scheduler =>
    rw [hscheduler] at h
    obtain rfl := Except.ok.inj h
    exact ⟨rfl, Scheduler.restart_of_create hscheduler⟩

theorem Settled.of_sameSettings (h : e.Settled) (hsame : SameSettings e e') (hrunning : e'.running = false) :
    e'.Settled := by
  refine ⟨hrunning, fun now => ?_⟩
  rw [hsame.timer, h.scheduler now]
  unfold Scheduler.restart
  rw [hsame.period]

theorem Settled.call (h : e.Settled) (c : Call) : (play (call p.recorded e c) s).1.Settled := by
  by_cases hc : c = .reset
  · subst hc
    obtain ⟨now, w, hreset⟩ := play_reset p e s
    rw [Emulator.call, hreset]
    exact h.of_sameSettings ⟨rfl, rfl, rfl⟩ h.running
  · rw [play_call]
    obtain ⟨ts, htrail, -, hrunning⟩ := trail_attend (p := p) (e := e) (s := s) hc rfl
    exact h.of_sameSettings htrail.sameSettings (hrunning h.running)

theorem Reached.settled (h : Reached p e s) : e.Settled := by
  obtain ⟨config, seed, now, e₀, w, cs, hcreate, hplay⟩ := h
  have hkept := calls_induction (P := fun e _ => e.Settled) (p := p) (fun c _ _ h => h.call c) (s := ⟨[], w⟩) cs
    (settled_of_create hcreate)
  rwa [hplay] at hkept

end Settled

/-! ### Power-on -/

section PowerOn

variable {p : Peripherals (StateM W)} {q : Peripherals (StateM W')} {source : Source V} {view : W → V}
  {view' : W' → V}

theorem view_silence (h : p.FedBy source view) (e : Emulator) (s : Scene W) :
    view (play (e.silence p.recorded) s).2.world = view s.world := by
  have htone : ∀ on w, view (p.perform (.tone on) w).2 = view w := fun on w =>
    congrArg Prod.snd (h.perform (.tone on) w)
  have hplay : ∀ w, view (p.perform .play w).2 = view w := fun w => congrArg Prod.snd (h.perform .play w)
  unfold silence
  cases e.tone with
  | false => rfl
  | true => simp [sound, htone, hplay]

/-- A reset reads the clock of its source once, after it has switched off the tone. -/
theorem play_reset_fed (hp : p.FedBy source view) (hq : q.FedBy source view') (e : Emulator) (s : Scene W) {v : W'}
    (hview : view s.world = view' v) :
    ∃ w, view w = view' (q.now v).2 ∧ play (e.reset p.recorded) s =
      ({ e with machine := e.machine.reset, scheduler := e.scheduler.restart (q.now v).1, tone := false, cycles := 0 },
        ⟨s.log ++ toneRequests e.tone false, w⟩) := by
  obtain ⟨w, hw⟩ := play_silence p e s
  have hsilent : view w = view' v := by
    have hkept := view_silence hp e s
    rw [hw] at hkept
    exact hkept.trans hview
  obtain ⟨hreading, hnow⟩ := projecting_eq hp.now hq.now hsilent
  refine ⟨(p.now w).2, hnow, ?_⟩
  rw [← hreading]
  simp [reset, hw]

/-- **A reset is power-on.**  Whatever an emulator has gone through, its reset asks for nothing but that the tone is
switched off, if it is on, and leaves what a new emulator with its configuration would be, created at that reading of the
clock, and with its random numbers.  From there on the two answer the same to any calls, are the same after each of them,
and ask for the same, on these peripherals and on any others that get the same input and the same time. -/
theorem reset_is_powerOn (hp : p.FedBy source view) (hq : q.FedBy source view') {e : Emulator} {s : Scene W}
    (hreached : Reached p e s) {v : W'} (hview : view s.world = view' v) (seed : Int) :
    ∃ e' w fresh,
      play (e.reset p.recorded) s = (e', ⟨s.log ++ toneRequests e.tone false, w⟩) ∧
      create e.config seed (q.now v).1 = .ok fresh ∧
      e' = { fresh with machine.random := e.machine.random } ∧
      e'.machine = .powerOn e.machine.random ∧ e'.scheduler.consumed = 0 ∧
      ∀ cs, ∃ answers rs w₁ w₂,
        play (respondAll p.recorded e' cs) ⟨s.log ++ toneRequests e.tone false, w⟩ =
          (answers, ⟨s.log ++ toneRequests e.tone false ++ rs, w₁⟩) ∧
        play (respondAll q.recorded { fresh with machine.random := e.machine.random } cs) ⟨[], (q.now v).2⟩ =
          (answers, ⟨rs, w₂⟩) := by
  obtain ⟨w, hw, hreset⟩ := play_reset_fed hp hq e s hview
  obtain ⟨hrunning, hscheduler⟩ := hreached.settled
  have hcreate : create e.config seed (q.now v).1 = .ok
      { config := e.config, machine := .powerOn (.ofSeed (e.config.seed.getD seed)),
        scheduler := e.scheduler.restart (q.now v).1 } := by
    rw [create, hscheduler]
  -- a reset leaves the mark of a run alone, but between calls there is none
  rw [hrunning] at hreset
  refine ⟨_, w, _, hreset, hcreate, rfl, rfl, rfl, fun cs => ?_⟩
  obtain ⟨answers, rs, w₁, w₂, h₁, h₂, -⟩ :=
    (alike view view').respondAll (alike_whole hp hq) _ cs ⟨_, w⟩ ⟨[], (q.now v).2⟩ hw
  exact ⟨answers, rs, w₁, w₂, h₁, h₂⟩

end PowerOn

/-- A new emulator, whose scheduler starts at zero. -/
def begun : Emulator := { config := {}, machine := .powerOn (.ofSeed 0), scheduler := ⟨1.0 / 60.0, 0.0, 0⟩ }

theorem reached_of_begun (p : Peripherals (StateM W)) (w : W) (cs : List Call) :
    Reached p (play (calls p.recorded begun cs) ⟨[], w⟩).1 (play (calls p.recorded begun cs) ⟨[], w⟩).2 := by
  refine ⟨{}, 0, 0.0, begun, w, cs, ?_, rfl⟩
  have hpositive : (Rate.real 60.0).isNotPositive = false := by decide +kernel
  simp [create, Scheduler.create, hpositive, Rate.period, Rate.toFloat, begun]

/-- In memory is a program that starts a tone and calls itself, and it has done so once. -/
def nesting : Emulator × Scene Float :=
  play (calls ticking.alone.recorded begun [.load [0x60, 0xFF, 0xF0, 0x18, 0x22, 0x00], .runCycles 3]) ⟨[], 0.0⟩

/-- The tone is switched off and the open call is gone; the rest is as in a new emulator at a clock that reads the same. -/
theorem reset_is_powerOn_nesting :
    nesting.1.tone = true ∧ nesting.1.machine.stack = [0x204] ∧
      ∃ e' w fresh,
        play (nesting.1.reset ticking.alone.recorded) nesting.2 = (e', ⟨nesting.2.log ++ [.tone false, .play], w⟩) ∧
        create nesting.1.config 7 nesting.2.world = .ok fresh ∧
        e' = { fresh with machine.random := nesting.1.machine.random } ∧ e'.machine.stack = [] := by
  have htone : nesting.1.tone = true := by decide +kernel
  have hstack : nesting.1.machine.stack = [0x204] := by decide +kernel
  have hreached : Reached ticking.alone nesting.1 nesting.2 := reached_of_begun ticking.alone 0.0 _
  have hview : id nesting.2.world = Prod.snd (([] : List Request), nesting.2.world) := by simp only [id]
  obtain ⟨e', w, fresh, hreset, hcreate, hfresh, hmachine, -, -⟩ := reset_is_powerOn ticking.fedBy_alone
    ticking.fedBy_noting hreached hview 7
  have hoff : toneRequests nesting.1.tone false = [.tone false, .play] := by
    rw [htone]
    rfl
  have hreading : ∀ t : Float, (ticking.noting.now ([], t)).1 = t := fun _ => rfl
  rw [hoff] at hreset
  rw [hreading] at hcreate
  refine ⟨htone, hstack, e', w, fresh, hreset, hcreate, hfresh, ?_⟩
  rw [hmachine]
  rfl

/-! ### Display and keys after a reset -/

section InStep

variable {p : Peripherals (StateM W)} {held : W → KeyVector} {e e' : Emulator} {s s' : Scene W}
  {out : Except CycleError Signals}

/-- A machine without keys has those of the device behind a cycle if the device reports them, or if there are none. -/
theorem keys_of_step_iff (h : Reports p held) (hnone : e.machine.keys = 0)
    (hstep : play (e.step p.recorded) s = ((e', out), s')) (hstay : Progress.ofCycle out ≠ .left) :
    e'.machine.keys = held s'.world ↔ (p.poll s.world).1.hasInputs ∨ held s'.world = 0 := by
  rw [keys_of_step h hstep hstay, hnone]
  cases (p.poll s.world).1.hasInputs with
  | true => simp
  | false => simpa using eq_comm

/-- **What a reset keeps in step.**  Behind a reset the screen is blank and no key is down, and the devices have been told
nothing of it.  So the frame that the display was handed last, dark before any, is the one of the machine exactly if it
was dark already.  And the first cycle, whatever is done in front of it, gives the machine the keys of the input device
exactly if the device reports them then, though they may not have changed, or if none is held. -/
theorem reset_in_step_iff (h : Reports p held) (e : Emulator) (s : Scene W) :
    ∃ e' s', play (e.reset p.recorded) s = (e', s') ∧ e'.machine.frame = Framebuffer.blank.frame ∧
      ((framesOf s'.log).getLastD Framebuffer.blank.frame = e'.machine.frame ↔
        (framesOf s.log).getLastD Framebuffer.blank.frame = Framebuffer.blank.frame) ∧
      ∀ (e₁ : Emulator) s₁ e₂ out s₂, e₁.machine.keys = e'.machine.keys →
        play (e₁.step p.recorded) s₁ = ((e₂, out), s₂) → Progress.ofCycle out ≠ .left →
        (e₂.machine.keys = held s₂.world ↔ (p.poll s₁.world).1.hasInputs ∨ held s₂.world = 0) := by
  obtain ⟨now, w, hreset⟩ := play_reset p e s
  refine ⟨_, _, hreset, rfl, ?_, fun e₁ s₁ e₂ out s₂ hkeys hstep hstay => keys_of_step_iff h hkeys hstep hstay⟩
  rw [framesOf_append, framesOf_of_forall_not (dark_toneRequests e.tone false), List.append_nil]
  rfl

end InStep

/-- A terminal at which `q` is typed again and again, at a time that stands still. -/
def typist : Peripherals (StateM (Terminal × Unit)) :=
  ((Terminal.peripherals still (typing 0x71)).plugged (pure 0.0) (fun _ => true) fun _ => pure ()).merged

theorem reports_typist : Reports typist (·.1.held) :=
  (Terminal.reports still (typing 0x71)).plugged (pure 0.0) (fun _ => true) fun _ => pure ()

/-- A program has drawn a digit and goes round, with `q` down all the time. -/
def lit : Emulator × Scene (Terminal × Unit) :=
  play (calls typist.recorded begun [.load [0xD0, 0x05, 0x12, 0x02], .runCycles 2])
    ⟨[], ({ released := 0.0, size := (80, 24) }, ())⟩

/-- Then all has been reset, and another program loaded that goes round. -/
def renewed : Emulator × Scene (Terminal × Unit) :=
  play (calls typist.recorded lit.1 [.reset, .load [0x12, 0x00]]) lit.2

/-- The digit that is lit stays lit, and the key that is down is not reported anew: the first cycle leaves the machine
without it. -/
theorem reset_in_step_iff_lit :
    ∃ e' s', play (lit.1.reset typist.recorded) lit.2 = (e', s') ∧
      (framesOf s'.log).getLastD Framebuffer.blank.frame ≠ e'.machine.frame ∧
      ∃ e₂ out s₂, play (renewed.1.step typist.recorded) renewed.2 = ((e₂, out), s₂) ∧
        e₂.machine.keys ≠ s₂.world.1.held := by
  obtain ⟨e', s', hreset, -, hframe, hkeys⟩ := reset_in_step_iff reports_typist lit.1 lit.2
  have hlit : (framesOf lit.2.log).getLastD Framebuffer.blank.frame ≠ Framebuffer.blank.frame := by decide +kernel
  obtain ⟨⟨⟨e₂, out⟩, s₂⟩, hstep⟩ : ∃ r, play (renewed.1.step typist.recorded) renewed.2 = r := ⟨_, rfl⟩
  refine ⟨e', s', hreset, fun hsame => hlit (hframe.mp hsame), e₂, out, s₂, hstep, fun hsame => ?_⟩
  have hnone : renewed.1.machine.keys = e'.machine.keys :=
    Eq.trans (by decide +kernel) (congrArg (·.1.machine.keys) hreset)
  have hstay : Progress.ofCycle out ≠ .left :=
    ne_of_eq_of_ne (congrArg (Progress.ofCycle ·.1.2) hstep).symm (by decide +kernel)
  have hdown : s₂.world.1.held ≠ 0 := ne_of_eq_of_ne (congrArg (·.2.world.1.held) hstep).symm (by decide +kernel)
  rcases (hkeys _ _ _ _ _ hnone hstep hstay).mp hsame with hnew | hnone
  · exact absurd hnew (by decide +kernel)
  · exact hdown hnone

/-- Behind a reset a digit is still lit, and behind the first cycle the machine has not got the key that is down. -/
theorem reset_leaves_behind :
    Reached typist lit.1 lit.2 ∧
      (play (lit.1.reset typist.recorded) lit.2).1.machine.frame = Framebuffer.blank.frame ∧
      (framesOf (play (lit.1.reset typist.recorded) lit.2).2.log).getLastD Framebuffer.blank.frame ≠
        Framebuffer.blank.frame ∧
      (play (renewed.1.step typist.recorded) renewed.2).1.1.machine.keys = 0 ∧
      (play (renewed.1.step typist.recorded) renewed.2).2.world.1.held = Key.bit 4 :=
  ⟨reached_of_begun typist _ _, by decide +kernel, by decide +kernel, by decide +kernel, by decide +kernel⟩

end Emulator

end Chip8

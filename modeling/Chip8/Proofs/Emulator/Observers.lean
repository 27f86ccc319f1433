import Mathlib
import Chip8.Proofs.Emulator.Answers
import Chip8.Proofs.Emulator.Clock

/-!
# Observers do not influence the machine

A display, an audio device and a trace only watch: whoever watches an emulator, it becomes and answers the same
(`observers_do_not_influence`).  That a device has no effect on input and time carries over to all that the emulator does
(`respondAll_alone`).  A trace is part of the configuration, so for it there is a law for each part of a cycle, of a run
and of a call: where nobody takes note, to switch the trace beforehand or afterwards makes no difference.
-/

namespace Chip8.Emulator

variable {V W W' : Type}

def tracing (e : Emulator) (trace : Bool) : Emulator := { e with config.trace := trace }

section Tracing

variable (e : Emulator) (trace : Bool)

@[simp] theorem machine_tracing : (e.tracing trace).machine = e.machine := rfl
@[simp] theorem tone_tracing : (e.tracing trace).tone = e.tone := rfl
@[simp] theorem running_tracing : (e.tracing trace).running = e.running := rfl
@[simp] theorem scheduler_tracing : (e.tracing trace).scheduler = e.scheduler := rfl

theorem withClock_tracing (clock : Rate) :
    (e.tracing trace).withClock clock = (e.withClock clock).map (·.tracing trace) := by
  unfold withClock Config.withClock Config.check tracing
  cases clock.checkClock with
  | error err => rfl
  | ok _ => cases e.config.timer.checkTimer <;> simp [Except.map]

end Tracing

theorem create_tracing (config : Config) (trace : Bool) (seed : Int) (now : Float) :
    create { config with trace } seed now = (create config seed now).map (·.tracing trace) := by
  unfold create
  cases Scheduler.create config.timer now <;> rfl

/-- An answer stays, and the emulator behind it gets its trace switched. -/
def retrace {α : Type} (trace : Bool) (r : Emulator × α) : Emulator × α := (r.1.tracing trace, r.2)

/-! ### Where nobody takes note -/

section Deaf

variable {m : Type → Type} [Monad m] [LawfulMonad m] {q : Peripherals m} {trace : Bool} {α β : Type}

theorem retrace_bind {x x' : m (Emulator × α)} {f f' : Emulator × α → m (Emulator × β)}
    (hx : x' = retrace trace <$> x) (hf : ∀ r, f' (retrace trace r) = retrace trace <$> f r) :
    x' >>= f' = retrace trace <$> (x >>= f) := by
  rw [hx, map_bind, bind_map_left]
  exact bind_congr hf

variable (q trace) (e : Emulator)

theorem silence_tracing : (e.tracing trace).silence q = (·.tracing trace) <$> e.silence q := by
  unfold silence
  cases htone : e.tone <;> simp [htone] <;> rfl

theorem pushTone_tracing : (e.tracing trace).pushTone q = retrace trace <$> e.pushTone q := by
  unfold pushTone
  by_cases htone : e.machine.tone = e.tone <;>
  · simp [htone]
    rfl

theorem settle_tracing (signals : Signals) :
    (e.tracing trace).settle q signals = retrace trace <$> e.settle q signals := by
  refine retrace_bind (pushTone_tracing q trace e) fun r => ?_
  rw [map_bind]
  refine bind_congr fun now => ?_
  dsimp only [retrace, scheduler_tracing]
  cases r.1.scheduler.poll now with
  | error err => simp [retrace]
  | ok polled =>
    obtain ⟨due, scheduler⟩ := polled
    refine retrace_bind
      (pushTone_tracing q trace { r.1 with scheduler, machine := r.1.machine.ticks due }) fun r' => ?_
    rw [map_bind]
    refine bind_congr fun _ => ?_
    rw [map_pure]
    rfl

theorem stopping_tracing (executed : Nat) (failure : Option CycleError) :
    stopping q (e.tracing trace) executed failure = retrace trace <$> stopping q e executed failure := by
  unfold stopping
  rw [silence_tracing, bind_map_left, map_bind]
  refine bind_congr fun e' => ?_
  rw [map_bind]
  refine bind_congr fun _ => ?_
  rw [map_pure]
  rfl

theorem reset_tracing : (e.tracing trace).reset q = (·.tracing trace) <$> e.reset q := by
  unfold reset
  rw [silence_tracing, bind_map_left, map_bind]
  refine bind_congr fun e' => ?_
  rw [map_bind]
  refine bind_congr fun now => ?_
  rw [map_pure]
  rfl

theorem load_tracing (program : List UInt8) :
    (e.tracing trace).load q program = retrace trace <$> e.load q program := by
  unfold load
  cases hload : e.machine.load program with
  | error err => simp [hload, retrace]
  | ok machine =>
    simp only [machine_tracing, hload, map_bind, map_pure]
    rfl

variable {q} (hq : ∀ n, q.note n = pure ())
include hq

theorem carryOut_tracing (signals : Signals) :
    (e.tracing trace).carryOut q signals = retrace trace <$> e.carryOut q signals := by
  unfold carryOut
  -- this is the one place where a trace is looked at, and its notices go nowhere
  simp only [machine_tracing, hq, pure_bind, ite_self]
  cases e.machine.fetch with
  | error f => simp [retrace]
  | ok word =>
    cases hexec : e.machine.exec word with
    | error f => simp [hexec, retrace]
    | ok r =>
      obtain ⟨machine, effect⟩ := r
      simp only [hexec]
      have hsettle := settle_tracing q trace { e with machine, cycles := e.cycles + 1 } (signals ||| effect.signals)
      cases effect.warning <;> exact hsettle

theorem answered_tracing (signals : Signals) :
    (e.tracing trace).answered q signals = retrace trace <$> e.answered q signals := by
  unfold answered
  split
  · rw [map_pure]
    rfl
  · split
    · rw [map_bind]
      exact bind_congr fun keys =>
        carryOut_tracing trace { e with machine := e.machine.receiveKeys keys } hq signals
    · exact carryOut_tracing trace e hq signals

theorem step_tracing : (e.tracing trace).step q = retrace trace <$> e.step q := by
  unfold step
  rw [map_bind]
  exact bind_congr fun signals => answered_tracing trace e hq signals

theorem unpaced_tracing (limit executed : Nat) :
    unpaced q limit executed (e.tracing trace) = retrace trace <$> unpaced q limit executed e := by
  induction limit generalizing executed e with
  | zero =>
    unfold unpaced
    rw [map_pure]
    rfl
  | succ limit ih =>
    refine retrace_bind (step_tracing trace e hq) fun r => ?_
    obtain ⟨e', out⟩ := r
    cases out with
    | error err => simp [retrace]
    | ok signals =>
      by_cases hexit : signals.wantsExit
      · simp [retrace, hexit]
      · simp [retrace, hexit, ih]

theorem paced_tracing (period : Float) (limit executed : Nat) :
    paced q period limit executed (e.tracing trace) = retrace trace <$> paced q period limit executed e := by
  induction limit generalizing executed e with
  | zero =>
    unfold paced
    rw [map_pure]
    rfl
  | succ limit ih =>
    unfold paced
    rw [map_bind]
    refine bind_congr fun started => retrace_bind (step_tracing trace e hq) fun r => ?_
    obtain ⟨e', out⟩ := r
    cases out with
    | error err => simp [retrace]
    | ok signals =>
      by_cases hexit : signals.wantsExit
      · simp [retrace, hexit]
      · simp [retrace, hexit, ih]

theorem underway_tracing (limit : Nat) :
    (e.tracing trace).underway q limit = retrace trace <$> e.underway q limit := by
  unfold underway
  rw [map_bind]
  refine bind_congr fun now => ?_
  rw [map_bind]
  -- the period comes from the rate of the instructions, which is the same
  exact bind_congr fun _ => paced_tracing trace
    { e with scheduler := e.scheduler.restart now, running := true } hq e.secondsPerCycle limit 0

theorem run_tracing (max : Option Int) : (e.tracing trace).run q max = retrace trace <$> e.run q max :=
  retrace_bind (underway_tracing trace e hq (limitOf max)) fun r => stopping_tracing q trace r.1 r.2.1 r.2.2

theorem respond_tracing (c : Call) : respond q (e.tracing trace) c = retrace trace <$> respond q e c := by
  cases c with
  | step => simp [respond, step_tracing trace e hq, retrace]
  | run max => simp [respond, run_tracing trace e hq, retrace]
  | runCycles count => simp [respond, runCycles, unpaced_tracing trace e hq, retrace]
  | reset => simp [respond, reset_tracing, retrace]
  | load program => simp [respond, load_tracing, retrace]
  | setClock clock =>
    cases hclock : e.withClock clock <;> simp [respond, withClock_tracing, hclock, retrace, Except.map]

theorem respondAll_tracing (cs : List Call) :
    respondAll q (e.tracing trace) cs = List.map (retrace trace) <$> respondAll q e cs := by
  induction cs generalizing e with
  | nil => simp [respondAll]
  | cons c cs ih =>
    have hrest : ∀ r : Emulator × Answer,
        respondAll q (retrace trace r).1 cs = List.map (retrace trace) <$> respondAll q r.1 cs := fun r => ih r.1
    simp [respondAll, respond_tracing trace e hq, hrest]

end Deaf

/-- **Observers do not influence the machine.**  Two emulators, with input and time from one source, are watched by
different devices, and one of them with a trace.  If they begin alike, as two do that are created with the same settings
but for the trace, then call by call they answer the same and are the same, in every part of their state. -/
theorem observers_do_not_influence (source : Source V) (p : Peripherals (StateM W)) (q : Peripherals (StateM W'))
    (view : W → V) (view' : W' → V) (hp : p.FedBy source view) (hq : q.FedBy source view') (trace : Bool) :
    (∀ config seed now,
      create { config with trace } seed now = (create config seed now).map (·.tracing trace)) ∧
    ∀ (e : Emulator) cs w w', view w = view' w' →
      (respondAll q (e.tracing trace) cs w').1 = (respondAll p e cs w).1.map (retrace trace) := by
  refine ⟨fun config seed now => create_tracing config trace seed now, fun e cs w w' hview => ?_⟩
  have hdeaf : ∀ n, source.alone.note n = pure () := fun _ => rfl
  rw [respondAll_alone hq, respondAll_alone hp, respondAll_tracing trace e hdeaf, hview]
  rfl

/-- A clock that goes on by half a second whenever it is read, and nobody at the keys. -/
def ticking : Source Float where
  poll := halves.poll
  keys := halves.keys
  now := halves.now
  pause _ := pure ()

/-- A tone is started and a picture drawn, and then all is reset. -/
def showing : List Call := [.load [0x60, 0xFF, 0xF0, 0x18, 0xD0, 0x05], .runCycles 3, .reset]

/-- Of an emulator under a trace the devices are asked ten things, and it goes as another one does on its own. -/
theorem observers_do_not_influence_showing :
    (respondAll ticking.noting (countdown.1.tracing true) showing ([], 0.0)).2.1.length = 10 ∧
      ticking.alone.FedBy ticking id ∧ ticking.noting.FedBy ticking Prod.snd ∧
      (respondAll ticking.noting (countdown.1.tracing true) showing ([], 0.0)).1 =
        (respondAll ticking.alone countdown.1 showing 0.0).1.map (retrace true) := by
  refine ⟨by decide +kernel, ticking.fedBy_alone, ticking.fedBy_noting, ?_⟩
  exact (observers_do_not_influence ticking ticking.alone ticking.noting id Prod.snd ticking.fedBy_alone
    ticking.fedBy_noting true).2 countdown.1 showing 0.0 ([], 0.0) rfl

end Chip8.Emulator

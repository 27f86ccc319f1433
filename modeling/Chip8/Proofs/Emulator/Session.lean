import Mathlib
import Chip8.Emulator.Run

/-!
# Sessions of an emulator

The peripherals of an emulator stand for a world of any kind: whoever presses keys, the clock, and the devices
themselves.  Here a world is a state that polls, readings and requests may change at will, and the requests are
kept in a log beside it, so that what an emulator asked for, and in which order, can be spoken about.

One cycle takes in signals, a key vector and a reading of the clock (`Intake`), and `Cycle` says what it makes of
them: what it asks for, the emulator it leaves, and how it ends.  `step_cycle` is the only place that looks into the
code of a cycle, and `play_within` says how a run is stopped.
-/

namespace Chip8

/-! ### Playing an action -/

/-- The requests made so far, and the world behind the peripherals. -/
structure Scene (W : Type) where
  log : List Request
  world : W

variable {W α β : Type}

def play (x : StateT (List Request) (StateM W) α) (s : Scene W) : α × Scene W :=
  (((x s.log) s.world).1.1, ⟨((x s.log) s.world).1.2, ((x s.log) s.world).2⟩)

@[simp] theorem play_pure (a : α) (s : Scene W) : play (pure a) s = (a, s) := rfl

@[simp] theorem play_bind (x : StateT (List Request) (StateM W) α)
    (f : α → StateT (List Request) (StateM W) β) (s : Scene W) :
    play (x >>= f) s = play (f (play x s).1) (play x s).2 := rfl

@[simp] theorem play_map (f : α → β) (x : StateT (List Request) (StateM W) α) (s : Scene W) :
    play (f <$> x) s = (f (play x s).1, (play x s).2) := rfl

section Readings

variable (p : Peripherals (StateM W)) (s : Scene W)

@[simp] theorem play_poll :
    play p.recorded.poll s = ((p.poll s.world).1, ⟨s.log, (p.poll s.world).2⟩) := rfl

@[simp] theorem play_keys :
    play p.recorded.keys s = ((p.keys s.world).1, ⟨s.log, (p.keys s.world).2⟩) := rfl

@[simp] theorem play_now :
    play p.recorded.now s = ((p.now s.world).1, ⟨s.log, (p.now s.world).2⟩) := rfl

@[simp] theorem play_perform (r : Request) :
    play (p.recorded.perform r) s = ((), ⟨s.log ++ [r], (p.perform r s.world).2⟩) := rfl

@[simp] theorem play_note (n : Notice) :
    play (p.recorded.note n) s = ((), ⟨s.log ++ [.note n], (p.perform (.note n) s.world).2⟩) := rfl

end Readings

/-- A request that is neither for the display nor for the audio device. -/
def Request.Aside : Request → Prop
  | .pause _ | .note _ => True
  | _ => False

/-- Every request of a kind is followed at once by a certain one. -/
def Followed (Kind : Request → Prop) (next : Request) (log : List Request) : Prop :=
  ∀ i r, log[i]? = some r → Kind r → log[i + 1]? = some next

section Followed

variable {Kind : Request → Prop} {next : Request} {log rs : List Request}

theorem Followed.append (h : Followed Kind next log) (hrs : Followed Kind next rs) :
    Followed Kind next (log ++ rs) := by
  intro i r hi hr
  rcases Nat.lt_or_ge i log.length with hlt | hge
  · rw [List.getElem?_append_left hlt] at hi
    have hnext := h i r hi hr
    rwa [List.getElem?_append_left (List.getElem?_eq_some_iff.mp hnext).1]
  · rw [List.getElem?_append_right hge] at hi
    rw [List.getElem?_append_right (by omega), Nat.sub_add_comm hge]
    exact hrs _ r hi hr

theorem followed_of_forall_not (h : ∀ r ∈ rs, ¬ Kind r) : Followed Kind next rs :=
  fun _ r hi hr => absurd hr (h r (List.mem_of_getElem? hi))

theorem followed_pair (first : Request) (h : ¬ Kind next) : Followed Kind next [first, next] := by
  intro i r hi hr
  match i with
  | 0 => rfl
  | 1 =>
    obtain rfl : next = r := Option.some.inj hi
    exact absurd hr h
  | i + 2 => simp at hi

end Followed

namespace Emulator

/-! ### What a cycle asks for -/

/-- The requests that tell the audio device a tone if it differs from what went there last. -/
def toneRequests (told tone : Bool) : List Request :=
  if tone = told then [] else [.tone tone, .play]

def toneSignal (told tone : Bool) : Signals := if tone = told then 0 else .soundAudio

/-- The requests that pass on a frame if the signals ask for it. -/
def frameRequests (f : Frame) (signals : Signals) : List Request :=
  if signals.wantsRefresh then [.frame f, .drive] else []

/-- The notice of a word that is about to be carried out, under a trace. -/
def traceRequests (e : Emulator) (word : Word) : List Request :=
  if e.config.trace then [.note (.traced e.machine.pc word)] else []

def warningRequests (eff : Effect) : List Request :=
  match eff.warning with
  | some w => [.note (.warned w)]
  | none => []

/-! ### One cycle -/

/-- What a cycle takes in. -/
structure Intake where
  signals : Signals
  keys : Option Int
  /-- The time at which the timers catch up. -/
  now : Float

/-- The emulator after it has taken over the keys, if there are new ones. -/
def taking (e : Emulator) (i : Intake) : Emulator :=
  { e with machine := if i.signals.hasInputs then e.machine.receiveKeys i.keys else e.machine }

/-- A cycle: what it asks for, the emulator behind it, and how it ends. -/
inductive Cycle (i : Intake) (e : Emulator) :
    List Request → Emulator → Except CycleError Signals → Prop
  /-- The user wants to leave. -/
  | left (hexit : i.signals.wantsExit) : Cycle i e [] e (.ok i.signals)
  /-- There is no word at the program counter. -/
  | lost {f : Fault} (hstay : ¬ i.signals.wantsExit)
      (hfetch : (e.taking i).machine.fetch = .error f) :
      Cycle i e [] (e.taking i) (.error (.fault f))
  /-- The word cannot be carried out. -/
  | failed {word : Word} {f : Fault} (hstay : ¬ i.signals.wantsExit)
      (hfetch : (e.taking i).machine.fetch = .ok word)
      (hexec : (e.taking i).machine.exec word = .error f) :
      Cycle i e ((e.taking i).traceRequests word) (e.taking i) (.error (.fault f))
  /-- The word has been carried out, but the periods of the timers cannot be counted. -/
  | untimed {word : Word} {m : Machine} {eff : Effect} {err : PollError}
      (hstay : ¬ i.signals.wantsExit)
      (hfetch : (e.taking i).machine.fetch = .ok word)
      (hexec : (e.taking i).machine.exec word = .ok (m, eff))
      (hpoll : e.scheduler.poll i.now = .error err) :
      Cycle i e
        ((e.taking i).traceRequests word ++ warningRequests eff ++ toneRequests e.tone m.tone)
        { e with machine := m, cycles := e.cycles + 1, tone := m.tone } (.error (.timing err))
  /-- The word has been carried out, and the timers have caught up. -/
  | done {word : Word} {m : Machine} {eff : Effect} {due : Nat} {scheduler : Scheduler} {signals : Signals}
      (hstay : ¬ i.signals.wantsExit)
      (hfetch : (e.taking i).machine.fetch = .ok word)
      (hexec : (e.taking i).machine.exec word = .ok (m, eff))
      (hpoll : e.scheduler.poll i.now = .ok (due, scheduler))
      (hsignals : signals = i.signals ||| eff.signals ||| toneSignal e.tone m.tone |||
        toneSignal m.tone (m.ticks due).tone) :
      Cycle i e
        ((e.taking i).traceRequests word ++ warningRequests eff ++ toneRequests e.tone m.tone ++
          toneRequests m.tone (m.ticks due).tone ++ frameRequests (m.ticks due).frame signals)
        { e with machine := m.ticks due, scheduler, cycles := e.cycles + 1, tone := (m.ticks due).tone }
        (.ok signals)

/-! ### The code of a cycle -/

/-- The signals of a cycle whose instruction raised `signals` and whose timers went on by `due` periods. -/
def settledSignals (e : Emulator) (signals : Signals) (due : Nat) : Signals :=
  signals ||| toneSignal e.tone e.machine.tone ||| toneSignal e.machine.tone (e.machine.ticks due).tone

section Code

variable (p : Peripherals (StateM W)) (e : Emulator) (s : Scene W)

theorem play_sound (on : Bool) :
    ∃ w, play (sound p.recorded on) s = ((), ⟨s.log ++ [.tone on, .play], w⟩) :=
  ⟨_, by simp [sound]; rfl⟩

theorem play_pushTone :
    ∃ w, play (e.pushTone p.recorded) s =
      (({ e with tone := e.machine.tone }, toneSignal e.tone e.machine.tone),
        ⟨s.log ++ toneRequests e.tone e.machine.tone, w⟩) := by
  unfold pushTone toneSignal toneRequests
  by_cases h : e.machine.tone = e.tone
  · exact ⟨s.world, by simp [h]⟩
  · obtain ⟨w, hw⟩ := play_sound p s e.machine.tone
    exact ⟨w, by simp [h, hw]⟩

theorem play_pushFrame (signals : Signals) :
    ∃ w, play (e.pushFrame p.recorded signals) s =
      ((), ⟨s.log ++ frameRequests e.machine.frame signals, w⟩) := by
  unfold pushFrame frameRequests
  by_cases h : signals.wantsRefresh
  · exact ⟨_, by simp [h]; rfl⟩
  · exact ⟨s.world, by simp [h]⟩

theorem play_silence :
    ∃ w, play (e.silence p.recorded) s =
      ({ e with tone := false }, ⟨s.log ++ toneRequests e.tone false, w⟩) := by
  unfold silence toneRequests
  cases h : e.tone
  · exact ⟨s.world, by simp⟩
  · obtain ⟨w, hw⟩ := play_sound p s false
    exact ⟨w, by simp [hw]⟩

/-- Behind its instruction, a cycle fails where the periods cannot be counted, or goes through. -/
theorem play_settle (signals : Signals) :
    ∃ now w,
      (∃ err, e.scheduler.poll now = .error err ∧
        play (e.settle p.recorded signals) s =
          (({ e with tone := e.machine.tone }, .error (.timing err)),
            ⟨s.log ++ toneRequests e.tone e.machine.tone, w⟩)) ∨
      ∃ due scheduler, e.scheduler.poll now = .ok (due, scheduler) ∧
        play (e.settle p.recorded signals) s =
          (({ e with machine := e.machine.ticks due, scheduler, tone := (e.machine.ticks due).tone },
              .ok (e.settledSignals signals due)),
            ⟨s.log ++ toneRequests e.tone e.machine.tone ++
              toneRequests e.machine.tone (e.machine.ticks due).tone ++
              frameRequests (e.machine.ticks due).frame (e.settledSignals signals due), w⟩) := by
  obtain ⟨w₁, h₁⟩ := play_pushTone p e s
  cases hpoll : e.scheduler.poll (p.now w₁).1 with
  | error err => exact ⟨_, _, .inl ⟨err, hpoll, by simp [settle, h₁, hpoll]; rfl⟩⟩
  | ok r =>
    obtain ⟨due, scheduler⟩ := r
    obtain ⟨w₂, h₂⟩ := play_pushTone p
      { e with scheduler, machine := e.machine.ticks due, tone := e.machine.tone }
      ⟨s.log ++ toneRequests e.tone e.machine.tone, (p.now w₁).2⟩
    obtain ⟨w₃, h₃⟩ := play_pushFrame p
      { e with scheduler, machine := e.machine.ticks due, tone := (e.machine.ticks due).tone }
      ⟨s.log ++ toneRequests e.tone e.machine.tone ++
        toneRequests e.machine.tone (e.machine.ticks due).tone, w₂⟩ (e.settledSignals signals due)
    refine ⟨_, w₃, .inr ⟨due, scheduler, hpoll, ?_⟩⟩
    unfold settledSignals at h₃ ⊢
    simp only [settle, play_bind, play_pure, play_now, h₁, hpoll, h₂, h₃]

theorem play_carryOut_of_ok {word : Word} {m : Machine} {eff : Effect}
    (hfetch : e.machine.fetch = .ok word) (hexec : e.machine.exec word = .ok (m, eff)) (signals : Signals) :
    ∃ w, play (e.carryOut p.recorded signals) s =
      play ({ e with machine := m, cycles := e.cycles + 1 }.settle p.recorded (signals ||| eff.signals))
        ⟨s.log ++ (e.traceRequests word ++ warningRequests eff), w⟩ := by
  unfold traceRequests warningRequests
  cases htrace : e.config.trace <;> cases hwarn : eff.warning <;>
    exact ⟨_, by simp [carryOut, hfetch, hexec, htrace, hwarn]; rfl⟩

theorem play_carryOut_of_error {word : Word} {f : Fault}
    (hfetch : e.machine.fetch = .ok word) (hexec : e.machine.exec word = .error f) (signals : Signals) :
    ∃ w, play (e.carryOut p.recorded signals) s =
      ((e, .error (.fault f)), ⟨s.log ++ e.traceRequests word, w⟩) := by
  unfold traceRequests
  cases htrace : e.config.trace <;>
    exact ⟨_, by simp [carryOut, hfetch, hexec, htrace]; rfl⟩

/-- Behind its poll, what is carried out is a cycle. -/
theorem play_carryOut {i : Intake} (hstay : ¬ i.signals.wantsExit) :
    ∃ now rs e' out w,
      play ((e.taking i).carryOut p.recorded i.signals) s = ((e', out), ⟨s.log ++ rs, w⟩) ∧
        Cycle { i with now } e rs e' out := by
  cases hfetch : (e.taking i).machine.fetch with
  | error f => exact ⟨i.now, [], _, _, s.world, by simp [carryOut, hfetch], .lost hstay hfetch⟩
  | ok word =>
    cases hexec : (e.taking i).machine.exec word with
    | error f =>
      obtain ⟨w, h⟩ := play_carryOut_of_error p (e.taking i) s hfetch hexec i.signals
      exact ⟨i.now, _, _, _, w, h, .failed hstay hfetch hexec⟩
    | ok r =>
      obtain ⟨m, eff⟩ := r
      obtain ⟨w₁, h₁⟩ := play_carryOut_of_ok p (e.taking i) s hfetch hexec i.signals
      obtain ⟨now, w, hsettle⟩ := play_settle p { e.taking i with machine := m, cycles := e.cycles + 1 }
        ⟨s.log ++ ((e.taking i).traceRequests word ++ warningRequests eff), w₁⟩
        (i.signals ||| eff.signals)
      obtain ⟨err, hpoll, h⟩ | ⟨due, scheduler, hpoll, h⟩ := hsettle
      · refine ⟨now, _, _, _, w, (h₁.trans h).trans ?_, .untimed hstay hfetch hexec hpoll⟩
        rw [List.append_assoc]
        rfl
      · refine ⟨now, _, _, _, w, (h₁.trans h).trans ?_, .done hstay hfetch hexec hpoll rfl⟩
        simp only [List.append_assoc]
        rfl

/-- **A cycle of the code is a cycle.**  Its signals are what the input device answers to the poll, and its keys
what the input device holds after that. -/
theorem step_cycle :
    ∃ i rs e' out w, play (e.step p.recorded) s = ((e', out), ⟨s.log ++ rs, w⟩) ∧
      i.signals = (p.poll s.world).1 ∧ i.keys = (p.keys (p.poll s.world).2).1 ∧ Cycle i e rs e' out := by
  have hpoll : play p.recorded.poll s = ((p.poll s.world).1, ⟨s.log, (p.poll s.world).2⟩) := rfl
  generalize p.poll s.world = polled at hpoll ⊢
  obtain ⟨signals, w₁⟩ := polled
  by_cases hexit : signals.wantsExit
  · exact ⟨⟨signals, (p.keys w₁).1, 0⟩, [], e, .ok signals, w₁,
      by simp [step, answered, hpoll, hexit], rfl, rfl, .left hexit⟩
  -- the keys are asked for only if there are new ones, and then before the instruction
  · obtain ⟨w₂, h₂⟩ : ∃ w₂, play (e.step p.recorded) s =
        play ((e.taking ⟨signals, (p.keys w₁).1, 0⟩).carryOut p.recorded signals) ⟨s.log, w₂⟩ := by
      unfold taking
      by_cases hnew : signals.hasInputs
      · exact ⟨_, by simp [step, answered, hpoll, hexit, hnew]; rfl⟩
      · exact ⟨_, by simp [step, answered, hpoll, hexit, hnew]; rfl⟩
    obtain ⟨now, rs, e', out, w, h, hcycle⟩ :=
      play_carryOut p e ⟨s.log, w₂⟩ (i := ⟨signals, (p.keys w₁).1, 0⟩) hexit
    exact ⟨_, rs, e', out, w, h₂.trans h, rfl, rfl, hcycle⟩

end Code

theorem cycle_of_step {p : Peripherals (StateM W)} {e e' : Emulator} {s s' : Scene W}
    {out : Except CycleError Signals} (hstep : play (e.step p.recorded) s = ((e', out), s')) :
    ∃ i rs, s'.log = s.log ++ rs ∧ i.signals = (p.poll s.world).1 ∧ i.keys = (p.keys (p.poll s.world).2).1 ∧
      Cycle i e rs e' out := by
  obtain ⟨i, rs, e₁, out₁, w, hplay, hsignals, hkeys, hc⟩ := step_cycle p e s
  rw [hplay] at hstep
  obtain ⟨⟨rfl, rfl⟩, rfl⟩ := by simpa using hstep
  exact ⟨i, rs, rfl, hsignals, hkeys, hc⟩

/-! ### Resetting and runs -/

section Calls

variable (p : Peripherals (StateM W)) (e : Emulator) (s : Scene W)

theorem play_reset :
    ∃ now w, play (e.reset p.recorded) s =
      ({ e with machine := e.machine.reset, scheduler := e.scheduler.restart now, tone := false, cycles := 0 },
        ⟨s.log ++ toneRequests e.tone false, w⟩) := by
  obtain ⟨w, hw⟩ := play_silence p e s
  exact ⟨(p.now w).1, (p.now w).2, by simp [reset, hw]⟩

/-- A run as one action behind another. -/
theorem run_eq {m : Type → Type} [Monad m] (p : Peripherals m) (max : Option Int) :
    e.run p max = e.underway p (limitOf max) >>= fun r => stopping p r.1 r.2.1 r.2.2 := rfl

/-- However a run goes, it is stopped with the tone off. -/
theorem play_within (limit : Nat) :
    ∃ e' executed failure s' w,
      play (e.underway p.recorded limit) s = ((e', executed, failure), s') ∧
        play (e.within p.recorded limit) s =
          (({ e' with tone := false, running := false }, outcome executed failure),
            ⟨s'.log ++ toneRequests e'.tone false ++ [.note (.runStopped executed)], w⟩) := by
  obtain ⟨⟨e', executed, failure⟩, s', h⟩ : ∃ r s', play (e.underway p.recorded limit) s = (r, s') := ⟨_, _, rfl⟩
  obtain ⟨w, hw⟩ := play_silence p e' s'
  refine ⟨e', executed, failure, s', (p.perform (.note (.runStopped executed)) w).2, h, ?_⟩
  rw [within, play_bind, h]
  simp [stopping, hw]

end Calls

/-! ### Sequences of calls -/

/-- What can be asked of an emulator. -/
inductive Call
  | step
  | run (max : Option Int)
  | runCycles (count : Int)
  | reset
  | load (program : List UInt8)
  | setClock (clock : Rate)

/-- The emulator after a call, which may have failed. -/
def call {m : Type → Type} [Monad m] (p : Peripherals m) (e : Emulator) : Call → m Emulator
  | .step => do return (← e.step p).1
  | .run max => do return (← e.run p max).1
  | .runCycles count => do return (← e.runCycles p count).1
  | .reset => e.reset p
  | .load program => do return (← e.load p program).1
  | .setClock clock =>
    return match e.withClock clock with
    | .ok e => e
    | .error _ => e

def calls {m : Type → Type} [Monad m] (p : Peripherals m) (e : Emulator) (cs : List Call) : m Emulator :=
  cs.foldlM (call p) e

/-- What every call keeps is kept by all calls together. -/
theorem calls_induction {P : Emulator → List Request → Prop} {p : Peripherals (StateM W)}
    (hcall : ∀ c {e s}, P e s.log →
      P (play (call p.recorded e c) s).1 (play (call p.recorded e c) s).2.log)
    {e : Emulator} {s : Scene W} (cs : List Call) (h : P e s.log) :
    P (play (calls p.recorded e cs) s).1 (play (calls p.recorded e cs) s).2.log := by
  induction cs generalizing e s with
  | nil => exact h
  | cons c cs ih =>
    unfold calls
    rw [List.foldlM_cons, play_bind]
    exact ih (hcall c h)

end Emulator

end Chip8

import Mathlib
import Chip8.Proofs.Emulator.Session

/-!
# How calls go

A cycle leaves an emulator ready for the next one, or the user left, or it failed; and so does a call, which goes
through any number of cycles.  `attend` is a call that answers which of these it was.

Every call but a reset is a *trail*: cycles one after another, and between two of them the emulator reads the clock, notes
something, lets time pass, keeps book, or loads a program (`trail_attend`).  All of its cycles leave the emulator ready but
the last, which ends as the call does.  So what holds along trails is a matter of one cycle.  `Kept` says, for a condition
on the emulator and its surroundings, that it survives a cycle if the cycle ends well enough, and all that is done around
cycles; then it survives all calls that end well enough (`Kept.attendAll`).
-/

namespace Chip8

theorem Scheduler.period_of_poll {c c' : Scheduler} {now : Float} {due : Nat} (h : c.poll now = .ok (due, c')) :
    c'.period = c.period := by
  unfold poll at h
  split at h
  · obtain ⟨-, rfl⟩ := Prod.mk.inj (Except.ok.inj h)
    rfl
  · exact nomatch h

namespace Emulator

/-! ### Endings -/

/-- How a cycle ends, or a call. -/
inductive Progress
  | ready
  | left
  | failed (err : CycleError)
  deriving DecidableEq

namespace Progress

/-- How a cycle ended that answered signals or failed. -/
def ofCycle : Except CycleError Signals → Progress
  | .ok signals => if signals.wantsExit then .left else .ready
  | .error err => .failed err

/-- How cycles ended of which so many were to be gone through: if fewer were, the user left. -/
def ofCount (limit : Nat) : Except CycleError Nat → Progress
  | .ok executed => if executed = limit then .ready else .left
  | .error err => .failed err

end Progress

section Attend

variable {m : Type → Type} [Monad m]

/-- The emulator after a call, and how the call ended. -/
def attend (p : Peripherals m) (e : Emulator) : Call → m (Emulator × Progress)
  | .step => do
    let (e, out) ← e.step p
    return (e, .ofCycle out)
  | .run max => do
    let (e, out) ← e.run p max
    return (e, .ofCount (limitOf max) out)
  | .runCycles count => do
    let (e, out) ← e.runCycles p count
    return (e, .ofCount count.toNat out)
  | .reset => return (← e.reset p, .ready)
  | .load program => return ((← e.load p program).1, .ready)
  | .setClock clock =>
    return match e.withClock clock with
    | .ok e => (e, .ready)
    | .error _ => (e, .ready)

/-- The emulator after calls, and how each of them ended. -/
def attendAll (p : Peripherals m) : Emulator → List Call → m (Emulator × List Progress)
  | e, [] => return (e, [])
  | e, c :: cs => do
    let (e, g) ← attend p e c
    let (e, gs) ← attendAll p e cs
    return (e, g :: gs)

end Attend

variable {W : Type}

theorem play_call (p : Peripherals (StateM W)) (e : Emulator) (s : Scene W) (c : Call) :
    play (call p.recorded e c) s =
      ((play (attend p.recorded e c) s).1.1, (play (attend p.recorded e c) s).2) := by
  cases c with
  | setClock clock => cases hclock : e.withClock clock <;> simp [call, attend, hclock]
  | _ => rfl

/-! ### Settings -/

/-- What is settled when an emulator is created: the trace, and the rate of the timers. -/
structure SameSettings (e e' : Emulator) : Prop where
  trace : e'.config.trace = e.config.trace
  timer : e'.config.timer = e.config.timer
  period : e'.scheduler.period = e.scheduler.period

theorem SameSettings.refl (e : Emulator) : SameSettings e e := ⟨rfl, rfl, rfl⟩

theorem SameSettings.trans {e e₁ e' : Emulator} (h : SameSettings e e₁) (h' : SameSettings e₁ e') :
    SameSettings e e' :=
  ⟨h'.trace.trans h.trace, h'.timer.trans h.timer, h'.period.trans h.period⟩

theorem Cycle.keeps {i : Intake} {e e' : Emulator} {rs : List Request} {out : Except CycleError Signals}
    (hc : Cycle i e rs e' out) : SameSettings e e' ∧ e'.running = e.running := by
  cases hc with
  | left | lost | failed | untimed => exact ⟨⟨rfl, rfl, rfl⟩, rfl⟩
  | done _ _ _ hpoll => exact ⟨⟨rfl, rfl, Scheduler.period_of_poll hpoll⟩, rfl⟩

theorem keeps_of_step {p : Peripherals (StateM W)} {e e' : Emulator} {s s' : Scene W}
    {out : Except CycleError Signals} (hstep : play (e.step p.recorded) s = ((e', out), s')) :
    SameSettings e e' ∧ e'.running = e.running := by
  obtain ⟨i, rs, -, -, -, hc⟩ := cycle_of_step hstep
  exact hc.keeps

/-- The emulator with another instruction rate is the same but for that. -/
theorem withClock_eq_ok {e e' : Emulator} {clock : Rate} (h : e.withClock clock = .ok e') :
    e' = { e with config.clock := clock } := by
  unfold withClock Config.withClock Config.check at h
  cases hclock : clock.checkClock with
  | error err => simp [hclock] at h
  | ok _ =>
    cases htimer : e.config.timer.checkTimer with
    | error err => simp [hclock, htimer] at h
    | ok _ => simpa [hclock, htimer, eq_comm] using h

/-! ### Trails -/

/-- A cycle as it is seen afterwards: the emulator and the world that it began with, and what it answered. -/
structure Turn (W : Type) where
  before : Emulator
  world : W
  out : Except CycleError Signals

def Turn.progress (t : Turn W) : Progress := .ofCycle t.out

/-- What is done between two cycles. -/
inductive Between (p : Peripherals (StateM W)) : Emulator → Scene W → Emulator → Scene W → Prop
  /-- The clock is read, … -/
  | now (e : Emulator) (s : Scene W) : Between p e s e ⟨s.log, (p.now s.world).2⟩
  /-- … something is noted that is not under a trace, or time is let pass, … -/
  | aside (e : Emulator) (s : Scene W) {r : Request} (haside : r.Aside)
    (huntraced : ∀ pc word, r ≠ .note (.traced pc word)) :
    Between p e s e ⟨s.log ++ [r], (p.perform r s.world).2⟩
  /-- … the tone is switched off, … -/
  | silence (e : Emulator) (s : Scene W) :
    Between p e s (play (e.silence p.recorded) s).1 (play (e.silence p.recorded) s).2
  /-- … the emulator keeps book, but trace and timers are settled, … -/
  | books (e : Emulator) (s : Scene W) (clock : Rate) (scheduler : Scheduler) (running : Bool)
    (hperiod : scheduler.period = e.scheduler.period) :
    Between p e s { e with config.clock := clock, scheduler, running } s
  /-- … or a program is loaded. -/
  | load (e : Emulator) (s : Scene W) {machine : Machine} {program : List UInt8}
    (hload : e.machine.load program = .ok machine) : Between p e s { e with machine } s

/-- Cycles one after another, with what is done between them. -/
inductive Trail (p : Peripherals (StateM W)) : Emulator → Scene W → List (Turn W) → Emulator → Scene W → Prop
  | rest (e : Emulator) (s : Scene W) : Trail p e s [] e s
  | cycle {e e₁ e' : Emulator} {s s₁ s' : Scene W} {out : Except CycleError Signals} {ts : List (Turn W)}
      (hstep : play (e.step p.recorded) s = ((e₁, out), s₁)) (hrest : Trail p e₁ s₁ ts e' s') :
      Trail p e s (⟨e, s.world, out⟩ :: ts) e' s'
  | between {e e₁ e' : Emulator} {s s₁ s' : Scene W} {ts : List (Turn W)} (hbetween : Between p e s e₁ s₁)
      (hrest : Trail p e₁ s₁ ts e' s') : Trail p e s ts e' s'

/-- All cycles leave the emulator ready but the last, which ends so. -/
inductive Ended : List (Turn W) → Progress → Prop
  | nil : Ended [] .ready
  | last (t : Turn W) : Ended [t] t.progress
  | cons {t : Turn W} {ts : List (Turn W)} {g : Progress} (hready : t.progress = .ready) (hrest : Ended ts g) :
    Ended (t :: ts) g

section Trail

variable {p : Peripherals (StateM W)} {e e₁ e' : Emulator} {s s₁ s' : Scene W} {ts ts' : List (Turn W)}

theorem Trail.append (h : Trail p e s ts e₁ s₁) (h' : Trail p e₁ s₁ ts' e' s') : Trail p e s (ts ++ ts') e' s' := by
  induction h with
  | rest => exact h'
  | cycle hstep _ ih => exact .cycle hstep (ih h')
  | between hbetween _ ih => exact .between hbetween (ih h')

theorem Trail.then (h : Trail p e s ts e₁ s₁) (hbetween : Between p e₁ s₁ e' s') : Trail p e s ts e' s' := by
  have hall := h.append (.between hbetween (.rest e' s'))
  rwa [List.append_nil] at hall

theorem Between.note (e : Emulator) (s : Scene W) (n : Notice) (h : ∀ pc word, n ≠ .traced pc word) :
    Between p e s e (play (p.recorded.note n) s).2 :=
  .aside e s trivial fun pc word hn => h pc word (Request.note.inj hn)

theorem Between.sameSettings (h : Between p e s e' s') : SameSettings e e' := by
  cases h with
  | silence =>
    obtain ⟨w, hw⟩ := play_silence p e s
    rw [hw]
    exact ⟨rfl, rfl, rfl⟩
  | books _ _ _ hperiod => exact ⟨rfl, rfl, hperiod⟩
  | now | aside | load => exact ⟨rfl, rfl, rfl⟩

theorem Trail.sameSettings (h : Trail p e s ts e' s') : SameSettings e e' := by
  induction h with
  | rest => exact .refl _
  | cycle hstep _ ih => exact (keeps_of_step hstep).1.trans ih
  | between hbetween _ ih => exact hbetween.sameSettings.trans ih

theorem Ended.of_eq {t : Turn W} {g : Progress} (h : t.progress = g) : Ended [t] g := h ▸ .last t

theorem Ended.exists_last {g : Progress} (h : Ended ts g) (hg : g ≠ .ready) :
    ∃ ts₀ t, ts = ts₀ ++ [t] ∧ t.progress = g := by
  induction h with
  | nil => exact absurd rfl hg
  | last t => exact ⟨[], t, rfl, rfl⟩
  | @cons t ts g _ _ ih =>
    obtain ⟨ts₀, u, rfl, hu⟩ := ih hg
    exact ⟨t :: ts₀, u, rfl, hu⟩

/-- In a call that ends well enough, so do the cycles. -/
theorem Ended.forall_mem {Good : Progress → Prop} {g : Progress} (h : Ended ts g) (hready : Good .ready) (hg : Good g) :
    ∀ t ∈ ts, Good t.progress := by
  induction h with
  | nil => simp
  | last t => simpa using hg
  | cons ht _ ih => simpa [ht, hready] using ih hg

/-! ### Calls are trails -/

theorem trail_unpaced {limit executed : Nat} {out : Except CycleError Nat}
    (hplay : play (unpaced p.recorded limit executed e) s = ((e', out), s')) :
    ∃ ts, Trail p e s ts e' s' ∧ Ended ts (.ofCount (executed + limit) out) ∧ e'.running = e.running := by
  -- `executed + limit` cycles are to be gone through in all, from wherever one begins to look
  induction limit generalizing executed e s with
  | zero =>
    obtain ⟨⟨rfl, rfl⟩, rfl⟩ := by simpa [unpaced] using hplay
    refine ⟨[], .rest _ _, ?_, rfl⟩
    simpa [Progress.ofCount] using Ended.nil
  | succ limit ih =>
    obtain ⟨⟨⟨e₁, out₁⟩, s₁⟩, hstep⟩ : ∃ r, play (e.step p.recorded) s = r := ⟨_, rfl⟩
    obtain ⟨-, hrunning⟩ := keeps_of_step hstep
    rw [unpaced, play_bind, hstep] at hplay
    cases out₁ with
    | error err =>
      obtain ⟨⟨rfl, rfl⟩, rfl⟩ := by simpa using hplay
      exact ⟨_, .cycle hstep (.rest _ _), .of_eq rfl, hrunning⟩
    | ok signals =>
      by_cases hexit : signals.wantsExit
      · obtain ⟨⟨rfl, rfl⟩, rfl⟩ := by simpa [hexit] using hplay
        refine ⟨_, .cycle hstep (.rest _ _), .of_eq ?_, hrunning⟩
        simp [Turn.progress, Progress.ofCycle, Progress.ofCount, hexit]
      · simp only [hexit] at hplay
        obtain ⟨ts, htrail, hended, hrest⟩ := ih hplay
        rw [Nat.add_right_comm] at hended
        refine ⟨_, .cycle hstep htrail, .cons ?_ hended, hrest.trans hrunning⟩
        simp [Turn.progress, Progress.ofCycle, hexit]

theorem trail_paced {period : Float} {limit executed executed' : Nat} {failure : Option CycleError}
    (hplay : play (paced p.recorded period limit executed e) s = ((e', executed', failure), s')) :
    ∃ ts, Trail p e s ts e' s' ∧ Ended ts (.ofCount (executed + limit) (outcome executed' failure)) := by
  induction limit generalizing executed e s with
  | zero =>
    obtain ⟨⟨rfl, rfl, rfl⟩, rfl⟩ := by simpa [paced] using hplay
    refine ⟨[], .rest _ _, ?_⟩
    simpa [outcome, Progress.ofCount] using Ended.nil
  | succ limit ih =>
    obtain ⟨⟨⟨e₁, out₁⟩, s₁⟩, hstep⟩ :
      ∃ r, play (e.step p.recorded) ⟨s.log, (p.now s.world).2⟩ = r := ⟨_, rfl⟩
    rw [paced, play_bind, play_now, play_bind, hstep] at hplay
    cases out₁ with
    | error err =>
      obtain ⟨⟨rfl, rfl, rfl⟩, rfl⟩ := by simpa using hplay
      exact ⟨_, .between (.now e s) (.cycle hstep (.rest _ _)), .of_eq rfl⟩
    | ok signals =>
      by_cases hexit : signals.wantsExit
      · obtain ⟨⟨rfl, rfl, rfl⟩, rfl⟩ := by simpa [hexit] using hplay
        have hnoted : Between p e₁ s₁ e₁ _ := .note e₁ s₁ .exitRequested (by simp)
        refine ⟨_, .between (.now e s) (.cycle hstep (.between hnoted (.rest _ _))), .of_eq ?_⟩
        simp [Turn.progress, Progress.ofCycle, Progress.ofCount, outcome, hexit]
      · simp only [hexit, Bool.false_eq_true, if_false, play_bind, play_now, play_perform] at hplay
        obtain ⟨ts, htrail, hended⟩ := ih hplay
        rw [Nat.add_right_comm] at hended
        have hpaused := Trail.between (.aside e₁ ⟨s₁.log, (p.now s₁.world).2⟩ (r := .pause _) trivial (by simp)) htrail
        refine ⟨_, .between (.now e s) (.cycle hstep (.between (.now e₁ s₁) hpaused)), .cons ?_ hended⟩
        simp [Turn.progress, Progress.ofCycle, hexit]

theorem trail_underway {count executed : Nat} {failure : Option CycleError}
    (hplay : play (e.underway p.recorded count) s = ((e', executed, failure), s')) :
    ∃ ts, Trail p e s ts e' s' ∧ Ended ts (.ofCount count (outcome executed failure)) := by
  unfold underway at hplay
  rw [play_bind, play_bind] at hplay
  obtain ⟨ts, htrail, hended⟩ := trail_paced hplay
  rw [Nat.zero_add] at hended
  have hstarted := Trail.between (.books e _ e.config.clock (e.scheduler.restart (p.now s.world).1) true rfl) htrail
  have hnoted := Trail.between (.note e _ (.runStarted e.config.clock) (by simp)) hstarted
  exact ⟨ts, .between (.now e s) hnoted, hended⟩

theorem trail_run {max : Option Int} {out : Except CycleError Nat}
    (hplay : play (e.run p.recorded max) s = ((e', out), s')) :
    ∃ ts, Trail p e s ts e' s' ∧ Ended ts (.ofCount (limitOf max) out) ∧ e'.running = false := by
  obtain ⟨⟨⟨e₁, executed, failure⟩, s₁⟩, hgoing⟩ :
    ∃ r, play (e.underway p.recorded (limitOf max)) s = r := ⟨_, rfl⟩
  rw [run_eq, play_bind, hgoing] at hplay
  obtain ⟨ts, htrail, hended⟩ := trail_underway hgoing
  obtain ⟨⟨e₂, s₂⟩, hsilence⟩ : ∃ r, play (e₁.silence p.recorded) s₁ = r := ⟨_, rfl⟩
  have hsilent : Between p e₁ s₁ e₂ s₂ := by
    have hbetween := Between.silence (p := p) e₁ s₁
    rwa [hsilence] at hbetween
  -- the last cycle is over, so the rest belongs to what is done between cycles
  have hstopped := ((htrail.then hsilent).then (.note e₂ s₂ (.runStopped executed) (by simp))).then
    (.books e₂ _ e₂.config.clock e₂.scheduler false rfl)
  obtain ⟨⟨rfl, rfl⟩, rfl⟩ := by simpa [stopping, hsilence] using hplay
  exact ⟨ts, hstopped, hended, rfl⟩

/-- **A call is a trail**, unless it is a reset, and behind it no run goes on that did not before. -/
theorem trail_attend {c : Call} {g : Progress} (hc : c ≠ .reset)
    (hplay : play (attend p.recorded e c) s = ((e', g), s')) :
    ∃ ts, Trail p e s ts e' s' ∧ Ended ts g ∧ (e.running = false → e'.running = false) := by
  cases c with
  | reset => exact absurd rfl hc
  | step =>
    obtain ⟨⟨rfl, rfl⟩, rfl⟩ := by simpa [attend] using hplay
    exact ⟨_, .cycle rfl (.rest _ _), .last _, (keeps_of_step rfl).2.trans⟩
  | run max =>
    obtain ⟨⟨rfl, rfl⟩, rfl⟩ := by simpa [attend] using hplay
    obtain ⟨ts, htrail, hended, hrunning⟩ := trail_run (p := p) (e := e) (s := s) rfl
    exact ⟨ts, htrail, hended, fun _ => hrunning⟩
  | runCycles count =>
    obtain ⟨⟨rfl, rfl⟩, rfl⟩ := by simpa [attend] using hplay
    obtain ⟨⟨⟨e₁, out⟩, s₁⟩, hrun⟩ : ∃ r, play (e.runCycles p.recorded count) s = r := ⟨_, rfl⟩
    obtain ⟨ts, htrail, hended, hrunning⟩ := trail_unpaced hrun
    rw [Nat.zero_add] at hended
    rw [hrun]
    exact ⟨ts, htrail, hended, hrunning.trans⟩
  | load program =>
    obtain ⟨⟨rfl, rfl⟩, rfl⟩ := by simpa [attend] using hplay
    unfold load
    cases hload : e.machine.load program with
    | error err => exact ⟨[], .rest _ _, .nil, id⟩
    | ok machine =>
      have hnoted : Between p e s e _ := .note e s (.programLoaded program.length) (by simp)
      exact ⟨[], .between hnoted (.between (.load e _ hload) (.rest _ _)), .nil, id⟩
  | setClock clock =>
    cases hclock : e.withClock clock with
    | error err =>
      obtain ⟨⟨rfl, rfl⟩, rfl⟩ := by simpa [attend, hclock] using hplay
      exact ⟨[], .rest _ _, .nil, id⟩
    | ok e₁ =>
      obtain ⟨⟨rfl, rfl⟩, rfl⟩ := by simpa [attend, hclock] using hplay
      obtain rfl := withClock_eq_ok hclock
      exact ⟨[], .between (.books e s clock e.scheduler e.running rfl) (.rest _ _), .nil, id⟩

/-- Calls without a reset are a trail, cut where one call ends and the next begins. -/
theorem trail_attendAll {cs : List Call} {gs : List Progress} (hcs : ∀ c ∈ cs, c ≠ .reset)
    (hplay : play (attendAll p.recorded e cs) s = ((e', gs), s')) :
    ∃ tss, List.Forall₂ Ended tss gs ∧ Trail p e s tss.flatten e' s' := by
  induction cs generalizing e s gs with
  | nil =>
    obtain ⟨⟨rfl, rfl⟩, rfl⟩ := by simpa [attendAll] using hplay
    exact ⟨[], .nil, .rest _ _⟩
  | cons c cs ih =>
    obtain ⟨⟨⟨e₁, g⟩, s₁⟩, hfirst⟩ : ∃ r, play (attend p.recorded e c) s = r := ⟨_, rfl⟩
    obtain ⟨⟨⟨e₂, gs'⟩, s₂⟩, hrest⟩ : ∃ r, play (attendAll p.recorded e₁ cs) s₁ = r := ⟨_, rfl⟩
    obtain ⟨⟨rfl, rfl⟩, rfl⟩ := by simpa [attendAll, hfirst, hrest] using hplay
    obtain ⟨ts, htrail, hended, -⟩ := trail_attend (hcs c (List.mem_cons_self ..)) hfirst
    obtain ⟨tss, hall, htrails⟩ := ih (fun c' hc => hcs c' (List.mem_cons_of_mem _ hc)) hrest
    exact ⟨ts :: tss, .cons hended hall, htrail.append htrails⟩

end Trail

/-! ### What calls keep -/

/-- A condition survives the cycles that end well, and what is done around cycles. -/
structure Kept (p : Peripherals (StateM W)) (Good : Progress → Prop) (P : Emulator → Scene W → Prop) : Prop where
  ready : Good .ready
  step : ∀ {e s e' out s'}, play (e.step p.recorded) s = ((e', out), s') → Good (.ofCycle out) → P e s → P e' s'
  /-- Between cycles the clock is read, … -/
  now : ∀ {e s}, P e s → P e ⟨s.log, (p.now s.world).2⟩
  /-- … things are noted and time is let pass, … -/
  aside : ∀ {r e s}, r.Aside → P e s → P e ⟨s.log ++ [r], (p.perform r s.world).2⟩
  /-- … the tone is switched off, … -/
  silence : ∀ {e s}, P e s → P (play (e.silence p.recorded) s).1 (play (e.silence p.recorded) s).2
  /-- … and the emulator keeps book. -/
  books : ∀ {e s} config scheduler running, P e s → P { e with config, scheduler, running } s
  load : ∀ {e s machine program}, e.machine.load program = .ok machine → P e s → P { e with machine } s

namespace Kept

variable {p : Peripherals (StateM W)} {Good : Progress → Prop} {P : Emulator → Scene W → Prop}
  {e e' : Emulator} {s s' : Scene W}

/-- For a condition on what was asked for, a cycle is known by its requests. -/
theorem of_log {L : Emulator → List Request → Prop} (ready : Good .ready)
    (cycle : ∀ {i e rs e' out log}, Cycle i e rs e' out → Good (.ofCycle out) → L e log → L e' (log ++ rs))
    (aside : ∀ {r e log}, r.Aside → L e log → L e (log ++ [r]))
    (silence : ∀ {e log}, L e log → L { e with tone := false } (log ++ toneRequests e.tone false))
    (books : ∀ {e log} config scheduler running, L e log → L { e with config, scheduler, running } log)
    (load : ∀ {e log machine program}, e.machine.load program = .ok machine → L e log → L { e with machine } log) :
    Kept p Good fun e s => L e s.log where
  ready := ready
  step := by
    intro e s e' out s' hstep hgood hL
    obtain ⟨i, rs, hlog, -, -, hc⟩ := cycle_of_step hstep
    rw [hlog]
    exact cycle hc hgood hL
  now hL := hL
  aside := aside
  silence := by
    intro e s hL
    obtain ⟨w, hw⟩ := play_silence p e s
    rw [hw]
    exact silence hL
  books := books
  load := load

theorem between (h : Kept p Good P) (hbetween : Between p e s e' s') (hP : P e s) : P e' s' := by
  cases hbetween with
  | now => exact h.now hP
  | aside haside => exact h.aside haside hP
  | silence => exact h.silence hP
  | books clock scheduler running => exact h.books { e.config with clock } scheduler running hP
  | load hload => exact h.load hload hP

/-- What is kept is kept along a trail whose cycles end well enough. -/
theorem trail (h : Kept p Good P) {ts : List (Turn W)} (htrail : Trail p e s ts e' s')
    (hgood : ∀ t ∈ ts, Good t.progress) (hP : P e s) : P e' s' := by
  induction htrail with
  | rest => exact hP
  | cycle hstep _ ih =>
    obtain ⟨hfirst, hrest⟩ := List.forall_mem_cons.mp hgood
    exact ih hrest (h.step hstep hfirst hP)
  | between hbetween _ ih => exact ih hgood (h.between hbetween hP)

theorem underway (h : Kept p Good P) {count executed : Nat} {failure : Option CycleError}
    (hplay : play (e.underway p.recorded count) s = ((e', executed, failure), s'))
    (hgood : Good (.ofCount count (outcome executed failure))) (hP : P e s) : P e' s' := by
  obtain ⟨ts, htrail, hended⟩ := trail_underway hplay
  exact h.trail htrail (hended.forall_mem h.ready hgood) hP

/-- A call survives, unless it is a reset. -/
theorem attend (h : Kept p Good P) {c : Call} {g : Progress} (hc : c ≠ .reset)
    (hplay : play (attend p.recorded e c) s = ((e', g), s')) (hgood : Good g) (hP : P e s) : P e' s' := by
  obtain ⟨ts, htrail, hended, -⟩ := trail_attend hc hplay
  exact h.trail htrail (hended.forall_mem h.ready hgood) hP

theorem attendAll (h : Kept p Good P) {cs : List Call} {gs : List Progress} (hcs : ∀ c ∈ cs, c ≠ .reset)
    (hplay : play (attendAll p.recorded e cs) s = ((e', gs), s')) (hgood : ∀ g ∈ gs, Good g) (hP : P e s) :
    P e' s' := by
  obtain ⟨tss, hall, htrail⟩ := trail_attendAll hcs hplay
  refine h.trail htrail ?_ hP
  clear htrail hplay
  induction hall with
  | nil => simp
  | cons hended _ ih =>
    obtain ⟨hfirst, hrest⟩ := List.forall_mem_cons.mp hgood
    rw [List.flatten_cons, List.forall_mem_append]
    exact ⟨hended.forall_mem h.ready hfirst, ih hrest⟩

end Kept

end Emulator

end Chip8

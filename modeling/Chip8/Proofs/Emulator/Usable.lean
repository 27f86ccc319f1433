import Mathlib
import Chip8.Proofs.Emulator.Timing
import Chip8.Proofs.Emulator.Loading

/-!
# Accepted configurations

The rates of a configuration are checked when it is made.  The period of the timers is computed from one of them when an
emulator is made of it, and every poll divides by this period.  The check lets through the instruction rates from 1 to 2000,
and the timer rates that are not zero or below.  Of these, all that stand for a number can be used; the others are infinite,
not a number, or whole numbers that are too large for a float, and no step can be made with them (`accepted_usable_iff`).

By no period can a scheduler count up to every reading of a clock: the seconds and the periods from its start on have to fit a
float.  They do as long as no reading is astronomically far away (`Rate.Reaches`).
-/

namespace Chip8

open Emulator

/-! ### What is accepted -/

namespace Config

variable (c : Config)

theorem check_eq_ok_iff : c.check = .ok c ↔ c.clock.isClock ∧ ¬ c.timer.isNotPositive := by
  unfold check
  by_cases hclock : c.clock.isClock
  · rw [Rate.checkClock_of_isClock hclock]
    by_cases htimer : c.timer.isNotPositive
    · obtain ⟨err, herr, -⟩ := Rate.checkTimer_of_isNotPositive htimer
      simp [herr, htimer]
    · simp [Rate.checkTimer_of_positive htimer, hclock, htimer]
  · obtain ⟨err, herr, -⟩ := Rate.checkClock_of_not_isClock hclock
    simp [herr, hclock]

theorem eq_of_check {c' : Config} (h : c.check = .ok c') : c' = c := by
  unfold check at h
  split at h
  · exact nomatch h
  · split at h
    · exact nomatch h
    · exact (Except.ok.inj h).symm

theorem check_eq_tooLarge_iff : c.check = .error .tooLarge ↔
    c.clock.TooLarge ∨ c.clock.isClock ∧ c.timer.isNotPositive ∧ c.timer.TooLarge := by
  unfold check
  by_cases hclock : c.clock.isClock
  · have hsmall : ¬ c.clock.TooLarge := fun h => Rate.not_isClock_of_tooLarge h hclock
    rw [Rate.checkClock_of_isClock hclock]
    by_cases htimer : c.timer.isNotPositive
    · obtain ⟨err, herr, hiff⟩ := Rate.checkTimer_of_isNotPositive htimer
      simp [herr, hiff, hclock, htimer, hsmall]
    · simp [Rate.checkTimer_of_positive htimer, htimer, hsmall]
  · obtain ⟨err, herr, hiff⟩ := Rate.checkClock_of_not_isClock hclock
    simp [herr, hiff, hclock]

end Config

/-! ### Emulators from a configuration -/

namespace Emulator

section Create

variable {config : Config}

theorem create_of_period {period : Float} (htimer : ¬ config.timer.isNotPositive)
    (hperiod : config.timer.period = .ok period) (seed : Int) (start : Float) :
    create config seed start =
      .ok { config, machine := .powerOn (.ofSeed (config.seed.getD seed)), scheduler := ⟨period, start, 0⟩ } := by
  simp only [create, Scheduler.create, htimer, hperiod]
  rfl

theorem create_of_tooLarge (htimer : ¬ config.timer.isNotPositive) (hlarge : config.timer.TooLarge) (seed : Int)
    (start : Float) : create config seed start = .error .tooLarge := by
  simp only [create, Scheduler.create, htimer, Rate.period_of_tooLarge hlarge]
  rfl

end Create

end Emulator

namespace Config

/-- From this configuration comes an emulator, and whatever is asked of it, in any surroundings with a clock that is not too
far away, a run has a period to keep to and no step fails to count the periods of the timers. -/
def Usable (config : Config) : Prop :=
  ∀ (seed : Int) (start : Float), config.timer.Reaches start → ∃ e, Emulator.create config seed start = .ok e ∧
    ∀ (W : Type) (p : Peripherals (StateM W)), (∀ w, config.timer.Reaches (p.now w).1) →
      ∀ (cs : List Call) (s : Scene W), ∃ e' gs s', play (attendAll p.recorded e cs) s = ((e', gs), s') ∧
        (∃ seconds v, e'.config.clock.period = .ok seconds ∧ Binary64.number? seconds = some v ∧ 0 < v) ∧
        ∀ err, .failed (.timing err) ∉ gs

/-- From this configuration comes an emulator, and whatever has been asked of it, in any surroundings, the next step
ends so if it reads the clock, from the scheduler as it is and the reading. -/
def EachStep (config : Config) (P : Scheduler → Float → Except CycleError Signals → Prop) : Prop :=
  ∀ (seed : Int) (start : Float), ∃ e, Emulator.create config seed start = .ok e ∧
    ∀ (W : Type) (p : Peripherals (StateM W)) (cs : List Call) (s : Scene W) (e' : Emulator) (s' : Scene W),
      play (calls p.recorded e cs) s = (e', s') → ∀ now, Reads p e' s' now →
        P e'.scheduler now (play (e'.step p.recorded) s').1.2

variable {config : Config} {period : Float}

theorem eachStep_of_period {P : Scheduler → Float → Except CycleError Signals → Prop}
    (hcheck : config.check = .ok config) (hperiod : config.timer.period = .ok period)
    (hok : ∀ c now signals, c.period = period → (∃ r, Scheduler.poll c now = .ok r) → P c now (.ok signals))
    (herror : ∀ c now err, c.period = period → Scheduler.poll c now = .error err → P c now (.error (.timing err))) :
    config.EachStep P := by
  obtain ⟨hclock, htimer⟩ := config.check_eq_ok_iff.mp hcheck
  intro seed start
  refine ⟨_, create_of_period htimer hperiod seed start, ?_⟩
  intro W p cs s e' s' hcalls now hreads
  have htiming := step_timing hreads
  have hcreated : Clocked period (fun _ => True)
      { config, machine := .powerOn (.ofSeed (config.seed.getD seed)), scheduler := ⟨period, start, 0⟩ } :=
    ⟨hclock, rfl, trivial⟩
  have hclocked := calls_clocked (p := p) (fun _ => trivial) cs (s := s) hcreated
  rw [hcalls] at hclocked
  generalize (play (e'.step p.recorded) s').1 = r at htiming
  cases htiming with
  | counted signals hpoll => exact hok _ _ signals hclocked.period ⟨_, hpoll⟩
  | failed hpoll => exact herror _ _ _ hclocked.period hpoll

theorem usable_of_number {q : ℚ} (hcheck : config.check = .ok config) (hq : config.timer.number? = some q) :
    config.Usable := by
  obtain ⟨hclock, htimer⟩ := config.check_eq_ok_iff.mp hcheck
  have hpos : 0 < q := not_le.mp (mt (Rate.isNotPositive_iff hq).mpr htimer)
  obtain ⟨period, hperiod, hlasts⟩ := Rate.exists_period_lasts hq hpos
  intro seed start hstart
  refine ⟨_, create_of_period htimer hperiod seed start, ?_⟩
  intro W p hnow cs s
  have hcreated : Clocked period config.timer.Reaches
      { config, machine := .powerOn (.ofSeed (config.seed.getD seed)), scheduler := ⟨period, start, 0⟩ } :=
    ⟨hclock, rfl, hstart⟩
  obtain ⟨hclocked, hfailures⟩ := attendAll_accounted hnow hcreated cs s
  refine ⟨_, _, _, rfl, Rate.exists_clock_period hclocked.clock, fun err herr => ?_⟩
  obtain ⟨c, rfl, hstarted, now, hreaches, hpoll⟩ := hfailures err herr
  obtain ⟨r, hr⟩ := (Scheduler.exists_poll_iff_spans hlasts).mpr
    (Scheduler.spans_of_reaches hq hpos hperiod hstarted hreaches)
  rw [hr] at hpoll
  exact nomatch hpoll

/-- Nobody presses a key, and the clock stands still. -/
def motionless : Peripherals (StateM Unit) where
  poll := pure 0
  keys := pure none
  now := pure 0.0
  perform _ := pure ()

theorem reaches_zero (r : Rate) : r.Reaches 0.0 := by
  refine ⟨0, Binary64.number?_zero, ?_, fun q _ => ?_⟩
  · rw [abs_zero]
    positivity
  · rw [abs_zero, zero_mul]
    positivity

/-- The first instruction of this program can be carried out on any machine that has just been switched on. -/
theorem exists_exec_of_load (random : Random) :
    ∃ m r, (Machine.powerOn random).load (Machine.bytesOf [0x6000]) = .ok m ∧ m.fetch = .ok 0x6000 ∧
      m.exec 0x6000 = .ok r := by
  have hfits : (Machine.bytesOf [0x6000]).length ≤ 3584 := by decide
  obtain ⟨m, hload, hloads⟩ := Machine.loads_of_fits hfits (.powerOn random)
  have hm : { m with pc := UInt16.ofNat (0x200 + 2 * 0) } = m := by
    rw [hloads.rest]
    rfl
  have hfetch := hloads.fetch_word (by decide) (k := 0) rfl
  rw [hm] at hfetch
  exact ⟨m, _, hload, hfetch, rfl⟩

/-- If no poll succeeds, the first step behind the load of a program fails. -/
theorem not_usable_of_period (hcheck : config.check = .ok config) (hperiod : config.timer.period = .ok period)
    (hfails : ∀ c now, c.period = period → ∃ err, Scheduler.poll c now = .error err) : ¬ config.Usable := by
  obtain ⟨hclock, htimer⟩ := config.check_eq_ok_iff.mp hcheck
  intro husable
  obtain ⟨e, hcreate, hall⟩ := husable 0 0.0 (reaches_zero _)
  obtain rfl := Except.ok.inj ((create_of_period htimer hperiod 0 0.0).symm.trans hcreate)
  obtain ⟨m, ⟨m', eff⟩, hload, hfetch, hexec⟩ := exists_exec_of_load (.ofSeed (config.seed.getD 0))
  obtain ⟨e, he⟩ : ∃ e : Emulator, e = ⟨config, m, ⟨period, 0.0, 0⟩, false, 0, false⟩ := ⟨_, rfl⟩
  obtain ⟨s, hs⟩ : ∃ s : Scene Unit, s = ⟨[.note (.programLoaded 2)], ()⟩ := ⟨_, rfl⟩
  have hreads : Reads motionless e s 0.0 := by
    have hanswer : motionless.answer () = (none, ()) := if_neg (by decide)
    rw [he, hs]
    refine ⟨by decide, 0x6000, m', eff, ?_⟩
    rw [keyed, hanswer]
    exact ⟨hfetch, hexec, rfl⟩
  have htiming := step_timing hreads
  obtain ⟨err, hout⟩ : ∃ err, (play (e.step motionless.recorded) s).1.2 = .error (.timing err) := by
    obtain ⟨err, herr⟩ := hfails e.scheduler 0.0 (by rw [he])
    generalize (play (e.step motionless.recorded) s).1 = r at htiming
    cases htiming with
    | counted signals hpoll =>
      rw [herr] at hpoll
      cases hpoll
    | failed => exact ⟨_, rfl⟩
  obtain ⟨e', gs, s', hplay, -, hnone⟩ :=
    hall Unit motionless (fun _ => reaches_zero _) [.load (Machine.bytesOf [0x6000]), .step] ⟨[], ()⟩
  have hgs : gs = [.ready, .ofCycle (play (e.step motionless.recorded) s).1.2] := by
    simp only [attendAll, attend, load, hload, play_bind, play_note, play_pure] at hplay
    rw [he, hs]
    exact (congrArg (fun r => r.1.2) hplay).symm
  refine hnone err ?_
  rw [hgs, hout]
  simp [Progress.ofCycle]

/-- By the period of a float that is let through as a timer rate without being finite, no poll can count. -/
theorem poll_of_not_number {x : Float} (hx : Binary64.number? x = none) (hpositive : ¬ (Rate.real x).isNotPositive) :
    ∃ period, (Rate.real x).period = .ok period ∧ ∀ c now, c.period = period →
      Scheduler.poll c now = .error (if x.isNaN then .notANumber else .zeroPeriod) := by
  rw [Rate.isNotPositive, decide_eq_true_eq] at hpositive
  have hnan : x.isNaN = x.toModel.unpack.isNaN := rfl
  rcases Binary64.eq_of_not_le hx Binary64.number?_zero hpositive with hinfinity | hnot
  · obtain ⟨period, hperiod, hzero⟩ := Rate.period_of_infinity hinfinity
    refine ⟨period, hperiod, ?_⟩
    rintro c now rfl
    rw [hnan, hinfinity]
    exact Scheduler.poll_of_zero hzero now
  · obtain ⟨period, hperiod, hperiod'⟩ := Rate.period_of_notANumber hnot
    refine ⟨period, hperiod, ?_⟩
    rintro c now rfl
    rw [hnan, hnot]
    exact Scheduler.poll_of_notANumber hperiod' now

theorem usable_iff (hcheck : config.check = .ok config) : config.Usable ↔ ∃ q, config.timer.number? = some q := by
  obtain ⟨-, htimer⟩ := config.check_eq_ok_iff.mp hcheck
  constructor
  · intro husable
    by_contra hnone
    rw [← Option.isSome_iff_exists, Option.not_isSome_iff_eq_none] at hnone
    cases hrate : config.timer with
    | whole n =>
      rw [hrate, Rate.number?_whole_eq_none_iff, ← hrate] at hnone
      obtain ⟨e, hcreate, -⟩ := husable 0 0.0 (reaches_zero _)
      rw [create_of_tooLarge htimer hnone] at hcreate
      exact nomatch hcreate
    | real x =>
      rw [hrate] at hnone htimer
      obtain ⟨period, hperiod, hfails⟩ := poll_of_not_number hnone htimer
      refine not_usable_of_period hcheck (hrate ▸ hperiod) (fun c now hc => ⟨_, hfails c now hc⟩) husable
  · rintro ⟨q, hq⟩
    exact usable_of_number hcheck hq

theorem eachStep_of_number {q : ℚ} (hcheck : config.check = .ok config) (hq : config.timer.number? = some q) :
    config.EachStep fun c now out =>
      (c.Spans now → ∃ signals, out = .ok signals) ∧ (¬ c.Spans now → ∃ err, out = .error (.timing err)) := by
  obtain ⟨-, htimer⟩ := config.check_eq_ok_iff.mp hcheck
  have hpos : 0 < q := not_le.mp (mt (Rate.isNotPositive_iff hq).mpr htimer)
  obtain ⟨period, hperiod, hlasts⟩ := Rate.exists_period_lasts hq hpos
  refine eachStep_of_period hcheck hperiod ?_ ?_
  · rintro c now signals rfl hpoll
    have hspans := (Scheduler.exists_poll_iff_spans hlasts).mp hpoll
    exact ⟨fun _ => ⟨signals, rfl⟩, fun hnot => absurd hspans hnot⟩
  · rintro c now err rfl hpoll
    refine ⟨fun hspans => ?_, fun _ => ⟨err, rfl⟩⟩
    obtain ⟨r, hr⟩ := (Scheduler.exists_poll_iff_spans hlasts).mpr hspans
    exact nomatch hr.symm.trans hpoll

theorem eachStep_of_not_number {x : Float} (hcheck : config.check = .ok config) (htimer : config.timer = .real x)
    (hx : Binary64.number? x = none) : config.EachStep fun _ _ out =>
      out = .error (.timing (if x.isNaN then .notANumber else .zeroPeriod)) := by
  obtain ⟨-, hpositive⟩ := config.check_eq_ok_iff.mp hcheck
  rw [htimer] at hpositive
  obtain ⟨period, hperiod, hfails⟩ := poll_of_not_number hx hpositive
  refine eachStep_of_period hcheck (htimer ▸ hperiod) ?_ ?_
  · rintro c now signals hc ⟨r, hr⟩
    exact nomatch hr.symm.trans (hfails c now hc)
  · intro c now err hc hpoll
    rw [Except.error.inj (hpoll.symm.trans (hfails c now hc))]

/-- **What is accepted can be used if its timer rate is a number.**  A configuration is refused for want of a float, and not
for the bounds of its rates, exactly if a whole number that has to be named is too large for one.  One that is accepted can be
used exactly if there is a finite float for its timer rate; and then each step goes through that can be counted up to the
reading of the clock, and the others fail to count.  Else, if the rate is too large, there never is an emulator; and if it
is infinite or not a number, every step fails that comes to its timers. -/
theorem accepted_usable_iff (config : Config) :
    (config.check = .error .tooLarge ↔
      config.clock.TooLarge ∨ config.clock.isClock ∧ config.timer.isNotPositive ∧ config.timer.TooLarge) ∧
    ∀ accepted, config.check = .ok accepted → accepted = config ∧
      (config.Usable ↔ ∃ q, config.timer.number? = some q) ∧
      (∀ q, config.timer.number? = some q → config.EachStep fun c now out =>
        (c.Spans now → ∃ signals, out = .ok signals) ∧ (¬ c.Spans now → ∃ err, out = .error (.timing err))) ∧
      (config.timer.TooLarge → ∀ seed start, Emulator.create config seed start = .error .tooLarge) ∧
      ∀ x, config.timer = .real x → Binary64.number? x = none →
        config.EachStep fun _ _ out => out = .error (.timing (if x.isNaN then .notANumber else .zeroPeriod)) := by
  refine ⟨config.check_eq_tooLarge_iff, fun accepted h => ?_⟩
  obtain rfl := config.eq_of_check h
  obtain ⟨-, htimer⟩ := accepted.check_eq_ok_iff.mp h
  exact ⟨rfl, usable_iff h, fun _ => eachStep_of_number h, create_of_tooLarge htimer, fun _ => eachStep_of_not_number h⟩

def undefinedTimer : Config := { timer := .real (0.0 / 0.0) }

def infiniteTimer : Config := { timer := .real (1.0 / 0.0) }

def hugeTimer : Config := { timer := .whole (10 ^ 400) }

theorem tooLarge_huge : (Rate.whole (10 ^ 400)).TooLarge := by
  change Binary64.overflow ≤ |((10 ^ 400 : ℤ) : ℚ)|
  decide +kernel

/-- The usual rates can be used, and every step goes by the law of polls; of a rate that is too large no emulator is made,
and by one that is not a number no step goes. -/
theorem accepted_usable_iff_usual :
    (Config.check {} = .ok {} ∧ Config.Usable {} ∧ Config.EachStep {} fun c now out =>
      (c.Spans now → ∃ signals, out = .ok signals) ∧ (¬ c.Spans now → ∃ err, out = .error (.timing err))) ∧
    (hugeTimer.check = .ok hugeTimer ∧ Emulator.create hugeTimer 0 0.0 = .error .tooLarge) ∧
    undefinedTimer.check = .ok undefinedTimer ∧ ¬ undefinedTimer.Usable ∧
      undefinedTimer.EachStep fun _ _ out => out = .error (.timing .notANumber) := by
  have husual : Config.check {} = .ok {} := (check_eq_ok_iff _).mpr (by decide +kernel)
  have hhuge : hugeTimer.check = .ok hugeTimer := (check_eq_ok_iff _).mpr (by decide +kernel)
  have hundefined : undefinedTimer.check = .ok undefinedTimer := (check_eq_ok_iff _).mpr (by decide +kernel)
  have hsixty : (Rate.real 60.0).number? = some 60 := by decide +kernel
  have hnone : Binary64.number? (0.0 / 0.0) = none := by decide +kernel
  obtain ⟨-, husable, hlaw, -⟩ := (accepted_usable_iff {}).2 _ husual
  obtain ⟨-, -, -, hcreate, -⟩ := (accepted_usable_iff hugeTimer).2 _ hhuge
  obtain ⟨-, husable', -, -, hsteps⟩ := (accepted_usable_iff undefinedTimer).2 _ hundefined
  refine ⟨⟨husual, husable.mpr ⟨60, hsixty⟩, hlaw 60 hsixty⟩, ⟨hhuge, hcreate tooLarge_huge 0 0.0⟩, hundefined, ?_,
    hsteps _ rfl hnone⟩
  rw [husable']
  rintro ⟨q, hq⟩
  exact nomatch hnone.symm.trans hq

/-- Nobody presses a key, and the clock stands still at a time that is too far away. -/
def distant : Peripherals (StateM Unit) := { motionless with now := pure 1e308 }

/-- **Not all that is accepted can be used.**  By a timer rate that is not a number or infinite, a first step with the clock
at rest fails; of one that is too large there is no emulator.  An instruction rate that is too large is refused, but not for
its bounds.  And at the usual rates a step fails whose reading of the clock, though finite, is too far from the first. -/
theorem accepted_unusable :
    (undefinedTimer.check = .ok undefinedTimer ∧ ∃ e, Emulator.create undefinedTimer 0 0.0 = .ok e ∧
      (play (attendAll motionless.recorded e [.load [0x60, 0x00], .step]) ⟨[], ()⟩).1.2 =
        [.ready, .failed (.timing .notANumber)]) ∧
    (infiniteTimer.check = .ok infiniteTimer ∧ ∃ e, Emulator.create infiniteTimer 0 0.0 = .ok e ∧
      (play (attendAll motionless.recorded e [.load [0x60, 0x00], .step]) ⟨[], ()⟩).1.2 =
        [.ready, .failed (.timing .zeroPeriod)]) ∧
    (hugeTimer.check = .ok hugeTimer ∧ Emulator.create hugeTimer 0 0.0 = .error .tooLarge) ∧
    Config.check { clock := .whole (10 ^ 400) } = .error .tooLarge ∧
    Config.check {} = .ok {} ∧ ∃ e, Emulator.create {} 0 0.0 = .ok e ∧
      (play (attendAll distant.recorded e [.load [0x60, 0x00], .step]) ⟨[], ()⟩).1.2 =
        [.ready, .failed (.timing .infinite)] := by
  refine ⟨⟨(check_eq_ok_iff _).mpr (by decide +kernel), _, rfl, by decide +kernel⟩,
    ⟨(check_eq_ok_iff _).mpr (by decide +kernel), _, rfl, by decide +kernel⟩,
    ⟨(check_eq_ok_iff _).mpr (by decide +kernel), ?_⟩, ?_,
    (check_eq_ok_iff _).mpr (by decide +kernel), _, rfl, by decide +kernel⟩
  · exact create_of_tooLarge (by decide +kernel) tooLarge_huge 0 0.0
  · exact (check_eq_tooLarge_iff _).mpr (.inl tooLarge_huge)

end Config

end Chip8

import Mathlib
import Chip8.Scheduler

/-!
# Every period is handed out once

The clock of a scheduler may stand still, jump ahead or go back; the scheduler does not rely on it.  At each poll it
counts the periods from its start to the reading anew, a negative number of them if the clock has gone back behind the
start, and it hands out what the count exceeds all earlier ones by.  So what it has handed out since it was started is the
greatest of these counts, or zero (`polls_hand_out_once`).

A restart begins a new stretch of time, and nothing of the stretch before it counts any more.
-/

namespace Chip8.Scheduler

/-! ### Uses of a scheduler -/

/-- What can be done with a scheduler, at a reading of its clock. -/
inductive Use
  | poll (now : Float)
  | restart (now : Float)

/-- A use of a scheduler that has handed out `dues` since it was started, poll by poll.  A poll that fails hands out
nothing. -/
def use : Scheduler × List Nat → Use → Scheduler × List Nat
  | (s, dues), .poll now =>
    match s.poll now with
    | .ok (due, s') => (s', dues ++ [due])
    | .error _ => (s, dues)
  | (s, _), .restart now => (s.restart now, [])

/-- A scheduler behind some uses, and what it has handed out since it was started last, poll by poll. -/
def useAll (s : Scheduler) (us : List Use) : Scheduler × List Nat := us.foldl use (s, [])

theorem useAll_concat (s : Scheduler) (us : List Use) (u : Use) : s.useAll (us ++ [u]) = use (s.useAll us) u := by
  rw [useAll, List.foldl_concat]
  rfl

/-! ### The stretch of time since the last start -/

/-- When a scheduler was started, and the readings of its polls since. -/
structure Stretch where
  start : Float
  polls : List Float

namespace Stretch

/-- A poll belongs to the present stretch, and a restart begins a new one. -/
def extend (t : Stretch) : Use → Stretch
  | .poll now => { t with polls := t.polls ++ [now] }
  | .restart now => ⟨now, []⟩

/-- The stretch behind some uses of a scheduler that was created at `start`. -/
def ofUses (start : Float) (us : List Use) : Stretch := us.foldl extend ⟨start, []⟩

/-- The whole periods from the start to a reading. -/
def count (t : Stretch) (period now : Float) : Except PollError Int := passed ⟨period, t.start, 0⟩ now

/-- The counts of all polls at which the periods could be counted. -/
def counts (t : Stretch) (period : Float) : List Int :=
  t.polls.filterMap fun now => (t.count period now).toOption

theorem ofUses_concat (start : Float) (us : List Use) (u : Use) :
    ofUses start (us ++ [u]) = (ofUses start us).extend u := by
  rw [ofUses, List.foldl_concat]
  rfl

section Extend

variable {t : Stretch} {period now : Float}

theorem counts_poll_of_ok {n : Int} (h : t.count period now = .ok n) :
    (t.extend (.poll now)).counts period = t.counts period ++ [n] := by
  unfold count at h
  simp [counts, extend, count, List.filterMap_append, h, Except.toOption]

theorem counts_poll_of_error {err : PollError} (h : t.count period now = .error err) :
    (t.extend (.poll now)).counts period = t.counts period := by
  unfold count at h
  simp [counts, extend, count, List.filterMap_append, h, Except.toOption]

end Extend

end Stretch

/-! ### One poll -/

/-- A scheduler that has handed out these numbers of periods in this stretch of time: together, the greatest of its counts
or zero. -/
structure InStretch (s : Scheduler) (dues : List Nat) (t : Stretch) : Prop where
  started : s.started = t.start
  consumed : IsGreatest {n : Int | n = 0 ∨ n ∈ t.counts s.period} s.consumed
  dues : dues.sum = s.consumed

section Poll

variable {s : Scheduler} {dues : List Nat} {t : Stretch} {now : Float}

theorem InStretch.passed (h : s.InStretch dues t) (now : Float) : s.passed now = t.count s.period now := by
  rw [Stretch.count, ← h.started]
  rfl

theorem poll_of_passed {n : Int} (h : s.passed now = .ok n) :
    s.poll now = .ok (max s.consumed n.toNat - s.consumed, { s with consumed := max s.consumed n.toNat }) := by
  unfold poll
  simp only [h]

theorem poll_of_not_passed {err : PollError} (h : s.passed now = .error err) : s.poll now = .error err := by
  unfold poll
  simp only [h]

/-- A poll hands out what its count goes on by. -/
theorem consumed_of_poll {s' : Scheduler} {due : Nat} (h : s.poll now = .ok (due, s')) :
    s'.consumed = s.consumed + due := by
  cases hpassed : s.passed now with
  | error err =>
    rw [poll_of_not_passed hpassed] at h
    exact nomatch h
  | ok n =>
    rw [poll_of_passed hpassed] at h
    obtain ⟨rfl, rfl⟩ := Prod.mk.inj (Except.ok.inj h)
    dsimp only
    omega

/-- One count more, and the greatest is the greater of it and the greatest so far. -/
theorem isGreatest_concat {ns : List Int} {c n : Int} (h : IsGreatest {m : Int | m = 0 ∨ m ∈ ns} c) :
    IsGreatest {m : Int | m = 0 ∨ m ∈ ns ++ [n]} (max c n) := by
  have hset : {m : Int | m = 0 ∨ m ∈ ns ++ [n]} = insert n {m : Int | m = 0 ∨ m ∈ ns} := by
    ext m
    simp only [List.mem_append, List.mem_singleton, Set.mem_ofPred_eq, Set.mem_insert_iff]
    tauto
  rw [hset, max_comm]
  exact h.insert n

theorem InStretch.poll (h : s.InStretch dues t) {n : Int} (hcount : t.count s.period now = .ok n) :
    ∃ due s', s.poll now = .ok (due, s') ∧ s'.period = s.period ∧ s'.consumed = s.consumed + due ∧
      s'.InStretch (dues ++ [due]) (t.extend (.poll now)) := by
  have hpoll := poll_of_passed ((h.passed now).trans hcount)
  refine ⟨_, _, hpoll, rfl, consumed_of_poll hpoll, h.started, ?_, ?_⟩
  · have hgreatest := isGreatest_concat (n := n) h.consumed
    have hreached : ((max s.consumed n.toNat : Nat) : Int) = max (s.consumed : Int) n := by omega
    rwa [Stretch.counts_poll_of_ok hcount, hreached]
  · rw [List.sum_append, h.dues]
    simp

theorem InStretch.failed (h : s.InStretch dues t) {err : PollError} (hcount : t.count s.period now = .error err) :
    s.poll now = .error err ∧ s.InStretch dues (t.extend (.poll now)) := by
  refine ⟨poll_of_not_passed ((h.passed now).trans hcount), h.started, ?_, h.dues⟩
  rw [Stretch.counts_poll_of_error hcount]
  exact h.consumed

/-- A scheduler that has just been started, with no poll so far. -/
theorem inStretch_started (period start : Float) : InStretch ⟨period, start, 0⟩ [] ⟨start, []⟩ where
  started := rfl
  consumed := by simp [Stretch.counts]
  dues := rfl

end Poll

/-! ### Many uses -/

section Uses

variable {s : Scheduler} {start : Float}

/-- What one use keeps, all uses keep. -/
theorem inStretch_useAll (h : s.InStretch [] ⟨start, []⟩) (us : List Use) :
    (s.useAll us).1.period = s.period ∧ (s.useAll us).1.InStretch (s.useAll us).2 (.ofUses start us) := by
  induction us using List.reverseRecOn with
  | nil => exact ⟨rfl, h⟩
  | append_singleton us u ih =>
    rw [useAll_concat, Stretch.ofUses_concat]
    obtain ⟨⟨c, dues⟩, hc⟩ : ∃ r, s.useAll us = r := ⟨_, rfl⟩
    rw [hc] at ih ⊢
    obtain ⟨hperiod, hin⟩ := ih
    cases u with
    | restart now => exact ⟨hperiod, inStretch_started c.period now⟩
    | poll now =>
      cases hcount : (Stretch.ofUses start us).count c.period now with
      | ok n =>
        obtain ⟨due, c', hpoll, hperiod', -, hin'⟩ := hin.poll hcount
        simp only [use, hpoll]
        exact ⟨hperiod'.trans hperiod, hin'⟩
      | error err =>
        obtain ⟨hpoll, hin'⟩ := hin.failed hcount
        simp only [use, hpoll]
        exact ⟨hperiod, hin'⟩

theorem eq_of_create {frequency : Rate} (h : create frequency start = .ok s) : s = ⟨s.period, start, 0⟩ := by
  unfold create at h
  split at h
  · exact nomatch h
  · split at h
    · obtain rfl := Except.ok.inj h
      rfl
    · exact nomatch h

/-- **Every period is handed out once.**  A scheduler is created and then polled and restarted, in any order and at any
readings of its clock.  What it has handed out since it was started last, poll by poll, adds up to the greatest count of
these polls, or to zero; and this is what it has consumed.  The next poll hands out what that goes on by, if the periods
can be counted, and else fails and leaves the scheduler as it is. -/
theorem polls_hand_out_once {frequency : Rate} (h : create frequency start = .ok s) (us : List Use) :
    ∃ c dues, s.useAll us = (c, dues) ∧
      IsGreatest {n : Int | n = 0 ∨ n ∈ (Stretch.ofUses start us).counts s.period} c.consumed ∧
      dues.sum = c.consumed ∧
      ∀ now,
        (∀ n, (Stretch.ofUses start us).count s.period now = .ok n → ∃ due c', c.poll now = .ok (due, c') ∧
          s.useAll (us ++ [.poll now]) = (c', dues ++ [due]) ∧ c'.consumed = c.consumed + due) ∧
        ∀ err, (Stretch.ofUses start us).count s.period now = .error err →
          c.poll now = .error err ∧ s.useAll (us ++ [.poll now]) = (c, dues) := by
  have hnew : s.InStretch [] ⟨start, []⟩ := eq_of_create h ▸ inStretch_started s.period start
  obtain ⟨⟨c, dues⟩, hc⟩ : ∃ r, s.useAll us = r := ⟨_, rfl⟩
  obtain ⟨hperiod, hin⟩ := inStretch_useAll hnew us
  rw [hc] at hperiod hin
  refine ⟨c, dues, hc, hperiod ▸ hin.consumed, hin.dues, fun now => ⟨fun n hcount => ?_, fun err hcount => ?_⟩⟩
  · rw [← hperiod] at hcount
    obtain ⟨due, c', hpoll, -, hmore, -⟩ := hin.poll hcount
    refine ⟨due, c', hpoll, ?_, hmore⟩
    rw [useAll_concat, hc]
    simp only [use, hpoll]
  · rw [← hperiod] at hcount
    obtain ⟨hpoll, -⟩ := hin.failed hcount
    refine ⟨hpoll, ?_⟩
    rw [useAll_concat, hc]
    simp only [use, hpoll]

end Uses

/-- Two periods a second.  Two pass until a restart and three more after it; then the clock goes back behind the start,
and on its way up again it is polled before it has made good the time. -/
def wavering : List Use := [.poll 1.25, .restart 1.0, .poll 2.75, .poll (-3.0), .poll 2.0]

/-- The count below zero and the repeated two hand out nothing, and the fourth period is handed out when it has passed. -/
theorem polls_hand_out_once_wavering :
    ∃ s c c', create (.real 2.0) 0.0 = .ok s ∧ s.useAll wavering = (c, [3, 0, 0]) ∧
      IsGreatest {n : Int | n = 0 ∨ n ∈ [3, -7, 2]} c.consumed ∧ c.poll 3.0 = .ok (1, c') ∧
      c'.consumed = c.consumed + 1 := by
  obtain ⟨s, hs⟩ : ∃ s, create (.real 2.0) 0.0 = .ok s := ⟨_, rfl⟩
  obtain rfl : (⟨1.0 / 2.0, 0.0, 0⟩ : Scheduler) = s := Except.ok.inj hs
  obtain ⟨c, dues, hc, hgreatest, -, hnext⟩ := polls_hand_out_once hs wavering
  have hcounts : (Stretch.ofUses 0.0 wavering).counts (1.0 / 2.0) = [3, -7, 2] := by decide +kernel
  have hcount : (Stretch.ofUses 0.0 wavering).count (1.0 / 2.0) 3.0 = .ok 4 := by decide +kernel
  obtain ⟨due, c', hpoll, hafter, hmore⟩ := (hnext 3.0).1 4 hcount
  have hdues : (useAll ⟨1.0 / 2.0, 0.0, 0⟩ wavering).2 = [3, 0, 0] := by decide +kernel
  have hdue : (useAll ⟨1.0 / 2.0, 0.0, 0⟩ (wavering ++ [.poll 3.0])).2 = [3, 0, 0] ++ [1] := by decide +kernel
  rw [hc] at hdues
  obtain rfl : dues = [3, 0, 0] := hdues
  rw [hafter] at hdue
  obtain rfl : due = 1 := by simpa using hdue
  exact ⟨_, c, c', hs, hc, hcounts ▸ hgreatest, hpoll, hmore⟩

end Chip8.Scheduler

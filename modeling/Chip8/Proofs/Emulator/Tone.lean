import Mathlib
import Chip8.Proofs.Emulator.Progress
import Chip8.Proofs.Machine.Step

/-!
# What the audio device hears

Through whatever calls an emulator goes, failed ones included, the audio device is told on, off, on, off, and so
on, and always what the emulator keeps as its tone (`tone_protocol`).  The invariant is `ToneHistory`, between a
log and a tone.  It does not mention the sound timer: between runs the two disagree, since a run that ends switches
the tone off and leaves the timer as it is.  What makes it hold is that every push is guarded by a comparison with
the tone told last; that the timers cannot start a tone, only end it, is what one cycle adds (`Cycle.toneStep`).
-/

namespace Chip8

/-! ### Timers and signals -/

/-- Time does not start a tone. -/
theorem Timers.tone_of_ticks {t : Timers} {n : Nat} (h : (t.ticks n).tone) : t.tone := by
  induction n generalizing t with
  | zero => exact h
  | succ n ih =>
    have htick := ih h
    unfold tone tick countDown at htick
    unfold tone
    simp only [decide_eq_true_eq] at htick ⊢
    split at htick <;> omega

theorem Machine.tone_of_ticks {m : Machine} {n : Nat} (h : (m.ticks n).tone) : m.tone :=
  Timers.tone_of_ticks h

/-- A machine has nothing to say about the tone. -/
theorem Machine.exec_signals {m m' : Machine} {w : Word} {eff : Effect} (h : m.exec w = .ok (m', eff)) :
    eff.signals.testBit 1 = false ∧ eff.signals.wantsExit = false := by
  obtain ⟨i, -, hp⟩ := exec_eq_ok_iff.mp h
  rw [perform_signals hp]
  split <;> exact ⟨rfl, rfl⟩

namespace Emulator

/-! ### The tones in a log -/

/-- The tones that the audio device was told, in order. -/
def tonesOf (rs : List Request) : List Bool :=
  rs.filterMap fun
    | .tone on => some on
    | _ => none

@[simp] theorem tonesOf_append (rs rs' : List Request) : tonesOf (rs ++ rs') = tonesOf rs ++ tonesOf rs' :=
  List.filterMap_append

/-- A request that is not for the audio device. -/
def Quiet : Request → Prop
  | .tone _ => False
  | _ => True

def Tells (r : Request) : Prop := ∃ on, r = .tone on

theorem not_tells_of_quiet {r : Request} (h : Quiet r) : ¬ Tells r := by
  rintro ⟨on, rfl⟩
  exact h

theorem tonesOf_of_quiet {rs : List Request} (h : ∀ r ∈ rs, Quiet r) : tonesOf rs = [] := by
  unfold tonesOf
  rw [List.filterMap_eq_nil_iff]
  intro r hr
  have := h r hr
  cases r <;> first | rfl | exact this.elim

theorem tonesOf_toneRequests (told tone : Bool) :
    tonesOf (toneRequests told tone) = if tone = told then [] else [tone] := by
  unfold toneRequests
  split <;> rfl

theorem testBit_toneSignal (told tone : Bool) :
    (toneSignal told tone).testBit 1 ↔ ¬ tonesOf (toneRequests told tone) = [] := by
  rw [tonesOf_toneRequests]
  unfold toneSignal
  split
  · simp
  · exact iff_of_true rfl nofun

/-! ### The invariant -/

/-- What the audio device was told, against the tone that the emulator keeps. -/
structure ToneHistory (log : List Request) (tone : Bool) : Prop where
  /-- On, off, on, off, and so on. -/
  alternates : ∀ i on, (tonesOf log)[i]? = some on → on = (i % 2 == 0)
  /-- Whenever the device is told a tone, it is told at once to act on it. -/
  played : ∀ i on, log[i]? = some (.tone on) → log[i + 1]? = some .play
  /-- The tone is the one told last, and off before any. -/
  last : tone = (tonesOf log).getLastD false

section History

variable {log rs : List Request} {tone : Bool}

theorem ToneHistory.nil : ToneHistory [] false := ⟨by simp [tonesOf], by simp, rfl⟩

theorem ToneHistory.followed (h : ToneHistory log tone) : Followed Tells .play log := by
  rintro i _ hi ⟨on, rfl⟩
  exact h.played i on hi

/-- Requests that are not for the audio device change nothing. -/
theorem ToneHistory.quiet (h : ToneHistory log tone) (hrs : ∀ r ∈ rs, Quiet r) :
    ToneHistory (log ++ rs) tone := by
  have htones : tonesOf (log ++ rs) = tonesOf log := by
    rw [tonesOf_append, tonesOf_of_quiet hrs, List.append_nil]
  have hfollowed := h.followed.append (followed_of_forall_not fun r hr => not_tells_of_quiet (hrs r hr))
  refine ⟨by rw [htones]; exact h.alternates, fun i on hi => ?_, by rw [htones]; exact h.last⟩
  exact hfollowed i _ hi ⟨on, rfl⟩

/-- The tone is on after an odd number of tones. -/
theorem ToneHistory.tone_eq (h : ToneHistory log tone) : tone = ((tonesOf log).length % 2 == 1) := by
  rw [h.last]
  rcases List.eq_nil_or_concat (tonesOf log) with hnil | ⟨ons, on, hons⟩
  · rw [hnil]
    rfl
  · rw [List.concat_eq_append] at hons
    have hon := h.alternates ons.length on (by simp [hons])
    rw [hons, List.getLastD_concat, List.length_append, hon]
    rcases Nat.mod_two_eq_zero_or_one ons.length with hmod | hmod <;> simp [Nat.add_mod, hmod]

/-- A tone that differs from the one told last can be told. -/
theorem ToneHistory.push (h : ToneHistory log tone) {on : Bool} (hon : on ≠ tone) :
    ToneHistory (log ++ [.tone on, .play]) on := by
  have htones : tonesOf (log ++ [.tone on, .play]) = tonesOf log ++ [on] := tonesOf_append _ _
  refine ⟨fun i b hi => ?alternates, fun i b hi => ?played, by rw [htones]; simp⟩
  case alternates =>
    rw [htones] at hi
    rcases Nat.lt_or_ge i (tonesOf log).length with hlt | hge
    · rw [List.getElem?_append_left hlt] at hi
      exact h.alternates i b hi
    · rw [List.getElem?_append_right hge, List.getElem?_singleton] at hi
      split at hi
      case isTrue hzero =>
        -- the new tone is the other one, and its place has the other parity
        obtain rfl : on = b := Option.some.inj hi
        have hi : i = (tonesOf log).length := by omega
        rw [h.tone_eq, ← hi] at hon
        rcases Nat.mod_two_eq_zero_or_one i with hmod | hmod <;> simpa [hmod] using hon
      case isFalse => exact nomatch hi
  case played =>
    have hplay : ¬ Tells .play := by rintro ⟨on, hon⟩; exact nomatch hon
    exact h.followed.append (followed_pair (.tone on) hplay) i _ hi ⟨b, rfl⟩

theorem ToneHistory.tell (h : ToneHistory log tone) (on : Bool) :
    ToneHistory (log ++ toneRequests tone on) on := by
  unfold toneRequests
  split
  case isTrue hsame =>
    rw [hsame, List.append_nil]
    exact h
  case isFalse hother => exact h.push hother

end History

/-! ### One cycle -/

section Cycle

variable {i : Intake} {e e' : Emulator} {rs log : List Request} {out : Except CycleError Signals}

theorem quiet_traceRequests (e : Emulator) (word : Word) : ∀ r ∈ e.traceRequests word, Quiet r := by
  unfold traceRequests
  split <;> simp [Quiet]

theorem quiet_warningRequests (eff : Effect) : ∀ r ∈ warningRequests eff, Quiet r := by
  unfold warningRequests
  split <;> simp [Quiet]

theorem quiet_frameRequests (f : Frame) (signals : Signals) : ∀ r ∈ frameRequests f signals, Quiet r := by
  unfold frameRequests
  split <;> simp [Quiet]

/-- A cycle keeps the invariant, however it ends. -/
theorem Cycle.toneHistory (hc : Cycle i e rs e' out) (h : ToneHistory log e.tone) :
    ToneHistory (log ++ rs) e'.tone := by
  cases hc with
  | left | lost => simpa [taking] using h
  | failed => exact h.quiet (quiet_traceRequests _ _)
  | untimed =>
    simp only [← List.append_assoc]
    exact ((h.quiet (quiet_traceRequests _ _)).quiet (quiet_warningRequests _)).tell _
  | @done word _ eff =>
    simp only [← List.append_assoc]
    have hbefore := (h.quiet ((e.taking i).quiet_traceRequests word)).quiet (quiet_warningRequests eff)
    exact ((hbefore.tell _).tell _).quiet (quiet_frameRequests _ _)

/-- What one cycle does for the audio device. -/
structure ToneStep (polled : Signals) (rs : List Request) (e' : Emulator) (out : Except CycleError Signals) :
    Prop where
  /-- It never switches the tone off and then on. -/
  told : tonesOf rs ∈ [[], [true], [false], [true, false]]
  /-- Behind an instruction, the tone is the one of the sound timer. -/
  follows : ∀ signals, out = .ok signals → ¬ signals.wantsExit →
    e'.tone = decide (0 < e'.machine.timers.sound)
  /-- If the input device keeps out of it, the signals of the cycle say whether the device was told anything. -/
  signalled : ∀ signals, out = .ok signals → polled.testBit 1 = false →
    (signals.testBit 1 ↔ tonesOf rs ≠ [])

theorem tonesOf_done (e : Emulator) (word : Word) (eff : Effect) (told t t' : Bool) (f : Frame)
    (signals : Signals) :
    tonesOf (e.traceRequests word ++ warningRequests eff ++ toneRequests told t ++ toneRequests t t' ++
      frameRequests f signals) = tonesOf (toneRequests told t) ++ tonesOf (toneRequests t t') := by
  simp only [tonesOf_append, tonesOf_of_quiet (quiet_traceRequests _ _),
    tonesOf_of_quiet (quiet_warningRequests _), tonesOf_of_quiet (quiet_frameRequests _ _), List.nil_append,
    List.append_nil]

theorem Cycle.toneStep (hc : Cycle i e rs e' out) : ToneStep i.signals rs e' out := by
  cases hc with
  | left hexit =>
    refine ⟨by simp [tonesOf], ?_, ?_⟩
    · rintro _ ⟨⟩ hstay
      exact (hstay hexit).elim
    · rintro _ ⟨⟩ hbit
      simp [hbit, tonesOf]
  | lost => exact ⟨by simp [tonesOf], nofun, nofun⟩
  | failed => exact ⟨by simp [tonesOf_of_quiet (quiet_traceRequests _ _)], nofun, nofun⟩
  | @untimed word m eff err =>
    refine ⟨?_, nofun, nofun⟩
    simp only [tonesOf_append, tonesOf_of_quiet (quiet_traceRequests _ _),
      tonesOf_of_quiet (quiet_warningRequests _), tonesOf_toneRequests]
    cases e.tone <;> cases m.tone <;> simp
  | @done word m eff due scheduler signals hstay hfetch hexec hpoll hsignals =>
    have hticks : (m.ticks due).tone → m.tone := Machine.tone_of_ticks
    refine ⟨?_, ?_, ?_⟩
    · rw [tonesOf_done]
      simp only [tonesOf_toneRequests]
      -- off and then on would need timers that start a tone
      revert hticks
      cases e.tone <;> cases m.tone <;> cases (m.ticks due).tone <;> simp
    · rintro _ ⟨⟩ -
      rfl
    · rintro _ ⟨⟩ hbit
      rw [tonesOf_done, hsignals, Ne, List.append_eq_nil_iff, not_and_or]
      simp only [Nat.testBit_or, hbit, (Machine.exec_signals hexec).1, Bool.or_eq_true, testBit_toneSignal,
        Bool.false_eq_true, false_or]

end Cycle

/-! ### Calls -/

section Calls

variable {W : Type} {p : Peripherals (StateM W)} {e : Emulator} {s : Scene W}

theorem quiet_of_aside {r : Request} (h : r.Aside) : Quiet r := by
  cases r <;> trivial

/-- Whatever a cycle comes to, it keeps the invariant, and so does what is done around cycles. -/
theorem kept_toneHistory (p : Peripherals (StateM W)) :
    Kept p (fun _ => True) fun e s => ToneHistory s.log e.tone := by
  refine .of_log (L := fun e log => ToneHistory log e.tone) trivial ?cycle ?aside ?silence (fun _ _ _ h => h)
    (fun _ h => h)
  case cycle =>
    intro i e rs e' out log hc _ h
    exact hc.toneHistory h
  case aside =>
    intro r e log hr h
    exact h.quiet (by simpa using quiet_of_aside hr)
  case silence =>
    intro e log h
    exact h.tell false

/-- A run keeps the invariant as long as it goes on. -/
theorem ToneHistory.underway (h : ToneHistory s.log e.tone) (count : Nat) :
    ToneHistory (play (e.underway p.recorded count) s).2.log
      (play (e.underway p.recorded count) s).1.1.tone :=
  (kept_toneHistory p).underway rfl trivial h

/-- Every call keeps the invariant. -/
theorem ToneHistory.call (c : Call) (h : ToneHistory s.log e.tone) :
    ToneHistory (play (call p.recorded e c) s).2.log (play (call p.recorded e c) s).1.tone := by
  by_cases hc : c = .reset
  · subst hc
    obtain ⟨now, w, hreset⟩ := play_reset p e s
    simpa [Emulator.call, hreset] using h.tell false
  · rw [play_call]
    exact (kept_toneHistory p).attend hc rfl trivial h

end Calls

/-! ### The protocol -/

/-- **What the audio device hears, whatever is called.**  An emulator that has told the audio device nothing,
with any machine, configuration and scheduler, goes through any calls, in any world.  Then the tones it has told
alternate from on, each is followed by the request to act on it, and the emulator keeps the tone told last; and so
it is after any number of cycles of a run that follows.  Whatever the emulator, one step tells one of nothing, on,
off, and on before off, with the signals and the tone that go with it (`ToneStep`), and every run and every reset
leaves the tone off. -/
theorem tone_protocol {W : Type} (p : Peripherals (StateM W)) :
    (∀ config machine scheduler (w : W) cs, ∃ e s,
      play (calls p.recorded { config, machine, scheduler } cs) ⟨[], w⟩ = (e, s) ∧
        ToneHistory s.log e.tone ∧
        ∀ count, ∃ e' r s', play (e.underway p.recorded count) s = ((e', r), s') ∧
          ToneHistory s'.log e'.tone) ∧
    (∀ (e : Emulator) s, ∃ rs e' out w,
      play (e.step p.recorded) s = ((e', out), ⟨s.log ++ rs, w⟩) ∧
        ToneStep (p.poll s.world).1 rs e' out) ∧
    (∀ (e : Emulator) s max, (play (e.run p.recorded max) s).1.1.tone = false) ∧
    ∀ (e : Emulator) s, (play (e.reset p.recorded) s).1.tone = false := by
  refine ⟨fun config machine scheduler w cs => ?calls, fun e s => ?step, fun e s max => ?run,
    fun e s => ?reset⟩
  case calls =>
    have h := calls_induction (P := fun e log => ToneHistory log e.tone) (p := p)
      (fun c _ _ h => h.call c) (e := { config, machine, scheduler }) (s := ⟨[], w⟩) cs .nil
    exact ⟨_, _, rfl, h, fun count => ⟨_, _, _, rfl, h.underway count⟩⟩
  case step =>
    obtain ⟨i, rs, e', out, w, hstep, hsignals, -, hc⟩ := step_cycle p e s
    exact ⟨rs, e', out, w, hstep, hsignals ▸ hc.toneStep⟩
  case run =>
    obtain ⟨e', executed, failure, s', w, -, hrun⟩ := play_within p e s (limitOf max)
    rw [run, hrun]
  case reset =>
    obtain ⟨now, w, hreset⟩ := play_reset p e s
    rw [hreset]

end Emulator

end Chip8

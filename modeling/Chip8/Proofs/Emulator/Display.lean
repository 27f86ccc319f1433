import Mathlib
import Chip8.Proofs.Emulator.Progress
import Chip8.Proofs.Machine.History

/-!
# What the display shows

The frame that the display was handed last is the one of the machine, after every call and through whatever fails on
the way (`display_in_step`).  A frame is handed over only where the signals of a cycle ask for it, so what carries
this is that they always do: an instruction that raises no such signal draws nothing (`exec_screen`), and what the
input device adds to the signals takes none away.  The one exception is a cycle whose timers cannot be counted: it
fails between its instruction and its frame.
-/

namespace Chip8

/-- A word that is carried out without the signal for it leaves the screen alone. -/
theorem Machine.exec_screen {m m' : Machine} {w : Word} {eff : Effect} (h : m.exec w = .ok (m', eff))
    (hquiet : eff.signals.wantsRefresh = false) : m'.screen = m.screen := by
  obtain ⟨i, -, hp⟩ := exec_eq_ok_iff.mp h
  refine perform_screen hp ?_
  rw [perform_signals hp] at hquiet
  cases hdraws : i.draws with
  | false => rfl
  | true => simp [hdraws, Signals.refreshDisplay, Signals.wantsRefresh] at hquiet

namespace Emulator

/-! ### The frames in a log -/

/-- The frames that the display was handed, in order. -/
def framesOf (rs : List Request) : List Frame :=
  rs.filterMap fun
    | .frame f => some f
    | _ => none

@[simp] theorem framesOf_append (rs rs' : List Request) :
    framesOf (rs ++ rs') = framesOf rs ++ framesOf rs' :=
  List.filterMap_append

def HandsOver (r : Request) : Prop := ∃ f, r = .frame f

theorem framesOf_of_forall_not {rs : List Request} (h : ∀ r ∈ rs, ¬ HandsOver r) : framesOf rs = [] := by
  unfold framesOf
  rw [List.filterMap_eq_nil_iff]
  intro r hr
  cases r with
  | frame f => exact absurd ⟨f, rfl⟩ (h _ hr)
  | _ => rfl

/-- The display was handed a frame last, dark before any, and was told at once to show each. -/
structure DisplayHistory (log : List Request) (shown : Frame) : Prop where
  driven : ∀ i f, log[i]? = some (.frame f) → log[i + 1]? = some .drive
  last : (framesOf log).getLastD Framebuffer.blank.frame = shown

section History

variable {log rs : List Request} {shown : Frame}

theorem DisplayHistory.nil : DisplayHistory [] Framebuffer.blank.frame := ⟨by simp, rfl⟩

theorem DisplayHistory.followed (h : DisplayHistory log shown) : Followed HandsOver .drive log := by
  rintro i _ hi ⟨f, rfl⟩
  exact h.driven i f hi

theorem DisplayHistory.dark (h : DisplayHistory log shown) (hrs : ∀ r ∈ rs, ¬ HandsOver r) :
    DisplayHistory (log ++ rs) shown := by
  have hfollowed := h.followed.append (followed_of_forall_not hrs)
  refine ⟨fun i f hi => hfollowed i _ hi ⟨f, rfl⟩, ?_⟩
  rw [framesOf_append, framesOf_of_forall_not hrs, List.append_nil]
  exact h.last

theorem DisplayHistory.hand (h : DisplayHistory log shown) (f : Frame) :
    DisplayHistory (log ++ [.frame f, .drive]) f := by
  have hdrive : ¬ HandsOver .drive := by rintro ⟨f, hf⟩; exact nomatch hf
  have hfollowed := h.followed.append (followed_pair (.frame f) hdrive)
  refine ⟨fun i g hi => hfollowed i _ hi ⟨g, rfl⟩, ?_⟩
  have hframes : framesOf (log ++ [.frame f, .drive]) = framesOf log ++ [f] := framesOf_append _ _
  rw [hframes, List.getLastD_concat]

end History

/-! ### One cycle -/

section Cycle

variable {i : Intake} {e e' : Emulator} {rs log : List Request} {out : Except CycleError Signals}

theorem dark_traceRequests (e : Emulator) (word : Word) : ∀ r ∈ e.traceRequests word, ¬ HandsOver r := by
  unfold traceRequests HandsOver
  split <;> simp

theorem dark_warningRequests (eff : Effect) : ∀ r ∈ warningRequests eff, ¬ HandsOver r := by
  unfold warningRequests HandsOver
  split <;> simp

theorem dark_toneRequests (told tone : Bool) : ∀ r ∈ toneRequests told tone, ¬ HandsOver r := by
  unfold toneRequests HandsOver
  split <;> simp

/-- A cycle that counts its timers hands over its frame at the end, or leaves the screen as it is. -/
theorem Cycle.frames (hc : Cycle i e rs e' out) (hout : ∀ err, out ≠ .error (.timing err)) :
    ∃ dark, (∀ r ∈ dark, ¬ HandsOver r) ∧
      (rs = dark ∧ e'.machine.frame = e.machine.frame ∨
        rs = dark ++ [.frame e'.machine.frame, .drive]) := by
  have htaking : (e.taking i).machine.screen = e.machine.screen := by
    unfold taking
    cases i.keys <;> split <;> rfl
  cases hc with
  | left => exact ⟨[], by simp, .inl ⟨rfl, rfl⟩⟩
  | lost => exact ⟨[], by simp, .inl ⟨rfl, congrArg Framebuffer.frame htaking⟩⟩
  | failed =>
    exact ⟨_, dark_traceRequests _ _, .inl ⟨rfl, congrArg Framebuffer.frame htaking⟩⟩
  | untimed => exact absurd rfl (hout _)
  | @done word m eff due scheduler signals hstay hfetch hexec hpoll hsignals =>
    refine ⟨(e.taking i).traceRequests word ++ warningRequests eff ++ toneRequests e.tone m.tone ++
      toneRequests m.tone (m.ticks due).tone, ?_, ?_⟩
    · intro r hr
      simp only [List.mem_append] at hr
      rcases hr with ((hr | hr) | hr) | hr
      · exact dark_traceRequests _ _ r hr
      · exact dark_warningRequests _ r hr
      · exact dark_toneRequests _ _ r hr
      · exact dark_toneRequests _ _ r hr
    · unfold frameRequests
      cases hrefresh : signals.wantsRefresh with
      | true => exact .inr rfl
      | false =>
        have hquiet : eff.signals.wantsRefresh = false := by
          rw [hsignals] at hrefresh
          simp only [Signals.wantsRefresh, Nat.testBit_or, Bool.or_eq_false_iff] at hrefresh ⊢
          exact hrefresh.1.1.2
        have hscreen : (m.ticks due).screen = e.machine.screen :=
          (Machine.exec_screen hexec hquiet).trans htaking
        exact .inl ⟨List.append_nil _, congrArg Framebuffer.frame hscreen⟩

theorem Cycle.displayHistory (hc : Cycle i e rs e' out) (hout : ∀ err, out ≠ .error (.timing err))
    (h : DisplayHistory log e.machine.frame) : DisplayHistory (log ++ rs) e'.machine.frame := by
  obtain ⟨dark, hdark, ⟨rfl, hframe⟩ | rfl⟩ := hc.frames hout
  · rw [hframe]
    exact h.dark hdark
  · rw [← List.append_assoc]
    exact (h.dark hdark).hand _

end Cycle

/-! ### Calls -/

/-- The timers were counted, however a call ended. -/
def Timed (g : Progress) : Prop := ∀ err, g ≠ .failed (.timing err)

theorem timed_ofCycle {out : Except CycleError Signals} (h : Timed (.ofCycle out)) :
    ∀ err, out ≠ .error (.timing err) := by
  rintro err rfl
  exact h err rfl

theorem dark_of_aside {r : Request} (h : r.Aside) : ¬ HandsOver r := by
  rintro ⟨f, rfl⟩
  exact h

theorem kept_displayHistory {W : Type} (p : Peripherals (StateM W)) :
    Kept p Timed fun e s => DisplayHistory s.log e.machine.frame := by
  refine .of_log (L := fun e log => DisplayHistory log e.machine.frame) nofun ?cycle ?aside ?silence
    (fun _ _ _ h => h) ?load
  case cycle =>
    intro i e rs e' out log hc hgood h
    exact hc.displayHistory (timed_ofCycle hgood) h
  case aside =>
    intro r e log hr h
    refine h.dark fun r' hr' => ?_
    rw [List.mem_singleton.mp hr']
    exact dark_of_aside hr
  case silence =>
    intro e log h
    exact h.dark (dark_toneRequests _ _)
  case load =>
    intro e log machine program hload h
    obtain ⟨memory, rfl⟩ := Machine.load_eq_ok hload
    exact h

/-- **The display is in step with the machine, whatever is called.**  An emulator whose machine has just been
switched on, with any configuration, scheduler and world, goes through any calls but a reset.  As long as its timers
can be counted, the display was handed the frame of the machine last, and was told at once to show every frame that
it was handed.  So, whatever the emulator, a cycle that changes the frame ends by handing it over. -/
theorem display_in_step {W : Type} (p : Peripherals (StateM W)) :
    (∀ config random scheduler (w : W) cs, (∀ c ∈ cs, c ≠ .reset) → ∃ e gs s,
      play (attendAll p.recorded { config, machine := .powerOn random, scheduler } cs) ⟨[], w⟩ =
        ((e, gs), s) ∧
      ((∀ g ∈ gs, Timed g) → DisplayHistory s.log e.machine.frame)) ∧
    ∀ (e : Emulator) s, ∃ rs e' out w,
      play (e.step p.recorded) s = ((e', out), ⟨s.log ++ rs, w⟩) ∧
      ((∀ err, out ≠ .error (.timing err)) → e'.machine.frame ≠ e.machine.frame →
        [.frame e'.machine.frame, .drive] <:+ rs) := by
  constructor
  · intro config random scheduler w cs hcs
    exact ⟨_, _, _, rfl, fun hgood => (kept_displayHistory p).attendAll hcs rfl hgood .nil⟩
  · intro e s
    obtain ⟨i, rs, e', out, w, hplay, -, -, hc⟩ := step_cycle p e s
    refine ⟨rs, e', out, w, hplay, fun hout hchanged => ?_⟩
    obtain ⟨dark, -, ⟨-, hsame⟩ | rfl⟩ := hc.frames hout
    · exact absurd hsame hchanged
    · exact List.suffix_append _ _

/-- Nobody at the keys, and a clock that stands still. -/
def idle : Peripherals (StateM Unit) where
  poll := pure 0
  keys := pure none
  now := pure 0.0
  perform _ := pure ()

/-- A program that draws a digit lights the display. -/
theorem display_in_step_digit :
    ∃ e gs s, play (attendAll idle.recorded { config := {}, machine := .powerOn default, scheduler := ⟨0.5, 0.0, 0⟩ }
        [.load [0xD0, 0x05], .step]) ⟨[], ()⟩ = ((e, gs), s) ∧
      gs = [.ready, .ready] ∧ e.machine.frame ≠ Framebuffer.blank.frame ∧ DisplayHistory s.log e.machine.frame := by
  obtain ⟨e, gs, s, hplay, hhistory⟩ := (display_in_step idle).1 {} default ⟨0.5, 0.0, 0⟩ ()
    [.load [0xD0, 0x05], .step] (by simp)
  have hgs : gs = [.ready, .ready] := (congrArg (·.1.2) hplay).symm.trans (by decide +kernel)
  have hlit : e.machine.frame ≠ Framebuffer.blank.frame :=
    ne_of_eq_of_ne (congrArg (·.1.1.machine.frame) hplay).symm (by decide +kernel)
  refine ⟨e, gs, s, hplay, hgs, hlit, hhistory fun g hg => ?_⟩
  rw [hgs] at hg
  obtain rfl : g = .ready := by simpa using hg
  exact nofun

end Emulator

end Chip8

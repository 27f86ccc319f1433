import Mathlib
import Chip8.Proofs.Emulator.Parametric
import Chip8.Proofs.Machine.History
import Chip8.Proofs.Terminal.Keys
import Chip8.Terminal.Device
import Chip8.Window

/-!
# Keys on their way to the machine

A key vector has two homes: the input device, and the machine, which gets a copy.  An emulator asks for the vector only
when a poll reports new keys; so the two agree if a device reports each change of its vector at the poll that makes it,
compared with the vector of the poll before, and changes it at no other time.  `Reports` says this of an input device,
and `kept_keys` draws the conclusion.  The terminal and the window are such devices, whatever else is plugged in
(`keys_in_step`).
-/

namespace Chip8

variable {σ W : Type}

/-! ### Devices that report -/

/-- The key vector of an input device changes at polls only, and a poll that changes it says so, unless the user
leaves. -/
structure Reports (p : Peripherals (StateM W)) (held : W → KeyVector) : Prop where
  poll : ∀ w, ¬ (p.poll w).1.wantsExit → ¬ (p.poll w).1.hasInputs → held (p.poll w).2 = held w
  keys : ∀ w, p.keys w = (some ((held w).toNat : Int), w)
  now : ∀ w, held (p.now w).2 = held w
  perform : ∀ r w, held (p.perform r w).2 = held w

theorem Reports.keeping {p : Peripherals (StateM W)} {held : W → KeyVector} (h : Reports p held) (v : KeyVector) :
    (keeping fun w => held w = v).Outputs p.recorded p.recorded :=
  keeping_outputs (fun w hw => by rwa [h.keys]) (fun w hw => by rwa [h.now]) (fun r w hw => by rwa [h.perform])

/-- A device as input device, beside a clock and other devices, to which the requests go that are not its own. -/
def Peripherals.plugged {m : Type → Type} [Monad m] (d : Peripherals (StateT σ m)) (clock : m Float)
    (own : Request → Bool) (other : Request → m Unit) : Peripherals (StateT σ m) where
  poll := d.poll
  keys := d.keys
  now := StateT.lift clock
  perform r := if own r then d.perform r else StateT.lift (other r)

theorem Reports.plugged {d : Peripherals (StateT σ (StateM W))} {held : σ → KeyVector}
    (h : Reports d.merged (held ·.1)) (clock : StateM W Float) (own : Request → Bool)
    (other : Request → StateM W Unit) : Reports (d.plugged clock own other).merged (held ·.1) where
  poll := h.poll
  keys := h.keys
  now _ := rfl
  perform := by
    intro r s
    simp only [Peripherals.plugged, Peripherals.merged]
    split
    · exact h.perform r s
    · rfl

/-! ### The terminal -/

namespace Terminal

theorem reports (env : Environment (StateM W)) (tty : Tty (StateM W)) :
    Reports (peripherals env tty).merged (·.1.held) where
  poll := by
    intro s hstay hquiet
    exact not_not.mp fun hchanged => hquiet ((hasInputs_poll hstay).mpr hchanged)
  keys _ := rfl
  now _ := rfl
  perform := by
    intro r s
    cases r with
    | play => cases htone : s.1.tone <;> simp [peripherals, perform, Peripherals.merged, htone]
    | _ => rfl

end Terminal

/-! ### The window -/

namespace Window

section Poll

variable {graphics : Graphics (StateM W)} {s : Window × W} {w w' : W} {held : KeyVector}

theorem poll_of_closed (hexit : graphics.hasExit (graphics.dispatch s.2).2 = (true, w)) :
    merge (poll graphics) s = (.programExit, s.1, w) := by
  unfold poll
  simp only [merge_bind, merge_lift, hexit]
  rfl

theorem poll_of_open (hexit : graphics.hasExit (graphics.dispatch s.2).2 = (false, w))
    (hheld : heldKeys graphics Key.layout w = (held, w')) :
    merge (poll graphics) s = (if held ≠ s.1.held then .newInputs else 0, { s.1 with held }, w') := by
  unfold poll
  simp only [merge_bind, merge_lift, hexit, Bool.false_eq_true, if_false, merge_get, hheld]
  rfl

end Poll

theorem reports (env : Environment (StateM W)) (graphics : Graphics (StateM W)) :
    Reports (peripherals env graphics).merged (·.1.held) where
  poll := by
    intro s hstay hquiet
    simp only [peripherals, Peripherals.merged] at *
    obtain ⟨⟨exits, w⟩, hexit⟩ : ∃ r, graphics.hasExit (graphics.dispatch s.2).2 = r := ⟨_, rfl⟩
    obtain ⟨⟨held, w'⟩, hheld⟩ : ∃ r, heldKeys graphics Key.layout w = r := ⟨_, rfl⟩
    cases exits with
    | true =>
      rw [poll_of_closed hexit] at hstay
      simp at hstay
    | false =>
      rw [poll_of_open hexit hheld] at hquiet ⊢
      by_contra hchanged
      simp [hchanged] at hquiet
  keys _ := rfl
  now _ := rfl
  perform := by
    intro r s
    cases r <;> rfl

end Window

/-! ### One cycle -/

/-- No word touches the keys. -/
theorem Machine.exec_keys {m m' : Machine} {w : Word} {eff : Effect} (h : m.exec w = .ok (m', eff)) :
    m'.keys = m.keys := by
  obtain ⟨i, -, hp⟩ := exec_eq_ok_iff.mp h
  exact perform_keys hp

theorem KeyVector.ofInt_toNat (v : KeyVector) : KeyVector.ofInt (v.toNat : Int) = v := by
  unfold KeyVector.ofInt
  simp

namespace Emulator

section Cycle

variable {i : Intake} {e e' : Emulator} {rs : List Request} {out : Except CycleError Signals}

theorem Cycle.stays (hc : Cycle i e rs e' out) (hstay : Progress.ofCycle out ≠ .left) : ¬ i.signals.wantsExit := by
  cases hc with
  | left hexit => simp [Progress.ofCycle, hexit] at hstay
  | lost h | failed h | untimed h | done h => exact h

/-- A cycle that the user does not end leaves the machine with the keys that it took in, even if it fails. -/
theorem Cycle.keys (hc : Cycle i e rs e' out) (hstay : Progress.ofCycle out ≠ .left) :
    e'.machine.keys = (e.taking i).machine.keys := by
  cases hc with
  | left hexit => simp [Progress.ofCycle, hexit] at hstay
  | lost => rfl
  | failed => rfl
  | untimed _ _ hexec => exact Machine.exec_keys hexec
  | done _ _ hexec =>
    have hkeys := Machine.exec_keys hexec
    exact hkeys

end Cycle

section Run

variable {p : Peripherals (StateM W)} {held : W → KeyVector} {e e' : Emulator} {s s' : Scene W}
  {out : Except CycleError Signals}

/-- Behind its poll, a cycle leaves the vector of the device alone. -/
theorem held_of_step (h : Reports p held) (hstep : play (e.step p.recorded) s = ((e', out), s')) :
    held s'.world = held (p.poll s.world).2 := by
  obtain ⟨-, hkeeps⟩ := ActionRel.answered (h.keeping _) e (p.poll s.world).1
  have hheld := hkeeps ⟨s.log, (p.poll s.world).2⟩ rfl
  rw [step, play_bind, play_poll] at hstep
  rwa [hstep] at hheld

/-- Behind a cycle that the user does not end, the machine has the keys of the device if the poll reported some, and else
those that it had. -/
theorem keys_of_step (h : Reports p held) (hstep : play (e.step p.recorded) s = ((e', out), s'))
    (hstay : Progress.ofCycle out ≠ .left) :
    e'.machine.keys = if (p.poll s.world).1.hasInputs then held s'.world else e.machine.keys := by
  obtain ⟨i, rs, -, hsignals, hvector, hc⟩ := cycle_of_step hstep
  rw [held_of_step h hstep, hc.keys hstay, taking, hsignals]
  split
  · rw [hvector, h.keys]
    exact KeyVector.ofInt_toNat _
  · rfl

/-- **The machine has the keys of the device**, as long as the user does not leave. -/
theorem kept_keys (h : Reports p held) : Kept p (· ≠ .left) fun e s => e.machine.keys = held s.world where
  ready := nofun
  step := by
    intro e s e' out s' hstep hstay hkeys
    rw [keys_of_step h hstep hstay]
    split
    · rfl
    · rename_i hquiet
      obtain ⟨i, rs, -, hsignals, -, hc⟩ := cycle_of_step hstep
      have hpolled : ¬ (p.poll s.world).1.wantsExit := hsignals ▸ hc.stays hstay
      rw [held_of_step h hstep, h.poll s.world hpolled hquiet]
      exact hkeys
  now := by
    intro e s hkeys
    rwa [h.now]
  aside := by
    intro r e s _ hkeys
    rwa [h.perform]
  silence := by
    intro e s hkeys
    have hsilent : (play (e.silence p.recorded) s).1.machine = e.machine := by
      obtain ⟨w, hw⟩ := play_silence p e s
      rw [hw]
    obtain ⟨-, hkeeps⟩ := ActionRel.silence (h.keeping _) e
    rw [hsilent, hkeeps s rfl]
    exact hkeys
  books _ _ _ hkeys := hkeys
  load := by
    intro e s machine program hload hkeys
    obtain ⟨memory, rfl⟩ := Machine.load_eq_ok hload
    exact hkeys

end Run

/-! ### Calls -/

/-- An emulator, whose machine has just been switched on, goes through any calls but a reset, whatever else is plugged
in.  If the user has not left, the machine then has the keys that the device answers. -/
def KeysInStep (d : Peripherals (StateT σ (StateM W))) (t₀ : σ) : Prop :=
  ∀ clock own other config random scheduler w cs, (∀ c ∈ cs, c ≠ .reset) → ∃ e gs t w',
    attendAll (d.plugged clock own other) { config, machine := .powerOn random, scheduler } cs t₀ w =
      (((e, gs), t), w') ∧
    (.left ∉ gs → (d.keys t w').1.1 = some (e.machine.keys.toNat : Int))

theorem keysInStep_of_reports {d : Peripherals (StateT σ (StateM W))} {held : σ → KeyVector} {t₀ : σ}
    (h : Reports d.merged (held ·.1)) (hfresh : held t₀ = 0) : KeysInStep d t₀ := by
  intro clock own other config random scheduler w cs hcs
  obtain ⟨⟨⟨⟨e, gs⟩, t⟩, w'⟩, hcalls⟩ : ∃ r, attendAll (d.plugged clock own other)
    { config, machine := .powerOn random, scheduler } cs t₀ w = r := ⟨_, rfl⟩
  obtain ⟨log, hplay⟩ := merging.attendAll (merging_whole (d.plugged clock own other))
    { config, machine := .powerOn random, scheduler } cs t₀ w []
  rw [hcalls] at hplay
  refine ⟨e, gs, t, w', hcalls, fun hstay => ?_⟩
  have hgood : ∀ g ∈ gs, g ≠ .left := by
    rintro _ hleft rfl
    exact hstay hleft
  have hkeys : e.machine.keys = held t :=
    (kept_keys (h.plugged clock own other)).attendAll hcs hplay hgood hfresh.symm
  rw [hkeys]
  exact congrArg Prod.fst (h.keys (t, w'))

/-- **No key is lost on the way.**  Between a terminal that has just been opened, or a window, and the machine of an
emulator, whatever bytes come and keys are held, and whatever the clocks read.  A cycle that fails passes its keys on
like any other. -/
theorem keys_in_step (env : Environment (StateM W)) :
    (∀ tty saved released size, KeysInStep (Terminal.peripherals env tty) { saved, released, size }) ∧
      ∀ graphics, KeysInStep (Window.peripherals env graphics) {} :=
  ⟨fun tty _ _ _ => keysInStep_of_reports (Terminal.reports env tty) rfl,
    fun graphics => keysInStep_of_reports (Window.reports env graphics) rfl⟩

/-- Time stands still. -/
def still : Environment (StateM Unit) where
  now := pure 0.0
  pause _ := pure ()
  note _ := pure ()

/-- A terminal at which one byte is typed again and again. -/
def typing (b : UInt8) : Tty (StateM Unit) where
  isTerminal := pure true
  settings := pure ""
  setRaw := pure ()
  restore _ := pure ()
  size := pure (80, 24)
  pending := pure [b]
  write _ := pure ()

/-- With `q` typed, a machine at a word that is no instruction has key `4`, as the terminal does. -/
theorem keys_in_step_q :
    ∃ e gs t w, attendAll ((Terminal.peripherals still (typing 0x71)).plugged (pure 0.0) (fun _ => true)
        fun _ => pure ()) { config := {}, machine := .powerOn default, scheduler := ⟨0.5, 0.0, 0⟩ }
        [.load [0xFF, 0xFF], .step] { released := 0.0, size := (80, 24) } () = (((e, gs), t), w) ∧
      gs = [.ready, .failed (.fault (.unrecognized 0x200 0xFFFF))] ∧ e.machine.keys = Key.bit 4 ∧
      ((Terminal.peripherals still (typing 0x71)).keys t w).1.1 = some (e.machine.keys.toNat : Int) := by
  obtain ⟨e, gs, t, w, hcalls, hkeys⟩ := (keys_in_step still).1 (typing 0x71) none 0.0 (80, 24) (pure 0.0)
    (fun _ => true) (fun _ => pure ()) {} default ⟨0.5, 0.0, 0⟩ () [.load [0xFF, 0xFF], .step] (by simp)
  have hgs : gs = [.ready, .failed (.fault (.unrecognized 0x200 0xFFFF))] :=
    (congrArg (·.1.1.2) hcalls).symm.trans (by decide +kernel)
  have hq : e.machine.keys = Key.bit 4 := (congrArg (·.1.1.1.machine.keys) hcalls).symm.trans (by decide +kernel)
  exact ⟨e, gs, t, w, hcalls, hgs, hq, hkeys (by simp [hgs])⟩

end Emulator

end Chip8

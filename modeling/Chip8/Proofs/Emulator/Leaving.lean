import Mathlib
import Chip8.Proofs.Emulator.Keys

/-!
# Leaving, and what is held meanwhile

A cycle at whose poll the user leaves gives nothing to the machine, and what that poll does to the key vector of the device
is not reported, not even later: the next poll compares with the vector that it finds.  So if the emulator takes up its work
again, its machine has the keys of the device once a cycle reports some; until then it has them only if leaving has left
the vector alone (`agree_after_leaving_iff`).

A window leaves its vector alone at such a poll.  A terminal does not: it lets keys go if it is time to, and the bytes in front
of the one that asks to leave are taken in (`keys_after_leaving`).
-/

namespace Chip8

variable {W : Type}

namespace Emulator

/-! ### The cycles of a trail -/

section Trail

variable {p : Peripherals (StateM W)} {held : W → KeyVector} {e e' : Emulator} {s s' : Scene W}

/-- A trail up to one of its cycles, that cycle, and the rest of the trail. -/
theorem Trail.exists_cycle {ts us : List (Turn W)} {t : Turn W} (h : Trail p e s (ts ++ t :: us) e' s') :
    ∃ e₁ s₁ e₂ s₂, Trail p e s ts e₁ s₁ ∧ play (e₁.step p.recorded) s₁ = ((e₂, t.out), s₂) ∧ t.world = s₁.world ∧
      Trail p e₂ s₂ us e' s' := by
  obtain ⟨all, hall⟩ : ∃ all, ts ++ t :: us = all := ⟨_, rfl⟩
  rw [hall] at h
  -- over the trail and not over the cycles, as there may be anything in front of the first of them
  induction h generalizing ts with
  | rest => simp at hall
  | cycle hstep hrest ih =>
    rcases List.append_eq_cons_iff.mp hall with ⟨rfl, hcycle⟩ | ⟨ts, rfl, hcycles⟩
    · obtain ⟨rfl, rfl⟩ := List.cons.inj hcycle
      exact ⟨_, _, _, _, .rest _ _, hstep, rfl, hrest⟩
    · obtain ⟨e₁, s₁, e₂, s₂, hbefore, hlater, hworld, hafter⟩ := ih hcycles.symm
      exact ⟨e₁, s₁, e₂, s₂, .cycle hstep hbefore, hlater, hworld, hafter⟩
  | between hbetween _ ih =>
    obtain ⟨e₁, s₁, e₂, s₂, hbefore, hstep, hworld, hafter⟩ := ih hall
    exact ⟨e₁, s₁, e₂, s₂, .between hbetween hbefore, hstep, hworld, hafter⟩

/-- What is done between cycles touches neither the keys of the machine nor those of the device. -/
theorem Between.keys (h : Reports p held) (hbetween : Between p e s e' s') :
    e'.machine.keys = e.machine.keys ∧ held s'.world = held s.world := by
  cases hbetween with
  | now => exact ⟨rfl, h.now _⟩
  | aside => exact ⟨rfl, h.perform _ _⟩
  | silence =>
    obtain ⟨w, hw⟩ := play_silence p e s
    refine ⟨by rw [hw], (ActionRel.silence (h.keeping _) e).2 s rfl⟩
  | books => exact ⟨rfl, rfl⟩
  | load hload =>
    obtain ⟨memory, rfl⟩ := Machine.load_eq_ok hload
    exact ⟨rfl, rfl⟩

/-- A cycle at whose poll the user leaves is left. -/
theorem Trail.not_wantsExit {ts : List (Turn W)} (htrail : Trail p e s ts e' s') :
    ∀ t ∈ ts, t.progress ≠ .left → ¬ (p.poll t.world).1.wantsExit := by
  induction htrail with
  | rest => simp
  | cycle hstep _ ih =>
    refine List.forall_mem_cons.mpr ⟨fun hstay => ?_, ih⟩
    obtain ⟨i, rs, -, hsignals, -, hc⟩ := cycle_of_step hstep
    exact hsignals ▸ hc.stays hstay
  | between _ _ ih => exact ih

/-- At a poll at which the user leaves, nothing is done to the emulator. -/
theorem eq_of_step_of_exit {out : Except CycleError Signals} (hexit : (p.poll s.world).1.wantsExit)
    (hstep : play (e.step p.recorded) s = ((e', out), s')) : e' = e := by
  rw [step, play_bind, play_poll, answered, if_pos hexit] at hstep
  exact (congrArg (·.1.1) hstep).symm

/-- While the user leaves at every poll, the machine keeps its keys; and the device does if no such poll changes them. -/
theorem Trail.keys_of_exits {ts : List (Turn W)} (h : Reports p held) (htrail : Trail p e s ts e' s')
    (hexits : ∀ t ∈ ts, (p.poll t.world).1.wantsExit) :
    e'.machine.keys = e.machine.keys ∧
      ((∀ t ∈ ts, held (p.poll t.world).2 = held t.world) → held s'.world = held s.world) := by
  induction htrail with
  | rest => exact ⟨rfl, fun _ => rfl⟩
  | cycle hstep _ ih =>
    obtain ⟨hexit, hexits⟩ := List.forall_mem_cons.mp hexits
    obtain ⟨hkeys, hheld⟩ := ih hexits
    -- the cycle is left before the machine is touched, but the poll itself may change what the device holds
    refine ⟨by rw [hkeys, eq_of_step_of_exit hexit hstep], fun hintact => ?_⟩
    obtain ⟨hpoll, hpolls⟩ := List.forall_mem_cons.mp hintact
    rw [hheld hpolls, held_of_step h hstep, hpoll]
  | between hbetween _ ih =>
    obtain ⟨hkeys, hheld⟩ := hbetween.keys h
    obtain ⟨hkeys', hheld'⟩ := ih hexits
    exact ⟨hkeys'.trans hkeys, fun hintact => (hheld' hintact).trans hheld⟩

/-- **After leaving.**  The machine has the keys of the device, and the user leaves, once or again and again.  If later a
cycle goes on, the machine has the keys of the device behind it exactly if the cycle reports keys, or else if leaving has not
changed them. -/
theorem agree_after_leaving_iff (h : Reports p held) {ts : List (Turn W)} {t : Turn W}
    (htrail : Trail p e s (ts ++ [t]) e' s') (hexits : ∀ u ∈ ts, (p.poll u.world).1.wantsExit)
    (hstay : t.progress ≠ .left) (hkeys : e.machine.keys = held s.world) :
    e'.machine.keys = held s'.world ↔ (p.poll t.world).1.hasInputs ∨ held t.world = held s.world := by
  have hpolled : ¬ (p.poll t.world).1.wantsExit := htrail.not_wantsExit t (by simp) hstay
  obtain ⟨e₁, s₁, e₂, s₂, hleft, hstep, hworld, hend⟩ := htrail.exists_cycle
  obtain ⟨hkeys₁, -⟩ := hleft.keys_of_exits h hexits
  obtain ⟨hkeys₂, hheld₂⟩ := hend.keys_of_exits h (by simp)
  rw [hworld] at hpolled ⊢
  rw [hkeys₂, hheld₂ (by simp), keys_of_step h hstep hstay]
  split
  · rename_i hnew
    simp [hnew]
  · -- neither side moves in a cycle that reports nothing
    rename_i hquiet
    have hheld : held s₂.world = held s₁.world := by rw [held_of_step h hstep, h.poll _ hpolled hquiet]
    simp [hquiet, hkeys₁, hkeys, hheld, eq_comm]

end Trail

end Emulator

/-! ### Terminals and windows -/

theorem Window.held_of_poll_of_exit {graphics : Graphics (StateM W)} {s : Window × W}
    (hexit : (merge (poll graphics) s).1.wantsExit) : (merge (poll graphics) s).2.1.held = s.1.held := by
  obtain ⟨⟨exits, w⟩, hclosed⟩ : ∃ r, graphics.hasExit (graphics.dispatch s.2).2 = r := ⟨_, rfl⟩
  obtain ⟨⟨held, w'⟩, hheld⟩ : ∃ r, heldKeys graphics Key.layout w = r := ⟨_, rfl⟩
  cases exits with
  | true => rw [poll_of_closed hclosed]
  | false =>
    rw [poll_of_open hclosed hheld] at hexit
    dsimp only at hexit
    split at hexit <;> simp at hexit

namespace Emulator

/-- **What leaving does to the keys.**  At the poll of a terminal at which the user leaves, the keys stay as they are exactly
if those of the bytes in front of the one that asks to leave were held, and, if it is time to let keys go, no others were.
An emulator that has the keys of the terminal then, and takes up its work later, has them behind its next cycle exactly if
the poll of that cycle changes them, or if leaving had not.  With a window it always has them, as leaving leaves them alone. -/
theorem keys_after_leaving (env : Environment (StateM W)) :
    (∀ (t : Terminal) now bytes, (t.poll now bytes).2.wantsExit →
      ∃ front b rest, bytes = front ++ b :: rest ∧ Terminal.isExit b ∧ (∀ b ∈ front, ¬ Terminal.isExit b) ∧
        ((t.poll now bytes).1.held = t.held ↔
          (∀ k, (∃ b ∈ front, Terminal.Strikes b k) → t.held.isDown k) ∧
            (t.Due now → ∀ k, t.held.isDown k → ∃ b ∈ front, Terminal.Strikes b k))) ∧
    (∀ tty clock own other p, p = ((Terminal.peripherals env tty).plugged clock own other).merged →
      ∀ {e s ts t e' s'}, Trail p e s (ts ++ [t]) e' s' → (∀ u ∈ ts, (p.poll u.world).1.wantsExit) →
        t.progress ≠ .left → e.machine.keys = s.world.1.held →
        (e'.machine.keys = s'.world.1.held ↔
          (p.poll t.world).2.1.held ≠ t.world.1.held ∨ t.world.1.held = s.world.1.held)) ∧
    ∀ graphics clock own other p, p = ((Window.peripherals env graphics).plugged clock own other).merged →
      ∀ {e s ts t e' s'}, Trail p e s (ts ++ [t]) e' s' → (∀ u ∈ ts, (p.poll u.world).1.wantsExit) →
        t.progress ≠ .left → e.machine.keys = s.world.1.held →
        t.world.1.held = s.world.1.held ∧ e'.machine.keys = s'.world.1.held := by
  refine ⟨fun t now bytes hexit => ?exit, ?terminal, ?window⟩
  case exit =>
    obtain ⟨b, rest, hbytes, hb, hfront⟩ := Terminal.exists_exit (Terminal.wantsExit_poll.mp hexit)
    exact ⟨Terminal.taken bytes, b, rest, hbytes, hb, hfront, Terminal.held_poll_eq_iff⟩
  case terminal =>
    rintro tty clock own other p rfl e s ts t e' s' htrail hexits hstay hkeys
    have hreports := (Terminal.reports env tty).plugged clock own other
    have hpolled := htrail.not_wantsExit t (by simp) hstay
    rw [agree_after_leaving_iff hreports htrail hexits hstay hkeys]
    exact or_congr (Terminal.hasInputs_poll hpolled) Iff.rfl
  case window =>
    rintro graphics clock own other p rfl e s ts t e' s' htrail hexits hstay hkeys
    have hreports := (Window.reports env graphics).plugged clock own other
    obtain ⟨e₁, s₁, e₂, s₂, hleft, -, hworld, -⟩ := htrail.exists_cycle
    have hheld : t.world.1.held = s.world.1.held := by
      rw [hworld]
      exact (hleft.keys_of_exits hreports hexits).2 fun u hu => Window.held_of_poll_of_exit (hexits u hu)
    exact ⟨hheld, (agree_after_leaving_iff hreports htrail hexits hstay hkeys).mpr (.inr hheld)⟩

/-- A terminal at which the bytes come chunk by chunk, one a poll. -/
def chunks : Tty (StateM (List (List UInt8))) where
  isTerminal := pure true
  settings := pure ""
  setRaw := pure ()
  restore _ := pure ()
  size := pure (80, 24)
  pending cs := (cs.headD [], cs.tail)
  write _ := pure ()

/-- A window over which `q` is held, and that is closed at some polls. -/
def closings : Graphics (StateM (List Bool)) where
  isAvailable := pure true
  dispatch := pure ()
  hasExit cs := (cs.headD false, cs.tail)
  isHeld c := pure (c == 'q')
  size := pure (640, 320)
  call _ := pure ()

def halted : Environment (StateM W) where
  now := pure 0.0
  pause _ := pure ()
  note _ := pure ()

def chunked : Peripherals (StateM (Terminal × List (List UInt8))) :=
  ((Terminal.peripherals halted chunks).plugged (pure 0.0) (fun _ => true) fun _ => pure ()).merged

def windowed : Peripherals (StateM (Window × List Bool)) :=
  ((Window.peripherals halted closings).plugged (pure 0.0) (fun _ => true) fun _ => pure ()).merged

def stepped (p : Peripherals (StateM W)) (x : Emulator × Scene W) : Emulator × Scene W :=
  ((play (x.1.step p.recorded) x.2).1.1, (play (x.1.step p.recorded) x.2).2)

theorem trail_stepped (p : Peripherals (StateM W)) (x : Emulator × Scene W) : ∃ t₁ t₂,
    Trail p x.1 x.2 ([t₁] ++ [t₂]) (stepped p (stepped p x)).1 (stepped p (stepped p x)).2 ∧
      t₁.world = x.2.world ∧ t₂.world = (stepped p x).2.world ∧
      t₂.progress = .ofCycle (play ((stepped p x).1.step p.recorded) (stepped p x).2).1.2 :=
  ⟨_, _, .cycle rfl (.cycle rfl (.rest _ _)), rfl, rfl, rfl⟩

/-- A machine that has just been switched on, at a terminal. -/
def atTerminal (bytes : List (List UInt8)) : Emulator × Scene (Terminal × List (List UInt8)) :=
  ({ config := {}, machine := .powerOn default, scheduler := ⟨0.5, 0.0, 0⟩ },
    ⟨[], ({ released := 0.0, size := (80, 24) }, bytes)⟩)

def atWindow (closes : List Bool) : Emulator × Scene (Window × List Bool) :=
  ({ config := {}, machine := .powerOn default, scheduler := ⟨0.5, 0.0, 0⟩ }, ⟨[], ({}, closes)⟩)

/-- The escape alone leaves the keys of a terminal alone, but `q` in front of it does not: after the next cycle it is down
and the machine has not got it.  From a window the machine gets it. -/
theorem keys_after_leaving_q :
    (({ released := 0.0, size := (80, 24) } : Terminal).poll 0.0 [0x1B]).1.held = 0 ∧
      (stepped chunked (stepped chunked (atTerminal [[0x71, 0x1B]]))).1.machine.keys ≠
        (stepped chunked (stepped chunked (atTerminal [[0x71, 0x1B]]))).2.world.1.held ∧
      (stepped windowed (stepped windowed (atWindow [true]))).1.machine.keys = Key.bit 4 := by
  refine ⟨?alone, ?terminal, ?window⟩
  case alone =>
    obtain ⟨front, b, rest, hbytes, -, -, hintact⟩ := (keys_after_leaving (W := Unit) halted).1
      { released := 0.0, size := (80, 24) } 0.0 [0x1B] (by decide +kernel)
    have hlength : 1 = front.length + (rest.length + 1) := by simpa using congrArg List.length hbytes
    obtain rfl : front = [] := List.eq_nil_of_length_eq_zero (by omega)
    exact hintact.mpr ⟨by simp, fun _ => by simp⟩
  case terminal =>
    obtain ⟨t₁, t₂, htrail, h₁, h₂, hprogress⟩ := trail_stepped chunked (atTerminal [[0x71, 0x1B]])
    have hkeys := (keys_after_leaving halted).2.1 chunks (pure 0.0) (fun _ => true) (fun _ => pure ()) chunked rfl
      htrail (List.forall_mem_singleton.mpr (h₁ ▸ by decide +kernel)) (hprogress ▸ by decide +kernel) rfl
    rw [Ne, hkeys, h₂]
    decide +kernel
  case window =>
    obtain ⟨t₁, t₂, htrail, h₁, h₂, hprogress⟩ := trail_stepped windowed (atWindow [true])
    have hkeys := (keys_after_leaving halted).2.2 closings (pure 0.0) (fun _ => true) (fun _ => pure ()) windowed rfl
      htrail (List.forall_mem_singleton.mpr (h₁ ▸ by decide +kernel)) (hprogress ▸ by decide +kernel) rfl
    rw [hkeys.2]
    decide +kernel

/-- At the poll at which the user leaves `q` goes down, and the next cycle does not give it to the machine. -/
theorem leaving_changes_keys :
    (chunked.poll (atTerminal [[0x71, 0x1B]]).2.world).1 = .programExit ∧
      (atTerminal [[0x71, 0x1B]]).2.world.1.held = 0 ∧
      (chunked.poll (atTerminal [[0x71, 0x1B]]).2.world).2.1.held = Key.bit 4 ∧
      (stepped chunked (stepped chunked (atTerminal [[0x71, 0x1B]]))).1.machine.keys = 0 ∧
      (stepped chunked (stepped chunked (atTerminal [[0x71, 0x1B]]))).2.world.1.held = Key.bit 4 :=
  ⟨by decide +kernel, rfl, by decide +kernel, by decide +kernel, by decide +kernel⟩

end Emulator

end Chip8

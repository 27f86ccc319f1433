import Mathlib
import Chip8.Proofs.Emulator.Session

/-!
# How a loop goes on

A run and a series of cycles without waiting are loops with a limit, and a loop goes on where a shorter one stopped
(`underway_add`, `runCycles_add`).  So what happens in the cycle behind the first `n` can be said by looking at the loop
with the limit `n`, and at the one with the limit `n + 1`.
-/

namespace Chip8.Emulator

/-! ### Loops cut in two -/

section Cut

variable {m : Type → Type} [Monad m] [LawfulMonad m] (p : Peripherals m)

/-- A loop that goes through its cycles can be cut in two; one that ends early is not taken up again. -/
theorem paced_add (period : Float) (a b executed : Nat) (e : Emulator) :
    paced p period (a + b) executed e =
      paced p period a executed e >>= fun r =>
        if r.2.1 = executed + a ∧ r.2.2 = none then paced p period b r.2.1 r.1 else pure r := by
  induction a generalizing executed e with
  | zero => simp [paced]
  | succ a ih =>
    have hshift : executed + 1 + a = executed + (a + 1) := by omega
    rw [Nat.succ_add, paced, paced]
    simp only [bind_assoc]
    refine bind_congr fun started => bind_congr fun r => ?_
    obtain ⟨e', out⟩ := r
    cases out with
    | error err => simp
    | ok signals =>
      by_cases hexit : signals.wantsExit
      · simp [hexit]
      · simp [hexit, ih, hshift]

theorem unpaced_add (a b executed : Nat) (e : Emulator) :
    unpaced p (a + b) executed e =
      unpaced p a executed e >>= fun r =>
        match r.2 with
        | .ok n => if n = executed + a then unpaced p b n r.1 else pure r
        | .error _ => pure r := by
  induction a generalizing executed e with
  | zero => simp [unpaced]
  | succ a ih =>
    have hshift : executed + 1 + a = executed + (a + 1) := by omega
    rw [Nat.succ_add, unpaced, unpaced]
    simp only [bind_assoc]
    refine bind_congr fun r => ?_
    obtain ⟨e', out⟩ := r
    cases out with
    | error err => simp
    | ok signals =>
      by_cases hexit : signals.wantsExit
      · simp [hexit]
      · simp [hexit, ih, hshift]

/-- What was carried out before a loop is added to what it answers. -/
theorem unpaced_shift (before limit executed : Nat) (e : Emulator) :
    unpaced p limit (before + executed) e =
      (fun r => (r.1, r.2.map (before + ·))) <$> unpaced p limit executed e := by
  induction limit generalizing executed e with
  | zero => simp [unpaced, Except.map]
  | succ limit ih =>
    rw [unpaced, unpaced, map_bind]
    refine bind_congr fun r => ?_
    obtain ⟨e', out⟩ := r
    cases out with
    | error err => simp [Except.map]
    | ok signals =>
      by_cases hexit : signals.wantsExit
      · simp [hexit, Except.map]
      · simp only [hexit]
        exact ih (executed + 1) e'

theorem underway_add (e : Emulator) (a b : Nat) :
    e.underway p (a + b) = e.underway p a >>= fun r =>
      if r.2.1 = a ∧ r.2.2 = none then paced p e.secondsPerCycle b r.2.1 r.1 else pure r := by
  unfold underway
  simp only [bind_assoc, paced_add, Nat.zero_add]

theorem runCycles_add (e : Emulator) (a b : Nat) :
    e.runCycles p ((a + b : Nat) : Int) = e.runCycles p a >>= fun r =>
      match r.2 with
      | .ok n => if n = a then unpaced p b n r.1 else pure r
      | .error _ => pure r := by
  unfold runCycles
  simp only [Int.toNat_natCast, unpaced_add, Nat.zero_add]

end Cut

/-! ### One cycle more -/

variable {W : Type}

theorem count_paced_le (p : Peripherals (StateM W)) (period : Float) (limit executed : Nat) (e : Emulator)
    (s : Scene W) : (play (paced p.recorded period limit executed e) s).1.2.1 ≤ executed + limit := by
  induction limit generalizing executed e s with
  | zero => exact Nat.le_refl _
  | succ limit ih =>
    obtain ⟨⟨⟨e', out⟩, s'⟩, hstep⟩ :
      ∃ r, play (e.step p.recorded) ⟨s.log, (p.now s.world).2⟩ = r := ⟨_, rfl⟩
    rw [paced, play_bind, play_now, play_bind, hstep]
    cases out with
    | error err => exact Nat.le_add_right _ _
    | ok signals =>
      by_cases hexit : signals.wantsExit
      · simp [hexit]
      · simp only [hexit, Bool.false_eq_true, if_false, play_bind, play_now, play_perform]
        refine (ih _ _ _).trans ?_
        omega

theorem count_unpaced_le (p : Peripherals (StateM W)) (limit executed : Nat) (e : Emulator) (s : Scene W) :
    ∀ count, (play (unpaced p.recorded limit executed e) s).1.2 = .ok count → count ≤ executed + limit := by
  induction limit generalizing executed e s with
  | zero =>
    intro count h
    obtain rfl : executed = count := Except.ok.inj h
    exact Nat.le_refl _
  | succ limit ih =>
    intro count h
    obtain ⟨⟨⟨e', out⟩, s'⟩, hstep⟩ : ∃ r, play (e.step p.recorded) s = r := ⟨_, rfl⟩
    rw [unpaced, play_bind, hstep] at h
    cases out with
    | error err => exact nomatch h
    | ok signals =>
      by_cases hexit : signals.wantsExit
      · obtain rfl : executed = count := by simpa [hexit] using h
        omega
      · simp only [hexit, Bool.false_eq_true, if_false] at h
        have hle := ih _ _ _ count h
        omega

theorem count_underway_le (p : Peripherals (StateM W)) (e : Emulator) (s : Scene W) (n : Nat) :
    (play (e.underway p.recorded n) s).1.2.1 ≤ n := by
  unfold underway
  rw [play_bind, play_bind]
  refine (count_paced_le p _ n 0 _ _).trans ?_
  omega

variable {p : Peripherals (StateM W)} {e e' eₙ : Emulator} {s s' sₙ : Scene W} {n : Nat}
  {err : CycleError} {signals : Signals}

section Run

variable (hrun : play (e.underway p.recorded n) s = ((eₙ, n, none), sₙ))
include hrun

theorem underway_succ_of_error
    (hstep : play (eₙ.step p.recorded) ⟨sₙ.log, (p.now sₙ.world).2⟩ = ((e', .error err), s')) :
    play (e.underway p.recorded (n + 1)) s = ((e', n, some err), s') := by
  rw [underway_add, play_bind, hrun]
  simp [paced, hstep]

theorem underway_succ_of_exit (hexit : signals.wantsExit)
    (hstep : play (eₙ.step p.recorded) ⟨sₙ.log, (p.now sₙ.world).2⟩ = ((e', .ok signals), s')) :
    play (e.underway p.recorded (n + 1)) s =
      ((e', n, none), ⟨s'.log ++ [.note .exitRequested], (p.perform (.note .exitRequested) s'.world).2⟩) := by
  rw [underway_add, play_bind, hrun]
  simp [paced, hstep, hexit]

theorem underway_succ_of_stay (hstay : ¬ signals.wantsExit)
    (hstep : play (eₙ.step p.recorded) ⟨sₙ.log, (p.now sₙ.world).2⟩ = ((e', .ok signals), s')) :
    ∃ pause : Pause, pause.running = e'.running ∧
      play (e.underway p.recorded (n + 1)) s =
        ((e', n + 1, none), ⟨s'.log ++ [.pause pause], (p.perform (.pause pause) (p.now s'.world).2).2⟩) := by
  rw [underway_add, play_bind, hrun]
  let rest : Float := e.secondsPerCycle - ((p.now s'.world).1 - (p.now sₙ.world).1)
  refine ⟨⟨if rest > 0.0 then rest else 0.0, e'.running⟩, rfl, ?_⟩
  simp only [and_self, if_true, paced, play_bind, play_now, hstep, hstay, if_false, play_perform, play_pure,
    Bool.false_eq_true]
  rfl

theorem underway_succ_emulator {out : Except CycleError Signals}
    (hstep : play (eₙ.step p.recorded) ⟨sₙ.log, (p.now sₙ.world).2⟩ = ((e', out), s')) :
    (play (e.underway p.recorded (n + 1)) s).1.1 = e' := by
  cases out with
  | error err => rw [underway_succ_of_error hrun hstep]
  | ok signals =>
    by_cases hexit : signals.wantsExit
    · rw [underway_succ_of_exit hrun hexit hstep]
    · obtain ⟨pause, -, h⟩ := underway_succ_of_stay hrun hexit hstep
      rw [h]

/-- A run that the user has left goes no further, whatever its limit. -/
theorem underway_of_exit (hexit : signals.wantsExit)
    (hstep : play (eₙ.step p.recorded) ⟨sₙ.log, (p.now sₙ.world).2⟩ = ((e', .ok signals), s')) {limit : Nat}
    (hlimit : n < limit) :
    play (e.underway p.recorded limit) s =
      ((e', n, none), ⟨s'.log ++ [.note .exitRequested], (p.perform (.note .exitRequested) s'.world).2⟩) := by
  obtain ⟨more, rfl⟩ : ∃ more, limit = n + 1 + more := ⟨limit - (n + 1), by omega⟩
  rw [underway_add, play_bind, underway_succ_of_exit hrun hexit hstep]
  simp

/-- Neither does a run that has failed. -/
theorem underway_of_error (hstep : play (eₙ.step p.recorded) ⟨sₙ.log, (p.now sₙ.world).2⟩ = ((e', .error err), s'))
    {limit : Nat} (hlimit : n < limit) : play (e.underway p.recorded limit) s = ((e', n, some err), s') := by
  obtain ⟨more, rfl⟩ : ∃ more, limit = n + 1 + more := ⟨limit - (n + 1), by omega⟩
  rw [underway_add, play_bind, underway_succ_of_error hrun hstep]
  simp

end Run

/-- A run that has gone through its cycles has gone through fewer. -/
theorem underway_of_succ (h : (play (e.underway p.recorded (n + 1)) s).1.2 = (n + 1, none)) :
    (play (e.underway p.recorded n) s).1.2 = (n, none) := by
  by_contra hshort
  rw [underway_add, play_bind, if_neg fun hall => hshort (Prod.ext hall.1 hall.2)] at h
  have hle := count_underway_le p e s n
  have hcount : (play (e.underway p.recorded n) s).1.2.1 = n + 1 := congrArg Prod.fst h
  omega

theorem underway_of_le {l : Nat} (hl : l ≤ n) (h : (play (e.underway p.recorded n) s).1.2 = (n, none)) :
    (play (e.underway p.recorded l) s).1.2 = (l, none) := by
  induction n, hl using Nat.le_induction with
  | base => exact h
  | succ n _ ih => exact ih (underway_of_succ h)

section RunCycles

variable (hrun : play (e.runCycles p.recorded n) s = ((eₙ, .ok n), sₙ))
include hrun

theorem runCycles_succ_of_error (hstep : play (eₙ.step p.recorded) sₙ = ((e', .error err), s')) :
    play (e.runCycles p.recorded ((n + 1 : Nat) : Int)) s = ((e', .error err), s') := by
  rw [runCycles_add, play_bind, hrun]
  simp [unpaced, hstep]

theorem runCycles_succ_of_exit (hexit : signals.wantsExit)
    (hstep : play (eₙ.step p.recorded) sₙ = ((e', .ok signals), s')) :
    play (e.runCycles p.recorded ((n + 1 : Nat) : Int)) s = ((e', .ok n), s') := by
  rw [runCycles_add, play_bind, hrun]
  simp [unpaced, hstep, hexit]

theorem runCycles_succ_of_stay (hstay : ¬ signals.wantsExit)
    (hstep : play (eₙ.step p.recorded) sₙ = ((e', .ok signals), s')) :
    play (e.runCycles p.recorded ((n + 1 : Nat) : Int)) s = ((e', .ok (n + 1)), s') := by
  rw [runCycles_add, play_bind, hrun]
  simp [unpaced, hstep, hstay]

theorem runCycles_succ_emulator {out : Except CycleError Signals}
    (hstep : play (eₙ.step p.recorded) sₙ = ((e', out), s')) :
    (play (e.runCycles p.recorded ((n + 1 : Nat) : Int)) s).1.1 = e' := by
  cases out with
  | error err => rw [runCycles_succ_of_error hrun hstep]
  | ok signals =>
    by_cases hexit : signals.wantsExit
    · rw [runCycles_succ_of_exit hrun hexit hstep]
    · rw [runCycles_succ_of_stay hrun hexit hstep]

theorem runCycles_of_exit (hexit : signals.wantsExit)
    (hstep : play (eₙ.step p.recorded) sₙ = ((e', .ok signals), s')) {limit : Nat} (hlimit : n < limit) :
    play (e.runCycles p.recorded limit) s = ((e', .ok n), s') := by
  obtain ⟨more, rfl⟩ : ∃ more, limit = n + 1 + more := ⟨limit - (n + 1), by omega⟩
  rw [runCycles_add, play_bind, runCycles_succ_of_exit hrun hexit hstep]
  simp

end RunCycles

theorem runCycles_of_succ (h : (play (e.runCycles p.recorded ((n + 1 : Nat) : Int)) s).1.2 = .ok (n + 1)) :
    (play (e.runCycles p.recorded n) s).1.2 = .ok n := by
  have hle := count_unpaced_le p n 0 e s
  rw [runCycles_add, play_bind] at h
  obtain ⟨⟨⟨e', out⟩, s'⟩, hplay⟩ : ∃ r, play (e.runCycles p.recorded n) s = r := ⟨_, rfl⟩
  rw [hplay] at h ⊢
  cases out with
  | error err => exact nomatch h
  | ok count =>
    have hcount : count ≤ 0 + n := hle count (congrArg (·.1.2) hplay)
    by_cases hall : count = n
    · rw [hall]
    · obtain rfl : count = n + 1 := by simpa [hall] using h
      omega

theorem runCycles_of_le {l : Nat} (hl : l ≤ n) (h : (play (e.runCycles p.recorded n) s).1.2 = .ok n) :
    (play (e.runCycles p.recorded l) s).1.2 = .ok l := by
  induction n, hl using Nat.le_induction with
  | base => exact h
  | succ n _ ih => exact ih (runCycles_of_succ h)

end Chip8.Emulator

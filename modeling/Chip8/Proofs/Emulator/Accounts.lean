import Mathlib
import Chip8.Proofs.Emulator.Course
import Chip8.Proofs.Emulator.Parametric
import Chip8.Proofs.Emulator.Tone

/-!
# What a loop accounts for

A run ends when the user wants to leave or when its limit is reached, whichever comes first, and so do cycles without
waiting.  What a loop answers is then the number of the instructions that have been carried out, and polls and waits are
in proportion (`loop_accounts`).  `Tally` keeps the accounts; one cycle adds to them (`Tally.cycle`), and what is done
between cycles adds at most a wait.
-/

namespace Chip8

variable {W : Type}

/-! ### Counting polls -/

/-- The same peripherals, counting how often they are polled. -/
def Peripherals.counted (p : Peripherals (StateM W)) : Peripherals (StateM (Nat × W)) :=
  Peripherals.merged
    { p.lift Nat with
      poll := do
        modify (· + 1)
        StateT.lift p.poll }

theorem Peripherals.count_poll (p : Peripherals (StateM W)) (w : Nat × W) : (p.counted.poll w).2.1 = w.1 + 1 := rfl

theorem Peripherals.counted_outputs (p : Peripherals (StateM W)) (polls : Nat) :
    (keeping fun w => w.1 = polls).Outputs p.counted.recorded p.counted.recorded :=
  keeping_outputs (fun _ h => h) (fun _ h => h) fun _ _ h => h

/-! ### Cycles of a machine -/

/-- A machine has got from `m` to another in so many cycles.  In each it has got keys or not, has carried out one
instruction, and its timers have gone on. -/
inductive Machine.Worked (m : Machine) : Nat → Machine → Prop
  | rest : Worked m 0 m
  | cycle {n due : Nat} {m₁ m₂ m₃ : Machine} {eff : Effect} (hworked : Worked m n m₁)
      (hkeys : m₂ = m₁ ∨ ∃ keys, m₂ = m₁.receiveKeys keys) (hstep : m₂.step = .ok (m₃, eff)) :
      Worked m (n + 1) (m₃.ticks due)

namespace Emulator

/-! ### The waits in a log -/

/-- The waits that were asked for, in order. -/
def pausesOf (rs : List Request) : List Pause :=
  rs.filterMap fun
    | .pause pause => some pause
    | _ => none

@[simp] theorem pausesOf_append (rs rs' : List Request) : pausesOf (rs ++ rs') = pausesOf rs ++ pausesOf rs' :=
  List.filterMap_append

theorem pausesOf_traceRequests (e : Emulator) (word : Word) : pausesOf (e.traceRequests word) = [] := by
  unfold traceRequests
  split <;> rfl

theorem pausesOf_warningRequests (eff : Effect) : pausesOf (warningRequests eff) = [] := by
  unfold warningRequests
  split <;> rfl

theorem pausesOf_toneRequests (told tone : Bool) : pausesOf (toneRequests told tone) = [] := by
  unfold toneRequests
  split <;> rfl

theorem pausesOf_frameRequests (f : Frame) (signals : Signals) : pausesOf (frameRequests f signals) = [] := by
  unfold frameRequests
  split <;> rfl

/-! ### One cycle -/

section Cycle

variable {i : Intake} {e e' : Emulator} {rs : List Request} {signals : Signals}

/-- A cycle that goes through carries out one instruction, and asks for no wait. -/
theorem Cycle.through (hc : Cycle i e rs e' (.ok signals)) (hstay : ¬ i.signals.wantsExit) :
    ¬ signals.wantsExit ∧ e'.cycles = e.cycles + 1 ∧ e'.running = e.running ∧ pausesOf rs = [] ∧
      ∀ m n, Machine.Worked m n e.machine → m.Worked (n + 1) e'.machine := by
  cases hc with
  | left hexit => exact absurd hexit hstay
  | @done word m eff due scheduler _ _ hfetch hexec hpoll hsignals =>
    refine ⟨?_, rfl, rfl, ?_, fun m₀ n hworked => ?_⟩
    · have hquiet := (Machine.exec_signals hexec).2
      have htone : ∀ told tone, (toneSignal told tone).testBit 3 = false := by
        intro told tone
        unfold toneSignal
        split <;> rfl
      unfold Signals.wantsExit at hquiet hstay ⊢
      simp only [hsignals, Nat.testBit_or, hquiet, htone, Bool.or_false]
      exact hstay
    · simp only [pausesOf_append, pausesOf_traceRequests, pausesOf_warningRequests, pausesOf_toneRequests,
        pausesOf_frameRequests, List.append_nil]
    · have hkeys : (e.taking i).machine = e.machine ∨ ∃ keys, (e.taking i).machine = e.machine.receiveKeys keys := by
        unfold taking
        cases i.signals.hasInputs
        · exact .inl rfl
        · exact .inr ⟨i.keys, rfl⟩
      have hstep : (e.taking i).machine.step = .ok (m, eff) := by
        rw [Machine.step, hfetch]
        exact hexec
      exact hworked.cycle hkeys hstep

end Cycle

/-! ### The accounts -/

/-- What has been done since `e` and `s`: so many instructions, polls, and waits, these within a run. -/
structure Tally (instructions polls waits : Nat) (e : Emulator) (s : Scene (Nat × W)) (e' : Emulator)
    (s' : Scene (Nat × W)) : Prop where
  cycles : e'.cycles = e.cycles + instructions
  worked : e.machine.Worked instructions e'.machine
  polled : s'.world.1 = s.world.1 + polls
  waited : ∃ rs, s'.log = s.log ++ rs ∧ (pausesOf rs).length = waits ∧ ∀ pause ∈ pausesOf rs, pause.running = true

namespace Tally

variable {p : Peripherals (StateM W)} {n polls waits : Nat} {e e₁ e₂ : Emulator} {s s₁ s₂ : Scene (Nat × W)}

theorem refl (e : Emulator) (s : Scene (Nat × W)) : Tally 0 0 0 e s e s where
  cycles := rfl
  worked := .rest
  polled := rfl
  waited := ⟨[], by simp, rfl, by simp [pausesOf]⟩

/-- The next cycle, if the user stays and it does not fail. -/
theorem cycle (h : Tally n polls waits e s e₁ s₁) (hstay : ¬ (p.counted.poll s₁.world).1.wantsExit)
    (hgo : ∀ err, (play (e₁.step p.counted.recorded) s₁).1.2 ≠ .error err) :
    ∃ e₂ signals s₂, play (e₁.step p.counted.recorded) s₁ = ((e₂, .ok signals), s₂) ∧ ¬ signals.wantsExit ∧
      Tally (n + 1) (polls + 1) waits e s e₂ s₂ ∧ e₂.running = e₁.running := by
  obtain ⟨⟨⟨e₂, out⟩, s₂⟩, hstep⟩ : ∃ r, play (e₁.step p.counted.recorded) s₁ = r := ⟨_, rfl⟩
  obtain ⟨signals, rfl⟩ : ∃ signals, out = .ok signals := by
    cases out with
    | error err => exact absurd (congrArg (·.1.2) hstep) (hgo err)
    | ok signals => exact ⟨signals, rfl⟩
  obtain ⟨i, rs, hlog, hsignals, -, hc⟩ := cycle_of_step hstep
  obtain ⟨hstays, hcycles, hrunning, hpauses, hworked⟩ := hc.through (by rwa [hsignals])
  -- behind its poll, a cycle does not poll again
  have hpolled : s₂.world.1 = s₁.world.1 + 1 := by
    obtain ⟨-, hkeeps⟩ := ActionRel.answered (p.counted_outputs (s₁.world.1 + 1)) e₁ (p.counted.poll s₁.world).1
    have hcount := hkeeps ⟨s₁.log, (p.counted.poll s₁.world).2⟩ (p.count_poll s₁.world)
    have hanswered := hstep
    rw [step, play_bind, play_poll] at hanswered
    rwa [hanswered] at hcount
  obtain ⟨before, hbefore, hwaits, hduring⟩ := h.waited
  refine ⟨e₂, signals, s₂, hstep, hstays, ⟨?_, hworked _ _ h.worked, ?_, before ++ rs, ?_, ?_, ?_⟩, hrunning⟩
  · have hsofar := h.cycles
    omega
  · have hsofar := h.polled
    omega
  · rw [hlog, hbefore, List.append_assoc]
  · rw [pausesOf_append, hpauses, List.append_nil, hwaits]
  · rw [pausesOf_append, hpauses, List.append_nil]
    exact hduring

/-- Around cycles, the machine is left alone. -/
theorem around (h : Tally n polls waits e s e₁ s₁) (rs : List Request) (hmachine : e₂.machine = e₁.machine)
    (hcycles : e₂.cycles = e₁.cycles) (hworld : s₂.world.1 = s₁.world.1) (hlog : s₂.log = s₁.log ++ rs)
    (hrunning : ∀ pause ∈ pausesOf rs, pause.running = true) :
    Tally n polls (waits + (pausesOf rs).length) e s e₂ s₂ := by
  obtain ⟨before, hbefore, hwaits, hduring⟩ := h.waited
  refine ⟨hcycles.trans h.cycles, hmachine ▸ h.worked, hworld.trans h.polled, before ++ rs, ?_, ?_, ?_⟩
  · rw [hlog, hbefore, List.append_assoc]
  · rw [pausesOf_append, List.length_append, hwaits]
  · intro pause hpause
    rw [pausesOf_append, List.mem_append] at hpause
    exact hpause.elim (hduring pause) (hrunning pause)

end Tally

/-- At a poll at which the user wants to leave, a cycle is over: nobody asks for the keys. -/
theorem step_of_exit {p : Peripherals (StateM W)} {e : Emulator} {s : Scene W}
    (hexit : (p.poll s.world).1.wantsExit) :
    play (e.step p.recorded) s = ((e, .ok (p.poll s.world).1), ⟨s.log, (p.poll s.world).2⟩) := by
  rw [step, play_bind, play_poll, answered, if_pos hexit, play_pure]

/-! ### Loops -/

/-- Where a cycle of a run sets out, behind so many others. -/
def runSetsOut (p : Peripherals (StateM W)) (e : Emulator) (s : Scene W) (l : Nat) : Emulator × Scene W :=
  let r := play (e.underway p.recorded l) s
  (r.1.1, ⟨r.2.log, (p.now r.2.world).2⟩)

/-- Where a cycle sets out, behind so many others without waiting. -/
def cyclesSetOut (p : Peripherals (StateM W)) (e : Emulator) (s : Scene W) (l : Nat) : Emulator × Scene W :=
  let r := play (e.runCycles p.recorded l) s
  (r.1.1, r.2)

/-- Poll number `k` is the first, counted from zero, at which the user wants to leave; there is none if `k` is `⊤`. -/
def FirstExit (p : Peripherals (StateM W)) (setsOut : Nat → Emulator × Scene W) (k : ℕ∞) : Prop :=
  ∀ l : Nat, (l < k → ¬ (p.poll (setsOut l).2.world).1.wantsExit) ∧ (l = k → (p.poll (setsOut l).2.world).1.wantsExit)

/-- None of the first `n` cycles fails. -/
def Faultless (p : Peripherals (StateM W)) (setsOut : Nat → Emulator × Scene W) (n : Nat) : Prop :=
  ∀ l < n, ∀ err, (play ((setsOut l).1.step p.recorded) (setsOut l).2).1.2 ≠ .error err

section Loops

variable {p : Peripherals (StateM W)} {e : Emulator} {s : Scene (Nat × W)} {k : ℕ∞} {n : Nat}

theorem tally_underway (hk : FirstExit p.counted (runSetsOut p.counted e s) k) (hn : n ≤ k)
    (hgo : Faultless p.counted (runSetsOut p.counted e s) n) :
    ∃ eₙ sₙ, play (e.underway p.counted.recorded n) s = ((eₙ, n, none), sₙ) ∧ Tally n n n e s eₙ sₙ ∧
      eₙ.running = true := by
  induction n with
  | zero =>
    refine ⟨_, _, rfl, ?_, rfl⟩
    exact (Tally.refl e s).around [.note (.runStarted e.config.clock)] rfl rfl rfl rfl (by simp [pausesOf])
  | succ n ih =>
    have hnk : (n : ℕ∞) < k := lt_of_lt_of_le (by exact_mod_cast n.lt_succ_self) hn
    obtain ⟨eₙ, sₙ, hrun, htally, hrunning⟩ := ih hnk.le fun l hl => hgo l (by omega)
    have hstay := (hk n).1 hnk
    have hgoes := hgo n n.lt_succ_self
    simp only [runSetsOut, hrun] at hstay hgoes
    have hread : Tally n n n e s eₙ ⟨sₙ.log, (p.counted.now sₙ.world).2⟩ :=
      htally.around [] rfl rfl rfl (by simp) (by simp [pausesOf])
    obtain ⟨e', signals, s', hstep, hstays, hcycle, hkept⟩ := hread.cycle hstay hgoes
    obtain ⟨pause, hpause, hnext⟩ := underway_succ_of_stay hrun hstays hstep
    have hstill : e'.running = true := hkept.trans hrunning
    refine ⟨e', _, hnext, ?_, hstill⟩
    refine hcycle.around [.pause pause] rfl rfl rfl rfl ?_
    intro pause' hpause'
    obtain rfl : pause' = pause := by simpa [pausesOf] using hpause'
    rw [hpause, hstill]

theorem tally_runCycles (hk : FirstExit p.counted (cyclesSetOut p.counted e s) k) (hn : n ≤ k)
    (hgo : Faultless p.counted (cyclesSetOut p.counted e s) n) :
    ∃ eₙ sₙ, play (e.runCycles p.counted.recorded n) s = ((eₙ, .ok n), sₙ) ∧ Tally n n 0 e s eₙ sₙ ∧
      eₙ.running = e.running := by
  induction n with
  | zero => exact ⟨e, s, rfl, .refl e s, rfl⟩
  | succ n ih =>
    have hnk : (n : ℕ∞) < k := lt_of_lt_of_le (by exact_mod_cast n.lt_succ_self) hn
    obtain ⟨eₙ, sₙ, hrun, htally, hrunning⟩ := ih hnk.le fun l hl => hgo l (by omega)
    have hstay := (hk n).1 hnk
    have hgoes := hgo n n.lt_succ_self
    simp only [cyclesSetOut, hrun] at hstay hgoes
    obtain ⟨e', signals, s', hstep, hstays, hcycle, hkept⟩ := htally.cycle hstay hgoes
    exact ⟨e', s', runCycles_succ_of_stay hrun hstays hstep, hcycle, hkept.trans hrunning⟩

theorem runCycles_append {p : Peripherals (StateM W)} {e₁ e₂ : Emulator} {s s₁ s₂ : Scene W} {a b : Nat}
    {out : Except CycleError Nat} (hfirst : play (e.runCycles p.recorded a) s = ((e₁, .ok a), s₁))
    (hrest : play (e₁.runCycles p.recorded b) s₁ = ((e₂, out), s₂)) :
    play (e.runCycles p.recorded ((a + b : Nat) : Int)) s = ((e₂, out.map (a + ·)), s₂) := by
  have hshift := unpaced_shift p.recorded a b 0 e₁
  rw [Nat.add_zero] at hshift
  have hplay : play (unpaced p.recorded b 0 e₁) s₁ = ((e₂, out), s₂) := hrest
  rw [runCycles_add, play_bind, hfirst]
  simp only [if_true, hshift, play_map, hplay]

end Loops

/-! ### Ends -/

/-- The number of cycles that a run is asked to keep to: none if the number is negative, and any if there is none. -/
def bound : Option Int → ℕ∞
  | some max => max.toNat
  | none => ⊤

section Ends

variable {p : Peripherals (StateM W)} {e e₁ : Emulator} {s s₁ : Scene (Nat × W)} {k m : ℕ∞} {n polls waits : Nat}

/-- The poll at which the user leaves is counted, and nothing else is done. -/
theorem Tally.exit (h : Tally n polls waits e s e₁ s₁) :
    Tally n (polls + 1) waits e s e₁ ⟨s₁.log, (p.counted.poll s₁.world).2⟩ where
  cycles := h.cycles
  worked := h.worked
  polled := by
    rw [p.count_poll, h.polled]
    rfl
  waited := h.waited

theorem Tally.stopping (h : Tally n polls waits e s e₁ s₁) :
    ∃ e' s', play (stopping p.counted.recorded e₁ n none) s₁ = ((e', .ok n), s') ∧ Tally n polls waits e s e' s' ∧
      e'.machine = e₁.machine ∧ e'.running = false := by
  obtain ⟨w, hsilent⟩ := play_silence p.counted e₁ s₁
  have hpolled : w.1 = s₁.world.1 := by
    have hkeeps := (ActionRel.silence (p.counted_outputs s₁.world.1) e₁).2 s₁ rfl
    rwa [hsilent] at hkeeps
  have hpauses : pausesOf (toneRequests e₁.tone false ++ [.note (.runStopped n)]) = [] := by
    rw [pausesOf_append, pausesOf_toneRequests]
    rfl
  have hstopped : Tally n polls (waits + (pausesOf (toneRequests e₁.tone false ++ [.note (.runStopped n)])).length) e s
      { e₁ with tone := false, running := false }
      ⟨s₁.log ++ toneRequests e₁.tone false ++ [.note (.runStopped n)],
        (p.counted.perform (.note (.runStopped n)) w).2⟩ :=
    h.around _ rfl rfl hpolled (List.append_assoc ..) (by simp [hpauses])
  rw [hpauses] at hstopped
  refine ⟨_, _, ?_, hstopped, rfl, rfl⟩
  rw [Emulator.stopping, play_bind, hsilent]
  rfl

/-- A run that may go through `m` cycles, and is left at poll number `k`. -/
theorem tally_underway_end (hk : FirstExit p.counted (runSetsOut p.counted e s) k) (hn : n = min k m)
    (hgo : Faultless p.counted (runSetsOut p.counted e s) n) :
    ∃ e₁ s₁, (∀ limit : Nat, limit = m ∨ n < limit ∧ m = ⊤ →
        play (e.underway p.counted.recorded limit) s = ((e₁, n, none), s₁)) ∧
      Tally n (n + if k < m then 1 else 0) n e s e₁ s₁ ∧ e₁.machine = (runSetsOut p.counted e s n).1.machine := by
  obtain ⟨eₙ, sₙ, hrun, htally, -⟩ := tally_underway hk (hn.le.trans (min_le_left _ _)) hgo
  have hstart : runSetsOut p.counted e s n = (eₙ, ⟨sₙ.log, (p.counted.now sₙ.world).2⟩) := by
    rw [runSetsOut, hrun]
  rcases lt_or_ge k m with hleft | hlimit
  · rw [min_eq_left hleft.le] at hn
    have hexit := (hk n).2 hn
    rw [hstart] at hexit
    have hread : Tally n n n e s eₙ ⟨sₙ.log, (p.counted.now sₙ.world).2⟩ :=
      htally.around [] rfl rfl rfl (by simp) (by simp [pausesOf])
    have hnoted : Tally n (n + 1) n e s eₙ ⟨sₙ.log ++ [.note .exitRequested],
        (p.counted.perform (.note .exitRequested) (p.counted.poll (p.counted.now sₙ.world).2).2).2⟩ :=
      (hread.exit (p := p)).around [.note .exitRequested] rfl rfl rfl rfl (by simp [pausesOf])
    rw [if_pos hleft]
    refine ⟨_, _, fun limit hlimit => ?_, hnoted, by rw [hstart]⟩
    have hmore : n < limit := by
      rcases hlimit with hlimit | hlimit
      · rw [← hn, ← hlimit] at hleft
        exact_mod_cast hleft
      · exact hlimit.1
    exact underway_of_exit hrun hexit (step_of_exit hexit) hmore
  · rw [min_eq_right hlimit] at hn
    rw [if_neg hlimit.not_gt]
    refine ⟨eₙ, sₙ, fun limit hlimit => ?_, htally, by rw [hstart]⟩
    obtain rfl : limit = n := by
      rcases hlimit with hlimit | hlimit
      · exact_mod_cast hlimit.trans hn.symm
      · exact absurd (hn.trans hlimit.2) (ENat.natCast_ne_top n)
    exact hrun

/-- The same without waiting. -/
theorem tally_runCycles_end (limit : Nat) (hk : FirstExit p.counted (cyclesSetOut p.counted e s) k)
    (hn : n = min k limit) (hgo : Faultless p.counted (cyclesSetOut p.counted e s) n) :
    ∃ e₁ s₁, play (e.runCycles p.counted.recorded limit) s = ((e₁, .ok n), s₁) ∧
      Tally n (n + if k < limit then 1 else 0) 0 e s e₁ s₁ ∧
      e₁.machine = (cyclesSetOut p.counted e s n).1.machine ∧ e₁.running = e.running := by
  obtain ⟨eₙ, sₙ, hrun, htally, hrunning⟩ := tally_runCycles hk (hn.le.trans (min_le_left _ _)) hgo
  have hstart : cyclesSetOut p.counted e s n = (eₙ, sₙ) := by
    rw [cyclesSetOut, hrun]
  rcases lt_or_ge k limit with hleft | hlimit
  · rw [min_eq_left hleft.le] at hn
    have hexit := (hk n).2 hn
    rw [hstart] at hexit
    have hmore : n < limit := by
      rw [← hn] at hleft
      exact_mod_cast hleft
    rw [if_pos hleft]
    exact ⟨_, _, runCycles_of_exit hrun hexit (step_of_exit hexit) hmore, htally.exit, by rw [hstart], hrunning⟩
  · rw [min_eq_right hlimit] at hn
    obtain rfl : n = limit := by exact_mod_cast hn
    rw [if_neg hlimit.not_gt]
    exact ⟨eₙ, sₙ, hrun, htally, by rw [hstart], hrunning⟩

end Ends

/-- **What a loop accounts for.**  Of the polls of a run let number `k`, counted from zero, be the first at which the
user wants to leave, and let `m` be the limit, either of them `⊤` if there is none.  Then the run goes through `n`
cycles, the lesser of the two.  If none of these fails, `n` is what it answers; so many instructions have been carried
out, and so many waits asked for, all of them while it was running, which it is no more; it has polled as often, and
once again if `k < m`, at which poll the machine got no keys.  (A run without a limit is one that does not reach it.)
So it is without waiting too, but for the waits.  And so many cycles and then so many are their sum at once. -/
theorem loop_accounts (p : Peripherals (StateM W)) (e : Emulator) (s : Scene (Nat × W)) :
    (∀ (max : Option Int) (k : ℕ∞) (n : Nat), FirstExit p.counted (runSetsOut p.counted e s) k →
      n = min k (bound max) → Faultless p.counted (runSetsOut p.counted e s) n →
      ∃ e' s', (∀ limit : Nat, limit = bound max ∨ n < limit ∧ bound max = ⊤ →
          play (e.within p.counted.recorded limit) s = ((e', .ok n), s')) ∧
        Tally n (n + if k < bound max then 1 else 0) n e s e' s' ∧
        e'.machine = (runSetsOut p.counted e s n).1.machine ∧ e'.running = false) ∧
    (∀ max, e.run p.counted.recorded max = e.within p.counted.recorded (limitOf max)) ∧
    (∀ (count : Int) (k : ℕ∞) (n : Nat), FirstExit p.counted (cyclesSetOut p.counted e s) k →
      n = min k (bound count) → Faultless p.counted (cyclesSetOut p.counted e s) n →
      ∃ e' s', play (e.runCycles p.counted.recorded count) s = ((e', .ok n), s') ∧
        Tally n (n + if k < bound count then 1 else 0) 0 e s e' s' ∧
        e'.machine = (cyclesSetOut p.counted e s n).1.machine ∧ e'.running = e.running) ∧
    ∀ (a b : Nat) e₁ s₁ e₂ s₂ out, play (e.runCycles p.counted.recorded a) s = ((e₁, .ok a), s₁) →
      play (e₁.runCycles p.counted.recorded b) s₁ = ((e₂, out), s₂) →
      play (e.runCycles p.counted.recorded ((a + b : Nat) : Int)) s = ((e₂, out.map (a + ·)), s₂) := by
  refine ⟨fun max k n hk hn hgo => ?run, fun _ => rfl, fun count k n hk hn hgo => ?cycles,
    fun a b e₁ s₁ e₂ s₂ out => runCycles_append⟩
  case run =>
    obtain ⟨e₁, s₁, hplay, htally, hmachine⟩ := tally_underway_end hk hn hgo
    obtain ⟨e', s', hstop, hstopped, hkept, hover⟩ := htally.stopping (p := p)
    refine ⟨e', s', fun limit hlimit => ?_, hstopped, hkept.trans hmachine, hover⟩
    rw [within, play_bind, hplay limit hlimit]
    exact hstop
  case cycles =>
    obtain ⟨e', s', hplay, htally⟩ := tally_runCycles_end count.toNat hk hn hgo
    refine ⟨e', s', ?_, htally⟩
    rwa [runCycles, Int.toNat_natCast] at hplay

/-- A user who presses key `0` and leaves at the third poll. -/
def leaving : Peripherals (StateM Nat) where
  poll := fun polls => (if polls = 2 then .newInputs ||| .programExit else 0, polls + 1)
  keys := pure (some 1)
  now := pure 0.0
  perform _ := pure ()

/-- In memory is a program that jumps to where it is. -/
def spinning : Emulator :=
  (play (call leaving.recorded { config := {}, machine := .powerOn default, scheduler := ⟨0.5, 0.0, 0⟩ }
    (.load [0x12, 0x00])) ⟨[], 0⟩).1

/-- A run of at most five cycles is left after two, and has polled three times. -/
theorem loop_accounts_leaving :
    ∃ e' s', play (spinning.run leaving.counted.recorded (some 5)) ⟨[], (0, 0)⟩ = ((e', .ok 2), s') ∧
      Tally 2 3 2 spinning ⟨[], (0, 0)⟩ e' s' ∧ e'.machine.keys = 0 ∧ e'.running = false := by
  obtain ⟨hrun, hwithin, -⟩ := loop_accounts leaving spinning ⟨[], (0, 0)⟩
  have hexit : FirstExit leaving.counted (runSetsOut leaving.counted spinning ⟨[], (0, 0)⟩) (2 : Nat) := by
    intro l
    constructor
    · intro hl
      have hl : l < 2 := by exact_mod_cast hl
      interval_cases l <;> decide +kernel
    · intro hl
      obtain rfl : l = 2 := by exact_mod_cast hl
      decide +kernel
  have hgo : Faultless leaving.counted (runSetsOut leaving.counted spinning ⟨[], (0, 0)⟩) 2 := by
    intro l hl err herr
    have hok : (play ((runSetsOut leaving.counted spinning ⟨[], (0, 0)⟩ l).1.step leaving.counted.recorded)
        (runSetsOut leaving.counted spinning ⟨[], (0, 0)⟩ l).2).1.2 = .ok 0 := by
      interval_cases l <;> decide +kernel
    exact nomatch hok.symm.trans herr
  have hearlier : ((2 : Nat) : ℕ∞) < bound (some 5) := by
    have h : ((2 : Nat) : ℕ∞) < (5 : Nat) := by exact_mod_cast (by decide : 2 < 5)
    exact h
  obtain ⟨e', s', hplay, htally, hmachine, hover⟩ := hrun (some 5) (2 : Nat) 2 hexit (min_eq_left hearlier.le).symm hgo
  rw [if_pos hearlier] at htally
  refine ⟨e', s', ?_, htally, ?_, hover⟩
  · rw [hwithin]
    exact hplay 5 (.inl rfl)
  · rw [hmachine]
    decide +kernel

end Emulator

end Chip8

import Mathlib
import Chip8.Proofs.Keypad
import Chip8.Proofs.Machine.Calls

/-!
# Waiting for a key

`Fx0A` is the only instruction that marks a machine as waiting, or takes the mark away.  So the mark is known by the
latest step alone, and a machine that carries it stands at an `Fx0A` (`Waits`): time and key reports touch neither
program counter nor memory, and the next step carries out that same word again.  It stays where it is for as long as
no key is held (`AtKeyWait.still_after`), and goes on with a held key as soon as there is one (`AtKeyWait.releases`):
the random number that the search starts from decides which of the held keys it is, and nothing else.  All this together
is `keyWait_protocol`.
-/

namespace Chip8.Machine

/-! ### Standing at a key wait -/

/-- The next instruction is `Fx0A`. -/
def AtKeyWait (m : Machine) (x : Reg) : Prop := m.Inside ∧ m.word.toNat = 0xF00A + 0x100 * x.val

/-- The next step is a key wait that finds no key. -/
def Blocks (m : Machine) : Prop := (∃ x, m.AtKeyWait x) ∧ m.keys = 0

section Step

variable {m m' : Machine} {x : Reg}

theorem AtKeyWait.step_eq (h : m.AtKeyWait x) : m.step = .ok (m.awaitKey x, {}) :=
  step_eq_ok_iff.mpr ⟨.waitKey x, h.1, (Instr.decode?_eq_waitKey_iff _ _).mpr h.2, rfl⟩

theorem awaitKey_of_none (hkeys : m.keys = 0) (x : Reg) :
    m.awaitKey x = { m with random := m.random.key.2, awaitingKey := true } := by
  have hnone : m.keys.firstDown? m.random.key.1.val = none := KeyVector.firstDown?_eq_none_iff.mpr hkeys
  unfold awaitKey
  simp only [hnone]

theorem awaitKey_of_held (hkeys : m.keys ≠ 0) (x : Reg) :
    ∃ k, m.keys.isDown k ∧ m.awaitKey x =
      { m.setReg x (UInt8.ofNat k.val) with
        pc := m.pc + 2, awaitingKey := false, random := m.random.key.2 } := by
  cases hfound : m.keys.firstDown? m.random.key.1.val with
  | none => exact absurd (KeyVector.firstDown?_eq_none_iff.mp hfound) hkeys
  | some k =>
    refine ⟨k, KeyVector.isDown_of_firstDown? hfound, ?_⟩
    unfold awaitKey
    simp only [hfound]
    rfl

/-! ### The mark -/

/-- A machine that is marked as waiting stands at a key wait. -/
def Waits (m : Machine) : Prop := m.awaitingKey = true → ∃ x, m.AtKeyWait x

theorem step_awaitingKey_of_ok {eff : Effect} (h : m.Waits) (hs : m.step = .ok (m', eff)) :
    (m'.awaitingKey = true ↔ m.Blocks) ∧ m'.Waits := by
  by_cases hat : ∃ x, m.AtKeyWait x
  · obtain ⟨x, hx⟩ := hat
    obtain rfl : m.awaitKey x = m' := congrArg Prod.fst (Except.ok.inj (hx.step_eq.symm.trans hs))
    by_cases hkeys : m.keys = 0
    · rw [awaitKey_of_none hkeys]
      exact ⟨iff_of_true rfl ⟨⟨x, hx⟩, hkeys⟩, fun _ => ⟨x, hx⟩⟩
    · obtain ⟨k, -, hk⟩ := awaitKey_of_held hkeys x
      rw [hk]
      exact ⟨iff_of_false nofun fun hblocks => hkeys hblocks.2, nofun⟩
  · -- any other instruction leaves the mark as it is, and here it was not set
    obtain ⟨i, hin, hd, hp⟩ := step_eq_ok_iff.mp hs
    have hi : ∀ x, i ≠ .waitKey x := by
      rintro x rfl
      exact hat ⟨x, hin, (Instr.decode?_eq_waitKey_iff _ _).mp hd⟩
    have hmark : ¬ m'.awaitingKey = true := by
      rw [perform_awaitingKey hp hi]
      exact fun hm => hat (h hm)
    exact ⟨iff_of_false hmark fun hblocks => hat hblocks.1, fun hm => absurd hm hmark⟩

theorem act_step_awaitingKey (h : m.Waits) :
    ((m.act .step).1.awaitingKey = true ↔ m.Blocks) ∧ (m.act .step).1.Waits := by
  cases hs : m.step with
  | ok r =>
    rw [act_step_of_ok hs]
    exact step_awaitingKey_of_ok h hs
  | error f =>
    -- a key wait does not fail
    have hat : ¬ ∃ x, m.AtKeyWait x := by
      rintro ⟨x, hx⟩
      exact nomatch hx.step_eq.symm.trans hs
    rw [act_step_of_error hs]
    exact ⟨iff_of_false (fun hm => hat (h hm)) fun hblocks => hat hblocks.1, h⟩

end Step

/-! ### What stays -/

/-- The two machines differ in timers, keys and random numbers at most. -/
structure Still (m m' : Machine) : Prop where
  v : m'.v = m.v
  index : m'.index = m.index
  pc : m'.pc = m.pc
  stack : m'.stack = m.stack
  memory : m'.memory = m.memory
  screen : m'.screen = m.screen
  awaitingKey : m'.awaitingKey = m.awaitingKey

section Still

variable {m m' m'' : Machine} {x : Reg}

theorem Still.refl (m : Machine) : Still m m := ⟨rfl, rfl, rfl, rfl, rfl, rfl, rfl⟩

theorem Still.trans (h : Still m m') (h' : Still m' m'') : Still m m'' :=
  ⟨h'.v.trans h.v, h'.index.trans h.index, h'.pc.trans h.pc, h'.stack.trans h.stack,
    h'.memory.trans h.memory, h'.screen.trans h.screen, h'.awaitingKey.trans h.awaitingKey⟩

theorem Still.atKeyWait (h : Still m m') (hx : m.AtKeyWait x) : m'.AtKeyWait x := by
  unfold AtKeyWait Inside word at hx ⊢
  rwa [h.pc, h.memory]

theorem still_outer {e : Event} (he : e.Outer) (m : Machine) : Still m (m.act e).1 := by
  cases e with
  | tick => exact ⟨rfl, rfl, rfl, rfl, rfl, rfl, rfl⟩
  | input state => cases state <;> exact ⟨rfl, rfl, rfl, rfl, rfl, rfl, rfl⟩
  | _ => exact he.elim

theorem Waits.outer {e : Event} (he : e.Outer) (h : m.Waits) : (m.act e).1.Waits := by
  have hstill := still_outer he m
  intro hm
  rw [hstill.awaitingKey] at hm
  obtain ⟨x, hx⟩ := h hm
  exact ⟨x, hstill.atKeyWait hx⟩

theorem AtKeyWait.still_step (hx : m.AtKeyWait x) (hm : m.awaitingKey = true) (hkeys : m.keys = 0) :
    Still m (m.act .step).1 := by
  rw [act_step_of_ok hx.step_eq, awaitKey_of_none hkeys]
  exact ⟨rfl, rfl, rfl, rfl, rfl, rfl, hm.symm⟩

end Still

/-! ### Histories -/

/-- An event after the first step: a step, or one that carries out no instruction. -/
def Event.Later (e : Event) : Prop := e = .step ∨ e.Outer

/-- The latest step of a history was a key wait that found no key. -/
def LatestBlocks (m : Machine) (es : List Event) : Prop :=
  ∃ es₁ es₂, es = es₁ ++ .step :: es₂ ∧ (∀ e ∈ es₂, Event.Outer e) ∧ (m.after es₁).Blocks

section History

variable {m : Machine} {es : List Event} {e : Event} {x : Reg}

theorem after_append (m : Machine) (es es' : List Event) : m.after (es ++ es') = (m.after es).after es' :=
  List.foldl_append ..

theorem not_latestBlocks_nil (m : Machine) : ¬ m.LatestBlocks [] := by
  rintro ⟨es₁, es₂, hes, -⟩
  simp at hes

theorem latestBlocks_concat_step : m.LatestBlocks (es ++ [.step]) ↔ (m.after es).Blocks := by
  constructor
  · rintro ⟨es₁, es₂, hes, hout, hblocks⟩
    rcases List.eq_nil_or_concat es₂ with rfl | ⟨es₂, e, rfl⟩
    · obtain ⟨rfl, -⟩ := List.append_inj' hes rfl
      exact hblocks
    · rw [List.concat_eq_append, ← List.cons_append, ← List.append_assoc] at hes
      obtain ⟨-, he⟩ := List.append_inj' hes rfl
      obtain rfl := (List.cons.inj he).1
      exact (hout .step (by simp)).elim
  · intro hblocks
    exact ⟨es, [], rfl, by simp, hblocks⟩

theorem latestBlocks_concat_outer (he : e.Outer) : m.LatestBlocks (es ++ [e]) ↔ m.LatestBlocks es := by
  constructor
  · rintro ⟨es₁, es₂, hes, hout, hblocks⟩
    rcases List.eq_nil_or_concat es₂ with rfl | ⟨es₂, e', rfl⟩
    · obtain ⟨-, hstep⟩ := List.append_inj' hes rfl
      obtain rfl := (List.cons.inj hstep).1
      exact he.elim
    · rw [List.concat_eq_append, ← List.cons_append, ← List.append_assoc] at hes
      obtain ⟨hes, -⟩ := List.append_inj' hes rfl
      exact ⟨es₁, es₂, hes, fun e h => hout e (by simp [h]), hblocks⟩
  · rintro ⟨es₁, es₂, rfl, hout, hblocks⟩
    refine ⟨es₁, es₂ ++ [e], by simp, ?_, hblocks⟩
    intro e' h
    rcases List.mem_append.mp h with h | h
    · exact hout e' h
    · rwa [List.mem_singleton.mp h]

/-- The mark tells how the latest step went, and a machine that carries it stands at a key wait. -/
theorem after_awaitingKey (hm : m.awaitingKey = false) (hes : ∀ e ∈ es, Event.Later e) :
    ((m.after es).awaitingKey = true ↔ m.LatestBlocks es) ∧ (m.after es).Waits := by
  induction es using List.reverseRecOn with
  | nil =>
    have hmark : ¬ m.awaitingKey = true := by simp [hm]
    exact ⟨iff_of_false hmark m.not_latestBlocks_nil, fun h => absurd h hmark⟩
  | append_singleton es e ih =>
    obtain ⟨hiff, hwaits⟩ := ih fun e he => hes e (List.mem_append_left _ he)
    rw [after_append]
    rcases hes e (by simp) with rfl | he
    · rw [latestBlocks_concat_step]
      exact act_step_awaitingKey hwaits
    · rw [latestBlocks_concat_outer he, ← hiff]
      exact ⟨by rw [after_cons, after_nil, (still_outer he _).awaitingKey], hwaits.outer he⟩

/-- Whatever happens to a waiting machine, it stays as it is if no step finds a key. -/
theorem AtKeyWait.still_after (hx : m.AtKeyWait x) (hm : m.awaitingKey = true)
    (hes : ∀ e ∈ es, Event.Later e)
    (hkeys : ∀ es₁ es₂, es = es₁ ++ .step :: es₂ → (m.after es₁).keys = 0) : Still m (m.after es) := by
  induction es generalizing m with
  | nil => exact .refl m
  | cons e es ih =>
    have hstill : Still m (m.act e).1 := by
      rcases hes e (List.mem_cons_self ..) with rfl | he
      · exact hx.still_step hm (hkeys [] es rfl)
      · exact still_outer he m
    refine hstill.trans (ih (hstill.atKeyWait hx) (hstill.awaitingKey.trans hm) ?_ ?_)
    · exact fun e' h => hes e' (List.mem_cons_of_mem _ h)
    · rintro es₁ es₂ rfl
      exact hkeys (e :: es₁) es₂ rfl

end History

/-! ### Going on -/

section Release

variable {m : Machine} {x : Reg}

/-- The next step puts a held key into `Vx` and goes on; nothing else changes. -/
def Releases (m : Machine) (x : Reg) : Prop :=
  ∃ k m', m.keys.isDown k ∧ m.step = .ok (m', {}) ∧
    m'.reg x = UInt8.ofNat k.val ∧ (∀ y, y ≠ x → m'.reg y = m.reg y) ∧
    m'.pc.toNat = m.pc.toNat + 2 ∧ m'.awaitingKey = false ∧
    m' = { m with v := m'.v, pc := m'.pc, awaitingKey := m'.awaitingKey, random := m'.random }

theorem AtKeyWait.releases (hx : m.AtKeyWait x) (hkeys : m.keys ≠ 0) : m.Releases x := by
  obtain ⟨k, hdown, hk⟩ := awaitKey_of_held hkeys x
  have hpc : (m.pc + 2).toNat = m.pc.toNat + 2 := by
    have := hx.1.2
    rw [UInt16.toNat_add]
    exact Nat.mod_eq_of_lt (by simp; omega)
  refine ⟨k, m.awaitKey x, hdown, hx.step_eq, ?_⟩
  rw [hk]
  refine ⟨?_, ?_, hpc, rfl, rfl⟩
  · exact (reg_setReg m x x _).trans (if_pos rfl)
  · intro y hy
    exact (reg_setReg m x y _).trans (if_neg hy)

end Release

/-! ### The protocol -/

/-- What waiting at `Fx0A` means. -/
structure Waiting (m : Machine) (x : Reg) : Prop where
  inside : m.Inside
  word : m.word.toNat = 0xF00A + 0x100 * x.val
  /-- Steps that find no key leave it waiting as it is, and the first one that finds keys goes on with one of them,
  whatever random numbers are drawn. -/
  next : ∀ es, (∀ e ∈ es, Event.Later e) →
    (∀ es₁ es₂, es = es₁ ++ .step :: es₂ → (m.after es₁).keys = 0) →
    Still m (m.after es) ∧
      ((m.after es).keys ≠ 0 → ∀ random, { m.after es with random }.Releases x)

theorem AtKeyWait.waiting {m : Machine} {x : Reg} (hx : m.AtKeyWait x) (hm : m.awaitingKey = true) :
    m.Waiting x := by
  refine ⟨hx.1, hx.2, fun es hes hzero => ?_⟩
  have hstill := hx.still_after hm hes hzero
  refine ⟨hstill, fun hkeys random => ?_⟩
  have hat : AtKeyWait { m.after es with random } x := hstill.atKeyWait hx
  exact hat.releases hkeys

theorem not_awaitingKey_before {es : List Event} (random : Random) (hes : ∀ e ∈ es, e ≠ .step) :
    ((powerOn random).after es).awaitingKey = false := by
  induction es using List.reverseRecOn with
  | nil => rfl
  | append_singleton es e ih =>
    have ih := ih fun e' he => hes e' (List.mem_append_left _ he)
    rw [after_append, after_cons, after_nil]
    cases e with
    | step => exact absurd rfl (hes .step (by simp))
    | tick => exact ih
    | input state => cases state <;> exact ih
    | load program =>
      obtain ⟨memory, hload⟩ := act_load ((powerOn random).after es) program
      rw [hload]
      exact ih
    | reset => rfl

/-- **A machine is marked as waiting exactly if its latest step carried out `Fx0A` while no key was held**, and
then it waits.  Switch a machine on, with any random numbers as a reset leaves them, and load what you like; then let
it step, let time pass, and report keys, in any order. -/
theorem keyWait_protocol (random : Random) (before es : List Event) (hbefore : ∀ e ∈ before, e ≠ .step)
    (hes : ∀ e ∈ es, Event.Later e) :
    ((((powerOn random).after before).after es).awaitingKey = true ↔
      ((powerOn random).after before).LatestBlocks es) ∧
    ((((powerOn random).after before).after es).awaitingKey = true →
      ∃ x, (((powerOn random).after before).after es).Waiting x) := by
  obtain ⟨hiff, hwaits⟩ := after_awaitingKey (not_awaitingKey_before random hbefore) hes
  refine ⟨hiff, fun hm => ?_⟩
  obtain ⟨x, hx⟩ := hwaits hm
  exact ⟨x, hx.waiting hm⟩

/-- `F30A` at `$200` waits, also while time passes; with key `5` held it goes on. -/
theorem keyWait_protocol_F30A :
    (∀ e ∈ [Event.load [0xF3, 0x0A]], e ≠ .step) ∧
    (∀ e ∈ [Event.step, .tick, .input (some 0x20)], e.Later) ∧
    (((powerOn default).after [.load [0xF3, 0x0A]]).after [.step, .tick, .input (some 0x20)]).awaitingKey = true ∧
    ∃ x, (((powerOn default).after [.load [0xF3, 0x0A]]).after [.step, .tick, .input (some 0x20)]).Releases x := by
  have hbefore : ∀ e ∈ [Event.load [0xF3, 0x0A]], e ≠ .step := by simp
  have hes : ∀ e ∈ [Event.step, .tick, .input (some 0x20)], e.Later := by simp [Event.Later, Event.Outer]
  have hprotocol := keyWait_protocol default _ _ hbefore hes
  generalize hm : Machine.after _ _ = m at hprotocol ⊢
  obtain ⟨hmark, hkeys⟩ : m.awaitingKey = true ∧ m.keys ≠ 0 := by
    subst hm
    decide +kernel
  obtain ⟨x, hx⟩ := hprotocol.2 hmark
  exact ⟨hbefore, hes, hmark, x, (hx.next [] (by simp) (by simp)).2 hkeys m.random⟩

end Chip8.Machine

import Mathlib
import Chip8.Proofs.Machine.History

/-!
# Calls and returns

A call is answered by the return that brings the stack back to its depth: whatever is called, recalled or
rewritten in between, that return leaves the very stack of the call, and goes on behind it
(`return_answers_call`).  The invariant of the run is that the stack ends in the address of the call on top of
the stack of the call (`Above`).  Only a return can shorten a stack, and as long as the stack stays deeper it
leaves that end alone; when the depth of the call is reached, the address of the call is what it takes.
-/

namespace Chip8.Machine

/-! ### Turns -/

/-- An event that carries out no instruction: time passes, or key states are reported. -/
def Event.Outer : Event → Prop
  | .tick | .input _ => True
  | _ => False

/-- One carried out instruction, and then any events that carry out none. -/
def Turn (m m' : Machine) : Prop :=
  ∃ m₁ eff es, m.step = .ok (m₁, eff) ∧ (∀ e ∈ es, Event.Outer e) ∧ m' = m₁.after es

/-- Outer events leave the stack and the program counter alone. -/
theorem after_outer {es : List Event} (hes : ∀ e ∈ es, Event.Outer e) (m : Machine) :
    (m.after es).stack = m.stack ∧ (m.after es).pc = m.pc := by
  induction es generalizing m with
  | nil => exact ⟨rfl, rfl⟩
  | cons e es ih =>
    have he := hes e (List.mem_cons_self ..)
    have ih := ih (fun e' h => hes e' (List.mem_cons_of_mem _ h)) (m.act e).1
    have hact : (m.act e).1.stack = m.stack ∧ (m.act e).1.pc = m.pc := by
      cases e with
      | tick => exact ⟨rfl, rfl⟩
      | input state => cases state <;> exact ⟨rfl, rfl⟩
      | _ => exact he.elim
    exact ⟨ih.1.trans hact.1, ih.2.trans hact.2⟩

/-- A turn is known by its instruction: what it does to the stack and where it sends the program counter. -/
theorem Turn.cases {m m' : Machine} (h : Turn m m') :
    ∃ i, m.Inside ∧ Instr.decode? m.word = some i ∧ m'.stack = m.stackAfter i ∧
      (m'.pc.toNat : Int) = m.target i % 2 ^ 16 := by
  obtain ⟨m₁, eff, es, hs, hes, rfl⟩ := h
  obtain ⟨i, hin, hd, hp⟩ := step_eq_ok_iff.mp hs
  obtain ⟨hstack, hpc⟩ := after_outer hes m₁
  refine ⟨i, hin, hd, ?_, ?_⟩
  · rw [hstack, perform_stack hp]
  · rw [hpc, perform_pc hp]

/-! ### The invariant of a run -/

/-- The stack ends in the address `c` of a call, on top of the stack `s` of the call. -/
def Above (c : Int) (s : List Int) (m : Machine) : Prop := (c :: s) <:+ m.stack

section Run

variable {c : Int} {s : List Int} {m m' : Machine}

/-- A turn that stays deeper than the call leaves the end of the stack alone. -/
theorem Above.turn (h : Above c s m) (ht : Turn m m') (hdeep : s.length < m'.stack.length) :
    Above c s m' := by
  obtain ⟨i, -, -, hstack, -⟩ := ht.cases
  unfold Above at h ⊢
  rw [hstack] at hdeep ⊢
  cases i
  case ret =>
    obtain ⟨t, ht⟩ := h
    cases t with
    | nil => simp [stackAfter, ← ht] at hdeep
    | cons b t => exact ⟨t, by simp [stackAfter, ← ht]⟩
  case call a => exact h.trans (List.suffix_cons _ _)
  all_goals exact h

/-- A turn that reaches the depth of the call is its return. -/
theorem Above.close (h : Above c s m) (ht : Turn m m') (hdepth : m'.stack.length = s.length) :
    m.Inside ∧ Instr.decode? m.word = some .ret ∧ m'.stack = s ∧
      (m'.pc.toNat : Int) = (c + 2) % 2 ^ 16 := by
  obtain ⟨i, hin, hd, hstack, hpc⟩ := ht.cases
  have hlen := h.length_le
  rw [List.length_cons] at hlen
  rw [hstack] at hdepth
  cases i
  case ret =>
    obtain ⟨t, ht⟩ := h
    have htail : m.stack.tail.length = s.length := hdepth
    have hm : m.stack = c :: s := by
      cases t with
      | nil => exact ht.symm
      | cons b t =>
        rw [← ht] at htail
        simp at htail
        omega
    refine ⟨hin, hd, by rw [hstack, stackAfter, hm]; rfl, ?_⟩
    rw [hpc, target, hm]
    rfl
  all_goals
    simp only [stackAfter, List.length_cons] at hdepth
    omega

/-- A run that stays deeper than the call leaves the end of the stack alone. -/
theorem Above.run {deep : List Machine} (h : Above c s m) (hrun : List.IsChain Turn (m :: deep))
    (hdeep : ∀ x ∈ deep, s.length < x.stack.length) : Above c s (deep.getLastD m) := by
  induction deep generalizing m with
  | nil => exact h
  | cons x deep ih =>
    obtain ⟨hx, hrun⟩ := List.isChain_cons_cons.mp hrun
    rw [List.getLastD_cons]
    exact ih (h.turn hx (hdeep x (List.mem_cons_self ..))) hrun
      (fun y hy => hdeep y (List.mem_cons_of_mem _ hy))

end Run

/-! ### The discipline -/

/-- **A call is answered by the return that brings the stack back to its depth.**  The machine `m` carries out
a call, the machines in `deep` are those after the following turns, all with a deeper stack, and the turn to
`m'` reaches the depth of `m` again.  Then that turn carried out `00EE`, the stack is the one of `m`, entry for
entry, and the program counter is behind the call. -/
theorem return_answers_call {m m' : Machine} {deep : List Machine} {a : Addr}
    (hcall : Instr.decode? m.word = some (.call a)) (hrun : List.IsChain Turn (m :: deep))
    (hlast : Turn (deep.getLastD m) m') (hdeep : ∀ x ∈ deep, m.stack.length < x.stack.length)
    (hdepth : m'.stack.length = m.stack.length) :
    (deep.getLastD m).Inside ∧ (deep.getLastD m).word = 0x00EE ∧ m'.stack = m.stack ∧
      m'.pc.toNat = m.pc.toNat + 2 := by
  cases deep with
  | nil =>
    obtain ⟨i, -, hd, hstack, -⟩ := hlast.cases
    obtain rfl : i = .call a := Option.some.inj (hd.symm.trans hcall)
    simp [hstack, stackAfter] at hdepth
  | cons x deep =>
    obtain ⟨hx, hrun⟩ := List.isChain_cons_cons.mp hrun
    obtain ⟨i, ⟨-, hpc⟩, hd, hstack, -⟩ := hx.cases
    obtain rfl : i = .call a := Option.some.inj (hd.symm.trans hcall)
    have habove : Above m.pc.toNat m.stack x := by
      unfold Above
      rw [hstack, stackAfter]
    rw [List.getLastD_cons] at hlast ⊢
    have hdeep' := fun y hy => hdeep y (List.mem_cons_of_mem x hy)
    obtain ⟨hin, hret, hs, hc⟩ := (habove.run hrun hdeep').close hlast hdepth
    exact ⟨hin, (Instr.decode?_eq_ret_iff _).mp hret, hs, by omega⟩

/-! A program at `$200` calls `$204`, which calls `$206`, where there is the only return.  It is carried out for the
inner call first, and then for the outer one. -/

def nested (stack : List Int) (pc : UInt16) : Machine :=
  { powerOn default with
    memory := Memory.powerOn.writeBytes 0x200 [0x22, 0x04, 0x00, 0x00, 0x22, 0x06, 0x00, 0xEE], stack, pc }

theorem turn_nested_outer : Turn (nested [] 0x200) (nested [0x200] 0x204) := by
  refine ⟨_, {}, [.tick], step_eq_ok_iff.mpr ⟨.call 0x204, by decide, by decide +kernel, rfl⟩, ?_, rfl⟩
  simp [Event.Outer]

theorem turn_nested_inner : Turn (nested [0x200] 0x204) (nested [0x204, 0x200] 0x206) :=
  ⟨_, {}, [], step_eq_ok_iff.mpr ⟨.call 0x206, by decide, by decide +kernel, rfl⟩, by simp, rfl⟩

theorem turn_nested_ret : Turn (nested [0x204, 0x200] 0x206) (nested [0x200] 0x206) :=
  ⟨_, {}, [], step_eq_ok_iff.mpr ⟨.ret, by decide, by decide +kernel, rfl⟩, by simp, rfl⟩

/-- The outer call is answered by the second time around the return. -/
theorem return_answers_call_nested :
    Instr.decode? (nested [] 0x200).word = some (.call 0x204) ∧
      List.IsChain Turn [nested [] 0x200, nested [0x200] 0x204, nested [0x204, 0x200] 0x206,
        nested [0x200] 0x206] ∧
      Turn (nested [0x200] 0x206) (nested [] 0x202) ∧
      (nested [0x200] 0x206).Inside ∧ (nested [0x200] 0x206).word = 0x00EE ∧
      (nested [] 0x202).stack = (nested [] 0x200).stack ∧
      (nested [] 0x202).pc.toNat = (nested [] 0x200).pc.toNat + 2 := by
  have hcall : Instr.decode? (nested [] 0x200).word = some (.call 0x204) := by decide +kernel
  have hrun : List.IsChain Turn [nested [] 0x200, nested [0x200] 0x204, nested [0x204, 0x200] 0x206,
      nested [0x200] 0x206] := by
    simp [turn_nested_outer, turn_nested_inner, turn_nested_ret]
  have hlast : Turn (nested [0x200] 0x206) (nested [] 0x202) :=
    ⟨_, {}, [], step_eq_ok_iff.mpr ⟨.ret, by decide, by decide +kernel, rfl⟩, by simp, rfl⟩
  have hdeep : ∀ x ∈ [nested [0x200] 0x204, nested [0x204, 0x200] 0x206, nested [0x200] 0x206],
      (nested [] 0x200).stack.length < x.stack.length := by
    simp [nested, powerOn]
  exact ⟨hcall, hrun, hlast, return_answers_call hcall hrun hlast hdeep rfl⟩

end Chip8.Machine

import Mathlib
import Chip8.Proofs.Emulator.Progress

/-!
# One emulator on many peripherals

An emulator knows its peripherals by what they answer, and not by the monad in which they act.  So a relation between
the actions of two monads that goes along with doing nothing and with doing one thing after another holds between all
that an emulator does on the two sides, as soon as it holds between the peripherals (`ActionRel.attendAll`).

Two such relations are used.  `keeping` says of actions on recorded peripherals that they keep a condition on the world.
`merging` joins the state of a device and the world behind it to one world, with the requests recorded: what is known
of recorded peripherals carries over to devices as they are.
-/

namespace Chip8

/-- A relation between the actions of two monads, which `pure` and `>>=` respect. -/
structure ActionRel (m n : Type → Type) [Monad m] [Monad n] where
  Rel {α : Type} : m α → n α → Prop
  pure {α : Type} (a : α) : Rel (pure a) (pure a)
  bind {α β : Type} {x : m α} {y : n α} {f : α → m β} {g : α → n β} :
    Rel x y → (∀ a, Rel (f a) (g a)) → Rel (x >>= f) (y >>= g)

namespace ActionRel

open Emulator

variable {m n : Type → Type} [Monad m] [Monad n] {p : Peripherals m} {q : Peripherals n}

/-- All that an emulator does with its peripherals but polling them is related. -/
structure Outputs (R : ActionRel m n) (p : Peripherals m) (q : Peripherals n) : Prop where
  keys : R.Rel p.keys q.keys
  now : R.Rel p.now q.now
  perform : ∀ r, R.Rel (p.perform r) (q.perform r)

structure Whole (R : ActionRel m n) (p : Peripherals m) (q : Peripherals n) : Prop extends R.Outputs p q where
  poll : R.Rel p.poll q.poll

/-! ### Behind the poll -/

section Outputs

variable {R : ActionRel m n} (h : R.Outputs p q)
include h

theorem sound (on : Bool) : R.Rel (sound p on) (sound q on) :=
  R.bind (h.perform _) fun _ => h.perform _

theorem pushTone (e : Emulator) : R.Rel (e.pushTone p) (e.pushTone q) := by
  unfold Emulator.pushTone
  split
  · exact R.pure _
  · exact R.bind (R.sound h _) fun _ => R.pure _

theorem silence (e : Emulator) : R.Rel (e.silence p) (e.silence q) := by
  unfold Emulator.silence
  split
  · exact R.bind (R.sound h _) fun _ => R.pure _
  · exact R.pure _

theorem stopping (e : Emulator) (executed : Nat) (failure : Option CycleError) :
    R.Rel (stopping p e executed failure) (stopping q e executed failure) :=
  R.bind (R.silence h e) fun _ => R.bind (h.perform _) fun _ => R.pure _

theorem load (e : Emulator) (program : List UInt8) : R.Rel (e.load p program) (e.load q program) := by
  unfold Emulator.load
  split
  · exact R.pure _
  · exact R.bind (h.perform _) fun _ => R.pure _

theorem reset (e : Emulator) : R.Rel (e.reset p) (e.reset q) :=
  R.bind (R.silence h e) fun _ => R.bind h.now fun _ => R.pure _

theorem pushFrame (e : Emulator) (signals : Signals) : R.Rel (e.pushFrame p signals) (e.pushFrame q signals) := by
  unfold Emulator.pushFrame
  split
  · exact R.bind (h.perform _) fun _ => h.perform _
  · exact R.pure _

theorem settle (e : Emulator) (signals : Signals) : R.Rel (e.settle p signals) (e.settle q signals) := by
  unfold Emulator.settle
  refine R.bind (R.pushTone h e) fun r => R.bind h.now fun now => ?_
  split
  · exact R.pure _
  · exact R.bind (R.pushTone h _) fun r => R.bind (R.pushFrame h _ _) fun _ => R.pure _

theorem carryOut (e : Emulator) (signals : Signals) : R.Rel (e.carryOut p signals) (e.carryOut q signals) := by
  unfold Emulator.carryOut
  split
  · exact R.pure _
  · dsimp only
    split
    -- under a trace there is a note in front, and what follows is the same
    case' isTrue => refine R.bind (h.perform _) fun _ => ?_
    all_goals
      split
      · exact R.pure _
      · split
        · exact R.bind (h.perform _) fun _ => R.settle h _ _
        · exact R.settle h _ _

theorem answered (e : Emulator) (signals : Signals) : R.Rel (e.answered p signals) (e.answered q signals) := by
  unfold Emulator.answered
  split
  · exact R.pure _
  · split
    · exact R.bind h.keys fun keys => R.carryOut h _ _
    · exact R.carryOut h _ _

end Outputs

/-! ### Cycles and calls -/

section Whole

variable {R : ActionRel m n} (h : R.Whole p q)
include h

theorem step (e : Emulator) : R.Rel (e.step p) (e.step q) :=
  R.bind h.poll fun signals => R.answered h.toOutputs e signals

theorem unpaced (limit executed : Nat) (e : Emulator) :
    R.Rel (unpaced p limit executed e) (unpaced q limit executed e) := by
  induction limit generalizing executed e with
  | zero => exact R.pure _
  | succ limit ih =>
    unfold Emulator.unpaced
    refine R.bind (R.step h e) ?_
    rintro ⟨e', out⟩
    cases out with
    | error err => exact R.pure _
    | ok signals =>
      dsimp only
      split
      · exact R.pure _
      · exact ih _ _

theorem paced (period : Float) (limit executed : Nat) (e : Emulator) :
    R.Rel (paced p period limit executed e) (paced q period limit executed e) := by
  induction limit generalizing executed e with
  | zero => exact R.pure _
  | succ limit ih =>
    unfold Emulator.paced
    refine R.bind h.now fun started => R.bind (R.step h e) ?_
    rintro ⟨e', out⟩
    cases out with
    | error err => exact R.pure _
    | ok signals =>
      dsimp only
      split
      · exact R.bind (h.perform _) fun _ => R.pure _
      · exact R.bind h.now fun now => R.bind (h.perform _) fun _ => ih _ _

theorem underway (e : Emulator) (limit : Nat) : R.Rel (e.underway p limit) (e.underway q limit) :=
  R.bind h.now fun _ => R.bind (h.perform _) fun _ => R.paced h _ _ _ _

theorem within (e : Emulator) (limit : Nat) : R.Rel (e.within p limit) (e.within q limit) :=
  R.bind (R.underway h e limit) fun r => R.stopping h.toOutputs r.1 r.2.1 r.2.2

theorem run (e : Emulator) (max : Option Int) : R.Rel (e.run p max) (e.run q max) :=
  R.within h e (limitOf max)

theorem attend (e : Emulator) (c : Call) : R.Rel (attend p e c) (attend q e c) := by
  cases c with
  | step => exact R.bind (R.step h e) fun _ => R.pure _
  | run max => exact R.bind (R.run h e max) fun _ => R.pure _
  | runCycles count => exact R.bind (R.unpaced h _ _ e) fun _ => R.pure _
  | reset => exact R.bind (R.reset h.toOutputs e) fun _ => R.pure _
  | load program => exact R.bind (R.load h.toOutputs e program) fun _ => R.pure _
  | setClock clock => exact R.pure _

/-- **Related peripherals make related emulators**, through any calls. -/
theorem attendAll (e : Emulator) (cs : List Call) : R.Rel (attendAll p e cs) (attendAll q e cs) := by
  induction cs generalizing e with
  | nil => exact R.pure _
  | cons c cs ih =>
    unfold Emulator.attendAll
    exact R.bind (R.attend h e c) fun r => R.bind (ih r.1) fun _ => R.pure _

end Whole

/-! ### Beside a state -/

section Beside

variable (R : ActionRel m n) (σ : Type)

/-- The same relation between actions that have a state beside them. -/
def beside : ActionRel (StateT σ m) (StateT σ n) where
  Rel x y := ∀ s, R.Rel (x s) (y s)
  pure a s := R.pure (a, s)
  bind hx hf s := R.bind (hx s) fun r => hf r.1 r.2

variable {R σ}

theorem beside_lift {α : Type} {x : m α} {y : n α} (h : R.Rel x y) :
    (R.beside σ).Rel (StateT.lift x) (StateT.lift y) :=
  fun s => R.bind h fun a => R.pure (a, s)

end Beside

end ActionRel

/-! ### What is kept of the world -/

variable {W : Type}

/-- The same action twice, which keeps a condition on the world. -/
def keeping (Q : W → Prop) :
    ActionRel (StateT (List Request) (StateM W)) (StateT (List Request) (StateM W)) where
  Rel x y := x = y ∧ ∀ s, Q s.world → Q (play x s).2.world
  pure _ := ⟨rfl, fun _ hs => hs⟩
  bind := by
    rintro α β x _ f g ⟨rfl, hx⟩ hf
    refine ⟨bind_congr fun a => (hf a).1, fun s hs => ?_⟩
    rw [play_bind]
    exact (hf _).2 _ (hx s hs)

theorem keeping_outputs {p : Peripherals (StateM W)} {Q : W → Prop} (hkeys : ∀ w, Q w → Q (p.keys w).2)
    (hnow : ∀ w, Q w → Q (p.now w).2) (hperform : ∀ r w, Q w → Q (p.perform r w).2) :
    (keeping Q).Outputs p.recorded p.recorded where
  keys := ⟨rfl, fun _ hs => hkeys _ hs⟩
  now := ⟨rfl, fun _ hs => hnow _ hs⟩
  perform r := ⟨rfl, fun _ hs => hperform r _ hs⟩

/-! ### Devices with a state of their own -/

variable {σ α β : Type}

/-- An action beside a state, as an action on a world that holds this state. -/
def merge (x : StateT σ (StateM W) α) : StateM (σ × W) α :=
  fun (t, w) => let r := x t w; (r.1.1, (r.1.2, r.2))

section Merge

variable (s : σ × W)

@[simp] theorem merge_pure (a : α) : merge (pure a) s = (a, s) := rfl

@[simp] theorem merge_bind (x : StateT σ (StateM W) α) (f : α → StateT σ (StateM W) β) :
    merge (x >>= f) s = merge (f (merge x s).1) (merge x s).2 := rfl

@[simp] theorem merge_get : merge get s = (s.1, s) := rfl

@[simp] theorem merge_lift (x : StateM W α) : merge (StateT.lift x) s = ((x s.2).1, (s.1, (x s.2).2)) := rfl

end Merge

/-- Peripherals with a state of their own, as peripherals in a world that holds this state. -/
def Peripherals.merged (p : Peripherals (StateT σ (StateM W))) : Peripherals (StateM (σ × W)) where
  poll := merge p.poll
  keys := merge p.keys
  now := merge p.now
  perform r := merge (p.perform r)

/-- The same action, on a device as it is, and merged and recorded. -/
def merging : ActionRel (StateT σ (StateM W)) (StateT (List Request) (StateM (σ × W))) where
  Rel x y := ∀ t w log, ∃ log', play y ⟨log, (t, w)⟩ = ((x t w).1.1, ⟨log', ((x t w).1.2, (x t w).2)⟩)
  pure _ _ _ log := ⟨log, rfl⟩
  bind := by
    intro α β x y f g hx hf t w log
    obtain ⟨log₁, hy⟩ := hx t w log
    obtain ⟨log₂, hg⟩ := hf (x t w).1.1 (x t w).1.2 (x t w).2 log₁
    refine ⟨log₂, ?_⟩
    rw [play_bind, hy]
    exact hg

theorem merging_whole (p : Peripherals (StateT σ (StateM W))) : merging.Whole p p.merged.recorded where
  poll _ _ log := ⟨log, rfl⟩
  keys _ _ log := ⟨log, rfl⟩
  now _ _ log := ⟨log, rfl⟩
  perform r _ _ log := ⟨log ++ [r], rfl⟩

end Chip8

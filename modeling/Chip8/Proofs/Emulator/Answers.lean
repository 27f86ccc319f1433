import Mathlib
import Chip8.Proofs.Emulator.Parametric

/-!
# What calls answer

A call leaves an emulator and answers something: signals, a number of instructions, an error.  `respondAll` keeps both,
call by call, so that two emulators can be held against each other.

Of all that is plugged in, an emulator hears from an input device and a clock only.  `Source` is these two alone, and
peripherals are *fed by* a source if their input and their time come from there and nothing else that they do has an
effect on it (`Peripherals.FedBy`).  What an emulator then becomes and answers is what it would with nobody looking
(`respondAll_alone`).  So on any peripherals that are fed by one source it becomes and answers the same, and it asks for
the same (`alike_whole`).
-/

namespace Chip8

variable {V W W' : Type}

namespace Emulator

/-! ### Calls and their answers -/

inductive Answer
  | step (out : Except CycleError Signals)
  | cycles (out : Except CycleError Nat)
  | reset
  | load (out : Except Error Unit)
  | setClock (out : Except RateError Unit)

section Respond

variable {m : Type → Type} [Monad m]

/-- The emulator after a call, and what the call answers. -/
def respond (p : Peripherals m) (e : Emulator) : Call → m (Emulator × Answer)
  | .step => do
    let (e, out) ← e.step p
    return (e, .step out)
  | .run max => do
    let (e, out) ← e.run p max
    return (e, .cycles out)
  | .runCycles count => do
    let (e, out) ← e.runCycles p count
    return (e, .cycles out)
  | .reset => return (← e.reset p, .reset)
  | .load program => do
    let (e, out) ← e.load p program
    return (e, .load out)
  | .setClock clock =>
    return match e.withClock clock with
    | .ok e => (e, .setClock (.ok ()))
    | .error err => (e, .setClock (.error err))

/-- Calls one after another: the emulator after each of them, and what it answers. -/
def respondAll (p : Peripherals m) : Emulator → List Call → m (List (Emulator × Answer))
  | _, [] => return []
  | e, c :: cs => do
    let r ← respond p e c
    let rs ← respondAll p r.1 cs
    return r :: rs

end Respond

end Emulator

namespace ActionRel

open Emulator

variable {m n : Type → Type} [Monad m] [Monad n] {p : Peripherals m} {q : Peripherals n} {R : ActionRel m n}
  (h : R.Whole p q)
include h

theorem respond (e : Emulator) (c : Call) : R.Rel (respond p e c) (respond q e c) := by
  cases c with
  | step => exact R.bind (R.step h e) fun _ => R.pure _
  | run max => exact R.bind (R.run h e max) fun _ => R.pure _
  | runCycles count => exact R.bind (R.unpaced h _ _ e) fun _ => R.pure _
  | reset => exact R.bind (R.reset h.toOutputs e) fun _ => R.pure _
  | load program => exact R.bind (R.load h.toOutputs e program) fun _ => R.pure _
  | setClock clock => exact R.pure _

theorem respondAll (e : Emulator) (cs : List Call) : R.Rel (respondAll p e cs) (respondAll q e cs) := by
  induction cs generalizing e with
  | nil => exact R.pure _
  | cons c cs ih => exact R.bind (R.respond h e c) fun r => R.bind (ih r.1) fun _ => R.pure _

end ActionRel

/-! ### Sources of input and time -/

/-- Where input and time come from: an input device and a clock, in a world `V` of their own.  Time also goes on where
an emulator waits. -/
structure Source (V : Type) where
  poll : StateM V Signals
  keys : StateM V (Option Int)
  now : StateM V Float
  pause : Pause → StateM V Unit

/-- Nothing but input and time: nobody looks, listens or takes note. -/
def Source.alone (source : Source V) : Peripherals (StateM V) where
  poll := source.poll
  keys := source.keys
  now := source.now
  perform
    | .pause pause => source.pause pause
    | _ => pure ()

/-- Nothing but input and time, and a list of all requests. -/
def Source.noting (source : Source V) : Peripherals (StateM (List Request × V)) := source.alone.recorded.merged

/-- An action as it looks in a part of the world: the answer is the same, and so is what becomes of this part. -/
def projecting (view : W → V) : ActionRel (StateM W) (StateM V) where
  Rel x y := ∀ w, (x w).map id view = y (view w)
  pure _ _ := rfl
  bind := by
    intro α β x y f g hx hf w
    have hrest : ((f (x w).1) (x w).2).map id view = (g (x w).1) (view (x w).2) := hf _ _
    exact hrest.trans (congrArg (fun r => g r.1 r.2) (hx w))

/-- Peripherals get their input and their time from a source, which is a part of their world.  Frames, tones and notices
are taken in any way that leaves this part alone. -/
def Peripherals.FedBy (p : Peripherals (StateM W)) (source : Source V) (view : W → V) : Prop :=
  (projecting view).Whole p source.alone

theorem Source.fedBy_alone (source : Source V) : source.alone.FedBy source id :=
  ⟨⟨fun _ => rfl, fun _ => rfl, fun _ _ => rfl⟩, fun _ => rfl⟩

theorem Source.fedBy_noting (source : Source V) : source.noting.FedBy source Prod.snd :=
  ⟨⟨fun _ => rfl, fun _ => rfl, fun _ _ => rfl⟩, fun _ => rfl⟩

section FedBy

variable {p : Peripherals (StateM W)} {q : Peripherals (StateM W')} {source : Source V} {view : W → V}
  {view' : W' → V}

/-- Whatever else is plugged in, an emulator answers as it does to its source alone. -/
theorem Emulator.respondAll_alone (h : p.FedBy source view) (e : Emulator) (cs : List Call) (w : W) :
    (respondAll p e cs w).1 = (respondAll source.alone e cs (view w)).1 :=
  congrArg Prod.fst ((projecting view).respondAll h e cs w)

theorem projecting_eq {α : Type} {x : StateM W α} {x' : StateM W' α} {y : StateM V α} (hx : (projecting view).Rel x y)
    (hx' : (projecting view').Rel x' y) {w : W} {w' : W'} (h : view w = view' w') :
    (x w).1 = (x' w').1 ∧ view (x w).2 = view' (x' w').2 := by
  have hsame : (x w).map id view = (x' w').map id view' := by
    have hy := hx' w'
    rw [← h] at hy
    exact (hx w).trans hy.symm
  exact ⟨congrArg Prod.fst hsame, congrArg Prod.snd hsame⟩

/-- Two actions with the requests recorded, in worlds that look alike in a part: they answer the same and ask for the
same, whatever was asked for before, and the worlds look alike afterwards. -/
def alike (view : W → V) (view' : W' → V) :
    ActionRel (StateT (List Request) (StateM W)) (StateT (List Request) (StateM W')) where
  Rel x y := ∀ s t, view s.world = view' t.world → ∃ a rs w w',
    play x s = (a, ⟨s.log ++ rs, w⟩) ∧ play y t = (a, ⟨t.log ++ rs, w'⟩) ∧ view w = view' w'
  pure a s t h := ⟨a, [], s.world, t.world, by simp, by simp, h⟩
  bind := by
    intro α β x y f g hx hf s t h
    obtain ⟨a, rs, w, w', hx, hy, h⟩ := hx s t h
    obtain ⟨b, rs', w₁, w₁', hf, hg, h⟩ := hf a ⟨s.log ++ rs, w⟩ ⟨t.log ++ rs, w'⟩ h
    -- what the second part asks for comes behind what the first did, on both sides
    refine ⟨b, rs ++ rs', w₁, w₁', ?_, ?_, h⟩
    · rw [play_bind, hx, hf, List.append_assoc]
    · rw [play_bind, hy, hg, List.append_assoc]

theorem alike_whole (hp : p.FedBy source view) (hq : q.FedBy source view') :
    (alike view view').Whole p.recorded q.recorded where
  poll s t h := by
    obtain ⟨hanswer, hview⟩ := projecting_eq hp.poll hq.poll h
    exact ⟨_, [], _, _, by rw [play_poll, List.append_nil], by rw [play_poll, hanswer, List.append_nil], hview⟩
  keys s t h := by
    obtain ⟨hanswer, hview⟩ := projecting_eq hp.keys hq.keys h
    exact ⟨_, [], _, _, by rw [play_keys, List.append_nil], by rw [play_keys, hanswer, List.append_nil], hview⟩
  now s t h := by
    obtain ⟨hanswer, hview⟩ := projecting_eq hp.now hq.now h
    exact ⟨_, [], _, _, by rw [play_now, List.append_nil], by rw [play_now, hanswer, List.append_nil], hview⟩
  perform r s t h := ⟨(), [r], _, _, play_perform p s r, play_perform q t r,
    (projecting_eq (hp.perform r) (hq.perform r) h).2⟩

end FedBy

end Chip8

import Mathlib
import Chip8.Proofs.Framebuffer
import Chip8.Proofs.Memory
import Chip8.Proofs.Machine.Step

/-!
# The drawing instruction

`Dxyn` draws the `n` bytes at `I`, at the place that `Vx` and `Vy` hold before the flag is set (`exec_draws_sprite`).
A sprite of at most fifteen rows hits no pixel twice, so the flag, which tells whether a bit found its pixel lit while
the drawing went on, can be read off the pictures before and after.
-/

namespace Chip8.Machine

open Framebuffer

/-- The `n` bytes from `I` on, from cells that are counted round the end of memory. -/
def spriteAt (m : Machine) (n : Nat) : List UInt8 :=
  (List.range n).map fun k => m.memory.cells[(m.index.toNat + k) % 4096]

def Shows (m : Machine) (px : Fin 64) (py : Fin 32) : Prop := m.screen.lit px.val py.val = true

/-- A set bit of the sprite that `Dxyn` draws falls on a pixel. -/
def Strikes (m : Machine) (x y : Reg) (n : Fin 16) (px : Fin 64) (py : Fin 32) (b : Nat × Nat) : Prop :=
  b ∈ bits (m.spriteAt n) ∧ FallsOn (m.reg x).toNat (m.reg y).toNat px py b

/-- What `Dxyn` makes of a machine `m`. -/
structure DrawsSprite (m : Machine) (x y : Reg) (n : Fin 16) (m' : Machine) : Prop where
  screen : m'.screen = (m.screen.draw (m.reg x).toNat (m.reg y).toNat (m.spriteAt n)).1
  /-- No pixel is hit twice. -/
  once : ∀ px py b b', m.Strikes x y n px py b → m.Strikes x y n px py b' → b = b'
  /-- A pixel is toggled exactly if one bit falls on it. -/
  toggled : ∀ px py, ¬ (m'.Shows px py ↔ m.Shows px py) ↔ ∃! b, m.Strikes x y n px py b
  collided : (∃ px py, m.Shows px py ∧ ¬ m'.Shows px py) ↔ m'.reg 0xF = 1
  free : (¬ ∃ px py, m.Shows px py ∧ ¬ m'.Shows px py) ↔ m'.reg 0xF = 0
  pc : m'.pc.toNat = (m.pc.toNat + 2) % 2 ^ 16
  registers : ∀ r, r ≠ 0xF → m'.reg r = m.reg r
  /-- Nothing else changes. -/
  rest : m' = { m with v := m'.v, screen := m'.screen, pc := m'.pc }
  empty : n = 0 → m'.screen = m.screen ∧ m'.reg 0xF = 0

/-! ### The sprite -/

section Sprite

variable {m : Machine} {x y : Reg} {n : Fin 16} {px : Fin 64} {py : Fin 32}

theorem length_spriteAt (m : Machine) (n : Nat) : (m.spriteAt n).length = n := by simp [spriteAt]

theorem length_spriteAt_le (m : Machine) (n : Fin 16) : (m.spriteAt n).length ≤ 32 := by
  rw [length_spriteAt]
  omega

theorem Strikes.unique {b b' : Nat × Nat} (h : m.Strikes x y n px py b) (h' : m.Strikes x y n px py b') :
    b = b' :=
  h.2.unique (m.length_spriteAt_le n) h.1 h'.1 h'.2

/-! ### The drawing -/

/-- The picture that `Dxyn` leaves, and whether the drawing collided. -/
def drawn (m : Machine) (x y : Reg) (n : Fin 16) : Framebuffer × Bool :=
  m.screen.draw (m.reg x).toNat (m.reg y).toNat (m.spriteAt n)

theorem perform_draw (m : Machine) (x y : Reg) (n : Fin 16) :
    m.perform (.draw x y n) = .ok (({ m with screen := (m.drawn x y n).1 }.setReg 0xF
      (if (m.drawn x y n).2 then 1 else 0)).advance, { signals := .refreshDisplay }) := by
  have hsprite : m.memory.readBytes m.index.toNat n.val = m.spriteAt n :=
    m.memory.readBytes_natCast m.index.toNat n
  simp only [perform, drawSprite, hsprite]
  rfl

theorem toggled_iff {m' : Machine} (h : m'.screen = (m.drawn x y n).1) :
    ¬ (m'.Shows px py ↔ m.Shows px py) ↔ ∃! b, m.Strikes x y n px py b := by
  unfold Shows Strikes
  rw [h, Bool.coe_iff_coe]
  exact lit_draw_ne_iff (m.length_spriteAt_le n)

theorem collided_iff {m' : Machine} (h : m'.screen = (m.drawn x y n).1) :
    (∃ px py, m.Shows px py ∧ ¬ m'.Shows px py) ↔ (m.drawn x y n).2 = true := by
  unfold Shows
  rw [h, drawn, draw_collided_iff_of_le (m.length_spriteAt_le n)]
  simp only [Bool.not_eq_true]

theorem drawn_zero (m : Machine) (x y : Reg) : m.drawn x y 0 = (m.screen, false) := rfl

end Sprite

/-! ### The instruction -/

/-- **`Dxyn` draws the sprite at `I` and flags a collision**, at every machine and with any registers, `VF` included:
where a register is also the flag, its value before counts for the place.  The picture is the one of before with a pixel
toggled where a bit of the sprite falls on it, and the flag tells whether a pixel went out. -/
theorem exec_draws_sprite (m : Machine) {w : Word} (hw : w.op = 0xD) :
    ∃ m', m.exec w = .ok (m', { signals := .refreshDisplay }) ∧ m.DrawsSprite w.x w.y w.n m' := by
  have hd : Instr.decode? w = some (.draw w.x w.y w.n) := by simp [Instr.decode?, hw]
  refine ⟨_, (exec_of_some hd m).trans (m.perform_draw w.x w.y w.n), ?_⟩
  generalize hm : advance _ = m'
  have hscreen : m'.screen = (m.drawn w.x w.y w.n).1 := by rw [← hm]; rfl
  have hreg : ∀ r, m'.reg r = if r = 0xF then (if (m.drawn w.x w.y w.n).2 then 1 else 0) else m.reg r := by
    intro r
    rw [← hm, reg_advance, reg_setReg]
    rfl
  have hflag := hreg 0xF
  rw [if_pos rfl] at hflag
  exact {
    screen := hscreen
    once := fun px py b b' h h' => h.unique h'
    toggled := fun px py => toggled_iff hscreen
    collided := by
      rw [collided_iff hscreen, hflag]
      cases (m.drawn w.x w.y w.n).2 <;> simp
    free := by
      rw [collided_iff hscreen, hflag]
      cases (m.drawn w.x w.y w.n).2 <;> simp
    pc := by
      rw [← hm]
      exact UInt16.toNat_add _ _
    registers := fun r hr => (hreg r).trans (if_neg hr)
    rest := by rw [← hm]; rfl
    empty := by
      intro hn
      rw [hn, drawn_zero] at hscreen hflag
      exact ⟨hscreen, hflag⟩ }

/-- A machine that is about to draw at `VF` and `VF` what is stored around the end of memory. -/
def atEndOfMemory : Machine := { (powerOn default).setReg 0xF 62 with index := 0xFFF }

/-- `DFF3` takes its first row from `$FFF` and the other two from `$000` and `$001`. -/
theorem exec_draws_sprite_wrapping :
    (0xDFF3 : Word).op = 0xD ∧ atEndOfMemory.spriteAt 3 = [0x00, 0xF0, 0x90] ∧
      ∃ m', atEndOfMemory.exec 0xDFF3 = .ok (m', { signals := .refreshDisplay }) ∧
        atEndOfMemory.DrawsSprite 0xF 0xF 0x3 m' := by
  have hop : (0xDFF3 : Word).op = 0xD := by decide
  exact ⟨hop, by decide +kernel, atEndOfMemory.exec_draws_sprite hop⟩

end Chip8.Machine

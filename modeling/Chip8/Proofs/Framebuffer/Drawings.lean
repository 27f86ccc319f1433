import Mathlib
import Chip8.Proofs.Framebuffer

/-!
# Many drawings

A drawing toggles the pixels that an odd number of its bits fall on, and toggling is its own inverse and does not depend
on the order.  So two drawings can be exchanged (`drawOn_comm`) and a repeated one takes itself back (`drawOn_drawOn`),
also where a sprite wraps around the edges or falls on itself.  For whole lists of drawings this means that only what is
in the list counts, and that a list drawn once more, in whatever order, leaves the picture of before
(`drawings_commute_and_cancel`).

What the collisions tell depends on the order, for it depends on the pixels that a drawing finds.
-/

namespace Chip8.Framebuffer

/-- A sprite and the place of its top left corner. -/
structure Drawing where
  x : Int
  y : Int
  sprite : List UInt8

def drawOn (f : Framebuffer) (d : Drawing) : Framebuffer := (f.draw d.x d.y d.sprite).1

/-- The picture with several drawings on it, the first one drawn first. -/
def drawAll (f : Framebuffer) (ds : List Drawing) : Framebuffer := ds.foldl drawOn f

/-! ### Two drawings -/

/-- A picture is known by its pixels. -/
theorem eq_of_lit {f f' : Framebuffer}
    (h : ∀ (px : Fin 64) (py : Fin 32), f.lit px.val py.val = f'.lit px.val py.val) : f = f' := by
  have hget : ∀ p : Fin 2048, f.pixels.get p = f'.pixels.get p := by
    intro p
    obtain ⟨px, py, rfl⟩ := exists_index_eq p
    exact h px py
  have hpixels : f.pixels = f'.pixels := Vector.ext fun i hi => hget ⟨i, hi⟩
  exact congrArg Framebuffer.mk hpixels

section Two

variable (f : Framebuffer) (d d' : Drawing)

/-- A drawing toggles a pixel: an odd number of bits fall on it. -/
def Drawing.Toggles (d : Drawing) (px : Fin 64) (py : Fin 32) : Prop :=
  Odd ((bits d.sprite).filter (FallsOn d.x d.y px py)).card

instance (px : Fin 64) (py : Fin 32) : Decidable (d.Toggles px py) := by
  unfold Drawing.Toggles
  infer_instance

theorem lit_drawOn (px : Fin 64) (py : Fin 32) :
    (f.drawOn d).lit px.val py.val = (f.lit px.val py.val ^^ decide (d.Toggles px py)) :=
  f.lit_draw d.x d.y d.sprite px py

theorem drawOn_comm : (f.drawOn d).drawOn d' = (f.drawOn d').drawOn d := by
  apply eq_of_lit
  intro px py
  simp only [lit_drawOn]
  exact Bool.xor_right_comm _ _ _

theorem drawOn_drawOn : (f.drawOn d).drawOn d = f := by
  apply eq_of_lit
  intro px py
  rw [lit_drawOn, lit_drawOn, Bool.xor_assoc, Bool.xor_self, Bool.xor_false]

end Two

/-! ### Lists of drawings -/

section Lists

variable (f : Framebuffer)

theorem drawAll_append (ds ds' : List Drawing) : f.drawAll (ds ++ ds') = (f.drawAll ds).drawAll ds' :=
  List.foldl_append

theorem drawAll_perm {ds ds' : List Drawing} (h : ds.Perm ds') : f.drawAll ds = f.drawAll ds' :=
  h.foldl_eq' (fun d _ d' _ f' => f'.drawOn_comm d d') f

/-- Taken back from the last drawing to the first, a list of drawings leaves nothing. -/
theorem drawAll_append_reverse (ds : List Drawing) : f.drawAll (ds ++ ds.reverse) = f := by
  induction ds generalizing f with
  | nil => rfl
  | cons d ds ih =>
    -- all between the two outermost drawings is gone, and then they are next to each other
    have hmiddle : (f.drawOn d).drawAll (ds ++ ds.reverse) = f.drawOn d := ih (f.drawOn d)
    have hlist : d :: ds ++ (d :: ds).reverse = [d] ++ (ds ++ ds.reverse) ++ [d] := by simp
    calc f.drawAll (d :: ds ++ (d :: ds).reverse)
        = ((f.drawOn d).drawAll (ds ++ ds.reverse)).drawOn d := by
          rw [hlist, drawAll_append, drawAll_append]
          rfl
      _ = (f.drawOn d).drawOn d := by rw [hmiddle]
      _ = f := f.drawOn_drawOn d

theorem drawAll_append_perm {ds ds' : List Drawing} (h : ds.Perm ds') : f.drawAll (ds ++ ds') = f := by
  have hreverse : ds'.Perm ds.reverse := h.symm.trans ds.reverse_perm.symm
  rw [f.drawAll_perm (hreverse.append_left ds)]
  exact f.drawAll_append_reverse ds

end Lists

/-! ### One sprite twice -/

section Twice

variable (f : Framebuffer) (x y : Int) {sprite : List UInt8}

/-- Where no pixel is hit twice, the second drawing finds the pixels that are hit as the first has not. -/
theorem draw_draw_collided_iff (h : sprite.length ≤ 32) :
    ((f.draw x y sprite).1.draw x y sprite).2 = true ↔
      ∃ b ∈ bits sprite, ∃ px py, FallsOn x y px py b ∧ f.lit px.val py.val = false := by
  rw [draw_collided_iff_exists_lit h]
  constructor
  · rintro ⟨b, hb, px, py, hfalls, hlit⟩
    rw [lit_draw_of_fallsOn h hb hfalls] at hlit
    exact ⟨b, hb, px, py, hfalls, by simpa using hlit⟩
  · rintro ⟨b, hb, px, py, hfalls, hlit⟩
    refine ⟨b, hb, px, py, hfalls, ?_⟩
    rw [lit_draw_of_fallsOn h hb hfalls, hlit]
    rfl

end Twice

/-- **Only what has been drawn counts, not in which order, and what has been drawn twice is gone**, for any list of
drawings on any picture.  A sprite of at most 32 rows that is drawn twice at a place collides the first time if a bit
falls on a pixel that was lit, and the second time if a bit falls on a pixel that was dark, both before the first. -/
theorem drawings_commute_and_cancel (f : Framebuffer) :
    (∀ ds ds' : List Drawing, ds.Perm ds' → f.drawAll ds' = f.drawAll ds ∧ f.drawAll (ds ++ ds') = f) ∧
    ∀ (x y : Int) (sprite : List UInt8), sprite.length ≤ 32 →
      ((f.draw x y sprite).2 = true ↔
        ∃ b ∈ bits sprite, ∃ px py, FallsOn x y px py b ∧ f.lit px.val py.val = true) ∧
      (((f.draw x y sprite).1.draw x y sprite).2 = true ↔
        ∃ b ∈ bits sprite, ∃ px py, FallsOn x y px py b ∧ f.lit px.val py.val = false) := by
  constructor
  · intro ds ds' h
    exact ⟨(f.drawAll_perm h).symm, f.drawAll_append_perm h⟩
  · intro x y sprite h
    exact ⟨draw_collided_iff_exists_lit h, f.draw_draw_collided_iff x y h⟩

/-- A sprite of 33 rows that lies across both edges and falls on itself with its last row. -/
def column : Drawing := ⟨-3, 30, List.replicate 33 0x81⟩

/-- Two pixels in the row where the other sprite falls on itself. -/
def spot : Drawing := ⟨61, 30, [0x81]⟩

/-- Two drawings that overlap, in one order and then in the other. -/
theorem drawings_commute_and_cancel_overlapping :
    [column, spot].Perm [spot, column] ∧ blank.drawAll [spot, column] = blank.drawAll [column, spot] ∧
      blank.drawAll [column, spot, spot, column] = blank ∧ spot.sprite.length ≤ 32 ∧
      ((blank.drawOn spot).draw spot.x spot.y spot.sprite).2 = true := by
  have hperm : [column, spot].Perm [spot, column] := .swap _ _ _
  have hfits : spot.sprite.length ≤ 32 := by decide
  obtain ⟨hlists, htwice⟩ := drawings_commute_and_cancel blank
  obtain ⟨hcommute, hcancel⟩ := hlists _ _ hperm
  have hsecond := (htwice spot.x spot.y spot.sprite hfits).2
  have hdark : ∃ b ∈ bits spot.sprite, ∃ px py, FallsOn spot.x spot.y px py b ∧ blank.lit px.val py.val = false :=
    ⟨(0, 7), by decide, 4, 30, by decide, by decide +kernel⟩
  exact ⟨hperm, hcommute, hcancel, hfits, hsecond.mpr hdark⟩

end Chip8.Framebuffer

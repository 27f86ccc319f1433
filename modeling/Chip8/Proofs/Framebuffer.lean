import Mathlib
import Chip8.Framebuffer

/-!
# What a sprite does to the picture

A sprite is a set of bits, each at a row and a column (`bits`), and drawing it toggles pixels bit by bit, row by row
from the left.  So a pixel ends up toggled as often as bits fall on it (`lit_draw`), and only the parity of their number
counts.  A collision is a bit that finds its pixel lit, when those before it have been drawn (`draw_collided_iff`).  A
collision puts out a pixel and any other bit lights one, so the number of lit pixels tells whether there was a collision
(`draw_collided_iff_litCount_lt`).

In a sprite of at most 32 rows no two bits fall on one pixel, and then it is enough to look at the picture before and
after the drawing (`lit_draw_ne_iff`, `draw_collided_iff_of_le`).
-/

namespace Chip8.Framebuffer

/-! ### Toggling pixels -/

def toggle (f : Framebuffer) (q : Fin 2048) : Framebuffer := (f.toggleAll false [q]).1

section Toggle

variable (f : Framebuffer) (collided : Bool) (q p : Fin 2048) (hs : List (Fin 2048))

theorem toggleAll_cons :
    f.toggleAll collided (q :: hs) = (f.toggle q).toggleAll (collided || f.pixels.get q) hs := rfl

theorem pixels_toggle_eq_set : (f.toggle q).pixels = f.pixels.set q.val (!f.pixels.get q) q.isLt := rfl

theorem pixels_toggle : (f.toggle q).pixels.get p = (f.pixels.get p ^^ decide (q = p)) := by
  rw [pixels_toggle_eq_set, Vector.get_eq_getElem, Vector.getElem_set]
  by_cases h : q = p
  · subst h
    simp
  · have hval : q.val ≠ p.val := fun hval => h (Fin.ext hval)
    simp [h, hval, Vector.get_eq_getElem]

/-- Toggling a pixel several times is toggling it once or not at all. -/
theorem pixels_toggle_odd :
    ((f.toggle q).pixels.get p ^^ decide (Odd (hs.count p))) =
      (f.pixels.get p ^^ decide (Odd ((q :: hs).count p))) := by
  rw [pixels_toggle, List.count_cons]
  by_cases h : q = p
  · subst h
    have hodd : Odd (hs.count q + 1) ↔ ¬ Odd (hs.count q) := Nat.odd_add_one
    by_cases hcount : Odd (hs.count q) <;> simp [hodd, hcount]
  · simp [h]

theorem pixels_toggleAll :
    (f.toggleAll collided hs).1.pixels.get p = (f.pixels.get p ^^ decide (Odd (hs.count p))) := by
  induction hs generalizing f collided with
  | nil => simp [toggleAll]
  | cons q hs ih => rw [toggleAll_cons, ih, pixels_toggle_odd]

/-- A collision is a pixel that is lit when its turn comes. -/
theorem toggleAll_collided_iff :
    (f.toggleAll collided hs).2 = true ↔ collided = true ∨
      ∃ hs₁ q hs₂, hs = hs₁ ++ q :: hs₂ ∧ (f.pixels.get q ^^ decide (Odd (hs₁.count q))) = true := by
  induction hs generalizing f collided with
  | nil => simp [toggleAll]
  | cons q hs ih =>
    rw [toggleAll_cons, ih, Bool.or_eq_true, or_assoc]
    refine or_congr_right ⟨?_, ?_⟩
    · rintro (hlit | ⟨hs₁, p, hs₂, rfl, hlit⟩)
      · exact ⟨[], q, hs, rfl, by simpa using hlit⟩
      · exact ⟨q :: hs₁, p, hs₂, rfl, by rwa [← pixels_toggle_odd]⟩
    · rintro ⟨_ | ⟨q', hs₁⟩, p, hs₂, heq, hlit⟩
      · obtain ⟨rfl, rfl⟩ := List.cons.inj heq
        exact .inl (by simpa using hlit)
      · obtain ⟨rfl, rfl⟩ := List.cons.inj heq
        exact .inr ⟨hs₁, p, hs₂, rfl, by rwa [pixels_toggle_odd]⟩

theorem litCount_toggle :
    (f.toggle q).litCount + (if f.pixels.get q then 1 else 0) =
      f.litCount + (if f.pixels.get q then 0 else 1) := by
  have hpos : f.pixels.get q = true → 0 < f.pixels.toList.count true := by
    intro h
    exact List.count_pos_iff.mpr (Vector.mem_toList_iff.mpr (h ▸ Vector.getElem_mem q.isLt))
  unfold litCount
  rw [pixels_toggle_eq_set, Vector.toList_set, List.count_set (by simp)]
  cases h : f.pixels.get q <;> simp_all [Vector.get_eq_getElem]

/-- At most one more pixel is lit for each that is toggled. -/
theorem litCount_toggleAll_le : (f.toggleAll collided hs).1.litCount ≤ f.litCount + hs.length := by
  induction hs generalizing f collided with
  | nil => rfl
  | cons q hs ih =>
    have htoggle := f.litCount_toggle q
    have hrest := ih (f.toggle q) (collided || f.pixels.get q)
    rw [toggleAll_cons, List.length_cons]
    split_ifs at htoggle <;> omega

theorem toggleAll_true : (f.toggleAll true hs).2 = true :=
  (toggleAll_collided_iff f true hs).mpr (.inl rfl)

/-- There was no collision exactly if one more pixel is lit for each that was toggled. -/
theorem toggleAll_collided_iff_litCount_lt :
    (f.toggleAll false hs).2 = true ↔ (f.toggleAll false hs).1.litCount < f.litCount + hs.length := by
  induction hs generalizing f with
  | nil => simp [toggleAll]
  | cons q hs ih =>
    have htoggle := f.litCount_toggle q
    rw [toggleAll_cons, List.length_cons, Bool.false_or]
    cases hlit : f.pixels.get q with
    | true =>
      have hrest := (f.toggle q).litCount_toggleAll_le true hs
      simp only [hlit, if_true] at htoggle
      exact iff_of_true (toggleAll_true _ _) (by omega)
    | false =>
      simp only [hlit, Bool.false_eq_true, if_false] at htoggle
      rw [ih]
      omega

end Toggle

/-! ### The bits of a sprite -/

/-- The set bits of a sprite, each by its row from the top and its column from the left. -/
def bits (sprite : List UInt8) : Finset (Nat × Nat) :=
  (Finset.range sprite.length ×ˢ Finset.range 8).filter fun b =>
    (sprite.getD b.1 0).toNat.testBit (7 - b.2)

/-- The same bits in the order in which they are drawn. -/
def bitList : List UInt8 → List (Nat × Nat)
  | [] => []
  | row :: rows => (setBits row).map (fun dx => (0, dx)) ++ (bitList rows).map fun b => (b.1 + 1, b.2)

section Bits

variable (sprite : List UInt8)

theorem hits_eq_map (x y : Int) :
    hits x y sprite = (bitList sprite).map fun b => index (x + b.2) (y + b.1) := by
  induction sprite generalizing y with
  | nil => rfl
  | cons row rows ih =>
    have hrow : ∀ b : Nat × Nat, y + 1 + (b.1 : Int) = y + ((b.1 + 1 : Nat) : Int) := by omega
    simp [hits, bitList, ih, Function.comp_def, hrow]

theorem mem_bits {b : Nat × Nat} :
    b ∈ bits sprite ↔
      b.1 < sprite.length ∧ b.2 < 8 ∧ (sprite.getD b.1 0).toNat.testBit (7 - b.2) = true := by
  simp [bits, and_assoc]

theorem mem_bitList {b : Nat × Nat} : b ∈ bitList sprite ↔ b ∈ bits sprite := by
  induction sprite generalizing b with
  | nil => simp [bitList, bits]
  | cons row rows ih =>
    obtain ⟨dy, dx⟩ := b
    rw [mem_bits, bitList, List.mem_append, List.mem_map, List.mem_map]
    cases dy with
    | zero => simp [setBits]
    | succ dy => simp [ih, mem_bits]

/-- The bits are drawn row by row, and each row from the left. -/
theorem pairwise_bitList : (bitList sprite).Pairwise fun b b' => toLex b < toLex b' := by
  have hrange : (List.range 8).Pairwise (· < ·) := List.pairwise_lt_range
  induction sprite with
  | nil => exact .nil
  | cons row rows ih =>
    rw [bitList, List.pairwise_append, List.pairwise_map, List.pairwise_map]
    refine ⟨?_, ?_, ?_⟩
    · have hlex : ∀ {dx dx' : Nat}, dx < dx' → toLex (0, dx) < toLex (0, dx') := fun h =>
        Prod.Lex.toLex_lt_toLex.mpr (.inr ⟨rfl, h⟩)
      exact (hrange.filter _).imp hlex
    · refine ih.imp fun h => ?_
      simp only [Prod.Lex.toLex_lt_toLex] at h ⊢
      omega
    · intro b hb b' hb'
      obtain ⟨dx, -, rfl⟩ := List.mem_map.mp hb
      obtain ⟨c, -, rfl⟩ := List.mem_map.mp hb'
      exact Prod.Lex.toLex_lt_toLex.mpr (.inl (Nat.succ_pos _))

theorem nodup_bitList : (bitList sprite).Nodup := (pairwise_bitList sprite).imp fun h => by
  rintro rfl
  exact lt_irrefl _ h

theorem toFinset_bitList : (bitList sprite).toFinset = bits sprite := by
  ext b
  rw [List.mem_toFinset, mem_bitList]

theorem length_hits (x y : Int) : (hits x y sprite).length = (bits sprite).card := by
  rw [hits_eq_map, List.length_map, ← toFinset_bitList, List.toFinset_card_of_nodup (nodup_bitList sprite)]

/-- What has been drawn when the turn of a bit comes. -/
theorem toFinset_before {l₁ l₂ : List (Nat × Nat)} {b : Nat × Nat} (h : bitList sprite = l₁ ++ b :: l₂) :
    l₁.toFinset = (bits sprite).filter fun b' => toLex b' < toLex b := by
  have hsorted := pairwise_bitList sprite
  rw [h, List.pairwise_append, List.pairwise_cons] at hsorted
  obtain ⟨-, ⟨hlater, -⟩, hearlier⟩ := hsorted
  ext b'
  rw [List.mem_toFinset, Finset.mem_filter, ← mem_bitList, h, List.mem_append, List.mem_cons]
  constructor
  · intro hb'
    exact ⟨.inl hb', hearlier b' hb' b (List.mem_cons_self ..)⟩
  · rintro ⟨hb' | rfl | hb', hlt⟩
    · exact hb'
    · exact absurd hlt (lt_irrefl _)
    · exact absurd hlt (lt_asymm (hlater b' hb'))

end Bits

/-! ### Bits and pixels -/

/-- A bit of a sprite whose top left corner is at `x` and `y` falls on a pixel. -/
def FallsOn (x y : Int) (px : Fin 64) (py : Fin 32) (b : Nat × Nat) : Prop :=
  (y + b.1) % 32 = py.val ∧ (x + b.2) % 64 = px.val

instance (x y : Int) (px : Fin 64) (py : Fin 32) : DecidablePred (FallsOn x y px py) := fun b => by
  unfold FallsOn
  infer_instance

theorem index_eq_iff {x y : Int} {px : Fin 64} {py : Fin 32} {b : Nat × Nat} :
    index (x + b.2) (y + b.1) = index px.val py.val ↔ FallsOn x y px py b := by
  rw [Fin.ext_iff]
  simp only [index, FallsOn]
  omega

/-- A pixel after the bits `s` of a sprite have been drawn. -/
def litAfter (f : Framebuffer) (x y : Int) (s : Finset (Nat × Nat)) (px : Fin 64) (py : Fin 32) : Bool :=
  f.lit px.val py.val ^^ decide (Odd (s.filter (FallsOn x y px py)).card)

section Draw

variable (f : Framebuffer) (x y : Int) (sprite : List UInt8)

theorem count_index {l : List (Nat × Nat)} (h : l.Nodup) (px : Fin 64) (py : Fin 32) :
    (l.map fun b => index (x + b.2) (y + b.1)).count (index px.val py.val) =
      (l.toFinset.filter (FallsOn x y px py)).card := by
  rw [List.count, List.countP_map, List.countP_eq_length_filter, ← List.toFinset_card_of_nodup (h.filter _)]
  congr 1
  ext b
  simp [index_eq_iff]

theorem lit_eq_get : f.lit x y = f.pixels.get (index x y) := rfl

/-- Every pixel is toggled as often as bits fall on it. -/
theorem lit_draw (px : Fin 64) (py : Fin 32) :
    (f.draw x y sprite).1.lit px.val py.val = f.litAfter x y (bits sprite) px py := by
  rw [litAfter, lit_eq_get, lit_eq_get, draw, pixels_toggleAll, hits_eq_map, count_index x y (nodup_bitList sprite),
    toFinset_bitList]

theorem exists_index_eq (p : Fin 2048) : ∃ (px : Fin 64) (py : Fin 32), index px.val py.val = p := by
  refine ⟨⟨p.val % 64, by omega⟩, ⟨p.val / 64, by omega⟩, Fin.ext ?_⟩
  simp only [index]
  omega

/-- A drawing collides if a bit falls on a pixel that is lit at that moment. -/
theorem draw_collided_iff :
    (f.draw x y sprite).2 = true ↔ ∃ b ∈ bits sprite, ∃ px py, FallsOn x y px py b ∧
      f.litAfter x y ((bits sprite).filter fun b' => toLex b' < toLex b) px py = true := by
  have hnodup := nodup_bitList sprite
  unfold draw
  rw [toggleAll_collided_iff, hits_eq_map]
  constructor
  · rintro (h | ⟨hs₁, q, hs₂, heq, hlit⟩)
    · exact nomatch h
    · obtain ⟨l₁, l₂, hl, rfl, htail⟩ := List.map_eq_append_iff.mp heq
      obtain ⟨b, l₂, rfl, hq, rfl⟩ := List.map_eq_cons_iff.mp htail
      obtain ⟨px, py, hp⟩ := exists_index_eq q
      have hl₁ : l₁.Nodup := (hl ▸ hnodup).of_append_left
      refine ⟨b, (mem_bitList sprite).mp (by simp [hl]), px, py, index_eq_iff.mp (hq.trans hp.symm), ?_⟩
      rw [← hp, count_index x y hl₁, toFinset_before sprite hl] at hlit
      exact hlit
  · rintro ⟨b, hb, px, py, hfalls, hlit⟩
    obtain ⟨l₁, l₂, hl⟩ := List.append_of_mem ((mem_bitList sprite).mpr hb)
    have hl₁ : l₁.Nodup := (hl ▸ hnodup).of_append_left
    refine .inr ⟨_, index (x + b.2) (y + b.1), _, by rw [hl, List.map_append, List.map_cons], ?_⟩
    rw [index_eq_iff.mpr hfalls, count_index x y hl₁, toFinset_before sprite hl]
    exact hlit

theorem draw_collided_iff_litCount_lt :
    (f.draw x y sprite).2 = true ↔ (f.draw x y sprite).1.litCount < f.litCount + (bits sprite).card := by
  unfold draw
  rw [toggleAll_collided_iff_litCount_lt, length_hits]

end Draw

/-! ### Sprites that fit into the picture -/

section Fits

variable {f : Framebuffer} {x y : Int} {sprite : List UInt8} {px : Fin 64} {py : Fin 32}

/-- No pixel is hit twice by a sprite of at most 32 rows. -/
theorem FallsOn.unique (h : sprite.length ≤ 32) {b b' : Nat × Nat} (hb : b ∈ bits sprite)
    (hb' : b' ∈ bits sprite) (hfalls : FallsOn x y px py b) (hfalls' : FallsOn x y px py b') : b = b' := by
  obtain ⟨hrow, hcolumn, -⟩ := (mem_bits sprite).mp hb
  obtain ⟨hrow', hcolumn', -⟩ := (mem_bits sprite).mp hb'
  obtain ⟨hy, hx⟩ := hfalls
  obtain ⟨hy', hx'⟩ := hfalls'
  exact Prod.ext (by omega) (by omega)

/-- With one row more, the last row hits what the first has hit. -/
example : (0, 0) ∈ bits (List.replicate 33 0x80) ∧ (32, 0) ∈ bits (List.replicate 33 0x80) ∧
    FallsOn 0 0 0 0 (0, 0) ∧ FallsOn 0 0 0 0 (32, 0) := by decide

theorem card_fallsOn_le_one (h : sprite.length ≤ 32) : ((bits sprite).filter (FallsOn x y px py)).card ≤ 1 := by
  refine Finset.card_le_one.mpr fun b hb b' hb' => ?_
  obtain ⟨hb, hfalls⟩ := Finset.mem_filter.mp hb
  obtain ⟨hb', hfalls'⟩ := Finset.mem_filter.mp hb'
  exact hfalls.unique h hb hb' hfalls'

/-- A pixel is toggled exactly if one bit falls on it. -/
theorem lit_draw_ne_iff (h : sprite.length ≤ 32) :
    (f.draw x y sprite).1.lit px.val py.val ≠ f.lit px.val py.val ↔
      ∃! b, b ∈ bits sprite ∧ FallsOn x y px py b := by
  have hcard : Odd ((bits sprite).filter (FallsOn x y px py)).card ↔
      ((bits sprite).filter (FallsOn x y px py)).card = 1 := by
    have hle : ((bits sprite).filter (FallsOn x y px py)).card ≤ 1 := card_fallsOn_le_one h
    rw [Nat.odd_iff]
    omega
  rw [lit_draw, litAfter]
  simp only [← Finset.mem_filter]
  rw [← Finset.singleton_iff_unique_mem, ← Finset.card_eq_one, ← hcard]
  cases f.lit px.val py.val <;> simp

/-- Before its own bit is drawn, a pixel is as it was. -/
theorem litAfter_before (h : sprite.length ≤ 32) {b : Nat × Nat} (hb : b ∈ bits sprite)
    (hfalls : FallsOn x y px py b) :
    f.litAfter x y ((bits sprite).filter fun b' => toLex b' < toLex b) px py = f.lit px.val py.val := by
  have hnone : ((bits sprite).filter fun b' => toLex b' < toLex b).filter (FallsOn x y px py) = ∅ := by
    refine Finset.filter_eq_empty_iff.mpr fun b' hb' hfalls' => ?_
    obtain ⟨hb', hlt⟩ := Finset.mem_filter.mp hb'
    obtain rfl := hfalls.unique h hb hb' hfalls'
    exact lt_irrefl _ hlt
  rw [litAfter, hnone]
  simp

/-- There was a collision exactly if a bit falls on a pixel that was lit. -/
theorem draw_collided_iff_exists_lit (h : sprite.length ≤ 32) :
    (f.draw x y sprite).2 = true ↔
      ∃ b ∈ bits sprite, ∃ px py, FallsOn x y px py b ∧ f.lit px.val py.val = true := by
  rw [draw_collided_iff]
  refine exists_congr fun b => and_congr_right fun hb => exists₂_congr fun px py => and_congr_right fun hfalls => ?_
  rw [litAfter_before h hb hfalls]

theorem lit_draw_of_fallsOn (h : sprite.length ≤ 32) {b : Nat × Nat} (hb : b ∈ bits sprite)
    (hfalls : FallsOn x y px py b) : (f.draw x y sprite).1.lit px.val py.val = !f.lit px.val py.val := by
  have hne : (f.draw x y sprite).1.lit px.val py.val ≠ f.lit px.val py.val :=
    (lit_draw_ne_iff h).mpr ⟨b, ⟨hb, hfalls⟩, fun b' hb' => FallsOn.unique h hb'.1 hb hb'.2 hfalls⟩
  exact Bool.eq_not_of_ne hne

/-- There was a collision exactly if a pixel has gone out. -/
theorem draw_collided_iff_of_le (h : sprite.length ≤ 32) :
    (f.draw x y sprite).2 = true ↔
      ∃ (px : Fin 64) (py : Fin 32), f.lit px.val py.val = true ∧
        (f.draw x y sprite).1.lit px.val py.val = false := by
  rw [draw_collided_iff_exists_lit h]
  constructor
  · rintro ⟨b, hb, px, py, hfalls, hlit⟩
    exact ⟨px, py, hlit, by rw [lit_draw_of_fallsOn h hb hfalls, hlit, Bool.not_true]⟩
  · rintro ⟨px, py, hlit, hout⟩
    have hne : (f.draw x y sprite).1.lit px.val py.val ≠ f.lit px.val py.val := by simp [hlit, hout]
    obtain ⟨b, ⟨hb, hfalls⟩, -⟩ := (lit_draw_ne_iff h).mp hne
    exact ⟨b, hb, px, py, hfalls, hlit⟩

end Fits

/-! ### Drawing -/

/-- **A drawing toggles each pixel once for every set bit that falls on it, and tells exactly whether a bit found its
pixel lit.**  The coordinates may be any whole numbers and the sprite may have any number of rows; whether a pixel was
lit when the turn of a bit came depends on the bits before it.  Such a bit puts its pixel out instead of lighting one, so
to count the lit pixels tells the same. -/
theorem draw_toggles_by_parity (f : Framebuffer) (x y : Int) (sprite : List UInt8) :
    (∀ (px : Fin 64) (py : Fin 32), (f.draw x y sprite).1.lit px.val py.val =
      (f.lit px.val py.val ^^ decide (Odd ((bits sprite).filter (FallsOn x y px py)).card))) ∧
    ((f.draw x y sprite).2 = true ↔
      (f.draw x y sprite).1.litCount < f.litCount + (bits sprite).card) ∧
    ((f.draw x y sprite).2 = true ↔ ∃ b ∈ bits sprite, ∃ px py, FallsOn x y px py b ∧
      f.litAfter x y ((bits sprite).filter fun b' => toLex b' < toLex b) px py = true) :=
  ⟨f.lit_draw x y sprite, f.draw_collided_iff_litCount_lt x y sprite, f.draw_collided_iff x y sprite⟩

end Chip8.Framebuffer

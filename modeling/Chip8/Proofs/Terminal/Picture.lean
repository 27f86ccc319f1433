import Mathlib
import Chip8.Proofs.Emulator.Parametric
import Chip8.Proofs.Terminal.Screen
import Chip8.Terminal.Device

/-!
# The picture on the screen

A frame becomes few directives: a place is named at the beginnings of rows only, a colour only where it changes, and the
screen is blanked only if the size of the terminal has changed.  All the same the screen shows the last frame and
nothing else (`screen_shows_last_frame`).  Within a frame, an induction over its pixels carries the cursor and the
colour along (`cell_paint`); from frame to frame, what is kept is that the cells outside the last picture are blank
(`Framed`).
-/

namespace Chip8

open Screen

/-! ### Pixels -/

/-- The column and the row of a pixel, in a picture with a margin to its left and on top of it. -/
def place (left top i : Nat) : Nat × Nat := (left + 1 + i % 64, top + 1 + i / 64)

theorem place_injective {left top i j : Nat} (h : place left top i = place left top j) : i = j := by
  obtain ⟨hcolumn, hrow⟩ := Prod.mk.inj h
  omega

section Paint

variable {s : Screen} {left top i : Nat} {white : Option Bool}

/-- What one pixel does: its cell is painted, and the cursor goes on behind it. -/
def painted (s : Screen) (spot : Nat × Nat) (lit : Bool) : Screen :=
  { s with column := spot.1, row := spot.2, white := lit }.put '█'

theorem cell_painted (s : Screen) (spot : Nat × Nat) (lit : Bool) (column row : Nat) :
    (painted s spot lit).cell column row = if (column, row) = spot then some ('█', lit) else s.cell column row := by
  simp only [painted, put, Prod.ext_iff]

theorem foldl_obey_paint_cons (hcolour : ∀ lit, white = some lit → s.white = lit)
    (hcursor : i % 64 ≠ 0 → (s.column, s.row) = place left top i) (lit : Bool) (rest : Frame) :
    (Terminal.paint left top i white (lit :: rest)).foldl obey s =
      (Terminal.paint left top (i + 1) (some lit) rest).foldl obey (painted s (place left top i) lit) := by
  have hplaced : (if i % Framebuffer.width = 0 then
        [Directive.goto (left + 1 : Nat) (top + 1 + i / Framebuffer.width : Nat)] else []).foldl obey s =
      { s with column := (place left top i).1, row := (place left top i).2 } := by
    unfold Framebuffer.width
    split
    · rename_i hstart
      simp only [List.foldl_cons, List.foldl_nil, obey, Int.toNat_natCast, place, hstart, Nat.add_zero]
    · rename_i hinside
      rw [← hcursor hinside, List.foldl_nil]
  obtain ⟨atPlace, hatPlace⟩ :
    ∃ s' : Screen, { s with column := (place left top i).1, row := (place left top i).2 } = s' := ⟨_, rfl⟩
  have hwhite : atPlace.white = s.white := by rw [← hatPlace]
  have hcoloured : (if white = some lit then [] else [if lit then Directive.white else .black]).foldl obey atPlace =
      { atPlace with white := lit } := by
    split
    · rename_i hsame
      rw [← hcolour lit hsame, ← hwhite, List.foldl_nil]
    · cases lit <;> rfl
  rw [Terminal.paint, List.foldl_append, List.foldl_append, hplaced, hatPlace, hcoloured, List.foldl_cons, ← hatPlace]
  rfl

/-- Every pixel is painted at its place, and nothing anywhere else. -/
theorem cell_paint (left top i : Nat) (white : Option Bool) (frame : Frame) (hcolour : ∀ lit, white = some lit → s.white = lit)
    (hcursor : i % 64 ≠ 0 → (s.column, s.row) = place left top i) :
    (∀ j (hj : j < frame.length), ((Terminal.paint left top i white frame).foldl obey s).cell
      (place left top (i + j)).1 (place left top (i + j)).2 = some ('█', frame[j])) ∧
    ∀ column row, (∀ j < frame.length, (column, row) ≠ place left top (i + j)) →
      ((Terminal.paint left top i white frame).foldl obey s).cell column row = s.cell column row := by
  induction frame generalizing s i white with
  | nil => exact ⟨nofun, fun _ _ _ => rfl⟩
  | cons lit rest ih =>
    rw [foldl_obey_paint_cons hcolour hcursor]
    have hnext : (i + 1) % 64 ≠ 0 →
        ((painted s (place left top i) lit).column, (painted s (place left top i) lit).row) =
          place left top (i + 1) := by
      intro hinside
      refine Prod.ext ?_ ?_ <;> simp only [painted, put, place] <;> omega
    obtain ⟨hpixels, helsewhere⟩ := ih (i + 1) (some lit) (fun lit' h => Option.some.inj h) hnext
    have hshift : ∀ j, i + 1 + j = i + (j + 1) := by omega
    constructor
    · intro j hj
      cases j with
      | zero =>
        -- no later pixel comes to the same place
        have hlater : ∀ j < rest.length, place left top i ≠ place left top (i + 1 + j) := by
          intro j _ hsame
          have := place_injective hsame
          omega
        refine (helsewhere (place left top i).1 (place left top i).2 hlater).trans ?_
        rw [cell_painted, if_pos rfl, List.getElem_cons_zero]
      | succ j =>
        rw [← hshift j]
        exact hpixels j (Nat.lt_of_succ_lt_succ hj)
    · intro column row hother
      have hfirst : (column, row) ≠ place left top i := hother 0 (Nat.zero_lt_succ _)
      have hlater : ∀ j < rest.length, (column, row) ≠ place left top (i + 1 + j) := by
        intro j hj
        rw [hshift]
        exact hother (j + 1) (Nat.succ_lt_succ hj)
      rw [helsewhere column row hlater, cell_painted, if_neg hfirst]

theorem onGrid_paint (left top i : Nat) (white : Option Bool) (frame : Frame) :
    ∀ d ∈ Terminal.paint left top i white frame, d.OnGrid := by
  induction frame generalizing i white with
  | nil => nofun
  | cons lit rest ih =>
    rintro _ hd column row rfl
    rw [Terminal.paint] at hd
    simp only [List.mem_append, List.mem_cons, reduceCtorEq, false_or] at hd
    rcases hd with (hplace | hcolour) | hrest
    · split at hplace
      · obtain ⟨rfl, rfl⟩ := Directive.goto.inj (List.mem_singleton.mp hplace)
        exact ⟨Int.natCast_nonneg _, Int.natCast_nonneg _⟩
      · exact nomatch hplace
    · split at hcolour
      · exact nomatch hcolour
      · cases lit <;> simp at hcolour
    · exact ih _ _ _ hrest column row rfl

end Paint

/-! ### Frames -/

/-- The cell of a pixel on a terminal of a size.  Half of what the picture leaves over is its margin, and a terminal that
is too small leaves nothing over. -/
def spot (size : Nat × Nat) (i : Nat) : Nat × Nat := place ((size.1 - 64) / 2) ((size.2 - 32) / 2) i

namespace Screen

/-- Nothing is outside the picture. -/
def Framed (s : Screen) (size : Nat × Nat) : Prop :=
  ∀ column row, (∀ i < 2048, (column, row) ≠ spot size i) → s.cell column row = none

/-- The screen shows a picture and nothing else. -/
structure Shows (s : Screen) (size : Nat × Nat) (picture : Framebuffer) : Prop where
  pixel : ∀ i (hi : i < 2048), s.cell (spot size i).1 (spot size i).2 = some ('█', picture.pixels[i])
  framed : s.Framed size

end Screen

theorem reading_foldl_obey (s : Screen) (ds : List Directive) : (ds.foldl obey s).reading = s.reading := by
  induction ds generalizing s with
  | nil => rfl
  | cons d ds ih => rw [List.foldl_cons, ih, reading_obey]

/-- **A frame that is received and written is shown.**  If the size is the same, the picture is where the last one was,
and else the screen is blanked first. -/
theorem shows_of_receive {t : Terminal} {s : Screen} (hs : s.reading = .character) (hframed : s.Framed t.size)
    (size : Nat × Nat) (picture : Framebuffer) :
    (s.read (Directive.textOf (t.receive size picture.frame).picture)).Shows size picture ∧
      (s.read (Directive.textOf (t.receive size picture.frame).picture)).reading = .character := by
  obtain ⟨blanking, hblanking⟩ : ∃ ds, (if size ≠ t.size then [Directive.clear] else []) = ds := ⟨_, rfl⟩
  have hreceive : (t.receive size picture.frame).picture =
      blanking ++ Terminal.paint ((size.1 - 64) / 2) ((size.2 - 32) / 2) 0 none picture.frame := by
    rw [← hblanking]
    rfl
  have honGrid : ∀ d ∈ (t.receive size picture.frame).picture, d.OnGrid := by
    intro d hd
    rw [hreceive, List.mem_append] at hd
    rcases hd with hd | hd
    · rw [← hblanking] at hd
      split at hd
      · obtain rfl := List.mem_singleton.mp hd
        exact nofun
      · exact nomatch hd
    · exact onGrid_paint _ _ _ _ _ d hd
  have hclean : (blanking.foldl obey s).Framed size := by
    rw [← hblanking]
    split
    · exact fun _ _ _ => rfl
    · rename_i hsame
      rwa [not_ne_iff.mp hsame]
  have hlength : picture.frame.length = 2048 := by simp [Framebuffer.frame]
  obtain ⟨hpixels, helsewhere⟩ := cell_paint (s := blanking.foldl obey s) ((size.1 - 64) / 2) ((size.2 - 32) / 2) 0 none
    picture.frame nofun (absurd rfl)
  simp only [Nat.zero_add, hlength] at hpixels helsewhere
  rw [read_textOf hs honGrid, hreceive, List.foldl_append]
  refine ⟨⟨fun i hi => ?_, fun column row hout => ?_⟩, ?_⟩
  · rw [spot, hpixels i hi]
    simp [Framebuffer.frame]
  · rw [helsewhere column row hout]
    exact hclean column row hout
  · rw [reading_foldl_obey, reading_foldl_obey, hs]

/-! ### One frame after another -/

/-- Somebody before a terminal of a size, which they may change, and the screen that they see. -/
structure Viewer where
  size : Nat × Nat
  screen : Screen

def viewing : Tty (StateM Viewer) where
  isTerminal := pure true
  settings := pure ""
  setRaw := pure ()
  restore _ := pure ()
  size := fun v => (v.size, v)
  pending := pure []
  write text := fun v => ((), { v with screen := v.screen.read text })

/-- What can happen around frames. -/
inductive Incident
  | resize (size : Nat × Nat)
  | tone (on : Bool)
  | play

/-- A frame, what happens before it is written, and what happens then. -/
structure Showing where
  picture : Framebuffer
  between : List Incident
  after : List Incident

namespace Terminal

variable (env : Environment (StateM Viewer))

def undergo : Incident → StateT Terminal (StateM Viewer) Unit
  | .resize size => StateT.lift fun v => ((), { v with size })
  | .tone on => perform env viewing (.tone on)
  | .play => perform env viewing .play

def showing (x : Showing) : StateT Terminal (StateM Viewer) Unit := do
  perform env viewing (.frame x.picture.frame)
  x.between.forM (undergo env)
  perform env viewing .drive
  x.after.forM (undergo env)

variable {t : Terminal} {v : Viewer}

/-- What happens around frames touches neither picture nor screen. -/
theorem merge_undergo (hs : v.screen.reading = .character) (c : Incident) :
    ∃ t' v', merge (undergo env c) (t, v) = ((), t', v') ∧ t'.size = t.size ∧ t'.picture = t.picture ∧
      v'.screen = v.screen := by
  cases c with
  | resize size => exact ⟨t, { v with size }, rfl, rfl, rfl, rfl⟩
  | tone on => exact ⟨{ t with tone := on }, v, rfl, rfl, rfl, rfl⟩
  | play =>
    have hbell : v.screen.read (Directive.textOf [.bell]) = v.screen := by
      rw [read_textOf hs (by simp [Directive.OnGrid])]
      rfl
    cases htone : t.tone with
    | false => exact ⟨t, v, by simp [undergo, perform, htone], rfl, rfl, rfl⟩
    | true =>
      refine ⟨t, { v with screen := v.screen.read (Directive.textOf [.bell]) }, ?_, rfl, rfl, hbell⟩
      simp [undergo, perform, htone, say, viewing]

theorem merge_forM_undergo (hs : v.screen.reading = .character) (cs : List Incident) :
    ∃ t' v', merge (cs.forM (undergo env)) (t, v) = ((), t', v') ∧ t'.size = t.size ∧ t'.picture = t.picture ∧
      v'.screen = v.screen := by
  induction cs generalizing t v with
  | nil => exact ⟨t, v, rfl, rfl, rfl, rfl⟩
  | cons c cs ih =>
    obtain ⟨t₁, v₁, hfirst, hsize, hpicture, hscreen⟩ := merge_undergo env (t := t) hs c
    obtain ⟨t₂, v₂, hrest, hsize', hpicture', hscreen'⟩ := ih (t := t₁) (v := v₁) (by rw [hscreen, hs])
    refine ⟨t₂, v₂, ?_, hsize'.trans hsize, hpicture'.trans hpicture, hscreen'.trans hscreen⟩
    rw [List.forM, merge_bind, hfirst]
    exact hrest

theorem merge_showing (hs : v.screen.reading = .character) (hframed : v.screen.Framed t.size) (x : Showing) :
    ∃ t' v', merge (showing env x) (t, v) = ((), t', v') ∧ v'.screen.Shows v.size x.picture ∧
      v'.screen.reading = .character ∧ t'.size = v.size := by
  obtain ⟨hshows, hread⟩ := shows_of_receive hs hframed v.size x.picture
  obtain ⟨t₁, v₁, hbetween, hsize, hpicture, hscreen⟩ :=
    merge_forM_undergo env (t := t.receive v.size x.picture.frame) hs x.between
  rw [← hpicture, ← hscreen] at hshows hread
  obtain ⟨t₂, v₂, hafter, hsize', -, hscreen'⟩ := merge_forM_undergo env (t := t₁)
    (v := { v₁ with screen := v₁.screen.read (Directive.textOf t₁.picture) }) hread x.after
  refine ⟨t₂, v₂, ?_, hscreen' ▸ hshows, hscreen' ▸ hread, hsize'.trans hsize⟩
  have hreceive : merge (perform env viewing (.frame x.picture.frame)) (t, v) =
      ((), t.receive v.size x.picture.frame, v) := rfl
  have hdrive : merge (perform env viewing .drive) (t₁, v₁) =
      ((), t₁, { v₁ with screen := v₁.screen.read (Directive.textOf t₁.picture) }) := rfl
  rw [showing, merge_bind, hreceive, merge_bind, hbetween, merge_bind, hdrive, hafter]

theorem merge_forM_showing (hs : v.screen.reading = .character) (hframed : v.screen.Framed t.size)
    (xs : List Showing) :
    ∃ t' v', merge (xs.forM (showing env)) (t, v) = ((), t', v') ∧ v'.screen.reading = .character ∧
      v'.screen.Framed t'.size := by
  induction xs generalizing t v with
  | nil => exact ⟨t, v, rfl, hs, hframed⟩
  | cons x xs ih =>
    obtain ⟨t₁, v₁, hfirst, hshows, hread, hsize⟩ := merge_showing env hs hframed x
    obtain ⟨t₂, v₂, hrest, hkept⟩ := ih (t := t₁) hread (by rw [hsize]; exact hshows.framed)
    refine ⟨t₂, v₂, ?_, hkept⟩
    rw [List.forM, merge_bind, hfirst]
    exact hrest

/-- **The screen shows the last frame and nothing else.**  A viewer has a blank screen before them, wherever its cursor
is and whatever its colour; entering raw mode leaves it blank.  The terminal gets any frames one after another, and
writes each before it gets the next, while its size changes and it rings.  Behind the last frame the screen shows the
picture of this frame, for the size at which the terminal got it, and all other cells are blank. -/
theorem screen_shows_last_frame (env : Environment (StateM Viewer)) (t₀ : Terminal) (size : Nat × Nat)
    (column row : Nat) (white : Bool) (first : List Incident) (xs : List Showing) (x : Showing) :
    (blank column row white).read (Directive.textOf opening) = blank column row white ∧
      ∃ t v t' v',
        merge (do first.forM (undergo env); xs.forM (showing env)) (t₀, ⟨size, blank column row white⟩) =
          ((), t, v) ∧
        merge (showing env x) (t, v) = ((), t', v') ∧
        (∀ i (hi : i < 2048), v'.screen.cell ((v.size.1 - 64) / 2 + 1 + i % 64) ((v.size.2 - 32) / 2 + 1 + i / 64) =
          some ('█', x.picture.pixels[i])) ∧
        ∀ column row, (∀ i < 2048, (column, row) ≠
            ((v.size.1 - 64) / 2 + 1 + i % 64, (v.size.2 - 32) / 2 + 1 + i / 64)) →
          v'.screen.cell column row = none := by
  have hblank : (blank column row white).Framed t₀.size := fun _ _ _ => rfl
  obtain ⟨t₁, v₁, hfirst, hsize, -, hscreen⟩ :=
    merge_forM_undergo env (t := t₀) (v := ⟨size, blank column row white⟩) rfl first
  obtain ⟨t, v, hbefore, hread, hframed⟩ := merge_forM_showing env (t := t₁) (v := v₁)
    (by rw [hscreen]; rfl) (by rw [hscreen, hsize]; exact hblank) xs
  obtain ⟨t', v', hlast, hshows, -⟩ := merge_showing env hread hframed x
  refine ⟨?_, t, v, t', v', ?_, hlast, hshows.pixel, hshows.framed⟩
  · rw [read_textOf rfl (by simp [opening, Directive.OnGrid])]
    rfl
  · rw [merge_bind, hfirst]
    exact hbefore

end Terminal

end Chip8

import Mathlib
import Chip8.Proofs.Keypad
import Chip8.Terminal.Basic

/-!
# One poll of a terminal

A poll lets all keys go if it is time to, and then holds the keys of the bytes that it takes in: all that have come, or those
in front of the first that asks to leave.  `poll_spec` says all that a poll does to a terminal and answers; the rest reads
single facts off it.
-/

namespace Chip8

@[simp] theorem Signals.wantsExit_programExit : programExit.wantsExit := rfl

@[simp] theorem Signals.hasInputs_programExit : programExit.hasInputs = false := rfl

@[simp] theorem Signals.wantsExit_newInputs : newInputs.wantsExit = false := rfl

@[simp] theorem Signals.hasInputs_newInputs : newInputs.hasInputs := rfl

@[simp] theorem Signals.wantsExit_zero : wantsExit 0 = false := rfl

@[simp] theorem Signals.hasInputs_zero : hasInputs 0 = false := rfl

namespace Terminal

/-! ### Bytes -/

/-- The byte stands for the key: it is the character of the key, or that letter in upper case. -/
def Strikes (b : UInt8) (k : Key) : Prop :=
  ∃ c, (c, k) ∈ Key.layout ∧ (Char.ofNat b.toNat = c ∨ Char.ofNat b.toNat = c.toUpper)

/-- The characters whose lower case is a given one. -/
theorem toLower_eq_iff {x c : Char} (hc : c.toLower = c) : x.toLower = c ↔ x = c ∨ x = c.toUpper := by
  constructor
  · rintro rfl
    rw [Char.toUpper_toLower_eq_toUpper]
    by_cases hupper : x.isUpper
    · right
      refine (Char.toUpper_eq_of_not_isLower fun hlower => ?_).symm
      simp only [Char.isUpper, Char.isLower, Bool.and_eq_true, decide_eq_true_eq] at hupper hlower
      grind
    · exact .inl (Char.toLower_eq_of_not_isUpper hupper).symm
  · rintro (rfl | rfl)
    · exact hc
    · rw [Char.toLower_toUpper_eq_toLower, hc]

theorem lookup_layout_eq_some_iff {c : Char} {k : Key} : Key.layout.lookup c = some k ↔ (c, k) ∈ Key.layout := by
  have hmem : ∀ p ∈ Key.layout, Key.layout.lookup p.1 = some p.2 := by decide
  refine ⟨fun h => ?_, hmem (c, k)⟩
  obtain ⟨l₁, l₂, heq, -⟩ := List.lookup_eq_some_iff.mp h
  simp [heq]

theorem keyOf?_eq_some_iff {b : UInt8} {k : Key} : keyOf? b = some k ↔ Strikes b k := by
  have hlower : ∀ p ∈ Key.layout, p.1.toLower = p.1 := by decide
  rw [keyOf?, Key.ofChar?, lookup_layout_eq_some_iff]
  constructor
  · intro hmem
    exact ⟨_, hmem, (toLower_eq_iff (hlower _ hmem)).mp rfl⟩
  · rintro ⟨c, hmem, hchar⟩
    rwa [(toLower_eq_iff (hlower _ hmem)).mpr hchar]

instance (b : UInt8) (k : Key) : Decidable (Strikes b k) := decidable_of_iff _ keyOf?_eq_some_iff

/-- The bytes that a poll takes in: those in front of the first that asks to leave. -/
def taken (bytes : List UInt8) : List UInt8 := bytes.takeWhile fun b => !isExit b

theorem taken_cons_of_isExit {b : UInt8} (h : isExit b) (bytes : List UInt8) : taken (b :: bytes) = [] := by
  simp [taken, h]

theorem taken_cons_of_not_isExit {b : UInt8} (h : ¬ isExit b) (bytes : List UInt8) :
    taken (b :: bytes) = b :: taken bytes := by
  simp [taken, h]

theorem taken_eq_self {bytes : List UInt8} (h : ∀ b ∈ bytes, ¬ isExit b) : taken bytes = bytes :=
  List.takeWhile_eq_self_iff.mpr fun b hb => by simp [h b hb]

/-- If the user asks to leave, the bytes that are taken in are those in front of the first that does. -/
theorem exists_exit {bytes : List UInt8} (h : ∃ b ∈ bytes, isExit b) :
    ∃ b rest, bytes = taken bytes ++ b :: rest ∧ isExit b ∧ ∀ b ∈ taken bytes, ¬ isExit b := by
  induction bytes with
  | nil => simp at h
  | cons b bytes ih =>
    by_cases hb : isExit b
    · rw [taken_cons_of_isExit hb]
      exact ⟨b, bytes, rfl, hb, by simp⟩
    · rw [taken_cons_of_not_isExit hb]
      obtain ⟨b', rest, hbytes, hb', htaken⟩ := ih (by simpa [hb] using h)
      exact ⟨b', rest, by rw [List.cons_append, ← hbytes], hb', List.forall_mem_cons.mpr ⟨hb, htaken⟩⟩

/-! ### The poll -/

/-- It is time to let the keys go. -/
def Due (t : Terminal) (now : Float) : Prop := now - t.released ≥ holdTime

instance (t : Terminal) (now : Float) : Decidable (t.Due now) := inferInstanceAs (Decidable (_ ≤ _))

section Poll

variable {t : Terminal} {now : Float} {bytes : List UInt8}

theorem expire_of_due (h : t.Due now) : t.expire now = { t with held := 0, released := now } := if_pos h

theorem expire_of_not_due (h : ¬ t.Due now) : t.expire now = t := if_neg h

theorem press_spec (t : Terminal) (bytes : List UInt8) :
    ∃ v, t.press bytes = ({ t with held := v }, decide (∃ b ∈ bytes, isExit b)) ∧
      ∀ k, v.isDown k ↔ t.held.isDown k ∨ ∃ b ∈ taken bytes, Strikes b k := by
  induction bytes generalizing t with
  | nil => exact ⟨t.held, by simp [press], by simp [taken]⟩
  | cons b bytes ih =>
    by_cases hexit : isExit b
    · exact ⟨t.held, by simp [press, hexit], by simp [taken_cons_of_isExit hexit]⟩
    · have htaken := taken_cons_of_not_isExit hexit bytes
      cases hkey : keyOf? b with
      | none =>
        obtain ⟨v, hpress, hv⟩ := ih t
        refine ⟨v, by simp [press, hexit, hkey, hpress], fun k => ?_⟩
        have hnone : ¬ Strikes b k := by simp [← keyOf?_eq_some_iff, hkey]
        simp [htaken, hv, hnone]
      | some k' =>
        obtain ⟨v, hpress, hv⟩ := ih { t with held := t.held ||| k'.bit }
        refine ⟨v, by simp [press, hexit, hkey, hpress], fun k => ?_⟩
        have hsome : Strikes b k ↔ k' = k := by simp [← keyOf?_eq_some_iff, hkey]
        simp [htaken, hv, hsome, or_assoc]

/-- **What a poll does.**  It touches the keys and the time they were let go, and nothing else. -/
theorem poll_spec (t : Terminal) (now : Float) (bytes : List UInt8) :
    ∃ v, t.poll now bytes =
        ({ t with held := v, released := if t.Due now then now else t.released },
          if ∃ b ∈ bytes, isExit b then .programExit else if v ≠ t.held then .newInputs else 0) ∧
      ∀ k, v.isDown k ↔ (t.held.isDown k ∧ ¬ t.Due now) ∨ ∃ b ∈ taken bytes, Strikes b k := by
  obtain ⟨v, hpress, hv⟩ := (t.expire now).press_spec bytes
  have hsignals : t.poll now bytes = ({ t.expire now with held := v },
      if ∃ b ∈ bytes, isExit b then .programExit else if v ≠ t.held then .newInputs else 0) := by
    simp only [poll, hpress, decide_eq_true_eq]
    split_ifs <;> rfl
  refine ⟨v, ?_, fun k => ?_⟩
  · rw [hsignals]
    by_cases hdue : t.Due now
    · rw [expire_of_due hdue, if_pos hdue]
    · rw [expire_of_not_due hdue, if_neg hdue]
  · rw [hv]
    by_cases hdue : t.Due now
    · simp [expire_of_due hdue, hdue]
    · simp [expire_of_not_due hdue, hdue]

theorem released_poll : (t.poll now bytes).1.released = if t.Due now then now else t.released := by
  obtain ⟨v, hpoll, -⟩ := t.poll_spec now bytes
  rw [hpoll]

theorem isDown_poll {k : Key} :
    (t.poll now bytes).1.held.isDown k ↔ (t.held.isDown k ∧ ¬ t.Due now) ∨ ∃ b ∈ taken bytes, Strikes b k := by
  obtain ⟨v, hpoll, hv⟩ := t.poll_spec now bytes
  rw [hpoll]
  exact hv k

/-- A poll leaves the keys as they were if those that it takes in were held, and those that it lets go are taken in. -/
theorem held_poll_eq_iff :
    (t.poll now bytes).1.held = t.held ↔
      (∀ k, (∃ b ∈ taken bytes, Strikes b k) → t.held.isDown k) ∧
        (t.Due now → ∀ k, t.held.isDown k → ∃ b ∈ taken bytes, Strikes b k) := by
  have hkeys : (t.poll now bytes).1.held = t.held ↔
      ∀ k, (t.held.isDown k ∧ ¬ t.Due now ∨ ∃ b ∈ taken bytes, Strikes b k) ↔ t.held.isDown k := by
    simp only [← isDown_poll]
    exact ⟨fun h k => by rw [h], fun h => KeyVector.eq_of_isDown fun k => Bool.eq_iff_iff.mpr (h k)⟩
  rw [hkeys]
  constructor
  · intro h
    exact ⟨fun k hk => (h k).mp (.inr hk), fun hdue k hk => ((h k).mpr hk).resolve_left fun hkept => hkept.2 hdue⟩
  · rintro ⟨hheld, htaken⟩ k
    refine ⟨fun hk => hk.elim And.left (hheld k), fun hk => ?_⟩
    by_cases hdue : t.Due now
    · exact .inr (htaken hdue k hk)
    · exact .inl ⟨hk, hdue⟩

theorem wantsExit_poll : (t.poll now bytes).2.wantsExit ↔ ∃ b ∈ bytes, isExit b := by
  obtain ⟨v, hpoll, -⟩ := t.poll_spec now bytes
  rw [hpoll]
  dsimp only
  split_ifs with hexit <;> simp [hexit]

/-- Unless the user leaves, a poll reports exactly the changes of the keys. -/
theorem hasInputs_poll (hstay : ¬ (t.poll now bytes).2.wantsExit) :
    (t.poll now bytes).2.hasInputs ↔ (t.poll now bytes).1.held ≠ t.held := by
  rw [wantsExit_poll] at hstay
  obtain ⟨v, hpoll, -⟩ := t.poll_spec now bytes
  rw [hpoll, if_neg hstay]
  by_cases hsame : v = t.held <;> simp [hsame]

end Poll

end Terminal

end Chip8

import Mathlib
import Chip8.Proofs.Binary64
import Chip8.Proofs.Terminal.Keys

/-!
# How long a key of a terminal is held

A terminal is polled again and again, at readings of its clock and with the bytes that have come by then.  Some polls let all
keys go, and a key is held if a byte of it was taken in since the latest of these (`isDown_after`).

When it is time to let the keys go is counted from the poll that did so last, and not from the poll that took in a byte.  This
cuts both ways.  No key sticks: a poll that comes `holdTime` or more after the last byte of a key lets it go, if none before has
(`no_key_sticks`).  But a key may be let go sooner, as the time has been running already when its byte comes: it is held
until a poll comes `holdTime` or more after the keys were let go last before that (`held_iff_of_taken`).
-/

namespace Chip8.Terminal

/-! ### Polls one after another -/

/-- What a poll gets: a reading of the clock, and the bytes that have come. -/
structure Reading where
  now : Float
  bytes : List UInt8

/-- A byte of the key has come. -/
def Reading.Strikes (r : Reading) (k : Key) : Prop := ∃ b ∈ r.bytes, Terminal.Strikes b k

/-- A byte of the key has come, and none in front of it that asks to leave. -/
def Reading.Takes (r : Reading) (k : Key) : Prop := ∃ b ∈ taken r.bytes, Terminal.Strikes b k

instance (r : Reading) (k : Key) : Decidable (r.Strikes k) := inferInstanceAs (Decidable (∃ b ∈ r.bytes, _))

instance (r : Reading) (k : Key) : Decidable (r.Takes k) := inferInstanceAs (Decidable (∃ b ∈ taken r.bytes, _))

section History

variable (t : Terminal) (q : Nat → Reading)

/-- The terminal behind so many polls. -/
def after : Nat → Terminal
  | 0 => t
  | n + 1 => ((after n).poll (q n).now (q n).bytes).1

def answer (n : Nat) : Signals := ((t.after q n).poll (q n).now (q n).bytes).2

def LetsGo (n : Nat) : Prop := (t.after q n).Due (q n).now

/-- None of the polls from `m` on and in front of `n` lets the keys go. -/
def Quiet (m n : Nat) : Prop := ∀ l, m ≤ l → l < n → ¬ t.LetsGo q l

/-- The readings of the clock: when keys were let go last before the polls began, and at each poll. -/
def readings : Nat → Float
  | 0 => t.released
  | n + 1 => (q n).now

/-- In the first `n` polls, keys were let go last at this reading of the clock; if in none of them, then before. -/
def LetGoAt (n : Nat) (start : Float) : Prop :=
  (∃ m < n, t.LetsGo q m ∧ t.Quiet q (m + 1) n ∧ start = (q m).now) ∨ t.Quiet q 0 n ∧ start = t.released

end History

section History

variable {t : Terminal} {q : Nat → Reading} {m n : Nat} {k : Key}

theorem Quiet.mono {l : Nat} (h : t.Quiet q m n) (hml : m ≤ l) : t.Quiet q l n :=
  fun i hi => h i (hml.trans hi)

theorem quiet_succ_iff (hmn : m ≤ n) : t.Quiet q m (n + 1) ↔ t.Quiet q m n ∧ ¬ t.LetsGo q n := by
  constructor
  · intro h
    exact ⟨fun l hml hln => h l hml (by omega), h n hmn (by omega)⟩
  · rintro ⟨h, hn⟩ l hml hln
    rcases Nat.lt_succ_iff_lt_or_eq.mp hln with hlt | rfl
    · exact h l hml hlt
    · exact hn

theorem isDown_after_succ :
    (t.after q (n + 1)).held.isDown k ↔ (t.after q n).held.isDown k ∧ ¬ t.LetsGo q n ∨ (q n).Takes k :=
  isDown_poll

theorem released_of_letsGo (h : t.LetsGo q n) : (t.after q (n + 1)).released = (q n).now := by
  rw [after, released_poll]
  exact if_pos h

theorem released_of_not_letsGo (h : ¬ t.LetsGo q n) : (t.after q (n + 1)).released = (t.after q n).released := by
  rw [after, released_poll]
  exact if_neg h

/-- **The keys that are held** are those of the bytes taken in since the latest poll that let keys go, that poll included. -/
theorem isDown_after (n : Nat) (k : Key) :
    (t.after q n).held.isDown k ↔
      (t.held.isDown k ∧ t.Quiet q 0 n) ∨ ∃ m < n, (q m).Takes k ∧ t.Quiet q (m + 1) n := by
  induction n with
  | zero => simp [after, Quiet]
  | succ n ih =>
    rw [isDown_after_succ, ih]
    constructor
    · rintro (⟨⟨hheld, hquiet⟩ | ⟨m, hmn, htakes, hquiet⟩, hstays⟩ | htakes)
      · exact .inl ⟨hheld, (quiet_succ_iff (Nat.zero_le n)).mpr ⟨hquiet, hstays⟩⟩
      · exact .inr ⟨m, by omega, htakes, (quiet_succ_iff hmn).mpr ⟨hquiet, hstays⟩⟩
      · exact .inr ⟨n, by omega, htakes, fun l _ _ => by omega⟩
    · rintro (⟨hheld, hquiet⟩ | ⟨m, hmn, htakes, hquiet⟩)
      · obtain ⟨hquiet, hstays⟩ := (quiet_succ_iff (Nat.zero_le n)).mp hquiet
        exact .inl ⟨.inl ⟨hheld, hquiet⟩, hstays⟩
      · rcases Nat.lt_succ_iff_lt_or_eq.mp hmn with hlt | rfl
        · obtain ⟨hquiet, hstays⟩ := (quiet_succ_iff hlt).mp hquiet
          exact .inl ⟨.inr ⟨m, hlt, htakes, hquiet⟩, hstays⟩
        · exact .inr htakes

/-- Polls that let no keys go leave the time at which they were let go. -/
theorem released_of_quiet (hmn : m ≤ n) (hquiet : t.Quiet q m n) : (t.after q n).released = (t.after q m).released := by
  induction n, hmn using Nat.le_induction with
  | base => rfl
  | succ n hmn ih =>
    obtain ⟨hquiet, hstays⟩ := (quiet_succ_iff hmn).mp hquiet
    rw [released_of_not_letsGo hstays, ih hquiet]

/-- Whether polls let keys go can be told from the time at which they were let go before. -/
theorem quiet_iff (hmn : m ≤ n) :
    t.Quiet q m n ↔ ∀ l, m ≤ l → l < n → ¬ ((q l).now - (t.after q m).released ≥ holdTime) := by
  constructor
  · intro hquiet l hml hln hlong
    refine hquiet l hml hln ?_
    rwa [LetsGo, Due, released_of_quiet hml fun i hmi hil => hquiet i hmi (by omega)]
  · intro hshort
    induction n, hmn using Nat.le_induction with
    | base => exact fun l _ _ => by omega
    | succ n hmn ih =>
      have hquiet : t.Quiet q m n := ih fun l hml hln => hshort l hml (by omega)
      refine (quiet_succ_iff hmn).mpr ⟨hquiet, ?_⟩
      rw [LetsGo, Due, released_of_quiet hmn hquiet]
      exact hshort n hmn (by omega)

theorem letGoAt_released (t : Terminal) (q : Nat → Reading) (n : Nat) : t.LetGoAt q n (t.after q n).released := by
  induction n with
  | zero => exact .inr ⟨fun l _ hl => by omega, rfl⟩
  | succ n ih =>
    by_cases hgo : t.LetsGo q n
    · exact .inl ⟨n, by omega, hgo, fun l _ _ => by omega, released_of_letsGo hgo⟩
    · rw [released_of_not_letsGo hgo]
      rcases ih with ⟨m, hmn, hm, hquiet, hstart⟩ | ⟨hquiet, hstart⟩
      · exact .inl ⟨m, by omega, hm, (quiet_succ_iff hmn).mpr ⟨hquiet, hgo⟩, hstart⟩
      · exact .inr ⟨(quiet_succ_iff (Nat.zero_le n)).mpr ⟨hquiet, hgo⟩, hstart⟩

theorem LetGoAt.exists_reading {start : Float} (h : t.LetGoAt q n start) : ∃ i ≤ n, start = t.readings q i := by
  rcases h with ⟨m, hmn, -, -, hstart⟩ | ⟨-, hstart⟩
  · exact ⟨m + 1, hmn, hstart⟩
  · exact ⟨0, Nat.zero_le n, hstart⟩

theorem wantsExit_answer : (t.answer q n).wantsExit ↔ ∃ b ∈ (q n).bytes, isExit b := wantsExit_poll

/-- While the user stays, all bytes are taken in. -/
theorem takes_iff_of_stay (hstay : ¬ (t.answer q n).wantsExit) : (q n).Takes k ↔ (q n).Strikes k := by
  rw [wantsExit_answer] at hstay
  rw [Reading.Takes, taken_eq_self fun b hb hexit => hstay ⟨b, hb, hexit⟩]
  rfl

end History

/-! ### No key sticks -/

/-- A clock that does not go back, and on which not less time has passed since an earlier reading than since a later one. -/
structure Steady (time : Nat → Float) (n : Nat) : Prop where
  forward : ∀ j ≤ n, ∀ i ≤ j, time i ≤ time j
  since : ∀ l ≤ n, ∀ j ≤ n, ∀ i ≤ n, time i ≤ time j → time l - time j ≤ time l - time i

theorem exists_last {P : Nat → Prop} {m n : Nat} (hmn : m < n) (hm : P m) :
    ∃ j < n, m ≤ j ∧ P j ∧ ∀ l, j < l → l < n → ¬ P l := by
  classical
  refine ⟨Nat.findGreatest P (n - 1), ?_, Nat.le_findGreatest (by omega) hm, Nat.findGreatest_spec (by omega) hm, ?_⟩
  · have hle := Nat.findGreatest_le (P := P) (n - 1)
    omega
  · intro l hl hln
    exact Nat.findGreatest_is_greatest hl (by omega)

section Sticking

variable {t : Terminal} {q : Nat → Reading} {n : Nat}

/-- The latest of so many polls that lets keys go, or the first if none does. -/
theorem exists_since (t : Terminal) (q : Nat → Reading) (n : Nat) :
    ∃ m ≤ n, (m = 0 ∨ t.LetsGo q m) ∧ t.Quiet q (m + 1) (n + 1) := by
  rcases letGoAt_released t q (n + 1) with ⟨m, hmn, hm, hquiet, -⟩ | ⟨hquiet, -⟩
  · exact ⟨m, by omega, .inr hm, hquiet⟩
  · exact ⟨0, by omega, .inl rfl, hquiet.mono (Nat.zero_le _)⟩

/-- If the keys have not been let go since a poll, `holdTime` later they are. -/
theorem letsGo_of_ge {j : Nat} (hclock : Steady (t.readings q) (n + 1)) (hjn : j < n) (hquiet : t.Quiet q (j + 1) n)
    (hlong : (q n).now - (q j).now ≥ holdTime) : t.LetsGo q n := by
  -- the keys were let go last at some reading up to that of the poll, and nothing has moved this time since
  obtain ⟨i, hij, hi⟩ := (letGoAt_released t q (j + 1)).exists_reading
  have hstamp : (t.after q n).released = t.readings q i := (released_of_quiet hjn hquiet).trans hi
  have hle : t.readings q i ≤ t.readings q (j + 1) := hclock.forward (j + 1) (by omega) i hij
  have hmore := hclock.since (n + 1) le_rfl (j + 1) (by omega) i (by omega) hle
  rw [LetsGo, Due, hstamp]
  exact Binary64.le_trans hlong hmore

/-- **No key sticks.**  A terminal that has just been opened is polled, on a clock that does not go back, and the user does
not leave.  If a poll reads no byte of a key, and none was read before or the last one at least `holdTime` ago, the key is
up behind it.  And behind every poll those keys are held of which a byte was read since the latest poll that let keys go,
that poll included; or at all, if none did. -/
theorem no_key_sticks (hopened : t.held = 0) (hclock : Steady (t.readings q) (n + 1))
    (hstay : ∀ i ≤ n, ¬ (t.answer q i).wantsExit) :
    (∀ k, ¬ (q n).Strikes k →
      (∀ j < n, (q j).Strikes k → (∀ l, j < l → l < n → ¬ (q l).Strikes k) → (q n).now - (q j).now ≥ holdTime) →
      (t.after q (n + 1)).held.isDown k = false) ∧
    ∃ m ≤ n, (m = 0 ∨ t.LetsGo q m) ∧ t.Quiet q (m + 1) (n + 1) ∧
      ∀ k, (t.after q (n + 1)).held.isDown k ↔ ∃ l, m ≤ l ∧ l ≤ n ∧ (q l).Strikes k := by
  have hheld : ∀ k, (t.after q (n + 1)).held.isDown k ↔ ∃ m ≤ n, (q m).Strikes k ∧ t.Quiet q (m + 1) (n + 1) := by
    intro k
    rw [isDown_after, hopened]
    constructor
    · rintro (⟨hdown, -⟩ | ⟨m, hmn, htakes, hquiet⟩)
      · simp at hdown
      · exact ⟨m, by omega, (takes_iff_of_stay (hstay m (by omega))).mp htakes, hquiet⟩
    · rintro ⟨m, hmn, hstrikes, hquiet⟩
      exact .inr ⟨m, by omega, (takes_iff_of_stay (hstay m hmn)).mpr hstrikes, hquiet⟩
  constructor
  · intro k hunread hlong
    by_contra hdown
    -- a byte of the key was read and not let go since; the last such byte is too old for that
    obtain ⟨m, hmn, hstrikes, hquiet⟩ := (hheld k).mp (by simpa using hdown)
    have hlt : m < n := lt_of_le_of_ne hmn fun heq => hunread (heq ▸ hstrikes)
    obtain ⟨j, hjn, hmj, hj, hlast⟩ := exists_last (P := fun l => (q l).Strikes k) hlt hstrikes
    obtain ⟨hquiet, hstays⟩ := (quiet_succ_iff hlt).mp hquiet
    exact hstays (letsGo_of_ge hclock hjn (hquiet.mono (by omega)) (hlong j hjn hj hlast))
  · obtain ⟨m, hmn, hm, hquiet⟩ := exists_since t q n
    refine ⟨m, hmn, hm, hquiet, fun k => (hheld k).trans ⟨?_, ?_⟩⟩
    · rintro ⟨l, hln, hstrikes, hquiet'⟩
      refine ⟨l, ?_, hln, hstrikes⟩
      by_contra hlm
      rcases hm with rfl | hm
      · omega
      · exact hquiet' m (by omega) (by omega) hm
    · rintro ⟨l, hml, hln, hstrikes⟩
      exact ⟨l, hln, hstrikes, hquiet.mono (by omega)⟩

end Sticking

/-- `W` is typed, and `q` when that is more than `holdTime` ago; then nothing any more. -/
def tapping : Nat → Reading
  | 0 => ⟨0.03125, [0x57]⟩
  | 1 => ⟨0.0625, []⟩
  | 2 => ⟨0.140625, [0x71]⟩
  | _ => ⟨0.234375, []⟩

def opened : Terminal := { released := 0.0, size := (80, 24) }

/-- The poll that reads `q` lets `w` go, and of the keys read only that of `q` is left. -/
theorem no_key_sticks_tapping :
    Steady (opened.readings tapping) 3 ∧ (opened.after tapping 2).held.isDown 5 ∧
      (opened.after tapping 3).held.isDown 5 = false ∧ (opened.after tapping 3).held.isDown 4 := by
  have hclock : Steady (opened.readings tapping) 3 := ⟨by decide +kernel, by decide +kernel⟩
  have hstay : ∀ i ≤ 2, ¬ (opened.answer tapping i).wantsExit := by decide +kernel
  obtain ⟨hup, m, hmn, -, -, hdown⟩ := no_key_sticks rfl hclock hstay
  refine ⟨hclock, by decide +kernel, hup 5 (by decide +kernel) ?_, (hdown 4).mpr ⟨2, hmn, le_rfl, by decide +kernel⟩⟩
  intro j hj hstrikes _
  interval_cases j
  · decide +kernel
  · exact absurd hstrikes (by decide +kernel)

/-! ### How long a key is held -/

section Held

variable {t : Terminal} {q : Nat → Reading} {j n : Nat} {k : Key}

theorem LetGoAt.eq_of_letsGo {start : Float} (h : t.LetGoAt q (n + 1) start) (hgo : t.LetsGo q n) :
    start = (q n).now := by
  rcases h with ⟨m, hmn, -, hquiet, rfl⟩ | ⟨hquiet, -⟩
  · obtain rfl : m = n := by
      by_contra hne
      exact hquiet n (by omega) (by omega) hgo
    rfl
  · exact absurd hgo (hquiet n (Nat.zero_le n) (by omega))

/-- **A key is held until `holdTime` after keys were let go**, and not after its byte was taken in: a poll takes in a byte of
the key, and those behind it take in none.  Then the key is held as long as none of these comes `holdTime` or more after
keys were let go last, up to the poll of the byte; so its time is counted from the byte if that poll let keys go. -/
theorem held_iff_of_taken (hjn : j ≤ n) (htaken : (q j).Takes k) (hlast : ∀ l, j < l → l ≤ n → ¬ (q l).Takes k) :
    ∃ start, t.LetGoAt q (j + 1) start ∧ (t.LetsGo q j → start = (q j).now) ∧
      ((t.after q (n + 1)).held.isDown k ↔ ∀ l, j < l → l ≤ n → ¬ ((q l).now - start ≥ holdTime)) := by
  have hstart := letGoAt_released t q (j + 1)
  refine ⟨_, hstart, hstart.eq_of_letsGo, ?_⟩
  have hheld : (t.after q (n + 1)).held.isDown k ↔ t.Quiet q (j + 1) (n + 1) := by
    rw [isDown_after]
    constructor
    · rintro (⟨-, hquiet⟩ | ⟨m, hmn, htakes, hquiet⟩)
      · exact hquiet.mono (Nat.zero_le _)
      · have hmj : m ≤ j := not_lt.mp fun hjm => hlast m hjm (by omega) htakes
        exact hquiet.mono (by omega)
    · intro hquiet
      exact .inr ⟨j, by omega, htaken, hquiet⟩
  rw [hheld, quiet_iff (by omega)]
  exact forall_congr' fun l => imp_congr Nat.succ_le_iff (imp_congr Nat.lt_succ_iff Iff.rfl)

end Held

/-- The poll that reads `q` lets keys go, and at the next one `holdTime` is not over. -/
theorem held_iff_of_taken_tapping :
    (tapping 2).Takes 4 ∧ ¬ (tapping 3).Takes 4 ∧ (opened.after tapping 4).held.isDown 4 := by
  have htaken : (tapping 2).Takes 4 := by decide +kernel
  have hlast : ¬ (tapping 3).Takes 4 := by decide +kernel
  have hgo : opened.LetsGo tapping 2 := of_decide_eq_true (p := (opened.after tapping 2).Due _) (by decide +kernel)
  have hthree : ∀ l, 2 < l → l ≤ 3 → l = 3 := by omega
  obtain ⟨start, -, hstart, hheld⟩ := held_iff_of_taken (t := opened) (n := 3) (by omega) htaken
    fun l hl hle => hthree l hl hle ▸ hlast
  obtain rfl := hstart hgo
  refine ⟨htaken, hlast, hheld.mpr fun l hl hle => ?_⟩
  obtain rfl := hthree l hl hle
  decide +kernel

/-- `w` is typed when the time since the terminal was opened is almost over. -/
def late : Nat → Reading
  | 0 => ⟨0.09375, [0x77]⟩
  | _ => ⟨0.125, []⟩

/-- A key that was read less than `holdTime` ago is up. -/
theorem key_let_go_early :
    opened.held = 0 ∧ Steady (opened.readings late) 2 ∧ (∀ i ≤ 1, ¬ (opened.answer late i).wantsExit) ∧
      (late 0).Strikes 5 ∧ ¬ (late 1).Strikes 5 ∧ (late 1).now - (late 0).now < holdTime ∧
      (opened.after late 2).held.isDown 5 = false :=
  ⟨rfl, ⟨by decide +kernel, by decide +kernel⟩, by decide +kernel, by decide +kernel, by decide +kernel,
    by decide +kernel, by decide +kernel⟩

end Chip8.Terminal

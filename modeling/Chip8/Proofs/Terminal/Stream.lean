import Mathlib
import Chip8.Proofs.Terminal.Holding
import Chip8.Terminal.Device

/-!
# The stream of bytes

Bytes come to a terminal in pieces of any size, at any time, and wait until a poll reads them; a poll reads 1024 of them
at most.  Nothing gets lost on the way and nothing is read twice: what the polls have read, one after another, and what
waits behind them make up the stream of all that has come (`read_append_waiting`), and whatever has come is read some time
(`exists_read`).  So it does not matter how the stream is cut: the user leaves at the poll that reads the first byte that
asks for it, and up to there each poll holds the keys of the bytes that it reads (`stream_is_read_in_order`).
-/

namespace Chip8.Terminal

/-! ### A terminal and its wire -/

/-- What a poll finds around a terminal: the time, and the bytes that wait. -/
structure Wire where
  now : Float
  waiting : List UInt8

def Wire.clock : Environment (StateM Wire) where
  now := return (← get).now
  pause _ := pure ()
  note _ := pure ()

/-- The end of a wire at which the terminal is. -/
def Wire.tty : Tty (StateM Wire) where
  isTerminal := pure true
  settings := pure ""
  setRaw := pure ()
  restore _ := pure ()
  size := pure (80, 24)
  pending := modifyGet fun wire => ((Tty.readOnce wire.waiting).1, { wire with waiting := (Tty.readOnce wire.waiting).2 })
  write _ := pure ()

/-- One poll, in front of which more bytes have come; also answers what it signals. -/
def pollWire (s : Terminal × Wire) (r : Reading) : Signals × Terminal × Wire :=
  let ((signals, t), wire) := (peripherals Wire.clock Wire.tty).poll s.1 ⟨r.now, s.2.waiting ++ r.bytes⟩
  (signals, t, wire)

theorem readOnce_eq (waiting : List UInt8) : Tty.readOnce waiting = (waiting.take 1024, waiting.drop 1024) :=
  List.splitAt_eq

theorem pollWire_eq (s : Terminal × Wire) (r : Reading) :
    pollWire s r =
      ((s.1.poll r.now ((s.2.waiting ++ r.bytes).take 1024)).2,
        (s.1.poll r.now ((s.2.waiting ++ r.bytes).take 1024)).1, ⟨r.now, (s.2.waiting ++ r.bytes).drop 1024⟩) := by
  have hpoll : pollWire s r =
      ((s.1.poll r.now (Tty.readOnce (s.2.waiting ++ r.bytes)).1).2,
        (s.1.poll r.now (Tty.readOnce (s.2.waiting ++ r.bytes)).1).1,
        ⟨r.now, (Tty.readOnce (s.2.waiting ++ r.bytes)).2⟩) := rfl
  rw [hpoll, readOnce_eq]

/-! ### Polls one after another -/

section Stream

variable (t : Terminal) (q : Nat → Reading)

/-- The terminal and its wire behind so many polls, where `q n` is the time of poll `n` and what has come since the one
before it. -/
def behind : Nat → Terminal × Wire
  | 0 => (t, ⟨t.released, []⟩)
  | n + 1 => (pollWire (behind n) (q n)).2

def signaled (n : Nat) : Signals := (pollWire (behind t q n) (q n)).1

/-- The key vector that the terminal answers behind so many polls. -/
def sent (n : Nat) : Option Int := ((peripherals Wire.clock Wire.tty).keys (behind t q n).1 (behind t q n).2).1.1

/-- What waits in front of a poll. -/
def pile (n : Nat) : List UInt8 := (behind t q n).2.waiting ++ (q n).bytes

def chunk (n : Nat) : List UInt8 := (pile t q n).take 1024

/-- What so many polls have read, one after another. -/
def read (n : Nat) : List UInt8 := (List.range n).flatMap (chunk t q)

/-- What has come in front of so many polls. -/
def stream (n : Nat) : List UInt8 := (List.range n).flatMap fun i => (q i).bytes

theorem read_succ (n : Nat) : read t q (n + 1) = read t q n ++ chunk t q n := by
  simp [read, List.range_succ]

theorem stream_succ (n : Nat) : stream q (n + 1) = stream q n ++ (q n).bytes := by
  simp [stream, List.range_succ]

theorem behind_succ (n : Nat) :
    behind t q (n + 1) =
      (((behind t q n).1.poll (q n).now (chunk t q n)).1, ⟨(q n).now, (pile t q n).drop 1024⟩) := by
  rw [behind, pollWire_eq]
  rfl

theorem signaled_eq (n : Nat) : signaled t q n = ((behind t q n).1.poll (q n).now (chunk t q n)).2 := by
  rw [signaled, pollWire_eq]
  rfl

/-! ### Nothing is lost -/

theorem chunk_append_waiting (n : Nat) : chunk t q n ++ (behind t q (n + 1)).2.waiting = pile t q n := by
  rw [behind_succ]
  exact List.take_append_drop 1024 _

/-- **Nothing is lost and nothing is read twice.** -/
theorem read_append_waiting (n : Nat) : read t q n ++ (behind t q n).2.waiting = stream q n := by
  induction n with
  | zero => rfl
  | succ n ih =>
    calc read t q (n + 1) ++ (behind t q (n + 1)).2.waiting
        = read t q n ++ (chunk t q n ++ (behind t q (n + 1)).2.waiting) := by rw [read_succ, List.append_assoc]
      _ = read t q n ++ (behind t q n).2.waiting ++ (q n).bytes := by
        rw [chunk_append_waiting, pile, List.append_assoc]
      _ = stream q (n + 1) := by rw [ih, stream_succ]

theorem stream_prefix_add (n i : Nat) : stream q n <+: stream q (n + i) := by
  induction i with
  | zero => exact List.prefix_rfl
  | succ i ih =>
    rw [← Nat.add_assoc, stream_succ]
    exact ih.trans (List.prefix_append _ _)

/-- A poll reads at least one byte, as long as one waits. -/
theorem length_read_add_ge (n i : Nat) : min (stream q n).length i ≤ (read t q (n + i)).length := by
  induction i with
  | zero => simp
  | succ i ih =>
    have hall := congrArg List.length (read_append_waiting t q (n + i))
    have hmore := (stream_prefix_add q n i).length_le
    rw [← Nat.add_assoc, read_succ, List.length_append, chunk, pile, List.length_take, List.length_append]
    rw [List.length_append] at hall
    omega

/-- Whatever has come is read some time. -/
theorem exists_read (n : Nat) : ∃ m, stream q n <+: read t q m := by
  refine ⟨n + (stream q n).length, ?_⟩
  have hread : read t q (n + (stream q n).length) <+: stream q (n + (stream q n).length) :=
    ⟨_, read_append_waiting t q _⟩
  have hlength := length_read_add_ge t q n (stream q n).length
  exact List.prefix_of_prefix_length_le (stream_prefix_add q n _) hread (by omega)

/-! ### Leaving -/

theorem isExit_iff {b : UInt8} : isExit b ↔ b = 0x03 ∨ b = 0x1B := by
  simp [isExit]

/-- The user leaves at a poll exactly if it reads a byte that asks for it. -/
theorem signaled_eq_programExit_iff (n : Nat) : signaled t q n = .programExit ↔ ∃ b ∈ chunk t q n, isExit b := by
  obtain ⟨v, hpoll, -⟩ := (behind t q n).1.poll_spec (q n).now (chunk t q n)
  rw [signaled_eq, hpoll]
  dsimp only
  split_ifs with hexit hchanged
  · exact iff_of_true rfl hexit
  · exact iff_of_false (by decide) hexit
  · exact iff_of_false (by decide) hexit

theorem exists_mem_read_iff (n : Nat) : (∃ b ∈ read t q n, isExit b) ↔ ∃ m < n, signaled t q m = .programExit := by
  simp only [signaled_eq_programExit_iff, read, List.mem_flatMap, List.mem_range]
  constructor
  · rintro ⟨b, ⟨m, hm, hb⟩, hexit⟩
    exact ⟨m, hm, b, hb, hexit⟩
  · rintro ⟨m, hm, b, hb, hexit⟩
    exact ⟨b, ⟨m, hm, hb⟩, hexit⟩

/-- The user has not left yet exactly if no byte that was read asks for it. -/
theorem stays_iff (n : Nat) : (∀ m < n, signaled t q m ≠ .programExit) ↔ ∀ c ∈ read t q n, ¬ isExit c := by
  have hread := not_congr (exists_mem_read_iff t q n)
  push Not at hread
  exact hread.symm

/-- The user leaves at a poll for the first time. -/
def LeavesAt (n : Nat) : Prop := signaled t q n = .programExit ∧ ∀ m < n, signaled t q m ≠ .programExit

/-- Of the stream in front of a poll and with what comes then, the first byte that asks to leave stands in what the poll
reads. -/
def ReadsExit (n : Nat) : Prop :=
  ∃ front b rest, stream q (n + 1) = front ++ b :: rest ∧
    (b = 0x03 ∨ b = 0x1B) ∧ (∀ c ∈ front, ¬ (c = 0x03 ∨ c = 0x1B)) ∧
    (read t q n).length ≤ front.length ∧ front.length < (read t q (n + 1)).length

theorem read_append_chunk_append_waiting (n : Nat) :
    read t q n ++ (chunk t q n ++ (behind t q (n + 1)).2.waiting) = stream q (n + 1) := by
  rw [← List.append_assoc, ← read_succ, read_append_waiting]

theorem LeavesAt.readsExit {n : Nat} (h : LeavesAt t q n) : ReadsExit t q n := by
  obtain ⟨hexit, hstay⟩ := h
  obtain ⟨b, rest, hchunk, hb, htaken⟩ := exists_exit ((signaled_eq_programExit_iff t q n).mp hexit)
  have hlength := congrArg List.length hchunk
  rw [List.length_append, List.length_cons] at hlength
  simp only [ReadsExit, ← isExit_iff]
  refine ⟨read t q n ++ taken (chunk t q n), b, rest ++ (behind t q (n + 1)).2.waiting, ?_, hb, ?_, ?_, ?_⟩
  · calc stream q (n + 1)
        = read t q n ++ (chunk t q n ++ (behind t q (n + 1)).2.waiting) := (read_append_chunk_append_waiting t q n).symm
      _ = read t q n ++ ((taken (chunk t q n) ++ b :: rest) ++ (behind t q (n + 1)).2.waiting) := by rw [← hchunk]
      _ = _ := by simp
  · intro c hc
    rcases List.mem_append.mp hc with hc | hc
    · exact (stays_iff t q n).mp hstay c hc
    · exact htaken c hc
  · rw [List.length_append]
    omega
  · rw [read_succ, List.length_append, List.length_append]
    omega

theorem ReadsExit.leavesAt {n : Nat} (h : ReadsExit t q n) : LeavesAt t q n := by
  simp only [ReadsExit, ← isExit_iff] at h
  obtain ⟨front, b, rest, hfront, hb, hnone, hle, hlt⟩ := h
  rw [read_succ, List.length_append] at hlt
  have hstream := (read_append_chunk_append_waiting t q n).trans hfront
  obtain ⟨c, rfl⟩ : read t q n <+: front := List.prefix_of_prefix_length_le ⟨_, hstream⟩ (List.prefix_append _ _) hle
  rw [List.append_assoc, List.append_cancel_left_eq] at hstream
  rw [List.length_append] at hlt
  -- what the poll reads goes on at least to the byte behind the front
  have hprefix : c ++ [b] <+: chunk t q n := by
    refine List.prefix_of_prefix_length_le ⟨rest, ?_⟩ ⟨_, hstream⟩ ?_
    · rw [List.append_assoc, List.singleton_append]
    · rw [List.length_append, List.length_singleton]
      omega
  refine ⟨(signaled_eq_programExit_iff t q n).mpr ⟨b, hprefix.subset (by simp), hb⟩, ?_⟩
  exact (stays_iff t q n).mpr fun c hc => hnone c (List.mem_append_left _ hc)

/-! ### Holding keys -/

/-- Behind a poll, the keys of the bytes that it has read are held, if none of these asks to leave; all others that are
held were so before. -/
theorem isDown_behind_succ (n : Nat) (hstay : signaled t q n ≠ .programExit) (k : Key) :
    (behind t q (n + 1)).1.held.isDown k ↔
      ((behind t q n).1.held.isDown k ∧ ¬ (behind t q n).1.Due (q n).now) ∨ ∃ b ∈ chunk t q n, Strikes b k := by
  have hnone : ∀ b ∈ chunk t q n, ¬ isExit b := by
    intro b hb hexit
    exact hstay ((signaled_eq_programExit_iff t q n).mpr ⟨b, hb, hexit⟩)
  rw [behind_succ, isDown_poll, taken_eq_self hnone]

theorem sent_eq (n : Nat) : sent t q n = some ((behind t q n).1.held.toNat : Int) := rfl

end Stream

/-- **The stream of bytes is read in order, and no byte is lost**, however it is cut into pieces.  A poll takes what it
reads off the front of what waits, 1024 bytes at most; what the polls have read and what waits make up the stream, and
all of it is read some time.  The user leaves for the first time at the poll that reads the first byte of the stream that
asks to leave, `$03` or `$1B`; and if there is such a byte, then there is such a poll.  Until then, behind each poll the
keys of the bytes that it has read are held, in the vector that the terminal answers; a key that was not held before is
held only if a byte of it was read. -/
theorem stream_is_read_in_order (t : Terminal) (q : Nat → Reading) :
    (∀ n, (chunk t q n).length ≤ 1024 ∧
      (behind t q n).2.waiting ++ (q n).bytes = chunk t q n ++ (behind t q (n + 1)).2.waiting ∧
      read t q n ++ (behind t q n).2.waiting = stream q n ∧ ∃ m, stream q n <+: read t q m) ∧
    (∀ n, LeavesAt t q n ↔ ReadsExit t q n) ∧
    (∀ n, (∃ b ∈ stream q n, b = 0x03 ∨ b = 0x1B) → ∃ m, LeavesAt t q m) ∧
    ∀ n, (∀ m ≤ n, signaled t q m ≠ .programExit) →
      ∃ old new : Nat, sent t q n = some (old : Int) ∧ sent t q (n + 1) = some (new : Int) ∧ ∀ k : Key,
        ((∃ b ∈ chunk t q n, Strikes b k) → new.testBit k) ∧
        (new.testBit k → old.testBit k ∨ ∃ b ∈ chunk t q n, Strikes b k) := by
  refine ⟨fun n => ⟨?_, ?_, ?_, ?_⟩, fun n => ⟨LeavesAt.readsExit t q, ReadsExit.leavesAt t q⟩, ?_, ?_⟩
  · exact List.length_take_le ..
  · exact (chunk_append_waiting t q n).symm
  · exact read_append_waiting t q n
  · exact exists_read t q n
  · rintro n ⟨b, hb, hexit⟩
    obtain ⟨m, hread⟩ := exists_read t q n
    obtain ⟨l, -, hl⟩ := (exists_mem_read_iff t q m).mp ⟨b, hread.subset hb, isExit_iff.mpr hexit⟩
    have hleft : ∃ l, signaled t q l = .programExit := ⟨l, hl⟩
    exact ⟨Nat.find hleft, Nat.find_spec hleft, fun i hi => Nat.find_min hleft hi⟩
  · intro n hstay
    refine ⟨_, _, sent_eq t q n, sent_eq t q (n + 1), fun k => ⟨fun hread => ?_, fun hdown => ?_⟩⟩
    · exact (isDown_behind_succ t q n (hstay n le_rfl) k).mpr (.inr hread)
    · exact ((isDown_behind_succ t q n (hstay n le_rfl) k).mp hdown).imp_left And.left

/-- More than 1024 bytes at once: `A` again and again, and at the very end `Q` and `$1B`. -/
def flood : Nat → Reading
  | 0 => ⟨0.03125, List.replicate 1024 0x41 ++ [0x51, 0x1B]⟩
  | n + 1 => ⟨0.03125 * (n + 2).toFloat, []⟩

theorem stream_is_read_in_order_flood :
    LeavesAt opened flood 1 ∧ (∃ m, LeavesAt opened flood m) ∧
      ∃ v : Nat, sent opened flood 1 = some (v : Int) ∧ v.testBit (7 : Key) ∧ ¬ v.testBit (4 : Key) := by
  obtain ⟨-, hat, hsome, hkeys⟩ := stream_is_read_in_order opened flood
  have hleaves : LeavesAt opened flood 1 :=
    (hat 1).mpr ⟨(flood 0).bytes.take 1025, 0x1B, [], by decide +kernel, .inr rfl, by decide +kernel, by decide +kernel,
      by decide +kernel⟩
  obtain ⟨old, new, hold, hnew, hbits⟩ := hkeys 0 fun m hm => hleaves.2 m (Nat.lt_succ_of_le hm)
  refine ⟨hleaves, hsome 1 ⟨0x1B, by decide +kernel, .inr rfl⟩, new, hnew, (hbits 7).1 (by decide +kernel), ?_⟩
  intro hdown
  obtain hbefore | hread := (hbits 4).2 hdown
  · obtain rfl : old = 0 := by
      have hnone : sent opened flood 0 = some 0 := by decide +kernel
      simpa [hold] using hnone
    simp at hbefore
  · exact absurd hread (by decide +kernel)

end Chip8.Terminal

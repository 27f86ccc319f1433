import Mathlib
import Chip8.Proofs.Emulator.Faults
import Chip8.Proofs.Listing

/-!
# A trace records an execution

Under a trace, an emulator logs a line for each word that it fetches, and nothing else that it asks for looks like one.
The word is noted when it has been fetched and nothing has come of it yet; so the line shows the memory as it was then,
and a word that fails has its line too (`trace_records_execution`).
-/

namespace Chip8

/-! ### Words that fail -/

/-- The word that could not be carried out, with its place. -/
def Fault.stuckAt? : Fault → Option (UInt16 × Word)
  | .invalidProgramCounter _ => none
  | .stackUnderflow pc => some (pc, 0x00EE)
  | .unrecognized pc word => some (pc, word)

def CycleError.stuckAt? : CycleError → Option (UInt16 × Word)
  | .fault f => f.stuckAt?
  | .timing _ => none

theorem Machine.stuckAt?_of_exec {m : Machine} {word : Word} {f : Fault} (h : m.exec word = .error f) :
    f.stuckAt? = some (m.pc, word) := by
  cases hdecode : Instr.decode? word with
  | none =>
    rw [exec_of_none hdecode] at h
    obtain rfl := Except.error.inj h
    rfl
  | some i =>
    rw [exec_of_some hdecode] at h
    obtain ⟨rfl, -, rfl⟩ := perform_eq_error_iff.mp h
    obtain rfl := (Instr.decode?_eq_ret_iff word).mp hdecode
    rfl

/-! ### Lines of a trace -/

/-- A line is what a trace says of a machine that has fetched a word: where it is, the word as its two bytes make it, and
the text of these bytes in a listing. -/
def Machine.TracedAs (m : Machine) (line : String) : Prop :=
  let high := m.memory.read m.pc.toNat
  let low := m.memory.read (m.pc.toNat + 1)
  ∀ address, ∃ l, Listing.lineAt [high, low] address 0 = .ok l ∧
    line = Hex.ofNat 4 m.pc.toNat ++ ": " ++ Hex.ofNat 4 (0x100 * high.toNat + low.toNat) ++ " " ++ l.text

def Machine.traceLine (m : Machine) : String := Notice.traceLine m.pc m.word

theorem Machine.tracedAs_traceLine (m : Machine) : m.TracedAs m.traceLine := by
  intro address
  refine ⟨Line.ofWord address m.word, rfl, ?_⟩
  rw [← Word.toNat_ofBytes]
  rfl

namespace Emulator

variable {W : Type}

def traceLines (rs : List Request) : List String :=
  rs.filterMap fun
    | .note (.traced pc word) => some (Notice.traced pc word).text
    | _ => none

@[simp] theorem traceLines_append (rs rs' : List Request) : traceLines (rs ++ rs') = traceLines rs ++ traceLines rs' :=
  List.filterMap_append

theorem traceLines_eq_nil {rs : List Request} (h : ∀ pc word, .note (.traced pc word) ∉ rs) : traceLines rs = [] := by
  unfold traceLines
  rw [List.filterMap_eq_nil_iff]
  intro r hr
  split
  · exact absurd hr (h _ _)
  · rfl

@[simp] theorem traceLines_warningRequests (eff : Effect) : traceLines (warningRequests eff) = [] :=
  traceLines_eq_nil fun pc word => by unfold warningRequests; split <;> simp

@[simp] theorem traceLines_toneRequests (told tone : Bool) : traceLines (toneRequests told tone) = [] :=
  traceLines_eq_nil fun pc word => by unfold toneRequests; split <;> simp

@[simp] theorem traceLines_frameRequests (f : Frame) (signals : Signals) : traceLines (frameRequests f signals) = [] :=
  traceLines_eq_nil fun pc word => by unfold frameRequests; split <;> simp

/-! ### One cycle -/

def Progress.stuckAt? : Progress → Option (UInt16 × Word)
  | .failed err => err.stuckAt?
  | _ => none

@[simp] theorem Progress.stuckAt?_ofCycle_ok (signals : Signals) : (ofCycle (.ok signals)).stuckAt? = none := by
  unfold ofCycle
  dsimp only
  split <;> rfl

/-- The machine that fetched a word in a cycle, with the keys that it had got.  There is none if the user left or the
program counter was outside program memory. -/
def Turn.fetching (p : Peripherals (StateM W)) (t : Turn W) : Option Machine :=
  let m := t.before.machine.receiveKeys (p.answer t.world).1
  if ¬ (p.poll t.world).1.wantsExit ∧ m.Inside then some m else none

def Turn.stuckAt? (t : Turn W) : Option (UInt16 × Word) := t.progress.stuckAt?

/-- What a cycle counts: the word that it has fetched, unless it failed at that. -/
def Turn.Counts (p : Peripherals (StateM W)) (t : Turn W) (count : Nat) : Prop :=
  match t.fetching p with
  | none => count = 0 ∧ t.stuckAt? = none
  | some m => count = 1 ∧ t.stuckAt? = none ∨ count = 0 ∧ t.stuckAt? = some (m.pc, m.word)

section Cycle

variable {p : Peripherals (StateM W)} {i : Intake} {e e' : Emulator} {w : W} {s s' : Scene W} {rs : List Request}
  {out : Except CycleError Signals}

theorem taking_machine (hsignals : i.signals = (p.poll w).1) (hkeys : i.keys = (p.keys (p.poll w).2).1) :
    (e.taking i).machine = e.machine.receiveKeys (p.answer w).1 := by
  unfold taking Peripherals.answer
  rw [hsignals, hkeys]
  split <;> rfl

theorem traceLines_traceRequests (htrace : e.config.trace = true) (word : Word) :
    traceLines (e.traceRequests word) = [Notice.traceLine e.machine.pc word] := by
  unfold traceRequests
  rw [if_pos htrace]
  rfl

theorem Cycle.traced (hc : Cycle i e rs e' out) (htrace : e.config.trace = true)
    (hsignals : i.signals = (p.poll w).1) (hkeys : i.keys = (p.keys (p.poll w).2).1) :
    let t : Turn W := ⟨e, w, out⟩
    traceLines rs = ((t.fetching p).map Machine.traceLine).toList ∧
      ∃ count, t.Counts p count ∧ e'.cycles = e.cycles + count := by
  have hmachine := taking_machine (e := e) hsignals hkeys
  have hlines := fun word => traceLines_traceRequests (e := e.taking i) htrace word
  have hcycles : (e.taking i).cycles = e.cycles := rfl
  unfold Turn.Counts Turn.fetching Turn.stuckAt? Turn.progress
  dsimp only
  rw [← hsignals, ← hmachine]
  -- the line is noted between fetching and carrying out, so a word that fails has it as well
  cases hc with
  | left hexit => simp [hexit, traceLines]
  | lost hstay hfetch =>
    obtain ⟨hout, rfl⟩ := Machine.fetch_eq_error_iff.mp hfetch
    simp [hout, hcycles, traceLines, Progress.ofCycle, Progress.stuckAt?, CycleError.stuckAt?, Fault.stuckAt?]
  | failed hstay hfetch hexec =>
    obtain ⟨hin, rfl⟩ := Machine.fetch_eq_ok_iff.mp hfetch
    have hstuck := Machine.stuckAt?_of_exec hexec
    simp [hstay, hin, hlines, hcycles, Progress.ofCycle, Progress.stuckAt?, CycleError.stuckAt?, hstuck,
      Machine.traceLine]
  | untimed hstay hfetch hexec =>
    obtain ⟨hin, rfl⟩ := Machine.fetch_eq_ok_iff.mp hfetch
    simp [hstay, hin, hlines, Progress.ofCycle, Progress.stuckAt?, CycleError.stuckAt?, Machine.traceLine]
  | done hstay hfetch hexec =>
    obtain ⟨hin, rfl⟩ := Machine.fetch_eq_ok_iff.mp hfetch
    simp [hstay, hin, hlines, Machine.traceLine]

end Cycle

/-! ### Trails and calls -/

section Trail

variable {p : Peripherals (StateM W)} {e e' : Emulator} {s s' : Scene W} {ts : List (Turn W)} {t : Turn W}
  {count : Nat} {g : Progress}

theorem Turn.Counts.length_eq (h : t.Counts p count) :
    count + t.stuckAt?.toList.length = (t.fetching p).toList.length := by
  unfold Turn.Counts at h
  cases hfetching : t.fetching p with
  | none =>
    obtain ⟨rfl, hstuck⟩ := by simpa [hfetching] using h
    simp [hstuck]
  | some m =>
    obtain ⟨rfl, hstuck⟩ | ⟨rfl, hstuck⟩ := by simpa [hfetching] using h
    · simp [hstuck]
    · simp [hstuck]

theorem Turn.Counts.fetching_eq (h : t.Counts p count) {pc : UInt16} {word : Word}
    (hstuck : t.stuckAt? = some (pc, word)) :
    ∃ m, t.fetching p = some m ∧ m.traceLine = Notice.traceLine pc word := by
  unfold Turn.Counts at h
  cases hfetching : t.fetching p with
  | none => simp [hfetching, hstuck] at h
  | some m =>
    obtain ⟨-, rfl, rfl⟩ : count = 0 ∧ pc = m.pc ∧ word = m.word := by simpa [hfetching, hstuck] using h
    exact ⟨m, rfl, rfl⟩

theorem Between.traceLines_eq (h : Between p e s e' s') :
    traceLines s'.log = traceLines s.log ∧ e'.cycles = e.cycles := by
  cases h with
  | now | books | load => exact ⟨rfl, rfl⟩
  | @aside r _ huntraced =>
    have hnone : traceLines [r] = [] := traceLines_eq_nil fun pc word hmem =>
      huntraced pc word (List.mem_singleton.mp hmem).symm
    rw [traceLines_append, hnone, List.append_nil]
    exact ⟨rfl, rfl⟩
  | silence =>
    obtain ⟨w, hw⟩ := play_silence p e s
    simp [hw]

/-- **Along a trail**, a line is logged for each machine that fetches a word, and all of these words are counted but the
ones that failed. -/
theorem Trail.traced (h : Trail p e s ts e' s') (htrace : e.config.trace = true) :
    traceLines s'.log = traceLines s.log ++ (ts.filterMap (Turn.fetching p)).map Machine.traceLine ∧
      e'.cycles + (ts.filterMap Turn.stuckAt?).length = e.cycles + (ts.filterMap (Turn.fetching p)).length ∧
      ∀ t ∈ ts, ∃ count, t.Counts p count := by
  simp only [List.filterMap_eq_flatMap_toList]
  induction h with
  | rest => simp
  | @cycle e e₁ e' s s₁ s' out ts hstep hrest ih =>
    obtain ⟨i, rs, hlog, hsignals, hkeys, hc⟩ := cycle_of_step hstep
    obtain ⟨hlines, count, hcounts, hcycles⟩ := hc.traced htrace hsignals hkeys
    obtain ⟨hlines', hcycles', hcounts'⟩ := ih (hc.keeps.1.trace.trans htrace)
    have hlength := hcounts.length_eq
    refine ⟨?_, ?_, List.forall_mem_cons.mpr ⟨⟨count, hcounts⟩, hcounts'⟩⟩
    · rw [hlines', hlog, traceLines_append, hlines, List.flatMap_cons, List.map_append, List.append_assoc]
      cases Turn.fetching p ⟨e, s.world, out⟩ <;> rfl
    · simp only [List.flatMap_cons, List.length_append]
      omega
  | between hbetween _ ih =>
    obtain ⟨hlines, hcycles⟩ := hbetween.traceLines_eq
    have hrest := ih (hbetween.sameSettings.trace.trans htrace)
    rwa [hlines, hcycles] at hrest

/-- In a call, a word has failed only in the last cycle, and only if the call has failed at it. -/
theorem Ended.stuckAt? (h : Ended ts g) : ts.filterMap Turn.stuckAt? = g.stuckAt?.toList := by
  induction h with
  | nil => rfl
  | last t => cases hstuck : t.stuckAt? <;> simp_all [Turn.stuckAt?]
  | cons hready _ ih => simp [Turn.stuckAt?, hready, Progress.stuckAt?, ih]

theorem stuckAt?_flatten {tss : List (List (Turn W))} {gs : List Progress} (h : List.Forall₂ Ended tss gs) :
    tss.flatten.filterMap Turn.stuckAt? = gs.filterMap Progress.stuckAt? := by
  induction h with
  | nil => rfl
  | @cons ts g tss gs hended _ ih =>
    rw [List.flatten_cons, List.filterMap_append, hended.stuckAt?, ih, List.filterMap_eq_flatMap_toList,
      List.filterMap_eq_flatMap_toList, List.flatMap_cons]

/-- The word that the last call fails at is the last line. -/
theorem Trail.getLast?_traceLines {tss : List (List (Turn W))} {gs : List Progress} {pc : UInt16} {word : Word}
    (h : Trail p e s tss.flatten e' s') (htrace : e.config.trace = true)
    (hended : List.Forall₂ Ended tss (gs ++ [g])) (hstuck : g.stuckAt? = some (pc, word)) :
    (traceLines s'.log).getLast? = some (Notice.traceLine pc word) := by
  have hlast := List.forall₂_drop_append tss gs [g] hended
  obtain ⟨ts, _, hfailed, hnil, hdrop⟩ := List.forall₂_cons_right_iff.mp hlast
  obtain rfl := List.forall₂_nil_right_iff.mp hnil
  obtain ⟨ts₀, t, rfl, rfl⟩ := hfailed.exists_last (by rintro rfl; exact nomatch hstuck)
  have hflatten : tss.flatten = (tss.take gs.length).flatten ++ ts₀ ++ [t] := by
    have hcut := List.take_append_drop gs.length tss
    rw [hdrop] at hcut
    calc tss.flatten = (tss.take gs.length ++ [ts₀ ++ [t]]).flatten := by rw [hcut]
      _ = (tss.take gs.length).flatten ++ ts₀ ++ [t] := by simp
  obtain ⟨hlines, -, hcounts⟩ := h.traced htrace
  obtain ⟨count, ht⟩ := hcounts t (by simp [hflatten])
  obtain ⟨m, hm, hline⟩ := ht.fetching_eq hstuck
  rw [hlines, hflatten, List.filterMap_append, List.map_append, ← List.append_assoc]
  simp [hm, hline]

end Trail

/-- An emulator under a trace, whose machine has just been switched on. -/
def traced (config : Config) (random : Random) (scheduler : Scheduler) : Emulator :=
  { config := { config with trace := true }, machine := .powerOn random, scheduler }

/-- **A trace is a faithful record.**  An emulator under a trace, whose machine has just been switched on, with any
configuration, scheduler and world, goes through any cycles, whatever program is loaded before and between them.  The
lines that it has logged are then, in order, those of the machines that have fetched a word, each as it was just then;
and there are as many as there are instructions counted, and one more for each word that could not be carried out.

Any calls but a reset are such cycles, and of those that make up a call none but the last has failed, and that only if
the call has.  So there is one more line for each call that failed at a word, and if the last one did, this word is the
last line. -/
theorem trace_records_execution (p : Peripherals (StateM W)) (config : Config) (random : Random)
    (scheduler : Scheduler) (w : W) :
    (∀ ts e s, Trail p (traced config random scheduler) ⟨[], w⟩ ts e s →
      List.Forall₂ Machine.TracedAs (ts.filterMap (Turn.fetching p)) (traceLines s.log) ∧
      (traceLines s.log).length = e.cycles + (ts.filterMap Turn.stuckAt?).length) ∧
    ∀ cs, (∀ c ∈ cs, c ≠ .reset) → ∃ e gs s tss,
      play (attendAll p.recorded (traced config random scheduler) cs) ⟨[], w⟩ = ((e, gs), s) ∧
      Trail p (traced config random scheduler) ⟨[], w⟩ tss.flatten e s ∧
      List.Forall₂ Ended tss gs ∧
      (traceLines s.log).length = e.cycles + (gs.filterMap Progress.stuckAt?).length ∧
      ∀ gs₀ g pc word, gs = gs₀ ++ [g] → g.stuckAt? = some (pc, word) →
        (traceLines s.log).getLast? = some (Notice.traceLine pc word) := by
  have hlength : ∀ {ts e s}, Trail p (traced config random scheduler) ⟨[], w⟩ ts e s →
      (traceLines s.log).length = e.cycles + (ts.filterMap Turn.stuckAt?).length := by
    intro ts e s h
    obtain ⟨hlines, hcycles, -⟩ := h.traced rfl
    rw [hlines, List.length_append, List.length_map, hcycles]
    rfl
  constructor
  · intro ts e s h
    refine ⟨?_, hlength h⟩
    obtain ⟨hlines, -, -⟩ := h.traced rfl
    have hall : traceLines s.log = (ts.filterMap (Turn.fetching p)).map Machine.traceLine := hlines
    rw [hall, List.forall₂_map_right_iff, List.forall₂_same]
    exact fun m _ => m.tracedAs_traceLine
  · intro cs hcs
    obtain ⟨⟨⟨e, gs⟩, s⟩, hplay⟩ :
      ∃ r, play (attendAll p.recorded (traced config random scheduler) cs) ⟨[], w⟩ = r := ⟨_, rfl⟩
    obtain ⟨tss, hended, htrail⟩ := trail_attendAll hcs hplay
    refine ⟨e, gs, s, tss, hplay, htrail, hended, ?_, ?_⟩
    · rw [hlength htrail, stuckAt?_flatten hended]
    · rintro gs₀ g pc word rfl hstuck
      exact htrail.getLast?_traceLines rfl hended hstuck

/-- A program that sets a register and then returns from nowhere has two lines for one instruction counted. -/
theorem trace_records_execution_ret :
    ∃ e gs s, ∃ tss : List (List (Turn Float)), play (attendAll halves.recorded (traced {} default ⟨0.5, 0.0, 0⟩)
        [.load [0x60, 0x05, 0x00, 0xEE], .runCycles 5]) ⟨[], 0.0⟩ = ((e, gs), s) ∧
      Trail halves (traced {} default ⟨0.5, 0.0, 0⟩) ⟨[], 0.0⟩ tss.flatten e s ∧
      gs = [.ready, .failed (.fault (.stackUnderflow 0x202))] ∧ e.cycles = 1 ∧
      List.Forall₂ Machine.TracedAs (tss.flatten.filterMap (Turn.fetching halves)) (traceLines s.log) ∧
      (traceLines s.log).length = 1 + 1 ∧ (traceLines s.log).getLast? = some "0202: 00EE RET" := by
  obtain ⟨htrails, hcalls⟩ := trace_records_execution halves {} default ⟨0.5, 0.0, 0⟩ 0.0
  obtain ⟨e, gs, s, tss, hplay, htrail, hended, hlength, hlast⟩ :=
    hcalls [.load [0x60, 0x05, 0x00, 0xEE], .runCycles 5] (by simp)
  have hgs : gs = [.ready, .failed (.fault (.stackUnderflow 0x202))] :=
    (congrArg (·.1.2) hplay).symm.trans (by decide +kernel)
  have hcycles : e.cycles = 1 := (congrArg (·.1.1.cycles) hplay).symm.trans (by decide +kernel)
  have hline : Notice.traceLine 0x202 0x00EE = "0202: 00EE RET" := by decide +kernel
  refine ⟨e, gs, s, tss, hplay, htrail, hgs, hcycles, (htrails _ _ _ htrail).1, ?_, ?_⟩
  · rw [hlength, hcycles, hgs]
    rfl
  · rw [hlast [.ready] _ 0x202 0x00EE hgs rfl, hline]

end Emulator

end Chip8

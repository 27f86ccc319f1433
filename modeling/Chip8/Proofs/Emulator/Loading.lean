import Mathlib
import Chip8.Emulator.Program
import Chip8.Proofs.Listing
import Chip8.Proofs.Machine.Faults
import Chip8.Proofs.Memory

/-!
# Loading

A program is loaded as a whole or not at all.  One that fits takes the place of as many cells from `$200` on, and nothing
else changes (`Machine.Loads`); so a program that was written as words is fetched word by word.  One that does not fit
changes nothing.  The same goes for the contents of a file, and a file that cannot be read changes nothing either
(`load_exact_or_nothing`).
-/

namespace Chip8

/-! ### A program in memory -/

namespace Machine

/-- What loading a program makes of a machine `m`. -/
structure Loads (m : Machine) (program : List UInt8) (m' : Machine) : Prop where
  byte : ∀ (k : Nat) (c : Addr) (b : UInt8), program[k]? = some b → c.val = 0x200 + k → m'.memory.cells.get c = b
  kept : ∀ c : Addr, c.val < 0x200 ∨ 0x200 + program.length ≤ c.val → m'.memory.cells.get c = m.memory.cells.get c
  /-- The program stands between the cells in front of it and those behind it. -/
  cells : m'.memory.cells.toList =
    m.memory.cells.toList.take 0x200 ++ program ++ m.memory.cells.toList.drop (0x200 + program.length)
  size : m'.memory.cells.toList.length = 4096
  /-- Nothing but the memory changes. -/
  rest : m' = { m with memory := m'.memory }

section Loading

variable {m m' : Machine} {program : List UInt8}

theorem load_of_not_fits (h : 3584 < program.length) (m : Machine) :
    m.load program = .error (.programSize program.length 3584) := by
  have hsize : ¬ program.length ≤ Memory.programCapacity := not_le.mpr h
  simp only [load, Memory.load?, if_neg hsize]
  rfl

theorem loads_of_fits (h : program.length ≤ 3584) (m : Machine) :
    ∃ m', m.load program = .ok m' ∧ m.Loads program m' := by
  refine ⟨_, load_of_fits h m, ?_, ?_, ?_, ?_, rfl⟩
  · intro k c b hb hc
    obtain ⟨hk, rfl⟩ := List.getElem?_eq_some_iff.mp hb
    have hcell : Memory.cell (Memory.programStart + (k : Nat)) = c := by
      rw [Memory.cell_eq_iff, hc, Memory.programStart]
      omega
    rw [← hcell]
    exact m.memory.read_writeBytes (by omega) hk
  · intro c hc
    refine m.memory.cells_writeBytes_of_forall_ne fun k hk => ?_
    rw [Ne, Memory.cell_eq_iff, Memory.programStart]
    omega
  · exact m.memory.toList_writeBytes (by rw [Memory.programStart]; omega)
  · simp

/-! ### A program of words -/

/-- The bytes of words, each high byte first. -/
def bytesOf (ws : List Word) : List UInt8 := ws.flatMap fun w => [w.high, w.low]

theorem length_bytesOf (ws : List Word) : (bytesOf ws).length = 2 * ws.length := by
  simp [bytesOf, Nat.mul_comm]

theorem getElem?_bytesOf {ws : List Word} {k : Nat} {w : Word} (h : ws[k]? = some w) :
    (bytesOf ws)[2 * k]? = some w.high ∧ (bytesOf ws)[2 * k + 1]? = some w.low := by
  induction ws generalizing k with
  | nil => simp at h
  | cons w' ws ih =>
    cases k with
    | zero =>
      obtain rfl : w' = w := Option.some.inj h
      exact ⟨rfl, rfl⟩
    | succ k => exact ih h

theorem Loads.fetch_word {ws : List Word} (h : m.Loads (bytesOf ws) m') (hws : ws.length ≤ 1792) {k : Nat} {w : Word}
    (hw : ws[k]? = some w) : { m' with pc := UInt16.ofNat (0x200 + 2 * k) }.fetch = .ok w := by
  obtain ⟨hhigh, hlow⟩ := getElem?_bytesOf hw
  have hk : k < ws.length := (List.getElem?_eq_some_iff.mp hw).1
  have hpc : (UInt16.ofNat (0x200 + 2 * k)).toNat = 0x200 + 2 * k := by
    rw [UInt16.toNat_ofNat']
    omega
  have hread : ∀ (i : Nat) b, (bytesOf ws)[i]? = some b → i < 3584 → m'.memory.read ((0x200 + i : Nat) : Int) = b := by
    intro i b hb hi
    refine h.byte i _ b hb ?_
    simp only [Memory.cell]
    omega
  refine (fetch_of_inside (m := { m' with pc := UInt16.ofNat (0x200 + 2 * k) }) ⟨?_, ?_⟩).trans ?_
  · simp only [hpc]
    omega
  · simp only [hpc]
    omega
  · refine congrArg Except.ok ?_
    simp only [word, hpc, Memory.readWord]
    rw [hread _ _ hhigh (by omega), ← Int.natCast_add_one, Nat.add_assoc, hread _ _ hlow (by omega)]
    exact w.ofBytes_high_low

end Loading

end Machine

/-! ### A program in a file -/

namespace Emulator

variable {W : Type}

/-- What an emulator `e` makes of a file, by the answer of reading it: the emulator behind that, and what it answers. -/
structure TakesFile (e : Emulator) (path : String) (answer : Except FileError (List UInt8)) (e' : Emulator)
    (out : Except ProgramError Unit) : Prop where
  loaded : ∀ program, answer = .ok program → program.length ≤ 3584 →
    out = .ok () ∧ e.machine.Loads program e'.machine ∧ e' = { e with machine := e'.machine }
  rejected : ∀ program, answer = .ok program → 3584 < program.length →
    out = .error (.rejected (.programSize program.length 3584))
  missing : answer = .error .notFound ∨ answer = .error .notDirectory → out = .error (.missing path)
  unreadable : ∀ err, answer = .error err → err ≠ .notFound → err ≠ .notDirectory → out = .error (.unreadable path err)
  unchanged : out ≠ .ok () → e' = e

section File

variable {e : Emulator} {p : Peripherals (StateM W)} {read : String → StateM W (Except FileError (List UInt8))}
  {path : String} {w w' : W}

theorem loadFile_of_error {err : FileError} (h : read (Path.plain path) w = (.error err, w')) :
    e.loadFile p read path w = ((e, .error (if err = .notFound ∨ err = .notDirectory then
      .missing (Path.plain path) else .unreadable (Path.plain path) err)), w') := by
  unfold loadFile
  simp only [bind, StateT.bind, h]
  cases err <;> rfl

theorem loadFile_of_not_fits {program : List UInt8} (h : read (Path.plain path) w = (.ok program, w'))
    (hsize : 3584 < program.length) :
    e.loadFile p read path w = ((e, .error (.rejected (.programSize program.length 3584))), w') := by
  unfold loadFile load
  simp only [bind, StateT.bind, h, Machine.load_of_not_fits hsize]
  rfl

theorem loadFile_of_fits {program : List UInt8} (h : read (Path.plain path) w = (.ok program, w'))
    (hsize : program.length ≤ 3584) :
    ∃ machine w'', e.loadFile p read path w = (({ e with machine }, .ok ()), w'') ∧ e.machine.Loads program machine := by
  obtain ⟨machine, hload, hloads⟩ := Machine.loads_of_fits hsize e.machine
  have hanswer : (e.loadFile p read path w).1 = ({ e with machine }, .ok ()) := by
    unfold loadFile load
    simp only [bind, StateT.bind, h, hload]
    rfl
  exact ⟨machine, _, Prod.ext hanswer rfl, hloads⟩

end File

/-- Whatever the file answers, an emulator takes it so. -/
theorem loadFile_takesFile (e : Emulator) (p : Peripherals (StateM W))
    (read : String → StateM W (Except FileError (List UInt8))) (path : String) (w : W) :
    ∃ e' out w', e.loadFile p read path w = ((e', out), w') ∧
      e.TakesFile (Path.plain path) (read (Path.plain path) w).1 e' out ∧
      (out ≠ .ok () → w' = (read (Path.plain path) w).2) := by
  obtain ⟨⟨answer, w'⟩, hread⟩ : ∃ r, read (Path.plain path) w = r := ⟨_, rfl⟩
  rw [hread]
  rcases answer with err | program
  · refine ⟨_, _, _, loadFile_of_error hread, ⟨nofun, nofun, ?_, ?_, fun _ => rfl⟩, fun _ => rfl⟩
    · intro hmissing
      exact congrArg _ (if_pos (hmissing.imp Except.error.inj Except.error.inj))
    · rintro _ ⟨⟩ hfound hdirectory
      exact congrArg _ (if_neg (not_or.mpr ⟨hfound, hdirectory⟩))
  · -- the contents of the file are a program like any other
    rcases Nat.lt_or_ge 3584 program.length with hsize | hsize
    · refine ⟨_, _, _, loadFile_of_not_fits hread hsize, ⟨?_, ?_, nofun, nofun, fun _ => rfl⟩, fun _ => rfl⟩
      · rintro _ ⟨⟩ hfits
        omega
      · rintro _ ⟨⟩ -
        rfl
    · obtain ⟨machine, w'', hload, hloads⟩ := loadFile_of_fits (e := e) (p := p) hread hsize
      refine ⟨_, _, _, hload, ⟨?_, ?_, nofun, nofun, fun hout => absurd rfl hout⟩, fun hout => absurd rfl hout⟩
      · rintro _ ⟨⟩ -
        exact ⟨rfl, hloads, rfl⟩
      · rintro _ ⟨⟩ hlarge
        omega

/-- **A program is loaded as a whole or not at all**, at every machine.  One of more than 3584 bytes is refused.  Any
other stands in memory from `$200` on, and all else is as it was; and if it was made from words, each word is fetched at
its place, up to the last one.  An emulator does the same with the contents of a file, and stays as it is if it does not
load them. -/
theorem load_exact_or_nothing :
    (∀ (m : Machine) (program : List UInt8),
      (3584 < program.length → m.load program = .error (.programSize program.length 3584)) ∧
      (program.length ≤ 3584 → ∃ m', m.load program = .ok m' ∧ m.Loads program m')) ∧
    (∀ (m : Machine) (ws : List Word), ws.length ≤ 1792 → ∃ m', m.load (Machine.bytesOf ws) = .ok m' ∧
      ∀ (k : Nat) (w : Word), ws[k]? = some w → { m' with pc := UInt16.ofNat (0x200 + 2 * k) }.fetch = .ok w) ∧
    ∀ (e : Emulator) (p : Peripherals (StateM W)) (read : String → StateM W (Except FileError (List UInt8)))
      (path : String) (w : W), ∃ e' out w', e.loadFile p read path w = ((e', out), w') ∧
        e.TakesFile (Path.plain path) (read (Path.plain path) w).1 e' out ∧
        (out ≠ .ok () → w' = (read (Path.plain path) w).2) := by
  refine ⟨fun m program => ⟨fun h => Machine.load_of_not_fits h m, fun h => Machine.loads_of_fits h m⟩, ?_, ?_⟩
  · intro m ws hws
    have hsize : (Machine.bytesOf ws).length ≤ 3584 := by
      rw [Machine.length_bytesOf]
      omega
    obtain ⟨m', hload, hloads⟩ := Machine.loads_of_fits hsize m
    exact ⟨m', hload, fun k w hw => hloads.fetch_word hws hw⟩
  · exact loadFile_takesFile

/-- Peripherals that do nothing, in a world that is what a file answers when it is read. -/
def oneFile : Peripherals (StateM (Except FileError (List UInt8))) where
  poll := pure 0
  keys := pure none
  now := pure 0.0
  perform _ := pure ()

def unloaded : Emulator := { config := {}, machine := .powerOn default, scheduler := ⟨0.5, 0.0, 0⟩ }

/-- A program that is one byte too long; two words, of which the second is fetched; a file of two bytes, and none. -/
theorem load_exact_or_nothing_small :
    (3584 < (List.replicate 3585 (0 : UInt8)).length ∧
      (Machine.powerOn default).load (List.replicate 3585 0) = .error (.programSize 3585 3584)) ∧
    (∃ m', (Machine.powerOn default).load (Machine.bytesOf [0x6005, 0x1202]) = .ok m' ∧
      { m' with pc := 0x202 }.fetch = .ok 0x1202) ∧
    (∃ e' w', unloaded.loadFile oneFile (fun _ => get) "pong" (.ok [0x12, 0x00]) = ((e', .ok ()), w') ∧
      e'.machine.memory.cells.get 0x200 = 0x12) ∧
    unloaded.loadFile oneFile (fun _ => get) "pong" (.error .notFound) =
      ((unloaded, .error (.missing (Path.plain "pong"))), .error .notFound) := by
  obtain ⟨hprogram, hwords, hfile⟩ := load_exact_or_nothing (W := Except FileError (List UInt8))
  have hlong : (List.replicate 3585 (0 : UInt8)).length = 3585 := List.length_replicate
  refine ⟨⟨by omega, ?_⟩, ?_, ?_, ?_⟩
  · rw [(hprogram _ _).1 (by omega), hlong]
    rfl
  · obtain ⟨m', hload, hfetch⟩ := hwords (.powerOn default) [0x6005, 0x1202] (by decide)
    exact ⟨m', hload, hfetch 1 0x1202 rfl⟩
  · obtain ⟨e', out, w', hload, htakes, -⟩ := hfile unloaded oneFile (fun _ => get) "pong" (.ok [0x12, 0x00])
    obtain ⟨rfl, hloads, -⟩ := htakes.loaded _ rfl (by decide)
    exact ⟨e', w', hload, hloads.byte 0 0x200 0x12 rfl rfl⟩
  · obtain ⟨e', out, w', hload, htakes, hworld⟩ := hfile unloaded oneFile (fun _ => get) "pong" (.error .notFound)
    obtain rfl := htakes.missing (.inl rfl)
    rw [hload, htakes.unchanged nofun, hworld nofun]
    rfl

end Emulator

end Chip8

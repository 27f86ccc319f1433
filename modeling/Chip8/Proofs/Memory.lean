import Mathlib
import Chip8.Memory

/-!
# Cells

What is read from memory is what its cells hold, and a block of bytes that is written goes to the cells that its
addresses select, each taken round the end of memory.  A block that is longer than the memory goes over itself.  So a cell
holds the last byte that went there, and if none did, what it held before (`cells_writeBytes`).  A block that is no longer
than the memory does not meet itself, and can be read back (`read_writeBytes`).  What this means for numbers of any size,
at addresses of any size, is `blocks_go_round`.
-/

namespace Chip8.Memory

variable (m : Memory)

theorem cell_eq_iff {address : Int} {c : Addr} : cell address = c ↔ address % 4096 = c.val := by
  rw [Fin.ext_iff]
  simp only [cell]
  omega

theorem cell_add_period (address k : Int) : cell (address + 4096 * k) = cell address := by
  rw [cell_eq_iff, Int.add_mul_emod_self_left]
  exact cell_eq_iff.mp rfl

/-! ### Reading -/

theorem read_eq_get (address : Int) : m.read address = m.cells.get (cell address) := rfl

theorem read_natCast (address : Nat) : m.read address = m.cells[address % 4096] := by
  have hcell : (cell address).val = address % 4096 := by
    simp only [cell]
    omega
  simp only [read, hcell]

theorem readBytes_natCast (address count : Nat) :
    m.readBytes address count = (List.range count).map fun k => m.cells[(address + k) % 4096] := by
  unfold readBytes
  rw [Int.toNat_natCast]
  refine List.map_congr_left fun k _ => ?_
  rw [← Int.natCast_add, read_natCast]

@[simp] theorem length_readBytes (address count : Int) : (m.readBytes address count).length = count.toNat := by
  simp [readBytes]

theorem getElem?_readBytes {address count : Int} {k : Nat} (hk : k < count) :
    (m.readBytes address count)[k]? = some (m.read (address + k)) := by
  have hlt : k < count.toNat := by omega
  simp [readBytes, hlt]

theorem readBytes_add_period (address count k : Int) :
    m.readBytes (address + 4096 * k) count = m.readBytes address count := by
  refine List.map_congr_left fun i _ => ?_
  rw [read_eq_get, add_right_comm, cell_add_period, ← read_eq_get]

/-! ### Writing -/

theorem cells_write (address : Int) (b : UInt8) (c : Addr) :
    (m.write address b).cells.get c = if cell address = c then b else m.cells.get c := by
  simp only [write, Vector.get_eq_getElem]
  rw [Vector.getElem_set]
  exact if_congr Fin.ext_iff.symm rfl rfl

theorem writeBytes_concat (address : Int) (bs : List UInt8) (b : UInt8) :
    m.writeBytes address (bs ++ [b]) = (m.writeBytes address bs).write (address + bs.length) b := by
  induction bs generalizing m address with
  | nil => simp [writeBytes]
  | cons b' bs ih =>
    rw [List.cons_append, writeBytes, writeBytes, ih, List.length_cons]
    rw [show address + 1 + (bs.length : Int) = address + ((bs.length + 1 : Nat) : Int) by omega]

theorem writeBytes_add_period (address k : Int) (bs : List UInt8) :
    m.writeBytes (address + 4096 * k) bs = m.writeBytes address bs := by
  induction bs generalizing m address with
  | nil => rfl
  | cons b bs ih =>
    have hfirst : m.write (address + 4096 * k) b = m.write address b := by
      simp only [write, cell_add_period]
    rw [writeBytes, writeBytes, hfirst, add_right_comm, ih]

/-- The indices of those bytes of a block that go to a cell. -/
def indicesAt (address : Int) (length : Nat) (c : Addr) : Set Nat :=
  {j | j < length ∧ (address + j) % 4096 = c.val}

section Indices

variable {address : Int} {length : Nat} {c : Addr}

theorem isGreatest_indicesAt (h : cell (address + length) = c) : IsGreatest (indicesAt address (length + 1) c) length :=
  ⟨⟨Nat.lt_succ_self length, cell_eq_iff.mp h⟩, fun _ hj => Nat.le_of_lt_succ hj.1⟩

theorem indicesAt_succ (h : cell (address + length) ≠ c) : indicesAt address (length + 1) c = indicesAt address length c := by
  rw [Ne, cell_eq_iff] at h
  ext j
  refine and_congr_left fun hj => Nat.lt_succ_iff_lt_or_eq.trans (or_iff_left ?_)
  rintro rfl
  exact h hj

/-- A block that is no longer than the memory comes to each cell once at most. -/
theorem eq_of_mem_indicesAt {i j : Nat} (hlength : length ≤ 4096) (hi : i ∈ indicesAt address length c)
    (hj : j ∈ indicesAt address length c) : i = j := by
  obtain ⟨hi, hic⟩ := hi
  obtain ⟨hj, hjc⟩ := hj
  omega

end Indices

/-- **The last byte wins.**  The induction adds a byte at the end of the block: if it goes to the cell its index is the
greatest that does, and else all is as it was without it. -/
theorem cells_writeBytes (address : Int) (bs : List UInt8) (c : Addr) :
    (∃ j b, IsGreatest (indicesAt address bs.length c) j ∧ bs[j]? = some b ∧
      (m.writeBytes address bs).cells.get c = b) ∨
    indicesAt address bs.length c = ∅ ∧ (m.writeBytes address bs).cells.get c = m.cells.get c := by
  induction bs using List.reverseRecOn with
  | nil =>
    right
    exact ⟨Set.eq_empty_of_forall_notMem fun j hj => absurd hj.1 (Nat.not_lt_zero j), rfl⟩
  | append_singleton bs b ih =>
    rw [List.length_append, List.length_singleton, writeBytes_concat, cells_write]
    by_cases hcell : cell (address + bs.length) = c
    · left
      exact ⟨bs.length, b, isGreatest_indicesAt hcell, by simp, if_pos hcell⟩
    · rw [indicesAt_succ hcell, if_neg hcell]
      rcases ih with ⟨j, b', hj, hget, hlast⟩ | hkept
      · left
        exact ⟨j, b', hj, (List.getElem?_append_left hj.1.1).trans hget, hlast⟩
      · exact .inr hkept

theorem cells_writeBytes_of_forall_ne {address : Int} {bs : List UInt8} {c : Addr}
    (h : ∀ k < bs.length, cell (address + (k : Nat)) ≠ c) :
    (m.writeBytes address bs).cells.get c = m.cells.get c := by
  rcases m.cells_writeBytes address bs c with ⟨j, b, hj, -, -⟩ | ⟨-, hkept⟩
  · exact absurd (cell_eq_iff.mpr hj.1.2) (h j hj.1.1)
  · exact hkept

theorem read_writeBytes {address : Int} {bs : List UInt8} (h : bs.length ≤ 4096) {k : Nat} (hk : k < bs.length) :
    (m.writeBytes address bs).read (address + k) = bs[k] := by
  have hmem : k ∈ indicesAt address bs.length (cell (address + k)) := ⟨hk, cell_eq_iff.mp rfl⟩
  rcases m.cells_writeBytes address bs (cell (address + k)) with ⟨j, b, hj, hget, hlast⟩ | ⟨hnone, -⟩
  · obtain rfl := eq_of_mem_indicesAt h hmem hj.1
    rw [List.getElem?_eq_getElem hk] at hget
    exact hlast.trans (Option.some.inj hget).symm
  · exact absurd hmem (hnone ▸ Set.notMem_empty k)

theorem readBytes_writeBytes {address : Int} {bs : List UInt8} (h : bs.length ≤ 4096) :
    (m.writeBytes address bs).readBytes address bs.length = bs := by
  refine List.ext_getElem? fun k => ?_
  rcases Nat.lt_or_ge k bs.length with hk | hk
  · rw [getElem?_readBytes _ (by omega), read_writeBytes m h hk, List.getElem?_eq_getElem hk]
  · rw [List.getElem?_eq_none (by simpa using hk), List.getElem?_eq_none hk]

theorem toList_write {address : Nat} (h : address < 4096) (b : UInt8) :
    (m.write address b).cells.toList = m.cells.toList.set address b := by
  have hcell : (cell address).val = address := by
    simp only [cell]
    omega
  simp only [write, hcell, Vector.toList_set]

/-- A block that does not go round takes the place of as many cells. -/
theorem toList_writeBytes {address : Nat} {bs : List UInt8} (h : address + bs.length ≤ 4096) :
    (m.writeBytes address bs).cells.toList =
      m.cells.toList.take address ++ bs ++ m.cells.toList.drop (address + bs.length) := by
  induction bs generalizing m address with
  | nil => simp [writeBytes]
  | cons b bs ih =>
    rw [List.length_cons] at h
    have hlength : (m.cells.toList.take address).length = address := by simp; omega
    rw [writeBytes, ← Int.natCast_add_one, ih _ (by omega), toList_write m (by omega), List.set_eq_take_append_cons_drop,
      if_pos (by simp; omega)]
    generalize m.cells.toList.take address = before at hlength
    subst hlength
    rw [List.take_length_add_append, add_assoc before.length, List.drop_length_add_append, Nat.add_comm 1]
    simp [List.drop_drop, Nat.add_comm, Nat.add_left_comm]

/-! ### Numbers -/

theorem toNat_ofInt (x : Int) : ((UInt8.ofInt x).toNat : Int) = x % 256 := by
  have hnonneg := Int.emod_nonneg x (b := 256) (by decide)
  simp only [UInt8.ofInt, UInt8.toNat_ofNat']
  omega

/-- **Blocks of numbers go round the end of memory.**  After numbers have been put at consecutive addresses, a cell holds
the last one that went there, taken modulo 256, and if none did, what it held before.  A block that is read has as many
bytes as asked for, from those cells.  So what was put there can be read, if it is no longer than the memory; and
addresses that differ by a multiple of the size of the memory are the same in all this. -/
theorem blocks_go_round (m : Memory) (address : Int) (values : List Int) :
    (∀ c : Addr,
      (∃ j x, IsGreatest (indicesAt address values.length c) j ∧ values[j]? = some x ∧
        (((m.writeValues address values).cells.get c).toNat : Int) = x % 256) ∨
      indicesAt address values.length c = ∅ ∧ (m.writeValues address values).cells.get c = m.cells.get c) ∧
    (∀ count : Int, ((m.readBytes address count).length : Int) = max count 0 ∧
      ∀ (k : Nat) (c : Addr), k < count → (address + k) % 4096 = c.val →
        (m.readBytes address count)[k]? = some (m.cells.get c)) ∧
    (values.length ≤ 4096 →
      ((m.writeValues address values).readBytes address values.length).map (fun b => (b.toNat : Int)) =
        values.map (· % 256)) ∧
    ∀ k : Int, m.writeValues (address + 4096 * k) values = m.writeValues address values ∧
      ∀ count, m.readBytes (address + 4096 * k) count = m.readBytes address count := by
  refine ⟨fun c => ?_, fun count => ⟨?_, ?_⟩, fun hlength => ?_, fun k => ⟨?_, ?_⟩⟩
  · have hlast := m.cells_writeBytes address (values.map UInt8.ofInt) c
    rw [List.length_map] at hlast
    rcases hlast with ⟨j, b, hj, hget, hcell⟩ | hkept
    · rw [List.getElem?_map, Option.map_eq_some_iff] at hget
      obtain ⟨x, hx, rfl⟩ := hget
      exact .inl ⟨j, x, hj, hx, by rw [writeValues, hcell, toNat_ofInt]⟩
    · exact .inr hkept
  · rw [length_readBytes]
    omega
  · intro k c hk hc
    rw [getElem?_readBytes m hk, read_eq_get, cell_eq_iff.mpr hc]
  · have hback : (m.writeValues address values).readBytes address (values.map UInt8.ofInt).length =
        values.map UInt8.ofInt := m.readBytes_writeBytes (by simpa using hlength)
    rw [List.length_map] at hback
    rw [hback, List.map_map]
    exact List.map_congr_left fun x _ => toNat_ofInt x
  · exact m.writeBytes_add_period address k _
  · exact fun count => m.readBytes_add_period address count k

/-- Three numbers at `-1` go to the last cell and on to the first two. -/
theorem blocks_go_round_wrapping :
    [300, -1, 7].length ≤ 4096 ∧ (-1 + (2 : Nat) : Int) % 4096 = (1 : Addr).val ∧
      ((powerOn.writeValues (-1) [300, -1, 7]).readBytes (-1) 3).map (fun b => (b.toNat : Int)) = [44, 255, 7] ∧
      (powerOn.readBytes (-1) 3)[2]? = some (powerOn.cells.get 1) := by
  obtain ⟨-, hread, hback, -⟩ := blocks_go_round powerOn (-1) [300, -1, 7]
  have hlength : [300, -1, 7].length ≤ 4096 := by decide
  have hcell : (-1 + (2 : Nat) : Int) % 4096 = (1 : Addr).val := by decide
  exact ⟨hlength, hcell, hback hlength, (hread 3).2 2 1 (by decide) hcell⟩

end Chip8.Memory

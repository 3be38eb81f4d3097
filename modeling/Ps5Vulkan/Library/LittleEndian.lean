import Mathlib.Tactic.Ring
import Ps5Vulkan.Library.BitFields

/-!
# Little-endian numbers in byte memory

A number of some bytes is read from memory lowest byte first and written the same way. Reading back
what was written gives the number, writing elsewhere changes nothing, and a bit field of a longer
number that lies within some of its bytes is read from those.
-/

namespace LittleEndian

/-- Memory of bytes. -/
abbrev Bytes := Nat → BitVec 8

/-- The number of some bytes from an offset on. -/
def read (bytes : Bytes) (offset : Nat) : Nat → Nat
  | 0 => 0
  | n + 1 => read bytes offset n ||| (bytes (offset + n)).toNat <<< (8 * n)

/-- The bytes of a number put at an offset. -/
def write (bytes : Bytes) (offset n value : Nat) : Bytes := fun i =>
  if offset ≤ i ∧ i < offset + n then BitVec.ofNat 8 (value >>> (8 * (i - offset))) else bytes i

variable {bytes : Bytes} {offset n m value : Nat}

theorem read_lt (bytes : Bytes) (offset n : Nat) : read bytes offset n < 2 ^ (8 * n) := by
  induction n with
  | zero => exact Nat.one_pos
  | succ n ih =>
    apply Nat.or_lt_two_pow
    · exact ih.trans (Nat.pow_lt_pow_right (by decide) (by omega))
    · calc (bytes (offset + n)).toNat <<< (8 * n)
          = (bytes (offset + n)).toNat * 2 ^ (8 * n) := Nat.shiftLeft_eq ..
        _ < 2 ^ 8 * 2 ^ (8 * n) :=
            Nat.mul_lt_mul_of_pos_right (bytes (offset + n)).isLt (Nat.two_pow_pos _)
        _ = 2 ^ (8 * (n + 1)) := by rw [← Nat.pow_add]; congr 1; omega

theorem read_succ (bytes : Bytes) (offset n : Nat) :
    read bytes offset (n + 1) = read bytes offset n + 2 ^ (8 * n) * (bytes (offset + n)).toNat := by
  rw [read, Nat.or_comm, ← Nat.shiftLeft_add_eq_or_of_lt (read_lt bytes offset n), Nat.shiftLeft_eq]
  ring

/-- A number is its low bytes and its high ones. -/
theorem read_add (bytes : Bytes) (offset n m : Nat) :
    read bytes offset (n + m) = read bytes offset n + 2 ^ (8 * n) * read bytes (offset + n) m := by
  induction m with
  | zero => simp [read]
  | succ m ih =>
    rw [← Nat.add_assoc, read_succ, ih, read_succ, Nat.add_assoc offset n m,
      show 8 * (n + m) = 8 * n + 8 * m by ring, Nat.pow_add]
    ring

theorem read_one (bytes : Bytes) (offset : Nat) : read bytes offset 1 = (bytes offset).toNat := by
  rw [read_succ, read]
  simp

/-- Only the bytes read matter. -/
theorem read_congr {bytes' : Bytes} (h : ∀ i < n, bytes (offset + i) = bytes' (offset + i)) :
    read bytes offset n = read bytes' offset n := by
  induction n with
  | zero => rfl
  | succ n ih => rw [read, read, ih fun i hi => h i (by omega), h n (by omega)]

theorem write_of_lt {i : Nat} (h : i < n) :
    write bytes offset n value (offset + i) = BitVec.ofNat 8 (value >>> (8 * i)) := by
  rw [write, if_pos (by omega), Nat.add_sub_cancel_left]

theorem write_of_not_mem {i : Nat} (h : ¬ (offset ≤ i ∧ i < offset + n)) :
    write bytes offset n value i = bytes i := if_neg h

/-- What was written is read back, as much of it as there was room for. -/
theorem read_write (hm : m ≤ n) : read (write bytes offset n value) offset m = value % 2 ^ (8 * m) := by
  induction m with
  | zero => simp [read, Nat.mod_one]
  | succ m ih =>
    rw [read_succ, ih (by omega), write_of_lt (by omega), BitVec.toNat_ofNat, Nat.shiftRight_eq_div_pow,
      show 8 * (m + 1) = 8 * m + 8 by ring, Nat.pow_add, Nat.mod_mul]

/-- Elsewhere everything is as before. -/
theorem read_write_of_disjoint {offset' : Nat} (h : offset' + m ≤ offset ∨ offset + n ≤ offset') :
    read (write bytes offset n value) offset' m = read bytes offset' m :=
  read_congr fun i hi => write_of_not_mem (by omega)

/-- Numbers of one size written one after another, each at its index. -/
def writeEach {ι : Type*} (index : ι → Nat) (n : Nat) (value : ι → Nat) (items : List ι) (bytes : Bytes) :
    Bytes :=
  items.foldl (fun bytes i => write bytes (index i * n) n (value i)) bytes

variable {ι : Type*} {index : ι → Nat} {value' : ι → Nat} {items : List ι} {i : ι}

theorem read_writeEach_of_not_mem (hindex : index.Injective) (hi : i ∉ items) (bytes : Bytes) :
    read (writeEach index n value' items bytes) (index i * n) n = read bytes (index i * n) n := by
  induction items generalizing bytes with
  | nil => rfl
  | cons item items ih =>
    obtain ⟨hne, hrest⟩ := not_or.mp (List.mem_cons.not.mp hi)
    refine (ih hrest _).trans (read_write_of_disjoint ?_)
    rcases Nat.lt_or_gt_of_ne (hindex.ne hne) with hlt | hgt
    · exact .inl (by rw [← Nat.succ_mul]; exact Nat.mul_le_mul_right n hlt)
    · exact .inr (by rw [← Nat.succ_mul]; exact Nat.mul_le_mul_right n hgt)

/-- Each of them is read back. -/
theorem read_writeEach (hindex : index.Injective) (hnodup : items.Nodup) (hi : i ∈ items) (bytes : Bytes) :
    read (writeEach index n value' items bytes) (index i * n) n = value' i % 2 ^ (8 * n) := by
  induction items generalizing bytes with
  | nil => cases hi
  | cons item items ih =>
    obtain ⟨hitem, hrest⟩ := List.nodup_cons.mp hnodup
    rcases List.mem_cons.mp hi with rfl | hmem
    · exact (read_writeEach_of_not_mem hindex hitem _).trans (read_write le_rfl)
    · exact ih hrest hmem _

/-- Bytes within a longer number are one of its fields. -/
theorem get_read (h : offset + n ≤ m) :
    BitFields.Field.get ⟨8 * offset, 8 * n⟩ (read bytes 0 m) = read bytes offset n := by
  obtain ⟨k, rfl⟩ := Nat.exists_eq_add_of_le h
  rw [BitFields.Field.get, Nat.shiftRight_eq_div_pow, Nat.add_assoc, read_add,
    Nat.add_mul_div_left _ _ (Nat.two_pow_pos _), Nat.div_eq_of_lt (read_lt bytes 0 offset), Nat.zero_add,
    read_add, Nat.zero_add, Nat.add_mul_mod_self_left, Nat.mod_eq_of_lt (read_lt bytes offset n)]

/-- A field within the low bytes is read from them. -/
theorem get_read_of_le {f : BitFields.Field} (hf : f.low + f.width ≤ 8 * n) (h : n ≤ m) :
    f.get (read bytes 0 m) = f.get (read bytes 0 n) := by
  obtain ⟨k, rfl⟩ := Nat.exists_eq_add_of_le h
  obtain ⟨j, hj⟩ := Nat.exists_eq_add_of_le (show f.low + f.width ≤ 8 * n from hf)
  rw [BitFields.Field.get, BitFields.Field.get, Nat.shiftRight_eq_div_pow, Nat.shiftRight_eq_div_pow,
    read_add, hj, Nat.pow_add, Nat.pow_add, Nat.mul_assoc, Nat.mul_assoc,
    Nat.add_mul_div_left _ _ (Nat.two_pow_pos _), Nat.add_mul_mod_self_left]

end LittleEndian

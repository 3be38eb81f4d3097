import Mathlib.Data.Nat.Bitwise

/-!
# Bit fields of a word

A field is a run of bits. A word is packed from values at fields, and reading a field of it gives
the value back, provided the values fit and the fields do not meet.
-/

namespace BitFields

/-- A run of bits from a lowest one on. -/
structure Field where
  low : Nat
  width : Nat
  deriving DecidableEq, Repr

namespace Field

variable {f g : Field} {a b v : Nat}

/-- The number a word has at a field. -/
def get (f : Field) (word : Nat) : Nat := (word >>> f.low) % 2 ^ f.width

/-- The two fields have no bit in common. -/
def Apart (f g : Field) : Prop := f.low + f.width ≤ g.low ∨ g.low + g.width ≤ f.low

instance : Decidable (Apart f g) := inferInstanceAs (Decidable (_ ∨ _))

theorem Apart.symm (h : Apart f g) : Apart g f := Or.symm h

theorem get_or (f : Field) (a b : Nat) : f.get (a ||| b) = f.get a ||| f.get b := by
  rw [get, Nat.shiftRight_or_distrib, Nat.or_mod_two_pow]
  rfl

@[simp] theorem get_zero (f : Field) : f.get 0 = 0 := by
  simp [get]

/-- A value that fits is read back from where it was put. -/
theorem get_shiftLeft_self (hv : v < 2 ^ f.width) : f.get (v <<< f.low) = v := by
  rw [get, Nat.shiftLeft_shiftRight, Nat.mod_eq_of_lt hv]

/-- And leaves the fields apart from it alone. -/
theorem get_shiftLeft_of_apart (hv : v < 2 ^ g.width) (h : Apart f g) : f.get (v <<< g.low) = 0 := by
  apply Nat.eq_of_testBit_eq
  intro i
  rw [get, Nat.testBit_mod_two_pow, Nat.testBit_shiftRight, Nat.testBit_shiftLeft, Nat.zero_testBit]
  by_cases hi : i < f.width
  · rcases h with hbelow | habove
    · have hlow : ¬ f.low + i ≥ g.low := by omega
      simp [hlow]
    · have hhigh : v.testBit (f.low + i - g.low) = false :=
        Nat.testBit_lt_two_pow (hv.trans_le (Nat.pow_le_pow_right Nat.two_pos (by omega)))
      simp [hhigh]
  · simp [hi]

end Field

/-- The word of some values, each at its field. -/
def pack : List (Field × Nat) → Nat
  | [] => 0
  | (f, v) :: rest => v <<< f.low ||| pack rest

/-- The values fit their fields, which are apart. -/
structure Packable (fields : List (Field × Nat)) : Prop where
  fits : ∀ p ∈ fields, p.2 < 2 ^ p.1.width
  apart : fields.Pairwise fun p q => p.1.Apart q.1

variable {fields rest : List (Field × Nat)} {f : Field} {v bits : Nat}

theorem Packable.tail {p : Field × Nat} (h : Packable (p :: rest)) : Packable rest :=
  ⟨fun q hq => h.fits q (List.mem_cons_of_mem _ hq), (List.pairwise_cons.mp h.apart).2⟩

/-- A field apart from all that were packed reads as zero. -/
theorem get_pack_of_apart (hfits : ∀ p ∈ fields, p.2 < 2 ^ p.1.width)
    (hapart : ∀ p ∈ fields, f.Apart p.1) : f.get (pack fields) = 0 := by
  induction fields with
  | nil => exact Field.get_zero f
  | cons p rest ih =>
    rw [pack, Field.get_or, Field.get_shiftLeft_of_apart (hfits p List.mem_cons_self) (hapart p List.mem_cons_self),
      ih (fun q hq => hfits q (List.mem_cons_of_mem _ hq))
        (fun q hq => hapart q (List.mem_cons_of_mem _ hq))]
    rfl

/-- Each packed value is read back. -/
theorem Packable.get_pack (h : Packable fields) (hmem : (f, v) ∈ fields) : f.get (pack fields) = v := by
  induction fields with
  | nil => cases hmem
  | cons p rest ih =>
    obtain ⟨hapart, -⟩ := List.pairwise_cons.mp h.apart
    rw [pack, Field.get_or]
    rcases List.mem_cons.mp hmem with rfl | hrest
    · rw [Field.get_shiftLeft_self (h.fits (f, v) List.mem_cons_self),
        get_pack_of_apart h.tail.fits hapart, Nat.or_zero]
    · rw [Field.get_shiftLeft_of_apart (h.fits p List.mem_cons_self) (hapart _ hrest).symm,
        ih h.tail hrest, Nat.zero_or]

/-- Fields of a word of some bits pack into as many. -/
theorem Packable.pack_lt (h : Packable fields) (hbits : ∀ p ∈ fields, p.1.low + p.1.width ≤ bits) :
    pack fields < 2 ^ bits := by
  induction fields with
  | nil => exact Nat.two_pow_pos bits
  | cons p rest ih =>
    apply Nat.or_lt_two_pow
    · calc p.2 <<< p.1.low
          = p.2 * 2 ^ p.1.low := Nat.shiftLeft_eq ..
        _ < 2 ^ p.1.width * 2 ^ p.1.low :=
            Nat.mul_lt_mul_of_pos_right (h.fits p List.mem_cons_self) (Nat.two_pow_pos _)
        _ = 2 ^ (p.1.low + p.1.width) := by rw [← Nat.pow_add, Nat.add_comm]
        _ ≤ 2 ^ bits := Nat.pow_le_pow_right Nat.two_pos (hbits p List.mem_cons_self)
    · exact ih h.tail fun q hq => hbits q (List.mem_cons_of_mem _ hq)

end BitFields

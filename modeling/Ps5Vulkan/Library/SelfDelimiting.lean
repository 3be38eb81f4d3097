import Mathlib.Data.List.Basic

/-!
# Self-delimiting codes

A code is self-delimiting if it can be told from whatever follows it. So are words that end in a letter they do not
contain, and of a list of such codes it is enough to know how many there are.
-/

namespace SelfDelimiting

variable {α β : Type*} {code : α → List β} {s t : List β}

/-- What is encoded, and what follows it, are determined. -/
def Delimits (code : α → List β) : Prop :=
  ∀ ⦃a b : α⦄ ⦃s t : List β⦄, code a ++ s = code b ++ t → a = b ∧ s = t

theorem terminated_inj {stop : β} {word word' : List β} (hword : stop ∉ word) (hword' : stop ∉ word')
    (h : word ++ stop :: s = word' ++ stop :: t) : word = word' ∧ s = t := by
  induction word generalizing word' with
  | nil =>
    cases word' with
    | nil => exact ⟨rfl, (List.cons.inj h).2⟩
    | cons first rest => exact absurd ((List.cons.inj h).1 ▸ List.mem_cons_self) hword'
  | cons first rest ih =>
    cases word' with
    | nil => exact absurd ((List.cons.inj h).1 ▸ List.mem_cons_self) hword
    | cons first' rest' =>
      obtain ⟨rfl, htail⟩ := List.cons.inj h
      obtain ⟨rfl, hrest⟩ := ih (List.not_mem_of_not_mem_cons hword) (List.not_mem_of_not_mem_cons hword') htail
      exact ⟨rfl, hrest⟩

theorem flatMap_inj (hcode : Delimits code) {items items' : List α} (hlength : items.length = items'.length)
    (h : items.flatMap code ++ s = items'.flatMap code ++ t) : items = items' ∧ s = t := by
  induction items generalizing items' with
  | nil =>
    obtain rfl := List.length_eq_zero_iff.mp hlength.symm
    exact ⟨rfl, h⟩
  | cons item items ih =>
    cases items' with
    | nil => cases hlength
    | cons item' items' =>
      rw [List.flatMap_cons, List.flatMap_cons, List.append_assoc, List.append_assoc] at h
      obtain ⟨rfl, hitems⟩ := hcode h
      obtain ⟨rfl, hrest⟩ := ih (Nat.succ.inj hlength) hitems
      exact ⟨rfl, hrest⟩

end SelfDelimiting

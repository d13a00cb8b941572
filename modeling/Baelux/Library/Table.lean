import Mathlib.Data.List.OfFn
import Mathlib.Logic.Function.Basic

/-! C arrays of any element type, with the bounds of each access checked, and the linear
search in them. -/

namespace Baelux

abbrev Table (α : Type) (size : Nat) := Fin size → α

namespace Table

variable {α : Type} {size : Nat} {table target : Table α size} {index : Nat} {value : α}

def load (table : Table α size) (index : Nat) : Option α :=
  if inside : index < size then some (table ⟨index, inside⟩) else none

def store (table : Table α size) (index : Nat) (value : α) : Option (Table α size) :=
  if inside : index < size then some (Function.update table ⟨index, inside⟩ value) else none

theorem load_of_lt (inside : index < size) : table.load index = some (table ⟨index, inside⟩) :=
  dif_pos inside

theorem store_none (outside : size ≤ index) : table.store index value = none :=
  dif_neg (Nat.not_lt.mpr outside)

theorem store_of_lt (table : Table α size) (inside : index < size) (value : α) :
    ∃ target, table.store index value = some target :=
  ⟨_, dif_pos inside⟩

theorem stored_eq (stored : table.store index value = some target) (inside : index < size) :
    target ⟨index, inside⟩ = value := by
  rw [store, dif_pos inside] at stored
  cases stored
  exact Function.update_self ..

theorem stored_other (stored : table.store index value = some target) {i : Fin size}
    (other : i.val ≠ index) : target i = table i := by
  unfold store at stored
  split at stored
  · cases stored
    exact Function.update_of_ne (fun same => other (congrArg Fin.val same)) _ _
  · cases stored

theorem load_stored (stored : table.store index value = some target) :
    target.load index = some value := by
  by_cases inside : index < size
  · rw [load_of_lt inside, stored_eq stored inside]
  · rw [store_none (Nat.not_lt.mp inside)] at stored
    cases stored

theorem load_stored_other (stored : table.store index value = some target) {i : Nat}
    (other : i ≠ index) : target.load i = table.load i := by
  by_cases inside : i < size
  · rw [load_of_lt inside, load_of_lt inside, stored_other stored other]
  · rw [load, load, dif_neg inside, dif_neg inside]

theorem lt_of_load (present : table.load index = some value) : index < size := by
  by_contra outside
  rw [load, dif_neg outside] at present
  cases present

/-- `for (i = index; i < index + remaining; i++) if (found(table[i])) return i;`. -/
def search (table : Table α size) (found : α → Bool) : Nat → Nat → Option (Option Nat)
  | 0, _ => some none
  | remaining + 1, index => do
      let value ← table.load index
      if found value then some (some index) else table.search found remaining (index + 1)

variable {found : α → Bool} {remaining : Nat}

theorem search_cases (table : Table α size) (found : α → Bool) (inside : index + remaining ≤ size) :
    (∃ i value, table.search found remaining index = some (some i) ∧ index ≤ i ∧
      i < index + remaining ∧ table.load i = some value ∧ found value = true) ∨
    (table.search found remaining index = some none ∧
      ∀ i value, index ≤ i → i < index + remaining → table.load i = some value →
        found value = false) := by
  induction remaining generalizing index with
  | zero => exact Or.inr ⟨rfl, fun i value low high => by omega⟩
  | succ remaining ih =>
    have here : table.load index = some (table ⟨index, by omega⟩) := load_of_lt (by omega)
    rw [search, here, Option.bind_eq_bind, Option.bind_some]
    cases hit : found (table ⟨index, by omega⟩) with
    | true => exact Or.inl ⟨index, _, rfl, Nat.le_refl _, by omega, here, hit⟩
    | false =>
      rw [if_neg Bool.false_ne_true]
      rcases @ih (index + 1) (by omega) with ⟨i, value, finds, low, high, there, hit⟩ |
        ⟨ends, missed⟩
      · exact Or.inl ⟨i, value, finds, by omega, by omega, there, hit⟩
      · refine Or.inr ⟨ends, fun i value low high there => ?_⟩
        by_cases first : i = index
        · subst first
          rw [here] at there
          cases there
          exact hit
        · exact missed i value (by omega) (by omega) there

end Table

end Baelux

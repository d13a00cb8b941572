import Baelux.Library.Table
import Mathlib.Data.List.Nodup

/-! A table whose entries are handed out in order, and the record of what was handed out. -/

namespace Baelux.Ledger

variable {α ρ : Type} {size : Nat}

/-- The records are those of the entries below `next`, and each entry still shows its record. -/
structure Keeps (view : α → ρ) (table : Table α size) (next : Nat) (records : List (Nat × ρ)) :
    Prop where
  ids : records.map Prod.fst = List.range next
  room : next ≤ size
  kept : ∀ record ∈ records, ∃ value, table.load record.1 = some value ∧ view value = record.2

variable {view : α → ρ} {table target : Table α size} {next index : Nat} {value old : α}
variable {records : List (Nat × ρ)}

theorem keeps_nil (view : α → ρ) (table : Table α size) : Keeps view table 0 [] := by
  constructor
  · rfl
  · exact Nat.zero_le _
  · intro record member
    cases member

theorem Keeps.mem_ids (keeps : Keeps view table next records) :
    index ∈ records.map Prod.fst ↔ index < next := by
  rw [keeps.ids, List.mem_range]

theorem Keeps.below (keeps : Keeps view table next records) {record : Nat × ρ}
    (member : record ∈ records) : record.1 < next :=
  keeps.mem_ids.mp (List.mem_map_of_mem member)

theorem Keeps.nodup (keeps : Keeps view table next records) : (records.map Prod.fst).Nodup := by
  rw [keeps.ids]
  exact List.nodup_range

theorem Keeps.length (keeps : Keeps view table next records) : records.length = next := by
  calc
    records.length = (records.map Prod.fst).length := by rw [List.length_map]
    _ = (List.range next).length := by rw [keeps.ids]
    _ = next := List.length_range

theorem Keeps.draft (keeps : Keeps view table next records)
    (stored : table.store next value = some target) : Keeps view target next records := by
  refine ⟨keeps.ids, keeps.room, fun record member => ?_⟩
  rw [Table.load_stored_other stored (Nat.ne_of_lt (keeps.below member))]
  exact keeps.kept record member

theorem Keeps.issue (keeps : Keeps view table next records)
    (present : table.load next = some value) :
    Keeps view table (next + 1) (records ++ [(next, view value)]) := by
  constructor
  · rw [List.map_append, keeps.ids, List.range_succ]
    rfl
  · exact Table.lt_of_load present
  · intro record member
    rcases List.mem_append.mp member with earlier | new
    · exact keeps.kept record earlier
    · obtain rfl := List.mem_singleton.mp new
      exact ⟨value, present, rfl⟩

theorem Keeps.revise (keeps : Keeps view table next records)
    (present : table.load index = some old) (stored : table.store index value = some target)
    (same : view value = view old) : Keeps view target next records := by
  refine ⟨keeps.ids, keeps.room, fun record member => ?_⟩
  rcases keeps.kept record member with ⟨shown, loaded, shows⟩
  by_cases here : record.1 = index
  · rw [here, present] at loaded
    obtain rfl := Option.some.inj loaded
    rw [here]
    exact ⟨value, Table.load_stored stored, same.trans shows⟩
  · rw [Table.load_stored_other stored here]
    exact ⟨shown, loaded, shows⟩

end Baelux.Ledger

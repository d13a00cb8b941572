import Mathlib.Logic.Function.Basic

/-! A queue laid out in a circular array. -/

namespace Baelux.Ring

variable {α : Type} {cells : Nat → α} {size start : Nat} {queue : List α}

/-- The elements of the queue stand in the array from `start` on, around its end. -/
structure Queued (cells : Nat → α) (size start : Nat) (queue : List α) : Prop where
  fits : queue.length ≤ size
  begins : start < size
  content : ∀ i (inside : i < queue.length), cells ((start + i) % size) = queue[i]

theorem Queued.empty (begins : start < size) : Queued cells size start [] where
  fits := Nat.zero_le size
  begins := begins
  content := fun i inside => absurd inside (Nat.not_lt_zero i)

theorem position_ne {i j : Nat} (begins : start < size) (before : i < j) (turn : j < size) :
    (start + i) % size ≠ (start + j) % size := by
  rcases Nat.lt_or_ge (start + j) size with low | high
  · rw [Nat.mod_eq_of_lt low, Nat.mod_eq_of_lt (by omega)]
    omega
  · rw [Nat.mod_eq_sub_mod high, Nat.mod_eq_of_lt (a := start + j - size) (by omega)]
    rcases Nat.lt_or_ge (start + i) size with low | wrapped
    · rw [Nat.mod_eq_of_lt low]
      omega
    · rw [Nat.mod_eq_sub_mod wrapped, Nat.mod_eq_of_lt (by omega)]
      omega

theorem Queued.push (queued : Queued cells size start queue) (room : queue.length < size)
    (value : α) :
    Queued (Function.update cells ((start + queue.length) % size) value) size start
      (queue ++ [value]) where
  fits := by
    rw [List.length_append, List.length_singleton]
    omega
  begins := queued.begins
  content := by
    intro i inside
    rw [List.length_append, List.length_singleton] at inside
    by_cases last : i = queue.length
    · subst last
      rw [Function.update_self, List.getElem_concat_length rfl]
    · have earlier : i < queue.length := by omega
      rw [Function.update_of_ne (position_ne queued.begins earlier room),
        List.getElem_append_left earlier]
      exact queued.content i earlier

theorem Queued.front {value : α} {rest : List α}
    (queued : Queued cells size start (value :: rest)) : cells start = value := by
  have first := queued.content 0 (Nat.succ_pos _)
  rwa [Nat.add_zero, Nat.mod_eq_of_lt queued.begins] at first

theorem Queued.pop {value : α} {rest : List α}
    (queued : Queued cells size start (value :: rest)) :
    Queued cells size ((start + 1) % size) rest where
  fits := Nat.le_of_succ_le queued.fits
  begins := Nat.mod_lt _ (Nat.lt_of_le_of_lt (Nat.zero_le _) queued.begins)
  content := by
    intro i inside
    have next := queued.content (i + 1) (Nat.succ_lt_succ inside)
    rw [Nat.mod_add_mod, Nat.add_assoc, Nat.add_comm 1 i]
    exact next

theorem next_position {index : Nat} (inside : index < size) :
    (if size ≤ index + 1 then 0 else index + 1) = (index + 1) % size := by
  by_cases last : index + 1 = size
  · rw [if_pos (Nat.le_of_eq last.symm), last, Nat.mod_self]
  · rw [if_neg (by omega), Nat.mod_eq_of_lt (by omega)]

end Baelux.Ring

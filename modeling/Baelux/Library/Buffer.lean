import Mathlib.Data.List.OfFn
import Mathlib.Logic.Function.Basic

/-! C arrays of bytes, written with the bounds checked, and strings that end with NUL. -/

namespace Baelux

abbrev Byte := BitVec 8

abbrev Buffer (size : Nat) := Fin size → Byte

namespace Buffer

variable {size : Nat} {buffer target : Buffer size} {source : List Byte} {offset count index : Nat}

def store (buffer : Buffer size) (index : Nat) (byte : Byte) : Option (Buffer size) :=
  if inside : index < size then some (Function.update buffer ⟨index, inside⟩ byte) else none

/-- `memcpy(&buffer[offset], source, count)`, where `source` is the rest of its object. -/
def copy (buffer : Buffer size) (offset : Nat) (source : List Byte) (count : Nat) :
    Option (Buffer size) :=
  if count ≤ source.length ∧ offset + count ≤ size then
    some fun i =>
      if offset ≤ i ∧ i < offset + count then source.getD (i - offset) 0 else buffer i
  else none

def load (buffer : Buffer size) (index : Nat) : Option Byte :=
  if inside : index < size then some (buffer ⟨index, inside⟩) else none

def Holds (buffer : Buffer size) (offset : Nat) (bytes : List Byte) : Prop :=
  ∀ i (inside : i < bytes.length), buffer.load (offset + i) = some bytes[i]

theorem load_lt {byte : Byte} (loads : buffer.load index = some byte) : index < size := by
  unfold load at loads
  split at loads
  · assumption
  · cases loads

theorem load_of_lt (inside : index < size) : buffer.load index = some (buffer ⟨index, inside⟩) :=
  dif_pos inside

theorem store_of_lt (buffer : Buffer size) (inside : index < size) (byte : Byte) :
    ∃ target, buffer.store index byte = some target :=
  ⟨_, dif_pos inside⟩

theorem store_none (outside : size ≤ index) (byte : Byte) : buffer.store index byte = none :=
  dif_neg (Nat.not_lt.mpr outside)

theorem load_stored {byte : Byte} (stored : buffer.store index byte = some target) :
    target.load index = some byte := by
  unfold store at stored
  split at stored
  · rename_i inside
    cases stored
    rw [load_of_lt inside, Function.update_self]
  · cases stored

theorem load_store_other {byte : Byte} (stored : buffer.store index byte = some target) {i : Nat}
    (other : i ≠ index) : target.load i = buffer.load i := by
  unfold store at stored
  split at stored
  · cases stored
    unfold load
    split
    · rw [Function.update_of_ne fun same => other (Fin.mk.inj same)]
    · rfl
  · cases stored

theorem copy_of_fits (buffer : Buffer size) (source_fits : count ≤ source.length)
    (target_fits : offset + count ≤ size) :
    ∃ target, buffer.copy offset source count = some target :=
  ⟨_, if_pos ⟨source_fits, target_fits⟩⟩

theorem copy_none (outside : source.length < count ∨ size < offset + count) :
    buffer.copy offset source count = none := by
  apply if_neg
  omega

theorem load_copied (copied : buffer.copy offset source count = some target) :
    target.Holds offset (source.take count) := by
  unfold copy at copied
  split at copied
  · rename_i fits
    cases copied
    intro i inside
    rw [List.length_take_of_le fits.1] at inside
    rw [load_of_lt (by omega), if_pos ⟨Nat.le_add_right .., Nat.add_lt_add_left inside offset⟩,
      Nat.add_sub_cancel_left, List.getElem_take, List.getD_eq_getElem?_getD,
      List.getElem?_eq_getElem (by omega), Option.getD_some]
  · cases copied

theorem load_copy_other (copied : buffer.copy offset source count = some target) {i : Nat}
    (other : i < offset ∨ offset + count ≤ i) : target.load i = buffer.load i := by
  unfold copy at copied
  split at copied
  · cases copied
    unfold load
    split
    · apply congrArg some
      apply if_neg
      dsimp only
      omega
    · rfl
  · cases copied

theorem Holds.nil : buffer.Holds offset [] :=
  fun _ inside => absurd inside (Nat.not_lt_zero _)

theorem Holds.cons {byte : Byte} {rest : List Byte} (first : buffer.load offset = some byte)
    (behind : buffer.Holds (offset + 1) rest) : buffer.Holds offset (byte :: rest) := by
  intro i inside
  cases i with
  | zero => exact first
  | succ i =>
    rw [Nat.add_succ, ← Nat.succ_add, List.getElem_cons_succ]
    exact behind i (Nat.lt_of_succ_lt_succ inside)

theorem Holds.head {byte : Byte} {rest : List Byte} (held : buffer.Holds offset (byte :: rest)) :
    buffer.load offset = some byte :=
  held 0 (Nat.succ_pos _)

theorem Holds.tail {byte : Byte} {rest : List Byte} (held : buffer.Holds offset (byte :: rest)) :
    buffer.Holds (offset + 1) rest := by
  intro i inside
  have there := held (i + 1) (Nat.succ_lt_succ inside)
  rwa [List.getElem_cons_succ, Nat.add_succ, ← Nat.succ_add] at there

theorem Holds.front {front back : List Byte} (held : buffer.Holds offset (front ++ back)) :
    buffer.Holds offset front := by
  intro i inside
  have there := held i (List.length_append ▸ Nat.lt_add_right _ inside)
  rwa [List.getElem_append_left inside] at there

theorem Holds.append {front back : List Byte} (first : buffer.Holds offset front)
    (behind : buffer.Holds (offset + front.length) back) : buffer.Holds offset (front ++ back) := by
  induction front generalizing offset with
  | nil => exact behind
  | cons byte rest ih =>
    apply Holds.cons first.head
    apply ih first.tail
    rwa [Nat.add_assoc, Nat.add_comm 1]

theorem Holds.congr {bytes : List Byte} (held : buffer.Holds offset bytes)
    (same : ∀ i < bytes.length, target.load (offset + i) = buffer.load (offset + i)) :
    target.Holds offset bytes :=
  fun i inside => (same i inside).trans (held i inside)

theorem holds_headed {headed halfway : Buffer size} {first second : Byte}
    (stored : buffer.store 0 first = some halfway) (stored' : halfway.store 1 second = some headed)
    (copied : headed.copy 2 source count = some target) :
    target.Holds 0 (first :: second :: source.take count) := by
  apply Holds.cons
  · rw [load_copy_other copied (.inl Nat.two_pos), load_store_other stored' Nat.zero_ne_one]
    exact load_stored stored
  · apply Holds.cons
    · rw [load_copy_other copied (.inl Nat.one_lt_two)]
      exact load_stored stored'
    · exact load_copied copied

theorem holds_terminated {copy : Buffer size} (fits : count ≤ source.length)
    (copied : buffer.copy 0 source count = some copy) (stored : copy.store count 0 = some target) :
    target.Holds 0 (source.take count ++ [0]) := by
  have length := List.length_take_of_le fits
  apply Holds.append
  · apply (load_copied copied).congr
    intro i before
    exact load_store_other stored (by omega)
  · apply Holds.cons _ Holds.nil
    rw [length, Nat.zero_add]
    exact load_stored stored

theorem Holds.slice {bytes : List Byte} (held : buffer.Holds offset bytes)
    (fits : offset + bytes.length ≤ size) :
    ((List.ofFn buffer).drop offset).take bytes.length = bytes := by
  apply List.ext_getElem
  · rw [List.length_take, List.length_drop, List.length_ofFn]
    omega
  · intro i _ inside
    have there := held i inside
    rw [load_of_lt (by omega)] at there
    rw [List.getElem_take, List.getElem_drop, List.getElem_ofFn]
    exact Option.some.inj there

theorem Holds.fits {bytes : List Byte} (held : buffer.Holds 0 bytes) : 0 + bytes.length ≤ size := by
  by_contra longer
  have last := held size (by omega)
  exact absurd (load_lt last) (by omega)

theorem Holds.ofFn {bytes : List Byte} (held : buffer.Holds 0 bytes) :
    (List.ofFn buffer).take bytes.length = bytes :=
  held.slice held.fits

theorem drop_congr (same : ∀ i, offset ≤ i → target.load i = buffer.load i) :
    (List.ofFn target).drop offset = (List.ofFn buffer).drop offset := by
  apply List.ext_getElem
  · rw [List.length_drop, List.length_drop, List.length_ofFn, List.length_ofFn]
  · intro i inside _
    rw [List.length_drop, List.length_ofFn] at inside
    have there := same (offset + i) (Nat.le_add_right ..)
    rw [load_of_lt (by omega), load_of_lt (by omega)] at there
    rw [List.getElem_drop, List.getElem_drop, List.getElem_ofFn, List.getElem_ofFn]
    exact Option.some.inj there

theorem ofFn_terminated {copy : Buffer size} (fits : count ≤ source.length)
    (copied : buffer.copy 0 source count = some copy) (stored : copy.store count 0 = some target) :
    List.ofFn target = source.take count ++ [0] ++ (List.ofFn buffer).drop (count + 1) := by
  have start := (holds_terminated fits copied stored).ofFn
  have length : (source.take count ++ [0]).length = count + 1 := by
    rw [List.length_append, List.length_take_of_le fits, List.length_singleton]
  rw [length] at start
  have rest : (List.ofFn target).drop (count + 1) = (List.ofFn buffer).drop (count + 1) := by
    apply drop_congr
    intro i behind
    rw [load_store_other stored (by omega), load_copy_other copied (.inr (by omega))]
  rw [← start, ← rest, List.take_append_drop]

theorem Holds.window {bytes : List Byte} (held : buffer.Holds offset bytes)
    (length : bytes.length = count) (inside : ∀ i : Fin count, offset + i < size) :
    List.ofFn (fun i : Fin count => buffer ⟨offset + i, inside i⟩) = bytes := by
  subst length
  apply List.ext_getElem List.length_ofFn
  intro i _ before
  have there := held i before
  rw [load_of_lt (inside ⟨i, before⟩)] at there
  rw [List.getElem_ofFn]
  exact Option.some.inj there

end Buffer

def cString : List Byte → Option (List Byte)
  | [] => none
  | byte :: rest => if byte = 0 then some [] else (cString rest).map (byte :: ·)

theorem cString_text {text : List Byte} (behind : List Byte) (noNul : 0 ∉ text) :
    cString (text ++ 0 :: behind) = some text := by
  induction text with
  | nil => rfl
  | cons byte rest ih =>
    rw [List.mem_cons, not_or] at noNul
    rw [List.cons_append, cString, if_neg (Ne.symm noNul.1), ih noNul.2, Option.map_some]

theorem Buffer.Holds.ends {size : Nat} {buffer : Buffer size} {text : List Byte}
    (held : buffer.Holds 0 (text ++ [0])) (noNul : 0 ∉ text) :
    cString (List.ofFn buffer) = some text := by
  have start := held.ofFn
  calc
    cString (List.ofFn buffer) =
        cString ((List.ofFn buffer).take (text ++ [0]).length ++
          (List.ofFn buffer).drop (text ++ [0]).length) := by
      rw [List.take_append_drop]
    _ = cString (text ++ 0 :: (List.ofFn buffer).drop (text ++ [0]).length) := by
      rw [start, List.append_assoc, List.singleton_append]
    _ = some text := cString_text _ noNul

theorem cString_split {memory text : List Byte} (ends : cString memory = some text) :
    0 ∉ text ∧ ∃ behind, memory = text ++ 0 :: behind := by
  induction memory generalizing text with
  | nil => cases ends
  | cons byte rest ih =>
    rw [cString] at ends
    split at ends
    · cases ends
      exact ⟨List.not_mem_nil, rest, by simp [*]⟩
    · rename_i real
      rcases Option.map_eq_some_iff.mp ends with ⟨text, ends', rfl⟩
      rcases ih ends' with ⟨noNul, behind, rfl⟩
      refine ⟨?_, behind, rfl⟩
      rw [List.mem_cons, not_or]
      exact ⟨Ne.symm real, noNul⟩

theorem Buffer.holds_text {size : Nat} {buffer : Buffer size} {text : List Byte}
    (ends : cString (List.ofFn buffer) = some text) : buffer.Holds 0 text := by
  rcases cString_split ends with ⟨_, behind, split⟩
  intro i inside
  have listed : i < (List.ofFn buffer).length := by
    rw [split, List.length_append]
    omega
  have same : (List.ofFn buffer)[i] = text[i] := by
    simp only [split, List.getElem_append_left inside]
  rw [List.length_ofFn] at listed
  rw [List.getElem_ofFn] at same
  rw [Nat.zero_add, load_of_lt listed, same]

end Baelux

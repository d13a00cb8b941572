import Baelux.Library.Buffer
import Mathlib.Data.List.Induction
import Mathlib.Tactic.Ring

/-! `app_zigbee_utils.c`: addresses are read from four characters, digit by digit. -/

namespace Baelux.Zigbee

/-- `char2val`. The last range ends at 'f' in the source as well. -/
def char2val (c : Byte) : Int :=
  if 0x30 ≤ c.toNat ∧ c.toNat ≤ 0x39 then c.toNat - 0x30
  else if 0x61 ≤ c.toNat ∧ c.toNat ≤ 0x66 then c.toNat - 0x61 + 10
  else if 0x41 ≤ c.toNat ∧ c.toNat ≤ 0x66 then c.toNat - 0x41 + 10
  else -1

def strToU16 (value : Fin 4 → Byte) : BitVec 16 :=
  (List.ofFn value).foldl (fun ret c => ret * 16 + BitVec.ofInt 16 (char2val c)) 0

/-- The digits of a number as `printf` writes them, without zeros in front. -/
def hexText (number : Nat) : List Byte :=
  (Nat.toDigits 16 number).map fun c => BitVec.ofNat 8 c.toNat

def numeral (text : List Byte) : Int :=
  text.foldl (fun sum c => sum * 16 + char2val c) 0

theorem strToU16_numeral (value : Fin 4 → Byte) :
    strToU16 value = BitVec.ofInt 16 (numeral (List.ofFn value)) := by
  have narrowed : ∀ (text : List Byte) (sum : Int),
      text.foldl (fun ret c => ret * 16 + BitVec.ofInt 16 (char2val c)) (BitVec.ofInt 16 sum) =
        BitVec.ofInt 16 (text.foldl (fun sum c => sum * 16 + char2val c) sum) := by
    intro text
    induction text with
    | nil => exact fun _ => rfl
    | cons c rest ih =>
      intro sum
      rw [List.foldl_cons, List.foldl_cons, ← ih, BitVec.ofInt_add, BitVec.ofInt_mul]
      rfl
  exact narrowed (List.ofFn value) 0

theorem numeral_append (front back : List Byte) :
    numeral (front ++ back) = 16 ^ back.length * numeral front + numeral back := by
  have shifted : ∀ (text : List Byte) (sum : Int),
      text.foldl (fun sum c => sum * 16 + char2val c) sum =
        16 ^ text.length * sum + numeral text := by
    intro text
    induction text with
    | nil => simp [numeral]
    | cons c rest ih =>
      intro sum
      have first : numeral (c :: rest) = 16 ^ rest.length * (0 * 16 + char2val c) + numeral rest :=
        ih _
      rw [List.foldl_cons, ih, first, List.length_cons]
      ring
  rw [numeral, List.foldl_append]
  exact shifted back _

theorem numeral_concat (front : List Byte) (c : Byte) :
    numeral (front ++ [c]) = 16 * numeral front + char2val c := by
  rw [numeral_append]
  simp [numeral]

theorem char2val_digitChar {digit : Nat} (below : digit < 16) :
    char2val (BitVec.ofNat 8 digit.digitChar.toNat) = digit := by
  have all : ∀ digit : Fin 16,
      char2val (BitVec.ofNat 8 digit.val.digitChar.toNat) = digit.val := by decide
  exact all ⟨digit, below⟩

theorem numeral_hexText (number : Nat) : numeral (hexText number) = number := by
  induction number using Nat.strong_induction_on with
  | _ number ih =>
    rw [hexText, Nat.toDigits_eq_if (by decide)]
    split
    · rename_i below
      simp only [List.map_singleton]
      exact (numeral_concat [] _).trans (by rw [char2val_digitChar below]; simp [numeral])
    · rename_i above
      rw [List.map_append, List.map_singleton, numeral_concat,
        char2val_digitChar (Nat.mod_lt number (by decide))]
      have quotient := ih (number / 16) (Nat.div_lt_self (by omega) (by decide))
      rw [hexText] at quotient
      rw [quotient]
      omega

theorem char2val_hexText {number : Nat} {c : Byte} (member : c ∈ hexText number) :
    0 ≤ char2val c := by
  induction number using Nat.strong_induction_on with
  | _ number ih =>
    rw [hexText, Nat.toDigits_eq_if (by decide)] at member
    split at member
    · rename_i below
      rw [List.map_singleton, List.mem_singleton] at member
      rw [member, char2val_digitChar below]
      exact Int.natCast_nonneg number
    · rename_i above
      rw [List.map_append, List.map_singleton, List.mem_append, List.mem_singleton] at member
      rcases member with front | last
      · exact ih (number / 16) (Nat.div_lt_self (by omega) (by decide)) front
      · rw [last, char2val_digitChar (Nat.mod_lt number (by decide))]
        exact Int.natCast_nonneg (number % 16)

theorem length_hexText_le (number : Nat) {digits : Nat} (some_digit : 0 < digits) :
    (hexText number).length ≤ digits ↔ number < 16 ^ digits := by
  rw [hexText, List.length_map]
  exact Nat.length_toDigits_le_iff (by decide) some_digit

theorem length_hexText_pos (number : Nat) : 0 < (hexText number).length := by
  rw [hexText, List.length_map]
  exact Nat.length_toDigits_pos

/-! ## Sums of any characters -/

/-- The smallest sum of so many characters is minus this, the largest 41 times this. -/
def span : Nat → Int
  | 0 => 0
  | count + 1 => 16 * span count + 1

theorem char2val_bounds (c : Byte) : -1 ≤ char2val c ∧ char2val c ≤ 41 := by
  unfold char2val
  split
  · omega
  · split
    · omega
    · split <;> omega

theorem char2val_onto {value : Int} (low : -1 ≤ value) (high : value ≤ 41) :
    ∃ c, char2val c = value := by
  have all : ∀ i : Fin 43, ∃ c : Fin 97, char2val (BitVec.ofNat 8 c.val) = (i.val : Int) - 1 := by
    decide +kernel
  obtain ⟨c, here⟩ := all ⟨(value + 1).toNat, by omega⟩
  refine ⟨_, here.trans ?_⟩
  simp only
  omega

theorem numeral_bounds (text : List Byte) :
    -span text.length ≤ numeral text ∧ numeral text ≤ 41 * span text.length := by
  induction text using List.reverseRecOn with
  | nil => decide
  | append_singleton front c ih =>
    have bounds := char2val_bounds c
    rw [numeral_concat, List.length_append, List.length_singleton, span]
    omega

theorem numeral_onto {count : Nat} {sum : Int} (low : -span count ≤ sum)
    (high : sum ≤ 41 * span count) : ∃ text, text.length = count ∧ numeral text = sum := by
  induction count generalizing sum with
  | zero =>
    rw [span] at low high
    exact ⟨[], rfl, (show sum = 0 by omega).symm⟩
  | succ count ih =>
    rw [span] at low high
    -- the last character takes what the others cannot reach
    obtain ⟨front, last, split, above, below, least, most⟩ : ∃ front last : Int,
        sum = 16 * front + last ∧ -span count ≤ front ∧ front ≤ 41 * span count ∧
          -1 ≤ last ∧ last ≤ 41 := by
      by_cases reached : (sum + 1) / 16 ≤ 41 * span count
      · exact ⟨(sum + 1) / 16, sum - 16 * ((sum + 1) / 16), by omega, by omega, reached, by omega,
          by omega⟩
      · exact ⟨41 * span count, sum - 16 * (41 * span count), by omega, by omega, le_rfl, by omega,
          by omega⟩
    rcases ih above below with ⟨text, length, here⟩
    rcases char2val_onto least most with ⟨c, value⟩
    refine ⟨text ++ [c], ?_, ?_⟩
    · rw [List.length_append, length, List.length_singleton]
    · rw [numeral_concat, here, value, split]

end Baelux.Zigbee

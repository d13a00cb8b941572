import Baelux.Flash.Device
import Mathlib.Algebra.Group.Nat.Defs

/-! The elements of a page: one double word holds a virtual address, 32 bits of
data and a CRC over both. -/

namespace Baelux.Eeprom

open Flash

def eeTag : Nat := 0x8000

def eeCrcStep (v : Word) (crc : BitVec 32) (n : Nat) : BitVec 32 :=
  let x := ((crc >>> 8) ^^^ ((v >>> n).setWidth 8).setWidth 32) &&& 0xFF
  let x := x ^^^ (x >>> 4)
  (crc <<< 8) ^^^ (x <<< 12) ^^^ (x <<< 5) ^^^ x

def eeCrc (v : Word) : BitVec 16 :=
  ([16, 24, 32, 40, 48, 56].foldl (eeCrcStep v) 0).setWidth 16

/-- The element that `EE_WriteEl` builds before it adds the CRC. -/
def elementBody (addr : Nat) (data : Data) : Word :=
  (data.setWidth 64 <<< 32) |||
    ((BitVec.ofNat 64 eeTag ||| (BitVec.ofNat 64 addr &&& 0x3FFF)) <<< 16)

/-- The double word stored for a variable; a write of `EE_TAG` stores 0. -/
def element (addr : Nat) (data : Data) : Word :=
  if addr = eeTag then 0
  else elementBody addr data ||| (eeCrc (elementBody addr data)).setWidth 64

/-- The test with which `EE_ReadEl` recognises an element of `addr`. -/
def isElementOf (el : Word) (addr : Nat) : Bool :=
  el ≠ eeErased && el ≠ 0 && ((el &&& 0x3FFFFFFF) >>> 16).toNat == addr &&
    eeCrc el == el.setWidth 16

def elementData (el : Word) : Data := (el >>> 32).setWidth 32

def decode (el : Word) : Option (Nat × Data) :=
  if el ≠ eeErased ∧ el ≠ 0 ∧ eeCrc el = el.setWidth 16 then
    some (((el &&& 0x3FFFFFFF) >>> 16).toNat, elementData el)
  else none

theorem isElementOf_iff (el : Word) (addr : Nat) :
    isElementOf el addr = true ↔ decode el = some (addr, elementData el) := by
  simp only [isElementOf, decode, Bool.and_eq_true, decide_eq_true_eq, beq_iff_eq]
  split <;> simp_all

theorem decode_erased : decode eeErased = none := by simp [decode]

theorem eeCrc_or_low (v : Word) (low : BitVec 16) : eeCrc (v ||| low.setWidth 64) = eeCrc v := by
  have byte : ∀ n, 16 ≤ n →
      ((v ||| low.setWidth 64) >>> n).setWidth 8 = (v >>> n).setWidth 8 := by
    intro n high
    ext i inside
    have beyond : low.getLsbD (n + i) = false := BitVec.getLsbD_of_ge _ _ (by omega)
    simp [beyond]
  have step : ∀ crc n, 16 ≤ n → eeCrcStep (v ||| low.setWidth 64) crc n = eeCrcStep v crc n := by
    intro crc n high
    simp only [eeCrcStep, byte n high]
  simp only [eeCrc, List.foldl_cons, List.foldl_nil]
  rw [step _ 16 (by omega), step _ 24 (by omega), step _ 32 (by omega), step _ 40 (by omega),
    step _ 48 (by omega), step _ 56 (by omega)]

private theorem tag_bit (i : Nat) : eeTag.testBit i = decide (i = 15) := by
  have power : eeTag = 2 ^ 15 := rfl
  rw [power, Nat.testBit_two_pow]
  exact decide_eq_decide.mpr eq_comm

private theorem mask_bit (i k : Nat) (narrow : k < 64) :
    (BitVec.ofNat 64 (2 ^ k - 1)).getLsbD i = decide (i < k) := by
  rw [BitVec.getLsbD_ofNat, Nat.testBit_two_pow_sub_one]
  by_cases inside : i < k
  · simp [inside, show i < 64 by omega]
  · simp [inside]

/-- The two ways the source takes the variable out of an element agree. -/
theorem elementAddr_low (el : Word) :
    ((el.setWidth 32 <<< 2) >>> 18).toNat = ((el &&& 0x3FFFFFFF) >>> 16).toNat := by
  have mask : (0x3FFFFFFF : Word).toNat = 2 ^ 30 - 1 := rfl
  simp only [BitVec.toNat_ushiftRight, BitVec.toNat_shiftLeft, BitVec.toNat_setWidth,
    BitVec.toNat_and, mask, Nat.and_two_pow_sub_one_eq_mod, Nat.shiftRight_eq_div_pow,
    Nat.shiftLeft_eq]
  omega

section Fields

variable {addr : Nat} {data : Data}

private theorem body_bit (i : Nat) (inside : i < 64) : (elementBody addr data).getLsbD i =
    if i < 16 then false else if i < 30 then addr.testBit (i - 16)
    else if i < 32 then decide (i = 31) else data.getLsbD (i - 32) := by
  have mask : (0x3FFF : Word) = BitVec.ofNat 64 (2 ^ 14 - 1) := rfl
  simp only [elementBody, mask, BitVec.getLsbD_or, BitVec.getLsbD_shiftLeft, BitVec.getLsbD_and,
    mask_bit _ 14 (by omega), BitVec.getLsbD_setWidth, BitVec.getLsbD_ofNat, tag_bit]
  split
  · simp [show i < 32 by omega, *]
  split
  · simp [show i < 32 by omega, show ¬ i - 16 = 15 by omega, show i - 16 < 14 by omega,
      show i - 16 < 64 by omega, *]
  split
  · simp [show i - 16 < 64 by omega, show ¬ i - 16 < 14 by omega, *]
    omega
  · simp [show ¬ i - 16 = 15 by omega, show ¬ i - 16 < 14 by omega, show i - 32 < 64 by omega, *]

private theorem element_bit (not_tag : addr ≠ eeTag) (i : Nat) (inside : i < 64) :
    (element addr data).getLsbD i =
      if i < 16 then (eeCrc (elementBody addr data)).getLsbD i
      else (elementBody addr data).getLsbD i := by
  simp only [element, not_tag, ↓reduceIte, BitVec.getLsbD_or, BitVec.getLsbD_setWidth, inside,
    decide_true, Bool.true_and]
  split
  · rw [body_bit i inside]
    simp [*]
  · rw [BitVec.getLsbD_of_ge (eeCrc _) i (by omega), Bool.or_false]

variable (small : addr < 0x4000)
include small

private theorem not_tag : addr ≠ eeTag := by
  unfold eeTag
  omega

theorem eeCrc_element : eeCrc (element addr data) = (element addr data).setWidth 16 := by
  have own : (element addr data).setWidth 16 = eeCrc (elementBody addr data) := by
    apply BitVec.eq_of_getLsbD_eq
    intro i inside
    rw [BitVec.getLsbD_setWidth, element_bit (not_tag small) i (by omega)]
    simp [inside]
  rw [own, element, if_neg (not_tag small), eeCrc_or_low]

theorem elementData_element : elementData (element addr data) = data := by
  apply BitVec.eq_of_getLsbD_eq
  intro i inside
  rw [elementData, BitVec.getLsbD_setWidth, BitVec.getLsbD_ushiftRight,
    element_bit (not_tag small) _ (by omega), body_bit _ (by omega)]
  simp [inside, show ¬ 32 + i < 16 by omega, show ¬ 32 + i < 30 by omega,
    show ¬ 32 + i < 32 by omega]

theorem elementAddr_element :
    ((element addr data &&& 0x3FFFFFFF) >>> 16).toNat = addr := by
  have mask : (0x3FFFFFFF : Word) = BitVec.ofNat 64 (2 ^ 30 - 1) := rfl
  have field : (element addr data &&& 0x3FFFFFFF) >>> 16 = BitVec.ofNat 64 addr := by
    apply BitVec.eq_of_getLsbD_eq
    intro i inside
    rw [mask, BitVec.getLsbD_ushiftRight, BitVec.getLsbD_and, mask_bit _ 30 (by omega),
      BitVec.getLsbD_ofNat]
    by_cases high : 16 + i < 30
    · rw [element_bit (not_tag small) _ (by omega), body_bit _ (by omega)]
      simp [high, inside]
    · have beyond : addr.testBit i = false :=
        Nat.testBit_lt_two_pow (Nat.lt_of_lt_of_le small
          (Nat.pow_le_pow_right Nat.two_pos (show 14 ≤ i by omega)))
      simp [high, beyond]
  rw [field, BitVec.toNat_ofNat, Nat.mod_eq_of_lt (by omega)]

theorem element_ne_erased : element addr data ≠ eeErased := by
  intro same
  have bit := @element_bit addr data (not_tag small) 30 (by omega)
  rw [body_bit 30 (by omega), same] at bit
  simp [eeErased] at bit

theorem element_ne_zero : element addr data ≠ 0 := by
  intro same
  have bit := @element_bit addr data (not_tag small) 31 (by omega)
  rw [body_bit 31 (by omega), same] at bit
  simp at bit

theorem tag_element :
    (element addr data).setWidth 32 >>> 30 = BitVec.ofNat 32 (eeTag >>> 14) := by
  apply BitVec.eq_of_getLsbD_eq
  intro i inside
  have value : BitVec.ofNat 32 (eeTag >>> 14) = BitVec.ofNat 32 (2 ^ 1) := rfl
  rw [value, BitVec.getLsbD_ushiftRight, BitVec.getLsbD_setWidth, BitVec.getLsbD_ofNat,
    Nat.testBit_two_pow]
  by_cases high : 30 + i < 32
  · rw [element_bit (not_tag small) _ (by omega), body_bit _ (by omega)]
    simp [high, inside, show ¬ 30 + i < 16 by omega, show ¬ 30 + i < 30 by omega]
    omega
  · simp [high, show 1 ≠ i by omega]

@[simp] theorem decode_element : decode (element addr data) = some (addr, data) := by
  rw [decode, if_pos ⟨element_ne_erased small, element_ne_zero small, eeCrc_element small⟩,
    elementAddr_element small, elementData_element small]

end Fields

end Baelux.Eeprom

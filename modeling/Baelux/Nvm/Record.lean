import Baelux.Eeprom.SequentialStore

/-! The persistence layer of `app_zigbee_nvm.c`: a record is its length followed by
its data words, one variable of the store for each word. -/

namespace Baelux.Nvm

open Effect Flash Eeprom

/-- `CFG_EE_BANK0_SIZE / (2 * HW_FLASH_PAGE_SIZE)` where `ee_override.c` is compiled: the
sixteen pages of `app_zigbee_nvm.h` are not included there, so the default of two applies. -/
def bank0Pages : Nat := 2 * hwFlashPageSize / (2 * hwFlashPageSize)

def cfgNvmBaseAddress : Nat := 0x70000
def cfgEeBank0MaxNb : Nat := 1000
def stPersistMaxAllocSz : Nat := 4 * cfgEeBank0MaxNb
def zigbeeDbStartAddr : Nat := 0

def nvmBank : Bank where
  base := hwFlashAddress + cfgNvmBaseAddress
  nb := bank0Pages
  pos := by decide
  above := by decide
  aligned := by decide
  fits := by decide
  small := by decide

/-- The number of words of a record, its length included; the C variable is 16 bits wide. -/
def numWords (length : Data) : Nat :=
  (1 + length.toNat / 4 % 2 ^ 16 + if length.toNat % 4 ≠ 0 then 1 else 0) % 2 ^ 16

theorem numWords_pos {length : Data} (fits : length.toNat ≤ stPersistMaxAllocSz) :
    0 < numWords length := by
  have bytes : stPersistMaxAllocSz = 4000 := rfl
  unfold numWords
  split <;> omega

/-- `APP_ZIGBEE_NVM_Init`; the result is the status it prints. -/
def appZigbeeNvmInit : Storage Status := do
  let status ← eeeInit bank0Pages false (hwFlashAddress + cfgNvmBaseAddress)
  if status ≠ .ok then eeeInit bank0Pages true (hwFlashAddress + cfgNvmBaseAddress)
  else pure status

def readLoop : Nat → Nat → Storage Bool
  | 0, _ => pure true
  | remaining + 1, localLength => do
      match ← eeeRead (localLength + zigbeeDbStartAddr) with
      | none => pure false
      | some data =>
          setCache localLength data
          readLoop remaining (localLength + 1)

def appZigbeeNvmRead : Storage Bool := do
  halFlashUnlock
  let found ← eeeRead zigbeeDbStartAddr
  let status ← match found with
    | none => pure false
    | some length => do
        setCache 0 length
        if length = 0 ∨ stPersistMaxAllocSz < length.toNat then pure false
        else readLoop (numWords length - 1) 1
  halFlashLock
  pure status

/-- The save loop, with the status of the last `EEE_Write`. -/
def writeLoop : Nat → Nat → Status → Storage Status
  | 0, _, eeStatus => pure eeStatus
  | remaining + 1, localCurrentSize, _ => do
      let data ← getCache localCurrentSize
      let eeStatus ← eeeWrite (localCurrentSize + zigbeeDbStartAddr) data
      if eeStatus = .ok then writeLoop remaining (localCurrentSize + 1) eeStatus
      else if eeStatus = .cleanNeeded then
        let _ ← eeeClean
        writeLoop remaining (localCurrentSize + 1) eeStatus
      else pure eeStatus

def appZigbeeNvmWrite : Storage Bool :=
  traced .nvmWrite do
    let length ← getCache 0
    let eeStatus ← writeLoop (numWords length) 0 .ok
    pure (decide (eeStatus = .ok))

def appZigbeeNvmErase : Storage Unit := do
  let _ ← eeeInit bank0Pages true (hwFlashAddress + cfgNvmBaseAddress)
  pure ()

end Baelux.Nvm

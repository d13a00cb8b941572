import Baelux.Eeprom.Element
import Baelux.Flash.Driver

/-! The EEPROM emulation of `ee_override.c` for its single bank. The pool size is
a parameter; the functions return the codes of the C enumeration. -/

namespace Baelux.Eeprom

open Flash

def eeHeaderSize : Nat := 4 * hwFlashWidth
def eeNbMaxElt : Nat := (hwFlashPageSize - eeHeaderSize) / hwFlashWidth
def eeProgrammed : Word := 0x5555555555555555

inductive PageState where
  | erased
  | receive
  | active
  | valid
  | erasing
  deriving DecidableEq, Repr

def PageState.index : PageState → Nat
  | erased => 0
  | receive => 1
  | active => 2
  | valid => 3
  | erasing => 4

inductive Status where
  | ok
  | notFound
  | cleanNeeded
  | eraseError
  | writeError
  | stateError
  deriving DecidableEq, Repr

end Baelux.Eeprom

namespace Baelux.Flash.EeVar

def flashAddr (pv : EeVar) (page : Nat) : Nat := pv.address + page * hwFlashPageSize

def flashPage (pv : EeVar) (page : Nat) : Nat :=
  (pv.address - hwFlashAddress) / hwFlashPageSize + page

def nextPool (pv : EeVar) : Nat := if pv.currentWritePage < pv.nbPages then pv.nbPages else 0

end Baelux.Flash.EeVar

namespace Baelux.Eeprom

open Flash

def eeReset (address nbPages : Nat) : EeVar := ⟨address, nbPages, 0, 0, eeHeaderSize⟩

/-- `(page == 0) || (page == pv->nb_pages)`. -/
def poolStart (pv : EeVar) (page : Nat) : Prop := page = 0 ∨ page = pv.nbPages

instance (pv : EeVar) (page : Nat) : Decidable (poolStart pv page) := by
  unfold poolStart
  infer_instance

def getStateLoop : List PageState → Nat → Storage PageState
  | [], _ => pure .erased
  | state :: lower, flashAddr => do
      let word ← readWord (flashAddr - hwFlashWidth)
      if word ≠ eeErased then pure state else getStateLoop lower (flashAddr - hwFlashWidth)

def eeGetState (page : Nat) : Storage PageState := do
  let pv ← getVar
  getStateLoop [.erasing, .valid, .active, .receive] (pv.flashAddr page + eeHeaderSize)

/-- For `EE_STATE_ERASED` the unsigned `state - 1` wraps, which lands one double word
before the page, as the subtraction does here. -/
def eeSetState (page : Nat) (state : PageState) : Storage Status := do
  let pv ← getVar
  let failed ← fdWriteData (pv.flashAddr page + state.index * hwFlashWidth - hwFlashWidth)
    [eeProgrammed]
  if failed ≠ 0 then pure .writeError else pure .ok

/-- The offsets below `eeHeaderSize + n * hwFlashWidth`, from the last one down. -/
def readPageLoop (flashAddr addr : Nat) : Nat → Storage (Option Data)
  | 0 => pure none
  | n + 1 => do
      let el ← readWord (flashAddr + (eeHeaderSize + n * hwFlashWidth))
      if isElementOf el addr then pure (some (elementData el)) else readPageLoop flashAddr addr n

/-- `none` is `EEE_NOT_FOUND`, `some data` is `EEE_OK` with `*data`. -/
def eeReadEl (addr : Nat) : Nat → Storage (Option Data)
  | 0 => do
      let pv ← getVar
      readPageLoop (pv.flashAddr 0) addr eeNbMaxElt
  | page + 1 => do
      let pv ← getVar
      match ← readPageLoop (pv.flashAddr (page + 1)) addr eeNbMaxElt with
      | some data => pure (some data)
      | none => if poolStart pv (page + 1) then pure none else eeReadEl addr page

/-- The page change at the head of `EE_WriteEl`. -/
def changePage : Storage Status := do
  let pv ← getVar
  let page := pv.currentWritePage
  let state ← eeGetState page
  let status ← eeSetState (page + 1) state
  if status ≠ .ok then pure .writeError
  else
    let status ← eeSetState page .valid
    if status ≠ .ok then pure .writeError
    else
      setVar { pv with currentWritePage := page + 1, nextWriteOffset := eeHeaderSize }
      pure .ok

def storeElement (addr : Nat) (data : Data) : Storage Status := do
  let pv ← getVar
  let failed ← fdWriteData (pv.flashAddr pv.currentWritePage + pv.nextWriteOffset)
    [element addr data]
  if failed ≠ 0 then pure .writeError
  else
    setVar { pv with
      nextWriteOffset := pv.nextWriteOffset + hwFlashWidth
      nbWrittenElements := pv.nbWrittenElements + 1 }
    pure .ok

def eeWriteEl (addr : Nat) (data : Data) : Storage Status := do
  let pv ← getVar
  if hwFlashPageSize ≤ pv.nextWriteOffset then
    let status ← changePage
    if status ≠ .ok then pure .writeError else storeElement addr data
  else storeElement addr data

def markPage (page : Nat) : Storage Status := do
  let state ← eeGetState page
  if state = .active ∨ state = .valid then eeSetState page .erasing else pure .ok

def markLoop : Nat → Storage Status
  | 0 => markPage 0
  | page + 1 => do
      let status ← markPage (page + 1)
      if status ≠ .ok then pure .writeError
      else
        let pv ← getVar
        if poolStart pv (page + 1) then pure .ok else markLoop page

def copyVar (addr lastPage var : Nat) : Storage Status := do
  let pv ← getVar
  let present ← if addr ≠ eeTag then pure none else eeReadEl var pv.currentWritePage
  if present.isSome then pure .ok
  else
    match ← eeReadEl var lastPage with
    | none => pure .ok
    | some data => do
        let status ← eeWriteEl var data
        if status ≠ .ok then pure .writeError else pure .ok

/-- The end of `copyVar`, for a variable that is not in the new pool. -/
def copyAbsent (lastPage var : Nat) : Storage Status := do
  match ← eeReadEl var lastPage with
  | none => pure .ok
  | some data => do
      let status ← eeWriteEl var data
      if status ≠ .ok then pure .writeError else pure .ok

theorem copyVar_eq (addr lastPage var : Nat) : copyVar addr lastPage var = (do
    let pv ← getVar
    let present ← if addr ≠ eeTag then pure none else eeReadEl var pv.currentWritePage
    if present.isSome then pure .ok else copyAbsent lastPage var) := rfl

def copyLoop (addr lastPage : Nat) : Nat → Nat → Storage Status
  | 0, _ => pure .ok
  | remaining + 1, var => do
      let status ← if var ≠ addr then copyVar addr lastPage var else pure .ok
      if status ≠ .ok then pure .writeError else copyLoop addr lastPage remaining (var + 1)

def eeTransfer (addr page : Nat) : Storage Status := do
  let pv ← getVar
  let lastPage := if page < pv.nbPages then 2 * pv.nbPages - 1 else pv.nbPages - 1
  let status ← if addr ≠ eeTag then markLoop lastPage else pure .ok
  if status ≠ .ok then pure .writeError
  else
    let status ← copyLoop addr lastPage (eeNbMaxElt * pv.nbPages) 0
    if status ≠ .ok then pure .writeError
    else
      let pv ← getVar
      eeSetState pv.currentWritePage .active

/-- Whether the state of a page can be trusted: `none` is `continue`. -/
def reliable (state : PageState) (page : Nat) : Storage (Option Status) := do
  let pv ← getVar
  if poolStart pv page then
    let next ← eeGetState (page + 1)
    if next ≠ .erased then pure none else pure (some .ok)
  else
    let prevState ← eeGetState (page - 1)
    if prevState ≠ state then
      if prevState ≠ .valid then pure none else pure (some .ok)
    else
      let status ← eeSetState (page - 1) .valid
      if status ≠ .ok then pure (some .writeError) else pure (some .ok)

def countElements : Nat → Nat → Storage Unit
  | 0, _ => pure ()
  | remaining + 1, flashAddr => do
      let word ← readWord flashAddr
      if word = eeErased then pure ()
      else
        let pv ← getVar
        setVar { pv with
          nbWrittenElements := pv.nbWrittenElements + 1
          nextWriteOffset := pv.nextWriteOffset + hwFlashWidth }
        countElements remaining (flashAddr + hwFlashWidth)

def countPreviousPages : Nat → Storage Nat
  | 0 => pure 0
  | page + 1 => do
      let pv ← getVar
      if poolStart pv (page + 1) then pure (page + 1)
      else
        setVar { pv with nbWrittenElements := pv.nbWrittenElements + eeNbMaxElt }
        countPreviousPages page

def eraseLoop : Nat → Nat → Storage Status
  | 0, _ => pure .ok
  | remaining + 1, page => do
      let state ← eeGetState page
      if state ≠ .erased then
        let pv ← getVar
        let failed ← fdEraseSectors (pv.flashPage page) 1
        if failed ≠ 0 then pure .eraseError else eraseLoop remaining (page + 1)
      else eraseLoop remaining (page + 1)

def mountPage (page : Nat) : Storage Nat := do
  let pv ← getVar
  setVar { pv with currentWritePage := page }
  countElements eeNbMaxElt (pv.flashAddr page + eeHeaderSize)
  countPreviousPages page

def releaseOther : Storage Status := do
  let pv ← getVar
  eraseLoop pv.nbPages pv.nextPool

def adoptPage (state : PageState) (page : Nat) : Storage Status := do
  let first ← mountPage page
  if state = .receive then
    let status ← eeTransfer eeTag first
    if status ≠ .ok then pure .writeError else releaseOther
  else releaseOther

/-- One turn of the page scan; `none` is `continue`. -/
def recoverPage (state : PageState) (page : Nat) : Storage (Option Status) := do
  let found ← eeGetState page
  if state ≠ found then pure none
  else
    match ← reliable state page with
    | none => pure none
    | some .ok => do
        let status ← adoptPage state page
        pure (some status)
    | some error => pure (some error)

def scanLoop (state : PageState) : Nat → Nat → Storage (Option Status)
  | 0, _ => pure none
  | remaining + 1, page => do
      match ← recoverPage state page with
      | some status => pure (some status)
      | none => scanLoop state remaining (page + 1)

def eeRecovery : Storage Status := do
  let pv ← getVar
  match ← scanLoop .receive (2 * pv.nbPages) 0 with
  | some status => pure status
  | none =>
      match ← scanLoop .active (2 * pv.nbPages) 0 with
      | some status => pure status
      | none => pure .stateError

/-- `nbPages` is `CFG_EE_BANK0_SIZE / (2 * HW_FLASH_PAGE_SIZE)`. -/
def eeeInit (nbPages : Nat) (format : Bool) (baseAddress : Nat) : Storage Status := do
  setVar (eeReset baseAddress nbPages)
  if format then
    let pv ← getVar
    let failed ← fdEraseSectors (pv.flashPage 0) (2 * pv.nbPages)
    if failed ≠ 0 then pure .eraseError else eeSetState 0 .active
  else eeRecovery

def eeeRead (addr : Nat) : Storage (Option Data) := do
  let pv ← getVar
  eeReadEl addr pv.currentWritePage

/-- `EEE_Write` in a full pool: the other pool receives the variable and the live set. -/
def changePool (addr : Nat) (data : Data) : Storage Status := do
  let pv ← getVar
  let page := pv.nextPool
  let state ← eeGetState page
  if state ≠ .erased then pure .stateError
  else
    let status ← eeSetState page .receive
    if status ≠ .ok then pure .writeError
    else
      setVar { pv with
        currentWritePage := page
        nbWrittenElements := 0
        nextWriteOffset := eeHeaderSize }
      let status ← eeWriteEl addr data
      if status ≠ .ok then pure .writeError
      else
        let status ← eeTransfer addr page
        -- CFG_EE_AUTO_CLEAN is 0
        if status ≠ .ok then pure .writeError else pure .cleanNeeded

def eeeWrite (addr : Nat) (data : Data) : Storage Status :=
  traced (.eeeWrite addr data) do
    let pv ← getVar
    if pv.nbWrittenElements < eeNbMaxElt * pv.nbPages then eeWriteEl addr data
    else changePool addr data

def eeeClean : Storage Status :=
  traced .eeeClean do
    let pv ← getVar
    let page := pv.nextPool
    let state ← eeGetState page
    if state ≠ .erasing then pure .stateError
    else
      let failed ← fdEraseSectors (pv.flashPage page) pv.nbPages
      if failed ≠ 0 then pure .eraseError else pure .ok

end Baelux.Eeprom

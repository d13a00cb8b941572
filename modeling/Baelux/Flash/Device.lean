import Baelux.Library.Effect
import Mathlib.Logic.Function.Basic

/-! The flash, the semaphores around it and the RAM of the storage layer, as the
environment that the storage programs call. -/

namespace Baelux.Flash

open Effect

/-- One double word, the unit in which the flash is programmed. -/
abbrev Word := BitVec 64

abbrev Data := BitVec 32

def hwFlashAddress : Nat := 0x08000000
def hwFlashPageSize : Nat := 0x1000
def hwFlashWidth : Nat := 8

def eeErased : Word := 0xFFFFFFFFFFFFFFFF

/-- `EEE_var_t`; no field leaves its C type, since a bank has at most 64 pages. -/
structure EeVar where
  address : Nat
  nbPages : Nat
  currentWritePage : Nat
  nbWrittenElements : Nat
  nextWriteOffset : Nat
  deriving DecidableEq, Repr

inductive Traced where
  | persistSave
  | nvmWrite
  | eeeWrite (addr : Nat) (data : Data)
  | eeeClean
  deriving DecidableEq, Repr

inductive Call where
  | read (address : Nat)
  | halFlashProgram (address : Nat) (data : Word)
  | halFlashErase (page : Nat)
  | halFlashUnlock
  | halFlashLock
  | hsemLock
  | hsemReleaseLock
  | eraseActivity (on : Bool)
  | cpu1Status
  | cpu2Lock
  | cpu2ReleaseLock
  | getVar
  | setVar (var : EeVar)
  | getCache (index : Nat)
  | setCache (index : Nat) (data : Data)
  | enter (point : Traced)
  | leave (point : Traced)
  deriving DecidableEq, Repr

def Answer : Call → Type
  | .read _ => Word
  | .cpu1Status => Bool
  | .cpu2Lock => Bool
  | .getVar => EeVar
  | .getCache _ => Data
  | _ => Unit

abbrev storage : Sig := ⟨Call, Answer⟩

abbrev Storage := Prog storage

abbrev Memory := Nat → Word

/-- `EEE_var[0]` and the persistence cache are RAM; `activity` counts the
`ERASE_ACTIVITY_ON` commands not yet matched by an `ERASE_ACTIVITY_OFF`. -/
structure World where
  mem : Memory
  var : EeVar
  cache : Nat → Data
  semTaken : Bool
  unlocked : Bool
  activity : Int
  clock : Nat

def powerUp (mem : Memory) : World where
  mem := mem
  var := ⟨0, 0, 0, 0, 0⟩
  cache := fun _ => 0
  semTaken := false
  unlocked := false
  activity := 0
  clock := 0

/-- What the other core and the flash controller do at one moment. -/
structure Moment where
  cpu1Free : Bool
  cpu2Free : Bool
  halOk : Bool

abbrev Env := Nat → Moment

/-- A double word can be programmed once after an erase; only 0 may be programmed
over something else, any other attempt is reported by the HAL and has no effect. -/
def programmed (mem : Memory) (address : Nat) (data : Word) : Memory :=
  if mem address = eeErased ∨ data = 0 then Function.update mem address data else mem

def pageErased (mem : Memory) (page : Nat) : Memory := fun address =>
  if hwFlashAddress + page * hwFlashPageSize ≤ address ∧
      address < hwFlashAddress + (page + 1) * hwFlashPageSize then eeErased
  else mem address

def World.tick (w : World) : World := { w with clock := w.clock + 1 }

/-- A HAL error, as an operation on a locked flash, leaves the memory as it is. -/
def World.operate (w : World) (moment : Moment) (mem : Memory) : World :=
  if w.unlocked && moment.halOk then { w.tick with mem := mem } else w.tick

def handle (env : Env) : Handler storage World
  | .read address, w => (w.mem address, w)
  | .halFlashProgram address data, w =>
      ((), w.operate (env w.clock) (programmed w.mem address data))
  | .halFlashErase page, w => ((), w.operate (env w.clock) (pageErased w.mem page))
  | .halFlashUnlock, w => ((), { w with unlocked := true })
  | .halFlashLock, w => ((), { w with unlocked := false })
  | .hsemLock, w => ((), { w with semTaken := true })
  | .hsemReleaseLock, w => ((), { w with semTaken := false })
  | .eraseActivity on, w => ((), { w with activity := w.activity + if on then 1 else -1 })
  | .cpu1Status, w => ((env w.clock).cpu1Free, w.tick)
  | .cpu2Lock, w => ((env w.clock).cpu2Free, w.tick)
  | .cpu2ReleaseLock, w => ((), w)
  | .getVar, w => (w.var, w)
  | .setVar var, w => ((), { w with var := var })
  | .getCache index, w => (w.cache index, w)
  | .setCache index data, w => ((), { w with cache := Function.update w.cache index data })
  | .enter _, w => ((), w)
  | .leave _, w => ((), w)

section Calls

def issue (c : Call) : Storage (Answer c) := @Prog.call storage c

def readWord (address : Nat) : Storage Word := issue (.read address)
def halFlashProgram (address : Nat) (data : Word) : Storage Unit :=
  issue (.halFlashProgram address data)
def halFlashErase (page : Nat) : Storage Unit := issue (.halFlashErase page)
def halFlashUnlock : Storage Unit := issue .halFlashUnlock
def halFlashLock : Storage Unit := issue .halFlashLock
def hsemLock : Storage Unit := issue .hsemLock
def hsemReleaseLock : Storage Unit := issue .hsemReleaseLock
def eraseActivity (on : Bool) : Storage Unit := issue (.eraseActivity on)
def cpu1Status : Storage Bool := issue .cpu1Status
def cpu2Lock : Storage Bool := issue .cpu2Lock
def cpu2ReleaseLock : Storage Unit := issue .cpu2ReleaseLock
def getVar : Storage EeVar := issue .getVar
def setVar (var : EeVar) : Storage Unit := issue (.setVar var)
def getCache (index : Nat) : Storage Data := issue (.getCache index)
def setCache (index : Nat) (data : Data) : Storage Unit := issue (.setCache index data)

def enter (point : Traced) : Storage Unit := issue (.enter point)
def leave (point : Traced) : Storage Unit := issue (.leave point)

def traced {α : Type} (point : Traced) (body : Storage α) : Storage α := do
  enter point
  let value ← body
  leave point
  pure value

end Calls

/-- No operation is refused and no operation fails. -/
def quiet : Env := fun _ => ⟨true, true, true⟩

/-- Operations may be refused by either core, but one that is executed works. -/
def Honest (env : Env) : Prop := ∀ t, (env t).halOk = true

def Free (env : Env) : Prop := ∀ t, (env t).cpu1Free = true ∧ (env t).cpu2Free = true

theorem quiet_honest : Honest quiet := fun _ => rfl

theorem quiet_free : Free quiet := fun _ => ⟨rfl, rfl⟩

section Memory

variable {mem : Memory} {address other page : Nat} {data : Word}

theorem programmed_other (different : other ≠ address) :
    programmed mem address data other = mem other := by
  unfold programmed
  split
  · exact Function.update_of_ne different _ _
  · rfl

theorem programmed_blank (blank : mem address = eeErased) :
    programmed mem address data address = data := by
  simp [programmed, blank]

theorem programmed_written (written : mem address ≠ eeErased) (nonzero : data ≠ 0) :
    programmed mem address data = mem := by
  rw [programmed, if_neg]
  exact not_or.mpr ⟨written, nonzero⟩

theorem programmed_nonblank {a : Nat} (nonblank : mem a ≠ eeErased) :
    programmed mem address data a ≠ eeErased := by
  by_cases here : a = address
  · subst here
    by_cases zero : data = 0
    · rw [programmed, if_pos (Or.inr zero), Function.update_self, zero]
      decide
    · rw [programmed_written nonblank zero]
      exact nonblank
  · rw [programmed_other here]
    exact nonblank

theorem pageErased_outside (outside : address < hwFlashAddress + page * hwFlashPageSize ∨
      hwFlashAddress + (page + 1) * hwFlashPageSize ≤ address) :
    pageErased mem page address = mem address := by
  rw [pageErased, if_neg]
  omega

end Memory

section Rules

variable {env : Env} {P : Call → World → Prop} {w : World}

@[simp] theorem wp_readWord {R : Word → World → Prop} (address : Nat) :
    wp (handle env) P R (readWord address) w ↔ P (.read address) w ∧ R (w.mem address) w := Iff.rfl

@[simp] theorem wp_halFlashProgram {R : Unit → World → Prop} (address : Nat) (data : Word) :
    wp (handle env) P R (halFlashProgram address data) w ↔
      P (.halFlashProgram address data) w ∧
        R () (w.operate (env w.clock) (programmed w.mem address data)) := Iff.rfl

@[simp] theorem wp_halFlashErase {R : Unit → World → Prop} (page : Nat) :
    wp (handle env) P R (halFlashErase page) w ↔
      P (.halFlashErase page) w ∧
        R () (w.operate (env w.clock) (pageErased w.mem page)) := Iff.rfl

@[simp] theorem wp_halFlashUnlock {R : Unit → World → Prop} :
    wp (handle env) P R halFlashUnlock w ↔
      P .halFlashUnlock w ∧ R () { w with unlocked := true } := Iff.rfl

@[simp] theorem wp_halFlashLock {R : Unit → World → Prop} :
    wp (handle env) P R halFlashLock w ↔
      P .halFlashLock w ∧ R () { w with unlocked := false } := Iff.rfl

@[simp] theorem wp_hsemLock {R : Unit → World → Prop} :
    wp (handle env) P R hsemLock w ↔ P .hsemLock w ∧ R () { w with semTaken := true } := Iff.rfl

@[simp] theorem wp_hsemReleaseLock {R : Unit → World → Prop} :
    wp (handle env) P R hsemReleaseLock w ↔
      P .hsemReleaseLock w ∧ R () { w with semTaken := false } := Iff.rfl

@[simp] theorem wp_eraseActivity {R : Unit → World → Prop} (on : Bool) :
    wp (handle env) P R (eraseActivity on) w ↔ P (.eraseActivity on) w ∧
      R () { w with activity := w.activity + if on then 1 else -1 } := Iff.rfl

@[simp] theorem wp_cpu1Status {R : Bool → World → Prop} :
    wp (handle env) P R cpu1Status w ↔
      P .cpu1Status w ∧ R (env w.clock).cpu1Free w.tick := Iff.rfl

@[simp] theorem wp_cpu2Lock {R : Bool → World → Prop} :
    wp (handle env) P R cpu2Lock w ↔ P .cpu2Lock w ∧ R (env w.clock).cpu2Free w.tick := Iff.rfl

@[simp] theorem wp_cpu2ReleaseLock {R : Unit → World → Prop} :
    wp (handle env) P R cpu2ReleaseLock w ↔ P .cpu2ReleaseLock w ∧ R () w := Iff.rfl

@[simp] theorem wp_getVar {R : EeVar → World → Prop} :
    wp (handle env) P R getVar w ↔ P .getVar w ∧ R w.var w := Iff.rfl

@[simp] theorem wp_setVar {R : Unit → World → Prop} (var : EeVar) :
    wp (handle env) P R (setVar var) w ↔ P (.setVar var) w ∧ R () { w with var := var } := Iff.rfl

@[simp] theorem wp_getCache {R : Data → World → Prop} (index : Nat) :
    wp (handle env) P R (getCache index) w ↔ P (.getCache index) w ∧ R (w.cache index) w := Iff.rfl

@[simp] theorem wp_setCache {R : Unit → World → Prop} (index : Nat) (data : Data) :
    wp (handle env) P R (setCache index data) w ↔ P (.setCache index data) w ∧
      R () { w with cache := Function.update w.cache index data } := Iff.rfl

@[simp] theorem wp_traced {α : Type} {R : α → World → Prop} (point : Traced) (body : Storage α) :
    wp (handle env) P R (traced point body) w ↔ P (.enter point) w ∧
      wp (handle env) P (fun value t => P (.leave point) t ∧ R value t) body w := by
  simp only [traced, wp_bind, wp_pure]
  exact Iff.rfl

theorem run_traced {α : Type} (point : Traced) (body : Storage α) :
    run (handle env) (traced point body) w = run (handle env) body w := by
  simp only [traced, run_bind]
  rfl

end Rules

end Baelux.Flash

import Baelux.Eeprom.Store

/-! Which calls the store makes: it reads the flash, keeps its variables and leaves the
rest to the driver, and only erasing asks the other core for erase activity. -/

namespace Baelux.Eeprom

open Effect Flash

/-- A call that neither writes the cache, nor notifies an erase, nor marks a trace. -/
def Plain : Call → Prop
  | .setCache _ _ => False
  | .eraseActivity _ => False
  | .enter _ => False
  | .leave _ => False
  | _ => True

def Erasing : Call → Prop
  | .eraseActivity _ => True
  | c => Plain c

theorem Plain.erasing {c : Call} (plain : Plain c) : Erasing c := by
  cases c with
  | eraseActivity on => trivial
  | _ => exact plain

def Local : Call → Prop
  | .read _ | .getVar | .setVar _ => True
  | _ => False

theorem Local.plain {c : Call} (here : Local c) : Plain c := by
  cases c with
  | read address => trivial
  | getVar => trivial
  | setVar var => trivial
  | _ => exact here.elim

/-- Everything but local calls is left to the driver, and it erases only if `erases`. -/
inductive Driven (erases : Prop) : {α : Type} → Storage α → Prop
  | pure {α : Type} (value : α) : Driven erases (pure value : Storage α)
  | issue {c : Call} (here : Local c) : Driven erases (issue c)
  | write (destAddress : Nat) (srcBuffer : List Word) :
      Driven erases (fdWriteData destAddress srcBuffer)
  | erase (allowed : erases) (firstSector nbrOfSectors : Nat) :
      Driven erases (fdEraseSectors firstSector nbrOfSectors)
  | bind {α β : Type} {program : Storage α} {rest : α → Storage β}
      (first : Driven erases program) (second : ∀ value, Driven erases (rest value)) :
      Driven erases (program >>= rest)

theorem Driven.ite {erases : Prop} {α : Type} {c : Prop} [Decidable c] {first second : Storage α}
    (yes : Driven erases first) (no : Driven erases second) :
    Driven erases (if c then first else second) := by
  split
  · exact yes
  · exact no

variable {erases : Prop}

theorem driven_check {first rest : Storage Status} (begins : Driven erases first)
    (next : Driven erases rest) : Driven erases
      (first >>= fun status => if status ≠ .ok then pure .writeError else rest) :=
  begins.bind fun _ => Driven.ite (Driven.pure _) next

/-! ## The store -/

theorem driven_getStateLoop (states : List PageState) (flashAddr : Nat) :
    Driven erases (getStateLoop states flashAddr) := by
  induction states generalizing flashAddr with
  | nil => exact Driven.pure _
  | cons state lower ih =>
    apply (Driven.issue (by trivial)).bind
    intro (word : Word)
    exact Driven.ite (Driven.pure _) (ih _)

theorem driven_eeGetState (page : Nat) : Driven erases (eeGetState page) :=
  (Driven.issue (by trivial)).bind fun _ => driven_getStateLoop _ _

theorem driven_eeSetState (page : Nat) (state : PageState) :
    Driven erases (eeSetState page state) := by
  apply (Driven.issue (by trivial)).bind
  intro pv
  apply (Driven.write _ _).bind
  intro failed
  exact Driven.ite (Driven.pure _) (Driven.pure _)

theorem driven_readPageLoop (flashAddr addr n : Nat) :
    Driven erases (readPageLoop flashAddr addr n) := by
  induction n with
  | zero => exact Driven.pure _
  | succ n ih =>
    apply (Driven.issue (by trivial)).bind
    intro (el : Word)
    exact Driven.ite (Driven.pure _) ih

theorem driven_eeReadEl (addr page : Nat) : Driven erases (eeReadEl addr page) := by
  induction page with
  | zero => exact (Driven.issue (by trivial)).bind fun _ => driven_readPageLoop _ _ _
  | succ page ih =>
    apply (Driven.issue (by trivial)).bind
    intro (pv : EeVar)
    apply (driven_readPageLoop _ _ _).bind
    intro found
    cases found with
    | some data => exact Driven.pure _
    | none => exact Driven.ite (Driven.pure _) ih

theorem driven_changePage : Driven erases changePage := by
  apply (Driven.issue (by trivial)).bind
  intro (pv : EeVar)
  apply (driven_eeGetState _).bind
  intro state
  apply driven_check (driven_eeSetState _ _)
  apply driven_check (driven_eeSetState _ _)
  exact (Driven.issue (by trivial)).bind fun _ => Driven.pure _

theorem driven_storeElement (addr : Nat) (data : Data) :
    Driven erases (storeElement addr data) := by
  apply (Driven.issue (by trivial)).bind
  intro (pv : EeVar)
  apply (Driven.write _ _).bind
  intro failed
  apply Driven.ite (Driven.pure _)
  exact (Driven.issue (by trivial)).bind fun _ => Driven.pure _

theorem driven_eeWriteEl (addr : Nat) (data : Data) : Driven erases (eeWriteEl addr data) := by
  apply (Driven.issue (by trivial)).bind
  intro (pv : EeVar)
  apply Driven.ite _ (driven_storeElement addr data)
  exact driven_check driven_changePage (driven_storeElement addr data)

theorem driven_markPage (page : Nat) : Driven erases (markPage page) := by
  apply (driven_eeGetState _).bind
  intro state
  exact Driven.ite (driven_eeSetState _ _) (Driven.pure _)

theorem driven_markLoop (page : Nat) : Driven erases (markLoop page) := by
  induction page with
  | zero => exact driven_markPage 0
  | succ page ih =>
    apply driven_check (driven_markPage _)
    apply (Driven.issue (by trivial)).bind
    intro (pv : EeVar)
    exact Driven.ite (Driven.pure _) ih

theorem driven_copyVar (addr lastPage var : Nat) : Driven erases (copyVar addr lastPage var) := by
  rw [copyVar_eq]
  apply (Driven.issue (by trivial)).bind
  intro (pv : EeVar)
  have copied : ∀ present : Option Data,
      Driven erases (if present.isSome then pure .ok else copyAbsent lastPage var) := by
    intro present
    apply Driven.ite (Driven.pure _)
    apply (driven_eeReadEl _ _).bind
    intro found
    cases found with
    | none => exact Driven.pure _
    | some data => exact driven_check (driven_eeWriteEl _ _) (Driven.pure _)
  apply Driven.ite
  · exact (Driven.pure _).bind copied
  · exact (driven_eeReadEl _ _).bind copied

theorem driven_copyLoop (addr lastPage remaining var : Nat) :
    Driven erases (copyLoop addr lastPage remaining var) := by
  induction remaining generalizing var with
  | zero => exact Driven.pure _
  | succ remaining ih =>
    apply Driven.ite
    · exact driven_check (driven_copyVar _ _ _) (ih _)
    · exact driven_check (Driven.pure _) (ih _)

theorem driven_eeTransfer (addr page : Nat) : Driven erases (eeTransfer addr page) := by
  have activated : Driven erases (do
      let pv ← getVar
      eeSetState pv.currentWritePage .active : Storage Status) :=
    (Driven.issue (by trivial)).bind fun _ => driven_eeSetState _ _
  apply (Driven.issue (by trivial)).bind
  intro (pv : EeVar)
  apply Driven.ite
  · apply driven_check (driven_markLoop _)
    exact driven_check (driven_copyLoop _ _ _ _) activated
  · apply driven_check (Driven.pure _)
    exact driven_check (driven_copyLoop _ _ _ _) activated

theorem driven_changePool (addr : Nat) (data : Data) : Driven erases (changePool addr data) := by
  apply (Driven.issue (by trivial)).bind
  intro (pv : EeVar)
  apply (driven_eeGetState _).bind
  intro state
  apply Driven.ite (Driven.pure _)
  apply driven_check (driven_eeSetState _ _)
  apply (Driven.issue (by trivial)).bind
  intro _
  apply driven_check (driven_eeWriteEl _ _)
  exact driven_check (driven_eeTransfer _ _) (Driven.pure _)

theorem driven_writeBody (addr : Nat) (data : Data) : Driven erases (do
    let pv ← getVar
    if pv.nbWrittenElements < eeNbMaxElt * pv.nbPages then eeWriteEl addr data
    else changePool addr data : Storage Status) := by
  apply (Driven.issue (by trivial)).bind
  intro (pv : EeVar)
  exact Driven.ite (driven_eeWriteEl _ _) (driven_changePool _ _)

/-! ## The functions that erase -/

theorem driven_cleanBody : Driven True (do
    let pv ← getVar
    let page := pv.nextPool
    let state ← eeGetState page
    if state ≠ .erasing then pure .stateError
    else
      let failed ← fdEraseSectors (pv.flashPage page) pv.nbPages
      if failed ≠ 0 then pure .eraseError else pure .ok : Storage Status) := by
  apply (Driven.issue (by trivial)).bind
  intro (pv : EeVar)
  apply (driven_eeGetState _).bind
  intro state
  apply Driven.ite (Driven.pure _)
  apply (Driven.erase trivial _ _).bind
  intro failed
  exact Driven.ite (Driven.pure _) (Driven.pure _)

theorem driven_reliable (state : PageState) (page : Nat) : Driven erases (reliable state page) := by
  apply (Driven.issue (by trivial)).bind
  intro (pv : EeVar)
  apply Driven.ite
  · apply (driven_eeGetState _).bind
    intro next
    exact Driven.ite (Driven.pure _) (Driven.pure _)
  · apply (driven_eeGetState _).bind
    intro prevState
    apply Driven.ite
    · exact Driven.ite (Driven.pure _) (Driven.pure _)
    · apply (driven_eeSetState _ _).bind
      intro status
      exact Driven.ite (Driven.pure _) (Driven.pure _)

theorem driven_countElements (remaining flashAddr : Nat) :
    Driven erases (countElements remaining flashAddr) := by
  induction remaining generalizing flashAddr with
  | zero => exact Driven.pure _
  | succ remaining ih =>
    apply (Driven.issue (by trivial)).bind
    intro (word : Word)
    apply Driven.ite (Driven.pure _)
    apply (Driven.issue (by trivial)).bind
    intro (pv : EeVar)
    exact (Driven.issue (by trivial)).bind fun _ => ih _

theorem driven_countPreviousPages (page : Nat) : Driven erases (countPreviousPages page) := by
  induction page with
  | zero => exact Driven.pure _
  | succ page ih =>
    apply (Driven.issue (by trivial)).bind
    intro (pv : EeVar)
    apply Driven.ite (Driven.pure _)
    exact (Driven.issue (by trivial)).bind fun _ => ih

theorem driven_mountPage (page : Nat) : Driven erases (mountPage page) := by
  apply (Driven.issue (by trivial)).bind
  intro (pv : EeVar)
  apply (Driven.issue (by trivial)).bind
  intro _
  exact (driven_countElements _ _).bind fun _ => driven_countPreviousPages page

theorem driven_eraseLoop (remaining page : Nat) : Driven True (eraseLoop remaining page) := by
  induction remaining generalizing page with
  | zero => exact Driven.pure _
  | succ remaining ih =>
    apply (driven_eeGetState _).bind
    intro state
    apply Driven.ite _ (ih _)
    apply (Driven.issue (by trivial)).bind
    intro (pv : EeVar)
    apply (Driven.erase trivial _ _).bind
    intro failed
    exact Driven.ite (Driven.pure _) (ih _)

theorem driven_adoptPage (state : PageState) (page : Nat) : Driven True (adoptPage state page) := by
  have released : Driven True releaseOther :=
    (Driven.issue (by trivial)).bind fun _ => driven_eraseLoop _ _
  apply (driven_mountPage page).bind
  intro first
  exact Driven.ite (driven_check (driven_eeTransfer _ _) released) released

theorem driven_recoverPage (state : PageState) (page : Nat) :
    Driven True (recoverPage state page) := by
  apply (driven_eeGetState _).bind
  intro found
  apply Driven.ite (Driven.pure _)
  apply (driven_reliable _ _).bind
  intro trusted
  cases trusted with
  | none => exact Driven.pure _
  | some status =>
    cases status with
    | ok => exact (driven_adoptPage _ _).bind fun _ => Driven.pure _
    | _ => exact Driven.pure _

theorem driven_scanLoop (state : PageState) (remaining page : Nat) :
    Driven True (scanLoop state remaining page) := by
  induction remaining generalizing page with
  | zero => exact Driven.pure _
  | succ remaining ih =>
    apply (driven_recoverPage _ _).bind
    intro recovered
    cases recovered with
    | some status => exact Driven.pure _
    | none => exact ih _

theorem driven_eeRecovery : Driven True eeRecovery := by
  apply (Driven.issue (by trivial)).bind
  intro (pv : EeVar)
  apply (driven_scanLoop _ _ _).bind
  intro received
  cases received with
  | some status => exact Driven.pure _
  | none =>
    apply (driven_scanLoop _ _ _).bind
    intro active
    cases active with
    | some status => exact Driven.pure _
    | none => exact Driven.pure _

theorem driven_eeeInit (nbPages : Nat) (format : Bool) (baseAddress : Nat) :
    Driven True (eeeInit nbPages format baseAddress) := by
  apply (Driven.issue (by trivial)).bind
  intro _
  apply Driven.ite _ driven_eeRecovery
  apply (Driven.issue (by trivial)).bind
  intro (pv : EeVar)
  apply (Driven.erase trivial _ _).bind
  intro failed
  exact Driven.ite (Driven.pure _) (driven_eeSetState _ _)

/-! ## The calls of a driven program -/

def DriverCall (erases : Prop) : Call → Prop
  | .halFlashProgram _ _ | .halFlashErase _ | .halFlashUnlock | .halFlashLock => True
  | .hsemLock | .hsemReleaseLock | .cpu1Status | .cpu2Lock | .cpu2ReleaseLock => True
  | .eraseActivity _ => erases
  | _ => False

section Driver

variable {C : Call → Prop} (driver : ∀ c, DriverCall erases c → C c)
include driver

private theorem only_issue {c : Call} (made : DriverCall erases c) : (issue c).Only C :=
  (@Prog.only_call storage C c).mpr (driver c made)

private theorem only_processSingleFlashOperation (type : FlashOperationType) (target : Nat)
    (data : Word) : (processSingleFlashOperation type target data).Only C := by
  have waited : ∀ status, (processSingleFlashOperation.waited status).Only C := by
    intro status
    cases status <;> exact Prog.only_pure _
  apply (only_issue driver (by trivial)).bind
  intro (cpu1Free : Bool)
  apply Prog.Only.ite _ (waited _)
  apply (only_issue driver (by trivial)).bind
  intro (cpu2Free : Bool)
  apply Prog.Only.ite _ (waited _)
  have released : (do cpu2ReleaseLock; pure SingleFlashOperationStatus.done :
      Storage SingleFlashOperationStatus).Only C :=
    (only_issue driver (by trivial)).bind fun _ => Prog.only_pure _
  cases type with
  | flashErase => exact (only_issue driver (by trivial)).bind fun _ => released
  | flashWrite => exact (only_issue driver (by trivial)).bind fun _ => released

private theorem only_writeLoop (destAddress : Nat) (words : List Word) (loopFlash : Nat) :
    (writeLoop destAddress words loopFlash).Only C := by
  induction words generalizing loopFlash with
  | nil => exact Prog.only_pure _
  | cons data rest ih =>
    apply (only_processSingleFlashOperation driver _ _ _).bind
    intro status
    exact Prog.Only.ite (ih (loopFlash + 1)) (Prog.only_pure _)

private theorem only_fdWriteData (destAddress : Nat) (srcBuffer : List Word) :
    (fdWriteData destAddress srcBuffer).Only C := by
  apply (only_issue driver (by trivial)).bind
  intro _
  apply (only_issue driver (by trivial)).bind
  intro _
  apply (only_writeLoop driver _ _ _).bind
  intro written
  apply Prog.Only.ite (Prog.only_pure _)
  apply (only_issue driver (by trivial)).bind
  intro _
  exact (only_issue driver (by trivial)).bind fun _ => Prog.only_pure _

private theorem only_eraseLoop (firstSector remaining loopFlash : Nat) :
    (Flash.eraseLoop firstSector remaining loopFlash).Only C := by
  induction remaining generalizing loopFlash with
  | zero => exact Prog.only_pure _
  | succ remaining ih =>
    apply (only_processSingleFlashOperation driver _ _ _).bind
    intro status
    exact Prog.Only.ite (ih (loopFlash + 1)) (Prog.only_pure _)

private theorem only_fdEraseSectors (allowed : erases) (firstSector nbrOfSectors : Nat) :
    (fdEraseSectors firstSector nbrOfSectors).Only C := by
  apply (only_issue driver (by trivial)).bind
  intro _
  apply (only_issue driver (by trivial)).bind
  intro _
  apply (only_issue driver (c := .eraseActivity true) allowed).bind
  intro _
  apply (only_eraseLoop driver _ _ _).bind
  intro erased
  apply Prog.Only.ite (Prog.only_pure _)
  apply (only_issue driver (c := .eraseActivity false) allowed).bind
  intro _
  apply (only_issue driver (by trivial)).bind
  intro _
  exact (only_issue driver (by trivial)).bind fun _ => Prog.only_pure _

theorem Driven.only {α : Type} {program : Storage α} (driven : Driven erases program)
    (here : ∀ c, Local c → C c) : program.Only C := by
  induction driven with
  | pure value => exact Prog.only_pure value
  | issue made => exact (@Prog.only_call storage C _).mpr (here _ made)
  | write destAddress srcBuffer => exact only_fdWriteData driver destAddress srcBuffer
  | erase allowed firstSector nbrOfSectors => exact only_fdEraseSectors driver allowed _ _
  | bind first second first' second' => exact first'.bind second'

end Driver

theorem only_traced {C : Call → Prop} {α : Type} {point : Traced} {body : Storage α}
    (enters : C (.enter point)) (leaves : C (.leave point)) (only : body.Only C) :
    (traced point body).Only C := by
  apply ((@Prog.only_call storage C _).mpr enters).bind
  intro _
  apply only.bind
  intro value
  exact ((@Prog.only_call storage C _).mpr leaves).bind fun _ => Prog.only_pure value

theorem Driven.plain {α : Type} {program : Storage α} (driven : Driven False program) :
    program.Only Plain := by
  apply driven.only _ fun _ => Local.plain
  intro c made
  cases c with
  | eraseActivity on => exact made.elim
  | setCache index data => exact made.elim
  | enter point => exact made.elim
  | leave point => exact made.elim
  | _ => trivial

theorem Driven.erasing {α : Type} {program : Storage α} (driven : Driven True program) :
    program.Only Erasing := by
  apply driven.only _ fun _ here => here.plain.erasing
  intro c made
  cases c with
  | setCache index data => exact made.elim
  | enter point => exact made.elim
  | leave point => exact made.elim
  | _ => trivial

end Baelux.Eeprom

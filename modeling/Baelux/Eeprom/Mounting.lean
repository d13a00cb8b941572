import Baelux.Eeprom.Rules

/-! `EEE_Init` mounts a bank and nothing that the store does later unmounts it, whatever
becomes of the flash operations. -/

namespace Baelux.Eeprom

open Effect Flash

/-- In a mounted bank the program keeps the bank mounted, and `R` holds of its result. -/
def Keeping (env : Env) (b : Bank) {α : Type} (R : α → Prop) (program : Storage α) : Prop :=
  ∀ w : World, Mounted b w.var →
    wp (handle env) (fun _ _ => True) (fun value t => Mounted b t.var ∧ R value) program w

/-- A function that fails was refused an operation, and none asks for a clean. -/
def Fair (env : Env) (status : Status) : Prop :=
  status = .ok ∨ status ≠ .cleanNeeded ∧ ¬ Free env

variable {env : Env} {b : Bank} {α β : Type}

section Rules

variable {R : α → Prop} {S : β → Prop} {program : Storage α} {rest : α → Storage β}

theorem Keeping.pure {value : α} (holds : R value) : Keeping env b R (pure value : Storage α) :=
  fun _ mounted => ⟨mounted, holds⟩

theorem Keeping.bind (first : Keeping env b R program)
    (second : ∀ value, R value → Keeping env b S (rest value)) :
    Keeping env b S (program >>= rest) := by
  intro w mounted
  rw [wp_bind]
  exact wp_post (first w mounted) fun value t ended => second value ended.2 t ended.1

theorem Keeping.ite {c : Prop} [Decidable c] {first second : Storage α}
    (yes : Keeping env b R first) (no : Keeping env b R second) :
    Keeping env b R (if c then first else second) := by
  split
  · exact yes
  · exact no

theorem Keeping.any (keeping : Keeping env b R program) :
    Keeping env b (fun _ => True) program :=
  fun w mounted => wp_post (keeping w mounted) fun _ _ ended => ⟨ended.1, trivial⟩

theorem keeping_getVar {rest : EeVar → Storage β}
    (next : ∀ pv, Mounted b pv → Keeping env b S (rest pv)) :
    Keeping env b S (getVar >>= rest) := by
  intro w mounted
  rw [wp_bind, wp_getVar]
  exact ⟨trivial, next w.var mounted w mounted⟩

theorem keeping_setVar {var : EeVar} {rest : Unit → Storage β} (mounted : Mounted b var)
    (next : Keeping env b S (rest ())) : Keeping env b S (setVar var >>= rest) := by
  intro w _
  rw [wp_bind, wp_setVar]
  exact ⟨trivial, next _ mounted⟩

theorem keeping_issue {c : Call} (other : ∀ var, c ≠ .setVar var) :
    Keeping env b (fun _ => True) (issue c) := by
  intro w mounted
  have operated : ∀ (moment : Moment) (mem : Memory), (w.operate moment mem).var = w.var := by
    intro moment mem
    unfold World.operate
    split <;> rfl
  refine ⟨trivial, ?_, trivial⟩
  cases c with
  | setVar var => exact absurd rfl (other var)
  | halFlashProgram address data =>
    show Mounted b (w.operate _ _).var
    rw [operated]
    exact mounted
  | halFlashErase page =>
    show Mounted b (w.operate _ _).var
    rw [operated]
    exact mounted
  | _ => exact mounted

theorem keeping_eeGetState {rest : PageState → Storage β} (page : Nat)
    (next : ∀ state, Keeping env b S (rest state)) : Keeping env b S (eeGetState page >>= rest) := by
  intro w mounted
  rw [wp_bind]
  exact wp_eeGetState trivial (fun _ _ => trivial) (next _ w mounted)

theorem keeping_eeReadEl {rest : Option Data → Storage β} (v page : Nat)
    (next : ∀ found, Keeping env b S (rest found)) : Keeping env b S (eeReadEl v page >>= rest) := by
  intro w mounted
  rw [wp_bind]
  exact wp_eeReadEl trivial (fun _ _ _ _ => trivial) (next _ w mounted)

theorem fair_ok : Fair env .ok := Or.inl rfl

theorem Keeping.check {first rest : Storage Status} (begins : Keeping env b (Fair env) first)
    (next : Keeping env b (Fair env) rest) : Keeping env b (Fair env)
      (first >>= fun status => if status ≠ .ok then Pure.pure .writeError else rest) := by
  apply begins.bind
  intro status fair
  rcases fair with rfl | refused
  · exact next
  · exact Keeping.ite (Keeping.pure (Or.inr ⟨by decide, refused.2⟩)) next

end Rules

/-! ## The driver -/

def Executes (env : Env) (status : SingleFlashOperationStatus) : Prop :=
  status = .done ∨ ¬ Free env

theorem keeping_operation (type : FlashOperationType) (target : Nat) (data : Word) :
    Keeping env b (Executes env) (processSingleFlashOperation type target data) := by
  have released : Keeping env b (Executes env) (do cpu2ReleaseLock; pure .done) :=
    (keeping_issue (by simp)).bind fun _ _ => Keeping.pure (Or.inl rfl)
  intro w mounted
  rw [processSingleFlashOperation, wp_bind, wp_cpu1Status]
  refine ⟨trivial, ?_⟩
  cases cpu1 : (env w.clock).cpu1Free with
  | false =>
    refine ⟨mounted, Or.inr ?_⟩
    intro free
    rw [(free w.clock).1] at cpu1
    cases cpu1
  | true =>
    rw [if_pos rfl, wp_bind, wp_cpu2Lock]
    refine ⟨trivial, ?_⟩
    cases cpu2 : (env w.tick.clock).cpu2Free with
    | false =>
      refine ⟨mounted, Or.inr ?_⟩
      intro free
      rw [(free w.tick.clock).2] at cpu2
      cases cpu2
    | true =>
      rw [if_pos rfl]
      cases type with
      | flashErase => exact (keeping_issue (by simp)).bind (fun _ _ => released) w.tick.tick mounted
      | flashWrite => exact (keeping_issue (by simp)).bind (fun _ _ => released) w.tick.tick mounted

def Succeeds (env : Env) (failed : Nat) : Prop := failed = 0 ∨ ¬ Free env

theorem keeping_fdWriteData (address : Nat) (words : List Word) :
    Keeping env b (Succeeds env) (fdWriteData address words) := by
  have loop : ∀ (words : List Word) (loopFlash : Nat),
      Keeping env b (fun ended => Executes env ended.1) (writeLoop address words loopFlash) := by
    intro words
    induction words with
    | nil => exact fun _ => Keeping.pure (Or.inl rfl)
    | cons data rest ih =>
      intro loopFlash
      apply (keeping_operation _ _ _).bind
      intro status executes
      exact (ih _).ite (Keeping.pure executes)
  apply (keeping_issue (by simp)).bind
  intro _ _
  apply (keeping_issue (by simp)).bind
  intro _ _
  apply (loop words 0).bind
  rintro ⟨ended, count⟩ executes
  have closed : Keeping env b (Succeeds env) (do halFlashLock; hsemReleaseLock; pure 0) :=
    (keeping_issue (by simp)).bind fun _ _ => (keeping_issue (by simp)).bind fun _ _ =>
      Keeping.pure (Or.inl rfl)
  rcases executes with rfl | refused
  · exact closed
  · exact Keeping.ite (Keeping.pure (Or.inr refused)) closed

theorem keeping_fdEraseSectors (firstSector nbrOfSectors : Nat) :
    Keeping env b (Succeeds env) (fdEraseSectors firstSector nbrOfSectors) := by
  have loop : ∀ remaining loopFlash, Keeping env b (fun ended => Executes env ended.1)
      (Flash.eraseLoop firstSector remaining loopFlash) := by
    intro remaining
    induction remaining with
    | zero => exact fun _ => Keeping.pure (Or.inl rfl)
    | succ remaining ih =>
      intro loopFlash
      apply (keeping_operation _ _ _).bind
      intro status executes
      exact (ih _).ite (Keeping.pure executes)
  apply (keeping_issue (by simp)).bind
  intro _ _
  apply (keeping_issue (by simp)).bind
  intro _ _
  apply (keeping_issue (by simp)).bind
  intro _ _
  apply (loop nbrOfSectors 0).bind
  rintro ⟨ended, count⟩ executes
  have closed : Keeping env b (Succeeds env) (do
      eraseActivity false; halFlashLock; hsemReleaseLock; pure 0) :=
    (keeping_issue (by simp)).bind fun _ _ => (keeping_issue (by simp)).bind fun _ _ =>
      (keeping_issue (by simp)).bind fun _ _ => Keeping.pure (Or.inl rfl)
  rcases executes with rfl | refused
  · exact closed
  · exact Keeping.ite (Keeping.pure (Or.inr refused)) closed

/-! ## The store -/

/-- The pattern `if ( FD_...() != 0 ) return EEE_..._ERROR;`. -/
theorem Keeping.driver {program : Storage Nat} {error : Status} {rest : Storage Status}
    (runs : Keeping env b (Succeeds env) program) (fails : error ≠ .cleanNeeded)
    (next : Keeping env b (Fair env) rest) : Keeping env b (Fair env)
      (program >>= fun failed => if failed ≠ 0 then Pure.pure error else rest) := by
  apply runs.bind
  intro failed succeeds
  rcases succeeds with rfl | refused
  · exact next
  · exact Keeping.ite (Keeping.pure (Or.inr ⟨fails, refused⟩)) next

theorem keeping_eeSetState (page : Nat) (state : PageState) :
    Keeping env b (Fair env) (eeSetState page state) := by
  apply keeping_getVar
  intro pv _
  exact (keeping_fdWriteData _ _).driver (by decide) (Keeping.pure fair_ok)

theorem keeping_storeElement (v : Nat) (data : Data) :
    Keeping env b (Fair env) (storeElement v data) := by
  apply keeping_getVar
  intro pv mounted
  apply (keeping_fdWriteData _ _).driver (by decide)
  exact keeping_setVar ⟨mounted.address, mounted.nbPages⟩ (Keeping.pure fair_ok)

theorem keeping_changePage : Keeping env b (Fair env) changePage := by
  apply keeping_getVar
  intro pv mounted
  apply keeping_eeGetState
  intro state
  apply (keeping_eeSetState _ _).check
  apply (keeping_eeSetState _ _).check
  exact keeping_setVar ⟨mounted.address, mounted.nbPages⟩ (Keeping.pure fair_ok)

theorem keeping_eeWriteEl (v : Nat) (data : Data) :
    Keeping env b (Fair env) (eeWriteEl v data) := by
  apply keeping_getVar
  intro pv _
  apply Keeping.ite _ (keeping_storeElement v data)
  exact keeping_changePage.check (keeping_storeElement v data)

theorem keeping_markPage (page : Nat) : Keeping env b (Fair env) (markPage page) := by
  apply keeping_eeGetState
  intro state
  exact (keeping_eeSetState _ _).ite (Keeping.pure fair_ok)

theorem keeping_markLoop (page : Nat) : Keeping env b (Fair env) (markLoop page) := by
  induction page with
  | zero => exact keeping_markPage 0
  | succ page ih =>
    apply (keeping_markPage _).check
    apply keeping_getVar
    intro pv _
    exact (Keeping.pure fair_ok).ite ih

theorem keeping_copyVar (addr lastPage v : Nat) :
    Keeping env b (Fair env) (copyVar addr lastPage v) := by
  rw [copyVar_eq]
  have copied : ∀ present : Option Data, Keeping env b (Fair env)
      (if present.isSome then pure .ok else copyAbsent lastPage v) := by
    intro present
    apply (Keeping.pure fair_ok).ite
    apply keeping_eeReadEl
    intro found
    cases found with
    | none => exact Keeping.pure fair_ok
    | some data => exact (keeping_eeWriteEl v data).check (Keeping.pure fair_ok)
  apply keeping_getVar
  intro pv _
  apply Keeping.ite
  · exact copied none
  · exact keeping_eeReadEl _ _ copied

theorem keeping_copyLoop (addr lastPage remaining v : Nat) :
    Keeping env b (Fair env) (copyLoop addr lastPage remaining v) := by
  induction remaining generalizing v with
  | zero => exact Keeping.pure fair_ok
  | succ remaining ih =>
    apply Keeping.ite
    · exact (keeping_copyVar _ _ _).check (ih _)
    · exact (Keeping.pure fair_ok).check (ih _)

theorem keeping_eeTransfer (addr page : Nat) :
    Keeping env b (Fair env) (eeTransfer addr page) := by
  have activated : Keeping env b (Fair env) (do
      let pv ← getVar
      eeSetState pv.currentWritePage .active) :=
    keeping_getVar fun pv _ => keeping_eeSetState _ _
  apply keeping_getVar
  intro pv _
  apply Keeping.ite
  · exact (keeping_markLoop _).check ((keeping_copyLoop _ _ _ _).check activated)
  · exact (Keeping.pure fair_ok).check ((keeping_copyLoop _ _ _ _).check activated)

def Completes (env : Env) (status : Status) : Prop := status = .cleanNeeded ∨ ¬ Free env

theorem Keeping.completes {first rest : Storage Status} (begins : Keeping env b (Fair env) first)
    (next : Keeping env b (Completes env) rest) : Keeping env b (Completes env)
      (first >>= fun status => if status ≠ .ok then Pure.pure .writeError else rest) := by
  apply begins.bind
  intro status fair
  rcases fair with rfl | refused
  · exact next
  · exact Keeping.ite (Keeping.pure (Or.inr refused.2)) next

theorem keeping_receivePool {pv : EeVar} (mounted : Mounted b pv) (addr : Nat) (data : Data) :
    Keeping env b (Completes env) (do
      let status ← eeSetState pv.nextPool .receive
      if status ≠ .ok then pure .writeError
      else
        setVar { pv with
          currentWritePage := pv.nextPool
          nbWrittenElements := 0
          nextWriteOffset := eeHeaderSize }
        let status ← eeWriteEl addr data
        if status ≠ .ok then pure .writeError
        else
          let status ← eeTransfer addr pv.nextPool
          if status ≠ .ok then pure .writeError else pure .cleanNeeded) := by
  apply (keeping_eeSetState _ _).completes
  refine keeping_setVar ⟨mounted.address, mounted.nbPages⟩ ?_
  apply (keeping_eeWriteEl _ _).completes
  exact (keeping_eeTransfer _ _).completes (Keeping.pure (Or.inl rfl))

theorem keeping_changePool (addr : Nat) (data : Data) :
    Keeping env b (fun _ => True) (changePool addr data) := by
  apply keeping_getVar
  intro pv mounted
  apply keeping_eeGetState
  intro state
  exact (Keeping.pure trivial).ite (keeping_receivePool mounted addr data).any

theorem Keeping.traced {R : α → Prop} {point : Traced} {body : Storage α}
    (keeping : Keeping env b R body) : Keeping env b R (traced point body) := by
  intro w mounted
  rw [wp_traced]
  exact ⟨trivial, wp_post (keeping w mounted) fun _ _ ended => ⟨trivial, ended⟩⟩

theorem keeping_eeeWrite (addr : Nat) (data : Data) :
    Keeping env b (fun _ => True) (eeeWrite addr data) := by
  apply Keeping.traced
  apply keeping_getVar
  intro pv _
  exact (keeping_eeWriteEl _ _).any.ite (keeping_changePool _ _)

theorem keeping_eeeClean : Keeping env b (fun _ => True) eeeClean := by
  apply Keeping.traced
  apply keeping_getVar
  intro pv _
  apply keeping_eeGetState
  intro state
  apply (Keeping.pure trivial).ite
  apply (keeping_fdEraseSectors _ _).bind
  intro failed _
  exact (Keeping.pure trivial).ite (Keeping.pure trivial)

/-! ## Recovery -/

theorem keeping_reliable (state : PageState) (page : Nat) :
    Keeping env b (fun _ => True) (reliable state page) := by
  apply keeping_getVar
  intro pv _
  apply Keeping.ite
  · apply keeping_eeGetState
    intro next
    exact (Keeping.pure trivial).ite (Keeping.pure trivial)
  · apply keeping_eeGetState
    intro prevState
    apply Keeping.ite
    · exact (Keeping.pure trivial).ite (Keeping.pure trivial)
    · apply (keeping_eeSetState _ _).bind
      intro status _
      exact (Keeping.pure trivial).ite (Keeping.pure trivial)

theorem keeping_countElements (remaining flashAddr : Nat) :
    Keeping env b (fun _ => True) (countElements remaining flashAddr) := by
  induction remaining generalizing flashAddr with
  | zero => exact Keeping.pure trivial
  | succ remaining ih =>
    apply (keeping_issue (by simp)).bind
    intro (word : Word) _
    apply (Keeping.pure trivial).ite
    apply keeping_getVar
    intro pv mounted
    exact keeping_setVar ⟨mounted.address, mounted.nbPages⟩ (ih _)

theorem keeping_countPreviousPages (page : Nat) :
    Keeping env b (fun _ => True) (countPreviousPages page) := by
  induction page with
  | zero => exact Keeping.pure trivial
  | succ page ih =>
    apply keeping_getVar
    intro pv mounted
    apply (Keeping.pure trivial).ite
    exact keeping_setVar ⟨mounted.address, mounted.nbPages⟩ ih

theorem keeping_eraseLoop (remaining page : Nat) :
    Keeping env b (Fair env) (eraseLoop remaining page) := by
  induction remaining generalizing page with
  | zero => exact Keeping.pure fair_ok
  | succ remaining ih =>
    apply keeping_eeGetState
    intro state
    apply Keeping.ite _ (ih _)
    apply keeping_getVar
    intro pv _
    exact (keeping_fdEraseSectors _ _).driver (by decide) (ih _)

theorem keeping_adoptPage (state : PageState) (page : Nat) :
    Keeping env b (Fair env) (adoptPage state page) := by
  have released : Keeping env b (Fair env) releaseOther :=
    keeping_getVar fun pv _ => keeping_eraseLoop _ _
  have mounts : Keeping env b (fun _ => True) (mountPage page) := by
    apply keeping_getVar
    intro pv mounted
    refine keeping_setVar ⟨mounted.address, mounted.nbPages⟩ ?_
    exact (keeping_countElements _ _).bind fun _ _ => keeping_countPreviousPages page
  apply mounts.bind
  intro first _
  exact ((keeping_eeTransfer _ _).check released).ite released

theorem keeping_scanLoop (state : PageState) (remaining page : Nat) :
    Keeping env b (fun _ => True) (scanLoop state remaining page) := by
  have recovers : ∀ page, Keeping env b (fun _ => True) (recoverPage state page) := by
    intro page
    apply keeping_eeGetState
    intro found
    apply (Keeping.pure trivial).ite
    apply (keeping_reliable _ _).bind
    intro trusted _
    cases trusted with
    | none => exact Keeping.pure trivial
    | some status =>
      cases status with
      | ok => exact (keeping_adoptPage _ _).bind fun _ _ => Keeping.pure trivial
      | _ => exact Keeping.pure trivial
  induction remaining generalizing page with
  | zero => exact Keeping.pure trivial
  | succ remaining ih =>
    apply (recovers page).bind
    intro recovered _
    cases recovered with
    | some status => exact Keeping.pure trivial
    | none => exact ih _

theorem keeping_eeRecovery : Keeping env b (fun _ => True) eeRecovery := by
  apply keeping_getVar
  intro pv _
  apply (keeping_scanLoop _ _ _).bind
  intro received _
  cases received with
  | some status => exact Keeping.pure trivial
  | none =>
    apply (keeping_scanLoop _ _ _).bind
    intro active _
    cases active with
    | some status => exact Keeping.pure trivial
    | none => exact Keeping.pure trivial

/-- `EEE_Init` mounts the bank, whether it succeeds or not. -/
theorem eeeInit_mounts (format : Bool) (w : World) :
    Mounted b (run (handle env) (eeeInit b.nb format b.base) w).2.var := by
  have mounted : Mounted b (eeReset b.base b.nb) := ⟨rfl, rfl⟩
  have mounts : wp (handle env) (fun _ _ => True) (fun _ t => Mounted b t.var ∧ True)
      (eeeInit b.nb format b.base) w := by
    rw [eeeInit, wp_bind, wp_setVar]
    refine ⟨trivial, ?_⟩
    apply Keeping.ite _ keeping_eeRecovery _ mounted
    apply keeping_getVar
    intro pv _
    apply (keeping_fdEraseSectors _ _).bind
    intro failed _
    exact (Keeping.pure trivial).ite (keeping_eeSetState _ _).any
  exact (wp_run mounts).1

end Baelux.Eeprom

import Baelux.Eeprom.Calls
import Baelux.Flash.Ownership
import Baelux.Nvm.Record

/-! When the persistence layer gives the flash back: the store gives up at the first
request that is refused, and what the driver still holds then stays held. -/

namespace Baelux.Eeprom

open Effect Flash

variable {env : Env} {α : Type}

theorem Local.above {c : Call} (here : Local c) : Above c := by
  cases c with
  | read _ | getVar | setVar _ => trivial
  | _ => exact here.elim

theorem Driven.accounted {program : Storage α} (driven : Driven True program) :
    Moves (noted env) Accounted program := by
  induction driven with
  | pure value => exact Moves.pure value
  | issue here => exact accounted_issue here.above
  | write destAddress srcBuffer => exact accounted_fdWriteData _ _
  | erase allowed firstSector nbrOfSectors => exact accounted_fdEraseSectors _ _
  | bind first second first' second' => exact first'.bind second'

theorem accounted_traced {point : Traced} {body : Storage α}
    (accounted : Moves (noted env) Accounted body) :
    Moves (noted env) Accounted (traced point body) := by
  apply (accounted_issue (by trivial)).bind
  intro _
  apply accounted.bind
  intro value
  exact (accounted_issue (by trivial)).bind fun _ => Moves.pure value

theorem accounted_eeeWrite (addr : Nat) (data : Data) :
    Moves (noted env) Accounted (eeeWrite addr data) :=
  accounted_traced (driven_writeBody addr data).accounted

theorem accounted_eeeClean : Moves (noted env) Accounted eeeClean :=
  accounted_traced driven_cleanBody.accounted

end Baelux.Eeprom

namespace Baelux.Nvm

open Effect Flash Eeprom

variable {env : Env} {w : World}

theorem accounted_appZigbeeNvmInit : Moves (noted env) Accounted appZigbeeNvmInit := by
  apply (driven_eeeInit _ _ _).accounted.bind
  intro status
  exact Moves.ite (driven_eeeInit _ _ _).accounted (Moves.pure status)

theorem accounted_writeLoop (remaining localCurrentSize : Nat) (eeStatus : Status) :
    Moves (noted env) Accounted (writeLoop remaining localCurrentSize eeStatus) := by
  induction remaining generalizing localCurrentSize eeStatus with
  | zero => exact Moves.pure eeStatus
  | succ remaining ih =>
    apply (accounted_issue (by trivial)).bind
    intro (data : Data)
    apply (accounted_eeeWrite _ data).bind
    intro status
    apply Moves.ite (ih _ _)
    refine Moves.ite ?_ (Moves.pure status)
    exact accounted_eeeClean.bind fun _ => ih _ _

theorem accounted_appZigbeeNvmWrite : Moves (noted env) Accounted appZigbeeNvmWrite := by
  apply accounted_traced
  apply (accounted_issue (by trivial)).bind
  intro (length : Data)
  exact (accounted_writeLoop _ _ _).bind fun _ => Moves.pure _

theorem accounted_appZigbeeNvmErase : Moves (noted env) Accounted appZigbeeNvmErase :=
  (driven_eeeInit _ _ _).accounted.bind fun _ => Moves.pure ()

/-! ## What a call leaves -/

/-- The semaphore is free, the flash is locked, and the call has sent as many
`ERASE_ACTIVITY_OFF` as `ERASE_ACTIVITY_ON`. -/
structure Restored (w t : World) : Prop where
  semaphore : t.semTaken = false
  lock : t.unlocked = false
  activity : t.activity = w.activity

/-- No core refuses an erase, nor the last of the requests; a call that makes none finds
the flash released. -/
structure Granted (requests : List Request) (w : World) : Prop where
  erases : ∀ request ∈ requests, request.type = .flashErase → request.refused = false
  last : ∀ last ∈ requests.head?, last.refused = false
  start : requests = [] → w.semTaken = false ∧ w.unlocked = false

theorem raised_granted {requests : List Request} {before : Bool} :
    raised before requests = false ↔
      (∀ last ∈ requests.head?, last.refused = false) ∧ (requests = [] → before = false) := by
  cases requests with
  | nil => simp [raised]
  | cons last rest => simp [raised]

theorem no_refused_erase {requests : List Request} :
    requests.countP Request.refusedErase = 0 ↔
      ∀ request ∈ requests, request.type = .flashErase → request.refused = false := by
  rw [List.countP_eq_zero]
  constructor
  · intro none request member erase
    simpa [Request.refusedErase, erase] using none request member
  · intro granted request member
    simp only [Request.refusedErase, Bool.and_eq_true, decide_eq_true_eq, not_and]
    intro refused erase
    rw [granted request member erase] at refused
    exact Bool.false_ne_true refused

theorem restored_iff {α : Type} {program : Storage α}
    (accounted : Moves (noted env) Accounted program) :
    Restored w (run (handle env) program w).2 ↔ Granted (requests env program w) w := by
  rcases accounted (w, []) with ⟨new, requested⟩
  have history : requests env program w = new := by
    rw [requests, requested.history, List.append_nil]
  have ends : (run (noted env) program (w, [])).2.1 = (run (handle env) program w).2 :=
    run_watched program (w, [])
  have semaphore := ends ▸ requested.semaphore
  have lock := ends ▸ requested.lock
  have activity : (run (handle env) program w).2.activity =
      w.activity + new.countP Request.refusedErase := ends ▸ requested.activity
  rw [history]
  constructor
  · intro restored
    have free := raised_granted.mp (semaphore.symm.trans restored.semaphore)
    have locked := raised_granted.mp (lock.symm.trans restored.lock)
    have matched := restored.activity
    refine ⟨no_refused_erase.mp (by omega), free.1, ?_⟩
    intro none
    exact ⟨free.2 none, locked.2 none⟩
  · intro granted
    have matched := no_refused_erase.mpr granted.erases
    refine ⟨semaphore.trans ?_, lock.trans ?_, by omega⟩
    · exact raised_granted.mpr ⟨granted.last, fun none => (granted.start none).1⟩
    · exact raised_granted.mpr ⟨granted.last, fun none => (granted.start none).2⟩

theorem flash_restored_iff (env : Env) (w : World) :
    (Restored w (run (handle env) appZigbeeNvmInit w).2 ↔
      Granted (requests env appZigbeeNvmInit w) w) ∧
    (Restored w (run (handle env) appZigbeeNvmWrite w).2 ↔
      Granted (requests env appZigbeeNvmWrite w) w) ∧
    (Restored w (run (handle env) appZigbeeNvmErase w).2 ↔
      Granted (requests env appZigbeeNvmErase w) w) ∧
    (Restored w (run (handle env) eeeClean w).2 ↔ Granted (requests env eeeClean w) w) :=
  ⟨restored_iff accounted_appZigbeeNvmInit, restored_iff accounted_appZigbeeNvmWrite,
    restored_iff accounted_appZigbeeNvmErase, restored_iff accounted_eeeClean⟩

/-- The flash is blocked while the store is erased after a power-up. -/
theorem blocked_erase_keeps_flash : ¬ ∀ (env : Env) (mem : Memory),
    Restored (powerUp mem) (run (handle env) appZigbeeNvmErase (powerUp mem)).2 := by
  intro restored
  have taken := (restored (fun _ => ⟨false, true, true⟩) (fun _ => eeErased)).semaphore
  revert taken
  decide

/-! ## Whole runs -/

private theorem above_issue {c : Call} (above : Above c) : (issue c).Only Above :=
  (@Prog.only_call storage Above c).mpr above

private theorem above_readPageLoop (flashAddr addr n : Nat) :
    (readPageLoop flashAddr addr n).Only Above := by
  induction n with
  | zero => exact Prog.only_pure _
  | succ n ih =>
    apply (above_issue (by trivial)).bind
    intro (el : Word)
    exact Prog.Only.ite (Prog.only_pure _) ih

private theorem above_eeReadEl (addr page : Nat) : (eeReadEl addr page).Only Above := by
  induction page with
  | zero => exact (above_issue (by trivial)).bind fun _ => above_readPageLoop _ _ _
  | succ page ih =>
    apply (above_issue (by trivial)).bind
    intro (pv : EeVar)
    apply (above_readPageLoop _ _ _).bind
    intro found
    cases found with
    | some data => exact Prog.only_pure _
    | none => exact Prog.Only.ite (Prog.only_pure _) ih

private theorem above_eeeRead (addr : Nat) : (eeeRead addr).Only Above :=
  (above_issue (by trivial)).bind fun _ => above_eeReadEl _ _

private theorem above_readLoop (remaining localLength : Nat) :
    (readLoop remaining localLength).Only Above := by
  induction remaining generalizing localLength with
  | zero => exact Prog.only_pure _
  | succ remaining ih =>
    apply (above_eeeRead _).bind
    intro found
    cases found with
    | none => exact Prog.only_pure _
    | some data => exact (above_issue (by trivial)).bind fun _ => ih _

structure Released (w : World) : Prop where
  semaphore : w.semTaken = false
  lock : w.unlocked = false
  activity : w.activity = 0

theorem Restored.released {t : World} (restored : Restored w t) (released : Released w) :
    Released t :=
  ⟨restored.semaphore, restored.lock, restored.activity.trans released.activity⟩

theorem released_appZigbeeNvmRead (released : Released w) :
    Released (run (handle env) appZigbeeNvmRead w).2 := by
  have kept : ∀ (c : Call) (t : World), Above c → t.semTaken = false ∧ t.activity = 0 →
      (handle env c t).2.semTaken = false ∧ (handle env c t).2.activity = 0 := by
    intro c t above held
    cases c with
    | read _ | getVar | setVar _ | getCache _ | setCache _ _ | enter _ | leave _ => exact held
    | _ => exact above.elim
  apply wp_run (P := fun _ _ => True) (R := fun _ t => Released t)
  simp only [appZigbeeNvmRead, wp_bind, wp_halFlashUnlock, true_and]
  refine wp_post ((above_eeeRead _).keeps kept ?_) ?_
  · exact ⟨released.semaphore, released.activity⟩
  intro found t held
  cases found with
  | none => exact ⟨trivial, held.1, rfl, held.2⟩
  | some length =>
    simp only [wp_bind, wp_setCache, true_and]
    split
    · exact ⟨trivial, held.1, rfl, held.2⟩
    · rw [wp_bind]
      refine wp_post ((above_readLoop _ _).keeps kept ?_) ?_
      · exact held
      intro status u held
      exact ⟨trivial, held.1, rfl, held.2⟩

/-- The worlds between the calls of the persistence layer from a power-up on, as long as
every call is granted. The stack may change the cache between two calls. -/
inductive Served (env : Env) : World → Prop
  | boot (mem : Memory) : Served env (powerUp mem)
  | cached {w : World} (cache : Nat → Data) (served : Served env w) :
      Served env { w with cache := cache }
  | read {w : World} (served : Served env w) :
      Served env (run (handle env) appZigbeeNvmRead w).2
  | init {w : World} (served : Served env w)
      (granted : Granted (requests env appZigbeeNvmInit w) w) :
      Served env (run (handle env) appZigbeeNvmInit w).2
  | write {w : World} (served : Served env w)
      (granted : Granted (requests env appZigbeeNvmWrite w) w) :
      Served env (run (handle env) appZigbeeNvmWrite w).2
  | erase {w : World} (served : Served env w)
      (granted : Granted (requests env appZigbeeNvmErase w) w) :
      Served env (run (handle env) appZigbeeNvmErase w).2
  | clean {w : World} (served : Served env w)
      (granted : Granted (requests env eeeClean w) w) :
      Served env (run (handle env) eeeClean w).2

theorem Served.released (served : Served env w) : Released w := by
  induction served with
  | boot mem => exact ⟨rfl, rfl, rfl⟩
  | cached cache served ih => exact ⟨ih.semaphore, ih.lock, ih.activity⟩
  | read served ih => exact released_appZigbeeNvmRead ih
  | init served granted ih =>
    exact ((restored_iff accounted_appZigbeeNvmInit).mpr granted).released ih
  | write served granted ih =>
    exact ((restored_iff accounted_appZigbeeNvmWrite).mpr granted).released ih
  | erase served granted ih =>
    exact ((restored_iff accounted_appZigbeeNvmErase).mpr granted).released ih
  | clean served granted ih => exact ((restored_iff accounted_eeeClean).mpr granted).released ih

end Baelux.Nvm

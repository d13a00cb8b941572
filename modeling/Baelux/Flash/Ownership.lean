import Baelux.Flash.Driver

/-! Who owns the flash: a request to the driver takes the semaphore, unlocks the flash
and, for an erase, notifies the other core. What a refused request leaves behind. -/

namespace Baelux.Flash

open Effect

/-- One call of `FD_EraseSectors` or of `FD_WriteData`, and whether a core refused it. -/
structure Request where
  type : FlashOperationType
  refused : Bool
  deriving DecidableEq, Repr

/-- The requests so far, the last one first. A request is what follows the taking of the
semaphore; it is refused if one of its protection checks finds the flash blocked. -/
def note (env : Env) : Call → World → List Request → List Request
  | .hsemLock, _, earlier => ⟨.flashWrite, false⟩ :: earlier
  | .eraseActivity true, _, ⟨_, refused⟩ :: earlier => ⟨.flashErase, refused⟩ :: earlier
  | .cpu1Status, w, ⟨type, refused⟩ :: earlier =>
      ⟨type, refused || !(env w.clock).cpu1Free⟩ :: earlier
  | .cpu2Lock, w, ⟨type, refused⟩ :: earlier =>
      ⟨type, refused || !(env w.clock).cpu2Free⟩ :: earlier
  | _, _, earlier => earlier

abbrev Noted := World × List Request

abbrev noted (env : Env) : Handler storage Noted := watched (handle env) (note env)

def requests {α : Type} (env : Env) (program : Storage α) (w : World) : List Request :=
  (run (noted env) program (w, [])).2.2

def Request.refusedErase (request : Request) : Bool :=
  request.refused && decide (request.type = .flashErase)

def raised (before : Bool) : List Request → Bool
  | [] => before
  | last :: _ => last.refused

theorem raised_append (before : Bool) (later earlier : List Request) :
    raised before (later ++ earlier) = raised (raised before earlier) later := by
  cases later with
  | nil => rfl
  | cons last rest => rfl

structure Requested (new : List Request) (s t : Noted) : Prop where
  history : t.2 = new ++ s.2
  semaphore : t.1.semTaken = raised s.1.semTaken new
  lock : t.1.unlocked = raised s.1.unlocked new
  activity : t.1.activity = s.1.activity + new.countP Request.refusedErase

def Accounted (s t : Noted) : Prop := ∃ new, Requested new s t

theorem Requested.none {s t : Noted} (history : t.2 = s.2) (semaphore : t.1.semTaken = s.1.semTaken)
    (lock : t.1.unlocked = s.1.unlocked) (activity : t.1.activity = s.1.activity) :
    Requested [] s t where
  history := history
  semaphore := semaphore
  lock := lock
  activity := by simpa using activity

theorem Requested.append {first second : List Request} {s t u : Noted}
    (begins : Requested first s t) (ends : Requested second t u) :
    Requested (second ++ first) s u where
  history := by rw [ends.history, begins.history, List.append_assoc]
  semaphore := by rw [ends.semaphore, begins.semaphore, raised_append]
  lock := by rw [ends.lock, begins.lock, raised_append]
  activity := by
    rw [ends.activity, begins.activity, List.countP_append]
    push_cast
    omega

instance : IsPreorder Noted Accounted where
  refl s := ⟨[], Requested.none rfl rfl rfl rfl⟩
  trans s t u := by
    rintro ⟨first, begins⟩ ⟨second, ends⟩
    exact ⟨second ++ first, begins.append ends⟩

/-! ## The driver -/

structure Operated (request : Request) (earlier : List Request) (w : World)
    (status : SingleFlashOperationStatus) (t : Noted) : Prop where
  history : t.2 = ⟨request.type, request.refused || decide (status ≠ .done)⟩ :: earlier
  semaphore : t.1.semTaken = w.semTaken
  lock : t.1.unlocked = w.unlocked
  activity : t.1.activity = w.activity

variable {env : Env} {w : World} {request : Request} {earlier : List Request}

theorem operate_semTaken (moment : Moment) (mem : Memory) :
    (w.operate moment mem).semTaken = w.semTaken := by
  unfold World.operate
  split <;> rfl

theorem operate_unlocked (moment : Moment) (mem : Memory) :
    (w.operate moment mem).unlocked = w.unlocked := by
  unfold World.operate
  split <;> rfl

theorem operate_activity (moment : Moment) (mem : Memory) :
    (w.operate moment mem).activity = w.activity := by
  unfold World.operate
  split <;> rfl

abbrev Anyway : Call → Noted → Prop := fun _ _ => True

section Calls

variable {s : Noted} {R : Unit → Noted → Prop}

@[simp] theorem noted_hsemLock : wp (noted env) Anyway R hsemLock s ↔
    R () ({ s.1 with semTaken := true }, ⟨.flashWrite, false⟩ :: s.2) :=
  and_iff_right trivial

@[simp] theorem noted_hsemReleaseLock : wp (noted env) Anyway R hsemReleaseLock s ↔
    R () ({ s.1 with semTaken := false }, s.2) :=
  and_iff_right trivial

@[simp] theorem noted_halFlashUnlock : wp (noted env) Anyway R halFlashUnlock s ↔
    R () ({ s.1 with unlocked := true }, s.2) :=
  and_iff_right trivial

@[simp] theorem noted_halFlashLock : wp (noted env) Anyway R halFlashLock s ↔
    R () ({ s.1 with unlocked := false }, s.2) :=
  and_iff_right trivial

@[simp] theorem noted_eraseActivity (on : Bool) :
    wp (noted env) Anyway R (eraseActivity on) s ↔
      R () ({ s.1 with activity := s.1.activity + if on then 1 else -1 },
        note env (.eraseActivity on) s.1 s.2) :=
  and_iff_right trivial

@[simp] theorem noted_cpu1Status {R : Bool → Noted → Prop} :
    wp (noted env) Anyway R cpu1Status s ↔
      R (env s.1.clock).cpu1Free (s.1.tick, note env .cpu1Status s.1 s.2) :=
  and_iff_right trivial

@[simp] theorem noted_cpu2Lock {R : Bool → Noted → Prop} :
    wp (noted env) Anyway R cpu2Lock s ↔
      R (env s.1.clock).cpu2Free (s.1.tick, note env .cpu2Lock s.1 s.2) :=
  and_iff_right trivial

@[simp] theorem noted_cpu2ReleaseLock : wp (noted env) Anyway R cpu2ReleaseLock s ↔ R () s :=
  and_iff_right trivial

@[simp] theorem noted_halFlashErase (page : Nat) :
    wp (noted env) Anyway R (halFlashErase page) s ↔
      R () (s.1.operate (env s.1.clock) (pageErased s.1.mem page), s.2) :=
  and_iff_right trivial

@[simp] theorem noted_halFlashProgram (address : Nat) (data : Word) :
    wp (noted env) Anyway R (halFlashProgram address data) s ↔
      R () (s.1.operate (env s.1.clock) (programmed s.1.mem address data), s.2) :=
  and_iff_right trivial

end Calls

theorem operated_processSingleFlashOperation (type : FlashOperationType) (target : Nat)
    (data : Word) : wp (noted env) Anyway (Operated request earlier w)
      (processSingleFlashOperation type target data) (w, request :: earlier) := by
  simp only [processSingleFlashOperation, wp_bind, noted_cpu1Status, note]
  cases cpu1 : (env w.clock).cpu1Free with
  | false =>
    simp only [Bool.false_eq_true, ↓reduceIte, fdWaitForSemAvailable]
    exact ⟨by simp, rfl, rfl, rfl⟩
  | true =>
    simp only [↓reduceIte, wp_bind, noted_cpu2Lock, note]
    cases cpu2 : (env w.tick.clock).cpu2Free with
    | false =>
      simp only [Bool.false_eq_true, ↓reduceIte, fdWaitForSemAvailable]
      exact ⟨by simp, rfl, rfl, rfl⟩
    | true =>
      cases type with
      | flashErase =>
        simp only [↓reduceIte, wp_bind, noted_halFlashErase, noted_cpu2ReleaseLock, wp_pure]
        exact ⟨by simp, operate_semTaken _ _, operate_unlocked _ _, operate_activity _ _⟩
      | flashWrite =>
        simp only [↓reduceIte, wp_bind, noted_halFlashProgram, noted_cpu2ReleaseLock, wp_pure]
        exact ⟨by simp, operate_semTaken _ _, operate_unlocked _ _, operate_activity _ _⟩

theorem Operated.next {s t : Noted} {status : SingleFlashOperationStatus}
    (begins : Operated request earlier w .done s)
    (ends : Operated request earlier s.1 status t) : Operated request earlier w status t where
  history := ends.history
  semaphore := ends.semaphore.trans begins.semaphore
  lock := ends.lock.trans begins.lock
  activity := ends.activity.trans begins.activity

theorem Operated.done_history {s : Noted} (executed : Operated request earlier w .done s) :
    s = (s.1, request :: earlier) := by
  have unrefused : s.2 = request :: earlier := by simpa using executed.history
  rw [← unrefused]

theorem Operated.refl : Operated request earlier w .done (w, request :: earlier) where
  history := by simp
  semaphore := rfl
  lock := rfl
  activity := rfl

/-- The loops of both requests make one operation and stop unless it was executed. -/
private theorem operated_loop {type : FlashOperationType} {target : Nat} {data : Word}
    {stopped : Nat} {rest : Storage (SingleFlashOperationStatus × Nat)}
    (loop : ∀ w, wp (noted env) Anyway (fun out => Operated request earlier w out.1) rest
      (w, request :: earlier)) :
    wp (noted env) Anyway (fun out => Operated request earlier w out.1) (do
        let status ← processSingleFlashOperation type target data
        if status = .done then rest else pure (status, stopped))
      (w, request :: earlier) := by
  rw [wp_bind]
  apply wp_post (operated_processSingleFlashOperation type target data)
  intro status s operated
  cases status with
  | done =>
    simp only [↓reduceIte]
    rw [operated.done_history]
    apply wp_post (loop s.1)
    intro out t ends
    exact operated.next ends
  | notExecuted =>
    simp only [reduceCtorEq, ↓reduceIte]
    exact operated

private theorem operated_eraseLoop (firstSector remaining loopFlash : Nat) :
    wp (noted env) Anyway (fun out => Operated request earlier w out.1)
      (eraseLoop firstSector remaining loopFlash) (w, request :: earlier) := by
  induction remaining generalizing w loopFlash with
  | zero => exact Operated.refl
  | succ remaining ih => exact operated_loop fun w => ih _

private theorem operated_writeLoop (destAddress : Nat) (words : List Word) (loopFlash : Nat) :
    wp (noted env) Anyway (fun out => Operated request earlier w out.1)
      (writeLoop destAddress words loopFlash) (w, request :: earlier) := by
  induction words generalizing w loopFlash with
  | nil => exact Operated.refl
  | cons data rest ih => exact operated_loop fun w => ih _

theorem accounted_fdEraseSectors (firstSector nbrOfSectors : Nat) :
    Moves (noted env) Accounted (fdEraseSectors firstSector nbrOfSectors) := by
  intro holds
  rcases holds with ⟨w, earlier⟩
  apply wp_run (P := Anyway) (R := fun _ t => Accounted (w, earlier) t)
  simp only [fdEraseSectors, wp_bind, noted_hsemLock, noted_halFlashUnlock, noted_eraseActivity,
    note]
  apply wp_post (operated_eraseLoop _ _ _)
  rintro ⟨status, loopFlash⟩ s operated
  cases status with
  | done =>
    simp only [ne_eq, not_true_eq_false, ↓reduceIte, wp_bind, noted_eraseActivity,
      noted_halFlashLock, noted_hsemReleaseLock, wp_pure, note]
    refine ⟨[⟨.flashErase, false⟩], ?_, rfl, rfl, ?_⟩
    · simpa using operated.history
    · have pending : s.1.activity = w.activity + 1 := operated.activity
      calc s.1.activity + -1 = w.activity := by omega
        _ = w.activity + ([⟨.flashErase, false⟩] : List Request).countP Request.refusedErase := by
            simp [Request.refusedErase]
  | notExecuted =>
    simp only [ne_eq, reduceCtorEq, not_false_eq_true, ↓reduceIte, wp_pure]
    refine ⟨[⟨.flashErase, true⟩], ?_, operated.semaphore, operated.lock, ?_⟩
    · simpa using operated.history
    · simp [operated.activity, Request.refusedErase]

theorem accounted_fdWriteData (destAddress : Nat) (srcBuffer : List Word) :
    Moves (noted env) Accounted (fdWriteData destAddress srcBuffer) := by
  intro holds
  rcases holds with ⟨w, earlier⟩
  apply wp_run (P := Anyway) (R := fun _ t => Accounted (w, earlier) t)
  simp only [fdWriteData, wp_bind, noted_hsemLock, noted_halFlashUnlock]
  apply wp_post (operated_writeLoop _ _ _)
  rintro ⟨status, loopFlash⟩ s operated
  cases status with
  | done =>
    simp only [ne_eq, not_true_eq_false, ↓reduceIte, wp_bind, noted_halFlashLock,
      noted_hsemReleaseLock, wp_pure]
    refine ⟨[⟨.flashWrite, false⟩], ?_, rfl, rfl, ?_⟩
    · simpa using operated.history
    · simp [operated.activity, Request.refusedErase]
  | notExecuted =>
    simp only [ne_eq, reduceCtorEq, not_false_eq_true, ↓reduceIte, wp_pure]
    refine ⟨[⟨.flashWrite, true⟩], ?_, operated.semaphore, operated.lock, ?_⟩
    · simpa using operated.history
    · simp [operated.activity, Request.refusedErase]

/-! ## Calls that are no part of a request -/

def Above : Call → Prop
  | .read _ | .getVar | .setVar _ | .getCache _ | .setCache _ _ | .enter _ | .leave _ => True
  | _ => False

theorem accounted_issue {c : Call} (above : Above c) : Moves (noted env) Accounted (issue c) := by
  intro s
  refine ⟨[], ?_⟩
  cases c with
  | read _ | getVar | setVar _ | getCache _ | setCache _ _ | enter _ | leave _ =>
    exact Requested.none rfl rfl rfl rfl
  | _ => exact above.elim

end Baelux.Flash

import Baelux.Flash.Device

/-! The dual-core flash driver: each operation is executed only while neither
core protects its timing, and a refusal is reported to the caller. -/

namespace Baelux.Flash

open Effect

inductive FlashOperationType where
  | flashErase
  | flashWrite
  deriving DecidableEq, Repr

inductive SingleFlashOperationStatus where
  | done
  | notExecuted
  deriving DecidableEq, Repr

inductive WaitedSemStatus where
  | busy
  | free
  deriving DecidableEq, Repr

inductive WaitedSemId where
  | blockFlashReqByCpu1
  | blockFlashReqByCpu2
  deriving DecidableEq, Repr

/-- The weak default, which no other file of the build overrides. -/
def fdWaitForSemAvailable (_ : WaitedSemId) : WaitedSemStatus := .busy

def processSingleFlashOperation (flashOperationType : FlashOperationType)
    (sectorNumberOrDestAddress : Nat) (data : Word) : Storage SingleFlashOperationStatus := do
  let cpu1Free ← cpu1Status
  if cpu1Free then
    let cpu2Free ← cpu2Lock
    if cpu2Free then
      match flashOperationType with
      | .flashErase => halFlashErase sectorNumberOrDestAddress
      | .flashWrite => halFlashProgram sectorNumberOrDestAddress data
      -- the status that the HAL returns is dropped here
      cpu2ReleaseLock
      pure .done
    else waited (fdWaitForSemAvailable .blockFlashReqByCpu2)
  else waited (fdWaitForSemAvailable .blockFlashReqByCpu1)
where
  -- the do-while loop would turn again on WAITED_SEM_FREE, which is never answered
  waited : WaitedSemStatus → Storage SingleFlashOperationStatus
    | .busy => pure .notExecuted
    | .free => pure .done

def fdEraseSingleSector (sectorNumber : Nat) : Storage SingleFlashOperationStatus :=
  processSingleFlashOperation .flashErase sectorNumber 0

def fdWriteSingleData (destAddress : Nat) (data : Word) : Storage SingleFlashOperationStatus :=
  processSingleFlashOperation .flashWrite destAddress data

def eraseLoop (firstSector : Nat) : Nat → Nat → Storage (SingleFlashOperationStatus × Nat)
  | 0, loopFlash => pure (.done, loopFlash)
  | remaining + 1, loopFlash => do
      let status ← fdEraseSingleSector (firstSector + loopFlash)
      if status = .done then eraseLoop firstSector remaining (loopFlash + 1)
      else pure (status, loopFlash + 1)

def fdEraseSectors (firstSector nbrOfSectors : Nat) : Storage Nat := do
  hsemLock
  halFlashUnlock
  eraseActivity true
  let (status, loopFlash) ← eraseLoop firstSector nbrOfSectors 0
  if status ≠ .done then
    pure (nbrOfSectors - loopFlash + 1)
  else
    eraseActivity false
    halFlashLock
    hsemReleaseLock
    pure 0

def writeLoop (destAddress : Nat) :
    List Word → Nat → Storage (SingleFlashOperationStatus × Nat)
  | [], loopFlash => pure (.done, loopFlash)
  | data :: rest, loopFlash => do
      let status ← fdWriteSingleData (destAddress + 8 * loopFlash) data
      if status = .done then writeLoop destAddress rest (loopFlash + 1)
      else pure (status, loopFlash + 1)

def fdWriteData (destAddress : Nat) (srcBuffer : List Word) : Storage Nat := do
  hsemLock
  halFlashUnlock
  let (status, loopFlash) ← writeLoop destAddress srcBuffer 0
  if status ≠ .done then
    pure (srcBuffer.length - loopFlash + 1)
  else
    halFlashLock
    hsemReleaseLock
    pure 0

/-! ## What the driver does when the operations it executes work -/

/-- An obligation on the flash content a reset would find. -/
def Crash (Q : Memory → Prop) : Call → World → Prop := fun _ w => Q w.mem

structure SameRam (w t : World) : Prop where
  var : t.var = w.var
  cache : t.cache = w.cache

variable {env : Env} {Q : Memory → Prop} {w : World}

private theorem operated (honest : Honest env) (unlocked : w.unlocked = true) (mem : Memory) :
    w.operate (env w.clock) mem = { w.tick with mem := mem } := by
  simp [World.operate, unlocked, honest w.clock]

def executed (env : Env) (time : Nat) : Bool := (env time).cpu1Free && (env (time + 1)).cpu2Free

def ending (env : Env) (time : Nat) : Nat :=
  if executed env time then time + 3 else if (env time).cpu1Free then time + 2 else time + 1

theorem executed_of_free (free : Free env) (time : Nat) : executed env time = true := by
  rw [executed, (free time).1, (free (time + 1)).2, Bool.and_self]

theorem ending_executed {time : Nat} (done : executed env time = true) : ending env time = time + 3 :=
  if_pos done

theorem wp_operation {R : SingleFlashOperationStatus → World → Prop}
    (honest : Honest env) (unlocked : w.unlocked = true) (type : FlashOperationType)
    (target : Nat) (data : Word) (mem : Memory)
    (effect : mem = match type with
      | .flashErase => pageErased w.mem target
      | .flashWrite => programmed w.mem target data)
    (before : Q w.mem) (after : Q mem)
    (done : executed env w.clock = true → ∀ t, t.mem = mem → SameRam w t → t.unlocked = true →
      t.clock = ending env w.clock → R .done t)
    (refused : executed env w.clock = false → ∀ t, t.mem = w.mem → SameRam w t →
      t.clock = ending env w.clock → R .notExecuted t) :
    wp (handle env) (Crash Q) R (processSingleFlashOperation type target data) w := by
  simp only [processSingleFlashOperation, wp_bind, wp_cpu1Status]
  refine ⟨before, ?_⟩
  cases cpu1 : (env w.clock).cpu1Free with
  | false =>
      have not_executed : executed env w.clock = false := by rw [executed, cpu1, Bool.false_and]
      simp only [Bool.false_eq_true, ↓reduceIte, fdWaitForSemAvailable]
      refine refused not_executed w.tick rfl ⟨rfl, rfl⟩ ?_
      simp [ending, not_executed, cpu1, World.tick]
  | true =>
      simp only [↓reduceIte, wp_bind, wp_cpu2Lock]
      refine ⟨before, ?_⟩
      cases cpu2 : (env w.tick.clock).cpu2Free with
      | false =>
          have not_executed : executed env w.clock = false := by
            have later : (env (w.clock + 1)).cpu2Free = false := cpu2
            rw [executed, later, Bool.and_false]
          simp only [Bool.false_eq_true, ↓reduceIte, fdWaitForSemAvailable]
          refine refused not_executed w.tick.tick rfl ⟨rfl, rfl⟩ ?_
          simp [ending, not_executed, cpu1, World.tick]
      | true =>
          have all : executed env w.clock = true := by
            have later : (env (w.clock + 1)).cpu2Free = true := cpu2
            rw [executed, cpu1, later, Bool.and_self]
          have step := operated honest (w := w.tick.tick) unlocked mem
          cases type with
          | flashErase =>
              subst effect
              simp only [↓reduceIte, wp_bind, wp_halFlashErase, wp_cpu2ReleaseLock, wp_pure]
              simp only [World.tick] at step ⊢
              rw [step]
              exact ⟨before, after, done all _ rfl ⟨rfl, rfl⟩ unlocked (ending_executed all).symm⟩
          | flashWrite =>
              subst effect
              simp only [↓reduceIte, wp_bind, wp_halFlashProgram, wp_cpu2ReleaseLock, wp_pure]
              simp only [World.tick] at step ⊢
              rw [step]
              exact ⟨before, after, done all _ rfl ⟨rfl, rfl⟩ unlocked (ending_executed all).symm⟩

theorem wp_processSingleFlashOperation {R : SingleFlashOperationStatus → World → Prop}
    (honest : Honest env) (unlocked : w.unlocked = true) (type : FlashOperationType)
    (target : Nat) (data : Word) (mem : Memory)
    (effect : mem = match type with
      | .flashErase => pageErased w.mem target
      | .flashWrite => programmed w.mem target data)
    (before : Q w.mem) (after : Q mem)
    (executed : ∀ t, t.mem = mem → SameRam w t → t.unlocked = true → R .done t)
    (refused : ¬ Free env → ∀ t, t.mem = w.mem → SameRam w t → R .notExecuted t) :
    wp (handle env) (Crash Q) R (processSingleFlashOperation type target data) w := by
  refine wp_operation honest unlocked type target data mem effect before after ?_ ?_
  · exact fun _ t content ram unlocked _ => executed t content ram unlocked
  · intro not_executed t same ram _
    refine refused (fun free => ?_) t same ram
    rw [executed_of_free free] at not_executed
    cases not_executed

theorem wp_fdWriteData_timed {R : Nat → World → Prop} (honest : Honest env) (address : Nat)
    (data : Word)
    (written : executed env w.clock = true → ∀ t, t.mem = programmed w.mem address data →
      SameRam w t → t.clock = ending env w.clock → R 0 t)
    (refused : executed env w.clock = false → ∀ t, t.mem = w.mem → SameRam w t →
      t.clock = ending env w.clock → R 1 t) :
    wp (handle env) (Crash fun _ => True) R (fdWriteData address [data]) w := by
  simp only [fdWriteData, writeLoop, wp_bind, wp_hsemLock, wp_halFlashUnlock]
  refine ⟨trivial, trivial, ?_⟩
  refine wp_operation honest rfl .flashWrite (address + 8 * 0) data
    (programmed w.mem address data) (by simp) trivial trivial ?_ ?_
  · intro done t mem ram _ time
    simp only [↓reduceIte, wp_pure, ne_eq, not_true_eq_false, wp_bind, wp_halFlashLock,
      wp_hsemReleaseLock, Crash]
    exact ⟨trivial, trivial, written done _ mem ⟨ram.var, ram.cache⟩ time⟩
  · intro not_executed t mem ram time
    exact refused not_executed t mem ⟨ram.var, ram.cache⟩ time

theorem wp_fdEraseSectors_timed {R : Nat → World → Prop} (honest : Honest env) (first : Nat)
    (erased : executed env w.clock = true → ∀ t, t.mem = pageErased w.mem first → SameRam w t →
      t.clock = ending env w.clock → R 0 t)
    (refused : executed env w.clock = false → ∀ t, t.mem = w.mem → SameRam w t →
      t.clock = ending env w.clock → R 1 t) :
    wp (handle env) (Crash fun _ => True) R (fdEraseSectors first 1) w := by
  simp only [fdEraseSectors, eraseLoop, fdEraseSingleSector, wp_bind, wp_hsemLock,
    wp_halFlashUnlock, wp_eraseActivity]
  refine ⟨trivial, trivial, trivial, ?_⟩
  refine wp_operation honest rfl .flashErase (first + 0) 0 (pageErased w.mem first) rfl
    trivial trivial ?_ ?_
  · intro done t mem ram _ time
    simp only [↓reduceIte, wp_pure, ne_eq, not_true_eq_false, wp_bind, wp_eraseActivity,
      wp_halFlashLock, wp_hsemReleaseLock, Crash]
    exact ⟨trivial, trivial, trivial, erased done _ mem ⟨ram.var, ram.cache⟩ time⟩
  · intro not_executed t mem ram time
    exact refused not_executed t mem ⟨ram.var, ram.cache⟩ time

/-- Writing one double word: it is programmed, or a core refuses and nothing happens. -/
theorem wp_fdWriteData {R : Nat → World → Prop} (honest : Honest env) (address : Nat) (data : Word)
    (before : Q w.mem) (after : Q (programmed w.mem address data))
    (written : ∀ t, t.mem = programmed w.mem address data → SameRam w t → R 0 t)
    (refused : ¬ Free env → ∀ t, t.mem = w.mem → SameRam w t → R 1 t) :
    wp (handle env) (Crash Q) R (fdWriteData address [data]) w := by
  simp only [fdWriteData, writeLoop, wp_bind, wp_hsemLock, wp_halFlashUnlock]
  refine ⟨before, before, ?_⟩
  refine wp_processSingleFlashOperation honest rfl .flashWrite (address + 8 * 0) data
    (programmed w.mem address data) (by simp) before after ?_ ?_
  · intro t mem ram _
    simp only [↓reduceIte, wp_pure, ne_eq, not_true_eq_false, wp_bind, wp_halFlashLock,
      wp_hsemReleaseLock, Crash]
    rw [mem]
    exact ⟨after, after, written _ rfl ⟨ram.var, ram.cache⟩⟩
  · intro busy t mem ram
    exact refused busy t mem ⟨ram.var, ram.cache⟩

def erasedPages (mem : Memory) (first count : Nat) : Memory := fun address =>
  if hwFlashAddress + first * hwFlashPageSize ≤ address ∧
      address < hwFlashAddress + (first + count) * hwFlashPageSize then eeErased
  else mem address

theorem erasedPages_zero (mem : Memory) (first : Nat) : erasedPages mem first 0 = mem := by
  funext address
  rw [erasedPages, if_neg]
  rw [Nat.add_zero]
  omega

theorem erasedPages_succ (mem : Memory) (first count : Nat) :
    pageErased (erasedPages mem first count) (first + count) =
      erasedPages mem first (count + 1) := by
  funext address
  have whole : (first + (count + 1)) * hwFlashPageSize =
      (first + count) * hwFlashPageSize + hwFlashPageSize := Nat.succ_mul _ _
  have last : (first + count + 1) * hwFlashPageSize =
      (first + count) * hwFlashPageSize + hwFlashPageSize := Nat.succ_mul _ _
  have order : first * hwFlashPageSize ≤ (first + count) * hwFlashPageSize :=
    Nat.mul_le_mul_right _ (Nat.le_add_right _ _)
  unfold pageErased erasedPages
  rw [whole, last]
  by_cases present : hwFlashAddress + first * hwFlashPageSize ≤ address ∧
      address < hwFlashAddress + ((first + count) * hwFlashPageSize + hwFlashPageSize)
  · rw [if_pos present]
    split
    · rfl
    · exact if_pos (by omega)
  · rw [if_neg present, if_neg (by omega), if_neg (by omega)]

private theorem wp_eraseLoop {R : SingleFlashOperationStatus × Nat → World → Prop}
    (honest : Honest env) (first count : Nat) (mem : Memory)
    (crash : ∀ k ≤ count, Q (erasedPages mem first k)) (remaining loopFlash : Nat)
    (reach : loopFlash + remaining = count)
    (unlocked : w.unlocked = true) (content : w.mem = erasedPages mem first loopFlash)
    (erased : ∀ t, t.mem = erasedPages mem first count → SameRam w t → R (.done, count) t)
    (refused : ¬ Free env → ∀ k < count, ∀ t, t.mem = erasedPages mem first k →
      SameRam w t → R (.notExecuted, k + 1) t) :
    wp (handle env) (Crash Q) R (eraseLoop first remaining loopFlash) w := by
  induction remaining generalizing w loopFlash with
  | zero =>
      obtain rfl : loopFlash = count := by omega
      exact erased w content ⟨rfl, rfl⟩
  | succ remaining ih =>
      simp only [eraseLoop, wp_bind, fdEraseSingleSector]
      refine wp_processSingleFlashOperation honest unlocked .flashErase _ 0
        (erasedPages mem first (loopFlash + 1)) ?_ ?_ (crash _ (by omega)) ?_ ?_
      · simp only [content, erasedPages_succ]
      · rw [content]
        exact crash _ (by omega)
      · intro t after ram open_
        simp only [↓reduceIte]
        refine ih (loopFlash + 1) (by omega) open_ after ?_ ?_
        · intro u final same
          exact erased u final ⟨same.var.trans ram.var, same.cache.trans ram.cache⟩
        · intro busy k bound u final same
          exact refused busy k bound u final ⟨same.var.trans ram.var, same.cache.trans ram.cache⟩
      · intro busy t same ram
        simp only [reduceCtorEq, ↓reduceIte, wp_pure]
        exact refused busy loopFlash (by omega) t (same.trans content) ram

/-- Erasing goes page by page and stops at the first page a core refuses. -/
theorem wp_fdEraseSectors {R : Nat → World → Prop} (honest : Honest env) (first count : Nat)
    (crash : ∀ k ≤ count, Q (erasedPages w.mem first k))
    (erased : ∀ t, t.mem = erasedPages w.mem first count → SameRam w t → R 0 t)
    (refused : ¬ Free env → ∀ k < count, ∀ value, value ≠ 0 → ∀ t,
      t.mem = erasedPages w.mem first k → SameRam w t → R value t) :
    wp (handle env) (Crash Q) R (fdEraseSectors first count) w := by
  have start : Q w.mem := erasedPages_zero w.mem first ▸ crash 0 (Nat.zero_le _)
  simp only [fdEraseSectors, wp_bind, wp_hsemLock, wp_halFlashUnlock, wp_eraseActivity]
  refine ⟨start, start, start, ?_⟩
  refine wp_eraseLoop honest first count w.mem crash count 0 (Nat.zero_add _) rfl
    (erasedPages_zero w.mem first).symm ?_ ?_
  · intro t after ram
    simp only [ne_eq, not_true_eq_false, ↓reduceIte, wp_bind, wp_eraseActivity, wp_halFlashLock,
      wp_hsemReleaseLock, wp_pure, Crash]
    rw [after]
    have final := crash count (Nat.le_refl _)
    exact ⟨final, final, final, erased _ rfl ⟨ram.var, ram.cache⟩⟩
  · intro busy k bound t after ram
    simp only [ne_eq, reduceCtorEq, not_false_eq_true, ↓reduceIte, wp_pure]
    exact refused busy k bound _ (by omega) t after ⟨ram.var, ram.cache⟩

end Baelux.Flash

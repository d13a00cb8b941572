import Baelux.Eeprom.Mounting
import Baelux.Nvm.ResetRecovery

/-! `EEE_Write` with `CFG_EE_AUTO_CLEAN` set to 1: it ends with `EE_Clean`, the function of the
middleware, which keeps a bank of its own and never sees the pool that was left behind. -/

namespace Baelux.Nvm

open Effect Flash Eeprom

/-- `EE_var[0]` of the middleware: nothing calls its `EE_Init`. -/
def eeVar : EeVar := ⟨0, 0, 0, 0, 0⟩

def hwEraseLoop (page : Nat) : Nat → Nat → Storage Unit
  | 0, _ => pure ()
  | remaining + 1, loop => do
      halFlashErase (page + loop)
      hwEraseLoop page remaining (loop + 1)

def hwFlashErase (page n : Nat) : Storage Nat := do
  halFlashUnlock
  hwEraseLoop page n 0
  halFlashLock
  pure 0

/-- `EE_Clean` of the middleware. -/
def eeClean : Storage Status := do
  let page := eeVar.nextPool
  let state ← getStateLoop [.erasing, .valid, .active, .receive]
    (eeVar.flashAddr page + eeHeaderSize)
  if state ≠ .erasing then pure .stateError
  else
    let failed ← hwFlashErase (eeVar.flashPage page) eeVar.nbPages
    if failed ≠ 0 then pure .eraseError else pure .ok

/-- `EEE_Write` in a full pool, with `CFG_EE_AUTO_CLEAN` 1. -/
def changePoolAutoClean (addr : Nat) (data : Data) : Storage Status := do
  let pv ← getVar
  let page := pv.nextPool
  let state ← eeGetState page
  if state ≠ .erased then pure .stateError
  else
    let status ← eeSetState page .receive
    if status ≠ .ok then pure .writeError
    else
      setVar { pv with
        currentWritePage := page
        nbWrittenElements := 0
        nextWriteOffset := eeHeaderSize }
      let status ← eeWriteEl addr data
      if status ≠ .ok then pure .writeError
      else
        let status ← eeTransfer addr page
        if status ≠ .ok then pure .writeError else eeClean

/-- `EEE_Write` with `CFG_EE_AUTO_CLEAN` 1. -/
def eeeWriteAutoClean (addr : Nat) (data : Data) : Storage Status :=
  traced (.eeeWrite addr data) do
    let pv ← getVar
    if pv.nbWrittenElements < eeNbMaxElt * pv.nbPages then eeWriteEl addr data
    else changePoolAutoClean addr data

/-- `EEE_Write` with `CFG_EE_AUTO_CLEAN` 0, and `EEE_Clean` whenever it asks for it. -/
def eeeWriteThenClean (addr : Nat) (data : Data) : Storage Status := do
  let status ← eeeWrite addr data
  if status = .cleanNeeded then eeeClean else pure status

/-- The flash, `EEE_var` and every later read are the same, and both succeed or both fail. -/
structure CleansAlike (env : Env) (w : World) (addr : Nat) (data : Data) : Prop where
  mem : (run (handle env) (eeeWriteAutoClean addr data) w).2.mem =
    (run (handle env) (eeeWriteThenClean addr data) w).2.mem
  var : (run (handle env) (eeeWriteAutoClean addr data) w).2.var =
    (run (handle env) (eeeWriteThenClean addr data) w).2.var
  reads : ∀ later a,
    (run (handle later) (eeeRead a) (run (handle env) (eeeWriteAutoClean addr data) w).2).1 =
      (run (handle later) (eeeRead a) (run (handle env) (eeeWriteThenClean addr data) w).2).1
  success : (run (handle env) (eeeWriteAutoClean addr data) w).1 = .ok ↔
    (run (handle env) (eeeWriteThenClean addr data) w).1 = .ok

def Transfers (env : Env) (w : World) (addr : Nat) (data : Data) : Prop :=
  Full w ∧ (run (handle env) (changePool addr data) w).1 = .cleanNeeded

variable {env : Env} {w : World} {addr : Nat} {data : Data} {b : Bank}

/-! ## The two variants -/

private def autoCleaned (status : Status) : Storage Status :=
  if status = .cleanNeeded then eeClean else pure status

theorem changePoolAutoClean_eq :
    changePoolAutoClean addr data = changePool addr data >>= autoCleaned := by
  have early : ∀ (status : Status) {rest : Storage Status} {c : Prop} [Decidable c],
      status ≠ .cleanNeeded → (if c then pure status else rest) >>= autoCleaned =
        if c then pure status else rest >>= autoCleaned := by
    intro status rest c _ other
    split
    · exact if_neg other
    · rfl
  have later : ∀ {α : Type} (program : Storage α) (rest : α → Storage Status),
      (program >>= rest) >>= autoCleaned = program >>= fun value => rest value >>= autoCleaned :=
    fun program rest => Prog.bind_assoc program rest autoCleaned
  simp only [changePoolAutoClean, changePool, later, early .stateError (by decide),
    early .writeError (by decide)]
  rfl

/-! ## A pool change -/

/-- With the other pool erased, only a refused operation keeps the change from its end. -/
theorem changePool_completes (mounted : Mounted b w.var)
    (erased : pageState w.mem (w.var.flashAddr w.var.nextPool) = .erased) :
    Completes env (run (handle env) (changePool addr data) w).1 := by
  have ends : wp (handle env) (fun _ _ => True) (fun status t => Mounted b t.var ∧
      Completes env status) (changePool addr data) w := by
    rw [changePool, wp_bind, wp_getVar]
    refine ⟨trivial, ?_⟩
    rw [wp_bind]
    apply wp_eeGetState trivial fun _ _ => trivial
    rw [if_neg (not_not_intro erased)]
    exact keeping_receivePool mounted addr data w mounted
  exact (wp_run ends).2

/-! ## The two cleans -/

theorem nonblank_kept {α : Type} (program : Storage α) {a : Nat} (low : a < hwFlashAddress)
    (nonblank : w.mem a ≠ eeErased) : (run (handle env) program w).2.mem a ≠ eeErased := by
  have operated : ∀ (t : World) (moment : Moment) (mem : Memory), t.mem a ≠ eeErased →
      mem a ≠ eeErased → (t.operate moment mem).mem a ≠ eeErased := by
    intro t moment mem before after
    unfold World.operate
    split
    · exact after
    · exact before
  have kept : ∀ (c : Call) (t : World), True → t.mem a ≠ eeErased →
      (handle env c t).2.mem a ≠ eeErased := by
    intro c t _ before
    cases c with
    | halFlashProgram address word => exact operated t _ _ before (programmed_nonblank before)
    | halFlashErase page =>
      apply operated t _ _ before
      rw [pageErased_outside (Or.inl (Nat.lt_of_lt_of_le low (Nat.le_add_right ..)))]
      exact before
    | _ => exact before
  exact wp_run ((Prog.only_anything program).keeps
    (I := fun t : World => t.mem a ≠ eeErased) kept nonblank)

/-- `EE_Clean` of the middleware takes the vector table at address 0 for a page to be erased,
and erases none. -/
theorem run_eeClean (vectors : w.mem 24 ≠ eeErased) :
    run (handle env) eeClean w = (.ok, { w with unlocked := false }) := by
  have first : run (handle env) (getStateLoop [.erasing, .valid, .active, .receive]
      (eeVar.flashAddr eeVar.nextPool + eeHeaderSize)) w = (.erasing, w) := by
    have header : eeVar.flashAddr eeVar.nextPool + eeHeaderSize - hwFlashWidth = 24 := by decide
    have loop : run (handle env) (readWord 24) w = (w.mem 24, w) := rfl
    rw [getStateLoop, header, run_bind, loop, if_pos vectors]
    rfl
  rw [eeClean, run_bind, first]
  rfl

theorem erasing_header {mem : Memory} {page : Nat} (erasing : pageState mem page = .erasing) :
    mem (page + 24) ≠ eeErased := by
  intro blank
  unfold pageState at erasing
  rw [if_neg (not_not_intro blank)] at erasing
  split at erasing
  · cases erasing
  split at erasing
  · cases erasing
  split at erasing <;> cases erasing

theorem eeeClean_cleans (honest : Honest env) (mounted : Mounted b w.var) :
    (run (handle env) eeeClean w).1 ≠ .ok ∨ (run (handle env) eeeClean w).2.mem ≠ w.mem := by
  have cleans : wp (handle env) (Crash fun _ => True)
      (fun status t => status ≠ .ok ∨ t.mem ≠ w.mem) eeeClean w := by
    rw [eeeClean, wp_traced, wp_bind, wp_getVar]
    refine ⟨trivial, trivial, ?_⟩
    rw [wp_bind]
    apply wp_eeGetState trivial fun _ _ => trivial
    by_cases erasing : pageState w.mem (w.var.flashAddr w.var.nextPool) = .erasing
    · have header := erasing_header erasing
      rw [if_neg (not_not_intro erasing), wp_bind]
      apply wp_fdEraseSectors honest _ _ fun _ _ => trivial
      · intro t erased _
        refine ⟨trivial, Or.inr ?_⟩
        intro same
        apply header
        rw [← same, erased, mounted.flashAddr, mounted.flashPage, mounted.nbPages]
        have pos := b.pos
        apply erasedPages_inside (Nat.le_add_right _ _)
        rw [Bank.page_eq, Bank.page_eq]
        omega
      · intro _ k _ value failed t _ _
        rw [if_pos failed]
        exact ⟨trivial, Or.inl (by decide)⟩
    · rw [if_pos erasing]
      exact ⟨trivial, Or.inl (by decide)⟩
  exact wp_run cleans

/-! ## When the variants agree -/

theorem eeWriteEl_status : (run (handle env) (eeWriteEl addr data) w).1 ≠ .cleanNeeded := by
  have storing : ∀ t, (run (handle env) (storeElement addr data) t).1 ≠ .cleanNeeded := by
    intro t
    simp only [storeElement, run_bind]
    split <;> simp
  simp only [eeWriteEl, run_bind]
  split
  · simp only [run_bind]
    split
    · simp
    · exact storing _
  · exact storing _

section Agreement

theorem run_eeeWriteAutoClean : run (handle env) (eeeWriteAutoClean addr data) w =
    if w.var.nbWrittenElements < eeNbMaxElt * w.var.nbPages then
      run (handle env) (eeWriteEl addr data) w
    else run (handle env) (changePool addr data >>= autoCleaned) w := by
  rw [eeeWriteAutoClean, run_traced, run_bind, changePoolAutoClean_eq]
  exact apply_ite (fun program => run (handle env) program w) _ _ _

/-- Both variants do the same until a transfer is complete. -/
theorem alike_unless_transfers (addr : Nat) (data : Data)
    (no_transfer : ¬ Transfers env w addr data) : CleansAlike env w addr data := by
  have same : run (handle env) (eeeWriteAutoClean addr data) w =
      run (handle env) (eeeWriteThenClean addr data) w := by
    rw [eeeWriteThenClean, run_bind, run_eeeWriteAutoClean, run_eeeWrite]
    by_cases room : w.var.nbWrittenElements < eeNbMaxElt * w.var.nbPages
    · simp only [if_pos room, if_neg eeWriteEl_status, run_pure]
    · have refused : (run (handle env) (changePool addr data) w).1 ≠ .cleanNeeded :=
        fun needed => no_transfer ⟨room, needed⟩
      simp only [if_neg room, run_bind, autoCleaned, if_neg refused, run_pure]
  exact ⟨by rw [same], by rw [same], fun later a => by rw [same], by rw [same]⟩

theorem not_alike_after_transfer (honest : Honest env) (mounted : Mounted b w.var)
    (vectors : w.mem 24 ≠ eeErased) (transfers : Transfers env w addr data) :
    ¬ CleansAlike env w addr data := by
  rcases transfers with ⟨full, needed⟩
  have kept : (run (handle env) (changePool addr data) w).2.mem 24 ≠ eeErased :=
    nonblank_kept _ (by decide) vectors
  have received : Mounted b (run (handle env) (changePool addr data) w).2.var :=
    (wp_run (keeping_changePool addr data w mounted)).1
  have auto : run (handle env) (eeeWriteAutoClean addr data) w =
      (.ok, { (run (handle env) (changePool addr data) w).2 with unlocked := false }) := by
    calc
      run (handle env) (eeeWriteAutoClean addr data) w =
          run (handle env) (changePool addr data >>= autoCleaned) w := by
        rw [run_eeeWriteAutoClean, if_neg full]
      _ = run (handle env) eeClean (run (handle env) (changePool addr data) w).2 := by
        rw [run_bind, autoCleaned, if_pos needed]
      _ = _ := run_eeClean kept
  have manual : run (handle env) (eeeWriteThenClean addr data) w =
      run (handle env) eeeClean (run (handle env) (changePool addr data) w).2 := by
    rw [eeeWriteThenClean, run_bind, run_eeeWrite, if_neg full, if_pos needed]
  intro alike
  have mem := alike.mem
  have success := alike.success
  rw [auto, manual] at mem success
  rcases eeeClean_cleans honest received with fails | cleaned
  · exact fails (success.mp rfl)
  · exact cleaned mem.symm

end Agreement

/-! ## Runs -/

theorem eeeWriteAutoClean_mounted (mounted : Mounted b w.var) :
    Mounted b (run (handle env) (eeeWriteAutoClean addr data) w).2.var := by
  have looks : ∀ states a, Keeping env b (fun _ => True) (getStateLoop states a) := by
    intro states
    induction states with
    | nil => exact fun a => Keeping.pure trivial
    | cons state lower ih =>
      intro a
      apply (keeping_issue (by simp)).bind
      intro (word : Word) _
      exact (Keeping.pure trivial).ite (ih _)
  have cleans : Keeping env b (fun _ => True) eeClean := by
    apply (looks _ _).bind
    intro state _
    apply (Keeping.pure trivial).ite
    apply (keeping_issue (c := .halFlashUnlock) (by simp)).bind
    intro _ _
    exact (keeping_issue (c := .halFlashLock) (by simp)).bind fun _ _ => Keeping.pure trivial
  have writes : Keeping env b (fun _ => True) (changePool addr data >>= autoCleaned) := by
    apply (keeping_changePool addr data).bind
    intro status _
    exact cleans.ite (Keeping.pure trivial)
  rw [run_eeeWriteAutoClean]
  split
  · exact (wp_run (keeping_eeWriteEl addr data w mounted)).1
  · exact (wp_run (writes w mounted)).1

/-- The states of the store from its `EEE_Init` on, in either variant and whatever becomes of the
flash operations. The vector table of the program that runs is at address 0. -/
inductive Reachable (b : Bank) : World → Prop where
  | init (env : Env) (format : Bool) (w : World) (vectors : w.mem 24 ≠ eeErased) :
      Reachable b (run (handle env) (eeeInit b.nb format b.base) w).2
  | read {w : World} (before : Reachable b w) (env : Env) (addr : Nat) :
      Reachable b (run (handle env) (eeeRead addr) w).2
  | write {w : World} (before : Reachable b w) (env : Env) (addr : Nat) (data : Data) :
      Reachable b (run (handle env) (eeeWrite addr data) w).2
  | writeAutoClean {w : World} (before : Reachable b w) (env : Env) (addr : Nat) (data : Data) :
      Reachable b (run (handle env) (eeeWriteAutoClean addr data) w).2
  | clean {w : World} (before : Reachable b w) (env : Env) :
      Reachable b (run (handle env) eeeClean w).2

theorem Reachable.mounted (reachable : Reachable b w) : Mounted b w.var := by
  induction reachable with
  | init env format w vectors => exact eeeInit_mounts format w
  | read before env addr mounted =>
    have reads : Keeping env b (fun _ => True) (eeeRead addr) :=
      keeping_getVar fun pv _ w mounted =>
        wp_eeReadEl trivial (fun _ _ _ _ => trivial) ⟨mounted, trivial⟩
    exact (wp_run (reads _ mounted)).1
  | write before env addr data mounted => exact (wp_run (keeping_eeeWrite addr data _ mounted)).1
  | writeAutoClean before env addr data mounted => exact eeeWriteAutoClean_mounted mounted
  | clean before env mounted => exact (wp_run (keeping_eeeClean _ mounted)).1

theorem Reachable.vectors (reachable : Reachable b w) : w.mem 24 ≠ eeErased := by
  induction reachable with
  | init env format w vectors => exact nonblank_kept _ (by decide) vectors
  | read before env addr vectors => exact nonblank_kept _ (by decide) vectors
  | write before env addr data vectors => exact nonblank_kept _ (by decide) vectors
  | writeAutoClean before env addr data vectors => exact nonblank_kept _ (by decide) vectors
  | clean before env vectors => exact nonblank_kept _ (by decide) vectors

/-- The variants agree exactly on the writes that do not complete a pool transfer. Where no core
refuses an operation, these are the writes in a pool with room and those that find the other
pool still in use. -/
theorem auto_clean_iff (reachable : Reachable b w) (addr : Nat) (data : Data) :
    (∀ env, ¬ Transfers env w addr data → CleansAlike env w addr data) ∧
    (∀ env, Honest env → (CleansAlike env w addr data ↔ ¬ Transfers env w addr data)) ∧
    (∀ env, Free env → (Transfers env w addr data ↔
      Full w ∧ pageState w.mem (w.var.flashAddr w.var.nextPool) = .erased)) := by
  refine ⟨fun env => alike_unless_transfers addr data, fun env honest => ⟨?_, ?_⟩, ?_⟩
  · intro alike transfers
    exact not_alike_after_transfer honest reachable.mounted reachable.vectors transfers alike
  · exact alike_unless_transfers addr data
  · intro env free
    constructor
    · intro holds
      rcases holds with ⟨full, needed⟩
      refine ⟨full, ?_⟩
      by_contra used
      rw [run_changePool_refuses used] at needed
      cases needed
    · intro holds
      rcases holds with ⟨full, erased⟩
      have completes := @changePool_completes env _ addr data _ reachable.mounted erased
      exact ⟨full, completes.resolve_right (not_not_intro free)⟩

theorem auto_clean_formatted :
    (CleansAlike quiet (filled 0) 0 0 ↔ ¬ Transfers quiet (filled 0) 0 0) ∧
      (Transfers quiet (filled 0) 0 0 ↔ Full (filled 0) ∧
        pageState (filled 0).mem ((filled 0).var.flashAddr (filled 0).var.nextPool) = .erased) := by
  have start := Reachable.init (b := nvmBank) quiet true (powerUp fun _ => 0) (by decide)
  have agree := auto_clean_iff start 0 0
  exact ⟨agree.2.1 quiet quiet_honest, agree.2.2 quiet quiet_free⟩

/-- The write that follows 508 writes of the variable 0 completes the first pool transfer. -/
theorem full_bank_not_cleaned :
    Reachable nvmBank (filled 508) ∧ ¬ CleansAlike quiet (filled 508) 0 0 := by
  have reached : ∀ n, Reachable nvmBank (filled n) := by
    intro n
    induction n with
    | zero => exact Reachable.init quiet true (powerUp fun _ => 0) (by decide)
    | succ n ih => exact ih.write quiet 0 0
  rcases filled_reach 508 (Nat.le_refl _) with ⟨⟨m, reach⟩, count, _, _⟩
  have idle : Idle nvmBank m (filled 508) := reach.ready
  have mounted := (reached 508).mounted
  have full : Full (filled 508) := by
    rw [Full, count, mounted.nbPages]
    decide
  refine ⟨reached 508, not_alike_after_transfer quiet_honest mounted (reached 508).vectors ?_⟩
  refine ⟨full, ?_⟩
  have zero : 0 < nvmBank.capacity := by decide
  rcases write_cases idle zero 0 with ⟨_, _, _, more⟩ | ⟨needed, _⟩ | refused
  · have room := more.room
    rw [count] at room
    exact absurd room (by decide)
  · rwa [run_eeeWrite, if_neg full] at needed
  · exact absurd refused not_refused

end Baelux.Nvm

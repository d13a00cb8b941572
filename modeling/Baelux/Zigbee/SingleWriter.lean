import Baelux.Nvm.ResetRecovery
import Baelux.Nvm.RoundTrip
import Baelux.Zigbee.SaveSnapshot
import Baelux.Zigbee.StartupAgreement

/-! Every task leaves the save that it interrupts alone, so in a run that saves only
outside of erases each save is the only one and writes one snapshot. -/

namespace Baelux.Zigbee.Saves

open Effect Nesting Flash Eeprom Nvm

variable {env : Env} {s₀ s t : State}

/-! ## Callbacks and startups -/

theorem Unerased.weaken {α : Type} {program : App α}
    (runs : Runs env (Unerased s₀) program fun _ => Unerased s₀) :
    Runs env (Unerased s₀) program fun _ => Running s₀ :=
  triple_weaken runs (fun _ unerased => unerased) fun _ _ unerased => unerased.running

theorem runs_appZigbeePersistNotifyCb :
    Runs env (Unerased s₀) appZigbeePersistNotifyCb fun _ => Unerased s₀ := by
  have opened := unerased_open s₀
  apply triple_bind (opened.toKept.runs (talks_plainCall _))
  intro _
  apply triple_bind runs_appZigbeePersistSave
  intro _
  exact triple_pure opened.stable fun s unerased => unerased

theorem runs_registerAndSave :
    Runs env (Unerased s₀) (do zbPersistNotifyRegister; appZigbeePersistNotifyCb)
      fun _ => Unerased s₀ := by
  apply triple_bind ((unerased_open s₀).toKept.runs talks_zbPersistNotifyRegister)
  exact fun _ => runs_appZigbeePersistNotifyCb

theorem runs_appZigbeePersistCompletedCallback (status : ZbStatus) :
    Runs env (Unerased s₀) (appZigbeePersistCompletedCallback status) fun _ => Unerased s₀ := by
  apply triple_bind ((unerased_open s₀).toKept.runs (talks_restoreClusterAttr status))
  exact fun _ => runs_registerAndSave

structure Earned (s₀ : State) (status : ZbStatus) (s : State) : Prop where
  running : Running s₀ s
  erasing : status = zbStatusSuccess → s.history.erasing = 0

theorem earned_open (s₀ : State) (status : ZbStatus) : Open (Earned s₀ status) where
  cleaning := fun _ earned => earned.running.cleaning
  erasing := fun _ earned => earned.running.erasing
  alone := fun s t earned alone => ⟨(running_open s₀).alone s t earned.running alone,
    fun success => alone.erasing.trans (earned.erasing success)⟩

theorem runs_answer {c : AppCall} (aside : Aside (.own c)) :
    Runs env (Running s₀) (call c) fun answer s =>
      Running s₀ s ∧ (StartsSave c answer → s.history.erasing = 0) := by
  have opened := running_open s₀
  apply runs_call c opened.toKept
  · intro answer
    constructor
    · exact fun s holds => holds.1.cleaning
    · exact fun s t holds alone =>
        ⟨opened.alone s t holds.1 alone, fun starts => alone.erasing.trans (holds.2 starts)⟩
  · intro s running
    refine ⟨aside_allowed aside s, fun choice answer t done unhurried => ?_⟩
    have same := aside_view aside done
    exact ⟨opened.seen running same, fun starts =>
      (congrArg View.erasing same).trans (unhurried starts)⟩

theorem aside_zbStartup (type : ZbStartType) (info : InfoId) : (zbStartup type info).Only Aside := by
  have issue : ∀ {c : AppCall}, Aside (.own c) → (call c).Only Aside :=
    fun aside => (Prog.only_call _).mpr aside
  have wait : ∀ {event : SeqEvent}, Aside (.wait event) → (utilSeqWaitEvt event).Only Aside :=
    fun aside => (Prog.only_call _).mpr aside
  apply (issue (by trivial)).bind
  intro (allocated : Bool)
  apply Prog.Only.ite _ (Prog.only_pure _)
  apply (wait (by trivial)).bind
  intro _
  apply (issue (by trivial)).bind
  intro answer
  apply (wait (by trivial)).bind
  exact fun _ => Prog.only_pure answer

theorem runs_zbStartupWait (type : ZbStartType) :
    Runs env (Running s₀) (zbStartupWait type) fun ended => Earned s₀ ended.2 := by
  have opened := running_open s₀
  have failed : ∀ {status : ZbStatus}, status ≠ zbStatusSuccess →
      Runs env (Running s₀) (pure (none, status)) fun (ended : Option InfoId × ZbStatus) =>
        Earned s₀ ended.2 := fun unequal =>
    triple_pure opened.stable fun s running => ⟨running, fun success => absurd success unequal⟩
  apply triple_bind (opened.toKept.runs_aside (by trivial))
  intro (block : Option InfoId)
  cases block with
  | none => exact failed (by decide)
  | some info =>
    apply triple_bind (opened.toKept.runs_aside (by trivial))
    intro _
    apply triple_bind (opened.toKept.runs_aside (by trivial))
    intro _
    apply triple_bind (opened.runs (aside_zbStartup type info))
    intro (status : ZbStatus)
    apply triple_ite
    · intro refused
      apply triple_bind (opened.toKept.runs_aside (by trivial))
      exact fun _ => failed refused
    · intro _
      apply triple_bind (opened.runs ((Prog.only_call _).mpr (by trivial)))
      intro _
      apply triple_bind (runs_answer (by trivial))
      intro (status : ZbStatus)
      have earned := earned_open s₀ status
      apply triple_bind (M := fun _ => Earned s₀ status)
      · exact triple_weaken (earned.toKept.runs_aside (by trivial))
          (fun s holds => ⟨holds.1, holds.2⟩) fun _ _ holds => holds
      intro _
      exact triple_pure earned.stable fun s holds => holds

theorem runs_startupEnded (requested : Option InfoId) (status : ZbStatus) {failed : App Unit}
    (talks : failed.Only Talks) :
    Runs env (Earned s₀ status) (startupEnded requested status failed) fun _ => Running s₀ := by
  have earned := (earned_open s₀ status).toKept
  apply triple_bind (earned.runs_aside (by trivial))
  intro _
  apply triple_ite
  · intro success
    apply triple_bind (earned.runs_aside (by trivial))
    intro _
    apply triple_bind (earned.runs_aside (by trivial))
    intro _
    apply triple_weaken (Unerased.weaken runs_registerAndSave)
    · exact fun s holds => ⟨holds.running, holds.erasing success⟩
    · exact fun _ _ running => running
  · intro _
    apply triple_weaken ((running_open s₀).toKept.runs talks)
    · exact fun s holds => holds.running
    · exact fun _ _ running => running

/-! ## The tasks -/

theorem runs_appZigbeeNwkStart :
    Runs env (Running s₀) appZigbeeNwkStart fun _ => Running s₀ := by
  have kept := (running_open s₀).toKept
  apply triple_bind (kept.runs_aside (by trivial))
  intro (info : AppInfo)
  apply triple_ite
  · exact fun _ => triple_pure kept.stable fun s running => running
  intro _
  apply triple_bind (kept.runs (talks_plainCall _))
  intro _
  apply triple_bind (kept.runs (talks_plainCall _))
  intro _
  apply triple_bind (kept.runs_aside (by trivial))
  intro type
  apply triple_bind (runs_zbStartupWait type)
  intro ended
  apply triple_bind (runs_startupEnded ended.1 ended.2 (Prog.only_pure ()))
  intro _
  apply triple_bind (kept.runs_aside (by trivial))
  intro (joinStatus : ZbStatus)
  apply triple_ite
  · exact fun _ => triple_pure kept.stable fun s running => running
  · exact fun _ => kept.runs talks_joined

theorem runs_tryStartup (info : AppInfo) (now : BitVec 32) :
    Runs env (Running s₀) (tryStartup info now) fun _ => Running s₀ := by
  have kept := (running_open s₀).toKept
  apply triple_ite
  · intro _
    apply triple_bind (kept.runs (talks_plainCall _))
    intro _
    apply triple_bind (kept.runs (talks_plainCall _))
    intro _
    apply triple_bind (kept.runs_aside (by trivial))
    intro (info : AppInfo)
    apply triple_bind (runs_zbStartupWait info.startupControl)
    intro ended
    exact runs_startupEnded ended.1 ended.2 (talks_delayStartup.bind fun _ => talks_delayStartup)
  · exact fun _ => triple_pure kept.stable fun s running => running

theorem runs_appZigbeeNwkForm :
    Runs env (Running s₀) appZigbeeNwkForm fun _ => Running s₀ := by
  have kept := (running_open s₀).toKept
  apply triple_bind (kept.runs_aside (by trivial))
  intro (info : AppInfo)
  apply triple_bind (kept.runs_aside (by trivial))
  intro (now : BitVec 32)
  apply triple_bind (runs_tryStartup info now)
  intro _
  apply triple_bind (kept.runs_aside (by trivial))
  intro (info : AppInfo)
  apply triple_ite
  · exact fun _ => kept.runs_aside (by trivial)
  · exact fun _ => kept.runs (talks_plainCalls _)

theorem runs_zigbeeCallBackProcessing :
    Runs env (Running s₀) zigbeeCallBackProcessing fun _ => Running s₀ := by
  have kept := (running_open s₀).toKept
  have running : ∀ answer : Prop, ∀ s, Running s₀ s ∧ (answer → s.history.erasing = 0) →
      Running s₀ s := fun _ _ holds => holds.1
  apply triple_bind (runs_answer (by trivial))
  intro (notified : Notification)
  cases notified with
  | startup status info =>
    refine triple_weaken ?_ (running _) fun _ _ holds => holds
    apply triple_bind (kept.runs_aside (by trivial))
    intro _
    apply triple_bind (kept.runs_aside (by trivial))
    exact fun _ => kept.runs_aside (by trivial)
  | startupPersist status =>
    apply triple_weaken (Unerased.weaken (runs_appZigbeePersistCompletedCallback status))
    · exact fun s holds => ⟨holds.1, holds.2 rfl⟩
    · exact fun _ _ holds => holds
  | persist =>
    refine triple_weaken ?_ (running _) fun _ _ holds => holds
    apply triple_bind (runs_answer (by trivial))
    intro (registered : Bool)
    apply triple_ite
    · intro saves
      apply triple_weaken (Unerased.weaken runs_appZigbeePersistNotifyCb)
      · exact fun s holds => ⟨holds.1, holds.2 saves⟩
      · exact fun _ _ holds => holds
    · intro _
      refine triple_weaken ?_ (running _) fun _ _ holds => holds
      exact triple_pure kept.stable fun s holds => holds
  | other requests =>
    exact triple_weaken (kept.runs (talks_plainCalls requests)) (running _) fun _ _ holds => holds

theorem runs_taskCb (task : SeqTask) :
    Runs env (Running s₀) (taskCb task) fun _ => Running s₀ := by
  have kept := (running_open s₀).toKept
  have nothing : Runs env (Running s₀) (pure ()) fun _ => Running s₀ :=
    triple_pure kept.stable fun s running => running
  cases task with
  | notifyFromM0ToM4 =>
    apply triple_bind (kept.runs_aside (by trivial))
    intro (received : Nat)
    apply triple_ite
    · intro _
      apply triple_bind (kept.runs_aside (by trivial))
      exact fun _ => runs_zigbeeCallBackProcessing
    · exact fun _ => nothing
  | requestFromM0ToM4 => exact kept.runs talks_appZigbeeProcessRequest
  | zigbeeNetworkForm => exact runs_appZigbeeNwkForm
  | bitmapGpioInt => exact kept.runs talks_userExtiHandler
  | zigbeeNwkForm =>
    apply triple_bind (kept.runs_aside (by trivial))
    exact fun _ => runs_appZigbeeNwkStart
  | zigbeeNwkJoin =>
    apply triple_bind (kept.runs_aside (by trivial))
    exact fun _ => runs_appZigbeeNwkStart
  | systemHciAsynchEvt => exact nothing
  | bitmapTest => exact nothing
  | zigbeeEnterStop => exact nothing

/-! ## All runs -/

structure Serving (s₀ s : State) : Prop where
  alone : Alone s₀ s
  cleaning : s.history.saving = 0 → s.history.cleaning = 0

theorem serving_kept (s₀ : State) : Kept (Serving s₀) where
  cleaning := fun _ serving => serving.cleaning
  alone := by
    intro s t serving alone
    refine ⟨serving.alone.trans alone, ?_⟩
    rw [alone.saving, alone.cleaning]
    exact serving.cleaning

theorem tasks_keep (env : Env) : Keeps (saveRely env) Unhurried SingleWriter := by
  intro event task s between admitted pending
  have taken : Alone s ((sequencer env).take task s) := alone_view rfl
  have after : ∀ {B : State → Prop}, (∀ t, B t → Alone ((sequencer env).take task s) t) →
      ∀ (_ : Unit) t, B t → Alone s t := fun alone _ t holds => taken.trans (alone t holds)
  by_cases all : admitsAll event
  · refine safe_mono (runs_taskCb task _ ?_) (after fun t running => Running.alone running)
    have between := between.alone taken
    exact ⟨.refl _, between.cleaning, between.erasing all⟩
  · match event, all, admitted with
    | some .synchroBypassIdle, _, admitted =>
      -- the wait has just set its own event, so nothing runs inside it
      rcases admitted _ rfl with ⟨_, unset, before, rfl⟩
      have set : (evtIdle .synchroBypassIdle before).evtSet .synchroBypassIdle = true := by
        simp [evtIdle, State.setEvt]
      exact absurd (set.symm.trans unset) (by decide)
    | some .ackFromM0Evt, _, admitted =>
      have only : task = .requestFromM0ToM4 := of_decide_eq_true (admitted _ rfl).mask
      subst only
      refine safe_mono ((serving_kept _).runs talks_appZigbeeProcessRequest _ ?_)
        (after fun t serving => Serving.alone serving)
      exact ⟨.refl _, (between.alone taken).cleaning⟩
    | none, all, _ => exact absurd trivial all
    | some .systemHciCmdEvtResp, all, _ => exact absurd trivial all
    | some .zigbeeStartupEnded, all, _ => exact absurd trivial all

theorem started_between (world : World) (info : AppInfo) : Between none (started world info) :=
  ⟨fun _ => rfl, fun _ busy => absurd rfl busy⟩

/-! ## A store whose next write cleans -/

def booted (mem : Memory) : World := (run (handle quiet) appZigbeeNvmInit (powerUp mem)).2

theorem booted_full {m : Store} {w : World} (reach : Reach nvmBank m false w)
    (full : w.var.nbWrittenElements = 508) (lower : w.var.currentWritePage < nvmBank.nb) :
    (∃ m, Idle nvmBank m (booted w.mem)) ∧ (booted w.mem).var.nbWrittenElements = 508 := by
  obtain ⟨img, cur, c, ws, live, vacant⟩ : Idle nvmBank m w := reach.ready
  rw [live.var] at lower full
  obtain rfl := (cursor_pool live.shape.inside _).mp lower
  have next : Next nvmBank w.mem .lower :=
    (live.holds.state .upper 0 nvmBank.pos).trans (vacant.state 0 nvmBank.pos)
  obtain ⟨_, again, start⟩ := wp_run (wp_appZigbeeNvmInit_idle (w := powerUp w.mem)
    live.holds live.shape vacant live.answers next)
  refine ⟨⟨m, again⟩, ?_⟩
  rw [booted, start]
  exact full

def fullStore : World := booted (filled 508).mem

theorem full_mounted : (∃ m, Idle nvmBank m fullStore) ∧ fullStore.var.nbWrittenElements = 508 := by
  rcases filled_reach 508 (Nat.le_refl _) with ⟨⟨m, reach⟩, count, lower, _⟩
  rw [fullStore]
  exact booted_full reach count lower

theorem clean_erases {m : Store} {w : World} (pending : Pending nvmBank m w) :
    ¬ wp (handle quiet) (fun c _ => c ≠ .eraseActivity true) (fun _ _ => True) eeeClean w := by
  intro silent
  rcases pending with ⟨img, cur, c, ws, live, erasing⟩
  rw [eeeClean, wp_traced, wp_bind, wp_getVar] at silent
  have body := wp_post silent.2.2 fun _ _ after => after.2
  simp only [nextPool_other live] at body
  have state : wp (handle quiet) (Crash fun _ => True) (fun state t => state = .erasing ∧ t = w)
      (eeGetState (nvmBank.first cur.other)) w := by
    rw [← Nat.add_zero (nvmBank.first cur.other)]
    exact wp_eeGetState_image live.mounted live.holds nvmBank.pos trivial
      ⟨erasing 0 nvmBank.pos, rfl⟩
  have rest := wp_rest body
  rw [(wp_run state).1, if_neg (not_not_intro rfl), wp_bind, fdEraseSectors, wp_bind,
    wp_hsemLock, wp_bind, wp_halFlashUnlock, wp_bind, wp_eraseActivity] at rest
  exact rest.2.2.1 rfl

theorem full_store_erases {m : Store} {w : World} (idle : Idle nvmBank m w)
    (full : w.var.nbWrittenElements = 508) (first : w.cache 0 = 4) :
    .eraseActivity true ∈ calls (handle quiet) appZigbeeNvmWrite w := by
  by_contra absent
  have silent : wp (handle quiet) (fun c _ => c ≠ .eraseActivity true) (fun _ _ => True)
      appZigbeeNvmWrite w :=
    wp_calls.mpr fun c member same => absent (same ▸ member)
  rw [appZigbeeNvmWrite, wp_traced, wp_bind, wp_getCache, first] at silent
  have two : numWords 4 = 1 + 1 := by decide
  rw [two, wp_bind, Nvm.writeLoop, wp_bind, wp_getCache, first] at silent
  have written := wp_rest silent.2.2.2
  obtain ⟨needed, pending⟩ : (run (handle quiet) (eeeWrite (0 + zigbeeDbStartAddr) 4) w).1 =
      .cleanNeeded ∧ ∃ m', Pending nvmBank m'
        (run (handle quiet) (eeeWrite (0 + zigbeeDbStartAddr) 4) w).2 := by
    have inside : 0 < nvmBank.capacity := by decide
    rcases write_cases idle inside 4 with ⟨_, _, _, more⟩ | ⟨needed, waits, _⟩ | refused
    · have room := more.room
      rw [full] at room
      exact absurd room (by decide)
    · exact ⟨needed, _, waits⟩
    · exact absurd refused not_refused
  rcases pending with ⟨m', pending⟩
  rw [needed, if_neg (by decide), if_pos rfl, wp_bind] at written
  exact clean_erases pending (wp_post written fun _ _ _ => trivial)

/-! ## Saves as runs of the sequencer -/

def saveStart : List (Move SeqTask Interrupt Choice) :=
  [.interrupt .notReceived, .dispatch .notifyFromM0ToM4, .call .settled, .call .settled,
    .call (.notification (.startupPersist 5))] ++ requestMoves (.flag true) ++ [.call .settled] ++
    requestMoves .settled ++ [.call .settled, .call .settled]

def fetchMoves : List (Move SeqTask Interrupt Choice) :=
  requestMoves (.snapshot 4 fun _ => 7) ++ requestMoves (.snapshot 4 fun _ => 7) ++ [.call .settled]

def unsaved (world : World) : Config appSig SeqEvent State :=
  ⟨started world ⟨1, 0, .join, false⟩, []⟩

/-- A save on an empty store, up to the trace of its success. -/
def singleSave : List (Move SeqTask Interrupt Choice) :=
  saveStart ++ fetchMoves ++ List.replicate 33 (.call .settled)

def saveEnd (written : Bool) : App Unit :=
  (flashed written).bind fun saved => (left saved).bind fun _ => pure ()
where
  flashed (written : Bool) : App Bool := do
    if written then
      call (.appDbg .persistentDataFlashed)
      pure true
    else pure false
  left (saved : Bool) : App Bool := do
    call (.storage (.leave .persistSave))
    pure saved

theorem save_fetched (world : World) : ∃ s,
    (sequencer quiet).run (unsaved world) (saveStart ++ fetchMoves) =
      some ⟨s, [(onStorage appZigbeeNvmWrite).bind saveEnd]⟩ ∧
    s.history.saving = 1 ∧ s.persistCb = true ∧ (∀ event, s.evtSet event = false) ∧
    s.world.mem = world.mem ∧ s.world.var = world.var ∧ s.world.cache 0 = 4 := by
  have nested : (onStorage appZigbeeNvmWrite).bind saveEnd =
      (((onStorage appZigbeeNvmWrite).bind saveEnd.flashed).bind saveEnd.left).bind
        fun _ => pure () := by
    rw [Prog.bind_assoc, Prog.bind_assoc]
    rfl
  rw [nested]
  refine ⟨_, rfl, rfl, rfl, fun event => ?_, rfl, rfl, rfl⟩
  cases event <;> rfl

theorem follows {c d : Config appSig SeqEvent State} {m : Move SeqTask Interrupt Choice}
    {moves : List (Move SeqTask Interrupt Choice)}
    (answers : (sequencer env).Answers Unhurried c.data m c.stack)
    (moved : (sequencer env).move c m = some d) (meets : (sequencer env).Meets Unhurried d moves) :
    (sequencer env).Meets Unhurried c (m :: moves) :=
  ⟨answers, fun _ same => Option.some.inj (moved.symm.trans same) ▸ meets⟩

structure Stored {α : Type} (env : Env) (program : Storage α) (s t : State) : Prop where
  world : t.world = (run (handle env) program s.world).2
  unset : ∀ event, t.evtSet event = false

/-- A storage program runs to its end, through the waits for its erases. -/
theorem runs_storage {α : Type} (program : Storage α) (rest : α → App Unit) (s : State)
    (unset : ∀ event, s.evtSet event = false) :
    ∃ moves t, (sequencer env).run ⟨s, [(onStorage program).bind rest]⟩ moves =
        some ⟨t, [rest (run (handle env) program s.world).1]⟩ ∧
      (sequencer env).Meets Unhurried ⟨s, [(onStorage program).bind rest]⟩ moves ∧
      Stored env program s t := by
  induction program generalizing s with
  | done value => exact ⟨[], s, rfl, trivial, rfl, unset⟩
  | ask c next ih =>
    have shape : (onStorage (.ask c next)).bind rest =
        (storageCall c).bind fun answer => (onStorage (next answer)).bind rest := by
      rw [← Prog.bind_assoc]
      rfl
    rw [shape]
    by_cases waits : ∃ on, c = .eraseActivity on
    · rcases waits with ⟨on, rfl⟩
      let woken := clearEvt .systemHciCmdEvtResp (interrupt .shciCmdRespRelease
        (s.storage (handle env (.eraseActivity on) s.world).2 (.eraseActivity on)))
      have cleared : ∀ event, woken.evtSet event = false := by
        intro event
        cases event with
        | systemHciCmdEvtResp => rfl
        | _ => exact unset _
      obtain ⟨moves, t, run, meets, stored⟩ := ih _ woken cleared
      refine ⟨.call .settled :: .interrupt .shciCmdRespRelease :: .wake :: moves, t, run, ?_,
        stored.world, stored.unset⟩
      exact follows (fun _ _ => nofun) rfl (follows trivial rfl (follows trivial rfl meets))
    · have direct : storageCall c = call (.storage c) := by
        cases c with
        | eraseActivity on => exact absurd ⟨on, rfl⟩ waits
        | _ => rfl
      rw [direct]
      obtain ⟨moves, t, run, meets, stored⟩ := ih _ (s.storage (handle env c s.world).2 c) unset
      exact ⟨.call .settled :: moves, t, run, follows (fun _ _ => nofun) rfl meets, stored.world,
        stored.unset⟩

/-- In every run that goes on to save only outside of erases, no save begins inside a save,
no write inside a clean, and each record that is saved is one snapshot. -/
theorem single_writer (env : Env) (world : World) (info : AppInfo)
    (moves : List (Move SeqTask Interrupt Choice)) (c : Config appSig SeqEvent State)
    (run : (sequencer env).run ⟨started world info, []⟩ moves = some c)
    (unhurried : (sequencer env).Meets Unhurried ⟨started world info, []⟩ moves) :
    Kernel.Calls SingleWriter c.data c.stack :=
  run_calls (tasks_keep env) (started_between world info) run unhurried

/-- A save on a full store, with its clean, runs to its end. -/
theorem single_save_alone : ∃ moves t c,
    (sequencer quiet).run (unsaved fullStore) (saveStart ++ fetchMoves) =
      some ⟨t, [(onStorage appZigbeeNvmWrite).bind saveEnd]⟩ ∧
    .eraseActivity true ∈ calls (handle quiet) appZigbeeNvmWrite t.world ∧
    (sequencer quiet).run (unsaved fullStore) ((saveStart ++ fetchMoves) ++ moves) = some c ∧
    c.stack = [saveEnd (run (handle quiet) appZigbeeNvmWrite t.world).1] ∧
    (sequencer quiet).Meets Unhurried (unsaved fullStore) ((saveStart ++ fetchMoves) ++ moves) ∧
    Kernel.Calls SingleWriter c.data c.stack := by
  rcases full_mounted with ⟨⟨m, idle⟩, full⟩
  rcases save_fetched fullStore with ⟨t, start, _, _, unset, mem, var, first⟩
  have erases := full_store_erases (idle.congr mem var) ((congrArg EeVar.nbWrittenElements var).trans full) first
  obtain ⟨moves, c, stored, meets, _⟩ :=
    @runs_storage quiet _ appZigbeeNvmWrite saveEnd t unset
  have fetched : (sequencer quiet).Meets Unhurried (unsaved fullStore) (saveStart ++ fetchMoves) := by
    decide +kernel
  have runs := (Kernel.run_append start moves).trans stored
  have unhurried := Kernel.meets_append start fetched meets
  exact ⟨moves, t, _, start, erases, runs, rfl, unhurried,
    single_writer quiet _ _ _ _ runs unhurried⟩

/-! ## A save inside the erase of another -/

def InSave : Call → Prop
  | .enter .persistSave => False
  | .leave .persistSave => False
  | _ => True

theorem saving_trace {c : Call} (inside : InSave c) (h : History) :
    (h.trace c).saving = h.saving := by
  cases c with
  | enter point =>
    cases point with
    | persistSave => exact inside.elim
    | _ => rfl
  | leave point =>
    cases point with
    | persistSave => exact inside.elim
    | _ => rfl
  | _ => rfl

theorem runs_until_erase {α : Type} {program : Storage α} (inside : program.Only InSave)
    (rest : α → App Unit) (s : State)
    (asks : ∃ on, .eraseActivity on ∈ calls (handle env) program s.world) :
    ∃ moves world history on next,
      (sequencer env).run ⟨s, [(onStorage program).bind rest]⟩ moves =
        some ⟨{ s with world := world, history := history },
          [(storageCall (.eraseActivity on)).bind next]⟩ ∧
      history.saving = s.history.saving := by
  induction program generalizing s with
  | done value =>
    rcases asks with ⟨on, member⟩
    cases member
  | ask c next ih =>
    by_cases waits : ∃ on, c = .eraseActivity on
    · rcases waits with ⟨on, rfl⟩
      refine ⟨[], s.world, s.history, on, fun answer => (onStorage (next answer)).bind rest, ?_, rfl⟩
      rw [← Prog.bind_assoc]
      rfl
    · have direct : storageCall c = call (.storage c) := by
        cases c with
        | eraseActivity on => exact absurd ⟨on, rfl⟩ waits
        | _ => rfl
      rcases asks with ⟨on, member⟩
      have later : .eraseActivity on ∈
          calls (handle env) (next (handle env c s.world).1) (handle env c s.world).2 :=
        (List.mem_cons.mp member).resolve_left fun same => waits ⟨on, same.symm⟩
      obtain ⟨moves, world, history, on, rest', run, same⟩ := ih _ (inside.2 _)
        (s.storage (handle env c s.world).2 c) ⟨on, later⟩
      refine ⟨.call .settled :: moves, world, history, on, rest', ?_,
        same.trans (saving_trace inside.1 _)⟩
      have shape : (onStorage (.ask c next)).bind rest =
          ((call (.storage c)).bind fun answer => onStorage (next answer)).bind rest := by
        rw [← direct]
        rfl
      rw [shape]
      exact run

theorem inSave_erasing {c : Call} (erasing : Erasing c) : InSave c := by
  cases c with
  | enter point => exact erasing.elim
  | leave point => exact erasing.elim
  | _ => trivial

private theorem inSave_issue {c : Call} (inside : InSave c) : (issue c).Only InSave :=
  (@Prog.only_call storage InSave c).mpr inside

theorem inSave_traced {α : Type} {point : Traced} {body : Storage α} (other : point ≠ .persistSave)
    (only : body.Only InSave) : (traced point body).Only InSave := by
  have enters : InSave (.enter point) ∧ InSave (.leave point) := by
    cases point with
    | persistSave => exact absurd rfl other
    | _ => exact ⟨trivial, trivial⟩
  exact only_traced enters.1 enters.2 only

theorem inSave_eeeWrite (addr : Nat) (data : Data) : (eeeWrite addr data).Only InSave :=
  inSave_traced (by simp) ((driven_writeBody addr data).plain.mono fun _ plain =>
    inSave_erasing plain.erasing)

theorem inSave_eeeClean : eeeClean.Only InSave :=
  inSave_traced (by decide) (driven_cleanBody.erasing.mono fun _ => inSave_erasing)

theorem inSave_writeLoop (remaining k : Nat) (status : Status) :
    (Nvm.writeLoop remaining k status).Only InSave := by
  induction remaining generalizing k status with
  | zero => exact Prog.only_pure _
  | succ remaining ih =>
    apply (inSave_issue (by trivial)).bind
    intro (data : Data)
    apply (inSave_eeeWrite _ data).bind
    intro status
    apply Prog.Only.ite (ih _ _)
    apply Prog.Only.ite _ (Prog.only_pure _)
    exact inSave_eeeClean.bind fun _ => ih _ _

theorem inSave_appZigbeeNvmWrite : appZigbeeNvmWrite.Only InSave := by
  apply inSave_traced (by decide)
  apply (inSave_issue (by trivial)).bind
  intro (length : Data)
  exact (inSave_writeLoop _ _ _).bind fun _ => Prog.only_pure _

def notifyInside : List (Move SeqTask Interrupt Choice) :=
  [.call .settled, .interrupt .notReceived, .dispatch .notifyFromM0ToM4, .call .settled,
    .call .settled, .call (.notification .persist), .call .settled] ++ requestMoves .settled

theorem notified_inside {s : State} (on : Bool) (next : Unit → App Unit)
    (registered : s.persistCb = true) (unset : ∀ event, s.evtSet event = false)
    (saving : s.history.saving = 1) :
    ∃ c, (sequencer env).run ⟨s, [(storageCall (.eraseActivity on)).bind next]⟩ notifyInside =
      some c ∧ ¬ Kernel.Calls SingleWriter c.data c.stack := by
  rcases s with ⟨taskSet, evtSet, notified, requested, info, type, cb, heap, owed, world, history⟩
  obtain rfl : evtSet = fun _ => false := funext unset
  obtain rfl : cb = true := registered
  refine ⟨_, rfl, fun alone => ?_⟩
  have idle : history.saving = 0 := alone
  rw [saving] at idle
  cases idle

theorem save_overlapped {world : World} {m : Store} (idle : Idle nvmBank m world)
    (full : world.var.nbWrittenElements = 508) : ∃ moves c,
    (sequencer quiet).run (unsaved world) moves = some c ∧
      ¬ Kernel.Calls SingleWriter c.data c.stack := by
  rcases save_fetched world with ⟨s, start, saving, registered, unset, mem, var, first⟩
  have asks := full_store_erases (idle.congr mem var) (var ▸ full) first
  obtain ⟨moves, world, history, on, next, stored, same⟩ :=
    runs_until_erase inSave_appZigbeeNvmWrite saveEnd s ⟨true, asks⟩
  obtain ⟨c, notified, overlaps⟩ := notified_inside (s := { s with world := world, history := history }) on next registered unset (same.trans saving)
  refine ⟨(saveStart ++ fetchMoves) ++ (moves ++ notifyInside), c, ?_, overlaps⟩
  rw [Kernel.run_append start, Kernel.run_append stored]
  exact notified

/-- A save on a full store is notified inside its erase, and the next save begins there. -/
theorem save_inside_erase : ∃ moves c,
    (sequencer quiet).run (unsaved fullStore) moves = some c ∧
      ¬ Kernel.Calls SingleWriter c.data c.stack := by
  rcases full_mounted with ⟨⟨m, idle⟩, full⟩
  exact save_overlapped idle full

end Baelux.Zigbee.Saves

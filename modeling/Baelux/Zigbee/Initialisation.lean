import Baelux.Zigbee.Boot

/-! The handle of the custom library is set last in `APP_ZIGBEE_StackLayersInit`. Which
boots use it before. -/

namespace Baelux.Zigbee.Boot

open Effect Nesting Flash Eeprom Nvm

def HandleSet : BootCall → BootState → Prop
  | .azcl _, s => s.zb = true
  | _, _ => True

/-- Before `azcl_init` the stack does not restart from persistence, and does not report
the end of such a restart. -/
def NotRestored : (c : BootCall) → c.Answer → BootState → Prop
  | .zbStartupPersist, status, s => s.zb = false → status ≠ zbStatusSuccess
  | .app .notification, notified, s => s.zb = false → ∀ status, notified ≠ .startupPersist status
  | _, _, _ => True

instance : (c : BootCall) → (s : BootState) → Decidable (HandleSet c s)
  | .azcl _, s => inferInstanceAs (Decidable (s.zb = true))
  | .app _, _ => isTrue trivial
  | .azclInit, _ => isTrue trivial
  | .zbInit, _ => isTrue trivial
  | .zbStartupPersist, _ => isTrue trivial
  | .sysEvtReady, _ => isTrue trivial

private def isOther : Notification → Bool
  | .startupPersist _ => false
  | _ => true

private theorem isOther_iff (notified : Notification) :
    isOther notified = true ↔ ∀ status, notified ≠ .startupPersist status := by
  cases notified <;> simp [isOther]

private def decidableOther (notified : Notification) :
    Decidable (∀ status, notified ≠ .startupPersist status) :=
  decidable_of_iff (isOther notified = true) (isOther_iff notified)

private def decidableBefore (s : BootState) {τ : Type} {p : τ → Prop}
    (decidable : (answer : τ) → Decidable (p answer)) (answer : τ) :
    Decidable (s.zb = false → p answer) :=
  haveI := decidable answer
  inferInstance

instance : (c : BootCall) → (answer : c.Answer) → (s : BootState) →
    Decidable (NotRestored c answer s) := by
  intro c
  cases c with
  | zbStartupPersist =>
    exact fun answer s => decidableBefore s
      (fun status : ZbStatus => (inferInstance : Decidable (status ≠ zbStatusSuccess))) answer
  | app c =>
    cases c with
    | notification => exact fun answer s => decidableBefore s decidableOther answer
    | _ => exact fun _ _ => isTrue trivial
  | _ => exact fun _ _ => isTrue trivial

/-! ## What the waits rely on -/

/-- Before `azcl_init` no startup has been tried, no save is registered, and the task
that forms a network is not queued. -/
def Ready (s : BootState) : Prop := s.zb = false →
  s.app.appInfo.joinStatus = zbStatusSuccess ∧ s.app.persistCb = false ∧
    s.app.taskSet .zigbeeNetworkForm = false

structure Later (s t : BootState) : Prop where
  handle : s.zb = true → t.zb = true
  ready : Ready s → Ready t

theorem Later.refl (s : BootState) : Later s s := ⟨id, id⟩

theorem Later.trans {s t u : BootState} (first : Later s t) (second : Later t u) : Later s u :=
  ⟨second.handle ∘ first.handle, second.ready ∘ first.ready⟩

structure Onward (s t : State) : Prop where
  joinStatus : t.appInfo.joinStatus = s.appInfo.joinStatus
  persistCb : s.persistCb = false → t.persistCb = false
  formTask : t.taskSet .zigbeeNetworkForm = s.taskSet .zigbeeNetworkForm

theorem Onward.refl (s : State) : Onward s s := ⟨rfl, id, rfl⟩

theorem Onward.later {s : BootState} {t : State} (onward : Onward s.app t) :
    Later s { s with app := t } where
  handle := id
  ready := by
    intro ready unset
    rcases ready unset with ⟨joinStatus, persistCb, formTask⟩
    exact ⟨onward.joinStatus.trans joinStatus, onward.persistCb persistCb,
      onward.formTask.trans formTask⟩

theorem onward_interrupt (source : Source) (s : State) :
    Onward s (Zigbee.interrupt source.1 s) := by
  rcases source with ⟨source, other⟩
  cases source with
  | setTask task =>
    have different : .zigbeeNetworkForm ≠ task := fun same => other (same ▸ rfl)
    exact ⟨rfl, id, Function.update_of_ne different _ _⟩
  | setNwkTask type => cases type <;> exact ⟨rfl, id, rfl⟩
  | _ => exact ⟨rfl, id, rfl⟩

theorem onward_evtIdle (event : SeqEvent) (s : State) : Onward s (evtIdle event s) := by
  cases event <;> exact ⟨rfl, id, rfl⟩

theorem onward_clearEvt (event : SeqEvent) (s : State) : Onward s (clearEvt event s) := by
  cases event <;> exact ⟨rfl, id, rfl⟩

variable {env : Env}

def bootRely (env : Env) : Rely (sequencer env) where
  Idle _ s := Ready s
  Rel := Later
  refl := Later.refl
  trans := Later.trans
  closed := fun ready later => later.ready ready
  interrupted := fun source _ => (onward_interrupt source _).later
  idled := fun _ => (onward_evtIdle _ _).later

/-! ## Calls that a boot may make -/

def Neutral : TaskCall appSig SeqEvent → Prop
  | .own (.utilSeqSetTask task) => task ≠ .zigbeeNetworkForm
  | .own (.setAppInfo _) => False
  | .own (.setJoinStatus _ _) => False
  | .own (.setPersistCb registered) => registered = false
  | _ => True

theorem neutral_onward {c : AppCall} {choice : Choice} {answer : c.Answer} {s t : State}
    (neutral : Neutral (.own c)) (done : Zigbee.perform env c choice s = some (answer, t)) :
    Onward s t := by
  cases c with
  | setAppInfo update => exact neutral.elim
  | setJoinStatus requested status => exact neutral.elim
  | utilSeqSetTask task =>
    obtain rfl := answered_state done
    exact ⟨rfl, id, Function.update_of_ne (Ne.symm neutral) _ _⟩
  | setPersistCb registered =>
    obtain rfl := answered_state done
    exact ⟨rfl, fun _ => neutral, rfl⟩
  | transfer request =>
    rcases transfer_state done with rfl | ⟨_, _, _, rfl⟩ | ⟨_, _, _, _, _, rfl⟩
    · exact .refl t
    · exact ⟨rfl, id, rfl⟩
    · exact ⟨rfl, id, rfl⟩
  | mallocInfo =>
    rcases malloc_state done with rfl | ⟨_, _, rfl⟩
    · exact .refl t
    · exact ⟨rfl, id, rfl⟩
  | notification =>
    rcases notify_state done with rfl | ⟨_, _, rfl⟩
    · exact .refl t
    · exact ⟨rfl, id, rfl⟩
  | halGetTick =>
    obtain rfl := mapped_state done
    exact .refl t
  | mallocCallback =>
    obtain rfl := mapped_state done
    exact .refl t
  | extiHandler =>
    obtain rfl := mapped_state done
    exact .refl t
  | _ =>
    obtain rfl := answered_state done
    exact ⟨rfl, id, rfl⟩

/-! ## Programs that only make such calls -/

theorem neutral_call {c : AppCall} (neutral : Neutral (.own c)) : (Zigbee.call c).Only Neutral :=
  (Prog.only_call _).mpr neutral

theorem neutral_wait (event : SeqEvent) : (Zigbee.utilSeqWaitEvt event).Only Neutral :=
  (Prog.only_call _).mpr trivial

theorem neutral_stackCall {request : Request} : (stackCall request).Only Neutral := by
  apply (neutral_wait _).bind
  intro _
  apply (neutral_call (by trivial)).bind
  intro answer
  apply (neutral_wait _).bind
  exact fun _ => Prog.only_pure answer

theorem neutral_plainCalls (requests : List PlainRequest) :
    (plainCalls requests).Only Neutral := by
  induction requests with
  | nil => exact Prog.only_pure ()
  | cons request rest ih => exact neutral_stackCall.bind fun _ => ih

theorem neutral_onStorage {α : Type} (program : Storage α) :
    (onStorage program).Only Neutral := by
  apply (Prog.only_anything program).translate
  intro c _
  cases c with
  | eraseActivity on =>
    exact (neutral_call (by trivial)).bind fun _ => neutral_wait _
  | _ => exact neutral_call trivial

theorem neutral_zbPersistNotifyUnregister : zbPersistNotifyUnregister.Only Neutral :=
  neutral_stackCall.bind fun _ => neutral_call rfl

theorem neutral_zbStartupWaitCb (status : ZbStatus) (info : InfoId) :
    (zbStartupWaitCb status info).Only Neutral := by
  apply (neutral_call (by trivial)).bind
  intro _
  apply (neutral_call (by trivial)).bind
  exact fun _ => neutral_call trivial

theorem neutral_processRequest : appZigbeeProcessRequestM0ToM4.Only Neutral := by
  apply (neutral_call (by trivial)).bind
  intro (received : Nat)
  apply Prog.Only.ite _ (Prog.only_pure ())
  exact (neutral_call (by trivial)).bind fun _ => neutral_call trivial

theorem neutral_userExtiHandler : userExtiHandler.Only Neutral := by
  apply (neutral_call (by trivial)).bind
  intro (pressed : Bool)
  exact Prog.Only.ite (neutral_call (by simp [Neutral])) (Prog.only_pure ())

/-! ## Assertions that a boot keeps -/

abbrev Runs (env : Env) (A : BootState → Prop) {α : Type} (program : Firmware α)
    (B : α → BootState → Prop) : Prop :=
  Triple (bootRely env) NotRestored HandleSet A program B

structure Kept (A : BootState → Prop) : Prop where
  ready : ∀ s, A s → Ready s
  later : ∀ s t, A s → Later s t → A t

variable {A : BootState → Prop}

theorem Kept.stable (kept : Kept A) : Stable (sequencer env) A :=
  fun source s holds => kept.later s _ holds (onward_interrupt source s.app).later

theorem Kept.lift (kept : Kept A) {α : Type} {program : App α} (only : program.Only Neutral) :
    Runs env A (lift program) fun _ => A := by
  apply triple_retains kept.stable
  apply only.translate
  intro c neutral
  cases c with
  | own c =>
    apply (Prog.only_call _).mpr
    intro s holds
    refine ⟨trivial, fun choice answer t done _ => ?_⟩
    rcases Option.map_eq_some_iff.mp done with ⟨⟨value, u⟩, moved, same⟩
    rcases Prod.mk.inj same with ⟨_, rfl⟩
    exact kept.later s _ holds (neutral_onward neutral moved).later
  | wait event =>
    apply (Prog.only_call _).mpr
    intro s holds
    refine ⟨kept.ready s holds, fun t later _ => ?_⟩
    exact kept.later t _ (kept.later s t holds later) (onward_clearEvt event t.app).later

theorem Kept.wait (kept : Kept A) (event : SeqEvent) :
    Runs env A (utilSeqWaitEvt event) fun _ => A :=
  kept.lift (neutral_wait event)

theorem perform_zb {c : BootCall} {choice : Choice} {answer : c.Answer} {s t : BootState}
    (done : perform env c choice s = some (answer, t)) (set : s.zb = true) : t.zb = true := by
  cases c with
  | app c =>
    rcases Option.map_eq_some_iff.mp done with ⟨_, _, same⟩
    rcases Prod.mk.inj same with ⟨_, rfl⟩
    exact set
  | azcl request =>
    obtain rfl := answered_state done
    exact set
  | azclInit =>
    obtain rfl := answered_state done
    rfl
  | zbInit =>
    rcases Option.ite_none_left_eq_some.mp done with ⟨_, done⟩
    obtain rfl := answered_state done
    exact set
  | zbStartupPersist =>
    obtain rfl := mapped_state done
    exact set
  | sysEvtReady =>
    obtain rfl := mapped_state done
    exact set

theorem set_later {s t : BootState} (set : t.zb = true) : Later s t where
  handle := fun _ => set
  ready := fun _ unset => absurd (set.symm.trans unset) (by decide)

theorem set_kept : Kept fun s => s.zb = true where
  ready := fun s set unset => absurd (set.symm.trans unset) (by decide)
  later := fun _ _ set later => later.handle set

theorem runs_set {α : Type} (program : Firmware α) (s₀ : BootState) :
    Runs env (fun s => s.zb = true) program fun _ => Later s₀ := by
  have only : program.Only
      (Retains (bootRely env) NotRestored HandleSet fun s => s.zb = true) := by
    apply (Prog.only_anything program).mono
    intro c _
    cases c with
    | own c =>
      intro s set
      refine ⟨?_, fun choice answer t done _ => perform_zb done set⟩
      cases c with
      | azcl request => exact set
      | _ => trivial
    | wait event =>
      intro s set
      exact ⟨set_kept.ready s set, fun t later _ => later.handle set⟩
  exact triple_weaken (triple_retains set_kept.stable only) (fun _ set => set)
    fun _ _ set => set_later set

structure Booting (s₀ s : BootState) : Prop where
  ready : Ready s
  later : Later s₀ s

structure Unless (s₀ : BootState) (exception : Prop) (s : BootState) : Prop where
  booting : Booting s₀ s
  set : exception → s.zb = true

theorem booting_kept (s₀ : BootState) : Kept (Booting s₀) where
  ready := fun _ booting => booting.ready
  later := fun _ _ booting later => ⟨later.ready booting.ready, booting.later.trans later⟩

theorem unless_kept (s₀ : BootState) (exception : Prop) : Kept (Unless s₀ exception) where
  ready := fun _ boots => boots.booting.ready
  later := fun _ _ boots later =>
    ⟨(booting_kept s₀).later _ _ boots.booting later, fun holds => later.handle (boots.set holds)⟩

theorem runs_call (s₀ : BootState) (c : BootCall) {exception : c.Answer → Prop}
    (allowed : ∀ s, HandleSet c s)
    (later : ∀ s choice answer t, perform env c choice s = some (answer, t) → Later s t)
    (told : ∀ s choice answer t, perform env c choice s = some (answer, t) →
      NotRestored c answer s → Ready s → s.zb = false → ¬ exception answer) :
    Runs env (Booting s₀) (call c) fun answer => Unless s₀ (exception answer) := by
  apply triple_own (booting_kept s₀).stable (fun answer => (unless_kept s₀ _).stable)
  intro s booting
  refine ⟨allowed s, fun choice answer t done meets => ?_⟩
  have onward := later s choice answer t done
  refine ⟨(booting_kept s₀).later s t booting onward, fun holds => ?_⟩
  cases set : s.zb with
  | false => exact absurd holds (told s choice answer t done meets booting.ready set)
  | true => exact onward.handle set

theorem runs_excepted {s₀ : BootState} {exception : Prop} (holds : exception) {α : Type}
    (program : Firmware α) : Runs env (Unless s₀ exception) program fun _ => Later s₀ :=
  triple_weaken (runs_set program s₀) (fun _ boots => boots.set holds) fun _ _ later => later

theorem runs_otherwise {s₀ : BootState} {exception : Prop} {α : Type} {program : Firmware α}
    {B : α → BootState → Prop} (runs : Runs env (Booting s₀) program B) :
    Runs env (Unless s₀ exception) program B :=
  triple_weaken runs (fun _ boots => boots.booting) fun _ _ result => result

theorem runs_neutral (s₀ : BootState) {α : Type} {program : App α} (only : program.Only Neutral) :
    Runs env (Booting s₀) (lift program) fun _ => Later s₀ :=
  triple_weaken ((booting_kept s₀).lift only) (fun _ boots => boots) fun _ _ boots => boots.later

theorem runs_done (s₀ : BootState) : Runs env (Booting s₀) (pure ()) fun _ => Later s₀ :=
  triple_pure (booting_kept s₀).stable fun _ boots => boots.later

theorem later_neutral {c : AppCall} (neutral : Neutral (.own c)) {choice : Choice}
    {answer : c.Answer} {s t : BootState}
    (done : perform env (.app c) choice s = some (answer, t)) : Later s t := by
  rcases Option.map_eq_some_iff.mp done with ⟨⟨value, u⟩, moved, same⟩
  rcases Prod.mk.inj same with ⟨_, rfl⟩
  exact (neutral_onward neutral moved).later

/-! ## The tasks -/

/-- Before `azcl_init` no startup has failed, so there is nothing to try again. -/
theorem runs_getAppInfo (s₀ : BootState) : Runs env (Booting s₀) (lift getAppInfo)
    fun info => Unless s₀ (info.joinStatus ≠ zbStatusSuccess) := by
  apply runs_call s₀ (.app .getAppInfo) (fun _ => trivial)
  · intro s choice answer t done
    exact later_neutral (by trivial) done
  · intro s choice info t done _ ready unset
    rcases Prod.mk.inj (Option.some.inj done) with ⟨rfl, _⟩
    exact not_not_intro (ready unset).1

theorem runs_appZigbeeNwkStart (s₀ : BootState) :
    Runs env (Booting s₀) appZigbeeNwkStart fun _ => Later s₀ := by
  apply triple_bind (runs_getAppInfo s₀)
  intro info
  apply triple_ite
  · intro _
    exact runs_otherwise (runs_done s₀)
  · intro failed
    exact runs_excepted failed _

theorem runs_nwkStartOf (s₀ : BootState) (type : ZbStartType) :
    Runs env (Booting s₀) (lift (setNwkJoinType type) >>= fun _ => appZigbeeNwkStart)
      fun _ => Later s₀ := by
  apply triple_bind ((booting_kept s₀).lift (neutral_call (by trivial)))
  exact fun _ => runs_appZigbeeNwkStart s₀

theorem runs_getPersistCb (s₀ : BootState) : Runs env (Booting s₀) (lift getPersistCb)
    fun registered => Unless s₀ (registered = true) := by
  apply runs_call s₀ (.app .getPersistCb) (fun _ => trivial)
  · intro s choice answer t done
    exact later_neutral (by trivial) done
  · intro s choice registered t done _ ready unset
    rcases Prod.mk.inj (Option.some.inj done) with ⟨rfl, _⟩
    simp [(ready unset).2.1]

theorem runs_notification (s₀ : BootState) : Runs env (Booting s₀) (lift notification)
    fun notified => Unless s₀ (∃ status, notified = .startupPersist status) := by
  apply runs_call s₀ (.app .notification) (fun _ => trivial)
  · intro s choice answer t done
    exact later_neutral (by trivial) done
  · intro s choice notified t done meets _ unset holds
    rcases holds with ⟨status, restored⟩
    exact meets unset status restored

theorem runs_zigbeeCallBackProcessing (s₀ : BootState) :
    Runs env (Booting s₀) zigbeeCallBackProcessing fun _ => Later s₀ := by
  apply triple_bind (runs_notification s₀)
  intro notified
  cases notified with
  | startup status info => exact runs_otherwise (runs_neutral s₀ (neutral_zbStartupWaitCb _ _))
  | startupPersist status => exact runs_excepted ⟨status, rfl⟩ _
  | persist =>
    apply runs_otherwise
    apply triple_bind (runs_getPersistCb s₀)
    intro registered
    apply triple_ite
    · intro holds
      exact runs_excepted holds _
    · intro _
      exact runs_otherwise (runs_done s₀)
  | other requests => exact runs_otherwise (runs_neutral s₀ (neutral_plainCalls requests))

theorem runs_processNotify (s₀ : BootState) :
    Runs env (Booting s₀) appZigbeeProcessNotifyM0ToM4 fun _ => Later s₀ := by
  have booting := booting_kept s₀
  apply triple_bind (booting.lift (neutral_call (by trivial)))
  intro (received : Nat)
  apply triple_ite
  · intro _
    apply triple_bind (booting.lift (neutral_call (by trivial)))
    exact fun _ => runs_zigbeeCallBackProcessing s₀
  · intro _
    exact runs_done s₀

/-! ## The boot -/

theorem runs_allocFail (s₀ : BootState) : Runs env (Booting s₀) (pure zbStatusAllocFail)
    fun status => Unless s₀ (status = zbStatusSuccess) :=
  triple_pure (booting_kept s₀).stable fun _ boots => ⟨boots, fun same => absurd same (by decide)⟩

theorem runs_zbStartupPersistCall (s₀ : BootState) : Runs env (Booting s₀) zbStartupPersistCall
    fun status => Unless s₀ (status = zbStatusSuccess) := by
  apply runs_call s₀ .zbStartupPersist (fun _ => trivial)
  · intro s choice status t done
    obtain rfl := mapped_state done
    exact .refl t
  · intro s choice status t _ meets _ unset
    exact meets unset

theorem runs_zbStartupPersist (s₀ : BootState) : Runs env (Booting s₀) zbStartupPersist
    fun status => Unless s₀ (status = zbStatusSuccess) := by
  apply triple_bind ((booting_kept s₀).lift (neutral_call (by trivial)))
  intro (allocated : Bool)
  apply triple_ite
  · intro _
    apply triple_bind ((booting_kept s₀).wait _)
    intro _
    apply triple_bind (runs_zbStartupPersistCall s₀)
    intro status
    apply triple_bind ((unless_kept s₀ _).wait _)
    exact fun _ => triple_pure (unless_kept s₀ _).stable fun _ boots => boots
  · intro _
    exact runs_allocFail s₀

theorem runs_appZigbeeZbStartupPersist (s₀ : BootState) :
    Runs env (Booting s₀) appZigbeeZbStartupPersist
      fun status => Unless s₀ (status = zbStatusSuccess) := by
  apply triple_bind ((booting_kept s₀).lift (neutral_onStorage _))
  intro readStatus
  apply triple_ite
  · intro _
    apply triple_bind ((booting_kept s₀).lift neutral_stackCall)
    exact fun _ => runs_zbStartupPersist s₀
  · intro _
    exact runs_allocFail s₀

theorem runs_anyway (c : AppCall) :
    Runs env (fun _ => True) (lift (Zigbee.call c)) fun _ _ => True :=
  triple_own (fun _ _ _ => trivial) (fun _ _ _ _ => trivial)
    fun _ _ => ⟨trivial, fun _ _ _ _ _ => trivial⟩

/-- A failed restart is recorded before the handle is set, but nothing runs in between. -/
theorem runs_restarted (s₀ : BootState) (status : ZbStatus) :
    Runs env (Unless s₀ (status = zbStatusSuccess)) (restarted status) fun _ _ => True := by
  apply triple_ite
  · intro success
    exact triple_weaken (runs_excepted success _) (fun _ boots => boots) fun _ _ _ => trivial
  · intro _
    have recorded : Runs env (fun _ => True) (do
        lift (setJoinStatus none 1)
        let now ← lift halGetTick
        lift (setAppInfo fun info => { info with joinDelay := now, startupControl := .join }))
        fun _ _ => True := by
      apply triple_bind (runs_anyway _)
      intro _
      apply triple_bind (runs_anyway _)
      exact fun _ => runs_anyway _
    exact triple_weaken recorded (fun _ _ => trivial) fun _ _ result => result

theorem runs_azclInit (s₀ : BootState) :
    Runs env (fun _ => True) azclInit fun _ => Later s₀ := by
  have sets : Runs env (fun _ => True) azclInit fun _ s => s.zb = true := by
    apply triple_own (fun _ _ _ => trivial) (fun _ => set_kept.stable)
    intro s _
    refine ⟨trivial, fun choice answer t done _ => ?_⟩
    obtain rfl := answered_state done
    rfl
  exact triple_weaken sets (fun _ _ => trivial) fun _ _ set => set_later set

theorem runs_zbInit (s₀ : BootState) : Runs env (Booting s₀) zbInit fun _ => Booting s₀ := by
  apply triple_own (booting_kept s₀).stable (fun _ => (booting_kept s₀).stable)
  intro s boots
  refine ⟨trivial, fun choice answer t done _ => ?_⟩
  rcases Option.ite_none_left_eq_some.mp done with ⟨_, done⟩
  obtain rfl := answered_state done
  exact (booting_kept s₀).later s _ boots ⟨id, id⟩

theorem runs_appZigbeeStackLayersInit (s₀ : BootState) :
    Runs env (Booting s₀) appZigbeeStackLayersInit fun _ => Later s₀ := by
  apply triple_bind (runs_zbInit s₀)
  intro _
  apply triple_bind ((booting_kept s₀).lift (neutral_plainCalls _))
  intro _
  apply triple_bind ((booting_kept s₀).lift neutral_zbPersistNotifyUnregister)
  intro _
  apply triple_bind (runs_appZigbeeZbStartupPersist s₀)
  intro status
  apply triple_bind (runs_restarted s₀ status)
  exact fun _ => runs_azclInit s₀

theorem runs_shciUserEvtProc (s₀ : BootState) :
    Runs env (Booting s₀) shciUserEvtProc fun _ => Later s₀ := by
  have reads : Runs env (Booting s₀) sysEvtReady fun _ => Booting s₀ := by
    apply triple_own (booting_kept s₀).stable (fun _ => (booting_kept s₀).stable)
    intro s boots
    refine ⟨trivial, fun choice ready t done _ => ?_⟩
    obtain rfl := mapped_state done
    exact boots
  apply triple_bind reads
  intro ready
  apply triple_ite
  · intro _
    apply triple_bind ((booting_kept s₀).lift (neutral_onStorage _))
    intro _
    apply triple_bind ((booting_kept s₀).wait _)
    exact fun _ => runs_appZigbeeStackLayersInit s₀
  · intro _
    exact runs_done s₀

/-! ## Every run -/

theorem later_take (task : SeqTask) (s : BootState) : Later s ((sequencer env).take task s) where
  handle := id
  ready := by
    intro ready unset
    rcases ready unset with ⟨joinStatus, persistCb, formTask⟩
    refine ⟨joinStatus, persistCb, ?_⟩
    change Function.update s.app.taskSet task false .zigbeeNetworkForm = false
    by_cases same : SeqTask.zigbeeNetworkForm = task
    · subst same
      exact Function.update_self _ _ _
    · exact (Function.update_of_ne same _ _).trans formTask

theorem boot_keeps : Keeps (bootRely env) NotRestored HandleSet := by
  intro event task s ready _ pending
  have taken : Booting s ((sequencer env).take task s) :=
    ⟨(later_take task s).ready ready, later_take task s⟩
  cases task with
  | notifyFromM0ToM4 => exact runs_processNotify s _ taken
  | zigbeeNetworkForm =>
    -- it is queued only after it has run once, and then the handle is set
    have set : s.zb = true := by
      by_contra unset
      have free := (ready (by simpa using unset)).2.2
      exact Bool.false_ne_true (free.symm.trans pending)
    exact runs_set _ s _ set
  | systemHciAsynchEvt => exact runs_shciUserEvtProc s _ taken
  | zigbeeNwkForm => exact runs_nwkStartOf s .form _ taken
  | zigbeeNwkJoin => exact runs_nwkStartOf s .join _ taken
  | requestFromM0ToM4 => exact runs_neutral s neutral_processRequest _ taken
  | bitmapGpioInt => exact runs_neutral s neutral_userExtiHandler _ taken
  | bitmapTest => exact runs_neutral s (Prog.only_pure ()) _ taken
  | zigbeeEnterStop => exact runs_neutral s (Prog.only_pure ()) _ taken

theorem ready_powerOn (mem : Memory) (cache : Nat → Data) : Ready (powerOn mem cache) :=
  fun _ => ⟨rfl, rfl, rfl⟩

/-- Where the stack does not restart from persistence before `azcl_init`, every `azcl_*`
operation of every run finds the handle set. -/
theorem handle_set_in_use (env : Env) (mem : Memory) (cache : Nat → Data)
    (moves : List (Move SeqTask Source Choice)) (c : Config bootSig SeqEvent BootState)
    (run : (sequencer env).run ⟨powerOn mem cache, []⟩ moves = some c)
    (fresh : (sequencer env).Meets NotRestored ⟨powerOn mem cache, []⟩ moves) :
    Kernel.Calls HandleSet c.data c.stack :=
  run_calls boot_keeps (ready_powerOn mem cache) run fresh

/-! ## A fresh start and a restart -/

abbrev BootMove := Move SeqTask Source Choice

def settled (n : Nat) : List BootMove := List.replicate n (.call .settled)

def cmdEvtReceived : Source := ⟨.cmdEvtReceived, by decide⟩

def notReceived : Source := ⟨.notReceived, by decide⟩

def requestMoves (choice : Choice) : List BootMove :=
  [.idle, .wake, .call choice, .interrupt cmdEvtReceived, .wake]

def responseMoves : List BootMove := [.interrupt ⟨.shciCmdRespRelease, by decide⟩, .wake]

def readyMoves : List BootMove :=
  [.interrupt ⟨.setTask .systemHciAsynchEvt, by decide⟩, .dispatch .systemHciAsynchEvt,
    .call (.flag true)]

def layersMoves : List BootMove :=
  responseMoves ++ settled 1 ++ requestMoves .settled ++ requestMoves .settled ++
    requestMoves (.flag true) ++ settled 1

def freshMoves : List BootMove :=
  readyMoves ++ settled 27 ++ responseMoves ++ settled 9 ++ responseMoves ++ settled 11 ++
    layersMoves ++ settled 513 ++ [.call (.tick 0)] ++ settled 2 ++ [.finish]

def joinMoves : List BootMove :=
  [.interrupt ⟨.gpioExti, by decide⟩, .dispatch .bitmapGpioInt, .call (.flag true),
    .call .settled, .finish, .dispatch .zigbeeNwkJoin] ++ settled 2 ++
    requestMoves .settled ++ requestMoves .settled ++ settled 1 ++
    [.call (.block (some (1, ⟨false, 0⟩)))] ++ settled 2 ++ [.call (.flag true)] ++
    requestMoves (.status zbStatusSuccess) ++
    [.interrupt notReceived, .dispatch .notifyFromM0ToM4] ++ settled 2 ++
    [.call (.notification (.startup zbStatusSuccess 1))] ++ settled 3 ++ [.finish, .wake] ++
    settled 5 ++ requestMoves (.flag true) ++ settled 1

def blankBoot : Config bootSig SeqEvent BootState := ⟨powerOn (fun _ => eeErased) fun _ => 0, []⟩

/-- After a fresh start the first join asks for permission to join with the handle set. -/
theorem handle_set_fresh : ∃ c,
    (sequencer quiet).run blankBoot (freshMoves ++ joinMoves) = some c ∧
    (sequencer quiet).Meets NotRestored blankBoot (freshMoves ++ joinMoves) ∧
    Kernel.Calls HandleSet c.data c.stack := by
  have runs : ((sequencer quiet).run blankBoot (freshMoves ++ joinMoves)).isSome = true := by
    decide +kernel
  have fresh : (sequencer quiet).Meets NotRestored blankBoot (freshMoves ++ joinMoves) := by
    decide +kernel
  rcases Option.isSome_iff_exists.mp runs with ⟨c, run⟩
  exact ⟨c, run, fresh, handle_set_in_use quiet _ _ (freshMoves ++ joinMoves) c run fresh⟩

def recorded : Memory := fun address =>
  if address = 0x08070008 then eeProgrammed
  else if address = 0x08070020 then element 0 4
  else if address = 0x08070028 then element 1 7
  else eeErased

def restartMoves : List BootMove :=
  readyMoves ++ settled 36 ++ layersMoves ++ settled 1023 ++ requestMoves .settled ++
    [.call (.flag true)] ++ requestMoves (.status zbStatusSuccess) ++ requestMoves .settled ++
    settled 1

/-- The settings are configured before `azcl_init`. -/
theorem restart_without_handle : ∃ moves c,
    (sequencer quiet).run ⟨powerOn recorded fun _ => 0, []⟩ moves = some c ∧
      ¬ Kernel.Calls HandleSet c.data c.stack := by
  have used : ((sequencer quiet).run ⟨powerOn recorded fun _ => 0, []⟩ restartMoves).any
      (fun c => decide (¬ Kernel.Calls HandleSet c.data c.stack)) = true := by
    decide +kernel
  rcases (Option.any_eq_true _ _).mp used with ⟨c, run, unset⟩
  exact ⟨restartMoves, c, run, of_decide_eq_true unset⟩

end Baelux.Zigbee.Boot

import Baelux.Zigbee.Sequencer

/-! The boot of `app_zigbee.c`, and its tasks with each use of the handle that
`app_zigbee_customlib.c` keeps for itself. Without these uses the tasks are those of
the application. -/

namespace Baelux.Zigbee.Boot

open Effect Nesting Flash Nvm

inductive BootCall where
  | app (call : AppCall)
  /-- An `azcl_*` function hands its static `zb` to the stack. -/
  | azcl (request : PlainRequest)
  | azclInit
  /-- `ZbInit`, with the assertion that follows it. -/
  | zbInit
  | zbStartupPersist
  /-- Whether the system event is `SHCI_SUB_EVT_CODE_READY`. -/
  | sysEvtReady

def BootCall.Answer : BootCall → Type
  | .app call => call.Answer
  | .zbStartupPersist => ZbStatus
  | .sysEvtReady => Bool
  | _ => Unit

abbrev bootSig : Sig := ⟨BootCall, BootCall.Answer⟩

abbrev Firmware := Task bootSig SeqEvent

section Calls

def call (c : BootCall) : Firmware c.Answer := @Prog.call (waiting bootSig SeqEvent) (.own c)

def utilSeqWaitEvt (event : SeqEvent) : Firmware Unit :=
  @Prog.call (waiting bootSig SeqEvent) (.wait event)

def liftCall : (c : TaskCall appSig SeqEvent) → Firmware c.Answer
  | .own c => call (.app c)
  | .wait event => utilSeqWaitEvt event

def setJoinStatus (requested : Option InfoId) (status : ZbStatus) : App Unit :=
  Zigbee.call (.setJoinStatus requested status)

def setNwkJoinType (type : ZbStartType) : App Unit := Zigbee.call (.setNwkJoinType type)
def setPersistCb (registered : Bool) : App Unit := Zigbee.call (.setPersistCb registered)
def appDbg (message : Message) : App Unit := Zigbee.call (.appDbg message)
def resetCptReceiveNotifyFromM0 : App Unit := Zigbee.call .resetCptReceiveNotifyFromM0

def lift {α : Type} (program : App α) : Firmware α := program.translate liftCall

def handOver (request : PlainRequest) : Firmware Unit := call (.azcl request)
def zbInit : Firmware Unit := call .zbInit
def zbStartupPersistCall : Firmware ZbStatus := call .zbStartupPersist
def sysEvtReady : Firmware Bool := call .sysEvtReady

end Calls

/-! ## The custom library -/

def azclRequest (request : PlainRequest) : Firmware Unit := do
  handOver request
  lift (plainCall request)

def azclRequests : List PlainRequest → Firmware Unit
  | [] => pure ()
  | request :: rest => do
      azclRequest request
      azclRequests rest

def azclInit : Firmware Unit := call .azclInit
def azclRegisterZdoMsg : Firmware Unit := azclRequest .zdoDeviceAnnceFilterRegister
def azclBroadcastPermitJoinRequest : Firmware Unit := azclRequest .zdoPermitJoinReq

/-! ## The tasks -/

def appZigbeeConfigSettings : Firmware Unit :=
  azclRequests
    [.nwkSet, .zdoDeviceAnnceFilterRegister, .nwkGet,
      -- azcl_announce
      .extAddrGet, .nwkGet, .zdoDeviceAnnce,
      -- APP_ZIGBEE_ConfigGA_Remote
      .apsmeAddGroupReq, .apsmeAddGroupReq]

def appZigbeePersistNotifyCb : Firmware Unit := do
  azclBroadcastPermitJoinRequest
  let _ ← lift appZigbeePersistSave
  pure ()

def appZigbeePersistCompletedCallback (status : ZbStatus) : Firmware Unit := do
  lift (restoreClusterAttr status)
  lift zbPersistNotifyRegister
  appZigbeePersistNotifyCb

def startupEnded (requested : Option InfoId) (status : ZbStatus) (failed : App Unit) :
    Firmware Unit := do
  lift (setJoinStatus requested status)
  if status = zbStatusSuccess then
    lift (setAppInfo fun info => { info with joinDelay := 0, initAfterJoin := true })
    lift (appDbg (.startupDone requested))
    lift zbPersistNotifyRegister
    appZigbeePersistNotifyCb
  else lift failed

def appZigbeeNwkStart : Firmware Unit := do
  let info ← lift getAppInfo
  if info.joinStatus = zbStatusSuccess then pure ()
  else
    lift (plainCall .setLogging)
    lift (plainCall .startupConfigGetProDefaults)
    let type ← lift getNwkJoinType
    let (requested, status) ← lift (zbStartupWait type)
    startupEnded requested status (pure ())
    let joinStatus ← lift (getJoinStatus status)
    if joinStatus ≠ zbStatusSuccess then pure ()
    else
      appZigbeeConfigSettings
      azclRegisterZdoMsg
      let type ← lift getNwkJoinType
      if type = .form then azclBroadcastPermitJoinRequest else pure ()

def appZigbeeNwkStartForm : Firmware Unit := do
  lift (setNwkJoinType .form)
  appZigbeeNwkStart

def appZigbeeNwkStartJoin : Firmware Unit := do
  lift (setNwkJoinType .join)
  appZigbeeNwkStart

def tryStartup (info : AppInfo) (now : BitVec 32) : Firmware Unit := do
  if info.joinStatus ≠ zbStatusSuccess ∧ info.joinDelay ≤ now then
    lift (plainCall .setLogging)
    lift (plainCall .startupConfigGetProDefaults)
    let info ← lift getAppInfo
    let (requested, status) ← lift (zbStartupWait info.startupControl)
    startupEnded requested status do
      delayStartup
      delayStartup
  else pure ()

/-- `APP_ZIGBEE_NwkForm`; the group address is configured with `zigbee_app_info.zb`. -/
def appZigbeeNwkForm : Firmware Unit := do
  let info ← lift getAppInfo
  let now ← lift halGetTick
  tryStartup info now
  let info ← lift getAppInfo
  if info.joinStatus ≠ zbStatusSuccess then lift (utilSeqSetTask .zigbeeNetworkForm)
  else
    lift (plainCall .apsmeAddGroupReq)
    azclRequests [.nwkSet, .zdoDeviceAnnceFilterRegister]

def zigbeeCallBackProcessing : Firmware Unit := do
  match ← lift notification with
  | .startup status info => lift (zbStartupWaitCb status info)
  | .startupPersist status => appZigbeePersistCompletedCallback status
  | .persist =>
      let registered ← lift getPersistCb
      if registered then appZigbeePersistNotifyCb else pure ()
  -- the device announcement among them: `zdoMsgCallback` only updates the server list
  | .other requests => lift (otherCallback requests)

def appZigbeeProcessNotifyM0ToM4 : Firmware Unit := do
  let received ← lift cptReceiveNotifyFromM0
  if received ≠ 0 then
    lift resetCptReceiveNotifyFromM0
    zigbeeCallBackProcessing
  else pure ()

/-! ## The boot -/

/-- `ZbPersistNotifyRegister` without a callback. -/
def zbPersistNotifyUnregister : App Unit := do
  let _ ← stackCall .persistNotifyRegister
  setPersistCb false

def zbStartupPersist : Firmware ZbStatus := do
  let allocated ← lift mallocCallback
  if allocated then
    utilSeqWaitEvt .synchroBypassIdle
    let status ← zbStartupPersistCall
    utilSeqWaitEvt .ackFromM0Evt
    pure status
  else pure zbStatusAllocFail

def appZigbeeZbStartupPersist : Firmware ZbStatus := do
  let readStatus ← lift (onStorage appZigbeeNvmRead)
  if readStatus then
    lift (plainCall .nwkSet)
    zbStartupPersist
  else pure zbStatusAllocFail

/-- The endpoint and the cluster, which are added with `zigbee_app_info.zb`. -/
def appZigbeeConfigEndpoints : App Unit := plainCalls [.other, .other]

/-- What follows the restart from persistence in `APP_ZIGBEE_StackLayersInit`. -/
def restarted (status : ZbStatus) : Firmware Unit := do
  if status = zbStatusSuccess then
    lift (plainCall .setLogging)
    lift (setAppInfo fun info => { info with startupControl := .form })
    appZigbeeConfigSettings
  else
    lift (setJoinStatus none 1)
    let now ← lift halGetTick
    lift (setAppInfo fun info => { info with joinDelay := now, startupControl := .join })

/-- `APP_ZIGBEE_StackLayersInit`; what follows `azcl_init` starts timers. -/
def appZigbeeStackLayersInit : Firmware Unit := do
  zbInit
  lift appZigbeeConfigEndpoints
  lift zbPersistNotifyUnregister
  let status ← appZigbeeZbStartupPersist
  restarted status
  azclInit

def appZigbeeInit : Firmware Unit := do
  let _ ← lift (onStorage appZigbeeNvmInit)
  -- SHCI_C2_ZIGBEE_Init
  utilSeqWaitEvt .systemHciCmdEvtResp
  appZigbeeStackLayersInit

/-- `shci_user_evt_proc` with `APPE_SysUserEvtRx`; an error event is only printed. -/
def shciUserEvtProc : Firmware Unit := do
  let ready ← sysEvtReady
  if ready then appZigbeeInit else pure ()

def taskCb : SeqTask → Firmware Unit
  | .notifyFromM0ToM4 => appZigbeeProcessNotifyM0ToM4
  | .zigbeeNetworkForm => appZigbeeNwkForm
  | .systemHciAsynchEvt => shciUserEvtProc
  | .zigbeeNwkForm => appZigbeeNwkStartForm
  | .zigbeeNwkJoin => appZigbeeNwkStartJoin
  | .requestFromM0ToM4 => lift (Zigbee.taskCb .requestFromM0ToM4)
  | .bitmapGpioInt => lift (Zigbee.taskCb .bitmapGpioInt)
  | .bitmapTest => lift (Zigbee.taskCb .bitmapTest)
  | .zigbeeEnterStop => lift (Zigbee.taskCb .zigbeeEnterStop)

/-! ## The sequencer -/

structure BootState where
  app : State
  /-- Whether the static `zb` of the custom library is set. -/
  zb : Bool
  /-- Whether `zb_ipc_globals.zb` is set. -/
  stackZb : Bool

def perform (env : Env) : (c : BootCall) → Choice → BootState → Option (c.Answer × BootState)
  | .app c, choice, s =>
      (Zigbee.perform env c choice s.app).map fun done => (done.1, { s with app := done.2 })
  | .azcl _, _, s => some ((), s)
  | .azclInit, _, s => some ((), { s with zb := true })
  -- a second `ZbInit` returns NULL, where the assertion stops
  | .zbInit, _, s => if s.stackZb then none else some ((), { s with stackZb := true })
  | .zbStartupPersist, choice, s => choice.status?.map fun status => (status, s)
  | .sysEvtReady, choice, s => choice.flag?.map fun ready => (ready, s)

/-- No code but `APP_ZIGBEE_NwkForm` queues its task: the call at the end of
`APP_ZIGBEE_StackLayersInit` stands behind a return. -/
abbrev Source := { source : Interrupt // source ≠ .setTask .zigbeeNetworkForm }

def interrupt (source : Source) (s : BootState) : BootState :=
  { s with app := Zigbee.interrupt source.1 s.app }

def sequencer (env : Env) : Kernel bootSig SeqEvent SeqTask Source Choice BootState where
  perform := perform env
  interrupt := interrupt
  isSet event s := s.app.evtSet event
  clear event s := { s with app := clearEvt event s.app }
  idle event s := { s with app := evtIdle event s.app }
  mask := evtIdleMask
  pending task s := s.app.taskSet task
  take task s := { s with app := { s.app with
    taskSet := Function.update s.app.taskSet task false } }
  code := taskCb

/-- After a reset: the statics are zero, so `join_status` reads as a success. The cache
lies in a section that is not initialised. -/
def powerOn (mem : Memory) (cache : Nat → Data) : BootState where
  app := started { powerUp mem with cache := cache } ⟨0, 0, .preconfigured, false⟩
  zb := false
  stackZb := false

/-! ## The tasks without the handle -/

def forgetCall : (c : TaskCall bootSig SeqEvent) → App c.Answer
  | .own (.app c) => Zigbee.call c
  | .own (.azcl _) => (pure () : App Unit)
  | .own .azclInit => (pure () : App Unit)
  | .own .zbInit => (pure () : App Unit)
  | .own .zbStartupPersist => (pure zbStatusAllocFail : App ZbStatus)
  | .own .sysEvtReady => (pure false : App Bool)
  | .wait event => Zigbee.utilSeqWaitEvt event

def forget {α : Type} (program : Firmware α) : App α := program.translate forgetCall

variable {α β : Type}

@[simp] theorem forget_pure (value : α) : forget (pure value) = pure value := rfl

@[simp] theorem forget_bind (program : Firmware α) (rest : α → Firmware β) :
    forget (program >>= rest) = forget program >>= fun value => forget (rest value) :=
  @Prog.translate_bind (waiting bootSig SeqEvent) (waiting appSig SeqEvent) α β forgetCall program rest

@[simp] theorem forget_lift (program : App α) : forget (lift program) = program := by
  induction program with
  | done value => rfl
  | ask c next ih =>
    have same : ∀ (rest : c.Answer → Firmware α), (∀ answer, forget (rest answer) = next answer) →
        forget ((liftCall c).bind rest) = .ask c next := by
      intro rest rests
      cases c with
      | own c => exact congrArg (Prog.ask _) (funext rests)
      | wait event => exact congrArg (Prog.ask _) (funext rests)
    exact same _ ih

@[simp] theorem forget_ite {c : Prop} [Decidable c] (first second : Firmware α) :
    forget (if c then first else second) = if c then forget first else forget second := by
  split <;> rfl

@[simp] theorem forget_azclRequest (request : PlainRequest) :
    forget (azclRequest request) = plainCall request := by
  rw [azclRequest, forget_bind, forget_lift]
  rfl

@[simp] theorem forget_azclRequests (requests : List PlainRequest) :
    forget (azclRequests requests) = plainCalls requests := by
  induction requests with
  | nil => rfl
  | cons request rest ih =>
    rw [azclRequests, forget_bind, forget_azclRequest, ih]
    rfl

theorem forget_appZigbeePersistNotifyCb :
    forget appZigbeePersistNotifyCb = Zigbee.appZigbeePersistNotifyCb := by
  simp [appZigbeePersistNotifyCb, azclBroadcastPermitJoinRequest,
    Zigbee.appZigbeePersistNotifyCb, Zigbee.azclBroadcastPermitJoinRequest]

theorem forget_startupEnded (requested : Option InfoId) (status : ZbStatus) (failed : App Unit) :
    forget (startupEnded requested status failed) =
      Zigbee.startupEnded requested status failed := by
  simp only [startupEnded, forget_bind, forget_lift, forget_ite, forget_appZigbeePersistNotifyCb]
  rfl

theorem forget_appZigbeeNwkStart : forget appZigbeeNwkStart = Zigbee.appZigbeeNwkStart := by
  simp [appZigbeeNwkStart, Zigbee.appZigbeeNwkStart, forget_startupEnded,
    appZigbeeConfigSettings, Zigbee.appZigbeeConfigSettings, azclRegisterZdoMsg,
    Zigbee.azclRegisterZdoMsg, azclBroadcastPermitJoinRequest,
    Zigbee.azclBroadcastPermitJoinRequest]

theorem forget_appZigbeeNwkForm : forget appZigbeeNwkForm = Zigbee.appZigbeeNwkForm := by
  simp [appZigbeeNwkForm, Zigbee.appZigbeeNwkForm, tryStartup, Zigbee.tryStartup,
    forget_startupEnded]
  rfl

theorem forget_zigbeeCallBackProcessing :
    forget zigbeeCallBackProcessing = Zigbee.zigbeeCallBackProcessing := by
  simp only [zigbeeCallBackProcessing, forget_bind, forget_lift]
  apply congrArg (bind notification)
  funext notified
  cases notified with
  | startup status info => exact forget_lift _
  | startupPersist status => simp [appZigbeePersistCompletedCallback,
      Zigbee.appZigbeePersistCompletedCallback, forget_appZigbeePersistNotifyCb]
  | persist => simp [forget_appZigbeePersistNotifyCb]
  | other requests => exact forget_lift _

theorem forget_taskCb (task : SeqTask) : forget (taskCb task) = Zigbee.taskCb task := by
  cases task with
  | notifyFromM0ToM4 =>
    simp only [taskCb, appZigbeeProcessNotifyM0ToM4, forget_bind, forget_lift, forget_ite,
      forget_zigbeeCallBackProcessing, forget_pure]
    rfl
  | zigbeeNetworkForm => exact forget_appZigbeeNwkForm
  | systemHciAsynchEvt => rfl
  | zigbeeNwkForm =>
    simp only [taskCb, appZigbeeNwkStartForm, forget_bind, forget_lift, forget_appZigbeeNwkStart]
    rfl
  | zigbeeNwkJoin =>
    simp only [taskCb, appZigbeeNwkStartJoin, forget_bind, forget_lift, forget_appZigbeeNwkStart]
    rfl
  | requestFromM0ToM4 => exact forget_lift _
  | bitmapGpioInt => exact forget_lift _
  | bitmapTest => exact forget_lift _
  | zigbeeEnterStop => exact forget_lift _

end Baelux.Zigbee.Boot

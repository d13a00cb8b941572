import Baelux.Library.Nesting
import Baelux.Nvm.Record

/-! `app_zigbee.c` on the sequencer of `stm32_seq.c`: the tasks, the waits that run
other tasks, and what interrupts and the stack may do meanwhile. -/

namespace Baelux.Zigbee

open Effect Nesting Flash Nvm

inductive SeqTask where
  | notifyFromM0ToM4
  | requestFromM0ToM4
  | zigbeeNetworkForm
  | systemHciAsynchEvt
  | bitmapGpioInt
  | bitmapTest
  | zigbeeEnterStop
  | zigbeeNwkForm
  | zigbeeNwkJoin
  deriving DecidableEq, Repr

inductive SeqEvent where
  | systemHciCmdEvtResp
  | ackFromM0Evt
  | synchroBypassIdle
  | zigbeeStartupEnded
  deriving DecidableEq, Repr

abbrev ZbStatus := BitVec 8

def zbStatusSuccess : ZbStatus := 0
def zbStatusAllocFail : ZbStatus := 0x70

inductive ZbStartType where
  | preconfigured
  | form
  | rejoin
  | join
  deriving DecidableEq, Repr

/-- The fields of `zigbee_app_info` that the tasks use. -/
structure AppInfo where
  joinStatus : ZbStatus
  joinDelay : BitVec 32
  startupControl : ZbStartType
  initAfterJoin : Bool
  deriving DecidableEq, Repr

structure ZbStartupWaitInfo where
  active : Bool
  status : ZbStatus
  deriving DecidableEq, Repr

abbrev InfoId := Nat

/-- Requests to the stack whose answer no task uses. -/
inductive PlainRequest where
  | setLogging
  | startupConfigGetProDefaults
  | zdoPermitJoinReq
  | zdoDeviceAnnceFilterRegister
  | zdoDeviceAnnce
  | nwkSet
  | nwkGet
  | extAddrGet
  | apsmeAddGroupReq
  | zclAttrRead
  | other
  deriving DecidableEq, Repr

inductive Request where
  | plain (request : PlainRequest)
  | startup (startupControl : ZbStartType) (info : InfoId)
  | persistNotifyRegister
  /-- Without a buffer only the length is asked for. -/
  | persistGet (buffer : Bool) (maxlen : Data)
  deriving DecidableEq, Repr

def Request.Answer : Request → Type
  | .plain _ => Unit
  | .startup _ _ => ZbStatus
  | .persistNotifyRegister => Bool
  | .persistGet _ _ => Data

inductive Notification where
  | startup (status : ZbStatus) (info : InfoId)
  | startupPersist (status : ZbStatus)
  | persist
  | other (requests : List PlainRequest)
  deriving DecidableEq, Repr

/-- The traces that mark a success. A startup is named by the record it waited on. -/
inductive Message where
  | startupDone (requested : Option InfoId)
  | persistentDataFlashed
  deriving DecidableEq, Repr

inductive AppCall where
  | storage (call : Call)
  | utilSeqSetTask (task : SeqTask)
  | utilSeqSetEvt (event : SeqEvent)
  | halGetTick
  | getAppInfo
  | setAppInfo (update : AppInfo → AppInfo)
  | setJoinStatus (requested : Option InfoId) (status : ZbStatus)
  /-- Reads `join_status` after a wait that has returned `status`. -/
  | getJoinStatus (status : ZbStatus)
  | getNwkJoinType
  | setNwkJoinType (type : ZbStartType)
  | mallocInfo
  | freeInfo (info : InfoId)
  | writeInfo (info : InfoId) (update : ZbStartupWaitInfo → ZbStartupWaitInfo)
  | infoStatus (info : InfoId)
  | mallocCallback
  | transfer (request : Request)
  | getPersistCb
  | setPersistCb (registered : Bool)
  | clearCache
  | cptReceiveNotifyFromM0
  | resetCptReceiveNotifyFromM0
  | notification
  | cptReceiveRequestFromM0
  | resetCptReceiveRequestFromM0
  | m0Request
  | extiHandler
  | appDbg (message : Message)

def AppCall.Answer : AppCall → Type
  | .storage call => Flash.Answer call
  | .halGetTick => BitVec 32
  | .getAppInfo => AppInfo
  | .getJoinStatus _ => ZbStatus
  | .getNwkJoinType => ZbStartType
  | .mallocInfo => Option InfoId
  | .infoStatus _ => ZbStatus
  | .mallocCallback => Bool
  | .transfer request => request.Answer
  | .getPersistCb => Bool
  | .cptReceiveNotifyFromM0 => Nat
  | .notification => Notification
  | .cptReceiveRequestFromM0 => Nat
  | .extiHandler => Bool
  | _ => Unit

abbrev appSig : Sig := ⟨AppCall, AppCall.Answer⟩

abbrev App := Task appSig SeqEvent

section Calls

def call (c : AppCall) : App c.Answer := @Prog.call (waiting appSig SeqEvent) (.own c)

def utilSeqWaitEvt (event : SeqEvent) : App Unit :=
  @Prog.call (waiting appSig SeqEvent) (.wait event)

def utilSeqSetTask (task : SeqTask) : App Unit := call (.utilSeqSetTask task)
def halGetTick : App (BitVec 32) := call .halGetTick
def getAppInfo : App AppInfo := call .getAppInfo
def setAppInfo (update : AppInfo → AppInfo) : App Unit := call (.setAppInfo update)
def getJoinStatus (status : ZbStatus) : App ZbStatus := call (.getJoinStatus status)
def getNwkJoinType : App ZbStartType := call .getNwkJoinType
def mallocInfo : App (Option InfoId) := call .mallocInfo
def freeInfo (info : InfoId) : App Unit := call (.freeInfo info)
def infoStatus (info : InfoId) : App ZbStatus := call (.infoStatus info)
def mallocCallback : App Bool := call .mallocCallback
def writeInfo (info : InfoId) (update : ZbStartupWaitInfo → ZbStartupWaitInfo) : App Unit :=
  call (.writeInfo info update)

def notification : App Notification := call .notification
def getPersistCb : App Bool := call .getPersistCb
def cptReceiveNotifyFromM0 : App Nat := call .cptReceiveNotifyFromM0
def cptReceiveRequestFromM0 : App Nat := call .cptReceiveRequestFromM0
def extiHandler : App Bool := call .extiHandler

/-- `Pre_ZigbeeCmdProcessing`, the request, and the wait of `ZIGBEE_CmdTransfer`. -/
def stackCall (request : Request) : App request.Answer := do
  utilSeqWaitEvt .synchroBypassIdle
  let answer ← call (.transfer request)
  utilSeqWaitEvt .ackFromM0Evt
  pure answer

def plainCall (request : PlainRequest) : App Unit := stackCall (.plain request)

def plainCalls : List PlainRequest → App Unit
  | [] => pure ()
  | request :: rest => do
      plainCall request
      plainCalls rest

/-- A storage call on the sequencer: the SHCI command waits for its response. -/
def storageCall : (c : Call) → App (Answer c)
  | .eraseActivity on => do
      call (.storage (.eraseActivity on))
      utilSeqWaitEvt .systemHciCmdEvtResp
  | c => call (.storage c)

def zbPersistGet (buffer : Bool) (maxlen : Data) : App Data :=
  stackCall (.persistGet buffer maxlen)

def onStorage {α : Type} (program : Storage α) : App α := program.translate storageCall

def tracedApp {α : Type} (point : Traced) (body : App α) : App α := do
  call (.storage (.enter point))
  let value ← body
  call (.storage (.leave point))
  pure value

end Calls

/-! ## Persistence -/

def azclBroadcastPermitJoinRequest : App Unit := plainCall .zdoPermitJoinReq

def savePersistentData (len : Data) : App Bool := do
  let len ← zbPersistGet true len
  onStorage (setCache 0 len)
  let written ← onStorage appZigbeeNvmWrite
  if written then
    call (.appDbg .persistentDataFlashed)
    pure true
  else pure false

def appZigbeePersistSave : App Bool :=
  tracedApp .persistSave do
    call .clearCache
    let len ← zbPersistGet false 0
    if len = 0 then pure false
    else if stPersistMaxAllocSz < len.toNat then pure false
    else savePersistentData len

def appZigbeePersistNotifyCb : App Unit := do
  azclBroadcastPermitJoinRequest
  let _ ← appZigbeePersistSave
  pure ()

def zbPersistNotifyRegister : App Unit := do
  let rc ← stackCall .persistNotifyRegister
  call (.setPersistCb rc)

def restoreClusterAttr (status : ZbStatus) : App Unit :=
  if status = zbStatusSuccess then plainCall .zclAttrRead else pure ()

def appZigbeePersistCompletedCallback (status : ZbStatus) : App Unit := do
  restoreClusterAttr status
  zbPersistNotifyRegister
  appZigbeePersistNotifyCb

/-! ## Startup -/

def zbStartup (startupControl : ZbStartType) (info : InfoId) : App ZbStatus := do
  let allocated ← mallocCallback
  if allocated then stackCall (.startup startupControl info) else pure zbStatusAllocFail

def zbStartupWaitCb (status : ZbStatus) (info : InfoId) : App Unit := do
  writeInfo info fun record => { record with status := status }
  writeInfo info fun record => { record with active := false }
  call (.utilSeqSetEvt .zigbeeStartupEnded)

/-- `ZbStartupWait`, with the record that it waited on besides the status. -/
def zbStartupWait (startupControl : ZbStartType) : App (Option InfoId × ZbStatus) := do
  match ← mallocInfo with
  | none => pure (none, zbStatusAllocFail)
  | some info => do
      writeInfo info fun _ => ⟨false, 0⟩
      writeInfo info fun record => { record with active := true }
      let status ← zbStartup startupControl info
      if status ≠ zbStatusSuccess then
        freeInfo info
        pure (none, status)
      else
        utilSeqWaitEvt .zigbeeStartupEnded
        let status ← infoStatus info
        freeInfo info
        pure (some info, status)

def azclRegisterZdoMsg : App Unit := plainCall .zdoDeviceAnnceFilterRegister

/-- `APP_ZIGBEE_ConfigSettings` of the remote build, which `app_zigbee_config.h` selects. -/
def appZigbeeConfigSettings : App Unit :=
  plainCalls
    [.nwkSet, .zdoDeviceAnnceFilterRegister, .nwkGet,
      -- azcl_announce
      .extAddrGet, .nwkGet, .zdoDeviceAnnce,
      -- APP_ZIGBEE_ConfigGA_Remote
      .apsmeAddGroupReq, .apsmeAddGroupReq]

/-- What both startup functions do with the status; `sleep_mode_entry` starts a timer. -/
def startupEnded (requested : Option InfoId) (status : ZbStatus) (failed : App Unit) : App Unit := do
  call (.setJoinStatus requested status)
  if status = zbStatusSuccess then
    setAppInfo fun info => { info with joinDelay := 0, initAfterJoin := true }
    call (.appDbg (.startupDone requested))
    zbPersistNotifyRegister
    appZigbeePersistNotifyCb
  else failed

def appZigbeeNwkStart : App Unit := do
  let info ← getAppInfo
  if info.joinStatus = zbStatusSuccess then pure ()
  else
    plainCall .setLogging
    plainCall .startupConfigGetProDefaults
    let type ← getNwkJoinType
    let (requested, status) ← zbStartupWait type
    startupEnded requested status (pure ())
    let joinStatus ← getJoinStatus status
    if joinStatus ≠ zbStatusSuccess then pure ()
    else
      appZigbeeConfigSettings
      azclRegisterZdoMsg
      let type ← getNwkJoinType
      if type = .form then azclBroadcastPermitJoinRequest else pure ()

def appZigbeeNwkStartForm : App Unit := do
  call (.setNwkJoinType .form)
  appZigbeeNwkStart

def appZigbeeNwkStartJoin : App Unit := do
  call (.setNwkJoinType .join)
  appZigbeeNwkStart

def appZigbeeStartupFailDelay : BitVec 32 := 500

def delayStartup : App Unit := do
  let now ← halGetTick
  setAppInfo fun info => { info with joinDelay := now + appZigbeeStartupFailDelay }

/-- The attempt that `APP_ZIGBEE_NwkForm` makes once its delay is over. -/
def tryStartup (info : AppInfo) (now : BitVec 32) : App Unit := do
  if info.joinStatus ≠ zbStatusSuccess ∧ info.joinDelay ≤ now then
    plainCall .setLogging
    plainCall .startupConfigGetProDefaults
    let info ← getAppInfo
    let (requested, status) ← zbStartupWait info.startupControl
    startupEnded requested status do
      delayStartup
      delayStartup
  else pure ()

def appZigbeeNwkForm : App Unit := do
  let info ← getAppInfo
  let now ← halGetTick
  tryStartup info now
  let info ← getAppInfo
  if info.joinStatus ≠ zbStatusSuccess then utilSeqSetTask .zigbeeNetworkForm
  else plainCalls [.apsmeAddGroupReq, .nwkSet, .zdoDeviceAnnceFilterRegister]

/-! ## The other tasks -/

/-- What any other callback of the stack does: it may make requests in turn. -/
def otherCallback (requests : List PlainRequest) : App Unit := plainCalls requests

def zigbeeCallBackProcessing : App Unit := do
  match ← notification with
  | .startup status info => zbStartupWaitCb status info
  | .startupPersist status => appZigbeePersistCompletedCallback status
  | .persist =>
      let registered ← getPersistCb
      if registered then appZigbeePersistNotifyCb else pure ()
  | .other requests => otherCallback requests

def appZigbeeProcessNotifyM0ToM4 : App Unit := do
  let received ← cptReceiveNotifyFromM0
  if received ≠ 0 then
    call .resetCptReceiveNotifyFromM0
    zigbeeCallBackProcessing
  else pure ()

/-- The requests are `ZbMalloc`, `ZbFree` and logging. -/
def appZigbeeProcessRequestM0ToM4 : App Unit := do
  let received ← cptReceiveRequestFromM0
  if received ≠ 0 then
    call .resetCptReceiveRequestFromM0
    call .m0Request
  else pure ()

/-- `user_exti_handler`, with the press event that one of its updates may deliver. -/
def userExtiHandler : App Unit := do
  let pressed ← extiHandler
  if pressed then onButtonPress else pure ()
where
  onButtonPress : App Unit := utilSeqSetTask .zigbeeNwkJoin

def taskCb : SeqTask → App Unit
  | .notifyFromM0ToM4 => appZigbeeProcessNotifyM0ToM4
  | .requestFromM0ToM4 => appZigbeeProcessRequestM0ToM4
  | .zigbeeNetworkForm => appZigbeeNwkForm
  | .bitmapGpioInt => userExtiHandler
  | .zigbeeNwkForm => appZigbeeNwkStartForm
  | .zigbeeNwkJoin => appZigbeeNwkStartJoin
  -- prints, power modes and system events, which touch nothing of the above
  | .systemHciAsynchEvt => pure ()
  | .bitmapTest => pure ()
  | .zigbeeEnterStop => pure ()

/-! ## Programs that only talk to the stack -/

def Talks : TaskCall appSig SeqEvent → Prop
  | .wait .synchroBypassIdle => True
  | .wait .ackFromM0Evt => True
  | .own (.utilSeqSetTask _) => True
  | .own .halGetTick => True
  | .own .getAppInfo => True
  | .own (.setAppInfo _) => True
  | .own .getNwkJoinType => True
  | .own (.setNwkJoinType _) => True
  | .own .mallocCallback => True
  | .own (.transfer (.plain _)) => True
  | .own (.transfer .persistNotifyRegister) => True
  | .own (.setPersistCb _) => True
  | .own .cptReceiveNotifyFromM0 => True
  | .own .resetCptReceiveNotifyFromM0 => True
  | .own .cptReceiveRequestFromM0 => True
  | .own .resetCptReceiveRequestFromM0 => True
  | .own .m0Request => True
  | .own .extiHandler => True
  | _ => False

theorem talks_call {c : AppCall} (talks : Talks (.own c)) : (call c).Only Talks :=
  (Prog.only_call _).mpr talks

theorem talks_wait {event : SeqEvent} (talks : Talks (.wait event)) :
    (utilSeqWaitEvt event).Only Talks :=
  (Prog.only_call _).mpr talks

theorem talks_stackCall {request : Request} (talks : Talks (.own (.transfer request))) :
    (stackCall request).Only Talks := by
  apply (talks_wait (by trivial)).bind
  intro _
  apply (talks_call talks).bind
  intro answer
  apply (talks_wait (by trivial)).bind
  exact fun _ => Prog.only_pure answer

theorem talks_plainCall (request : PlainRequest) : (plainCall request).Only Talks :=
  talks_stackCall trivial

theorem talks_plainCalls (requests : List PlainRequest) : (plainCalls requests).Only Talks := by
  induction requests with
  | nil => exact Prog.only_pure ()
  | cons request rest ih => exact (talks_plainCall request).bind fun _ => ih

theorem talks_zbPersistNotifyRegister : zbPersistNotifyRegister.Only Talks :=
  (talks_stackCall (by trivial)).bind fun _ => talks_call (by trivial)

theorem talks_restoreClusterAttr (status : ZbStatus) : (restoreClusterAttr status).Only Talks :=
  Prog.Only.ite (talks_plainCall _) (Prog.only_pure ())

theorem talks_appZigbeeProcessRequest : appZigbeeProcessRequestM0ToM4.Only Talks := by
  apply (talks_call (by trivial)).bind
  intro (received : Nat)
  apply Prog.Only.ite
  · exact (talks_call (by trivial)).bind fun _ => talks_call (by trivial)
  · exact Prog.only_pure ()

theorem talks_userExtiHandler : userExtiHandler.Only Talks := by
  apply (talks_call (by trivial)).bind
  intro (pressed : Bool)
  exact Prog.Only.ite (talks_call (by trivial)) (Prog.only_pure ())

theorem talks_delayStartup : delayStartup.Only Talks :=
  (talks_call (by trivial)).bind fun _ => talks_call (by trivial)

theorem talks_joined : (do
    appZigbeeConfigSettings
    azclRegisterZdoMsg
    let type ← getNwkJoinType
    if type = .form then azclBroadcastPermitJoinRequest else pure () : App Unit).Only Talks := by
  apply (talks_plainCalls _).bind
  intro _
  apply (talks_plainCall _).bind
  intro _
  apply (talks_call (by trivial)).bind
  intro (type : ZbStartType)
  exact Prog.Only.ite (talks_plainCall _) (Prog.only_pure ())

end Baelux.Zigbee

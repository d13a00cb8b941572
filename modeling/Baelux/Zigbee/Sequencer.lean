import Baelux.Zigbee.Application

/-! The sequencer that runs the tasks, and what their calls, the interrupts and the
stack do to the state. -/

namespace Baelux.Zigbee

open Effect Nesting Flash

/-- What has happened so far; no program reads it. -/
structure History where
  /-- The records of the startup waits in progress, the innermost first. -/
  waits : List InfoId
  /-- The status that the callback of a record was given. -/
  given : InfoId → Option ZbStatus
  /-- The executions of `APP_ZIGBEE_persist_save` in progress. -/
  saving : Nat
  cleaning : Nat
  /-- The SHCI waits for an erase activity command in progress. -/
  erasing : Nat
  /-- The record of the last `ZbPersistGet` into the cache. -/
  snapshot : Nat → Data
  /-- The words that the last `APP_ZIGBEE_NVM_Write` handed to `EEE_Write`. -/
  written : List (Nat × Data)

structure State where
  taskSet : SeqTask → Bool
  evtSet : SeqEvent → Bool
  cptReceiveNotifyFromM0 : Nat
  cptReceiveRequestFromM0 : Nat
  appInfo : AppInfo
  nwkJoinType : ZbStartType
  persistCb : Bool
  heap : InfoId → Option ZbStartupWaitInfo
  /-- The accepted startups whose callback the stack still owes. -/
  owed : InfoId → Bool
  world : World
  history : History

/-- What settles a call: the answer of the stack, of the heap or of the clock. -/
inductive Choice where
  | settled
  | tick (now : BitVec 32)
  | block (info : Option (InfoId × ZbStartupWaitInfo))
  | flag (value : Bool)
  | status (status : ZbStatus)
  | snapshot (length : Data) (data : Nat → Data)
  | notification (notification : Notification)

namespace Choice

def tick? : Choice → Option (BitVec 32)
  | .tick now => some now
  | _ => none

def block? : Choice → Option (Option (InfoId × ZbStartupWaitInfo))
  | .block info => some info
  | _ => none

def flag? : Choice → Option Bool
  | .flag value => some value
  | _ => none

def status? : Choice → Option ZbStatus
  | .status code => some code
  | _ => none

def snapshot? : Choice → Option (Data × (Nat → Data))
  | .snapshot length data => some (length, data)
  | _ => none

def notification? : Choice → Option Notification
  | .notification notified => some notified
  | _ => none

end Choice

def History.trace (h : History) : Call → History
  | .enter .persistSave => { h with saving := h.saving + 1 }
  | .leave .persistSave => { h with saving := h.saving - 1 }
  | .enter .nvmWrite => { h with written := [] }
  | .enter (.eeeWrite addr data) => { h with written := h.written ++ [(addr, data)] }
  | .enter .eeeClean => { h with cleaning := h.cleaning + 1 }
  | .leave .eeeClean => { h with cleaning := h.cleaning - 1 }
  | .eraseActivity _ => { h with erasing := h.erasing + 1 }
  | _ => h

namespace State

def setTask (s : State) (task : SeqTask) : State :=
  { s with taskSet := Function.update s.taskSet task true }

def setEvt (s : State) (event : SeqEvent) : State :=
  { s with evtSet := Function.update s.evtSet event true }

def storage (s : State) (world : World) (c : Call) : State :=
  { s with world := world, history := s.history.trace c }

/-- A block for a startup; the stack owes nothing for it yet. -/
def allocate (s : State) (info : InfoId) (content : ZbStartupWaitInfo) : State :=
  { s with
    heap := Function.update s.heap info (some content)
    history := { s.history with given := Function.update s.history.given info none } }

def free (s : State) (info : InfoId) : State :=
  { s with heap := Function.update s.heap info none }

/-- A write to a freed block is not followed any further. -/
def write (s : State) (info : InfoId) (update : ZbStartupWaitInfo → ZbStartupWaitInfo) : State :=
  { s with heap := Function.update s.heap info ((s.heap info).map update) }

def accept (s : State) (info : InfoId) : State :=
  { s with
    owed := Function.update s.owed info true
    history := { s.history with waits := info :: s.history.waits } }

def giveCallback (s : State) (status : ZbStatus) (info : InfoId) : State :=
  { s with
    owed := Function.update s.owed info false
    history := { s.history with given := Function.update s.history.given info (some status) } }

def fillCache (s : State) (length : Data) (data : Nat → Data) : State :=
  { s with
    world := { s.world with cache := fun i =>
      if 0 < i ∧ i ≤ (length.toNat + 3) / 4 then data (i - 1) else s.world.cache i }
    history := { s.history with snapshot := fun i => if i = 0 then length else data (i - 1) } }

def clearCache (s : State) : State :=
  { s with world := { s.world with cache := fun i =>
      if i < Nvm.cfgEeBank0MaxNb then 0 else s.world.cache i } }

def malloc (s : State) : Option (InfoId × ZbStartupWaitInfo) → Option (Option InfoId × State)
  | none => some (none, s)
  | some (info, content) =>
      if s.heap info = none then some (some info, s.allocate info content) else none

def startup (s : State) (info : InfoId) (status : ZbStatus) : State :=
  if status = zbStatusSuccess then s.accept info else s

def persistGet (s : State) (buffer : Bool) (maxlen : Data) :
    Data × (Nat → Data) → Option (Data × State)
  | (length, data) =>
      if buffer then
        if length.toNat ≤ maxlen.toNat then some (length, s.fillCache length data) else none
      else some (length, s)

def notify (s : State) : Notification → Option (Notification × State)
  | .startup status info =>
      if s.owed info = true then some (.startup status info, s.giveCallback status info) else none
  | .startupPersist status => some (.startupPersist status, s)
  | .persist => some (.persist, s)
  | .other requests => some (.other requests, s)

end State

def performTransfer : (request : Request) → Choice → State → Option (request.Answer × State)
  | .plain _, _, s => some ((), s)
  | .startup _ info, choice, s => choice.status?.map fun status => (status, s.startup info status)
  | .persistNotifyRegister, choice, s => choice.flag?.map fun rc => (rc, s)
  | .persistGet buffer maxlen, choice, s => choice.snapshot?.bind (s.persistGet buffer maxlen)

def perform (env : Env) : (call : AppCall) → Choice → State → Option (call.Answer × State)
  | .storage call, _, s =>
      some ((handle env call s.world).1, s.storage (handle env call s.world).2 call)
  | .utilSeqSetTask task, _, s => some ((), s.setTask task)
  | .utilSeqSetEvt event, _, s => some ((), s.setEvt event)
  | .halGetTick, choice, s => choice.tick?.map fun now => (now, s)
  | .getAppInfo, _, s => some (s.appInfo, s)
  | .setAppInfo update, _, s => some ((), { s with appInfo := update s.appInfo })
  | .setJoinStatus _ status, _, s =>
      some ((), { s with appInfo := { s.appInfo with joinStatus := status } })
  | .getJoinStatus _, _, s => some (s.appInfo.joinStatus, s)
  | .getNwkJoinType, _, s => some (s.nwkJoinType, s)
  | .setNwkJoinType type, _, s => some ((), { s with nwkJoinType := type })
  | .mallocInfo, choice, s => choice.block?.bind s.malloc
  | .freeInfo info, _, s => some ((), s.free info)
  | .writeInfo info update, _, s => some ((), s.write info update)
  | .infoStatus info, _, s => some (((s.heap info).map (·.status)).getD (0 : ZbStatus), s)
  | .mallocCallback, choice, s => choice.flag?.map fun allocated => (allocated, s)
  | .transfer request, choice, s => performTransfer request choice s
  | .getPersistCb, _, s => some (s.persistCb, s)
  | .setPersistCb registered, _, s => some ((), { s with persistCb := registered })
  | .clearCache, _, s => some ((), s.clearCache)
  | .cptReceiveNotifyFromM0, _, s => some (s.cptReceiveNotifyFromM0, s)
  | .resetCptReceiveNotifyFromM0, _, s => some ((), { s with cptReceiveNotifyFromM0 := 0 })
  | .notification, choice, s => choice.notification?.bind s.notify
  | .cptReceiveRequestFromM0, _, s => some (s.cptReceiveRequestFromM0, s)
  | .resetCptReceiveRequestFromM0, _, s => some ((), { s with cptReceiveRequestFromM0 := 0 })
  | .m0Request, _, s => some ((), s)
  | .extiHandler, choice, s => choice.flag?.map fun pressed => (pressed, s)
  | .appDbg _, _, s => some ((), s)

theorem answered_state {β σ : Type} {value answer : β} {s t : σ}
    (done : some (value, s) = some (answer, t)) : s = t :=
  (Prod.mk.inj (Option.some.inj done)).2

theorem mapped_state {α β σ : Type} {o : Option α} {f : α → β} {s t : σ} {answer : β}
    (done : (o.map fun value => (f value, s)) = some (answer, t)) : t = s := by
  rcases Option.map_eq_some_iff.mp done with ⟨_, _, same⟩
  exact (Prod.mk.inj same).2.symm

/-- A request to the stack fills the cache, is an accepted startup, or changes nothing. -/
theorem transfer_state {request : Request} {choice : Choice} {answer : request.Answer}
    {s t : State} (done : performTransfer request choice s = some (answer, t)) :
    t = s ∨ (∃ type info, request = .startup type info ∧ t = s.accept info) ∨
      ∃ buffer maxlen length data, request = .persistGet buffer maxlen ∧
        t = s.fillCache length data := by
  cases request with
  | plain request => exact Or.inl (answered_state done).symm
  | persistNotifyRegister => exact Or.inl (mapped_state done)
  | startup type info =>
    rcases Option.map_eq_some_iff.mp done with ⟨status, _, same⟩
    rcases Prod.mk.inj same with ⟨_, rfl⟩
    unfold State.startup
    split
    · exact Or.inr (Or.inl ⟨type, info, rfl, rfl⟩)
    · exact Or.inl rfl
  | persistGet buffer maxlen =>
    rcases Option.bind_eq_some_iff.mp done with ⟨⟨length, data⟩, _, done⟩
    cases buffer with
    | false => exact Or.inl (answered_state done).symm
    | true =>
      rcases Option.ite_none_right_eq_some.mp done with ⟨_, done⟩
      exact Or.inr (Or.inr ⟨true, maxlen, length, data, rfl, (answered_state done).symm⟩)

theorem malloc_state {choice : Choice} {answer : Option InfoId} {s t : State}
    (done : choice.block?.bind s.malloc = some (answer, t)) :
    t = s ∨ ∃ info content, t = s.allocate info content := by
  rcases Option.bind_eq_some_iff.mp done with ⟨block, _, done⟩
  cases block with
  | none => exact Or.inl (answered_state done).symm
  | some block =>
    rcases Option.ite_none_right_eq_some.mp done with ⟨_, done⟩
    exact Or.inr ⟨block.1, block.2, (answered_state done).symm⟩

theorem notify_state {choice : Choice} {answer : Notification} {s t : State}
    (done : choice.notification?.bind s.notify = some (answer, t)) :
    t = s ∨ ∃ status info, t = s.giveCallback status info := by
  rcases Option.bind_eq_some_iff.mp done with ⟨notified, _, done⟩
  cases notified with
  | startup status info =>
    rcases Option.ite_none_right_eq_some.mp done with ⟨_, done⟩
    exact Or.inr ⟨status, info, (answered_state done).symm⟩
  | _ => exact Or.inl (answered_state done).symm

inductive Interrupt where
  /-- `TL_ZIGBEE_CmdEvtReceived`. -/
  | cmdEvtReceived
  /-- `shci_cmd_resp_release`. -/
  | shciCmdRespRelease
  /-- `TL_ZIGBEE_NotReceived`. -/
  | notReceived
  /-- `TL_ZIGBEE_M0RequestReceived`. -/
  | m0RequestReceived
  /-- `HAL_GPIO_EXTI_Callback`. -/
  | gpioExti
  /-- `APP_ZIGBEE_SetNwkTask`, which any code may call. -/
  | setNwkTask (type : ZbStartType)
  | setTask (task : SeqTask)
  deriving DecidableEq, Repr

def interrupt : Interrupt → State → State
  | .cmdEvtReceived, s => s.setEvt .ackFromM0Evt
  | .shciCmdRespRelease, s => s.setEvt .systemHciCmdEvtResp
  | .notReceived, s =>
      { s.setTask .notifyFromM0ToM4 with cptReceiveNotifyFromM0 := s.cptReceiveNotifyFromM0 + 1 }
  | .m0RequestReceived, s =>
      { s.setTask .requestFromM0ToM4 with
        cptReceiveRequestFromM0 := s.cptReceiveRequestFromM0 + 1 }
  | .gpioExti, s => s.setTask .bitmapGpioInt
  | .setNwkTask type, s =>
      { s.setTask (if type = .form then .zigbeeNwkForm else .zigbeeNwkJoin) with
        nwkJoinType := type }
  | .setTask task, s => s.setTask task

/-- The end of `UTIL_SEQ_WaitEvt`: the event is cleared, and the wait is over. -/
def clearEvt (event : SeqEvent) (s : State) : State :=
  { s with
    evtSet := Function.update s.evtSet event false
    history := match event with
      | .zigbeeStartupEnded => { s.history with waits := s.history.waits.tail }
      | .systemHciCmdEvtResp => { s.history with erasing := s.history.erasing - 1 }
      | _ => s.history }

/-- `UTIL_SEQ_EvtIdle`, up to the `UTIL_SEQ_Run` at its end. -/
def evtIdle (event : SeqEvent) (s : State) : State :=
  if event = .synchroBypassIdle then s.setEvt .synchroBypassIdle else s

/-- The masks that `UTIL_SEQ_EvtIdle` gives `UTIL_SEQ_Run`. -/
def evtIdleMask : SeqEvent → SeqTask → Bool
  | .ackFromM0Evt, task => task = .requestFromM0ToM4
  | .synchroBypassIdle, task => task = .notifyFromM0ToM4 ∨ task = .requestFromM0ToM4
  | _, _ => true

/-- The application on its sequencer. A nested `UTIL_SEQ_Run` only narrows the mask, so a
task runs where each wait below admits it. -/
def sequencer (env : Env) : Kernel appSig SeqEvent SeqTask Interrupt Choice State where
  perform := perform env
  interrupt := interrupt
  isSet event s := s.evtSet event
  clear := clearEvt
  idle := evtIdle
  mask := evtIdleMask
  pending task s := s.taskSet task
  take task s := { s with taskSet := Function.update s.taskSet task false }
  code := taskCb

def started (world : World) (info : AppInfo) : State where
  taskSet := fun _ => false
  evtSet := fun _ => false
  cptReceiveNotifyFromM0 := 0
  cptReceiveRequestFromM0 := 0
  appInfo := info
  nwkJoinType := .preconfigured
  persistCb := false
  heap := fun _ => none
  owed := fun _ => false
  world := world
  history := ⟨[], fun _ => none, 0, 0, 0, fun _ => 0, []⟩

end Baelux.Zigbee

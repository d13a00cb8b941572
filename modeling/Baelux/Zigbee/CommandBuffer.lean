import Baelux.Library.Preemption
import Baelux.Zigbee.Initialisation

/-! The command buffer to the other core, which every stack call writes and then waits on,
and the timer callbacks that run in the RTC wake-up interrupt. -/

namespace Baelux.Zigbee.Commands

open Effect Nesting Flash Nvm
open Boot (BootCall bootSig BootState Firmware)

inductive Command where
  | request (request : Request)
  | zbInit
  | zbStartupPersist

def Command.bootCall : Command → BootCall
  | .request r => .app (.transfer r)
  | .zbInit => .zbInit
  | .zbStartupPersist => .zbStartupPersist

def isCommand : BootCall → Bool
  | .app (.transfer _) | .zbInit | .zbStartupPersist => true
  | _ => false

inductive BufferCall where
  | boot (call : BootCall)
  /-- The stack wrapper writes the command to `ZIGBEE_Get_OTCmdPayloadBuffer`. -/
  | fill (command : Command)
  /-- `ZIGBEE_CmdTransfer` writes the header and sends, with what the other core will answer. -/
  | sendM4RequestToM0 (command : Command)

def BufferCall.Answer : BufferCall → Type
  | .boot call => call.Answer
  | .fill _ => Unit
  | .sendM4RequestToM0 command => command.bootCall.Answer

abbrev bufferSig : Sig := ⟨BufferCall, BufferCall.Answer⟩

abbrev Code := Task bufferSig SeqEvent

section Calls

def call (c : BufferCall) : Code c.Answer := @Prog.call (waiting bufferSig SeqEvent) (.own c)

def utilSeqWaitEvt (event : SeqEvent) : Code Unit :=
  @Prog.call (waiting bufferSig SeqEvent) (.wait event)

/-- A stack call between its two waits: the wrapper fills the buffer, `ZIGBEE_CmdTransfer`
sends it. -/
def transfer (command : Command) : Code command.bootCall.Answer := do
  call (.fill command)
  call (.sendM4RequestToM0 command)

def onBuffer : (c : TaskCall bootSig SeqEvent) → Code c.Answer
  | .own (.app (.transfer request)) => transfer (.request request)
  | .own .zbStartupPersist => transfer .zbStartupPersist
  | .own .zbInit => do
      utilSeqWaitEvt .synchroBypassIdle
      transfer .zbInit
      utilSeqWaitEvt .ackFromM0Evt
  | .own c => call (.boot c)
  | .wait event => utilSeqWaitEvt event

def expand {α : Type} (program : Firmware α) : Code α := program.translate onBuffer

end Calls

/-! ## The timers -/

inductive Timer where
  | sleepEntry
  | nntTimeout
  | btnEvent
  deriving DecidableEq, Repr

def sleepEntryTimerHandler : Code Unit := expand (Boot.lift (utilSeqSetTask .zigbeeEnterStop))

/-- `nnt_timeout_timer`: besides the power modes, one `ZbZclClusterCommandReq`. -/
def nntTimeoutTimer : Code Unit := expand (Boot.lift (plainCall .other))

def timerCb : Timer → Code Unit
  | .sleepEntry => sleepEntryTimerHandler
  | .nntTimeout => nntTimeoutTimer
  -- `buttons_onInvokeTimerElapsed`, whose event handler prints the presses
  | .btnEvent => (pure () : Code Unit)

/-! ## The sequencer under interrupts -/

structure BufferState where
  boot : BootState
  /-- The commands that were sent and still wait in `ZIGBEE_CmdTransfer`. -/
  waiting : Nat

def perform (env : Env) : (c : BufferCall) → Choice → BufferState →
    Option (c.Answer × BufferState)
  | .boot c, choice, s =>
      (Boot.perform env c choice s.boot).map fun done => (done.1, { s with boot := done.2 })
  | .fill _, _, s => some ((), s)
  | .sendM4RequestToM0 command, choice, s =>
      (Boot.perform env command.bootCall choice s.boot).map fun done =>
        (done.1, ⟨done.2, s.waiting + 1⟩)

def clear (env : Env) (event : SeqEvent) (s : BufferState) : BufferState where
  boot := (Boot.sequencer env).clear event s.boot
  waiting := if event = .ackFromM0Evt then s.waiting - 1 else s.waiting

def sequencer (env : Env) : Kernel bufferSig SeqEvent SeqTask Boot.Source Choice BufferState where
  perform := perform env
  interrupt source s := { s with boot := Boot.interrupt source s.boot }
  isSet event s := (Boot.sequencer env).isSet event s.boot
  clear := clear env
  idle event s := { s with boot := (Boot.sequencer env).idle event s.boot }
  mask := evtIdleMask
  pending task s := (Boot.sequencer env).pending task s.boot
  take task s := { s with boot := (Boot.sequencer env).take task s.boot }
  code task := expand (Boot.taskCb task)

/-- `APP_ZIGBEE_prevent_nwk_nnt_timeout` starts its timer right after `azcl_init`, for good. -/
def timerRunning : Timer → BufferState → Bool
  | .nntTimeout, s => s.boot.zb
  | _, _ => true

def firmware (env : Env) :
    Preemptive bufferSig SeqEvent SeqTask Boot.Source Choice Timer BufferState :=
  ⟨sequencer env, timerRunning, timerCb⟩

abbrev FirmwareStep := Step SeqTask Boot.Source Choice Timer

def powered (s : BootState) : Contexts bufferSig SeqEvent BufferState := ⟨⟨s, 0⟩, [], []⟩

/-- No command is written while another one waits for its acknowledgement. -/
def BufferFree : BufferCall → BufferState → Prop
  | .fill _, s | .sendM4RequestToM0 _, s => s.waiting = 0
  | .boot _, _ => True

/-- The timer that makes a stack call does not fire while a command waits. -/
def FiresIdle (timer : Timer) (s : BufferState) : Prop := timer = .nntTimeout → s.waiting = 0

instance (timer : Timer) (s : BufferState) : Decidable (FiresIdle timer s) :=
  inferInstanceAs (Decidable (_ → _))

instance : (call : BufferCall) → (s : BufferState) → Decidable (BufferFree call s)
  | .fill _, s => inferInstanceAs (Decidable (s.waiting = 0))
  | .sendM4RequestToM0 _, s => inferInstanceAs (Decidable (s.waiting = 0))
  | .boot _, _ => isTrue trivial

/-! ## Stack calls follow a protocol -/

inductive Phase where
  | clear
  | filled
  | sent
  deriving DecidableEq, Repr

def protocol : Protocol (waiting bufferSig SeqEvent) Phase where
  home := .clear
  next
    | .clear, .own (.boot c) => if isCommand c then none else some .clear
    | .clear, .own (.fill _) => some .filled
    | .filled, .own (.sendM4RequestToM0 _) => some .sent
    | .sent, .wait .ackFromM0Evt => some .clear
    | .clear, .wait event => if event = .ackFromM0Evt then none else some .clear
    | _, _ => none

def Disciplined {α : Type} (program : Firmware α) : Prop :=
  Follows protocol .clear (expand program)

section Programs

variable {α β : Type}

theorem expand_bind (program : Firmware α) (rest : α → Firmware β) :
    expand (program >>= rest) = expand program >>= fun value => expand (rest value) :=
  @Prog.translate_bind (waiting bootSig SeqEvent) (waiting bufferSig SeqEvent) α β onBuffer program
    rest

theorem lift_bind (program : App α) (rest : α → App β) :
    Boot.lift (program >>= rest) = Boot.lift program >>= fun value => Boot.lift (rest value) :=
  @Prog.translate_bind (waiting appSig SeqEvent) (waiting bootSig SeqEvent) α β Boot.liftCall program
    rest

theorem disciplined_pure (value : α) : Disciplined (pure value) := follows_pure value

theorem disciplined_bind {program : Firmware α} {rest : α → Firmware β}
    (first : Disciplined program) (second : ∀ value, Disciplined (rest value)) :
    Disciplined (program >>= rest) := by
  rw [Disciplined, expand_bind]
  exact follows_bind first second

theorem disciplined_ite {c : Prop} [Decidable c] {first second : Firmware α}
    (yes : Disciplined first) (no : Disciplined second) :
    Disciplined (if c then first else second) := by
  split
  · exact yes
  · exact no

theorem disciplined_call {c : BootCall} (other : isCommand c = false) :
    Disciplined (Boot.call c) := by
  cases c with
  | app c =>
    cases c with
    | transfer request => cases other
    | _ => exact ⟨.clear, rfl, fun _ => rfl⟩
  | zbInit => cases other
  | zbStartupPersist => cases other
  | _ => exact ⟨.clear, rfl, fun _ => rfl⟩

theorem disciplined_wait {event : SeqEvent} (other : event ≠ .ackFromM0Evt) :
    Disciplined (Boot.utilSeqWaitEvt event) :=
  ⟨.clear, if_neg other, fun _ => rfl⟩

theorem disciplined_stackCall (request : Request) :
    Disciplined (Boot.lift (stackCall request)) :=
  ⟨.clear, rfl, fun _ => ⟨.filled, rfl, fun _ => ⟨.sent, rfl, fun _ => ⟨.clear, rfl, fun _ => rfl⟩⟩⟩⟩

theorem disciplined_lift_bind {program : App α} {rest : α → App β}
    (first : Disciplined (Boot.lift program)) (second : ∀ value, Disciplined (Boot.lift (rest value))) :
    Disciplined (Boot.lift (program >>= rest)) := by
  rw [lift_bind]
  exact disciplined_bind first second

theorem disciplined_lift_ite {c : Prop} [Decidable c] {first second : App α}
    (yes : Disciplined (Boot.lift first)) (no : Disciplined (Boot.lift second)) :
    Disciplined (Boot.lift (if c then first else second)) := by
  split
  · exact yes
  · exact no

theorem disciplined_lift_pure (value : α) : Disciplined (Boot.lift (pure value)) :=
  disciplined_pure value

theorem disciplined_lift_call {c : AppCall} (other : isCommand (.app c) = false) :
    Disciplined (Boot.lift (Zigbee.call c)) :=
  disciplined_call other

theorem disciplined_lift_wait {event : SeqEvent} (other : event ≠ .ackFromM0Evt) :
    Disciplined (Boot.lift (Zigbee.utilSeqWaitEvt event)) :=
  disciplined_wait other

/-! ### The programs of the application -/

theorem disciplined_plainCalls (requests : List PlainRequest) :
    Disciplined (Boot.lift (plainCalls requests)) := by
  induction requests with
  | nil => exact disciplined_pure ()
  | cons request rest ih => exact disciplined_lift_bind (disciplined_stackCall _) fun _ => ih

theorem disciplined_onStorage (program : Storage α) :
    Disciplined (Boot.lift (onStorage program)) := by
  induction program with
  | done value => exact disciplined_pure value
  | ask c next ih =>
    have stored : Disciplined (Boot.lift (storageCall c)) := by
      cases c with
      | eraseActivity on =>
        apply disciplined_lift_bind (disciplined_lift_call rfl)
        exact fun _ => disciplined_lift_wait (by decide)
      | _ => exact disciplined_lift_call rfl
    exact disciplined_lift_bind stored ih

theorem disciplined_savePersistentData (len : Data) :
    Disciplined (Boot.lift (savePersistentData len)) := by
  apply disciplined_lift_bind (disciplined_stackCall _)
  intro len
  apply disciplined_lift_bind (disciplined_onStorage _)
  intro _
  apply disciplined_lift_bind (disciplined_onStorage _)
  intro written
  apply disciplined_lift_ite
  · exact disciplined_lift_bind (disciplined_lift_call rfl) fun _ => disciplined_pure true
  · exact disciplined_pure false

theorem disciplined_appZigbeePersistSave : Disciplined (Boot.lift appZigbeePersistSave) := by
  apply disciplined_lift_bind (disciplined_lift_call rfl)
  intro _
  apply disciplined_lift_bind
  · apply disciplined_lift_bind (disciplined_lift_call rfl)
    intro _
    apply disciplined_lift_bind (disciplined_stackCall _)
    intro (len : Data)
    apply disciplined_lift_ite (disciplined_lift_pure false)
    exact disciplined_lift_ite (disciplined_lift_pure false) (disciplined_savePersistentData len)
  · intro value
    exact disciplined_lift_bind (disciplined_lift_call rfl) fun _ => disciplined_pure value

theorem disciplined_zbPersistNotifyRegister : Disciplined (Boot.lift zbPersistNotifyRegister) :=
  disciplined_lift_bind (disciplined_stackCall _) fun _ => disciplined_lift_call rfl

theorem disciplined_restoreClusterAttr (status : ZbStatus) :
    Disciplined (Boot.lift (restoreClusterAttr status)) :=
  disciplined_lift_ite (disciplined_stackCall _) (disciplined_pure ())

theorem disciplined_zbStartupWaitCb (status : ZbStatus) (info : InfoId) :
    Disciplined (Boot.lift (zbStartupWaitCb status info)) := by
  apply disciplined_lift_bind (disciplined_lift_call rfl)
  intro _
  apply disciplined_lift_bind (disciplined_lift_call rfl)
  exact fun _ => disciplined_lift_call rfl

theorem disciplined_zbStartup (type : ZbStartType) (info : InfoId) :
    Disciplined (Boot.lift (zbStartup type info)) := by
  apply disciplined_lift_bind (disciplined_lift_call rfl)
  intro (allocated : Bool)
  exact disciplined_lift_ite (disciplined_stackCall _) (disciplined_pure zbStatusAllocFail)

theorem disciplined_zbStartupWait (type : ZbStartType) :
    Disciplined (Boot.lift (zbStartupWait type)) := by
  apply disciplined_lift_bind (disciplined_lift_call rfl)
  intro (block : Option InfoId)
  cases block with
  | none => exact disciplined_pure (none, zbStatusAllocFail)
  | some info =>
    apply disciplined_lift_bind (disciplined_lift_call rfl)
    intro _
    apply disciplined_lift_bind (disciplined_lift_call rfl)
    intro _
    apply disciplined_lift_bind (disciplined_zbStartup type info)
    intro (status : ZbStatus)
    apply disciplined_lift_ite
    · exact disciplined_lift_bind (disciplined_lift_call rfl) fun _ => disciplined_pure (none, status)
    · apply disciplined_lift_bind (disciplined_lift_wait (by decide))
      intro _
      apply disciplined_lift_bind (disciplined_lift_call rfl)
      intro (status : ZbStatus)
      apply disciplined_lift_bind (disciplined_lift_call rfl)
      exact fun _ => disciplined_pure (some info, status)

theorem disciplined_delayStartup : Disciplined (Boot.lift delayStartup) :=
  disciplined_lift_bind (disciplined_lift_call rfl) fun _ => disciplined_lift_call rfl

theorem disciplined_processRequest : Disciplined (Boot.lift appZigbeeProcessRequestM0ToM4) := by
  apply disciplined_lift_bind (disciplined_lift_call rfl)
  intro (received : Nat)
  apply disciplined_lift_ite
  · exact disciplined_lift_bind (disciplined_lift_call rfl) fun _ => disciplined_lift_call rfl
  · exact disciplined_pure ()

theorem disciplined_userExtiHandler : Disciplined (Boot.lift userExtiHandler) := by
  apply disciplined_lift_bind (disciplined_lift_call rfl)
  intro (pressed : Bool)
  exact disciplined_lift_ite (disciplined_lift_call rfl) (disciplined_pure ())

/-! ### The programs of the boot -/

theorem disciplined_azclRequest (request : PlainRequest) :
    Disciplined (Boot.azclRequest request) :=
  disciplined_bind (disciplined_call rfl) fun _ => disciplined_stackCall _

theorem disciplined_azclRequests (requests : List PlainRequest) :
    Disciplined (Boot.azclRequests requests) := by
  induction requests with
  | nil => exact disciplined_pure ()
  | cons request rest ih => exact disciplined_bind (disciplined_azclRequest request) fun _ => ih

theorem disciplined_persistNotifyCb : Disciplined Boot.appZigbeePersistNotifyCb := by
  apply disciplined_bind (disciplined_azclRequest _)
  intro _
  exact disciplined_bind disciplined_appZigbeePersistSave fun _ => disciplined_pure ()

theorem disciplined_persistCompletedCallback (status : ZbStatus) :
    Disciplined (Boot.appZigbeePersistCompletedCallback status) := by
  apply disciplined_bind (disciplined_restoreClusterAttr status)
  intro _
  apply disciplined_bind disciplined_zbPersistNotifyRegister
  exact fun _ => disciplined_persistNotifyCb

theorem disciplined_startupEnded (requested : Option InfoId) (status : ZbStatus)
    {failed : App Unit} (otherwise : Disciplined (Boot.lift failed)) :
    Disciplined (Boot.startupEnded requested status failed) := by
  apply disciplined_bind (disciplined_call rfl)
  intro _
  apply disciplined_ite _ otherwise
  apply disciplined_bind (disciplined_call rfl)
  intro _
  apply disciplined_bind (disciplined_call rfl)
  intro _
  apply disciplined_bind disciplined_zbPersistNotifyRegister
  exact fun _ => disciplined_persistNotifyCb

theorem disciplined_appZigbeeNwkStart : Disciplined Boot.appZigbeeNwkStart := by
  apply disciplined_bind (disciplined_call rfl)
  intro (info : AppInfo)
  apply disciplined_ite (disciplined_pure ())
  apply disciplined_bind (disciplined_stackCall _)
  intro _
  apply disciplined_bind (disciplined_stackCall _)
  intro _
  apply disciplined_bind (disciplined_call rfl)
  intro (type : ZbStartType)
  apply disciplined_bind (disciplined_zbStartupWait type)
  intro ended
  apply disciplined_bind (disciplined_startupEnded ended.1 ended.2 (disciplined_lift_pure ()))
  intro _
  apply disciplined_bind (disciplined_call rfl)
  intro (joinStatus : ZbStatus)
  apply disciplined_ite (disciplined_pure ())
  apply disciplined_bind (disciplined_azclRequests _)
  intro _
  apply disciplined_bind (disciplined_azclRequest _)
  intro _
  apply disciplined_bind (disciplined_call rfl)
  intro (type : ZbStartType)
  exact disciplined_ite (disciplined_azclRequest _) (disciplined_pure ())

theorem disciplined_tryStartup (info : AppInfo) (now : BitVec 32) :
    Disciplined (Boot.tryStartup info now) := by
  apply disciplined_ite _ (disciplined_pure ())
  apply disciplined_bind (disciplined_stackCall _)
  intro _
  apply disciplined_bind (disciplined_stackCall _)
  intro _
  apply disciplined_bind (disciplined_call rfl)
  intro (info : AppInfo)
  apply disciplined_bind (disciplined_zbStartupWait info.startupControl)
  intro ended
  apply disciplined_startupEnded ended.1 ended.2
  exact disciplined_lift_bind disciplined_delayStartup fun _ => disciplined_delayStartup

theorem disciplined_appZigbeeNwkForm : Disciplined Boot.appZigbeeNwkForm := by
  apply disciplined_bind (disciplined_call rfl)
  intro (info : AppInfo)
  apply disciplined_bind (disciplined_call rfl)
  intro (now : BitVec 32)
  apply disciplined_bind (disciplined_tryStartup info now)
  intro _
  apply disciplined_bind (disciplined_call rfl)
  intro (info : AppInfo)
  apply disciplined_ite (disciplined_call rfl)
  apply disciplined_bind (disciplined_stackCall _)
  exact fun _ => disciplined_azclRequests _

theorem disciplined_callBackProcessing : Disciplined Boot.zigbeeCallBackProcessing := by
  apply disciplined_bind (disciplined_call rfl)
  intro (notified : Notification)
  cases notified with
  | startup status info => exact disciplined_zbStartupWaitCb status info
  | startupPersist status => exact disciplined_persistCompletedCallback status
  | persist =>
    apply disciplined_bind (disciplined_call rfl)
    intro (registered : Bool)
    exact disciplined_ite disciplined_persistNotifyCb (disciplined_pure ())
  | other requests => exact disciplined_plainCalls requests

theorem disciplined_zbStartupPersist : Disciplined Boot.zbStartupPersist := by
  apply disciplined_bind (disciplined_call rfl)
  intro (allocated : Bool)
  apply disciplined_ite _ (disciplined_pure zbStatusAllocFail)
  exact ⟨.clear, rfl, fun _ => ⟨.filled, rfl, fun _ => ⟨.sent, rfl, fun _ =>
    ⟨.clear, rfl, fun _ => rfl⟩⟩⟩⟩

theorem disciplined_zbStartupPersistOrFail : Disciplined Boot.appZigbeeZbStartupPersist := by
  apply disciplined_bind (disciplined_onStorage _)
  intro (readStatus : Bool)
  apply disciplined_ite _ (disciplined_pure zbStatusAllocFail)
  exact disciplined_bind (disciplined_stackCall _) fun _ => disciplined_zbStartupPersist

theorem disciplined_restarted (status : ZbStatus) : Disciplined (Boot.restarted status) := by
  apply disciplined_ite
  · apply disciplined_bind (disciplined_stackCall _)
    intro _
    apply disciplined_bind (disciplined_call rfl)
    exact fun _ => disciplined_azclRequests _
  · apply disciplined_bind (disciplined_call rfl)
    intro _
    apply disciplined_bind (disciplined_call rfl)
    exact fun _ => disciplined_call rfl

theorem disciplined_stackLayersInit : Disciplined Boot.appZigbeeStackLayersInit := by
  have zbInit : Disciplined Boot.zbInit :=
    ⟨.clear, rfl, fun _ => ⟨.filled, rfl, fun _ => ⟨.sent, rfl, fun _ =>
      ⟨.clear, rfl, fun _ => rfl⟩⟩⟩⟩
  apply disciplined_bind zbInit
  intro _
  apply disciplined_bind (disciplined_plainCalls _)
  intro _
  apply disciplined_bind
    (disciplined_lift_bind (disciplined_stackCall _) fun _ => disciplined_lift_call rfl)
  intro _
  apply disciplined_bind disciplined_zbStartupPersistOrFail
  intro (status : ZbStatus)
  exact disciplined_bind (disciplined_restarted status) fun _ => disciplined_call rfl

theorem disciplined_shciUserEvtProc : Disciplined Boot.shciUserEvtProc := by
  apply disciplined_bind (disciplined_call rfl)
  intro (ready : Bool)
  apply disciplined_ite _ (disciplined_pure ())
  apply disciplined_bind (disciplined_onStorage _)
  intro _
  exact disciplined_bind (disciplined_wait (by decide)) fun _ => disciplined_stackLayersInit

theorem disciplined_taskCb (task : SeqTask) : Disciplined (Boot.taskCb task) := by
  cases task with
  | notifyFromM0ToM4 =>
    apply disciplined_bind (disciplined_call rfl)
    intro (received : Nat)
    apply disciplined_ite _ (disciplined_pure ())
    exact disciplined_bind (disciplined_call rfl) fun _ => disciplined_callBackProcessing
  | requestFromM0ToM4 => exact disciplined_processRequest
  | zigbeeNetworkForm => exact disciplined_appZigbeeNwkForm
  | systemHciAsynchEvt => exact disciplined_shciUserEvtProc
  | bitmapGpioInt => exact disciplined_userExtiHandler
  | bitmapTest => exact disciplined_pure ()
  | zigbeeEnterStop => exact disciplined_pure ()
  | zigbeeNwkForm =>
    exact disciplined_bind (disciplined_call rfl) fun _ => disciplined_appZigbeeNwkStart
  | zigbeeNwkJoin =>
    exact disciplined_bind (disciplined_call rfl) fun _ => disciplined_appZigbeeNwkStart

theorem disciplined_timerCb (timer : Timer) : Follows protocol .clear (timerCb timer) := by
  cases timer with
  | sleepEntry =>
    exact disciplined_call (c := .app (.utilSeqSetTask .zigbeeEnterStop)) rfl
  | nntTimeout => exact disciplined_stackCall (.plain .other)
  | btnEvent => exact follows_pure ()

end Programs

/-! ## What runs while a command waits -/

def Silent : TaskCall bufferSig SeqEvent → Prop
  | .own (.boot c) => isCommand c = false
  | _ => False

theorem silent_request : (expand (Boot.taskCb .requestFromM0ToM4)).Only Silent := by
  refine ⟨rfl, fun received => ?_⟩
  cases received with
  | zero => trivial
  | succ n => exact ⟨rfl, fun _ => ⟨rfl, fun _ => trivial⟩⟩

theorem silent_timerCb {timer : Timer} (other : timer ≠ .nntTimeout) :
    (timerCb timer).Only Silent := by
  cases timer with
  | sleepEntry => exact ⟨rfl, fun _ => trivial⟩
  | nntTimeout => exact absurd rfl other
  | btnEvent => trivial

section Counting

variable {env : Env} {call : BufferCall} {answer : call.Answer} {choice : Choice}
  {s t : BufferState}

theorem perform_boot_waiting {c : BootCall} {answer : c.Answer}
    (done : perform env (.boot c) choice s = some (answer, t)) : t.waiting = s.waiting := by
  rcases Option.map_eq_some_iff.mp done with ⟨_, _, same⟩
  cases same
  rfl

theorem perform_sent_waiting {command : Command} {answer : command.bootCall.Answer}
    (done : perform env (.sendM4RequestToM0 command) choice s = some (answer, t)) :
    t.waiting = s.waiting + 1 := by
  rcases Option.map_eq_some_iff.mp done with ⟨_, _, same⟩
  cases same
  rfl

theorem clear_waiting {event : SeqEvent} (other : event ≠ .ackFromM0Evt) :
    (clear env event s).waiting = s.waiting := if_neg other

end Counting

def Loose (task : Code Unit) : Prop :=
  Follows protocol .clear task ∨ Follows protocol .filled task

theorem loose_call {env : Env} {call : BufferCall} {next : call.Answer → Code Unit}
    {choice : Choice} {answer : call.Answer} {s t : BufferState}
    (loose : Loose (.ask (.own call) next))
    (done : perform env call choice s = some (answer, t)) :
    (Loose (next answer) ∧ t.waiting = s.waiting) ∨
      (Follows protocol .sent (next answer) ∧ t.waiting = s.waiting + 1) := by
  rcases loose with ⟨after, allowed, follows⟩ | ⟨after, allowed, follows⟩
  · cases call with
    | boot c =>
      rcases Option.ite_none_left_eq_some.mp allowed with ⟨_, same⟩
      cases same
      exact Or.inl ⟨Or.inl (follows answer), perform_boot_waiting done⟩
    | fill command =>
      cases allowed
      cases done
      exact Or.inl ⟨Or.inr (follows ()), rfl⟩
    | sendM4RequestToM0 command => cases allowed
  · cases call with
    | boot c => cases allowed
    | fill command => cases allowed
    | sendM4RequestToM0 command =>
      cases allowed
      exact Or.inr ⟨follows answer, perform_sent_waiting done⟩

theorem loose_wait {env : Env} {event : SeqEvent} {next : Unit → Code Unit}
    (loose : Loose (.ask (.wait event) next)) :
    Loose (next ()) ∧ ∀ s, (clear env event s).waiting = s.waiting := by
  rcases loose with ⟨after, allowed, follows⟩ | ⟨after, allowed, _⟩
  · rcases Option.ite_none_left_eq_some.mp allowed with ⟨other, same⟩
    cases same
    exact ⟨Or.inl (follows ()), fun _ => clear_waiting other⟩
  · cases allowed

/-- A command that was sent is next waited for, and the wait runs only requests of the M0. -/
theorem sent_wait {env : Env} {task : Code Unit} (sent : Follows protocol .sent task) :
    ∃ event next, task = .ask (.wait event) next ∧ Loose (next ()) ∧
      (∀ s, (clear env event s).waiting = s.waiting - 1) ∧
      ∀ other, evtIdleMask event other = true → (expand (Boot.taskCb other)).Only Silent := by
  cases task with
  | done value => cases (show Phase.sent = .clear from sent)
  | ask call next =>
    rcases sent with ⟨after, allowed, follows⟩
    cases call with
    | own call => cases allowed
    | wait event =>
      cases event with
      | ackFromM0Evt =>
        cases allowed
        refine ⟨.ackFromM0Evt, next, rfl, Or.inl (follows ()), fun _ => rfl, ?_⟩
        intro other masked
        obtain rfl : other = .requestFromM0ToM4 := of_decide_eq_true masked
        exact silent_request
      | _ => cases allowed

theorem silent_call {env : Env} {call : BufferCall} {next : call.Answer → Code Unit}
    {choice : Choice} {answer : call.Answer} {s t : BufferState}
    (silent : Prog.Only (S := waiting bufferSig SeqEvent) Silent (.ask (.own call) next))
    (done : perform env call choice s = some (answer, t)) :
    (next answer).Only Silent ∧ t.waiting = s.waiting := by
  refine ⟨silent.2 answer, ?_⟩
  cases call with
  | boot c => exact perform_boot_waiting done
  | fill command => exact silent.1.elim
  | sendM4RequestToM0 command => exact silent.1.elim

def buffer (env : Env) : Exclusive (firmware env) where
  Loose := Loose
  Held := Follows protocol .sent
  Quiet task := task.Only Silent
  count s := s.waiting
  loose_call := loose_call
  loose_wait := loose_wait
  held_wait := sent_wait
  quiet_call := silent_call
  quiet_wait silent := silent.1
  loose_code task := Or.inl (disciplined_taskCb task)
  loose_handler timer := Or.inl (disciplined_timerCb timer)
  interrupt_count _ _ := rfl
  idle_count _ _ := rfl
  take_count _ _ := rfl

/-! ## Every run -/

section Runs

variable {env : Env} {timer : Timer} {s : BufferState}

theorem unheld_of_idle (idle : FiresIdle timer s) : (buffer env).Unheld timer s := by
  by_cases nnt : timer = .nntTimeout
  · exact Or.inr (idle nnt)
  · exact Or.inl (silent_timerCb nnt)

end Runs

/-- In every run in which the 90 s timer never fires while a command waits for its
acknowledgement, the buffer is written only while no command waits. -/
theorem buffer_free (env : Env) (s : BootState) (steps : List FirmwareStep)
    (c : Contexts bufferSig SeqEvent BufferState)
    (run : (firmware env).run (powered s) steps = some c)
    (idle : (firmware env).Fires FiresIdle (powered s) steps) :
    Kernel.Calls BufferFree c.data c.running := by
  have start : (buffer env).Orderly (powered s).frames (powered s).data :=
    Or.inl ⟨rfl, nofun⟩
  have orderly := Exclusive.orderly_run start run (idle.mono fun _ _ => unheld_of_idle)
  apply orderly.calls
  · intro call s unheld
    cases call with
    | boot c => trivial
    | fill command => exact unheld
    | sendM4RequestToM0 command => exact unheld
  · intro call next s silent
    cases call with
    | boot c => trivial
    | fill command => exact silent.1.elim
    | sendM4RequestToM0 command => exact silent.1.elim

/-! ## The timer on a free and on a used buffer -/

def bufferedMoves (choice : Choice) : List Boot.BootMove :=
  [.idle, .wake, .call .settled, .call choice,
    .interrupt Boot.cmdEvtReceived, .wake]

def bootMoves : List Boot.BootMove :=
  Boot.readyMoves ++ Boot.settled 27 ++ Boot.responseMoves ++ Boot.settled 9 ++
    Boot.responseMoves ++ Boot.settled 11 ++ Boot.responseMoves ++ bufferedMoves .settled ++
    bufferedMoves .settled ++ bufferedMoves .settled ++ bufferedMoves (.flag true) ++
    Boot.settled 514 ++ [.call (.tick 0)] ++ Boot.settled 2 ++ [.finish]

def blank : Contexts bufferSig SeqEvent BufferState :=
  powered (Boot.powerOn (fun _ => eeErased) fun _ => 0)

def nntSteps : List FirmwareStep :=
  bootMoves.map .move ++ [.fire .nntTimeout, .move .idle, .move .wake]

theorem buffer_free_nnt : ∃ c, (firmware quiet).run blank nntSteps = some c ∧
    (firmware quiet).Fires FiresIdle blank nntSteps ∧
    Kernel.Calls BufferFree c.data c.running := by
  have runs : ((firmware quiet).run blank nntSteps).isSome = true := by
    decide +kernel
  have idle : (firmware quiet).Fires FiresIdle blank nntSteps := by
    decide +kernel
  rcases Option.isSome_iff_exists.mp runs with ⟨c, run⟩
  exact ⟨c, run, idle, buffer_free quiet _ nntSteps c run idle⟩

theorem nnt_wakes (env : Env) {s : BufferState} (below : List (List (Code Unit)))
    (synchro : s.boot.app.evtSet .synchroBypassIdle = true) (waits : s.waiting ≠ 0) :
    ∃ d, (firmware env).step ⟨s, [nntTimeoutTimer], below⟩ (.move .wake) = some d ∧
      ¬ Kernel.Calls BufferFree d.data d.running := by
  have woken : (sequencer env).move ⟨s, [nntTimeoutTimer]⟩ .wake = some _ := if_pos synchro
  exact ⟨_, congrArg (Option.map _) woken, waits⟩

/-- Whenever the timer fires while a command waits, its own call writes over the command. -/
theorem nnt_writes_over {env : Env} {c : Contexts bufferSig SeqEvent BufferState}
    (started : c.data.boot.zb = true) (waits : c.data.waiting ≠ 0) :
    ∃ moves d, (firmware env).run c (.fire .nntTimeout :: moves) = some d ∧
      ¬ Kernel.Calls BufferFree d.data d.running := by
  have fired : (firmware env).step c (.fire .nntTimeout) =
      some ⟨c.data, [nntTimeoutTimer], c.running :: c.preempted⟩ := if_pos started
  by_cases synchro : c.data.boot.app.evtSet .synchroBypassIdle = true
  · rcases nnt_wakes env (c.running :: c.preempted) synchro waits with ⟨d, woken, written⟩
    refine ⟨[.move .wake], d, ?_, written⟩
    simp [Preemptive.run, fired, woken]
  · have idle : (sequencer env).move ⟨c.data, [nntTimeoutTimer]⟩ .idle = some _ := if_neg synchro
    have idled : (firmware env).step ⟨c.data, [nntTimeoutTimer], c.running :: c.preempted⟩
        (.move .idle) = some _ := congrArg (Option.map _) idle
    obtain ⟨d, woken, written⟩ := nnt_wakes env (c.running :: c.preempted)
      (s := (sequencer env).idle .synchroBypassIdle c.data) rfl waits
    refine ⟨[.move .idle, .move .wake], d, ?_, written⟩
    simp [Preemptive.run, fired, idled, woken]

def notifiedMoves : List Boot.BootMove :=
  [.interrupt Boot.notReceived, .dispatch .notifyFromM0ToM4] ++ Boot.settled 2 ++
    [.call (.notification (.other [.other])), .idle, .wake] ++ Boot.settled 2

theorem buffer_overwritten : ¬ ∀ (env : Env) (mem : Memory) (cache : Nat → Data)
    (steps : List FirmwareStep) (c : Contexts bufferSig SeqEvent BufferState),
    (firmware env).run (powered (Boot.powerOn mem cache)) steps = some c →
      Kernel.Calls BufferFree c.data c.running := by
  intro free
  have sent : ((firmware quiet).run blank ((bootMoves ++ notifiedMoves).map .move)).any
      (fun c => decide (c.data.boot.zb = true ∧ c.data.waiting ≠ 0)) = true := by
    decide +kernel
  rcases (Option.any_eq_true _ _).mp sent with ⟨c, run, held⟩
  rcases of_decide_eq_true held with ⟨started, waits⟩
  rcases nnt_writes_over started waits with ⟨moves, d, fired, written⟩
  apply written
  apply free quiet (fun _ => eeErased) (fun _ => 0) _ d
  exact (Preemptive.run_append run (.fire .nntTimeout :: moves)).trans fired

end Baelux.Zigbee.Commands

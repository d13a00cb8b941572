import Baelux.Ipcc.Peripheral
import Baelux.Zigbee.OnSequencer

/-! The messages between `app_zigbee.c` and the M0: the tasks of the application with each use that
`hw_ipcc.c` makes of the controller for them. Without these uses the tasks are those of the
application. -/

namespace Baelux.Zigbee.Mailbox

open Effect Nesting Flash Nvm Ipcc Baelux.Seq

inductive M0Request where
  | zbLogging (logStr : BitVec 32)
  | zbMalloc (allocSz : BitVec 32)
  | zbFree (ptr : BitVec 32)
  | other (id : BitVec 32)
  deriving DecidableEq, Repr

def Message : Line → Type
  | .notify => Notification
  | .request => M0Request

inductive MailCall where
  | app (call : AppCall)
  | isActiveFlag (channel : TxChannel)
  | setFlag (channel : TxChannel)
  | clearFlag (line : Line)
  -- The accesses of `SET_BIT` and `CLEAR_BIT`, with interrupts in between.
  | loadC1MR
  | storeC1MR (value : C1mr)
  | setAckPkt (line : Line)
  /-- Whether `shci_user_evt_proc` is done with an event, and whether it leaves others. -/
  | evtDone
  | evtLeft

def MailCall.Answer : MailCall → Type
  | .app call => call.Answer
  | .isActiveFlag _ => Bool
  | .loadC1MR => C1mr
  | .evtDone => Bool
  | .evtLeft => Bool
  | _ => Unit

abbrev mailSig : Sig := ⟨MailCall, MailCall.Answer⟩

abbrev Mail := Task mailSig SeqEvent

section Calls

def call (c : MailCall) : Mail c.Answer := @Prog.call (waiting mailSig SeqEvent) (.own c)

def utilSeqWaitEvt (event : SeqEvent) : Mail Unit :=
  @Prog.call (waiting mailSig SeqEvent) (.wait event)

def isActiveFlag (channel : TxChannel) : Mail Bool := call (.isActiveFlag channel)
def loadC1MR : Mail C1mr := call .loadC1MR
def evtDone : Mail Bool := call .evtDone
def evtLeft : Mail Bool := call .evtLeft

/-- `SET_BIT` or `CLEAR_BIT` on `IPCC->C1MR`. -/
def modifyC1MR (update : C1mr → C1mr) : Mail Unit := do
  let value ← loadC1MR
  call (.storeC1MR (update value))

def enableReceiveChannel (line : Line) : Mail Unit :=
  modifyC1MR (C1mr.enableReceiveChannel line)

def enableTransmitChannel (channel : TxChannel) : Mail Unit :=
  modifyC1MR (C1mr.enableTransmitChannel channel)

/-- `HW_IPCC_ZIGBEE_SendM4RequestToM0` and `HW_IPCC_SYS_SendCmd`. -/
def send (channel : TxChannel) : Mail Unit := do
  call (.setFlag channel)
  enableTransmitChannel channel

/-- `TL_ZIGBEE_SendM4AckToM0Notify` and `TL_ZIGBEE_SendM4AckToM0Request`. -/
def sendM4AckToM0 (line : Line) : Mail Unit := do
  call (.setAckPkt line)
  call (.clearFlag line)
  enableReceiveChannel line

/-- `HW_IPCC_MM_SendFreeBuf`, in a task. -/
def sendFreeBuf : Mail Unit := do
  let active ← isActiveFlag .mmReleaseBuffer
  if active then enableTransmitChannel .mmReleaseBuffer else call (.setFlag .mmReleaseBuffer)

end Calls

def channel : AppCall → Option TxChannel
  | .transfer _ => some .zigbeeCmdAppli
  | .storage (.eraseActivity _) => some .systemCmdRsp
  | _ => none

def sendAll : Option TxChannel → Mail Unit
  | none => pure ()
  | some channel => send channel

def liftCall : (c : TaskCall appSig SeqEvent) → Mail c.Answer
  | .own c => do
      let answer ← call (.app c)
      sendAll (channel c)
      (pure answer : Mail c.Answer)
  | .wait event => utilSeqWaitEvt event

def lift {α : Type} (program : App α) : Mail α := program.translate liftCall

/-! ## The tasks -/

def resetCptReceiveNotifyFromM0 : App Unit := Zigbee.call .resetCptReceiveNotifyFromM0
def resetCptReceiveRequestFromM0 : App Unit := Zigbee.call .resetCptReceiveRequestFromM0
def m0Request : App Unit := Zigbee.call .m0Request

def cptReceive : Line → App Nat
  | .notify => cptReceiveNotifyFromM0
  | .request => cptReceiveRequestFromM0

def resetCptReceive : Line → App Unit
  | .notify => resetCptReceiveNotifyFromM0
  | .request => resetCptReceiveRequestFromM0

/-- The processing, less the acknowledgement at its end. -/
def processing : Line → App Unit
  | .notify => zigbeeCallBackProcessing
  | .request => m0Request

def processM0ToM4 (line : Line) : Mail Unit := do
  let received ← lift (cptReceive line)
  if received ≠ 0 then
    lift (resetCptReceive line)
    lift (processing line)
    sendM4AckToM0 line
  else pure ()

def appZigbeeProcessNotifyM0ToM4 : Mail Unit := processM0ToM4 .notify
def appZigbeeProcessRequestM0ToM4 : Mail Unit := processM0ToM4 .request

def tlMmEvtDone (done : Bool) : Mail Unit := if done then sendFreeBuf else pure ()

def shciNotifyAsynchEvt (left : Bool) : Mail Unit :=
  if left then lift (utilSeqSetTask .systemHciAsynchEvt) else pure ()

/-- `shci_user_evt_proc`, after the boot; the events themselves change nothing. -/
def shciUserEvtProc : Mail Unit := do
  let done ← evtDone
  tlMmEvtDone done
  let left ← evtLeft
  shciNotifyAsynchEvt left

def taskCb : SeqTask → Mail Unit
  | .notifyFromM0ToM4 => appZigbeeProcessNotifyM0ToM4
  | .requestFromM0ToM4 => appZigbeeProcessRequestM0ToM4
  | .systemHciAsynchEvt => shciUserEvtProc
  | .zigbeeNetworkForm => lift (Zigbee.taskCb .zigbeeNetworkForm)
  | .bitmapGpioInt => lift (Zigbee.taskCb .bitmapGpioInt)
  | .bitmapTest => lift (Zigbee.taskCb .bitmapTest)
  | .zigbeeEnterStop => lift (Zigbee.taskCb .zigbeeEnterStop)
  | .zigbeeNwkForm => lift (Zigbee.taskCb .zigbeeNwkForm)
  | .zigbeeNwkJoin => lift (Zigbee.taskCb .zigbeeNwkJoin)

/-! ## The tasks without the controller -/

def forgetCall : (c : TaskCall mailSig SeqEvent) → App c.Answer
  | .own (.app c) => Zigbee.call c
  | .own (.isActiveFlag _) => (pure false : App Bool)
  | .own (.setFlag _) => (pure () : App Unit)
  | .own (.clearFlag _) => (pure () : App Unit)
  | .own .loadC1MR => (pure ⟨fun _ => false, fun _ => false⟩ : App C1mr)
  | .own (.storeC1MR _) => (pure () : App Unit)
  | .own (.setAckPkt _) => (pure () : App Unit)
  | .own .evtDone => (pure false : App Bool)
  | .own .evtLeft => (pure false : App Bool)
  | .wait event => Zigbee.utilSeqWaitEvt event

def forget {α : Type} (program : Mail α) : App α := program.translate forgetCall

variable {α β : Type}

@[simp] theorem forget_pure (value : α) : forget (pure value) = pure value := rfl

@[simp] theorem forget_bind (program : Mail α) (rest : α → Mail β) :
    forget (program >>= rest) = forget program >>= fun value => forget (rest value) :=
  @Prog.translate_bind (waiting mailSig SeqEvent) (waiting appSig SeqEvent) α β forgetCall program rest

@[simp] theorem forget_ite {c : Prop} [Decidable c] (first second : Mail α) :
    forget (if c then first else second) = if c then forget first else forget second := by
  split <;> rfl

@[simp] theorem forget_sendM4AckToM0 (line : Line) : forget (sendM4AckToM0 line) = pure () := rfl

@[simp] theorem forget_sendAll (channel : Option TxChannel) : forget (sendAll channel) = pure () := by
  cases channel <;> rfl

@[simp] theorem forget_lift (program : App α) : forget (lift program) = program := by
  induction program with
  | done value => rfl
  | ask c next ih =>
    have step : forget (lift (Prog.ask c next)) =
        (forget (liftCall c)).bind fun answer => forget (lift (next answer)) := forget_bind _ _
    rw [step, funext ih]
    cases c with
    | own c =>
      refine congrArg (Prog.ask _) (funext fun answer => ?_)
      change (forget (sendAll (channel c) >>= fun _ => (pure answer : Mail c.Answer))).bind next = _
      rw [forget_bind, forget_sendAll]
      rfl
    | wait event => rfl

theorem forget_taskCb (task : SeqTask) : forget (taskCb task) = Zigbee.taskCb task := by
  cases task with
  | systemHciAsynchEvt => rfl
  | notifyFromM0ToM4 =>
    simp only [taskCb, appZigbeeProcessNotifyM0ToM4, processM0ToM4, forget_bind, forget_lift, forget_ite,
      forget_sendM4AckToM0, forget_pure, Prog.bind_unit]
    rfl
  | requestFromM0ToM4 =>
    simp only [taskCb, appZigbeeProcessRequestM0ToM4, processM0ToM4, forget_bind, forget_lift, forget_ite,
      forget_sendM4AckToM0, forget_pure, Prog.bind_unit]
    rfl
  | _ => exact forget_lift _

/-! ## The sequencer -/

structure Board where
  app : State
  ipcc : Controller Message

def perform (env : Env) : (c : MailCall) → Choice → Board → Option (c.Answer × Board)
  | .app .notification, _, b => (b.ipcc.buffer .notify).bind fun message =>
      (b.app.notify message).map fun r => (r.1, ⟨r.2, b.ipcc.hand .notify message⟩)
  | .app .m0Request, _, b => (b.ipcc.buffer .request).map fun message =>
      ((), { b with ipcc := b.ipcc.hand .request message })
  | .app c, choice, b =>
      (Zigbee.perform env c choice b.app).map fun r => (r.1, { b with app := r.2 })
  | .isActiveFlag channel, _, b => some (b.ipcc.sent channel, b)
  | .setFlag channel, _, b => some ((), { b with ipcc := b.ipcc.setFlag channel })
  | .clearFlag line, _, b => some ((), { b with ipcc := b.ipcc.clearFlag line })
  | .loadC1MR, _, b => some (b.ipcc.c1mr, b)
  | .storeC1MR value, _, b => some ((), { b with ipcc := b.ipcc.storeC1MR value })
  | .setAckPkt line, _, b => some ((), { b with ipcc := b.ipcc.setAckPkt line })
  | .evtDone, choice, b => choice.flag?.map fun done => (done, b)
  | .evtLeft, choice, b => choice.flag?.map fun left => (left, b)

def handler : Controller.Wakes → Interrupt
  | .systemHciAsynchEvt => .setTask .systemHciAsynchEvt
  | .line .notify => .notReceived
  | .line .request => .m0RequestReceived

/-- The two functions that the handlers of the lines call are called by these only. -/
abbrev Source := { source : Interrupt // source ≠ .notReceived ∧ source ≠ .m0RequestReceived } ⊕
  Ipcc.Source Message

def interrupt : Source → Board → Board
  | .inl source, b => { b with app := Zigbee.interrupt source.1 b.app }
  | .inr source, b =>
      { app := (source.wakes b.ipcc).elim b.app fun wakes => Zigbee.interrupt (handler wakes) b.app
        ipcc := source.apply b.ipcc }

def sequencer (env : Env) : Kernel mailSig SeqEvent SeqTask Source Choice Board where
  perform := perform env
  interrupt := interrupt
  isSet event b := b.app.evtSet event
  clear event b := { b with app := clearEvt event b.app }
  idle event b := { b with app := evtIdle event b.app }
  mask := evtIdleMask
  pending task b := b.app.taskSet task
  take task b := { b with app := { b.app with
    taskSet := Function.update b.app.taskSet task false } }
  code := taskCb

def MailCall.asks : MailCall → Option (Ask SeqEvent SeqTask)
  | .app c => c.asks
  | _ => none

def raises : Source → Board → Option (Ask SeqEvent SeqTask)
  | .inl source, _ => source.1.raises
  | .inr source, b => (source.wakes b.ipcc).bind fun wakes => (handler wakes).raises

def Board.put (tasks : SeqTask → Bool) (events : SeqEvent → Bool) (b : Board) : Board :=
  { b with app := b.app.put tasks events }

section Put

variable (env : Env) (tasks : SeqTask → Bool) (events : SeqEvent → Bool) (b : Board)

theorem perform_put (c : MailCall) (choice : Choice) : perform env c choice (b.put tasks events) =
    (perform env c choice b).map fun r =>
      (r.1, r.2.put (askTasks tasks c.asks) (askEvents events c.asks)) := by
  cases c with
  | app c =>
    cases c with
    | notification =>
      exact bind_put fun message => (congrArg _ (notify_put tasks events b.app message)).trans <| by
        rw [Option.map_map, Option.map_map]
        rfl
    | m0Request => exact map_put fun _ => rfl
    | _ =>
      simp only [perform, Board.put, Zigbee.perform_put, Option.map_map]
      rfl
  | evtDone | evtLeft => exact map_put fun _ => rfl
  | _ => rfl

theorem handler_quiet (wakes : Controller.Wakes) (event : SeqEvent) :
    (handler wakes).raises ≠ some (.setEvt event) := by
  intro raises
  cases wakes with
  | systemHciAsynchEvt => cases raises
  | line line => cases line <;> cases raises

theorem interrupt_put (source : Source) : interrupt source (b.put tasks events) =
    (interrupt source b).put (askTasks tasks (raises source b)) (askEvents events (raises source b)) := by
  cases source with
  | inl source => exact congrArg (Board.mk · _) (Zigbee.interrupt_put tasks events b.app source.1)
  | inr source =>
    simp only [interrupt, raises, Board.put]
    cases source.wakes b.ipcc with
    | none => rfl
    | some wakes =>
      exact congrArg (Board.mk · _) (Zigbee.interrupt_put tasks events b.app (handler wakes))

end Put

def hosted (env : Env) : Hosted mailSig SeqEvent SeqTask Source Choice Board where
  kernel := sequencer env
  tasks b := b.app.taskSet
  events b := b.app.evtSet
  put := Board.put
  asks := MailCall.asks
  raises := raises
  taskId := SeqTask.id
  evtId := SeqEvent.id
  taskAt := SeqTask.ofId
  bypass event := decide (event = .synchroBypassIdle)
  woken event b := { b with app := b.app.woken event }
  evtIdleMask := evtIdleBits
  taskAt_eq_some := SeqTask.ofId_eq_some
  taskId_lt := SeqTask.id_lt
  evtId_lt := SeqEvent.id_lt
  evtId_inj := SeqEvent.id_injective
  put_self _ := rfl
  put_put _ _ _ _ _ := rfl
  raises_put source _ _ _ := by cases source <;> rfl
  quiet := by
    intro source event b raised tasks events t
    cases source with
    | inl source =>
      have quiet := (Zigbee.hosted env).quiet (s := b.app) raised tasks events t.app
      exact ⟨quiet.1, congrArg (Board.mk · t.ipcc) quiet.2⟩
    | inr source =>
      rcases Option.bind_eq_some_iff.mp raised with ⟨wakes, _, raised⟩
      exact absurd raised (handler_quiet wakes event)
  perform_put c choice tasks events b := perform_put env tasks events b c choice
  interrupt_put source tasks events b := interrupt_put tasks events b source
  isSet_put _ _ _ _ := rfl
  clear_put _ _ _ _ := rfl
  idle_put event _ _ _ := by cases event <;> rfl
  mask_eq := evtIdleMask_eq
  pending_put _ _ _ _ := rfl
  take_put _ _ _ _ := rfl

end Baelux.Zigbee.Mailbox

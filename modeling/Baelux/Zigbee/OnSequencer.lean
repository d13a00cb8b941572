import Baelux.Sequencer.Hosting
import Baelux.Sequencer.Scripts
import Baelux.Zigbee.Initialisation
import Baelux.Zigbee.SingleWriter
import Baelux.Zigbee.StartupAgreement

/-! The application on the variables of `stm32_seq.c`: its tasks and events as bits, and what the
tasks do where interrupts come between any two accesses of the sequencer. -/

namespace Baelux.Zigbee

open Effect Nesting Simulation Flash Baelux.Seq

/-- `CFG_Task_Id_With_NO_HCI_Cmd_t`, and the tasks of `user.h` behind it. -/
def SeqTask.id : SeqTask → Nat
  | .notifyFromM0ToM4 => 0
  | .requestFromM0ToM4 => 1
  | .zigbeeNetworkForm => 2
  | .systemHciAsynchEvt => 3
  | .bitmapGpioInt => 4
  | .bitmapTest => 5
  | .zigbeeEnterStop => 7
  | .zigbeeNwkForm => 8
  | .zigbeeNwkJoin => 9

/-- `TaskCb`. -/
def SeqTask.ofId : Nat → Option SeqTask
  | 0 => some .notifyFromM0ToM4
  | 1 => some .requestFromM0ToM4
  | 2 => some .zigbeeNetworkForm
  | 3 => some .systemHciAsynchEvt
  | 4 => some .bitmapGpioInt
  | 5 => some .bitmapTest
  | 7 => some .zigbeeEnterStop
  | 8 => some .zigbeeNwkForm
  | 9 => some .zigbeeNwkJoin
  | _ => none

theorem SeqTask.ofId_eq_some {index : Nat} {task : SeqTask} :
    ofId index = some task ↔ task.id = index := by
  constructor
  · intro known
    unfold ofId at known
    split at known <;> cases known <;> rfl
  · rintro rfl
    cases task <;> rfl

/-- `CFG_IdleEvt_Id_t`. -/
def SeqEvent.id : SeqEvent → Nat
  | .systemHciCmdEvtResp => 0
  | .ackFromM0Evt => 1
  | .synchroBypassIdle => 2
  | .zigbeeStartupEnded => 3

theorem SeqTask.id_lt (task : SeqTask) : task.id < 32 := by
  cases task <;> decide

theorem SeqEvent.id_lt (event : SeqEvent) : event.id < 32 := by
  cases event <;> decide

theorem SeqEvent.id_injective : Function.Injective SeqEvent.id := by
  intro first second same
  cases first <;> cases second <;> first | rfl | cases same

def SeqTask.prio : SeqTask → Fin utilSeqConfPrioNbr
  | .bitmapGpioInt => cfgSchPrio1
  | _ => cfgSchPrio0

/-- What `UTIL_SEQ_EvtIdle` gives `UTIL_SEQ_Run`. -/
def evtIdleBits : SeqEvent → Bm
  | .ackFromM0Evt => bit SeqTask.requestFromM0ToM4.id
  | .synchroBypassIdle => bit SeqTask.notifyFromM0ToM4.id ||| bit SeqTask.requestFromM0ToM4.id
  | _ => utilSeqAllBitSet

theorem evtIdleMask_eq (event : SeqEvent) (task : SeqTask) :
    evtIdleMask event task = (evtIdleBits event).getLsbD task.id := by
  cases event <;> cases task <;> decide

def AppCall.asks : AppCall → Option (Ask SeqEvent SeqTask)
  | .utilSeqSetTask task => some (.setTask task task.prio)
  | .utilSeqSetEvt event => some (.setEvt event)
  | _ => none

def Interrupt.raises : Interrupt → Option (Ask SeqEvent SeqTask)
  | .cmdEvtReceived => some (.setEvt .ackFromM0Evt)
  | .shciCmdRespRelease => some (.setEvt .systemHciCmdEvtResp)
  | .notReceived => some (.setTask .notifyFromM0ToM4 SeqTask.notifyFromM0ToM4.prio)
  | .m0RequestReceived => some (.setTask .requestFromM0ToM4 SeqTask.requestFromM0ToM4.prio)
  | .gpioExti => some (.setTask .bitmapGpioInt SeqTask.bitmapGpioInt.prio)
  | .setNwkTask type =>
      let task := if type = .form then SeqTask.zigbeeNwkForm else .zigbeeNwkJoin
      some (.setTask task task.prio)
  | .setTask task => some (.setTask task task.prio)

def State.woken (event : SeqEvent) (s : State) : State :=
  { clearEvt event s with evtSet := s.evtSet }

def State.put (tasks : SeqTask → Bool) (events : SeqEvent → Bool) (s : State) : State :=
  { s with taskSet := tasks, evtSet := events }

section Put

variable (env : Env) (tasks : SeqTask → Bool) (events : SeqEvent → Bool) (s : State)

theorem map_put {α β γ : Type} {o : Option α} {f : α → β} {g : α → γ} {put : β → γ}
    (same : ∀ value, g value = put (f value)) : o.map g = (o.map f).map put := by
  rw [Option.map_map]
  exact congrArg (fun h => o.map h) (funext same)

theorem bind_put {α β γ : Type} {o : Option α} {f : α → Option β} {g : α → Option γ} {put : β → γ}
    (same : ∀ value, g value = (f value).map put) : o.bind g = (o.bind f).map put := by
  rw [Option.map_bind]
  exact congrArg (fun h => o.bind h) (funext same)

theorem ite_put {β γ : Type} {c : Prop} [Decidable c] {x : β} {y : γ} {put : β → γ}
    (same : y = put x) :
    (if c then some y else none) = (if c then some x else none).map put := by
  rw [same]
  exact (apply_ite (Option.map put) c (some x) none).symm

theorem malloc_put (block : Option (InfoId × ZbStartupWaitInfo)) :
    (s.put tasks events).malloc block = (s.malloc block).map fun r => (r.1, r.2.put tasks events) := by
  cases block with
  | none => rfl
  | some block => exact ite_put rfl

theorem persistGet_put (buffer : Bool) (maxlen : Data) (snapshot : Data × (Nat → Data)) :
    (s.put tasks events).persistGet buffer maxlen snapshot =
      (s.persistGet buffer maxlen snapshot).map fun r => (r.1, r.2.put tasks events) := by
  cases buffer with
  | false => rfl
  | true => exact ite_put rfl

theorem notify_put (notified : Notification) :
    (s.put tasks events).notify notified =
      (s.notify notified).map fun r => (r.1, r.2.put tasks events) := by
  cases notified with
  | startup status info => exact ite_put rfl
  | _ => rfl

theorem startup_put (info : InfoId) (status : ZbStatus) :
    (s.put tasks events).startup info status = (s.startup info status).put tasks events := by
  unfold State.startup
  split <;> rfl

theorem performTransfer_put (request : Request) (choice : Choice) :
    performTransfer request choice (s.put tasks events) =
      (performTransfer request choice s).map fun r => (r.1, r.2.put tasks events) := by
  cases request with
  | plain request => rfl
  | startup type info =>
    exact map_put fun status => congrArg (Prod.mk status) (startup_put tasks events s info status)
  | persistNotifyRegister => exact map_put fun _ => rfl
  | persistGet buffer maxlen =>
    exact bind_put fun snapshot => persistGet_put tasks events s buffer maxlen snapshot

/-- No call depends on the pending tasks and the set events. -/
theorem perform_put (call : AppCall) (choice : Choice) :
    perform env call choice (s.put tasks events) =
      (perform env call choice s).map fun r =>
        (r.1, r.2.put (askTasks tasks call.asks) (askEvents events call.asks)) := by
  cases call with
  | mallocInfo => exact bind_put fun block => malloc_put tasks events s block
  | transfer request => exact performTransfer_put tasks events s request choice
  | notification => exact bind_put fun notified => notify_put tasks events s notified
  | halGetTick | mallocCallback | extiHandler => exact map_put fun _ => rfl
  | _ => rfl

theorem interrupt_put (source : Interrupt) : interrupt source (s.put tasks events) =
    (interrupt source s).put (askTasks tasks source.raises) (askEvents events source.raises) := by
  cases source <;> rfl

end Put

def hosted (env : Env) : Hosted appSig SeqEvent SeqTask Interrupt Choice State where
  kernel := sequencer env
  tasks := State.taskSet
  events := State.evtSet
  put := State.put
  asks := AppCall.asks
  raises source _ := source.raises
  taskId := SeqTask.id
  evtId := SeqEvent.id
  taskAt := SeqTask.ofId
  bypass event := decide (event = .synchroBypassIdle)
  woken := State.woken
  evtIdleMask := evtIdleBits
  taskAt_eq_some := SeqTask.ofId_eq_some
  taskId_lt := SeqTask.id_lt
  evtId_lt := SeqEvent.id_lt
  evtId_inj := SeqEvent.id_injective
  put_self _ := rfl
  put_put _ _ _ _ _ := rfl
  raises_put _ _ _ _ := rfl
  quiet := by
    intro source event s raises tasks events t
    refine ⟨raises, ?_⟩
    cases source <;> first | rfl | cases raises
  perform_put call choice tasks events s := perform_put env tasks events s call choice
  interrupt_put source tasks events s := interrupt_put tasks events s source
  isSet_put _ _ _ _ := rfl
  clear_put _ _ _ _ := rfl
  idle_put event _ _ _ := by cases event <;> rfl
  mask_eq := evtIdleMask_eq
  pending_put _ _ _ _ := rfl
  take_put _ _ _ _ := rfl

variable {env : Env}

/-- In every run of the sequencer that goes on to save only outside of erases, no save begins
inside a save, no write inside a clean, and each record that is saved is one snapshot. -/
theorem single_writer_on_sequencer (world : World) (info : AppInfo)
    {m : Machine appSig SeqEvent State}
    (reaches : ((hosted env).application.system fun call answer s =>
      Saves.Unhurried call answer ((hosted env).view s)).Reaches
        (Application.boot (started world info)) m) :
    Application.Calls (fun call s => Saves.SingleWriter call ((hosted env).view s)) m :=
  Hosted.calls (Saves.tasks_keep env) (Saves.started_between world info) reaches

def savedCall : AppCall → Bool
  | .appDbg .persistentDataFlashed => true
  | _ => false

/-- A notification of the stack, up to the trace of the save in which it ends. -/
theorem single_writer_on_sequencer_saved : ∃ m : Machine appSig SeqEvent State,
    Application.Next savedCall m = true ∧
      Application.Calls (fun call s => Saves.SingleWriter call ((hosted quiet).view s)) m := by
  have played : (((hosted quiet).application.play
      (fun call answer s => Saves.Unhurried call answer ((hosted quiet).view s))
      (Application.boot (Saves.unsaved (Saves.booted fun _ => eeErased)).data)
      (Application.script Saves.singleSave)).bind
        ((hosted quiet).application.settle 64)).any (Application.Next savedCall) = true := by
    decide +kernel
  rcases Application.reaches_of_script played with ⟨m, reaches, here⟩
  exact ⟨m, here, single_writer_on_sequencer _ _ reaches⟩

/-- In every run of the sequencer in which no startup disturbs the wait of another, each wait for
a startup reads the status that its own callback was given. -/
theorem startups_agree_on_sequencer (world : World) (info : AppInfo)
    {m : Machine appSig SeqEvent State}
    (reaches : ((hosted env).application.system fun call answer s =>
      Undisturbed call answer ((hosted env).view s)).Reaches
        (Application.boot (started world info)) m) :
    Application.Calls (fun call s => Agrees call ((hosted env).view s)) m :=
  Hosted.calls (tasks_keep env) (started_waiting world info) reaches

def statusCall : AppCall → Bool
  | .infoStatus _ => true
  | _ => false

/-- A join, its callback, and the status that its wait reads. -/
theorem startups_agree_on_sequencer_joined : ∃ m : Machine appSig SeqEvent State,
    Application.Next statusCall m = true ∧
      Application.Calls (fun call s => Agrees call ((hosted quiet).view s)) m := by
  have played : (((hosted quiet).application.play
      (fun call answer s => Undisturbed call answer ((hosted quiet).view s))
      (Application.boot unjoined.data) (Application.script singleJoin)).bind
        ((hosted quiet).application.settle 64)).any (Application.Next statusCall) = true := by
    decide +kernel
  rcases Application.reaches_of_script played with ⟨m, reaches, here⟩
  exact ⟨m, here, startups_agree_on_sequencer _ _ reaches⟩

namespace Boot

def BootCall.asks : BootCall → Option (Ask SeqEvent SeqTask)
  | .app c => c.asks
  | _ => none

def BootState.put (tasks : SeqTask → Bool) (events : SeqEvent → Bool) (s : BootState) : BootState :=
  { s with app := s.app.put tasks events }

theorem perform_put (env : Env) (tasks : SeqTask → Bool) (events : SeqEvent → Bool) (s : BootState)
    (call : BootCall) (choice : Choice) : perform env call choice (s.put tasks events) =
      (perform env call choice s).map fun r =>
        (r.1, r.2.put (askTasks tasks call.asks) (askEvents events call.asks)) := by
  cases call with
  | app c =>
    simp only [perform, BootState.put, Zigbee.perform_put, Option.map_map]
    rfl
  | zbInit =>
    unfold perform
    cases held : s.stackZb <;> simp only [BootState.put, held] <;> rfl
  | zbStartupPersist | sysEvtReady => exact map_put fun _ => rfl
  | azcl request => rfl
  | azclInit => rfl

def hosted (env : Env) : Hosted bootSig SeqEvent SeqTask Source Choice BootState where
  kernel := sequencer env
  tasks s := s.app.taskSet
  events s := s.app.evtSet
  put := BootState.put
  asks := BootCall.asks
  raises source _ := source.1.raises
  taskId := SeqTask.id
  evtId := SeqEvent.id
  taskAt := SeqTask.ofId
  bypass event := decide (event = .synchroBypassIdle)
  woken event s := { s with app := s.app.woken event }
  evtIdleMask := evtIdleBits
  taskAt_eq_some := SeqTask.ofId_eq_some
  taskId_lt := SeqTask.id_lt
  evtId_lt := SeqEvent.id_lt
  evtId_inj := SeqEvent.id_injective
  put_self _ := rfl
  put_put _ _ _ _ _ := rfl
  raises_put _ _ _ _ := rfl
  quiet {_ _ s} raises tasks events t :=
    have quiet := (Zigbee.hosted env).quiet (s := s.app) raises tasks events t.app
    ⟨quiet.1, congrArg (fun app => { t with app := app }) quiet.2⟩
  perform_put call choice tasks events s := perform_put env tasks events s call choice
  interrupt_put source tasks events s :=
    congrArg (fun app => { s with app := app }) (interrupt_put tasks events s.app source.1)
  isSet_put _ _ _ _ := rfl
  clear_put _ _ _ _ := rfl
  idle_put event _ _ _ := by cases event <;> rfl
  mask_eq := evtIdleMask_eq
  pending_put _ _ _ _ := rfl
  take_put _ _ _ _ := rfl

variable {env : Env}

/-- Where the stack does not restart from persistence before `azcl_init`, every `azcl_*`
operation that the sequencer runs finds the handle set. -/
theorem handle_set_on_sequencer (mem : Memory) (cache : Nat → Data)
    {m : Machine bootSig SeqEvent BootState}
    (reaches : ((hosted env).application.system fun call answer s =>
      NotRestored call answer ((hosted env).view s)).Reaches
        (Application.boot (powerOn mem cache)) m) :
    Application.Calls (fun call s => HandleSet call ((hosted env).view s)) m :=
  Hosted.calls boot_keeps (ready_powerOn mem cache) reaches

def azclCall : BootCall → Bool
  | .azcl _ => true
  | _ => false

/-- The boot on a blank flash and a join, up to the first `azcl_*` operation. -/
theorem handle_set_on_sequencer_fresh : ∃ m : Machine bootSig SeqEvent BootState,
    Application.Next azclCall m = true ∧
      Application.Calls (fun call s => HandleSet call ((hosted quiet).view s)) m := by
  have played : (((hosted quiet).application.play
      (fun call answer s => NotRestored call answer ((hosted quiet).view s))
      (Application.boot blankBoot.data) (Application.script (freshMoves ++ joinMoves))).bind
        ((hosted quiet).application.settle 64)).any (Application.Next azclCall) = true := by
    decide +kernel
  rcases Application.reaches_of_script played with ⟨m, reaches, here⟩
  exact ⟨m, here, handle_set_on_sequencer _ _ reaches⟩

end Boot

end Baelux.Zigbee

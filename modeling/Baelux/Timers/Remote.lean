import Baelux.Timers.TimerServer
import Mathlib.Data.Fintype.Sets

/-! The timers of the remote: who creates, stops and starts them, in any order, with the wakeup
interrupt between any two critical sections of the timer server. -/

namespace Baelux.Timers

inductive Handler where
  | buttonsOnInvokeTimerElapsed
  | sleepEntryTimerHandler
  | nntTimeoutTimer
  deriving DecidableEq, Repr

namespace Handler

def timerProcessID : Handler → BitVec 32
  | buttonsOnInvokeTimerElapsed => 5
  | sleepEntryTimerHandler => 1
  | nntTimeoutTimer => 2

def timerMode : Handler → TimerMode
  | buttonsOnInvokeTimerElapsed => .singleShot
  | sleepEntryTimerHandler => .singleShot
  | nntTimeoutTimer => .repeated

end Handler

/-- `CFG_TS_TICK_VAL`, in microseconds: 16 cycles of `LSE_VALUE`, rounded. -/
def cfgTsTickVal : BitVec 32 := (16 * 1000000 + 32774 / 2) / 32774

def hwTs1S : BitVec 32 := 1 * 1000 * 1000 / cfgTsTickVal
def hwTs250MS : BitVec 32 := 250 * 1000 / cfgTsTickVal

example : hwTs1S = 2049 ∧ hwTs250MS = 512 := by decide

inductive Section where
  | create (handler : Handler)
  | stop (handler : Handler)
  /-- `APP_ZIGBEE_sleep_timer_enter` up to the end of `HW_TS_Stop`. -/
  | enter (elapseSecond : BitVec 32)
  /-- `HW_TS_Start` up to its own critical section; `call` counts the calls of
  `APP_ZIGBEE_sleep_timer_enter`, if this is one. -/
  | start (handler : Handler) (timeoutTicks : BitVec 32) (call : Option Nat)
  | launch (timerID : TimerID) (timeoutTicks : BitVec 32) (call : Option Nat)
  deriving DecidableEq, Repr

def appZigbeeSleepTimerEnter (elapseSecond : BitVec 32) : List Section := [.enter elapseSecond]

/-- `APP_ZIGBEE_sleep_mode_entry`. It calls `APP_ZIGBEE_sleep_timer_enter` without an argument, so
`elapseSecond` is whatever the register holds. -/
def appZigbeeSleepModeEntry (elapseSecond : BitVec 32) : List Section :=
  .create .sleepEntryTimerHandler :: appZigbeeSleepTimerEnter elapseSecond

def appZigbeePreventNwkNntTimeout : List Section :=
  [.create .nntTimeoutTimer, .start .nntTimeoutTimer (hwTs1S * 90) none]

inductive Call where
  /-- `APP_ZIGBEE_StackLayersInit`, from `APP_ZIGBEE_sleep_mode_entry` on. -/
  | stackLayersInit (elapseSecond : BitVec 32)
  /-- `APP_ZIGBEE_NwkStart`, or `APP_ZIGBEE_NwkForm`, once the startup has succeeded. -/
  | nwkStart (elapseSecond : BitVec 32)
  | sleepTimerEnter (elapseSecond : BitVec 32)
  /-- `app_zigbee_cluster_client_callback`. -/
  | response
  | btnEventStop
  | btnEventRestart
  deriving DecidableEq, Repr

def Call.sections : Call → List Section
  | stackLayersInit elapseSecond =>
      appZigbeeSleepModeEntry elapseSecond ++ appZigbeePreventNwkNntTimeout
  | nwkStart elapseSecond => appZigbeeSleepModeEntry elapseSecond
  | sleepTimerEnter elapseSecond => appZigbeeSleepTimerEnter elapseSecond
  | response => appZigbeeSleepTimerEnter 10
  | btnEventStop => [.stop .buttonsOnInvokeTimerElapsed]
  | btnEventRestart => [.start .buttonsOnInvokeTimerElapsed hwTs250MS none]

structure Remote where
  server : TimerServer Handler
  /-- The variables with the timers' ids: `timerid`, `TS_SLEEP_ID1` and `TS_NNT_TIMEOUT_ID1`. -/
  ids : Handler → TimerID
  /-- What is left of the call that runs. -/
  agenda : List Section
  /-- What is left of the call that `nnt_timeout_timer` has preempted: its broadcast waits, and the
  sequencer runs other tasks meanwhile, on top of the interrupt. -/
  preempted : Option (List Section)
  /-- How often `APP_ZIGBEE_sleep_timer_enter` was called. -/
  entered : Nat
  /-- Which of these calls has started a timer last, if one has. -/
  startedBy : TimerID → Option Nat

inductive Event where
  | call (call : Call)
  | proceed (ssr : SsrReadings)
  | wakeup (ssr : SsrReadings)
  /-- `nnt_timeout_timer` returns, and the interrupt with it. -/
  | resume

def Event.isCall : Event → Bool
  | call _ => true
  | _ => false

namespace Remote

open TimerServer (Notification RtcConfig)

def create (remote : Remote) (handler : Handler) : Remote :=
  let (server, pTimerId) :=
    remote.server.hwTsCreate handler.timerProcessID handler.timerMode handler
  { remote with
    server := server
    ids := match pTimerId with
      | some loop => Function.update remote.ids handler loop
      | none => remote.ids }

def proceed (remote : Remote) (ssr : SsrReadings) : Option Remote :=
  match remote.agenda with
  | [] => some remote
  | .create handler :: rest => some { remote.create handler with agenda := rest }
  | .stop handler :: rest =>
      (remote.server.hwTsStop (remote.ids handler) ssr).map fun server =>
        { remote with server := server, agenda := rest }
  | .enter elapseSecond :: rest =>
      (remote.server.hwTsStop (remote.ids .sleepEntryTimerHandler) ssr).map fun server =>
        { remote with
          server := server
          entered := remote.entered + 1
          agenda := .start .sleepEntryTimerHandler (hwTs1S * elapseSecond)
            (some (remote.entered + 1)) :: rest }
  | .start handler timeoutTicks call :: rest =>
      (remote.server.stopRunning (remote.ids handler) ssr).map fun server =>
        { remote with
          server := server
          agenda := .launch (remote.ids handler) timeoutTicks call :: rest }
  | .launch timerID timeoutTicks call :: rest =>
      (remote.server.startTimer timerID timeoutTicks ssr).map fun server =>
        { remote with
          server := server
          startedBy := Function.update remote.startedBy timerID call
          agenda := rest }

/-- The wakeup interrupt does not preempt itself. -/
def interruptible (remote : Remote) : Bool :=
  remote.preempted.isNone && (remote.server.wakeupTimerEnabled || remote.server.pendingIrq)

/-- The callback is called; only that of the repeated timer waits. -/
def notify (remote : Remote) (notification : Option (Notification Handler)) : Remote :=
  if notification.bind (·.pTimerCallBack) = some .nntTimeoutTimer then
    { remote with agenda := [], preempted := some remote.agenda }
  else remote

/-- One step, with the callback that it calls. What cannot happen does nothing; a step that would
never end has no result. -/
def step (remote : Remote) : Event → Option (Remote × Option (Notification Handler))
  | .call call =>
      if remote.agenda = [] then some ({ remote with agenda := call.sections }, none)
      else some (remote, none)
  | .proceed ssr => (remote.proceed ssr).map fun next => (next, none)
  | .wakeup ssr =>
      if remote.interruptible then
        (remote.server.hwTsRtcWakeupHandler ssr).map fun (server, notification) =>
          ({ remote with server := server }.notify notification, notification)
      else some (remote, none)
  | .resume =>
      if remote.agenda = [] then
        some ({ remote with agenda := remote.preempted.getD [], preempted := none }, none)
      else some (remote, none)

/-- After `HW_TS_Init` and `user_init`, which creates the timer of the buttons. -/
def start (rtc : RtcConfig) : Remote :=
  create ⟨TimerServer.powerUp.hwTsInit rtc, fun _ => TimerServer.zeroID, [], none, 0, fun _ => none⟩
    .buttonsOnInvokeTimerElapsed

def sleepSlots (remote : Remote) : Finset TimerID :=
  Finset.univ.filter fun i => remote.server.status i ≠ .free ∧
    remote.server.callback i = some .sleepEntryTimerHandler

/-- In every state of the run at most one slot is allocated with the handler. -/
def AlwaysOne : Remote → List Event → Prop
  | remote, [] => remote.sleepSlots.card ≤ 1
  | remote, event :: events => remote.sleepSlots.card ≤ 1 ∧
      ∀ reached ∈ remote.step event, AlwaysOne reached.1 events

/-- Whenever `sleep_entry_timer_handler` is called, the last call of
`APP_ZIGBEE_sleep_timer_enter` has started its timer. -/
def FiresLatest : Remote → List Event → Prop
  | _, [] => True
  | remote, event :: events => ∀ reached ∈ remote.step event,
      (∀ notification ∈ reached.2,
        notification.pTimerCallBack = some .sleepEntryTimerHandler →
          remote.startedBy notification.timerID = some remote.entered) ∧
      FiresLatest reached.1 events

def creates (remote : Remote) : Event → Bool
  | .proceed _ => remote.agenda.head? = some (.create .sleepEntryTimerHandler)
  | _ => false

def entries : Remote → List Event → Nat
  | _, [] => 0
  | remote, event :: events => (if remote.creates event then 1 else 0) +
      (remote.step event).elim 0 fun reached => entries reached.1 events

/-- The callback of the repeated timer makes no call while another one is half done. -/
def Undisturbed : Remote → List Event → Prop
  | _, [] => True
  | remote, event :: events =>
      (event.isCall → remote.preempted.getD [] = []) ∧
      ∀ reached ∈ remote.step event, Undisturbed reached.1 events

instance decidableAlwaysOne : (remote : Remote) → (events : List Event) →
    Decidable (AlwaysOne remote events)
  | remote, [] => inferInstanceAs (Decidable (remote.sleepSlots.card ≤ 1))
  | remote, event :: events =>
      have := fun reached : Remote × Option (Notification Handler) =>
        decidableAlwaysOne reached.1 events
      inferInstanceAs (Decidable (remote.sleepSlots.card ≤ 1 ∧
        ∀ reached ∈ remote.step event, AlwaysOne reached.1 events))

instance decidableFiresLatest : (remote : Remote) → (events : List Event) →
    Decidable (FiresLatest remote events)
  | _, [] => inferInstanceAs (Decidable True)
  | remote, event :: events =>
      have := fun reached : Remote × Option (Notification Handler) =>
        decidableFiresLatest reached.1 events
      inferInstanceAs (Decidable (∀ reached ∈ remote.step event,
        (∀ notification ∈ reached.2,
          notification.pTimerCallBack = some .sleepEntryTimerHandler →
            remote.startedBy notification.timerID = some remote.entered) ∧
        FiresLatest reached.1 events))

instance decidableUndisturbed : (remote : Remote) → (events : List Event) →
    Decidable (Undisturbed remote events)
  | _, [] => inferInstanceAs (Decidable True)
  | remote, event :: events =>
      have := fun reached : Remote × Option (Notification Handler) =>
        decidableUndisturbed reached.1 events
      inferInstanceAs (Decidable ((event.isCall → remote.preempted.getD [] = []) ∧
        ∀ reached ∈ remote.step event, Undisturbed reached.1 events))

end Remote

end Baelux.Timers

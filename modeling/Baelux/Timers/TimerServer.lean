import Mathlib.Data.Fintype.Card
import Mathlib.Logic.Function.Basic

/-! The timer server of `hw_timerserver.c`: virtual timers in a table, the running ones linked
in the order in which they expire, and one wakeup timer set up for the first of them. -/

namespace Baelux.Timers

/-- An index below `CFG_HW_TS_MAX_NBR_CONCURRENT_TIMER`; that value itself, which the code uses
for "no timer", is `none`. -/
abbrev TimerID := Fin 6

inductive TimerIDStatus where
  | free
  | created
  | running
  deriving DecidableEq, Repr

inductive TimerMode where
  | singleShot
  | repeated
  deriving DecidableEq, Repr

inductive WakeupTimerLimitation where
  | overpassed
  | largeEnough
  deriving DecidableEq, Repr

structure TimerContext (Cb : Type) where
  pTimerCallBack : Option Cb
  counterInit : BitVec 32
  countLeft : BitVec 32
  timerIDStatus : TimerIDStatus
  timerMode : TimerMode
  timerProcessID : BitVec 32
  previousID : TimerID
  nextID : Option TimerID

/-- The static variables, and of the hardware whether the wakeup timer counts and whether its
interrupt is pending. The reload value only decides when the interrupt comes. -/
structure TimerServer (Cb : Type) where
  aTimerContext : TimerID → TimerContext Cb
  currentRunningTimerID : Option TimerID
  previousRunningTimerID : Option TimerID
  ssrValueOnLastSetup : BitVec 32
  wakeupTimerLimitation : WakeupTimerLimitation
  wakeupTimerDivider : BitVec 8
  asynchPrescalerUserConfig : BitVec 8
  synchPrescalerUserConfig : BitVec 16
  maxWakeupTimerSetup : BitVec 16
  wakeupTimerEnabled : Bool
  pendingIrq : Bool

def ssrForbiddenValue : BitVec 32 := 0xFFFFFFFF

/-- What `RTC->SSR` shows when `linkTimer`, `RescheduleTimerList` and `RestartWakeupCounter`
read it. -/
structure SsrReadings where
  linking : BitVec 16
  rescheduling : BitVec 16
  restarting : BitVec 16

namespace TimerServer

variable {Cb : Type} (s : TimerServer Cb)

def modify (timerID : TimerID) (f : TimerContext Cb → TimerContext Cb) : TimerServer Cb :=
  { s with aTimerContext := Function.update s.aTimerContext timerID (f (s.aTimerContext timerID)) }

def status (timerID : TimerID) : TimerIDStatus := (s.aTimerContext timerID).timerIDStatus
def callback (timerID : TimerID) : Option Cb := (s.aTimerContext timerID).pTimerCallBack
def next (timerID : TimerID) : Option TimerID := (s.aTimerContext timerID).nextID
def prev (timerID : TimerID) : TimerID := (s.aTimerContext timerID).previousID
def countLeft (timerID : TimerID) : BitVec 32 := (s.aTimerContext timerID).countLeft

def returnTimeElapsed (ssr : BitVec 16) : BitVec 16 :=
  if s.ssrValueOnLastSetup ≠ ssrForbiddenValue then
    let value := ssr.setWidth 32
    let value :=
      if value ≤ s.ssrValueOnLastSetup then s.ssrValueOnLastSetup - value
      else s.ssrValueOnLastSetup + (s.synchPrescalerUserConfig.setWidth 32 - value)
    ((value * s.asynchPrescalerUserConfig.setWidth 32) >>> s.wakeupTimerDivider.toNat).setWidth 16
  else 0

def linkTimerAfter (timerID refTimerID : TimerID) : TimerServer Cb :=
  let nextID := s.next refTimerID
  let s := match nextID with
    | some follower => s.modify follower fun c => { c with previousID := timerID }
    | none => s
  let s := s.modify timerID fun c => { c with nextID := nextID, previousID := refTimerID }
  s.modify refTimerID fun c => { c with nextID := some timerID }

def linkTimerBefore (timerID refTimerID : TimerID) : TimerServer Cb :=
  if some refTimerID ≠ s.currentRunningTimerID then
    let previousID := s.prev refTimerID
    let s := s.modify previousID fun c => { c with nextID := some timerID }
    let s := s.modify timerID fun c =>
      { c with nextID := some refTimerID, previousID := previousID }
    s.modify refTimerID fun c => { c with previousID := timerID }
  else
    let s := s.modify timerID fun c => { c with nextID := some refTimerID }
    s.modify refTimerID fun c => { c with previousID := timerID }

/-- The search of `linkTimer`. A turn for each slot of the table is enough unless the links form
a circle, where the search never ends. -/
def lookupLoop (timeLeft : BitVec 32) : Nat → TimerID → Option TimerID
  | 0, _ => none
  | turns + 1, timerIDLookup =>
      match s.next timerIDLookup with
      | none => some timerIDLookup
      | some nextID =>
          if s.countLeft nextID ≤ timeLeft then lookupLoop timeLeft turns nextID
          else some timerIDLookup

def linkTimer (timerID : TimerID) (ssr : SsrReadings) : Option (TimerServer Cb × BitVec 16) :=
  match s.currentRunningTimerID with
  | none =>
      let s := { s with
        previousRunningTimerID := s.currentRunningTimerID
        currentRunningTimerID := some timerID }
      let s := s.modify timerID fun c => { c with nextID := none }
      some ({ s with ssrValueOnLastSetup := ssrForbiddenValue }, 0)
  | some current =>
      let timeElapsed := s.returnTimeElapsed ssr.linking
      let s := s.modify timerID fun c =>
        { c with countLeft := c.countLeft + timeElapsed.setWidth 32 }
      let timeLeft := s.countLeft timerID
      if s.countLeft current ≤ timeLeft then
        (s.lookupLoop timeLeft 6 current).map fun timerIDLookup =>
          (s.linkTimerAfter timerID timerIDLookup, timeElapsed)
      else
        let s := s.linkTimerBefore timerID current
        some ({ s with
          previousRunningTimerID := s.currentRunningTimerID
          currentRunningTimerID := some timerID }, timeElapsed)

def unlinkTimer (timerID : TimerID) (ssrReadRequested : Bool) : TimerServer Cb :=
  let s :=
    if some timerID = s.currentRunningTimerID then
      { s with
        previousRunningTimerID := s.currentRunningTimerID
        currentRunningTimerID := s.next timerID }
    else
      let previousID := s.prev timerID
      let nextID := s.next timerID
      let s := s.modify previousID fun c => { c with nextID := nextID }
      match nextID with
      | some follower => s.modify follower fun c => { c with previousID := s.prev timerID }
      | none => s
  let s := s.modify timerID fun c => { c with timerIDStatus := .created }
  if s.currentRunningTimerID = none ∧ ssrReadRequested then
    { s with ssrValueOnLastSetup := ssrForbiddenValue }
  else s

/-- The wait until the hardware is ready is left out. -/
def restartWakeupCounter (value : BitVec 16) (ssr : BitVec 16) : TimerServer Cb :=
  let s := { s with ssrValueOnLastSetup := ssr.setWidth 32 }
  if value = 0 then { s with pendingIrq := true }
  else { s with pendingIrq := false, wakeupTimerEnabled := true }

def countLoop (timeElapsed : BitVec 32) : Nat → Option TimerID → TimerServer Cb →
    Option (TimerServer Cb)
  | _, none, s => some s
  | 0, some _, _ => none
  | turns + 1, some localTimerID, s =>
      let s := s.modify localTimerID fun c => { c with
        countLeft := if c.countLeft < timeElapsed then 0 else c.countLeft - timeElapsed }
      countLoop timeElapsed turns (s.next localTimerID) s

def wakeupValue (timecountleft : BitVec 32) (timeElapsed : BitVec 16) :
    BitVec 16 × WakeupTimerLimitation :=
  if timecountleft < timeElapsed.setWidth 32 then (0, .largeEnough)
  else if timeElapsed.setWidth 32 + s.maxWakeupTimerSetup.setWidth 32 < timecountleft then
    (s.maxWakeupTimerSetup, .overpassed)
  else ((timecountleft - timeElapsed.setWidth 32).setWidth 16, .largeEnough)

/-- `RescheduleTimerList`; without a running timer it would read behind the table. -/
def rescheduleTimerList (ssr : SsrReadings) : Option (TimerServer Cb) :=
  let s := { s with wakeupTimerEnabled := false }
  match s.currentRunningTimerID with
  | none => none
  | some localTimerID =>
      let timeElapsed := s.returnTimeElapsed ssr.rescheduling
      let setup := s.wakeupValue (s.countLeft localTimerID) timeElapsed
      let s := { s with wakeupTimerLimitation := setup.2 }
      (countLoop (timeElapsed.setWidth 32) 6 (some localTimerID) s).map fun s =>
        s.restartWakeupCounter setup.1 ssr.restarting

def hwTsStop (timerID : TimerID) (ssr : SsrReadings) : Option (TimerServer Cb) :=
  if s.status timerID = .running then
    let s := s.unlinkTimer timerID true
    match s.currentRunningTimerID with
    | none => some { s with wakeupTimerEnabled := false, pendingIrq := false }
    | some _ =>
        if s.previousRunningTimerID ≠ s.currentRunningTimerID then s.rescheduleTimerList ssr
        else some s
  else some s

def stopRunning (timerID : TimerID) (ssr : SsrReadings) : Option (TimerServer Cb) :=
  if s.status timerID = .running then s.hwTsStop timerID ssr else some s

def startTimer (timerID : TimerID) (timeoutTicks : BitVec 32) (ssr : SsrReadings) :
    Option (TimerServer Cb) := do
  let s := s.modify timerID fun c => { c with
    timerIDStatus := .running
    countLeft := timeoutTicks
    counterInit := timeoutTicks }
  let (s, timeElapsed) ← s.linkTimer timerID ssr
  if s.previousRunningTimerID ≠ s.currentRunningTimerID then s.rescheduleTimerList ssr
  else
    some (s.modify timerID fun c => { c with
      countLeft := c.countLeft - timeElapsed.setWidth 32 })

structure Notification (Cb : Type) where
  timerProcessID : BitVec 32
  timerID : TimerID
  pTimerCallBack : Option Cb

/-- `HW_TS_RTC_Wakeup_Handler`: the interrupt is taken, and at most one callback is called. No
interrupt that could preempt the handler uses the timer server. -/
def hwTsRtcWakeupHandler (ssr : SsrReadings) :
    Option (TimerServer Cb × Option (Notification Cb)) :=
  let s := { s with wakeupTimerEnabled := false, pendingIrq := false }
  match s.currentRunningTimerID with
  | none => none
  | some current =>
      let context := s.aTimerContext current
      let notification : Notification Cb :=
        ⟨context.timerProcessID, current, context.pTimerCallBack⟩
      if context.timerIDStatus = .running then
        if s.wakeupTimerLimitation ≠ .overpassed then
          if context.timerMode = .repeated then do
            let s := s.unlinkTimer current false
            let s ← s.stopRunning current ssr
            let s ← s.startTimer current (s.aTimerContext current).counterInit ssr
            some (s, some notification)
          else do
            let s ← s.hwTsStop current ssr
            some (s, some notification)
        else do
          let s ← s.rescheduleTimerList ssr
          some (s, none)
      else some (s, none)

/-- `HW_TS_Create`, with the new id when there is a free slot. The fields are written after the
critical section, but nobody reads them before the slot is started. -/
def hwTsCreate (timerProcessID : BitVec 32) (timerMode : TimerMode) (pftimeoutHandler : Cb) :
    TimerServer Cb × Option TimerID :=
  match (List.finRange 6).find? fun loop => s.status loop = .free with
  | some loop =>
      (s.modify loop fun c => { c with
        timerIDStatus := .created
        timerProcessID := timerProcessID
        timerMode := timerMode
        pTimerCallBack := some pftimeoutHandler }, some loop)
  | none => (s, none)

def zeroID : TimerID := 0

def powerUp : TimerServer Cb where
  aTimerContext := fun _ => ⟨none, 0, 0, .free, .singleShot, 0, zeroID, some zeroID⟩
  currentRunningTimerID := some zeroID
  previousRunningTimerID := some zeroID
  ssrValueOnLastSetup := 0
  wakeupTimerLimitation := .overpassed
  wakeupTimerDivider := 0
  asynchPrescalerUserConfig := 0
  synchPrescalerUserConfig := 0
  maxWakeupTimerSetup := 0
  wakeupTimerEnabled := false
  pendingIrq := false

structure RtcConfig where
  wucksel : BitVec 3
  predivA : BitVec 7
  predivS : BitVec 15

/-- `10 * (LSI_VALUE / 1000)`, in RTC clock cycles. -/
def cfgHwTsRtcHandlerMaxDelay : BitVec 32 := 320

/-- `HW_TS_Init` with `hw_ts_InitMode_Full`. -/
def hwTsInit (rtc : RtcConfig) : TimerServer Cb :=
  let asynchPrescaler : BitVec 8 := rtc.predivA.setWidth 8 + 1
  let synchPrescaler : BitVec 16 := rtc.predivS.setWidth 16 + 1
  let divider : BitVec 8 := 4 - rtc.wucksel.setWidth 8
  let localmaxwakeuptimersetup : BitVec 32 :=
    ((synchPrescaler.setWidth 32 - 1) * asynchPrescaler.setWidth 32 - cfgHwTsRtcHandlerMaxDelay) >>>
      divider.toNat
  { s with
    wakeupTimerDivider := divider
    asynchPrescalerUserConfig := asynchPrescaler
    synchPrescalerUserConfig := synchPrescaler
    maxWakeupTimerSetup :=
      if 0xFFFF ≤ localmaxwakeuptimersetup then 0xFFFF else localmaxwakeuptimersetup.setWidth 16
    wakeupTimerLimitation := .largeEnough
    ssrValueOnLastSetup := ssrForbiddenValue
    aTimerContext := fun loop => { s.aTimerContext loop with timerIDStatus := .free }
    currentRunningTimerID := none
    wakeupTimerEnabled := false
    pendingIrq := false }

end TimerServer

end Baelux.Timers

import Mathlib.Logic.Function.Basic

/-! `button.c`: press and release reports become events, with one timer for all
buttons behind the report of short presses. -/

namespace Baelux.Buttons

inductive ButtonStatus where
  | pressed
  | released
  | unknown
  deriving DecidableEq, Repr

/-- The events that reach a callback, with the arguments of the callback. -/
inductive ButtonEvent where
  | pressed
  | released
  | short
  | shortMulti (cnt : Nat)
  | long (elapsedMs : BitVec 32)
  | error
  deriving DecidableEq, Repr

/-- `button_t`, less the pointers to driver and callbacks; `long` has 32 bits. -/
structure Button where
  mStatePre : ButtonStatus
  mShortPressTimeout : BitVec 32
  mErrorTimeout : BitVec 32
  mInitialPressedTime : BitVec 32
  mPressedElapsedMs : BitVec 32
  /-- An `int`. After 2^31 - 1 presses in one series the next one would overflow it, which C leaves
  undefined; here it goes on counting. -/
  cnt : Nat
  deriving DecidableEq, Repr

/-- The buttons by handle, the static variables and the invoke timer, with the events
that were delivered. -/
structure ButtonsState where
  button : Nat → Button
  mIsTimerUsed : Bool
  mLastShortKeyhandle : Option Nat
  timerArmed : Bool
  delivered : List (Nat × ButtonEvent)

/-- What the driver of a button answers: its time and whether the pin is at pressed level. -/
structure DriverReading where
  timestamp : BitVec 32
  pressed : Bool
  deriving DecidableEq, Repr

def initButton : Button := ⟨.released, 500, 10000, 0, 0, 0⟩

def Button.reset (handle : Button) : Button :=
  { handle with
    mStatePre := .released
    mPressedElapsedMs := 0
    mInitialPressedTime := 0
    cnt := 0 }

namespace ButtonsState

/-- `invokeEvent`; the application sets every callback of its buttons. -/
def invokeEvent (s : ButtonsState) (handle : Nat) (event : ButtonEvent) : ButtonsState :=
  { s with delivered := s.delivered ++ [(handle, event)] }

def setButton (s : ButtonsState) (handle : Nat) (button : Button) : ButtonsState :=
  { s with button := Function.update s.button handle button }

def invokeTimerStop (s : ButtonsState) : ButtonsState := { s with timerArmed := false }

def invokeTimerRestart (s : ButtonsState) : ButtonsState := { s with timerArmed := true }

end ButtonsState

def DriverReading.status (reading : DriverReading) : ButtonStatus :=
  if reading.pressed then .pressed else .released

/-- A timestamp of 0 asks the driver. -/
def curTimestamp (timestamp : BitVec 32) (reading : DriverReading) : BitVec 32 :=
  if timestamp = 0 then reading.timestamp else timestamp

def curState (status : ButtonStatus) (reading : DriverReading) : ButtonStatus :=
  if status = .unknown then reading.status else status

def updatePressed (s : ButtonsState) (h : Nat) (now : BitVec 32) : ButtonsState :=
  let handle := s.button h
  if handle.mStatePre = .released then
    (s.setButton h { handle with
      mInitialPressedTime := now
      mPressedElapsedMs := 0
      mStatePre := .pressed
      cnt := handle.cnt + 1 }).invokeEvent h .pressed
  else
    let elapsed := now - handle.mInitialPressedTime
    let handle : Button := { handle with mPressedElapsedMs := elapsed }
    if handle.mErrorTimeout.slt elapsed then
      (s.invokeEvent h .error).setButton h handle.reset
    else s.setButton h handle

/-- The branch for a button that is up; `state` is the state it is reported in. -/
def updateReleased (s : ButtonsState) (h : Nat) (now : BitVec 32) (state : ButtonStatus) : ButtonsState :=
  let elapsed := now - (s.button h).mInitialPressedTime
  let handle : Button := { s.button h with mPressedElapsedMs := elapsed }
  if handle.mStatePre = .pressed then
    if elapsed.slt handle.mShortPressTimeout then
      if s.mIsTimerUsed then
        ({ s with mLastShortKeyhandle := some h }.invokeTimerRestart.setButton h
          { handle with mStatePre := state }).invokeEvent h .released
      else
        ((s.invokeEvent h .short).setButton h { handle with mStatePre := state }).invokeEvent h
          .released
    else
      ((s.invokeEvent h (.long elapsed)).setButton h
        { handle with mStatePre := state, cnt := 0 }).invokeEvent h .released
  else s.setButton h handle

def buttonUpdate (s : ButtonsState) (h : Nat) (timestamp : BitVec 32) (status : ButtonStatus)
    (reading : DriverReading) : ButtonsState :=
  let now := curTimestamp timestamp reading
  let state := curState status reading
  let s := if s.mIsTimerUsed then s.invokeTimerStop else s
  if state = .pressed then updatePressed s h now else updateReleased s h now state

def buttonOnInvokeTimerElapsed (s : ButtonsState) : ButtonsState :=
  let s := s.invokeTimerStop
  match s.mLastShortKeyhandle with
  | none => s
  | some h =>
      (s.invokeEvent h (.shortMulti (s.button h).cnt)).setButton h { s.button h with cnt := 0 }

end Baelux.Buttons

import Baelux.Buttons.Button
import Baelux.User.RingBuffer

/-! `user_int_handler.c`: GPIO interrupts push events for a task of the sequencer, which hands
them to the buttons. An interrupt may come between any two steps of the task. -/

namespace Baelux.User

open Buttons Session

/-- `button_info`; all buttons are at the port GPIOC. -/
structure ButtonInfo where
  id : BitVec 16
  pinMask : BitVec 16
  pressedLevel : BitVec 8
  deriving DecidableEq

def userButton1 : ButtonInfo := ⟨1 <<< 12, 1 <<< 12, 0⟩
def userButton2 : ButtonInfo := ⟨1 <<< 13, 1 <<< 13, 0⟩

def userButtonFind (pin : BitVec 16) : ButtonInfo :=
  if pin = 1 <<< 12 then userButton1
  else if pin = 1 <<< 13 then userButton2
  else userButton1

def statusByte : ButtonStatus → BitVec 8
  | .pressed => 0
  | .released => 1
  | .unknown => 2

def byteStatus (status : BitVec 8) : ButtonStatus :=
  if status = 0 then .pressed else if status = 1 then .released else .unknown

structure Interrupt where
  gpioPin : BitVec 16
  tick : BitVec 32
  gpioc : BitVec 16 → BitVec 8

structure ButtonsUpdate where
  id : BitVec 16
  timestamp : BitVec 32
  status : ButtonStatus
  deriving DecidableEq

/-- Where `user_exti_handler` stands: not running, before it asks for the count, before it pops, or
with an event in its hands. -/
inductive Place where
  | away
  | testing
  | popping
  | holding (output : RingbufferButtonData)
  deriving DecidableEq

structure Pipeline where
  session : Session
  taskSet : Bool
  place : Place
  captured : List Interrupt
  updates : List ButtonsUpdate

def Interrupt.input (interrupt : Interrupt) : RingbufferButtonData :=
  let btn := userButtonFind interrupt.gpioPin
  { data := interrupt.gpioPin.setWidth 32
    timestamp := interrupt.tick
    status := statusByte
      (if interrupt.gpioc btn.pinMask = btn.pressedLevel then .pressed else .released) }

def handed (output : RingbufferButtonData) : Option ButtonsUpdate :=
  let pin : BitVec 16 := output.data.setWidth 16
  let ts := output.timestamp
  let status := byteStatus output.status
  if pin = userButton1.pinMask then some ⟨userButton1.id, ts, status⟩
  else if pin = userButton2.pinMask then some ⟨userButton2.id, ts, status⟩
  else none

namespace Pipeline

def booted : Pipeline := ⟨opened clearedRingbuffer, false, .away, [], []⟩

def halGpioExtiCallback (s : Pipeline) (interrupt : Interrupt) : Pipeline :=
  { s with
    session := s.session.step (.push interrupt.input)
    taskSet := true
    captured := s.captured ++ [interrupt] }

/-- The next step of `user_exti_handler`; no step where it does not run or nothing is popped. -/
def userExtiHandler (s : Pipeline) : Option Pipeline :=
  match s.place with
  | .away => none
  | .testing => some { s with place := if 0 < s.session.count then .popping else .away }
  | .popping =>
      (utilsRingbufferPop s.session.handle s.session.statics).1.map fun output =>
        { s with session := s.session.step .pop, place := .holding output }
  | .holding output =>
      some { s with updates := s.updates ++ (handed output).toList, place := .testing }

/-- An interrupt, the start of the task, whose bit the sequencer clears first, or a step of it. -/
inductive Step : Pipeline → Pipeline → Prop where
  | interrupt (s : Pipeline) (interrupt : Interrupt) : Step s (s.halGpioExtiCallback interrupt)
  | start (s : Pipeline) (set : s.taskSet = true) (free : s.place = .away) :
      Step s { s with taskSet := false, place := .testing }
  | handler {s t : Pipeline} (steps : s.userExtiHandler = some t) : Step s t

/-- What any order of interrupts and steps leads to while at most 32 events are pending. -/
inductive Reachable : Pipeline → Prop where
  | boot : Reachable booted
  | next {s t : Pipeline} (before : Reachable s) (step : Step s t)
      (bounded : t.session.count ≤ utilConfRingbufferMaxBuffersize) : Reachable t

end Pipeline

def Interrupt.expected (interrupt : Interrupt) : Option ButtonsUpdate :=
  if interrupt.gpioPin = userButton1.pinMask ∨ interrupt.gpioPin = userButton2.pinMask then
    some ⟨interrupt.gpioPin, interrupt.tick,
      if interrupt.gpioc interrupt.gpioPin = 0 then .pressed else .released⟩
  else none

namespace Pipeline

def pending (s : Pipeline) : Nat :=
  s.session.count + match s.place with
    | .holding _ => 1
    | _ => 0

/-- No wake-up is lost, and what is not pending was handed over, in order and once. -/
structure Sound (s : Pipeline) : Prop where
  woken : 0 < s.session.count → s.taskSet = true ∨ s.place ≠ .away
  running : s.place ≠ .away → ∃ t, s.userExtiHandler = some t
  delivered : ∃ handled waiting, s.captured = handled ++ waiting ∧
    waiting.length = s.pending ∧ s.updates = handled.filterMap Interrupt.expected

/-! ## The events on their way -/

inductive Hands : Place → List Interrupt → Prop where
  | away : Hands .away []
  | testing : Hands .testing []
  | popping : Hands .popping []
  | holding (interrupt : Interrupt) : Hands (.holding interrupt.input) [interrupt]

structure Flows (s : Pipeline) (handled held queued : List Interrupt) : Prop where
  captured : s.captured = handled ++ held ++ queued
  updates : s.updates = handled.filterMap Interrupt.expected
  tracks : Tracks s.session ((handled ++ held).map Interrupt.input) (queued.map Interrupt.input)
  hands : Hands s.place held
  ready : s.place = .popping → queued ≠ []
  woken : queued ≠ [] → s.taskSet = true ∨ s.place ≠ .away

variable {s t : Pipeline} {handled held queued : List Interrupt}

theorem byteStatus_statusByte (status : ButtonStatus) : byteStatus (statusByte status) = status := by
  cases status <;> decide

theorem handed_input (interrupt : Interrupt) : handed interrupt.input = interrupt.expected := by
  rcases interrupt with ⟨pin, tick, gpioc⟩
  have narrow : (pin.setWidth 32).setWidth 16 = pin := by
    rw [BitVec.setWidth_setWidth_of_le _ (by decide), BitVec.setWidth_eq]
  simp only [handed, Interrupt.input, Interrupt.expected, narrow, byteStatus_statusByte]
  by_cases first : pin = userButton1.pinMask
  · have button : pin = userButton1.pinMask ∨ pin = userButton2.pinMask := .inl first
    rw [if_pos first, if_pos button, first]
    rfl
  · rw [if_neg first]
    by_cases second : pin = userButton2.pinMask
    · have button : pin = userButton1.pinMask ∨ pin = userButton2.pinMask := .inr second
      rw [if_pos second, if_pos button, second]
      rfl
    · rw [if_neg second, if_neg (not_or.mpr ⟨first, second⟩)]

theorem flows_booted : Flows booted [] [] [] where
  captured := rfl
  updates := rfl
  tracks := opened_tracks rfl
  hands := .away
  ready := fun popping => nomatch popping
  woken := fun some_queued => absurd rfl some_queued

theorem flows_interrupt (flows : Flows s handled held queued) (interrupt : Interrupt)
    (bounded : (s.halGpioExtiCallback interrupt).session.count ≤ utilConfRingbufferMaxBuffersize) :
    Flows (s.halGpioExtiCallback interrupt) handled held (queued ++ [interrupt]) where
  captured := by
    change s.captured ++ [interrupt] = _
    rw [flows.captured, List.append_assoc _ queued]
  updates := flows.updates
  tracks := by
    have more := flows.tracks.count_push interrupt.input
    have room : (queued.map Interrupt.input).length < utilConfRingbufferMaxBuffersize := by
      change (s.session.step (.push interrupt.input)).count ≤ _ at bounded
      omega
    have queued' : (queued ++ [interrupt]).map Interrupt.input =
        queued.map Interrupt.input ++ [interrupt.input] := List.map_append
    rw [queued']
    exact flows.tracks.push interrupt.input room
  hands := flows.hands
  ready := fun _ => List.append_ne_nil_of_right_ne_nil _ (List.cons_ne_nil _ _)
  woken := fun _ => .inl rfl

theorem flows_start (flows : Flows s handled held queued) (free : s.place = .away) :
    Flows { s with taskSet := false, place := .testing } handled held queued where
  captured := flows.captured
  updates := flows.updates
  tracks := flows.tracks
  hands := by
    have hands := flows.hands
    rw [free] at hands
    cases hands
    exact .testing
  ready := fun popping => nomatch popping
  woken := fun _ => .inr fun away => nomatch away

/-- Every step of the handler is possible and keeps the events on their way. -/
theorem flows_handler (flows : Flows s handled held queued) (runs : s.place ≠ .away) :
    ∃ t handled' held' queued', s.userExtiHandler = some t ∧ Flows t handled' held' queued' := by
  have hands := flows.hands
  have counted : s.session.count = queued.length := by
    rw [flows.tracks.counted, List.length_map]
  generalize place : s.place = there at hands
  cases hands with
  | away => exact absurd place runs
  | testing =>
    have steps : s.userExtiHandler =
        some { s with place := if 0 < s.session.count then .popping else .away } := by
      simp only [userExtiHandler, place]
    refine ⟨_, handled, [], queued, steps, flows.captured, flows.updates, flows.tracks, ?_, ?_, ?_⟩
    · dsimp only
      split
      · exact .popping
      · exact .away
    · intro popping empty
      dsimp only at popping
      rw [counted, empty, List.length_nil, if_neg (Nat.lt_irrefl 0)] at popping
      cases popping
    · intro some_queued
      have waiting : 0 < s.session.count := by
        rw [counted]
        exact List.length_pos_iff.mpr some_queued
      dsimp only
      rw [if_pos waiting]
      exact .inr fun away => nomatch away
  | popping =>
    rcases List.exists_cons_of_ne_nil (flows.ready place) with ⟨interrupt, rest, rfl⟩
    have tracks := flows.tracks
    rw [List.append_nil, List.map_cons] at tracks
    have steps : s.userExtiHandler =
        some { s with session := s.session.step .pop, place := .holding interrupt.input } := by
      simp only [userExtiHandler, place, tracks.first_popped, Option.map_some]
    refine ⟨_, handled, [interrupt], rest, steps, ?_, flows.updates, ?_, .holding interrupt, ?_, ?_⟩
    · exact flows.captured.trans (by simp)
    · rw [List.map_append]
      exact tracks.pop
    · exact fun popping => nomatch popping
    · exact fun _ => .inr fun away => nomatch away
  | holding interrupt =>
    have steps : s.userExtiHandler = some { s with
        updates := s.updates ++ (handed interrupt.input).toList, place := .testing } := by
      simp only [userExtiHandler, place]
    refine ⟨_, handled ++ [interrupt], [], queued, steps, ?_, ?_, ?_, .testing, ?_, ?_⟩
    · rw [List.append_nil]
      exact flows.captured
    · change s.updates ++ (handed interrupt.input).toList = _
      rw [flows.updates, handed_input, List.filterMap_append]
      cases expected : interrupt.expected <;> simp [expected]
    · rw [List.append_nil]
      exact flows.tracks
    · exact fun popping => nomatch popping
    · exact fun _ => .inr fun away => nomatch away

theorem flows_step (flows : Flows s handled held queued) (step : Step s t)
    (bounded : t.session.count ≤ utilConfRingbufferMaxBuffersize) :
    ∃ handled' held' queued', Flows t handled' held' queued' := by
  cases step with
  | interrupt interrupt => exact ⟨_, _, _, flows_interrupt flows interrupt bounded⟩
  | start set free => exact ⟨_, _, _, flows_start flows free⟩
  | handler steps =>
    have runs : s.place ≠ .away := by
      intro away
      rw [userExtiHandler, away] at steps
      cases steps
    rcases flows_handler flows runs with ⟨_, handled', held', queued', steps', after⟩
    obtain rfl := Option.some.inj (steps.symm.trans steps')
    exact ⟨handled', held', queued', after⟩

theorem flows_reachable (reachable : Reachable s) : ∃ handled held queued,
    Flows s handled held queued := by
  induction reachable with
  | boot => exact ⟨[], [], [], flows_booted⟩
  | next before step bounded ih =>
    rcases ih with ⟨handled, held, queued, flows⟩
    exact flows_step flows step bounded

theorem Flows.sound (flows : Flows s handled held queued) : s.Sound where
  woken := by
    intro waiting
    apply flows.woken
    intro same
    subst same
    rw [flows.tracks.counted] at waiting
    exact Nat.lt_irrefl 0 waiting
  running := by
    intro runs
    rcases flows_handler flows runs with ⟨t, _, _, _, steps, _⟩
    exact ⟨t, steps⟩
  delivered := by
    refine ⟨handled, held ++ queued, ?_, ?_, flows.updates⟩
    · rw [flows.captured, List.append_assoc]
    · have hands := flows.hands
      rw [List.length_append, pending, flows.tracks.counted, List.length_map]
      generalize s.place = place at hands
      cases hands with
      | holding interrupt => exact Nat.add_comm ..
      | away => exact Nat.add_comm ..
      | testing => exact Nat.add_comm ..
      | popping => exact Nat.add_comm ..

end Pipeline

open Pipeline

/-- In every order of interrupts, starts of the task and its steps, over runs of any length. -/
theorem interrupts_delivered (s : Pipeline) (reachable : Reachable s) : s.Sound := by
  rcases flows_reachable reachable with ⟨_, _, _, flows⟩
  exact flows.sound

/-- A press of button 1 on its way to `buttons_update`. -/
theorem press_delivered : ∃ s, Reachable s ∧ s.Sound ∧ s.place = .testing ∧
    s.updates = [⟨1 <<< 12, 5, .pressed⟩] := by
  have press := Reachable.boot.next (.interrupt booted ⟨1 <<< 12, 5, fun _ => 0⟩) (by decide)
  have started := press.next (.start _ rfl rfl) (by decide)
  have tested := started.next (.handler rfl) (by decide)
  have popped := tested.next (.handler rfl) (by decide)
  have handed := popped.next (.handler rfl) (by decide)
  exact ⟨_, handed, interrupts_delivered _ handed, rfl, rfl⟩

end Baelux.User

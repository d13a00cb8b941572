import Baelux.Buttons.ShortPress
import Mathlib.Data.List.Induction

/-! What the callbacks of one button see: presses with one closing each, and reports of short
presses between them. -/

namespace Baelux.Buttons

def eventsOf (h : Nat) (delivered : List (Nat × ButtonEvent)) : List ButtonEvent :=
  (delivered.filter fun event => event.1 = h).map Prod.snd

def IsReport : ButtonEvent → Bool
  | .shortMulti _ => true
  | _ => false

/-- A press ends in an error, or in a release with or without a long event right before it. -/
inductive Closing : List ButtonEvent → Prop where
  | error : Closing [.error]
  | released : Closing [.released]
  | long (elapsedMs : BitVec 32) : Closing [.long elapsedMs, .released]

/-- Presses one after another, each with its closing. -/
inductive Presses : List ButtonEvent → Prop where
  | none : Presses []
  | press {before closing : List ButtonEvent} (earlier : Presses before) (closes : Closing closing) :
      Presses (before ++ .pressed :: closing)

/-- Counts a press that is closed without long or error, and starts again behind a report, a long
event and an error; the second part says that the closing of a long press goes on. -/
def countShort : Nat × Bool → ButtonEvent → Nat × Bool
  | (count, _), .pressed => (count, false)
  | (count, inLong), .released => if inLong then (0, false) else (count + 1, false)
  | (count, _), .short => (count, false)
  | _, .long _ => (0, true)
  | _, .error => (0, false)
  | _, .shortMulti _ => (0, false)

def shortsSince (seen : List ButtonEvent) : Nat × Bool := seen.foldl countShort (0, false)

def pressesOf (seen : List ButtonEvent) : List ButtonEvent :=
  seen.filter fun event => !IsReport event

/-- A report behind the events of a trace: at least one press is closed and none is open, and the
count is right. -/
structure ReportFits (seen : List ButtonEvent) (cnt : Nat) : Prop where
  closed : Presses (pressesOf seen)
  some_press : pressesOf seen ≠ []
  positive : 1 ≤ cnt
  bounded : cnt ≤ (shortsSince seen).1

/-- The trace begins a repetition of closed presses, with reports only between them. -/
structure WellFormed (seen : List ButtonEvent) : Prop where
  presses : ∃ rest, Presses (pressesOf seen ++ rest)
  reports : ∀ i cnt, seen[i]? = some (.shortMulti cnt) → ReportFits (seen.take i) cnt

namespace ButtonsState

def step (s : ButtonsState) : ButtonOp → ButtonsState
  | .update h timestamp status reading => buttonUpdate s h timestamp status reading
  | .elapse => buttonOnInvokeTimerElapsed s

def Legal : ButtonsState → List ButtonOp → Prop
  | _, [] => True
  | s, op :: rest => (op = .elapse → s.timerArmed = true) ∧ Legal (s.step op) rest

end ButtonsState

open ButtonsState

def initialised : ButtonsState := ⟨fun _ => initButton, true, none, false, []⟩

/-! ## One button -/

inductive Orderly (seen : List ButtonEvent) : ButtonStatus → Nat → Prop where
  | up {cnt : Nat} (closed : Presses (pressesOf seen)) (since : shortsSince seen = (cnt, false))
      (reports : ∀ i n, seen[i]? = some (.shortMulti n) → ReportFits (seen.take i) n) :
      Orderly seen .released cnt
  | down {cnt : Nat} {before : List ButtonEvent} (closed : Presses before)
      (last : pressesOf seen = before ++ [.pressed]) (since : shortsSince seen = (cnt, false))
      (reports : ∀ i n, seen[i]? = some (.shortMulti n) → ReportFits (seen.take i) n) :
      Orderly seen .pressed (cnt + 1)

variable {s t : ButtonsState} {h : Nat} {seen events : List ButtonEvent}
variable {before after : ButtonStatus} {cnt cnt' : Nat} {armed : Bool}

theorem Orderly.wellFormed (orderly : Orderly seen before cnt) : WellFormed seen := by
  cases orderly with
  | up closed since reports =>
    refine ⟨⟨[], ?_⟩, reports⟩
    rwa [List.append_nil]
  | down closed last since reports =>
    refine ⟨⟨[.released], ?_⟩, reports⟩
    rw [last, List.append_assoc]
    exact closed.press .released

theorem pressesOf_append (front back : List ButtonEvent) :
    pressesOf (front ++ back) = pressesOf front ++ pressesOf back :=
  List.filter_append ..

theorem shortsSince_append (front back : List ButtonEvent) :
    shortsSince (front ++ back) = back.foldl countShort (shortsSince front) :=
  List.foldl_append

theorem reports_append
    (reports : ∀ i n, seen[i]? = some (.shortMulti n) → ReportFits (seen.take i) n)
    (later : ∀ i n, events[i]? = some (.shortMulti n) → ReportFits (seen ++ events.take i) n)
    (i n : Nat) (there : (seen ++ events)[i]? = some (.shortMulti n)) :
    ReportFits ((seen ++ events).take i) n := by
  rcases Nat.lt_or_ge i seen.length with inside | behind
  · rw [List.getElem?_append_left inside] at there
    rw [List.take_append_of_le_length (Nat.le_of_lt inside)]
    exact reports i n there
  · rw [List.getElem?_append_right behind] at there
    rw [List.take_append, List.take_of_length_le behind]
    exact later _ n there

theorem reports_quiet
    (reports : ∀ i n, seen[i]? = some (.shortMulti n) → ReportFits (seen.take i) n)
    (silent : ∀ event ∈ events, IsReport event = false) (i n : Nat)
    (there : (seen ++ events)[i]? = some (.shortMulti n)) :
    ReportFits ((seen ++ events).take i) n := by
  apply reports_append reports _ i n there
  intro j m reported
  cases silent _ (List.mem_of_getElem? reported)

theorem Orderly.closes {closing : List ButtonEvent} (orderly : Orderly seen .pressed (cnt + 1))
    (closes : Closing closing) (counts : closing.foldl countShort (cnt, false) = (cnt', false)) :
    Orderly (seen ++ closing) .released cnt' := by
  have silent : ∀ event ∈ closing, IsReport event = false := by
    cases closes <;> simp [IsReport]
  have whole : pressesOf closing = closing := by
    cases closes <;> rfl
  cases orderly with
  | down closed last since reports =>
    apply Orderly.up
    · rw [pressesOf_append, last, whole, List.append_assoc]
      exact closed.press closes
    · rw [shortsSince_append, since]
      exact counts
    · exact reports_quiet reports silent

/-- One case for each thing that a report can do. -/
theorem Orderly.told (orderly : Orderly seen before cnt)
    (tells : Tells before cnt after cnt' armed events) : Orderly (seen ++ events) after cnt' := by
  cases tells with
  | press cnt =>
    cases orderly with
    | up closed since reports =>
      apply Orderly.down closed
      · exact pressesOf_append ..
      · rw [shortsSince_append, since]
        rfl
      · exact reports_quiet reports (by simp [IsReport])
  | hold cnt =>
    rw [List.append_nil]
    exact orderly
  | error cnt =>
    cases cnt with
    | zero => nomatch orderly
    | succ cnt => exact orderly.closes .error rfl
  | short cnt =>
    cases cnt with
    | zero => nomatch orderly
    | succ cnt => exact orderly.closes .released rfl
  | long cnt elapsedMs =>
    cases cnt with
    | zero => nomatch orderly
    | succ cnt => exact orderly.closes (.long elapsedMs) rfl
  | idle cnt =>
    rw [List.append_nil]
    exact orderly

theorem shortsSince_reports (only : pressesOf seen = []) : shortsSince seen = (0, false) := by
  induction seen using List.reverseRecOn with
  | nil => rfl
  | append_singleton front event ih =>
    rw [pressesOf_append, List.append_eq_nil_iff] at only
    rw [shortsSince_append, ih only.1]
    cases event with
    | shortMulti n => rfl
    | pressed => cases only.2
    | released => cases only.2
    | short => cases only.2
    | long elapsedMs => cases only.2
    | error => cases only.2

theorem Orderly.reported (orderly : Orderly seen .released cnt) (positive : 0 < cnt) :
    Orderly (seen ++ [.shortMulti cnt]) .released 0 := by
  cases orderly with
  | up closed since reports =>
    have fits : ReportFits seen cnt := by
      refine ⟨closed, ?_, positive, ?_⟩
      · intro nothing
        rw [shortsSince_reports nothing] at since
        cases since
        exact Nat.lt_irrefl 0 positive
      · exact Nat.le_of_eq (congrArg Prod.fst since).symm
    apply Orderly.up
    · rw [pressesOf_append]
      exact (List.append_nil (pressesOf seen)).symm ▸ closed
    · rw [shortsSince_append, since]
      rfl
    · apply reports_append reports
      intro i n there
      rw [List.getElem?_singleton] at there
      split at there
      · have first : i = 0 := by omega
        cases there
        rw [first, List.take_zero, List.append_nil]
        exact fits
      · cases there

/-! ## All buttons -/

theorem eventsOf_append (front back : List (Nat × ButtonEvent)) :
    eventsOf h (front ++ back) = eventsOf h front ++ eventsOf h back := by
  rw [eventsOf, List.filter_append, List.map_append, eventsOf, eventsOf]

theorem eventsOf_same (events : List ButtonEvent) : eventsOf h (events.map (Prod.mk h)) = events := by
  induction events with
  | nil => rfl
  | cons event rest ih =>
    simpa [eventsOf] using ih

theorem eventsOf_other {g : Nat} (other : g ≠ h) (events : List ButtonEvent) :
    eventsOf g (events.map (Prod.mk h)) = [] := by
  induction events with
  | nil => rfl
  | cons event rest ih =>
    simp [eventsOf, Ne.symm other]

/-- Every button is orderly, and an armed timer waits for one that is up and has presses to
report. -/
structure AllOrderly (s : ButtonsState) : Prop where
  used : s.mIsTimerUsed = true
  orderly : ∀ h, Orderly (eventsOf h s.delivered) (s.button h).mStatePre (s.button h).cnt
  waiting : s.timerArmed = true → ∃ h, s.mLastShortKeyhandle = some h ∧
    (s.button h).mStatePre = .released ∧ 0 < (s.button h).cnt

theorem Orderly.known (orderly : Orderly seen before cnt) : before ≠ .unknown := by
  cases orderly <;> decide

theorem Tells.counted (tells : Tells before cnt after cnt' true events)
    (orderly : Orderly seen before cnt) : after = .released ∧ 0 < cnt' := by
  cases tells with
  | short cnt =>
    cases orderly with
    | down => exact ⟨rfl, Nat.succ_pos _⟩

theorem update_orderly (all : AllOrderly s) (h : Nat) (timestamp : BitVec 32)
    (status : ButtonStatus) (reading : DriverReading) :
    AllOrderly (buttonUpdate s h timestamp status reading) := by
  obtain ⟨after, cnt, armed, events, _, tells, told⟩ :=
    buttonUpdate_told s h timestamp status reading all.used (all.orderly h).known
  refine ⟨told.used.trans all.used, ?_, ?_⟩
  · intro g
    rw [told.delivered, eventsOf_append]
    by_cases same : g = h
    · subst same
      rw [eventsOf_same, told.statePre, told.counter]
      exact (all.orderly g).told tells
    · rw [eventsOf_other same, List.append_nil, told.others g same]
      exact all.orderly g
  · intro running
    obtain rfl : armed = true := told.timer.symm.trans running
    rcases tells.counted (all.orderly h) with ⟨up, positive⟩
    exact ⟨h, told.last rfl, told.statePre.trans up, told.counter.symm ▸ positive⟩

theorem elapse_orderly (all : AllOrderly s) (running : s.timerArmed = true) :
    AllOrderly (buttonOnInvokeTimerElapsed s) := by
  rcases all.waiting running with ⟨h, last, up, positive⟩
  have elapsed : buttonOnInvokeTimerElapsed s = (s.invokeTimerStop.invokeEvent h
      (.shortMulti (s.button h).cnt)).setButton h { s.button h with cnt := 0 } := by
    simp only [buttonOnInvokeTimerElapsed, invokeTimerStop, last]
  rw [elapsed]
  refine ⟨all.used, ?_, fun armed => absurd armed Bool.false_ne_true⟩
  intro g
  have delivered : eventsOf g (s.delivered ++ [.shortMulti (s.button h).cnt].map (Prod.mk h)) =
      eventsOf g s.delivered ++ eventsOf g ([.shortMulti (s.button h).cnt].map (Prod.mk h)) :=
    eventsOf_append ..
  change Orderly (eventsOf g (s.delivered ++ [.shortMulti (s.button h).cnt].map (Prod.mk h)))
    (Function.update s.button h { s.button h with cnt := 0 } g).mStatePre
    (Function.update s.button h { s.button h with cnt := 0 } g).cnt
  rw [delivered]
  by_cases same : g = h
  · subst same
    have orderly := all.orderly g
    rw [up] at orderly
    rw [eventsOf_same, Function.update_self]
    change Orderly _ (s.button g).mStatePre 0
    rw [up]
    exact orderly.reported positive
  · rw [eventsOf_other same, List.append_nil, Function.update_of_ne same]
    exact all.orderly g

theorem start_orderly : AllOrderly initialised where
  used := rfl
  orderly := fun _ => .up .none rfl fun _ _ there => nomatch there
  waiting := fun armed => absurd armed Bool.false_ne_true

theorem run_orderly (all : AllOrderly s) {ops : List ButtonOp} (legal : s.Legal ops) :
    AllOrderly (ops.foldl step s) := by
  induction ops generalizing s with
  | nil => exact all
  | cons op rest ih =>
    apply ih _ legal.2
    cases op with
    | update h timestamp status reading => exact update_orderly all h timestamp status reading
    | elapse => exact elapse_orderly all (legal.1 rfl)

/-- After any reports on any buttons and any elapses of the armed timer, what each button delivered
is well formed. -/
theorem events_well_formed (ops : List ButtonOp) (legal : initialised.Legal ops) (h : Nat) :
    WellFormed (eventsOf h (ops.foldl step initialised).delivered) :=
  ((run_orderly start_orderly legal).orderly h).wellFormed

/-- Two presses and their report. -/
theorem double_press_well_formed :
    WellFormed (eventsOf 0 (doublePress.foldl step initialised).delivered) := by
  have legal : initialised.Legal doublePress := by
    simp [doublePress, Legal]
    decide
  exact events_well_formed doublePress legal 0

end Baelux.Buttons

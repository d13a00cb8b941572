import Baelux.Buttons.Button
import Mathlib.Algebra.BigOperators.Group.List.Basic
import Mathlib.Algebra.GroupWithZero.Nat

/-! Counting short presses: every completed one waits in the counter of its button
until the timer reports it, as long as no report of another kind comes between. -/

namespace Baelux.Buttons

def reportedBy (h : Nat) : Nat × ButtonEvent → Nat
  | (g, .shortMulti cnt) => if g = h then cnt else 0
  | _ => 0

def reported (s : ButtonsState) (h : Nat) : Nat := (s.delivered.map (reportedBy h)).sum

def elapsedAt (handle : Button) (now : BitVec 32) : BitVec 32 := now - handle.mInitialPressedTime

inductive ButtonOp where
  | update (h : Nat) (timestamp : BitVec 32) (status : ButtonStatus) (reading : DriverReading)
  | elapse

def EndsShort (handle : Button) (now : BitVec 32) (state : ButtonStatus) : Prop :=
  state ≠ .pressed ∧ handle.mStatePre = .pressed ∧
    (elapsedAt handle now).slt handle.mShortPressTimeout = true

def EndsLong (handle : Button) (now : BitVec 32) (state : ButtonStatus) : Prop :=
  state ≠ .pressed ∧ handle.mStatePre = .pressed ∧
    (elapsedAt handle now).slt handle.mShortPressTimeout = false

def EndsInError (handle : Button) (now : BitVec 32) (state : ButtonStatus) : Prop :=
  state = .pressed ∧ handle.mStatePre ≠ .released ∧
    handle.mErrorTimeout.slt (elapsedAt handle now) = true

/-- The report keeps the count of its button: it is not a second release while presses
wait, and ends a long press or an error only where no short press came before. -/
def Settles (handle : Button) (now : BitVec 32) (state : ButtonStatus) : Prop :=
  (state ≠ .pressed → handle.mStatePre = .released → handle.cnt = 0) ∧
    (EndsLong handle now state ∨ EndsInError handle now state → handle.cnt = 1)

instance (handle : Button) (now : BitVec 32) (state : ButtonStatus) :
    Decidable (EndsShort handle now state) := inferInstanceAs (Decidable (_ ∧ _ ∧ _))

/-- The buttons with the number of short presses that each of them completed. -/
structure Watch where
  state : ButtonsState
  shorts : Nat → Nat

def startWatch : Watch := ⟨⟨fun _ => initButton, true, none, false, []⟩, fun _ => 0⟩

namespace Watch

def step (w : Watch) : ButtonOp → Watch
  | .update h timestamp status reading =>
      ⟨buttonUpdate w.state h timestamp status reading,
        if EndsShort (w.state.button h) (curTimestamp timestamp reading)
            (curState status reading) then
          Function.update w.shorts h (w.shorts h + 1)
        else w.shorts⟩
  | .elapse => ⟨buttonOnInvokeTimerElapsed w.state, w.shorts⟩

def Legal : Watch → List ButtonOp → Prop
  | _, [] => True
  | w, op :: rest => (op = .elapse → w.state.timerArmed = true) ∧ Legal (w.step op) rest

def ongoing (w : Watch) (h : Nat) : Nat := if (w.state.button h).mStatePre = .pressed then 1 else 0

def Awaited (w : Watch) (h : Nat) : Prop :=
  (w.state.button h).mStatePre = .released → 0 < (w.state.button h).cnt →
    w.state.timerArmed = true ∧ w.state.mLastShortKeyhandle = some h

def Balanced (w : Watch) (h : Nat) : Prop :=
  w.shorts h + w.ongoing h = reported w.state h + (w.state.button h).cnt

/-- Unreported short presses wait for the armed timer, and none is lost or counted twice. -/
structure Conserved (w : Watch) : Prop where
  awaited : ∀ h, w.Awaited h
  balanced : ∀ h, w.Balanced h

def Conserves : Watch → List ButtonOp → Prop
  | w, [] => w.Conserved
  | w, op :: rest => w.Conserved ∧ Conserves (w.step op) rest

def Clear (w : Watch) : ButtonOp → Prop
  | .update h timestamp status reading =>
      (∀ g, g ≠ h → (w.state.button g).mStatePre = .released → (w.state.button g).cnt = 0) ∧
        Settles (w.state.button h) (curTimestamp timestamp reading) (curState status reading)
  | .elapse => True

def AllClear : Watch → List ButtonOp → Prop
  | _, [] => True
  | w, op :: rest => w.Clear op ∧ AllClear (w.step op) rest

end Watch

/-! ## What an update does -/

inductive Turn (handle : Button) (now : BitVec 32) (state : ButtonStatus) :
    ButtonStatus → Nat → Bool → Prop where
  | press (down : state = .pressed) (before : handle.mStatePre = .released) :
      Turn handle now state .pressed (handle.cnt + 1) false
  | hold (before : handle.mStatePre = .pressed) (down : state = .pressed)
      (patient : ¬ EndsInError handle now state) : Turn handle now state .pressed handle.cnt false
  | error (before : handle.mStatePre = .pressed) (ends : EndsInError handle now state) :
      Turn handle now state .released 0 false
  | short (ends : EndsShort handle now state) : Turn handle now state .released handle.cnt true
  | long (ends : EndsLong handle now state) : Turn handle now state .released 0 false
  | idle (up : state ≠ .pressed) (before : handle.mStatePre = .released) :
      Turn handle now state .released handle.cnt false

inductive Tells : ButtonStatus → Nat → ButtonStatus → Nat → Bool → List ButtonEvent → Prop where
  | press (cnt : Nat) : Tells .released cnt .pressed (cnt + 1) false [.pressed]
  | hold (cnt : Nat) : Tells .pressed cnt .pressed cnt false []
  | error (cnt : Nat) : Tells .pressed cnt .released 0 false [.error]
  | short (cnt : Nat) : Tells .pressed cnt .released cnt true [.released]
  | long (cnt : Nat) (elapsedMs : BitVec 32) :
      Tells .pressed cnt .released 0 false [.long elapsedMs, .released]
  | idle (cnt : Nat) : Tells .released cnt .released cnt false []

structure Told (s t : ButtonsState) (h : Nat) (after : ButtonStatus) (cnt : Nat) (armed : Bool)
    (events : List ButtonEvent) : Prop where
  others : ∀ g, g ≠ h → t.button g = s.button g
  statePre : (t.button h).mStatePre = after
  counter : (t.button h).cnt = cnt
  timer : t.timerArmed = armed
  last : armed = true → t.mLastShortKeyhandle = some h
  used : t.mIsTimerUsed = s.mIsTimerUsed
  delivered : t.delivered = s.delivered ++ events.map (Prod.mk h)

structure Turned (s t : ButtonsState) (h : Nat) (after : ButtonStatus) (cnt : Nat)
    (armed : Bool) : Prop where
  others : ∀ g, g ≠ h → t.button g = s.button g
  statePre : (t.button h).mStatePre = after
  counter : (t.button h).cnt = cnt
  timer : t.timerArmed = armed
  last : armed = true → t.mLastShortKeyhandle = some h
  used : t.mIsTimerUsed = s.mIsTimerUsed
  silent : ∀ g, reported t g = reported s g

section Updates

variable {s t : ButtonsState} {h : Nat} {now timestamp : BitVec 32}
variable {state status after : ButtonStatus} {reading : DriverReading} {cnt : Nat} {armed : Bool}

theorem curState_ne_unknown (status : ButtonStatus) (reading : DriverReading) :
    curState status reading ≠ .unknown := by
  unfold curState DriverReading.status
  cases status with
  | unknown => cases reading.pressed <;> simp
  | pressed => simp
  | released => simp

private theorem up_of_not_pressed {state : ButtonStatus} (known : state ≠ .unknown)
    (up : state ≠ .pressed) : state = .released := by
  cases state with
  | pressed => exact absurd rfl up
  | released => rfl
  | unknown => exact absurd rfl known

private theorem told_of (button : Button) (events : List ButtonEvent)
    (buttons : t.button = Function.update s.button h button)
    (delivered : t.delivered = s.delivered ++ events.map (Prod.mk h))
    (used : t.mIsTimerUsed = s.mIsTimerUsed) (statePre : button.mStatePre = after)
    (counter : button.cnt = cnt) (timer : t.timerArmed = armed)
    (last : armed = true → t.mLastShortKeyhandle = some h) : Told s t h after cnt armed events where
  others := by
    intro g other
    rw [buttons, Function.update_of_ne other]
  statePre := by rw [buttons, Function.update_self, statePre]
  counter := by rw [buttons, Function.update_self, counter]
  timer := timer
  last := last
  used := used
  delivered := delivered

private theorem not_armed : false = true → t.mLastShortKeyhandle = some h :=
  fun wrong => absurd wrong Bool.false_ne_true

private theorem updatePressed_told (unarmed : s.timerArmed = false)
    (known : (s.button h).mStatePre ≠ .unknown) :
    ∃ after cnt armed events, Turn (s.button h) now .pressed after cnt armed ∧
      Tells (s.button h).mStatePre (s.button h).cnt after cnt armed events ∧
      Told s (updatePressed s h now) h after cnt armed events := by
  by_cases up : (s.button h).mStatePre = .released
  · refine ⟨_, _, _, [.pressed], .press rfl up, up ▸ .press _, ?_⟩
    rw [updatePressed, if_pos up]
    exact told_of _ _ rfl rfl rfl rfl rfl unarmed not_armed
  · have down : (s.button h).mStatePre = .pressed := by
      by_contra other
      exact up (up_of_not_pressed known other)
    rw [updatePressed, if_neg up]
    by_cases late : (s.button h).mErrorTimeout.slt (elapsedAt (s.button h) now) = true
    · refine ⟨_, _, _, [.error], .error down ⟨rfl, up, late⟩, down ▸ .error _, ?_⟩
      rw [elapsedAt] at late
      simp only [late, ↓reduceIte]
      exact told_of _ _ rfl rfl rfl rfl rfl unarmed not_armed
    · refine ⟨_, _, _, [], .hold down rfl (fun ends => late ends.2.2), down ▸ .hold _, ?_⟩
      rw [elapsedAt] at late
      simp only [late]
      exact told_of _ _ rfl (List.append_nil _).symm rfl down rfl unarmed not_armed

private theorem updateReleased_told (unarmed : s.timerArmed = false)
    (used : s.mIsTimerUsed = true) (up : state = .released)
    (known : (s.button h).mStatePre ≠ .unknown) :
    ∃ after cnt armed events, Turn (s.button h) now state after cnt armed ∧
      Tells (s.button h).mStatePre (s.button h).cnt after cnt armed events ∧
      Told s (updateReleased s h now state) h after cnt armed events := by
  have not_down : state ≠ .pressed := by
    rw [up]
    decide
  by_cases down : (s.button h).mStatePre = .pressed
  · by_cases quick : (elapsedAt (s.button h) now).slt (s.button h).mShortPressTimeout = true
    · refine ⟨_, _, _, [.released], .short ⟨not_down, down, quick⟩, down ▸ .short _, ?_⟩
      rw [elapsedAt] at quick
      simp only [updateReleased, down, ↓reduceIte, quick, used]
      exact told_of _ _ rfl rfl used.symm up rfl rfl fun _ => rfl
    · refine ⟨_, _, _, [.long (elapsedAt (s.button h) now), .released],
        .long ⟨not_down, down, Bool.eq_false_iff.mpr quick⟩, down ▸ .long _ _, ?_⟩
      rw [elapsedAt] at quick
      simp only [updateReleased, down, ↓reduceIte, quick]
      exact told_of _ _ rfl (by simp [ButtonsState.invokeEvent, ButtonsState.setButton, elapsedAt])
        rfl up rfl unarmed not_armed
  · have before := up_of_not_pressed known down
    refine ⟨_, _, _, [], .idle not_down before, before ▸ .idle _, ?_⟩
    simp only [updateReleased, down, ↓reduceIte]
    exact told_of _ _ rfl (List.append_nil _).symm rfl before rfl unarmed not_armed

/-- The spec of `button_update` while the invoke timer is in use. -/
theorem buttonUpdate_told (s : ButtonsState) (h : Nat) (timestamp : BitVec 32)
    (status : ButtonStatus) (reading : DriverReading) (used : s.mIsTimerUsed = true)
    (known : (s.button h).mStatePre ≠ .unknown) :
    ∃ after cnt armed events,
      Turn (s.button h) (curTimestamp timestamp reading) (curState status reading) after cnt armed ∧
        Tells (s.button h).mStatePre (s.button h).cnt after cnt armed events ∧
        Told s (buttonUpdate s h timestamp status reading) h after cnt armed events := by
  have moved : ∀ {after cnt armed events u}, Told s.invokeTimerStop u h after cnt armed events →
      Told s u h after cnt armed events := fun told =>
    ⟨told.others, told.statePre, told.counter, told.timer, told.last, told.used, told.delivered⟩
  have known' : (s.invokeTimerStop.button h).mStatePre ≠ .unknown := known
  have unarmed : s.invokeTimerStop.timerArmed = false := rfl
  by_cases down : curState status reading = .pressed
  · rcases updatePressed_told unarmed known' with ⟨after, cnt, armed, events, turn, tells, told⟩
    refine ⟨after, cnt, armed, events, down ▸ turn, tells, moved ?_⟩
    rw [buttonUpdate, if_pos used]
    simpa only [down, ↓reduceIte] using told
  · have up := up_of_not_pressed (curState_ne_unknown status reading) down
    obtain ⟨after, cnt, armed, events, turn, tells, told⟩ :=
      updateReleased_told unarmed used up known'
    refine ⟨after, cnt, armed, events, turn, tells, moved ?_⟩
    rw [buttonUpdate, if_pos used]
    simpa only [down, ↓reduceIte] using told

theorem Tells.silent {before : ButtonStatus} {cnt' : Nat} {events : List ButtonEvent}
    (tells : Tells before cnt' after cnt armed events) (g : Nat) :
    ∀ event ∈ events, reportedBy g (h, event) = 0 := by
  cases tells <;> simp [reportedBy]

theorem buttonUpdate_turned (s : ButtonsState) (h : Nat) (timestamp : BitVec 32)
    (status : ButtonStatus) (reading : DriverReading) (used : s.mIsTimerUsed = true)
    (known : (s.button h).mStatePre ≠ .unknown) :
    ∃ after cnt armed,
      Turn (s.button h) (curTimestamp timestamp reading) (curState status reading) after cnt armed ∧
        Turned s (buttonUpdate s h timestamp status reading) h after cnt armed := by
  obtain ⟨after, cnt, armed, events, turn, tells, told⟩ :=
    buttonUpdate_told s h timestamp status reading used known
  refine ⟨after, cnt, armed, turn, told.others, told.statePre, told.counter, told.timer, told.last,
    told.used, ?_⟩
  intro g
  have nothing : ((events.map (Prod.mk h)).map (reportedBy g)).sum = 0 := by
    apply List.sum_eq_zero
    intro n member
    rw [List.map_map] at member
    rcases List.mem_map.mp member with ⟨event, present, rfl⟩
    exact tells.silent g event present
  rw [reported, told.delivered, List.map_append, List.sum_append, nothing, Nat.add_zero, reported]

theorem Turn.armed_iff {handle : Button} (turn : Turn handle now state after cnt armed) :
    EndsShort handle now state ↔ armed = true := by
  cases turn with
  | press down before => exact iff_of_false (fun ends => ends.1 down) Bool.false_ne_true
  | hold before down patient => exact iff_of_false (fun ends => ends.1 down) Bool.false_ne_true
  | error before ends => exact iff_of_false (fun short => short.1 ends.1) Bool.false_ne_true
  | short ends => exact iff_of_true ends rfl
  | long ends =>
    apply iff_of_false _ Bool.false_ne_true
    intro short
    exact Bool.false_ne_true (ends.2.2.symm.trans short.2.2)
  | idle up before =>
    apply iff_of_false _ Bool.false_ne_true
    intro short
    exact absurd (before.symm.trans short.2.1) (by decide)

theorem Turn.known {handle : Button} (turn : Turn handle now state after cnt armed) :
    after ≠ .unknown := by
  cases turn <;> decide

theorem Turn.up_of_armed {handle : Button} (turn : Turn handle now state after cnt armed)
    (short : armed = true) : after = .released := by
  cases turn with
  | short ends => rfl
  | press down before => exact absurd short Bool.false_ne_true
  | hold before down patient => exact absurd short Bool.false_ne_true
  | error before ends => rfl
  | long ends => rfl
  | idle up before => rfl

end Updates

/-! ## One report -/

structure Sound (s : ButtonsState) : Prop where
  used : s.mIsTimerUsed = true
  known : ∀ h, (s.button h).mStatePre ≠ .unknown
  waiting : s.timerArmed = true →
    ∃ h, s.mLastShortKeyhandle = some h ∧ (s.button h).mStatePre = .released

theorem Turn.settles_iff {handle : Button} {now : BitVec 32} {state after : ButtonStatus}
    {cnt shorts told : Nat} {armed : Bool} (turn : Turn handle now state after cnt armed)
    (balanced : shorts + (if handle.mStatePre = .pressed then 1 else 0) = told + handle.cnt) :
    (shorts + (if armed = true then 1 else 0) + (if after = .pressed then 1 else 0) = told + cnt ∧
        (after = .released → 0 < cnt → armed = true)) ↔ Settles handle now state := by
  cases turn with
  | press down before =>
    apply iff_of_true
    · rw [before] at balanced
      simp at balanced ⊢
      omega
    · exact ⟨fun up => absurd down up,
        fun ends => ends.elim (fun long => absurd down long.1) (fun error => absurd before error.2.1)⟩
  | hold before down patient =>
    apply iff_of_true
    · rw [before] at balanced
      simp at balanced ⊢
      omega
    · exact ⟨fun up => absurd down up,
        fun ends => ends.elim (fun long => absurd down long.1) (fun error => absurd error patient)⟩
  | error before ends =>
    rw [before] at balanced
    constructor
    · intro kept
      refine ⟨fun up => absurd ends.1 up, fun _ => ?_⟩
      simp at balanced kept
      omega
    · intro settles
      have one := settles.2 (.inr ends)
      simp at balanced ⊢
      omega
  | short ends =>
    apply iff_of_true
    · rw [ends.2.1] at balanced
      simp at balanced ⊢
      omega
    · refine ⟨fun _ up => absurd (ends.2.1.symm.trans up) (by decide), fun other => ?_⟩
      apply other.elim
      · intro long
        exact absurd (long.2.2.symm.trans ends.2.2) Bool.false_ne_true
      · intro error
        exact absurd error.1 ends.1
  | long ends =>
    rw [ends.2.1] at balanced
    constructor
    · intro kept
      refine ⟨fun _ up => absurd (ends.2.1.symm.trans up) (by decide), fun _ => ?_⟩
      simp at balanced kept
      omega
    · intro settles
      have one := settles.2 (.inl ends)
      simp at balanced ⊢
      omega
  | idle up before =>
    rw [before] at balanced
    constructor
    · intro kept
      refine ⟨fun _ _ => ?_, fun other => ?_⟩
      · by_contra pending
        exact Bool.false_ne_true (kept.2 rfl (Nat.pos_of_ne_zero pending))
      · apply other.elim
        · intro long
          exact absurd (before.symm.trans long.2.1) (by decide)
        · intro error
          exact absurd error.1 up
    · intro settles
      have none_left := settles.1 up before
      simp at balanced ⊢
      omega

namespace Watch

variable {w : Watch} {h g : Nat} {timestamp : BitVec 32} {status : ButtonStatus}
variable {reading : DriverReading} {after : ButtonStatus} {cnt : Nat} {armed : Bool}

theorem balanced_other (other : g ≠ h)
    (turned : Turned w.state (buttonUpdate w.state h timestamp status reading) h after cnt armed) :
    (w.step (.update h timestamp status reading)).Balanced g ↔ w.Balanced g := by
  have same : (w.step (.update h timestamp status reading)).shorts g = w.shorts g := by
    rw [step]
    split
    · exact Function.update_of_ne other _ _
    · rfl
  rw [Balanced, Balanced, same, ongoing, ongoing]
  simp only [step, turned.others g other, turned.silent]

theorem awaited_other (other : g ≠ h)
    (turned : Turned w.state (buttonUpdate w.state h timestamp status reading) h after cnt armed) :
    (w.step (.update h timestamp status reading)).Awaited g ↔
      ((w.state.button g).mStatePre = .released → (w.state.button g).cnt = 0) := by
  simp only [Awaited, step, turned.others g other]
  constructor
  · intro awaited up
    by_contra pending
    rcases awaited up (Nat.pos_of_ne_zero pending) with ⟨running, last⟩
    have last_h := turned.last (turned.timer.symm.trans running)
    exact other (Option.some.inj (last.symm.trans last_h))
  · intro none_left up pending
    exact absurd (none_left up) (Nat.pos_iff_ne_zero.mp pending)

private theorem balanced_self
    (turn : Turn (w.state.button h) (curTimestamp timestamp reading) (curState status reading)
      after cnt armed)
    (turned : Turned w.state (buttonUpdate w.state h timestamp status reading) h after cnt armed) :
    (w.step (.update h timestamp status reading)).Balanced h ↔
      w.shorts h + (if armed = true then 1 else 0) + (if after = .pressed then 1 else 0) =
        reported w.state h + cnt := by
  have counted : (w.step (.update h timestamp status reading)).shorts h =
      w.shorts h + (if armed = true then 1 else 0) := by
    by_cases short : armed = true
    · rw [step, if_pos (turn.armed_iff.mpr short), if_pos short]
      exact Function.update_self _ _ _
    · rw [step, if_neg (fun ends => short (turn.armed_iff.mp ends)), if_neg short]
      rfl
  rw [Balanced, counted, ongoing]
  simp only [step, turned.statePre, turned.silent, turned.counter]

private theorem awaited_self
    (turned : Turned w.state (buttonUpdate w.state h timestamp status reading) h after cnt armed) :
    (w.step (.update h timestamp status reading)).Awaited h ↔
      (after = .released → 0 < cnt → armed = true) := by
  simp only [Awaited, step, turned.statePre, turned.counter, turned.timer]
  constructor
  · intro awaited up pending
    exact (awaited up pending).1
  · intro awaited up pending
    exact ⟨awaited up pending, turned.last (awaited up pending)⟩

theorem update_self (timestamp : BitVec 32) (status : ButtonStatus) (reading : DriverReading)
    (sound : Sound w.state) (balanced : w.Balanced h) :
    (w.step (.update h timestamp status reading)).Balanced h ∧
        (w.step (.update h timestamp status reading)).Awaited h ↔
      Settles (w.state.button h) (curTimestamp timestamp reading) (curState status reading) := by
  obtain ⟨after, cnt, armed, turn, turned⟩ := buttonUpdate_turned w.state h timestamp status
    reading sound.used (sound.known h)
  rw [balanced_self turn turned, awaited_self turned, Settles]
  rw [Balanced, ongoing] at balanced
  exact turn.settles_iff balanced

theorem update_conserved_iff (sound : Sound w.state) (conserved : w.Conserved) :
    (w.step (.update h timestamp status reading)).Conserved ↔
      w.Clear (.update h timestamp status reading) := by
  obtain ⟨after, cnt, armed, turn, turned⟩ := buttonUpdate_turned w.state h timestamp status
    reading sound.used (sound.known h)
  have self := update_self timestamp status reading sound (conserved.balanced h)
  constructor
  · intro kept
    refine ⟨fun g other => ?_, self.mp ⟨kept.balanced h, kept.awaited h⟩⟩
    exact (awaited_other other turned).mp (kept.awaited g)
  · intro clear
    rcases self.mpr clear.2 with ⟨balanced, awaited⟩
    constructor
    · intro g
      by_cases same : g = h
      · exact same ▸ awaited
      · exact (awaited_other same turned).mpr (clear.1 g same)
    · intro g
      by_cases same : g = h
      · exact same ▸ balanced
      · exact (balanced_other same turned).mpr (conserved.balanced g)

theorem update_sound (sound : Sound w.state) :
    Sound (w.step (.update h timestamp status reading)).state := by
  obtain ⟨after, cnt, armed, turn, turned⟩ := buttonUpdate_turned w.state h timestamp status
    reading sound.used (sound.known h)
  constructor
  · exact turned.used.trans sound.used
  · intro g
    by_cases same : g = h
    · subst same
      rw [step, turned.statePre]
      exact turn.known
    · rw [step, turned.others g same]
      exact sound.known g
  · intro running
    have short : armed = true := turned.timer.symm.trans running
    refine ⟨h, turned.last short, ?_⟩
    rw [step, turned.statePre]
    exact turn.up_of_armed short

/-! ## The timer elapses -/

/-- The spec of `button_onInvokeTimerElapsed` with a last key. -/
theorem elapsed_button (last : w.state.mLastShortKeyhandle = some h) :
    (buttonOnInvokeTimerElapsed w.state).button =
      Function.update w.state.button h { w.state.button h with cnt := 0 } := by
  simp only [buttonOnInvokeTimerElapsed, ButtonsState.invokeTimerStop, last]
  rfl

theorem elapsed_reported (last : w.state.mLastShortKeyhandle = some h) (g : Nat) :
    reported (buttonOnInvokeTimerElapsed w.state) g =
      reported w.state g + if h = g then (w.state.button h).cnt else 0 := by
  simp [buttonOnInvokeTimerElapsed, ButtonsState.invokeTimerStop, ButtonsState.invokeEvent,
    ButtonsState.setButton, last, reported, reportedBy]

theorem elapse_sound (sound : Sound w.state) (running : w.state.timerArmed = true) :
    Sound (w.step .elapse).state := by
  rcases sound.waiting running with ⟨h, last, up⟩
  constructor
  · simp only [step, buttonOnInvokeTimerElapsed, ButtonsState.invokeTimerStop, last]
    exact sound.used
  · intro g
    rw [step, elapsed_button last]
    by_cases same : g = h
    · subst same
      rw [Function.update_self]
      exact sound.known g
    · rw [Function.update_of_ne same]
      exact sound.known g
  · intro still
    simp [step, buttonOnInvokeTimerElapsed, ButtonsState.invokeTimerStop,
      ButtonsState.invokeEvent, ButtonsState.setButton, last] at still

theorem elapse_conserved (sound : Sound w.state) (running : w.state.timerArmed = true)
    (conserved : w.Conserved) : (w.step .elapse).Conserved := by
  rcases sound.waiting running with ⟨h, last, up⟩
  constructor
  · intro g
    rw [Awaited, step, elapsed_button last]
    by_cases same : g = h
    · subst same
      rw [Function.update_self]
      exact fun _ pending => absurd pending (Nat.lt_irrefl 0)
    · rw [Function.update_of_ne same]
      intro g_up pending
      have waiting := (conserved.awaited g g_up pending).2
      exact absurd (Option.some.inj (waiting.symm.trans last)) same
  · intro g
    have before := conserved.balanced g
    rw [Balanced, ongoing] at before ⊢
    simp only [step, elapsed_reported last, elapsed_button last]
    by_cases same : g = h
    · subst same
      rw [Function.update_self, if_pos rfl, Nat.add_zero]
      exact before
    · rw [Function.update_of_ne same, if_neg (Ne.symm same), Nat.add_zero]
      exact before

/-! ## Whole runs -/

theorem start_sound : Sound startWatch.state where
  used := rfl
  known := fun _ unknown => ButtonStatus.noConfusion unknown
  waiting := fun running => absurd running Bool.false_ne_true

theorem start_conserved : startWatch.Conserved where
  awaited := fun _ _ pending => absurd pending (Nat.lt_irrefl 0)
  balanced := fun _ => rfl

theorem step_sound {op : ButtonOp} (sound : Sound w.state)
    (legal : op = .elapse → w.state.timerArmed = true) : Sound (w.step op).state := by
  cases op with
  | update h timestamp status reading => exact update_sound sound
  | elapse => exact elapse_sound sound (legal rfl)

theorem step_conserved_iff {op : ButtonOp} (sound : Sound w.state) (conserved : w.Conserved)
    (legal : op = .elapse → w.state.timerArmed = true) :
    (w.step op).Conserved ↔ w.Clear op := by
  cases op with
  | update h timestamp status reading => exact update_conserved_iff sound conserved
  | elapse => exact iff_of_true (elapse_conserved sound (legal rfl) conserved) trivial

theorem conserves_head {ops : List ButtonOp} (conserves : w.Conserves ops) : w.Conserved := by
  cases ops with
  | nil => exact conserves
  | cons op rest => exact conserves.1

/-- By induction on the reports: a conserved state stays so exactly where each is clear. -/
theorem conserves_iff {ops : List ButtonOp} (sound : Sound w.state) (conserved : w.Conserved)
    (legal : w.Legal ops) : w.Conserves ops ↔ w.AllClear ops := by
  induction ops generalizing w with
  | nil => exact iff_of_true conserved trivial
  | cons op rest ih =>
    have next := step_conserved_iff sound conserved legal.1
    constructor
    · intro conserves
      have kept := conserves_head conserves.2
      exact ⟨next.mp kept, (ih (step_sound sound legal.1) kept legal.2).mp conserves.2⟩
    · intro clear
      have kept := next.mpr clear.1
      exact ⟨conserved, (ih (step_sound sound legal.1) kept legal.2).mpr clear.2⟩

end Watch

/-- In every run, short presses are conserved at every moment if and only if each report
comes while no other button waits for its own, and itself keeps the count. -/
theorem short_presses_conserved_iff (ops : List ButtonOp) (legal : startWatch.Legal ops) :
    startWatch.Conserves ops ↔ startWatch.AllClear ops :=
  Watch.conserves_iff Watch.start_sound Watch.start_conserved legal

def doublePress : List ButtonOp :=
  [.update 0 100 .pressed ⟨0, false⟩, .update 0 200 .released ⟨0, false⟩,
    .update 0 300 .pressed ⟨0, false⟩, .update 0 400 .released ⟨0, false⟩, .elapse]

theorem double_press_conserved : startWatch.Legal doublePress ∧
    (startWatch.Conserves doublePress ↔ startWatch.AllClear doublePress) := by
  have legal : startWatch.Legal doublePress := by
    simp [doublePress, Watch.Legal]
    decide
  exact ⟨legal, short_presses_conserved_iff doublePress legal⟩

/-- The press of a second button stops the timer behind a short press of the first. -/
theorem second_button_loses_press : ∃ ops, startWatch.Legal ops ∧ ¬ startWatch.Conserves ops := by
  refine ⟨[.update 0 100 .pressed ⟨0, false⟩, .update 0 200 .released ⟨0, false⟩,
    .update 1 300 .pressed ⟨0, false⟩], ?_, ?_⟩
  · simp [Watch.Legal]
  · intro conserves
    have lost := conserves.2.2.2.awaited 0 (by decide) (by decide)
    exact absurd lost.1 (by decide)

end Baelux.Buttons

import Baelux.Buttons.EventTrace

/-! How long a press was: ticks are unsigned when they are captured, and `button_update`
subtracts them as signed numbers. -/

namespace Baelux.Buttons

open ButtonsState

/-- The difference of two `long`, where it does not overflow. -/
def longSub (a b : BitVec 32) : Option (BitVec 32) :=
  if -2 ^ 31 ≤ a.toInt - b.toInt ∧ a.toInt - b.toInt < 2 ^ 31 then some (a - b) else none

def ReportsShort (s t : ButtonsState) (h : Nat) : Prop :=
  if s.mIsTimerUsed then
    t.delivered = s.delivered ++ [(h, .released)] ∧ t.timerArmed = true ∧
      t.mLastShortKeyhandle = some h
  else t.delivered = s.delivered ++ [(h, .short), (h, .released)]

def ReportsLong (s t : ButtonsState) (h : Nat) (elapsedMs : BitVec 32) : Prop :=
  t.delivered = s.delivered ++ [(h, .long elapsedMs), (h, .released)]

/-- The release at `now` measures `d`, without overflow, and reports the press accordingly. -/
structure Measures (s t : ButtonsState) (h : Nat) (now d : BitVec 32) : Prop where
  duration : ∃ elapsedMs, longSub now (s.button h).mInitialPressedTime = some elapsedMs ∧
    elapsedMs.toInt = (d.toNat : Int) ∧ (t.button h).mPressedElapsedMs = elapsedMs
  short : ReportsShort s t h ↔ (d.toNat : Int) < (s.button h).mShortPressTimeout.toInt
  long : ¬ (d.toNat : Int) < (s.button h).mShortPressTimeout.toInt →
    ∃ elapsedMs, elapsedMs.toInt = (d.toNat : Int) ∧ ReportsLong s t h elapsedMs

def StaysDown (h : Nat) : ButtonsState → List ButtonOp → Prop
  | s, [] => (s.button h).mStatePre = .pressed
  | s, op :: rest => (s.button h).mStatePre = .pressed ∧ StaysDown h (s.step op) rest

/-- The ticks of the two updates are as far apart as the captured ones, and as signed numbers
the second is not below the first and not 2³¹ or more above it. -/
structure InRange (first second d : BitVec 32) : Prop where
  apart : second - first = d
  ordered : first.toInt ≤ second.toInt
  near : second.toInt - first.toInt < 2 ^ 31

variable {s t : ButtonsState} {h : Nat} {now first d elapsedMs : BitVec 32} {ops : List ButtonOp}

/-! ## Signed differences -/

theorem longSub_toInt (within : longSub now first = some elapsedMs) :
    elapsedMs = now - first ∧ elapsedMs.toInt = now.toInt - first.toInt := by
  unfold longSub at within
  split at within
  · rename_i within_range
    obtain rfl := Option.some.inj within
    refine ⟨rfl, ?_⟩
    rw [BitVec.toInt_sub]
    exact Int.bmod_eq_of_le_mul_two (by omega) (by omega)
  · cases within

theorem eq_of_toInt_eq_toNat (same : elapsedMs.toInt = d.toNat) : elapsedMs = d := by
  apply BitVec.eq_of_toNat_eq
  rw [BitVec.toInt_eq_toNat_cond] at same
  have small := elapsedMs.isLt
  have small' := d.isLt
  split at same <;> omega

theorem inRange_iff : (∃ elapsedMs, longSub now first = some elapsedMs ∧
    elapsedMs.toInt = d.toNat) ↔ InRange first now d := by
  constructor
  · intro holds
    rcases holds with ⟨elapsedMs, within, same⟩
    rcases longSub_toInt within with ⟨rfl, difference⟩
    have small := BitVec.toInt_lt (x := now - first)
    refine ⟨eq_of_toInt_eq_toNat same, ?_, ?_⟩
    · omega
    · omega
  · intro range
    rcases range with ⟨rfl, ordered, near⟩
    have within : longSub now first = some (now - first) := by
      rw [longSub, if_pos]
      omega
    refine ⟨now - first, within, ?_⟩
    have signed := (longSub_toInt within).2
    rw [BitVec.toInt_eq_toNat_cond] at signed ⊢
    have small := (now - first).isLt
    split at signed <;> omega

/-! ## While the button is down -/

def Button.SamePress (before after : Button) : Prop :=
  after.mInitialPressedTime = before.mInitialPressedTime ∧
    after.mShortPressTimeout = before.mShortPressTimeout

theorem updatePressed_kept (g : Nat) (down : (s.button h).mStatePre = .pressed)
    (still : ((updatePressed s g now).button h).mStatePre = .pressed) :
    (s.button h).SamePress ((updatePressed s g now).button h) := by
  by_cases same : h = g
  · subst same
    have before : ¬ (s.button h).mStatePre = .released := by simp [down]
    simp only [updatePressed, if_neg before] at still ⊢
    split at still
    · simp [setButton, Button.reset] at still
    · rename_i patient
      simp only [patient, Bool.false_eq_true, ↓reduceIte, setButton, Function.update_self]
      exact ⟨rfl, rfl⟩
  · have frame : (updatePressed s g now).button h = s.button h := by
      simp only [updatePressed]
      split
      · exact Function.update_of_ne same _ _
      · split <;> exact Function.update_of_ne same _ _
    rw [frame]
    exact ⟨rfl, rfl⟩

theorem updateReleased_kept (g : Nat) (state : ButtonStatus) (up : state ≠ .pressed)
    (down : (s.button h).mStatePre = .pressed)
    (still : ((updateReleased s g now state).button h).mStatePre = .pressed) :
    (s.button h).SamePress ((updateReleased s g now state).button h) := by
  by_cases same : h = g
  · subst same
    simp only [updateReleased, down, ↓reduceIte] at still
    split at still
    · split at still <;> simp [setButton, invokeEvent, up] at still
    · simp [setButton, invokeEvent, up] at still
  · have frame : (updateReleased s g now state).button h = s.button h := by
      simp only [updateReleased]
      split
      · split
        · split <;> exact Function.update_of_ne same _ _
        · exact Function.update_of_ne same _ _
      · exact Function.update_of_ne same _ _
    rw [frame]
    exact ⟨rfl, rfl⟩

theorem elapse_kept (h : Nat) :
    (s.button h).SamePress ((buttonOnInvokeTimerElapsed s).button h) := by
  unfold buttonOnInvokeTimerElapsed
  simp only [invokeTimerStop]
  split
  · exact ⟨rfl, rfl⟩
  · rename_i g last
    by_cases same : h = g
    · subst same
      simp only [setButton, invokeEvent, Function.update_self]
      exact ⟨rfl, rfl⟩
    · simp only [setButton, invokeEvent, Function.update_of_ne same]
      exact ⟨rfl, rfl⟩

theorem step_kept (op : ButtonOp) (down : (s.button h).mStatePre = .pressed)
    (still : ((s.step op).button h).mStatePre = .pressed) :
    (s.button h).SamePress ((s.step op).button h) := by
  cases op with
  | elapse => exact elapse_kept h
  | update g timestamp status reading =>
    have stopped : (if s.mIsTimerUsed then s.invokeTimerStop else s).button = s.button := by
      split <;> rfl
    rw [← stopped] at down ⊢
    simp only [step, buttonUpdate] at still ⊢
    split at still
    · rename_i pressed
      rw [if_pos pressed]
      exact updatePressed_kept g down still
    · rename_i up
      rw [if_neg up]
      exact updateReleased_kept g _ up down still

theorem StaysDown.down (stays : StaysDown h s ops) : (s.button h).mStatePre = .pressed := by
  cases ops with
  | nil => exact stays
  | cons op rest => exact stays.1

/-- By induction on the operations of a press. -/
theorem StaysDown.kept (stays : StaysDown h s ops) :
    ((ops.foldl step s).button h).mStatePre = .pressed ∧
      (s.button h).SamePress ((ops.foldl step s).button h) := by
  induction ops generalizing s with
  | nil => exact ⟨stays, rfl, rfl⟩
  | cons op rest ih =>
    rcases ih stays.2 with ⟨down, initial, timeout⟩
    rcases step_kept op stays.1 stays.2.down with ⟨initial', timeout'⟩
    exact ⟨down, initial.trans initial', timeout.trans timeout'⟩

/-! ## The release -/

theorem not_both (short : ReportsShort s t h) (long : ReportsLong s t h elapsedMs) : False := by
  unfold ReportsShort at short
  unfold ReportsLong at long
  split at short
  · have same := List.append_cancel_left (short.1.symm.trans long)
    simp at same
  · have same := List.append_cancel_left (short.symm.trans long)
    simp at same

theorem release_reports (down : (s.button h).mStatePre = .pressed) (timestamp : BitVec 32)
    (reading : DriverReading)
    (measured : elapsedMs = curTimestamp timestamp reading - (s.button h).mInitialPressedTime)
    (after : t = buttonUpdate s h timestamp .released reading) :
    (t.button h).mPressedElapsedMs = elapsedMs ∧
      if elapsedMs.slt (s.button h).mShortPressTimeout then ReportsShort s t h
      else ReportsLong s t h elapsedMs := by
  have same : curState .released reading = .released := by simp [curState]
  cases used : s.mIsTimerUsed with
  | true =>
    simp only [buttonUpdate, same, reduceCtorEq, used, ↓reduceIte, updateReleased, invokeTimerStop,
      down, ← measured] at after
    split at after
    · rename_i short
      rw [if_pos short, ReportsShort, if_pos used, after]
      simp [setButton, invokeEvent, invokeTimerRestart]
    · rename_i long
      rw [if_neg long, ReportsLong, after]
      simp [setButton, invokeEvent]
  | false =>
    simp only [buttonUpdate, same, reduceCtorEq, used, Bool.false_eq_true, ↓reduceIte,
      updateReleased, down, ← measured] at after
    split at after
    · rename_i short
      have unused : ¬ s.mIsTimerUsed = true := by simp [used]
      rw [if_pos short, ReportsShort, if_neg unused, after]
      simp [setButton, invokeEvent]
    · rename_i long
      rw [if_neg long, ReportsLong, after]
      simp [setButton, invokeEvent]

/-- The release measures the captured duration exactly where the ticks used can be measured. -/
theorem release_measures_iff (down : (s.button h).mStatePre = .pressed) (timestamp : BitVec 32)
    (reading : DriverReading) (d : BitVec 32) :
    Measures s (buttonUpdate s h timestamp .released reading) h (curTimestamp timestamp reading) d ↔
      InRange (s.button h).mInitialPressedTime (curTimestamp timestamp reading) d := by
  constructor
  · intro measures
    rcases measures.duration with ⟨elapsedMs, within, same, _⟩
    exact inRange_iff.mp ⟨elapsedMs, within, same⟩
  · intro range
    rcases inRange_iff.mpr range with ⟨elapsedMs, within, same⟩
    rcases release_reports down timestamp reading (longSub_toInt within).1 rfl with ⟨stored, report⟩
    simp only [BitVec.slt_iff_toInt_lt, same] at report
    refine ⟨⟨elapsedMs, within, same, stored⟩, ?_, ?_⟩
    · constructor
      · intro short
        by_contra long
        rw [if_neg long] at report
        exact not_both short report
      · intro short
        rwa [if_pos short] at report
    · intro long
      rw [if_neg long] at report
      exact ⟨elapsedMs, same, report⟩

theorem press_starts (up : (s.button h).mStatePre = .released) (timestamp : BitVec 32)
    (reading : DriverReading) :
    ((buttonUpdate s h timestamp .pressed reading).button h).mInitialPressedTime =
      curTimestamp timestamp reading := by
  have pressed : curState .pressed reading = .pressed := by simp [curState]
  have stopped : (if s.mIsTimerUsed then s.invokeTimerStop else s).button = s.button := by
    split <;> rfl
  rw [← stopped] at up
  simp only [buttonUpdate, pressed, ↓reduceIte, updatePressed, up, setButton, invokeEvent,
    Function.update_self]

/-- For any two captured ticks, with a press in any state, other reports while the button stays
down, and any answers of the driver: the duration is measured and reported right if and only if
the ticks used can be measured. -/
theorem press_duration_iff (s : ButtonsState) (h : Nat) (t₁ t₂ : BitVec 32)
    (reading₁ reading₂ : DriverReading) (between : List ButtonOp)
    (up : (s.button h).mStatePre = .released)
    (stays : StaysDown h (buttonUpdate s h t₁ .pressed reading₁) between) :
    let u := between.foldl step (buttonUpdate s h t₁ .pressed reading₁)
    Measures u (buttonUpdate u h t₂ .released reading₂) h (curTimestamp t₂ reading₂) (t₂ - t₁) ↔
      InRange (curTimestamp t₁ reading₁) (curTimestamp t₂ reading₂) (t₂ - t₁) := by
  intro u
  rcases stays.kept with ⟨down, initial, _⟩
  rw [release_measures_iff down, initial, press_starts up]

theorem short_press_measured : (initialised.button 0).mStatePre = .released ∧
    let u := buttonUpdate initialised 0 100 .pressed ⟨0, false⟩
    Measures u (buttonUpdate u 0 300 .released ⟨0, false⟩) 0 300 (300 - 100) :=
  ⟨rfl, (press_duration_iff initialised 0 100 300 ⟨0, false⟩ ⟨0, false⟩ [] rfl rfl).mpr
    ⟨rfl, by decide, by decide⟩⟩

/-- A press of 512 ms over the half of the tick overflows. -/
theorem half_range_overflows :
    let u := buttonUpdate initialised 0 0x7FFFFF00 .pressed ⟨0, false⟩
    longSub 0x80000100 (u.button 0).mInitialPressedTime = none ∧
    ¬ Measures u (buttonUpdate u 0 0x80000100 .released ⟨0, false⟩) 0 0x80000100 512 := by
  have overflow : longSub 0x80000100 0x7FFFFF00 = none := by decide
  refine ⟨overflow, fun measures => ?_⟩
  rcases measures.duration with ⟨elapsedMs, within, _⟩
  cases overflow.symm.trans within

end Baelux.Buttons

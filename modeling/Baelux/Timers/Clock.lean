import Baelux.Timers.Counting
import Mathlib.Tactic.Ring

/-! The timer server on a clock: what `RTC->SSR` shows at a time, and when the wakeup timer, set up
at a time with a value, can expire. -/

namespace Baelux.Timers

open TimerServer

variable {Cb : Type}

namespace TimerServer

variable (s : TimerServer Cb)

/-- `RTC->SSR` counts down, one in each tick of the clock, and wraps. -/
def ssrAt (time : Nat) : BitVec 16 :=
  BitVec.ofNat 16
    (s.synchPrescalerUserConfig.toNat - 1 - time % s.synchPrescalerUserConfig.toNat)

def rate : Nat := s.asynchPrescalerUserConfig.toNat / 2 ^ s.wakeupTimerDivider.toNat

def elapsedIn (ticks : Nat) : Nat :=
  ticks % s.synchPrescalerUserConfig.toNat * s.rate % 2 ^ 16

/-- A tick of the clock is a whole number of ticks of the wakeup timer. -/
structure WholeRate : Prop where
  synch_pos : 0 < s.synchPrescalerUserConfig.toNat
  synch_le : s.synchPrescalerUserConfig.toNat ≤ 2 ^ 15
  asynch_le : s.asynchPrescalerUserConfig.toNat ≤ 2 ^ 7
  asynch_eq : s.asynchPrescalerUserConfig.toNat = s.rate * 2 ^ s.wakeupTimerDivider.toNat

end TimerServer

section Elapsed

variable {s : TimerServer Cb}

theorem elapsedIn_add_le (whole : s.WholeRate) (ticks more : Nat) :
    s.elapsedIn (ticks + more) ≤ s.elapsedIn ticks + more * s.rate := by
  have pos := whole.synch_pos
  unfold elapsedIn
  rw [← Nat.mod_add_mod]
  generalize s.synchPrescalerUserConfig.toNat = m at pos
  have below : ticks % m < m := Nat.mod_lt _ pos
  generalize ticks % m = ticks at below
  by_cases wraps : ticks + more < m
  · rw [Nat.mod_eq_of_lt wraps, Nat.add_mul, ← Nat.mod_add_mod]
    exact Nat.mod_le _ _
  · have fewer : (ticks + more) % m ≤ more := by
      have once := Nat.mod_eq_sub_mod (Nat.not_lt.mp wraps)
      have rest := Nat.mod_le (ticks + more - m) m
      omega
    calc
      (ticks + more) % m * s.rate % 2 ^ 16 ≤ (ticks + more) % m * s.rate := Nat.mod_le _ _
      _ ≤ more * s.rate := Nat.mul_le_mul_right _ fewer
      _ ≤ _ := Nat.le_add_left _ _

theorem elapsedIn_le (whole : s.WholeRate) (ticks : Nat) : s.elapsedIn ticks ≤ ticks * s.rate := by
  have bound := elapsedIn_add_le whole 0 ticks
  rw [Nat.zero_add] at bound
  refine bound.trans ?_
  simp [elapsedIn]

theorem ssrAt_toNat (whole : s.WholeRate) (time : Nat) :
    ((s.ssrAt time).setWidth 32).toNat =
      s.synchPrescalerUserConfig.toNat - 1 - time % s.synchPrescalerUserConfig.toNat := by
  have few := whole.synch_le
  rw [BitVec.toNat_setWidth_of_le (by decide), ssrAt, BitVec.toNat_ofNat]
  omega

theorem ssr_difference {m setup time : Nat} (pos : 0 < m) (later : setup ≤ time) :
    (if m - 1 - time % m ≤ m - 1 - setup % m then m - 1 - setup % m - (m - 1 - time % m)
      else m - 1 - setup % m + (m - (m - 1 - time % m))) = (time - setup) % m := by
  obtain ⟨ticks, rfl⟩ := Nat.exists_eq_add_of_le later
  have sum : (setup + ticks) % m = (setup % m + ticks % m) % m := Nat.add_mod _ _ _
  rw [sum, Nat.add_sub_cancel_left]
  have first : setup % m < m := Nat.mod_lt _ pos
  have second : ticks % m < m := Nat.mod_lt _ pos
  generalize setup % m = a at first
  generalize ticks % m = e at second
  by_cases wraps : a + e < m
  · rw [Nat.mod_eq_of_lt wraps]
    split <;> omega
  · rw [Nat.mod_eq_sub_mod (Nat.not_lt.mp wraps), Nat.mod_eq_of_lt (by omega)]
    split <;> omega

/-- What `ReturnTimeElapsed` returns, between two readings of the clock. -/
theorem returnTimeElapsed_toNat (whole : s.WholeRate) {setup time : Nat} (later : setup ≤ time)
    (reference : s.ssrValueOnLastSetup = (s.ssrAt setup).setWidth 32) :
    (s.returnTimeElapsed (s.ssrAt time)).toNat = s.elapsedIn (time - setup) := by
  have pos := whole.synch_pos
  have few := whole.synch_le
  have first := ssrAt_toNat whole setup
  have second := ssrAt_toNat whole time
  have known : s.ssrValueOnLastSetup ≠ ssrForbiddenValue := by
    rw [reference]
    intro same
    have wrong := congrArg BitVec.toNat same
    rw [first, show ssrForbiddenValue.toNat = 4294967295 from rfl] at wrong
    omega
  have synch : (s.synchPrescalerUserConfig.setWidth 32).toNat =
      s.synchPrescalerUserConfig.toNat := BitVec.toNat_setWidth_of_le (by decide)
  have ticks := ssr_difference pos later
  have inside : (time - setup) % s.synchPrescalerUserConfig.toNat <
      s.synchPrescalerUserConfig.toNat := Nat.mod_lt _ pos
  have value : (if (s.ssrAt time).setWidth 32 ≤ s.ssrValueOnLastSetup then
      s.ssrValueOnLastSetup - (s.ssrAt time).setWidth 32
      else s.ssrValueOnLastSetup + (s.synchPrescalerUserConfig.setWidth 32 -
        (s.ssrAt time).setWidth 32)).toNat = (time - setup) % s.synchPrescalerUserConfig.toNat := by
    rw [reference, ← ticks]
    split
    · rename_i before
      have before' := BitVec.le_def.mp before
      rw [first, second] at before'
      rw [if_pos before', BitVec.toNat_sub_of_le before, first, second]
    · rename_i after
      have after' := mt BitVec.le_def.mpr after
      rw [first, second] at after'
      rw [if_neg after', BitVec.toNat_add, BitVec.toNat_sub_of_le
        (BitVec.le_def.mpr (by rw [second, synch]; omega)), first, second, synch]
      omega
  unfold returnTimeElapsed
  rw [if_pos known]
  dsimp only
  rw [BitVec.toNat_setWidth, BitVec.toNat_ushiftRight, BitVec.toNat_mul, value,
    BitVec.toNat_setWidth_of_le (by decide), Nat.shiftRight_eq_div_pow]
  have small : (time - setup) % s.synchPrescalerUserConfig.toNat *
      s.asynchPrescalerUserConfig.toNat < 2 ^ 32 :=
    calc
      _ ≤ 2 ^ 15 * 2 ^ 7 := Nat.mul_le_mul (by omega) whole.asynch_le
      _ < 2 ^ 32 := by decide
  rw [Nat.mod_eq_of_lt small, whole.asynch_eq, ← Nat.mul_assoc,
    Nat.mul_div_cancel _ (Nat.two_pow_pos _)]
  rfl

end Elapsed

/-! ## The timer server on the clock -/

structure Times where
  linking : Nat
  rescheduling : Nat
  restarting : Nat

structure Clocked (Cb : Type) where
  server : TimerServer Cb
  now : Nat
  /-- When the wakeup counter was last restarted, and with which value. -/
  setup : Nat
  value : BitVec 16
  /-- When each timer began to count: where there is no other, when it was set up. -/
  started : TimerID → Nat
  /-- The ticks between the two readings of a setup, over all setups, and what they were when
  each timer began to count. -/
  lost : Nat
  lostBefore : TimerID → Nat

namespace Clocked

variable (m : Clocked Cb)

def readings (times : Times) : SsrReadings :=
  ⟨m.server.ssrAt times.linking, m.server.ssrAt times.rescheduling,
    m.server.ssrAt times.restarting⟩

def rescheduleTimerList (times : Times) (ssr : SsrReadings) : Option (Clocked Cb) :=
  match m.server.currentRunningTimerID with
  | none => none
  | some current =>
      (m.server.rescheduleTimerList ssr).map fun server => { m with
        server := server
        setup := times.restarting
        lost := m.lost + (times.restarting - times.rescheduling)
        value := (m.server.wakeupValue (m.server.countLeft current)
          (m.server.returnTimeElapsed ssr.rescheduling)).1 }

def hwTsStop (timerID : TimerID) (times : Times) (ssr : SsrReadings) : Option (Clocked Cb) :=
  if m.server.status timerID = .running then
    let server := m.server.unlinkTimer timerID true
    match server.currentRunningTimerID with
    | none => some { m with
        server := { server with wakeupTimerEnabled := false, pendingIrq := false } }
    | some _ =>
        if server.previousRunningTimerID ≠ server.currentRunningTimerID then
          rescheduleTimerList { m with server := server } times ssr
        else some { m with server := server }
  else some m

def stopRunning (timerID : TimerID) (times : Times) (ssr : SsrReadings) : Option (Clocked Cb) :=
  if m.server.status timerID = .running then m.hwTsStop timerID times ssr else some m

def startTimer (timerID : TimerID) (timeoutTicks : BitVec 32) (times : Times)
    (ssr : SsrReadings) : Option (Clocked Cb) := do
  let server := m.server.modify timerID fun c => { c with
    timerIDStatus := .running
    countLeft := timeoutTicks
    counterInit := timeoutTicks }
  let begins :=
    if server.currentRunningTimerID = none then times.rescheduling else times.linking
  let (server, timeElapsed) ← server.linkTimer timerID ssr
  let m := { m with
    server := server
    started := Function.update m.started timerID begins
    lostBefore := Function.update m.lostBefore timerID m.lost }
  if server.previousRunningTimerID ≠ server.currentRunningTimerID then
    m.rescheduleTimerList times ssr
  else
    some { m with server := server.modify timerID fun c => { c with
      countLeft := c.countLeft - timeElapsed.setWidth 32 } }

def taken : Clocked Cb :=
  { m with server := { m.server with wakeupTimerEnabled := false, pendingIrq := false } }

/-- The times of a handler are those of the functions that it calls. -/
def hwTsRtcWakeupHandler (times : Times) (ssr : SsrReadings) :
    Option (Clocked Cb × Option (Notification Cb)) :=
  let m := m.taken
  match m.server.currentRunningTimerID with
  | none => none
  | some current =>
      let context := m.server.aTimerContext current
      let notification : Notification Cb :=
        ⟨context.timerProcessID, current, context.pTimerCallBack⟩
      if context.timerIDStatus = .running then
        if m.server.wakeupTimerLimitation ≠ .overpassed then
          if context.timerMode = .repeated then do
            let m := { m with server := m.server.unlinkTimer current false }
            let m ← m.stopRunning current times ssr
            let m ← m.startTimer current (m.server.aTimerContext current).counterInit times ssr
            some (m, some notification)
          else do
            let m ← m.hwTsStop current times ssr
            some (m, some notification)
        else do
          let m ← m.rescheduleTimerList times ssr
          some (m, none)
      else some (m, none)

/-! Without the clock, the functions are those of the timer server. -/

theorem server_rescheduleTimerList (times : Times) (ssr : SsrReadings) :
    (m.rescheduleTimerList times ssr).map server = m.server.rescheduleTimerList ssr := by
  unfold rescheduleTimerList
  split
  · rename_i empty
    rw [TimerServer.rescheduleTimerList]
    dsimp only
    split
    · rfl
    · rename_i first
      cases empty.symm.trans first
  · rw [Option.map_map]
    exact Option.map_id' ..

theorem server_hwTsStop (timerID : TimerID) (times : Times) (ssr : SsrReadings) :
    (m.hwTsStop timerID times ssr).map server = m.server.hwTsStop timerID ssr := by
  unfold hwTsStop TimerServer.hwTsStop
  dsimp only
  split
  · cases (m.server.unlinkTimer timerID true).currentRunningTimerID with
    | none => rfl
    | some current =>
        dsimp only
        split
        · exact server_rescheduleTimerList _ times ssr
        · rfl
  · rfl

theorem server_stopRunning (timerID : TimerID) (times : Times) (ssr : SsrReadings) :
    (m.stopRunning timerID times ssr).map server = m.server.stopRunning timerID ssr := by
  unfold stopRunning TimerServer.stopRunning
  split
  · exact server_hwTsStop m timerID times ssr
  · rfl

theorem server_startTimer (timerID : TimerID) (timeoutTicks : BitVec 32) (times : Times)
    (ssr : SsrReadings) : (m.startTimer timerID timeoutTicks times ssr).map server =
      m.server.startTimer timerID timeoutTicks ssr := by
  unfold startTimer TimerServer.startTimer
  dsimp only [Option.bind_eq_bind]
  rw [Option.map_bind]
  apply congrArg
  funext linked
  dsimp only [Function.comp]
  split
  · exact server_rescheduleTimerList _ times ssr
  · rfl

/-- A step on the clock, and what the step without the clock makes of its result. -/
private theorem server_bind {α β : Type} {x : Option (Clocked Cb)} {y : Option (TimerServer Cb)}
    {f : Clocked Cb → Option α} {g : TimerServer Cb → Option β} {erase : α → β}
    (first : x.map server = y) (rest : ∀ m, (f m).map erase = g m.server) :
    (x.bind f).map erase = y.bind g := by
  subst first
  cases x with
  | none => rfl
  | some m => exact rest m

theorem server_hwTsRtcWakeupHandler (times : Times) (ssr : SsrReadings) :
    (m.hwTsRtcWakeupHandler times ssr).map (fun r => (r.1.server, r.2)) =
      m.server.hwTsRtcWakeupHandler ssr := by
  unfold hwTsRtcWakeupHandler TimerServer.hwTsRtcWakeupHandler
  dsimp only [Option.bind_eq_bind, taken]
  cases m.server.currentRunningTimerID with
  | none => rfl
  | some current =>
      dsimp only
      split
      · split
        · split
          · apply server_bind (server_stopRunning _ current times ssr)
            intro stopped
            apply server_bind (server_startTimer stopped current _ times ssr)
            exact fun _ => rfl
          · apply server_bind (server_hwTsStop _ current times ssr)
            exact fun _ => rfl
        · apply server_bind (server_rescheduleTimerList _ times ssr)
          exact fun _ => rfl
      · rfl

end Clocked

end Baelux.Timers

import Baelux.Timers.Deadlines
import Baelux.Timers.SleepTimer

/-! The sleep timer on the clock: whether the delay that the last call of
`APP_ZIGBEE_sleep_timer_enter` asked for has expired when `sleep_entry_timer_handler` is called. -/

namespace Baelux.Timers

open TimerServer

instance (times : Times) (time : Nat) : Decidable (times.After time) :=
  decidable_of_iff (time ≤ times.linking ∧ times.linking ≤ times.rescheduling ∧
    times.rescheduling ≤ times.restarting)
    ⟨fun after => ⟨after.1, after.2.1, after.2.2⟩,
      fun after => ⟨after.linking, after.rescheduling, after.restarting⟩⟩

/-- An event of the remote, with the times at which it reads the counter. -/
inductive TimedEvent where
  | call (call : Call)
  | proceed (times : Times)
  | wakeup (entry : Nat) (times : Times)
  | resume

namespace TimedEvent

def shown (m : Clocked Handler) : TimedEvent → Event
  | call request => .call request
  | proceed times => .proceed (m.readings times)
  | wakeup _ times => .wakeup (m.readings times)
  | resume => .resume

def entry : TimedEvent → Option Nat
  | wakeup entry _ => some entry
  | _ => none

end TimedEvent

namespace Section

def op (ids : Handler → TimerID) (times : Times) : Section → Op Handler
  | create handler => .create handler.timerProcessID handler.timerMode handler
  | stop handler => .stop (ids handler) times
  | enter _ => .stop (ids .sleepEntryTimerHandler) times
  | start handler _ _ => .stop (ids handler) times
  | launch timerID timeoutTicks _ => .start timerID timeoutTicks times

def Fits : Section → Prop
  | enter elapseSecond => hwTs1S.toNat * elapseSecond.toNat + 2 ^ 16 ≤ 2 ^ 32
  | start _ timeoutTicks _ => timeoutTicks.toNat + 2 ^ 16 ≤ 2 ^ 32
  | launch _ timeoutTicks _ => timeoutTicks.toNat + 2 ^ 16 ≤ 2 ^ 32
  | _ => True

instance decidableFits : (s : Section) → Decidable s.Fits
  | create _ => inferInstanceAs (Decidable True)
  | stop _ => inferInstanceAs (Decidable True)
  | enter elapseSecond =>
      inferInstanceAs (Decidable (hwTs1S.toNat * elapseSecond.toNat + 2 ^ 16 ≤ 2 ^ 32))
  | start _ timeoutTicks _ => inferInstanceAs (Decidable (timeoutTicks.toNat + 2 ^ 16 ≤ 2 ^ 32))
  | launch _ timeoutTicks _ => inferInstanceAs (Decidable (timeoutTicks.toNat + 2 ^ 16 ≤ 2 ^ 32))

end Section

def Event.Fits : Event → Prop
  | call request => ∀ s ∈ request.sections, s.Fits
  | _ => True

instance decidableEventFits : (event : Event) → Decidable event.Fits
  | .call request => inferInstanceAs (Decidable (∀ s ∈ request.sections, s.Fits))
  | .proceed _ => inferInstanceAs (Decidable True)
  | .wakeup _ => inferInstanceAs (Decidable True)
  | .resume => inferInstanceAs (Decidable True)

def Remote.asks (remote : Remote) : Event → Option (BitVec 32)
  | .proceed _ =>
      match remote.agenda with
      | .enter elapseSecond :: _ => some elapseSecond
      | _ => none
  | _ => none

/-- The remote beside its timer server on the clock. -/
structure Timed where
  remote : Remote
  clock : Clocked Handler
  /-- What the last call of `APP_ZIGBEE_sleep_timer_enter` asked for, and when it had stopped the
  timer. -/
  elapseSecond : BitVec 32
  since : Nat

namespace Timed

def op (t : Timed) : TimedEvent → Option (Op Handler)
  | .proceed times => t.remote.agenda.head?.map fun s => s.op t.remote.ids times
  | .wakeup entry times => if t.remote.interruptible then some (.wakeup entry times) else none
  | .call _ => none
  | .resume => none

def follow (t : Timed) (event : TimedEvent) :
    Option (Clocked Handler × Option (Notification Handler)) :=
  match t.op event with
  | some op => t.clock.step op
  | none => some (t.clock, none)

def step (t : Timed) (event : TimedEvent) : Option (Timed × Option (Notification Handler)) := do
  let reached ← t.remote.step (event.shown t.clock)
  let followed ← t.follow event
  match t.remote.asks (event.shown t.clock) with
  | some elapseSecond => some (⟨reached.1, followed.1, elapseSecond, followed.1.now⟩, reached.2)
  | none => some (⟨reached.1, followed.1, t.elapseSecond, t.since⟩, reached.2)

def shown (t : Timed) (events : List TimedEvent) : List Event :=
  events.map fun event => event.shown t.clock

def start (rtc : RtcConfig) (time : Nat) : Timed :=
  ⟨Remote.start rtc, { (Clocked.start rtc time : Clocked Handler) with
    server := (Remote.start rtc).server }, 0, time⟩

/-- The times of a section are in order, and the wakeup timer expires at most `early` of its ticks
before the value that it was given. -/
def Measured (early : Nat) (t : Timed) : Op Handler → Prop
  | .create .. => True
  | .stop _ times => times.After t.clock.now
  | .start _ _ times => times.After t.clock.now
  | .wakeup entry times =>
      t.clock.value.toNat ≤ (entry - t.clock.setup) * t.clock.server.rate + early ∧
        t.clock.now ≤ entry ∧ times.After entry

instance decidableMeasured (early : Nat) (t : Timed) : (op : Op Handler) →
    Decidable (t.Measured early op)
  | .create .. => inferInstanceAs (Decidable True)
  | .stop _ times => inferInstanceAs (Decidable (times.After t.clock.now))
  | .start _ _ times => inferInstanceAs (Decidable (times.After t.clock.now))
  | .wakeup entry times => inferInstanceAs (Decidable (
      t.clock.value.toNat ≤ (entry - t.clock.setup) * t.clock.server.rate + early ∧
        t.clock.now ≤ entry ∧ times.After entry))

def AllMeasured (early : Nat) : Timed → List TimedEvent → Prop
  | _, [] => True
  | t, event :: events => (∀ op ∈ t.op event, t.Measured early op) ∧
      ∀ reached ∈ t.step event, AllMeasured early reached.1 events

/-- The delay has expired, but for what the wakeup timer expires early. -/
def Expired (early : Nat) (t : Timed) (entry : Nat) : Prop :=
  hwTs1S.toNat * t.elapseSecond.toNat ≤ (entry - t.since) * t.clock.server.rate + early

instance (early : Nat) (t : Timed) (entry : Nat) : Decidable (t.Expired early entry) :=
  inferInstanceAs (Decidable (_ ≤ _))

/-- Whenever `sleep_entry_timer_handler` is called, the delay has expired that the last call of
`APP_ZIGBEE_sleep_timer_enter` asked for. -/
def FiresDue (early : Nat) : Timed → List TimedEvent → Prop
  | _, [] => True
  | t, event :: events => ∀ reached ∈ t.step event,
      (∀ entry ∈ event.entry, ∀ notification ∈ reached.2,
        notification.pTimerCallBack = some .sleepEntryTimerHandler → t.Expired early entry) ∧
      FiresDue early reached.1 events

instance decidableAllMeasured (early : Nat) : (t : Timed) → (events : List TimedEvent) →
    Decidable (AllMeasured early t events)
  | _, [] => inferInstanceAs (Decidable True)
  | t, event :: events =>
      have := fun reached : Timed × Option (Notification Handler) =>
        decidableAllMeasured early reached.1 events
      inferInstanceAs (Decidable ((∀ op ∈ t.op event, t.Measured early op) ∧
        ∀ reached ∈ t.step event, AllMeasured early reached.1 events))

instance decidableFiresDue (early : Nat) : (t : Timed) → (events : List TimedEvent) →
    Decidable (FiresDue early t events)
  | _, [] => inferInstanceAs (Decidable True)
  | t, event :: events =>
      have := fun reached : Timed × Option (Notification Handler) =>
        decidableFiresDue early reached.1 events
      inferInstanceAs (Decidable (∀ reached ∈ t.step event,
        (∀ entry ∈ event.entry, ∀ notification ∈ reached.2,
          notification.pTimerCallBack = some .sleepEntryTimerHandler → t.Expired early entry) ∧
        FiresDue early reached.1 events))

/-! ## Without the clock -/

variable {t : Timed} {event : TimedEvent} {early : Nat}

theorem notify_server (remote : Remote) (notification : Option (Notification Handler)) :
    (remote.notify notification).server = remote.server := by
  unfold Remote.notify
  split <;> rfl

/-- A section of the timer server on the clock, and of the remote. -/
private theorem section_erased {x : Option (Clocked Handler)} {y : Option (TimerServer Handler)}
    {f : Clocked Handler → Clocked Handler} {g : TimerServer Handler → Remote}
    (same : x.map Clocked.server = y) (clock : ∀ m, (f m).server = m.server)
    (server : ∀ u, (g u).server = u) :
    ((x.map fun m => (f m, (none : Option (Notification Handler)))).map
        fun r => (r.1.server, r.2)) =
      (((y.map g).map fun next => (next, (none : Option (Notification Handler)))).map
        fun r => (r.1.server, r.2)) := by
  subst same
  cases x with
  | none => rfl
  | some m => exact congrArg some (Prod.ext ((clock m).trans (server m.server).symm) rfl)

theorem follow_erased (same : t.clock.server = t.remote.server) :
    (t.follow event).map (fun r => (r.1.server, r.2)) =
      (t.remote.step (event.shown t.clock)).map fun r => (r.1.server, r.2) := by
  have idle : (some (t.clock, none)).map
      (fun r : Clocked Handler × Option (Notification Handler) => (r.1.server, r.2)) =
        some (t.remote.server, none) := by
    rw [← same]
    rfl
  cases event with
  | call call =>
      unfold TimedEvent.shown Remote.step
      dsimp only
      split
      · exact idle
      · exact idle
  | resume =>
      unfold TimedEvent.shown Remote.step
      dsimp only
      split
      · exact idle
      · exact idle
  | proceed times =>
      unfold TimedEvent.shown Remote.step Remote.proceed follow op
      dsimp only
      cases t.remote.agenda with
      | nil => exact idle
      | cons first rest =>
          cases first with
          | create handler =>
              unfold Remote.create
              rw [← same]
              rfl
          | stop handler =>
              rw [← same]
              exact section_erased (Clocked.server_hwTsStop ..) (fun _ => rfl) fun _ => rfl
          | enter elapseSecond =>
              rw [← same]
              exact section_erased (Clocked.server_hwTsStop ..) (fun _ => rfl) fun _ => rfl
          | start handler timeoutTicks call =>
              rw [← same]
              have stops := (Clocked.server_hwTsStop t.clock (t.remote.ids handler) times
                (t.clock.readings times)).trans (stopRunning_eq ..).symm
              exact section_erased stops (fun _ => rfl) fun _ => rfl
          | launch timerID timeoutTicks call =>
              rw [← same]
              exact section_erased (Clocked.server_startTimer ..) (fun _ => rfl) fun _ => rfl
  | wakeup entry times =>
      unfold TimedEvent.shown Remote.step follow op
      dsimp only
      by_cases comes : t.remote.interruptible = true
      · have erased := Clocked.server_hwTsRtcWakeupHandler t.clock times (t.clock.readings times)
        rw [same] at erased
        rw [if_pos comes, if_pos comes, ← erased]
        unfold Clocked.step
        dsimp only
        cases t.clock.hwTsRtcWakeupHandler times (t.clock.readings times) with
        | none => rfl
        | some r =>
            have kept := notify_server { t.remote with server := r.1.server } r.2
            exact congrArg some (Prod.ext kept.symm rfl)
      · rw [if_neg comes, if_neg comes]
        exact idle

end Timed

/-! ## What the sleep timer counts -/

namespace Remote

variable {remote next : Remote} {event : Event} {i : TimerID}

inductive Counts (remote next : Remote) (event : Event) (i : TimerID) : Prop where
  | before (running : remote.server.status i = .running)
      (owner : remote.server.callback i = some .sleepEntryTimerHandler)
      (counterInit : next.server.counterInit i = remote.server.counterInit i)
  | launched (timeoutTicks : BitVec 32) (call : Option Nat) (rest : List Section)
      (running : remote.agenda = .launch i timeoutTicks call :: rest)
      (created : remote.server.status i = .created)
      (owner : remote.server.callback i = some .sleepEntryTimerHandler)
      (counterInit : next.server.counterInit i = timeoutTicks)

theorem Counts.settled (settled : Settled remote.server next.server)
    (counterInit : next.server.counterInit = remote.server.counterInit)
    (running : next.server.status i = .running)
    (owner : next.server.callback i = some .sleepEntryTimerHandler) :
    Counts remote next event i :=
  .before (settled.running running) (settled.callback ▸ owner) (congrFun counterInit i)

theorem proceed_counts {ssr : SsrReadings} (inv : Inv remote)
    (proceeds : remote.proceed ssr = some next) (running : next.server.status i = .running)
    (owner : next.server.callback i = some .sleepEntryTimerHandler) :
    remote.asks (.proceed ssr) = none ∧ Counts remote next (.proceed ssr) i := by
  cases agenda : remote.agenda with
  | nil =>
      rw [proceed, agenda] at proceeds
      obtain rfl := Option.some.inj proceeds
      exact ⟨by rw [asks, agenda], .before running owner rfl⟩
  | cons first rest =>
      cases first with
      | create handler =>
          rcases create_takes ssr inv agenda with ⟨made, loop, makes, created, _⟩
          obtain rfl := Option.some.inj (makes.symm.trans proceeds)
          have other : i ≠ loop := by
            rintro rfl
            rw [created.status, Function.update_self] at running
            cases running
          rw [created.status, Function.update_of_ne other] at running
          rw [created.callback, Function.update_of_ne other] at owner
          refine ⟨by rw [asks, agenda], .before running owner ?_⟩
          rw [proceed, agenda] at makes
          obtain rfl := Option.some.inj makes
          exact congrFun (Clocked.hwTsCreate_counts remote.server handler.timerProcessID
            handler.timerMode handler).1.counterInit i
      | stop handler =>
          rw [proceed, agenda] at proceeds
          rcases Option.map_eq_some_iff.mp proceeds with ⟨server, stops, rfl⟩
          have settled := (settled_of_stop inv.orderly stops).1
          exact ⟨by rw [asks, agenda], .settled settled (hwTsStop_counterInit stops) running owner⟩
      | enter elapseSecond =>
          rw [proceed, agenda] at proceeds
          rcases Option.map_eq_some_iff.mp proceeds with ⟨server, stops, rfl⟩
          rcases settled_of_stop inv.orderly stops with ⟨settled, stopped⟩
          have owner' := owner
          rw [settled.callback] at owner'
          rw [inv.named i owner'] at running
          exact absurd running stopped
      | start handler timeoutTicks call =>
          rw [proceed, agenda] at proceeds
          rcases Option.map_eq_some_iff.mp proceeds with ⟨server, stops, rfl⟩
          rw [stopRunning_eq] at stops
          have settled := (settled_of_stop inv.orderly stops).1
          exact ⟨by rw [asks, agenda], .settled settled (hwTsStop_counterInit stops) running owner⟩
      | launch timerID timeoutTicks call =>
          rcases inv.running agenda with ⟨_, ⟨created, _⟩, _⟩
          rcases inv.orderly.listed with ⟨l, listed⟩
          have stopped : remote.server.status timerID ≠ .running := by
            rw [created]
            decide
          rw [proceed, agenda] at proceeds
          rcases Option.map_eq_some_iff.mp proceeds with ⟨server, starts, rfl⟩
          rcases startTimer_spec timeoutTicks ssr listed stopped with
            ⟨_, starts', _, callback, status⟩
          obtain rfl := Option.some.inj (starts'.symm.trans starts)
          have counts := congrFun (startTimer_counterInit starts) i
          rw [callback] at owner
          refine ⟨by rw [asks, agenda], ?_⟩
          by_cases same : i = timerID
          · subst same
            rw [Function.update_self] at counts
            exact .launched timeoutTicks call rest agenda created owner counts
          · rw [status, Function.update_of_ne same] at running
            rw [Function.update_of_ne same] at counts
            exact .before running owner counts

theorem step_counts {reached : Remote × Option (Notification Handler)} (inv : Inv remote)
    (steps : remote.step event = some reached) (running : reached.1.server.status i = .running)
    (owner : reached.1.server.callback i = some .sleepEntryTimerHandler) :
    remote.asks event = none ∧ Counts remote reached.1 event i := by
  cases event with
  | call call =>
      unfold step at steps
      dsimp only at steps
      split at steps
      · obtain rfl := Option.some.inj steps
        exact ⟨rfl, .before running owner rfl⟩
      · obtain rfl := Option.some.inj steps
        exact ⟨rfl, .before running owner rfl⟩
  | resume =>
      unfold step at steps
      dsimp only at steps
      split at steps
      · obtain rfl := Option.some.inj steps
        exact ⟨rfl, .before running owner rfl⟩
      · obtain rfl := Option.some.inj steps
        exact ⟨rfl, .before running owner rfl⟩
  | proceed ssr =>
      rcases Option.map_eq_some_iff.mp steps with ⟨next, proceeds, rfl⟩
      exact proceed_counts inv proceeds running owner
  | wakeup ssr =>
      unfold step at steps
      dsimp only at steps
      split at steps
      · rename_i comes
        rcases Option.map_eq_some_iff.mp steps with ⟨⟨server, notification⟩, handles, rfl⟩
        have irq := comes
        simp only [interruptible, Bool.and_eq_true, Bool.or_eq_true] at irq
        rcases hwTsRtcWakeupHandler_spec ssr inv.orderly irq.2 with
          ⟨_, _, handles', _, callback, status, _⟩
        obtain ⟨rfl, _⟩ := Prod.mk.inj (Option.some.inj (handles.symm.trans handles'))
        have kept := Timed.notify_server { remote with server := server } notification
        rw [kept] at running owner
        refine ⟨rfl, .before ?_ ?_ ?_⟩
        · exact Settled.running ⟨callback, status⟩ running
        · exact callback ▸ owner
        · dsimp only
          rw [kept]
          exact congrFun (hwTsRtcWakeupHandler_counterInit handles) i
      · obtain rfl := Option.some.inj steps
        exact ⟨rfl, .before running owner rfl⟩

def Agreed (remote : Remote) (elapseSecond : BitVec 32) : Section → Prop
  | .start handler timeoutTicks _ =>
      handler = .sleepEntryTimerHandler → timeoutTicks = hwTs1S * elapseSecond
  | .launch timerID timeoutTicks _ =>
      remote.server.callback timerID = some .sleepEntryTimerHandler →
        timeoutTicks = hwTs1S * elapseSecond
  | _ => True

theorem agreed_of_plain {elapseSecond : BitVec 32} {s : Section} (plain : s.plain) :
    remote.Agreed elapseSecond s := by
  cases s with
  | start handler timeoutTicks call =>
      rintro rfl
      cases plain
  | launch timerID timeoutTicks call => cases plain
  | create handler => trivial
  | stop handler => trivial
  | enter elapseSecond => trivial

structure Planned (remote : Remote) (elapseSecond : BitVec 32) : Prop where
  fits : (Section.enter elapseSecond).Fits
  left : ∀ s ∈ remote.pending, s.Fits ∧ remote.Agreed elapseSecond s

theorem delay_toNat {elapseSecond : BitVec 32} (fits : (Section.enter elapseSecond).Fits) :
    (hwTs1S * elapseSecond).toNat = hwTs1S.toNat * elapseSecond.toNat := by
  rw [BitVec.toNat_mul]
  apply Nat.mod_eq_of_lt
  rw [Section.Fits] at fits
  omega

variable {elapseSecond : BitVec 32}

theorem Planned.kept (planned : Planned remote elapseSecond)
    (callback : next.server.callback = remote.server.callback)
    (left : ∀ s ∈ next.pending, s ∈ remote.pending) : Planned next elapseSecond := by
  refine ⟨planned.fits, fun s member => ?_⟩
  rcases planned.left s (left s member) with ⟨fits, agreed⟩
  refine ⟨fits, ?_⟩
  cases s with
  | launch timerID timeoutTicks call =>
      intro owner
      exact agreed (callback ▸ owner)
  | start handler timeoutTicks call => exact agreed
  | create handler => trivial
  | stop handler => trivial
  | enter elapseSecond => trivial

theorem planned_of_rest {rest : List Section} (half : List Section) (fits : (Section.enter elapseSecond).Fits)
    (free : next.preempted.getD [] = []) (agenda : next.agenda = half ++ rest)
    (plain : ∀ s ∈ rest, s.plain ∧ s.Fits)
    (begun : ∀ s ∈ half, s.Fits ∧ next.Agreed elapseSecond s) : Planned next elapseSecond := by
  refine ⟨fits, fun s member => ?_⟩
  rw [pending, agenda, free, List.append_nil] at member
  rcases List.mem_append.mp member with first | later
  · exact begun s first
  · exact ⟨(plain s later).2, agreed_of_plain (plain s later).1⟩

theorem proceed_planned {ssr : SsrReadings} (inv : Inv remote)
    (planned : Planned remote elapseSecond) (proceeds : remote.proceed ssr = some next) :
    Planned next ((remote.asks (.proceed ssr)).getD elapseSecond) := by
  cases agenda : remote.agenda with
  | nil =>
      rw [proceed, agenda] at proceeds
      obtain rfl := Option.some.inj proceeds
      rw [asks, agenda]
      exact planned
  | cons first rest =>
      rcases inv.running agenda with ⟨free, _, plain⟩
      have all : remote.pending = first :: rest := by
        rw [pending, agenda, free, List.append_nil]
      have plain' : ∀ s ∈ rest, s.plain ∧ s.Fits := fun s member =>
        ⟨plain s member, (planned.left s (all ▸ List.mem_cons_of_mem _ member)).1⟩
      rcases planned.left first (all ▸ List.mem_cons_self ..) with ⟨fits, agreed⟩
      cases first with
      | create handler =>
          rw [proceed, agenda] at proceeds
          obtain rfl := Option.some.inj proceeds
          rw [asks, agenda]
          exact planned_of_rest [] planned.fits free rfl plain' fun _ member => absurd member List.not_mem_nil
      | stop handler =>
          rw [proceed, agenda] at proceeds
          rcases Option.map_eq_some_iff.mp proceeds with ⟨server, stops, rfl⟩
          rw [asks, agenda]
          exact planned_of_rest [] planned.fits free rfl plain' fun _ member => absurd member List.not_mem_nil
      | enter elapseSecond' =>
          rw [proceed, agenda] at proceeds
          rcases Option.map_eq_some_iff.mp proceeds with ⟨server, stops, rfl⟩
          rw [asks, agenda]
          refine planned_of_rest [.start .sleepEntryTimerHandler (hwTs1S * elapseSecond')
            (some (remote.entered + 1))] fits free rfl plain' ?_
          rintro s member
          obtain rfl := List.mem_singleton.mp member
          refine ⟨?_, fun _ => rfl⟩
          have fits' := fits
          rw [Section.Fits] at fits'
          rwa [Section.Fits, delay_toNat fits]
      | start handler timeoutTicks call =>
          rw [proceed, agenda] at proceeds
          rcases Option.map_eq_some_iff.mp proceeds with ⟨server, stops, rfl⟩
          rw [stopRunning_eq] at stops
          have settled := (settled_of_stop inv.orderly stops).1
          rw [asks, agenda]
          refine planned_of_rest [.launch (remote.ids handler) timeoutTicks call]
            planned.fits free rfl plain' ?_
          rintro s member
          obtain rfl := List.mem_singleton.mp member
          refine ⟨fits, fun owner => ?_⟩
          rw [settled.callback] at owner
          apply agreed
          rcases inv.owner handler with own | other
          · exact Option.some.inj (own.symm.trans owner)
          · cases other.symm.trans owner
      | launch timerID timeoutTicks call =>
          rw [proceed, agenda] at proceeds
          rcases Option.map_eq_some_iff.mp proceeds with ⟨server, starts, rfl⟩
          rw [asks, agenda]
          exact planned_of_rest [] planned.fits free rfl plain' fun _ member => absurd member List.not_mem_nil

theorem step_planned {reached : Remote × Option (Notification Handler)} (inv : Inv remote)
    (planned : Planned remote elapseSecond) (fits : event.Fits)
    (calm : event.isCall → remote.preempted.getD [] = [])
    (steps : remote.step event = some reached) :
    Planned reached.1 ((remote.asks event).getD elapseSecond) := by
  cases event with
  | call call =>
      unfold step at steps
      dsimp only at steps
      split at steps
      · obtain rfl := Option.some.inj steps
        exact planned_of_rest [] planned.fits (calm rfl) rfl
          (fun s member => ⟨call.sections_plain s member, fits s member⟩)
          fun _ member => absurd member List.not_mem_nil
      · obtain rfl := Option.some.inj steps
        exact planned
  | resume =>
      unfold step at steps
      dsimp only at steps
      split at steps
      · rename_i idle
        obtain rfl := Option.some.inj steps
        refine planned.kept rfl fun s member => ?_
        rw [pending, idle]
        simpa [pending] using member
      · obtain rfl := Option.some.inj steps
        exact planned
  | proceed ssr =>
      rcases Option.map_eq_some_iff.mp steps with ⟨next, proceeds, rfl⟩
      exact proceed_planned inv planned proceeds
  | wakeup ssr =>
      unfold step at steps
      dsimp only at steps
      split at steps
      · rename_i comes
        rcases Option.map_eq_some_iff.mp steps with ⟨⟨server, notification⟩, handles, rfl⟩
        have irq := comes
        simp only [interruptible, Bool.and_eq_true, Option.isNone_iff_eq_none, Bool.or_eq_true] at irq
        rcases hwTsRtcWakeupHandler_spec ssr inv.orderly irq.2 with
          ⟨_, _, handles', _, callback, _⟩
        obtain ⟨rfl, _⟩ := Prod.mk.inj (Option.some.inj (handles.symm.trans handles'))
        rcases notify_spec { remote with server := server } notification irq.1 with
          ⟨agenda, preempted, notifies, left, _⟩
        dsimp only
        rw [notifies]
        exact planned.kept callback fun s member => left ▸ member
      · obtain rfl := Option.some.inj steps
        exact planned

theorem step_few {events : List Event} (inv : Inv remote)
    (calm : event.isCall → remote.preempted.getD [] = [])
    (few : remote.sleepSlots.card + entries remote (event :: events) ≤ 1) :
    ∃ reached, remote.step event = some reached ∧ Inv reached.1 ∧
      reached.1.sleepSlots.card + entries reached.1 events ≤ 1 := by
  by_cases creates : remote.creates event = true
  · rcases step_creates inv creates with ⟨next, steps, more, kept⟩
    rw [entries, if_pos creates, steps] at few
    change _ + (1 + entries next events) ≤ 1 at few
    exact ⟨_, steps, kept (by omega), by dsimp only; omega⟩
  · rw [Bool.not_eq_true] at creates
    rcases step_keeps inv calm creates with ⟨reached, steps, ⟨kept, same⟩, _⟩
    rw [entries, creates, steps] at few
    change _ + (0 + entries reached.1 events) ≤ 1 at few
    exact ⟨reached, steps, kept, by omega⟩

end Remote

namespace Timed

variable {t : Timed} {event : TimedEvent} {early : Nat}
variable {reached : Remote × Option (Notification Handler)}

/-- The sleep timer counts the delay of the last call, since that call at the earliest. -/
structure Paced (t : Timed) : Prop where
  inv : t.remote.Inv
  same : t.clock.server = t.remote.server
  timely : t.clock.Timely
  since_le : t.since ≤ t.clock.now
  planned : t.remote.Planned t.elapseSecond
  counting : ∀ i, t.remote.server.status i = .running →
    t.remote.server.callback i = some .sleepEntryTimerHandler →
      t.remote.server.counterInit i = hwTs1S * t.elapseSecond ∧ t.since ≤ t.clock.started i

theorem Paced.assumed (paced : Paced t) {op : Op Handler} (makes : t.op event = some op)
    (measured : t.Measured early op) : t.clock.Assumed early op := by
  cases event with
  | call call => cases makes
  | resume => cases makes
  | wakeup entry times =>
      rw [Timed.op] at makes
      split at makes
      · rename_i comes
        obtain rfl := Option.some.inj makes
        simp only [Remote.interruptible, Bool.and_eq_true, Bool.or_eq_true] at comes
        exact ⟨paced.same ▸ comes.2, measured⟩
      · cases makes
  | proceed times =>
      rcases Option.map_eq_some_iff.mp makes with ⟨first, head, rfl⟩
      rcases List.head?_eq_some_iff.mp head with ⟨rest, agenda⟩
      cases first with
      | create handler => trivial
      | stop handler => exact measured
      | enter elapseSecond => exact measured
      | start handler timeoutTicks call => exact measured
      | launch timerID timeoutTicks call =>
          rcases paced.inv.running agenda with ⟨_, ⟨created, _⟩, _⟩
          have here : Section.launch timerID timeoutTicks call ∈ t.remote.pending := by
            rw [Remote.pending, agenda]
            exact List.mem_cons_self ..
          exact ⟨paced.same ▸ created, (paced.planned.left _ here).1, measured⟩

theorem Paced.follow (paced : Paced t) (measured : ∀ op ∈ t.op event, t.Measured early op)
    (steps : t.remote.step (event.shown t.clock) = some reached) :
    ∃ m, t.follow event = some (m, reached.2) ∧ m.server = reached.1.server ∧
      t.clock.Advanced m := by
  have erased : (t.follow event).map _ = _ := follow_erased paced.same
  rw [steps] at erased
  rcases Option.map_eq_some_iff.mp erased with ⟨⟨m, notification⟩, follows, pair⟩
  obtain ⟨same, rfl⟩ := Prod.mk.inj pair
  refine ⟨m, follows, same, ?_⟩
  unfold Timed.follow at follows
  split at follows
  · rename_i op makes
    rcases Clocked.step_advanced paced.timely (paced.assumed makes (measured op makes)) with
      ⟨_, _, steps', advanced⟩
    obtain ⟨rfl, _⟩ := Prod.mk.inj (Option.some.inj (steps'.symm.trans follows))
    exact advanced
  · obtain ⟨rfl, _⟩ := Prod.mk.inj (Option.some.inj follows)
    exact .refl paced.timely

theorem Paced.step (paced : Paced t) (measured : ∀ op ∈ t.op event, t.Measured early op)
    (fits : (event.shown t.clock).Fits)
    (calm : (event.shown t.clock).isCall → t.remote.preempted.getD [] = [])
    (steps : t.remote.step (event.shown t.clock) = some reached) (kept : reached.1.Inv) :
    ∃ next, t.step event = some (next, reached.2) ∧ next.remote = reached.1 ∧ Paced next ∧
      next.clock.server.config = t.clock.server.config := by
  rcases paced.follow measured steps with ⟨m, follows, same, advanced⟩
  have planned := Remote.step_planned paced.inv paced.planned fits calm steps
  unfold Timed.step
  rw [steps, follows]
  dsimp only [Option.bind_eq_bind, Option.bind_some]
  cases asks : t.remote.asks (event.shown t.clock) with
  | some elapseSecond =>
      rw [asks] at planned
      refine ⟨_, rfl, rfl, ⟨kept, same, advanced.timely, Nat.le_refl _, planned, ?_⟩, advanced.config⟩
      intro i running owner
      rcases Remote.step_counts paced.inv steps running owner with ⟨nothing, _⟩
      cases nothing.symm.trans asks
  | none =>
      rw [asks] at planned
      refine ⟨_, rfl, rfl, ⟨kept, same, advanced.timely, paced.since_le.trans advanced.now, planned,
        ?_⟩, advanced.config⟩
      intro i running owner
      have began := advanced.started i (same ▸ running)
      rcases Remote.step_counts paced.inv steps running owner with ⟨_, counts⟩
      cases counts with
      | before running' owner' counterInit =>
          rcases paced.counting i running' owner' with ⟨count, since⟩
          refine ⟨counterInit.trans count, ?_⟩
          rcases began with ⟨old, _⟩ | new
          · exact since.trans old.ge
          · exact paced.since_le.trans new
      | launched timeoutTicks call rest agenda created owner' counterInit =>
          have here : Section.launch i timeoutTicks call ∈ t.remote.pending := by
            rw [Remote.pending, agenda]
            exact List.mem_cons_self ..
          refine ⟨counterInit.trans ((paced.planned.left _ here).2 owner'), ?_⟩
          rcases began with ⟨_, running'⟩ | new
          · rw [paced.same, created] at running'
            cases running'
          · exact paced.since_le.trans new

theorem Paced.expired (paced : Paced t) (measured : ∀ op ∈ t.op event, t.Measured early op)
    (steps : t.remote.step (event.shown t.clock) = some reached) {entry : Nat}
    (comes : entry ∈ event.entry) {notification : Notification Handler}
    (calls : notification ∈ reached.2)
    (owner : notification.pTimerCallBack = some .sleepEntryTimerHandler) :
    t.Expired early entry := by
  rcases paced.follow measured steps with ⟨m, follows, _, _⟩
  rw [Option.mem_def.mp calls] at follows
  cases event with
  | call call => cases comes
  | resume => cases comes
  | proceed times => cases comes
  | wakeup entry' times =>
      obtain rfl := Option.some.inj comes
      unfold Timed.follow at follows
      split at follows
      · rename_i op makes
        have assumed := paced.assumed makes (measured op makes)
        rw [Timed.op] at makes
        split at makes
        · obtain rfl := Option.some.inj makes
          rcases paced.timely.expired assumed follows with ⟨_, running, _, count⟩
          rcases Option.map_eq_some_iff.mp follows with ⟨⟨_, _⟩, handles, pair⟩
          obtain ⟨_, rfl⟩ := Prod.mk.inj pair
          have erased := Clocked.server_hwTsRtcWakeupHandler t.clock times (t.clock.readings times)
          rw [handles] at erased
          have orderly : Orderly t.clock.server := paced.same ▸ paced.inv.orderly
          rcases hwTsRtcWakeupHandler_spec (t.clock.readings times) orderly assumed.1 with
            ⟨_, _, handles', _, _, _, notified⟩
          obtain ⟨_, rfl⟩ := Prod.mk.inj (Option.some.inj (erased.trans handles'))
          rw [(notified notification rfl).2] at owner
          rw [paced.same] at running owner
          rcases paced.counting _ running owner with ⟨whole, since⟩
          rw [paced.same, whole, Remote.delay_toNat paced.planned.fits] at count
          unfold Expired
          rw [paced.same]
          apply count.trans
          apply Nat.add_le_add_right
          apply Nat.mul_le_mul_right
          exact Nat.sub_le_sub_left since _
        · cases makes
      · cases follows

theorem shown_eq {m m' : Clocked Handler} (config : m'.server.config = m.server.config) :
    event.shown m' = event.shown m := by
  cases event with
  | call call => rfl
  | resume => rfl
  | proceed times => exact congrArg Event.proceed (Clocked.readings_eq config times)
  | wakeup entry times => exact congrArg Event.wakeup (Clocked.readings_eq config times)

theorem paced_run {events : List TimedEvent} (paced : Paced t)
    (measured : AllMeasured early t events) (fits : ∀ event ∈ t.shown events, event.Fits)
    (undisturbed : t.remote.Undisturbed (t.shown events))
    (few : t.remote.sleepSlots.card + Remote.entries t.remote (t.shown events) ≤ 1) :
    FiresDue early t events := by
  induction events generalizing t with
  | nil => trivial
  | cons event events ih =>
      rcases measured with ⟨here, later⟩
      rcases undisturbed with ⟨calm, undisturbed⟩
      have fit := fits _ (List.mem_cons_self ..)
      rcases Remote.step_few paced.inv calm few with ⟨reached, steps, kept, few'⟩
      rcases paced.step here fit calm steps kept with ⟨next, steps', same, paced', config⟩
      have shown : next.shown events = t.shown events :=
        List.map_congr_left fun event _ => shown_eq config
      rintro _ reaches
      obtain rfl := Option.some.inj (steps'.symm.trans reaches)
      constructor
      · intro entry comes notification calls owner
        exact paced.expired here steps comes calls owner
      · apply ih paced' (later _ steps')
        · rw [shown]
          exact fun event member => fits event (List.mem_cons_of_mem _ member)
        · rw [shown, same]
          exact undisturbed _ steps
        · rw [shown, same]
          exact few'

theorem start_paced (rtc : RtcConfig) (time : Nat)
    (whole : (powerUp.hwTsInit rtc : TimerServer Handler).WholeRate) : Paced (start rtc time) := by
  rcases Remote.start_inv rtc with ⟨inv, none_yet⟩
  obtain ⟨op, creates⟩ : ∃ op, op = Op.create Handler.buttonsOnInvokeTimerElapsed.timerProcessID
      Handler.buttonsOnInvokeTimerElapsed.timerMode Handler.buttonsOnInvokeTimerElapsed :=
        ⟨_, rfl⟩
  have assumed : (Clocked.start rtc time).Assumed 0 op := creates ▸ trivial
  have created : (Clocked.start rtc time).step op = some ((start rtc time).clock, none) :=
    creates ▸ rfl
  rcases Clocked.step_advanced (Clocked.start_timely time whole) assumed with
    ⟨_, _, created', advanced⟩
  obtain ⟨rfl, _⟩ := Prod.mk.inj (Option.some.inj (created'.symm.trans created))
  have fits : (Section.enter 0).Fits := by decide
  refine ⟨inv, rfl, advanced.timely, Nat.le_refl _, ⟨fits, nofun⟩, ?_⟩
  intro i running owner
  have member : i ∈ (start rtc time).remote.sleepSlots := by
    refine Finset.mem_filter.mpr ⟨Finset.mem_univ i, ?_, owner⟩
    rw [running]
    exact nofun
  rw [show (start rtc time).remote.sleepSlots = ∅ from Finset.card_eq_zero.mp none_yet] at member
  exact absurd member (Finset.notMem_empty i)

/-- As long as the delays fit and `nnt_timeout_timer` makes no call on top of a half-done one, the
handler has one slot and fires for the last call of `APP_ZIGBEE_sleep_timer_enter`, when the delay
that it asked for has expired, exactly if the timer is created once at most. -/
theorem sleep_delay_iff (early : Nat) (rtc : RtcConfig) (time : Nat) (events : List TimedEvent)
    (whole : (powerUp.hwTsInit rtc : TimerServer Handler).WholeRate)
    (measured : AllMeasured early (start rtc time) events)
    (fits : ∀ event ∈ (start rtc time).shown events, event.Fits)
    (undisturbed : (Remote.start rtc).Undisturbed ((start rtc time).shown events)) :
    (Remote.start rtc).AlwaysOne ((start rtc time).shown events) ∧
        (Remote.start rtc).FiresLatest ((start rtc time).shown events) ∧
        FiresDue early (start rtc time) events ↔
      (Remote.start rtc).entries ((start rtc time).shown events) ≤ 1 := by
  have unique := Remote.sleep_timer_unique_iff rtc ((start rtc time).shown events) undisturbed
  constructor
  · rintro ⟨one, latest, _⟩
    exact unique.mp ⟨one, latest⟩
  · intro few
    rcases unique.mpr few with ⟨one, latest⟩
    refine ⟨one, latest, paced_run (start_paced rtc time whole) measured fits undisturbed ?_⟩
    rw [show (start rtc time).remote.sleepSlots.card = 0 from (Remote.start_inv rtc).2, Nat.zero_add]
    exact few

/-- `CFG_RTC_WUCKSEL_DIVIDER`, `CFG_RTC_ASYNCH_PRESCALER` and `CFG_RTC_SYNCH_PRESCALER`. -/
def boardRtc : RtcConfig := ⟨0, 0x0F, 0x7FFF⟩

def atOnce (call : Call) (time : Nat) : List TimedEvent :=
  .call call :: List.replicate 7 (.proceed ⟨time, time, time⟩)

def answered : List TimedEvent :=
  atOnce (.stackLayersInit 5) 768 ++ atOnce .response 2768 ++ [.wakeup 23258 ⟨23258, 23258, 23258⟩]

theorem answered_sleeps :
    (Remote.start boardRtc).AlwaysOne ((start boardRtc 0).shown answered) ∧
      (Remote.start boardRtc).FiresLatest ((start boardRtc 0).shown answered) ∧
      FiresDue 0 (start boardRtc 0) answered :=
  (sleep_delay_iff 0 boardRtc 0 answered ⟨by decide, by decide, by decide, by decide⟩
    (by decide +kernel) (by decide +kernel) (by decide +kernel)).mpr (by decide +kernel)

def joined : List TimedEvent :=
  atOnce (.stackLayersInit 5) 768 ++ atOnce (.nwkStart 10) 2768 ++
    [.wakeup 11013 ⟨11013, 11013, 11013⟩]

/-- A delay of 24 days and six hours, in ticks, does not fit into 32 bits. -/
def delayed : List TimedEvent :=
  atOnce (.stackLayersInit 2096129) 768 ++ [.wakeup 1793 ⟨1793, 1793, 1793⟩]

/-- The timer of the initialisation is left running, and fires five seconds after it. Half a second
is left of a delay that does not fit. -/
theorem joined_sleeps_early :
    AllMeasured 0 (start boardRtc 0) joined ∧
      ¬ (Remote.start boardRtc).AlwaysOne ((start boardRtc 0).shown joined) ∧
      ¬ (Remote.start boardRtc).FiresLatest ((start boardRtc 0).shown joined) ∧
      ¬ FiresDue 0 (start boardRtc 0) joined ∧
    AllMeasured 0 (start boardRtc 0) delayed ∧ ¬ FiresDue 0 (start boardRtc 0) delayed := by
  decide +kernel

end Timed

end Baelux.Timers

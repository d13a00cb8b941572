import Baelux.Timers.Remote
import Baelux.Timers.TimerList

/-! Which timers may call `sleep_entry_timer_handler`: as long as the sleep timer is created once,
only the one that the last call of `APP_ZIGBEE_sleep_timer_enter` has started. -/

namespace Baelux.Timers

open TimerServer

/-! ## Stopped timers -/

structure Settled (s t : TimerServer Handler) : Prop where
  callback : t.callback = s.callback
  status : ∀ i, t.status i = s.status i ∨ s.status i = .running ∧ t.status i = .created

namespace Settled

variable {s t : TimerServer Handler} {i : TimerID}

theorem free (settled : Settled s t) : t.status i = .free ↔ s.status i = .free := by
  rcases settled.status i with same | ⟨running, stopped⟩
  · rw [same]
  · rw [running, stopped]
    exact iff_of_false nofun nofun

theorem running (settled : Settled s t) (running : t.status i = .running) :
    s.status i = .running := by
  rcases settled.status i with same | ⟨before, _⟩
  · exact same.symm.trans running
  · exact before

end Settled

theorem hwTsStop_settles {s : TimerServer Handler} (timerID : TimerID) (ssr : SsrReadings)
    (orderly : Orderly s) : ∃ t, s.hwTsStop timerID ssr = some t ∧ Orderly t ∧ Settled s t ∧
      t.status timerID ≠ .running := by
  rcases hwTsStop_spec timerID ssr orderly with ⟨t, stops, orderly', callback, status⟩
  refine ⟨t, stops, orderly', ⟨callback, ?_⟩, ?_⟩
  · intro i
    rw [status]
    split
    · rw [Function.update_apply]
      split
      · subst i
        exact Or.inr ⟨‹_›, rfl⟩
      · exact Or.inl rfl
    · exact Or.inl rfl
  · rw [status]
    split
    · rw [Function.update_self]
      exact nofun
    · assumption

theorem settled_of_stop {s t : TimerServer Handler} {timerID : TimerID} {ssr : SsrReadings}
    (orderly : Orderly s) (stops : s.hwTsStop timerID ssr = some t) :
    Settled s t ∧ t.status timerID ≠ .running := by
  rcases hwTsStop_settles timerID ssr orderly with ⟨_, stops', _, settled⟩
  obtain rfl := Option.some.inj (stops'.symm.trans stops)
  exact settled

/-! ## What is left to do -/

namespace Section

def isCreate : Section → Bool
  | create _ => true
  | _ => false

def plain : Section → Bool
  | start .sleepEntryTimerHandler _ _ => false
  | launch .. => false
  | _ => true

end Section

theorem Call.sections_plain (call : Call) : ∀ s ∈ call.sections, s.plain := by
  cases call with
  | stackLayersInit elapseSecond =>
      simp [sections, appZigbeeSleepModeEntry, appZigbeeSleepTimerEnter,
        appZigbeePreventNwkNntTimeout, Section.plain]
  | nwkStart elapseSecond =>
      simp [sections, appZigbeeSleepModeEntry, appZigbeeSleepTimerEnter, Section.plain]
  | sleepTimerEnter elapseSecond => simp [sections, appZigbeeSleepTimerEnter, Section.plain]
  | response => simp [sections, appZigbeeSleepTimerEnter, Section.plain]
  | btnEventStop => simp [sections, Section.plain]
  | btnEventRestart => simp [sections, Section.plain]

def creations (agenda : List Section) : Nat := agenda.countP Section.isCreate

def sleepCreations (agenda : List Section) : Nat :=
  agenda.count (.create .sleepEntryTimerHandler)

theorem Call.sections_create (call : Call) : creations call.sections ≤
      2 * sleepCreations call.sections ∧ sleepCreations call.sections ≤ 1 := by
  cases call with
  | stackLayersInit elapseSecond =>
      simp [creations, sleepCreations, sections, appZigbeeSleepModeEntry, appZigbeeSleepTimerEnter,
        appZigbeePreventNwkNntTimeout, Section.isCreate, List.countP_cons]
  | nwkStart elapseSecond =>
      simp [creations, sleepCreations, sections, appZigbeeSleepModeEntry, appZigbeeSleepTimerEnter,
        Section.isCreate, List.countP_cons]
  | sleepTimerEnter elapseSecond => exact ⟨Nat.zero_le _, Nat.zero_le _⟩
  | response => exact ⟨Nat.zero_le _, Nat.zero_le _⟩
  | btnEventStop => exact ⟨Nat.zero_le _, Nat.zero_le _⟩
  | btnEventRestart => exact ⟨Nat.zero_le _, Nat.zero_le _⟩

namespace Remote

variable {remote next : Remote} {handler : Handler} {first : Section} {rest : List Section}

def pending (remote : Remote) : List Section := remote.agenda ++ remote.preempted.getD []

def Ready (remote : Remote) : Section → Prop
  | .start handler _ call => handler = .sleepEntryTimerHandler → call = some remote.entered
  | .launch timerID _ call => remote.server.status timerID = .created ∧
      (remote.server.callback timerID = some .sleepEntryTimerHandler → call = some remote.entered)
  | _ => True

theorem ready_of_plain {s : Section} (plain : s.plain) : remote.Ready s := by
  cases s with
  | create handler => trivial
  | stop handler => trivial
  | enter elapseSecond => trivial
  | start handler timeoutTicks call =>
      rintro rfl
      cases plain
  | launch timerID timeoutTicks call => cases plain

def OnTime (remote : Remote) : List Section → Prop
  | [] => True
  | first :: rest => remote.Ready first ∧ ∀ s ∈ rest, s.plain

theorem onTime_of_plain {agenda : List Section} (plain : ∀ s ∈ agenda, s.plain) :
    remote.OnTime agenda := by
  cases agenda with
  | nil => trivial
  | cons first rest =>
      exact ⟨ready_of_plain (plain first (List.mem_cons_self ..)),
        fun s member => plain s (List.mem_cons_of_mem _ member)⟩

theorem OnTime.settle {agenda : List Section} (onTime : remote.OnTime agenda)
    (settled : Settled remote.server next.server) (entered : next.entered = remote.entered) :
    next.OnTime agenda := by
  cases agenda with
  | nil => trivial
  | cons first rest =>
      rcases onTime with ⟨ready, plain⟩
      refine ⟨?_, plain⟩
      cases first with
      | launch timerID timeoutTicks call =>
          rcases ready with ⟨created, latest⟩
          constructor
          · rcases settled.status timerID with kept | ⟨running, _⟩
            · exact kept.trans created
            · cases created.symm.trans running
          · intro owner
            rw [entered]
            exact latest (settled.callback ▸ owner)
      | start handler timeoutTicks call =>
          intro isSleep
          rw [entered]
          exact ready isSleep
      | create handler => trivial
      | stop handler => trivial
      | enter elapseSecond => trivial

/-- Ids name slots of their own, or the slot of the buttons' timer; only one slot is the sleep
timer's. -/
structure Owned (remote : Remote) : Prop where
  orderly : Orderly remote.server
  vacant : ∀ i, remote.server.status i = .free → remote.server.callback i = none
  allocated : ∀ handler, remote.server.status (remote.ids handler) ≠ .free
  owner : ∀ handler, remote.server.callback (remote.ids handler) = some handler ∨
    remote.server.callback (remote.ids handler) = some .buttonsOnInvokeTimerElapsed
  named : ∀ i, remote.server.callback i = some .sleepEntryTimerHandler →
    i = remote.ids .sleepEntryTimerHandler

def Armed (remote : Remote) : Prop :=
  ∀ i, remote.server.status i = .running →
    remote.server.callback i = some .sleepEntryTimerHandler →
    remote.startedBy i = some remote.entered

def allocated (remote : Remote) : Finset TimerID :=
  Finset.univ.filter fun i => remote.server.status i ≠ .free

structure Inv (remote : Remote) : Prop extends Owned remote where
  armed : remote.Armed
  onTime : remote.OnTime remote.pending
  alone : remote.agenda = [] ∨ remote.preempted.getD [] = []
  room : remote.allocated.card + creations remote.pending ≤
    1 + 2 * (remote.sleepSlots.card + sleepCreations remote.pending)
  once : sleepCreations remote.pending ≤ 1

structure Unmoved (remote next : Remote) : Prop where
  free : ∀ i, next.server.status i = .free ↔ remote.server.status i = .free
  callback : next.server.callback = remote.server.callback
  ids : next.ids = remote.ids

namespace Unmoved

theorem sleepSlots (unmoved : Unmoved remote next) : next.sleepSlots = remote.sleepSlots := by
  ext i
  simp only [Remote.sleepSlots, Finset.mem_filter, ne_eq, unmoved.free, unmoved.callback]

theorem allocated (unmoved : Unmoved remote next) : next.allocated = remote.allocated := by
  ext i
  simp only [Remote.allocated, Finset.mem_filter, ne_eq, unmoved.free]

theorem owned (unmoved : Unmoved remote next) (owned : Owned remote)
    (orderly : Orderly next.server) : Owned next := by
  constructor
  · exact orderly
  · intro i free
    rw [unmoved.callback]
    exact owned.vacant i ((unmoved.free i).mp free)
  · intro handler
    rw [unmoved.ids, ne_eq, unmoved.free]
    exact owned.allocated handler
  · rw [unmoved.ids, unmoved.callback]
    exact owned.owner
  · rw [unmoved.ids, unmoved.callback]
    exact owned.named

theorem inv (unmoved : Unmoved remote next) (inv : Inv remote) (orderly : Orderly next.server)
    (armed : next.Armed) (onTime : next.OnTime next.pending)
    (alone : next.agenda = [] ∨ next.preempted.getD [] = [])
    (creations : creations next.pending = creations remote.pending)
    (sleepCreations : sleepCreations next.pending = sleepCreations remote.pending) :
    Inv next := by
  refine ⟨unmoved.owned inv.toOwned orderly, armed, onTime, alone, ?_, ?_⟩
  · rw [unmoved.allocated, unmoved.sleepSlots, creations, sleepCreations]
    exact inv.room
  · rw [sleepCreations]
    exact inv.once

end Unmoved

/-! ## One section -/

theorem Inv.running (inv : Inv remote) (running : remote.agenda = first :: rest) :
    remote.preempted.getD [] = [] ∧ remote.Ready first ∧ ∀ s ∈ rest, s.plain := by
  have free : remote.preempted.getD [] = [] := by
    rcases inv.alone with idle | free
    · rw [running] at idle
      cases idle
    · exact free
  have onTime := inv.onTime
  rw [pending, running, free, List.append_nil] at onTime
  exact ⟨free, onTime⟩

def Keeps (remote next : Remote) : Prop :=
  Inv next ∧ next.sleepSlots.card = remote.sleepSlots.card

theorem Inv.advance (inv : Inv remote) (running : remote.agenda = first :: rest)
    (unmoved : Unmoved remote next) (preempted : next.preempted = remote.preempted)
    (orderly : Orderly next.server) (armed : next.Armed) (onTime : next.OnTime next.agenda)
    (creations : creations next.agenda = creations remote.agenda)
    (sleepCreations : sleepCreations next.agenda = sleepCreations remote.agenda) :
    Keeps remote next := by
  rcases inv.running running with ⟨free, _⟩
  have before : remote.pending = remote.agenda := by rw [pending, free, List.append_nil]
  have after : next.pending = next.agenda := by rw [pending, preempted, free, List.append_nil]
  refine ⟨?_, by rw [unmoved.sleepSlots]⟩
  apply unmoved.inv inv orderly armed
  · rwa [after]
  · rw [preempted]
    exact Or.inr free
  · rwa [after, before]
  · rwa [after, before]

theorem stop_keeps (ssr : SsrReadings) (inv : Inv remote)
    (running : remote.agenda = .stop handler :: rest) :
    ∃ next, remote.proceed ssr = some next ∧ Keeps remote next := by
  rcases inv.running running with ⟨_, _, plain⟩
  rcases hwTsStop_settles (remote.ids handler) ssr inv.orderly with ⟨t, stops, orderly, settled, _⟩
  refine ⟨{ remote with server := t, agenda := rest }, ?_, ?_⟩
  · simp only [proceed, running, stops, Option.map_some]
  · apply inv.advance running
    · exact ⟨fun _ => settled.free, settled.callback, rfl⟩
    · rfl
    · exact orderly
    · intro i runs
      rw [settled.callback]
      exact inv.armed i (settled.running runs)
    · exact onTime_of_plain plain
    · simp [running, creations, Section.isCreate]
    · simp [running, sleepCreations]

theorem enter_keeps {elapseSecond : BitVec 32} (ssr : SsrReadings) (inv : Inv remote)
    (running : remote.agenda = .enter elapseSecond :: rest) :
    ∃ next, remote.proceed ssr = some next ∧ Keeps remote next := by
  rcases inv.running running with ⟨_, _, plain⟩
  rcases hwTsStop_settles (remote.ids .sleepEntryTimerHandler) ssr inv.orderly with
    ⟨t, stops, orderly, settled, stopped⟩
  refine ⟨{ remote with
      server := t
      entered := remote.entered + 1
      agenda := .start .sleepEntryTimerHandler (hwTs1S * elapseSecond)
        (some (remote.entered + 1)) :: rest }, ?_, ?_⟩
  · simp only [proceed, running, stops, Option.map_some]
  · apply inv.advance running
    · exact ⟨fun _ => settled.free, settled.callback, rfl⟩
    · rfl
    · exact orderly
    · intro i runs owner
      rw [settled.callback] at owner
      rw [inv.named i owner] at runs
      exact absurd runs stopped
    · exact ⟨fun _ => rfl, plain⟩
    · simp [running, creations, Section.isCreate]
    · simp [running, sleepCreations]

theorem start_keeps {timeoutTicks : BitVec 32} {call : Option Nat} (ssr : SsrReadings)
    (inv : Inv remote) (running : remote.agenda = .start handler timeoutTicks call :: rest) :
    ∃ next, remote.proceed ssr = some next ∧ Keeps remote next := by
  rcases inv.running running with ⟨_, ready, plain⟩
  rcases hwTsStop_settles (remote.ids handler) ssr inv.orderly with
    ⟨t, stops, orderly, settled, stopped⟩
  refine ⟨{ remote with
      server := t
      agenda := .launch (remote.ids handler) timeoutTicks call :: rest }, ?_, ?_⟩
  · simp only [proceed, running, stopRunning_eq, stops, Option.map_some]
  · apply inv.advance running
    · exact ⟨fun _ => settled.free, settled.callback, rfl⟩
    · rfl
    · exact orderly
    · intro i runs
      rw [settled.callback]
      exact inv.armed i (settled.running runs)
    · refine ⟨⟨?_, ?_⟩, plain⟩
      · have allocated := mt settled.free.mp (inv.allocated handler)
        cases status : t.status (remote.ids handler) with
        | free => exact absurd status allocated
        | created => rfl
        | running => exact absurd status stopped
      · intro owner
        rw [settled.callback] at owner
        apply ready
        rcases inv.owner handler with own | other
        · exact Option.some.inj (own.symm.trans owner)
        · cases other.symm.trans owner
    · simp [running, creations, Section.isCreate]
    · simp [running, sleepCreations]

theorem launch_keeps {timerID : TimerID} {timeoutTicks : BitVec 32} {call : Option Nat}
    (ssr : SsrReadings) (inv : Inv remote)
    (running : remote.agenda = .launch timerID timeoutTicks call :: rest) :
    ∃ next, remote.proceed ssr = some next ∧ Keeps remote next := by
  rcases inv.running running with ⟨_, ⟨created, latest⟩, plain⟩
  rcases inv.orderly.listed with ⟨l, listed⟩
  have stopped : remote.server.status timerID ≠ .running := by
    rw [created]
    exact nofun
  rcases startTimer_spec timeoutTicks ssr listed stopped with ⟨t, starts, orderly, callback, status⟩
  refine ⟨{ remote with
      server := t
      startedBy := Function.update remote.startedBy timerID call
      agenda := rest }, ?_, ?_⟩
  · simp only [proceed, running, starts, Option.map_some]
  · have free : ∀ i, t.status i = .free ↔ remote.server.status i = .free := by
      intro i
      rw [status, Function.update_apply]
      split
      · subst i
        rw [created]
        exact iff_of_false nofun nofun
      · rfl
    apply inv.advance running
    · exact ⟨free, callback, rfl⟩
    · rfl
    · exact orderly
    · intro i runs owner
      change t.status i = .running at runs
      change t.callback i = _ at owner
      rw [callback] at owner
      rw [status, Function.update_apply] at runs
      change Function.update remote.startedBy timerID call i = some remote.entered
      rw [Function.update_apply]
      split
      · subst i
        exact latest owner
      · rw [if_neg ‹_›] at runs
        exact inv.armed i runs owner
    · exact onTime_of_plain plain
    · simp [running, creations, Section.isCreate]
    · simp [running, sleepCreations]

/-! ## A new timer -/

structure Created (remote next : Remote) (handler : Handler) (loop : TimerID) : Prop where
  free : remote.server.status loop = .free
  status : next.server.status = Function.update remote.server.status loop .created
  callback : next.server.callback = Function.update remote.server.callback loop (some handler)
  ids : next.ids = Function.update remote.ids handler loop
  orderly : Orderly next.server

theorem create_spec (handler : Handler) (orderly : Orderly remote.server)
    (room : remote.allocated.card < 6) : ∃ loop, Created remote (remote.create handler) handler loop := by
  rcases hwTsCreate_spec handler.timerProcessID handler.timerMode handler orderly with
    ⟨loop, t, creates, free, orderly', status, callback⟩ | ⟨_, full⟩
  · refine ⟨loop, free, ?_, ?_, ?_, ?_⟩
    · rw [create, creates]
      exact status
    · rw [create, creates]
      exact callback
    · rw [create, creates]
    · rw [create, creates]
      exact orderly'
  · have whole : remote.allocated = Finset.univ := Finset.filter_true_of_mem fun i _ => full i
    rw [whole, Finset.card_univ, Fintype.card_fin] at room
    exact absurd room (lt_irrefl 6)

namespace Created

variable {loop : TimerID}

theorem allocated_card (created : Created remote next handler loop) :
    next.allocated.card = remote.allocated.card + 1 := by
  have new : loop ∉ remote.allocated := fun member => (Finset.mem_filter.mp member).2 created.free
  have grown : next.allocated = insert loop remote.allocated := by
    ext i
    simp only [allocated, Finset.mem_filter, Finset.mem_univ, Finset.mem_insert, true_and,
      created.status, Function.update_apply]
    split <;> simp [*]
  rw [grown, Finset.card_insert_of_notMem new]

theorem sleepSlots_card (created : Created remote next .sleepEntryTimerHandler loop) :
    next.sleepSlots.card = remote.sleepSlots.card + 1 := by
  have new : loop ∉ remote.sleepSlots := fun member =>
    (Finset.mem_filter.mp member).2.1 created.free
  have grown : next.sleepSlots = insert loop remote.sleepSlots := by
    ext i
    simp only [sleepSlots, Finset.mem_filter, Finset.mem_univ, Finset.mem_insert, true_and,
      created.status, created.callback, Function.update_apply]
    split <;> simp [*]
  rw [grown, Finset.card_insert_of_notMem new]

theorem sleepSlots_other (created : Created remote next handler loop)
    (other : handler ≠ .sleepEntryTimerHandler) : next.sleepSlots = remote.sleepSlots := by
  ext i
  simp only [sleepSlots, Finset.mem_filter, Finset.mem_univ, true_and, created.status,
    created.callback, Function.update_apply]
  split
  · subst i
    simp [created.free, other]
  · rfl

theorem owned (created : Created remote next handler loop) (owned : Owned remote)
    (first : handler = .sleepEntryTimerHandler → remote.sleepSlots = ∅) : Owned next := by
  have apart : ∀ other, remote.ids other ≠ loop := by
    rintro other rfl
    exact owned.allocated other created.free
  have none_before : handler = .sleepEntryTimerHandler →
      ∀ i, remote.server.callback i ≠ some .sleepEntryTimerHandler := by
    intro isSleep i owner
    have member : i ∈ remote.sleepSlots := by
      refine Finset.mem_filter.mpr ⟨Finset.mem_univ i, ?_, owner⟩
      intro free
      rw [owned.vacant i free] at owner
      cases owner
    rw [first isSleep] at member
    exact absurd member (Finset.notMem_empty i)
  constructor
  · exact created.orderly
  · intro i
    rw [created.status, created.callback, Function.update_apply, Function.update_apply]
    split
    · exact nofun
    · exact owned.vacant i
  · intro other
    rw [created.ids, created.status]
    by_cases own : other = handler
    · subst other
      rw [Function.update_self, Function.update_self]
      exact nofun
    · rw [Function.update_of_ne own, Function.update_of_ne (apart other)]
      exact owned.allocated other
  · intro other
    rw [created.ids, created.callback]
    by_cases own : other = handler
    · subst other
      rw [Function.update_self, Function.update_self]
      exact Or.inl rfl
    · rw [Function.update_of_ne own, Function.update_of_ne (apart other)]
      exact owned.owner other
  · intro i
    rw [created.ids, created.callback, Function.update_apply, Function.update_apply]
    by_cases here : i = loop
    · rw [if_pos here]
      intro isSleep
      rw [if_pos (Option.some.inj isSleep).symm]
      exact here
    · rw [if_neg here]
      intro owner
      rw [if_neg fun isSleep => none_before isSleep.symm i owner]
      exact owned.named i owner

theorem armed (created : Created remote next handler loop) (armed : remote.Armed)
    (startedBy : next.startedBy = remote.startedBy) (entered : next.entered = remote.entered) :
    next.Armed := by
  intro i runs owner
  have here : i ≠ loop := by
    rintro rfl
    rw [created.status, Function.update_self] at runs
    cases runs
  rw [created.status, Function.update_of_ne here] at runs
  rw [created.callback, Function.update_of_ne here] at owner
  rw [startedBy, entered]
  exact armed i runs owner

end Created

theorem Owned.sleepSlots_card (owned : Owned remote) : remote.sleepSlots.card ≤ 1 := by
  apply Finset.card_le_one.mpr
  intro i memberI j memberJ
  have namedI := owned.named i (Finset.mem_filter.mp memberI).2.2
  have namedJ := owned.named j (Finset.mem_filter.mp memberJ).2.2
  exact namedI.trans namedJ.symm

/-- Each creation finds a free slot. -/
theorem create_takes (ssr : SsrReadings) (inv : Inv remote)
    (running : remote.agenda = .create handler :: rest) :
    ∃ next loop, remote.proceed ssr = some next ∧ Created remote next handler loop ∧
      ((handler = .sleepEntryTimerHandler → remote.sleepSlots = ∅) → Inv next) := by
  rcases inv.running running with ⟨free, _, plain⟩
  have pending : remote.pending = .create handler :: rest := by
    rw [Remote.pending, free, List.append_nil, running]
  have room := inv.room
  have once := inv.once
  have card := inv.sleepSlots_card
  have creations : creations remote.pending = creations rest + 1 := by
    rw [pending]
    exact List.countP_cons_of_pos rfl
  have fits : remote.allocated.card < 6 := by omega
  rcases create_spec handler inv.orderly fits with ⟨loop, made⟩
  have created : Created remote { remote.create handler with agenda := rest } handler loop :=
    ⟨made.free, made.status, made.callback, made.ids, made.orderly⟩
  refine ⟨_, loop, ?_, created, ?_⟩
  · simp only [proceed, running]
  intro first
  have after : Remote.pending { remote.create handler with agenda := rest } = rest := by
    rw [Remote.pending, show (remote.create handler).preempted.getD [] = [] from free,
      List.append_nil]
  have grown := created.allocated_card
  refine ⟨created.owned inv.toOwned first, ?_, ?_, Or.inr free, ?_, ?_⟩
  · exact created.armed inv.armed rfl rfl
  · rw [after]
    exact onTime_of_plain plain
  · rw [after]
    by_cases isSleep : handler = .sleepEntryTimerHandler
    · subst isSleep
      have more := created.sleepSlots_card
      have sleeps : sleepCreations remote.pending = sleepCreations rest + 1 := by
        rw [pending]
        exact List.count_cons_self
      omega
    · have same := congrArg Finset.card (created.sleepSlots_other isSleep)
      have sleeps : sleepCreations remote.pending = sleepCreations rest := by
        rw [pending]
        exact List.count_cons_of_ne (by simpa using isSleep)
      omega
  · rw [after]
    rw [pending] at once
    exact (List.count_le_count_cons ..).trans once

/-! ## One step -/

theorem call_keeps (call : Call) (inv : Inv remote) (idle : remote.agenda = [])
    (free : remote.preempted.getD [] = []) :
    Keeps remote { remote with agenda := call.sections } := by
  have before : remote.pending = [] := by rw [pending, idle, free, List.append_nil]
  have after : Remote.pending { remote with agenda := call.sections } = call.sections := by
    rw [pending, show (Remote.preempted _).getD [] = [] from free, List.append_nil]
  rcases call.sections_create with ⟨few, once⟩
  refine ⟨⟨⟨inv.orderly, inv.vacant, inv.allocated, inv.owner, inv.named⟩, inv.armed, ?_,
    Or.inr free, ?_, ?_⟩, rfl⟩
  · rw [after]
    exact onTime_of_plain call.sections_plain
  · have room := inv.room
    rw [before] at room
    rw [after]
    change remote.allocated.card + 0 ≤ 1 + 2 * (remote.sleepSlots.card + 0) at room
    change remote.allocated.card + _ ≤ 1 + 2 * (remote.sleepSlots.card + _)
    omega
  · rwa [after]

theorem notify_spec (remote : Remote) (notification : Option (Notification Handler))
    (free : remote.preempted = none) : ∃ agenda preempted,
      remote.notify notification = { remote with agenda := agenda, preempted := preempted } ∧
      agenda ++ preempted.getD [] = remote.pending ∧
      (agenda = [] ∨ preempted.getD [] = []) := by
  unfold notify
  split
  · refine ⟨[], some remote.agenda, rfl, ?_, Or.inl rfl⟩
    rw [pending, free]
    exact (List.append_nil _).symm
  · exact ⟨remote.agenda, remote.preempted, rfl, rfl, Or.inr (by rw [free]; rfl)⟩

theorem wakeup_keeps (ssr : SsrReadings) (inv : Inv remote) (comes : remote.interruptible = true) :
    ∃ reached, remote.step (.wakeup ssr) = some reached ∧ Keeps remote reached.1 ∧
      ∀ notification ∈ reached.2,
        notification.pTimerCallBack = some .sleepEntryTimerHandler →
          remote.startedBy notification.timerID = some remote.entered := by
  have irq := comes
  simp only [interruptible, Bool.and_eq_true, Option.isNone_iff_eq_none, Bool.or_eq_true] at irq
  rcases hwTsRtcWakeupHandler_spec ssr inv.orderly irq.2 with
    ⟨t, notification, handles, orderly, callback, status, notified⟩
  have settled : Settled remote.server t := ⟨callback, status⟩
  rcases notify_spec { remote with server := t } notification irq.1 with
    ⟨agenda, preempted, notifies, left, alone⟩
  refine ⟨(Remote.notify { remote with server := t } notification, notification), ?_, ?_, ?_⟩
  · simp only [step, if_pos comes, handles, Option.map_some]
  · rw [notifies]
    have unmoved : Unmoved remote
        { remote with server := t, agenda := agenda, preempted := preempted } :=
      ⟨fun _ => settled.free, settled.callback, rfl⟩
    refine ⟨?_, by rw [unmoved.sleepSlots]⟩
    have same : Remote.pending
        { remote with server := t, agenda := agenda, preempted := preempted } =
          remote.pending := left
    apply unmoved.inv inv orderly
    · intro i runs
      rw [settled.callback]
      exact inv.armed i (settled.running runs)
    · rw [same]
      exact inv.onTime.settle settled rfl
    · exact alone
    · rw [same]
    · rw [same]
  · intro n calls owner
    rcases notified n calls with ⟨running, called⟩
    exact inv.armed n.timerID running (called.symm.trans owner)

theorem resume_keeps (inv : Inv remote) (idle : remote.agenda = []) :
    Keeps remote { remote with agenda := remote.preempted.getD [], preempted := none } := by
  have same : Remote.pending { remote with
      agenda := remote.preempted.getD []
      preempted := none } = remote.pending := by
    rw [pending, pending, idle]
    exact List.append_nil _
  refine ⟨⟨⟨inv.orderly, inv.vacant, inv.allocated, inv.owner, inv.named⟩, inv.armed, ?_,
    Or.inr rfl, ?_, ?_⟩, rfl⟩
  · rw [same]
    exact inv.onTime
  · rw [same]
    exact inv.room
  · rw [same]
    exact inv.once

theorem Keeps.refl (inv : Inv remote) : Keeps remote remote := ⟨inv, rfl⟩

theorem step_keeps {event : Event} (inv : Inv remote)
    (calm : event.isCall → remote.preempted.getD [] = [])
    (other : remote.creates event = false) :
    ∃ reached, remote.step event = some reached ∧ Keeps remote reached.1 ∧
      ∀ notification ∈ reached.2,
        notification.pTimerCallBack = some .sleepEntryTimerHandler →
          remote.startedBy notification.timerID = some remote.entered := by
  cases event with
  | call call =>
      by_cases idle : remote.agenda = []
      · exact ⟨_, if_pos idle, call_keeps call inv idle (calm rfl), nofun⟩
      · exact ⟨_, if_neg idle, .refl inv, nofun⟩
  | proceed ssr =>
      have proceeds : ∃ next, remote.proceed ssr = some next ∧ Keeps remote next := by
        cases running : remote.agenda with
        | nil => exact ⟨remote, by rw [proceed, running], .refl inv⟩
        | cons first rest =>
            cases first with
            | create handler =>
                have notSleep : handler ≠ .sleepEntryTimerHandler := by
                  rintro rfl
                  rw [creates, running] at other
                  cases other
                rcases create_takes ssr inv running with ⟨next, loop, proceeds, created, kept⟩
                refine ⟨next, proceeds, kept fun isSleep => absurd isSleep notSleep, ?_⟩
                rw [created.sleepSlots_other notSleep]
            | stop handler => exact stop_keeps ssr inv running
            | enter elapseSecond => exact enter_keeps ssr inv running
            | start handler timeoutTicks call => exact start_keeps ssr inv running
            | launch timerID timeoutTicks call => exact launch_keeps ssr inv running
      rcases proceeds with ⟨next, proceeds, keeps⟩
      exact ⟨(next, none), by rw [step, proceeds]; rfl, keeps, nofun⟩
  | wakeup ssr =>
      by_cases comes : remote.interruptible = true
      · exact wakeup_keeps ssr inv comes
      · exact ⟨_, if_neg comes, .refl inv, nofun⟩
  | resume =>
      by_cases idle : remote.agenda = []
      · exact ⟨_, if_pos idle, resume_keeps inv idle, nofun⟩
      · exact ⟨_, if_neg idle, .refl inv, nofun⟩

theorem step_creates {event : Event} (inv : Inv remote) (creates : remote.creates event = true) :
    ∃ next, remote.step event = some (next, none) ∧
      next.sleepSlots.card = remote.sleepSlots.card + 1 ∧
      (remote.sleepSlots.card = 0 → Inv next) := by
  cases event with
  | proceed ssr =>
      have head : remote.agenda.head? = some (.create .sleepEntryTimerHandler) :=
        of_decide_eq_true creates
      rcases List.head?_eq_some_iff.mp head with ⟨rest, running⟩
      rcases create_takes ssr inv running with ⟨next, loop, proceeds, created, kept⟩
      refine ⟨next, by rw [step, proceeds]; rfl, created.sleepSlots_card, ?_⟩
      exact fun none_yet => kept fun _ => Finset.card_eq_zero.mp none_yet
  | call call => cases creates
  | wakeup ssr => cases creates
  | resume => cases creates

/-! ## Whole runs -/

theorem AlwaysOne.now {events : List Event} (always : AlwaysOne remote events) :
    remote.sleepSlots.card ≤ 1 := by
  cases events with
  | nil => exact always
  | cons event events => exact always.1

theorem run_iff {events : List Event} (inv : Inv remote) (undisturbed : Undisturbed remote events) :
    AlwaysOne remote events ∧ FiresLatest remote events ↔
      remote.sleepSlots.card + entries remote events ≤ 1 := by
  induction events generalizing remote with
  | nil =>
      apply iff_of_true
      · exact ⟨inv.sleepSlots_card, trivial⟩
      · exact inv.sleepSlots_card
  | cons event events ih =>
      rcases undisturbed with ⟨calm, later⟩
      by_cases creates : remote.creates event = true
      · rcases step_creates inv creates with ⟨next, steps, more, kept⟩
        have count : entries remote (event :: events) = 1 + entries next events := by
          rw [entries, if_pos creates, steps]
          rfl
        rw [count]
        by_cases first : remote.sleepSlots.card = 0
        · rw [AlwaysOne, FiresLatest, steps]
          have rest := ih (kept first) (later _ steps)
          simp only [Option.mem_def, Option.some.injEq, forall_eq', reduceCtorEq, false_implies,
            implies_true, true_and, inv.sleepSlots_card]
          rw [rest, more, first]
          omega
        · apply iff_of_false
          · rintro ⟨always, _⟩
            have now : next.sleepSlots.card ≤ 1 := (always.2 _ steps).now
            omega
          · omega
      · rw [Bool.not_eq_true] at creates
        rcases step_keeps inv calm creates with ⟨reached, steps, ⟨kept, same⟩, fires⟩
        have count : entries remote (event :: events) = entries reached.1 events := by
          rw [entries, creates, steps]
          exact Nat.zero_add _
        have rest := ih kept (later _ steps)
        rw [count, AlwaysOne, FiresLatest, steps]
        simp only [Option.mem_def, Option.some.injEq, forall_eq', inv.sleepSlots_card, true_and]
        rw [← same, ← rest]
        constructor
        · exact fun ⟨always, _, latest⟩ => ⟨always, latest⟩
        · exact fun ⟨always, latest⟩ => ⟨always, fires, latest⟩

theorem start_inv (rtc : RtcConfig) : Inv (start rtc) ∧ (start rtc).sleepSlots.card = 0 := by
  have empty : (Remote.mk (powerUp.hwTsInit rtc) (fun _ => zeroID) [] none 0 fun _ => none).allocated =
      ∅ := Finset.filter_false_of_mem fun i _ => not_not_intro rfl
  have room : (Remote.mk (powerUp.hwTsInit rtc) (fun _ => zeroID) [] none 0 fun _ => none
      ).allocated.card < 6 := by
    rw [empty]
    decide
  rcases create_spec .buttonsOnInvokeTimerElapsed (hwTsInit_orderly rtc) room with ⟨loop, created⟩
  change Created _ (start rtc) _ _ at created
  have ids : (start rtc).ids = fun _ => zeroID := Function.update_eq_self ..
  obtain rfl : loop = zeroID := by
    calc
      loop = (start rtc).ids .buttonsOnInvokeTimerElapsed := by
        rw [created.ids, Function.update_self]
      _ = zeroID := by rw [ids]
  have grown := created.allocated_card
  rw [empty] at grown
  have none_yet : (start rtc).sleepSlots.card = 0 := by
    rw [created.sleepSlots_other nofun]
    apply Finset.card_eq_zero.mpr
    exact Finset.filter_false_of_mem fun i _ => not_and_of_not_left _ (not_not_intro rfl)
  have owners : ∀ i, (start rtc).server.callback i ≠ some .sleepEntryTimerHandler := by
    intro i
    rw [created.callback, Function.update_apply]
    split
    · exact nofun
    · exact nofun
  refine ⟨⟨⟨created.orderly, ?_, ?_, ?_, ?_⟩, ?_, trivial, Or.inl rfl, ?_, Nat.zero_le _⟩, none_yet⟩
  · intro i
    rw [created.status, created.callback, Function.update_apply, Function.update_apply]
    split
    · exact nofun
    · exact fun _ => rfl
  · intro handler
    rw [ids, created.status, Function.update_self]
    exact nofun
  · intro handler
    rw [ids, created.callback, Function.update_self]
    exact Or.inr rfl
  · exact fun i owner => absurd owner (owners i)
  · exact fun i _ owner => absurd owner (owners i)
  · rw [none_yet, grown]
    exact Nat.le_refl 1

/-- As long as `nnt_timeout_timer` makes no call on top of a half-done one, the handler has one
slot and fires for the last call of `APP_ZIGBEE_sleep_timer_enter`, exactly if
`APP_ZIGBEE_sleep_mode_entry` creates the timer once at most. -/
theorem sleep_timer_unique_iff (rtc : RtcConfig) (events : List Event)
    (undisturbed : Undisturbed (start rtc) events) :
    AlwaysOne (start rtc) events ∧ FiresLatest (start rtc) events ↔
      entries (start rtc) events ≤ 1 := by
  rcases start_inv rtc with ⟨inv, none_yet⟩
  rw [run_iff inv undisturbed, none_yet, Nat.zero_add]

end Remote

end Baelux.Timers

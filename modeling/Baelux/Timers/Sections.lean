import Baelux.Timers.Clock

/-! What the critical sections of the timer server leave: the wakeup timer is set up for the first
timer only, and each new setup takes the time that has elapsed off all of them. -/

namespace Baelux.Timers

open TimerServer

variable {Cb : Type}

structure Times.After (times : Times) (time : Nat) : Prop where
  linking : time ≤ times.linking
  rescheduling : times.linking ≤ times.rescheduling
  restarting : times.rescheduling ≤ times.restarting

namespace Clocked

/-! ## What a timer has left -/

section Accounting

variable {m m' : Clocked Cb} {times : Times} {i : TimerID} {new : Option TimerID}

structure Enough (m : Clocked Cb) (i : TimerID) : Prop where
  started_le : m.started i ≤ m.setup
  lost_le : m.lostBefore i ≤ m.lost
  small : (m.server.counterInit i).toNat + 2 ^ 16 ≤ 2 ^ 32
  enough : (m.server.counterInit i).toNat ≤
    (m.server.countLeft i).toNat + (m.setup - m.started i) * m.server.rate

/-- A timer with ticks left is behind by exactly what was lost in the setups since its start. -/
def Exact (m : Clocked Cb) (i : TimerID) : Prop :=
  m.server.countLeft i ≠ 0 →
    (m.server.countLeft i).toNat + (m.setup - m.started i) * m.server.rate =
      (m.server.counterInit i).toNat + (m.lost - m.lostBefore i) * m.server.rate

structure Renewed (m m' : Clocked Cb) (times : Times) (new : Option TimerID) : Prop where
  setup : m'.setup = times.restarting
  lost : m'.lost = m.lost + (times.restarting - times.rescheduling)
  config : m'.server.config = m.server.config
  old : ∀ i, some i ≠ new → m'.started i = m.started i ∧ m'.lostBefore i = m.lostBefore i ∧
    m'.server.counterInit i = m.server.counterInit i ∧
    (m'.server.status i = .running → m.server.status i = .running ∧
      (m'.server.countLeft i).toNat =
        (m.server.countLeft i).toNat - m.server.elapsedIn (times.rescheduling - m.setup))
  fresh : ∀ i, some i = new → m'.lostBefore i = m.lost ∧
    (m'.server.counterInit i).toNat + 2 ^ 16 ≤ 2 ^ 32 ∧
    (m'.started i = times.rescheduling ∧
        (m'.server.countLeft i).toNat = (m'.server.counterInit i).toNat ∨
      m.server.currentRunningTimerID ≠ none ∧ m'.started i = times.linking ∧
        (m'.server.countLeft i).toNat = (m'.server.counterInit i).toNat +
          m.server.elapsedIn (times.linking - m.setup) -
            m.server.elapsedIn (times.rescheduling - m.setup))

theorem rate_eq {s t : TimerServer Cb} (config : t.config = s.config) : t.rate = s.rate := by
  simp only [TimerServer.config, Prod.mk.injEq] at config
  rw [TimerServer.rate, TimerServer.rate, config.1, config.2.1]

theorem span_mul {a b c rate : Nat} (first : a ≤ b) (second : b ≤ c) :
    (c - a) * rate = (b - a) * rate + (c - b) * rate := by
  rw [← Nat.add_mul]
  congr 1
  omega

theorem elapsedIn_between {s : TimerServer Cb} (whole : s.WholeRate) (after : times.After m.setup) :
    s.elapsedIn (times.rescheduling - m.setup) ≤ s.elapsedIn (times.linking - m.setup) +
      (times.rescheduling - times.linking) * s.rate := by
  have bound := elapsedIn_add_le whole (times.linking - m.setup)
    (times.rescheduling - times.linking)
  have order := after.linking
  have order' := after.rescheduling
  rwa [show times.linking - m.setup + (times.rescheduling - times.linking) =
    times.rescheduling - m.setup by omega] at bound

theorem Renewed.enough (renewed : Renewed m m' times new) (whole : m.server.WholeRate)
    (after : times.After m.setup) (running : m'.server.status i = .running)
    (before : ∀ i, m.server.status i = .running → Enough m i) : Enough m' i := by
  have rate := rate_eq renewed.config
  have order := after.linking
  have order' := after.rescheduling
  have order'' := after.restarting
  by_cases added : some i = new
  · rcases renewed.fresh i added with ⟨lostBefore, small, counts⟩
    have lost_le : m'.lostBefore i ≤ m'.lost := by
      rw [lostBefore, renewed.lost]
      exact Nat.le_add_right _ _
    rcases counts with ⟨started, left⟩ | ⟨_, started, left⟩
    · refine ⟨?_, lost_le, small, ?_⟩
      · rw [started, renewed.setup]
        exact order''
      · rw [left]
        exact Nat.le_add_right _ _
    · refine ⟨?_, lost_le, small, ?_⟩
      · rw [started, renewed.setup]
        exact order'.trans order''
      · have between := elapsedIn_between whole after
        rw [left, started, renewed.setup, rate, span_mul order' order'']
        omega
  · rcases renewed.old i added with ⟨started, lostBefore, init, counts⟩
    rcases counts running with ⟨running', left⟩
    have enough := before i running'
    have elapsed := elapsedIn_le whole (times.rescheduling - m.setup)
    refine ⟨?_, ?_, ?_, ?_⟩
    · rw [started, renewed.setup]
      exact enough.started_le.trans (by omega)
    · rw [lostBefore, renewed.lost]
      exact enough.lost_le.trans (Nat.le_add_right _ _)
    · rw [init]
      exact enough.small
    · have counted := enough.enough
      rw [init, rate, left, started, renewed.setup,
        span_mul (enough.started_le.trans (order.trans order')) order'',
        span_mul enough.started_le (order.trans order')]
      omega

/-- The wakeup timer is set up again before the counter has shown the same value twice. -/
def Prompt (m : Clocked Cb) (times : Times) : Prop :=
  times.rescheduling - m.setup < m.server.synchPrescalerUserConfig.toNat

theorem elapsedIn_prompt {s : TimerServer Cb} {ticks : Nat}
    (fits : s.synchPrescalerUserConfig.toNat * s.rate ≤ 2 ^ 16)
    (prompt : ticks < s.synchPrescalerUserConfig.toNat) : s.elapsedIn ticks = ticks * s.rate := by
  rw [elapsedIn, Nat.mod_eq_of_lt prompt]
  cases rate : s.rate with
  | zero => rfl
  | succ n =>
      apply Nat.mod_eq_of_lt
      calc
        _ < s.synchPrescalerUserConfig.toNat * (n + 1) :=
          Nat.mul_lt_mul_of_pos_right prompt (Nat.succ_pos n)
        _ ≤ 2 ^ 16 := rate ▸ fits

theorem Renewed.exact (renewed : Renewed m m' times new)
    (fits : m.server.synchPrescalerUserConfig.toNat * m.server.rate ≤ 2 ^ 16)
    (after : times.After m.setup)
    (prompt : m.server.currentRunningTimerID ≠ none → m.Prompt times)
    (busy : ∀ i, m.server.status i = .running → m.server.currentRunningTimerID ≠ none)
    (running : m'.server.status i = .running)
    (enough : ∀ i, m.server.status i = .running → Enough m i)
    (before : ∀ i, m.server.status i = .running → Exact m i) : Exact m' i := by
  have rate := rate_eq renewed.config
  have order := after.linking
  have order' := after.rescheduling
  have order'' := after.restarting
  intro remains
  have remains' : (m'.server.countLeft i).toNat ≠ 0 := fun zero => remains (BitVec.eq_of_toNat_eq zero)
  by_cases added : some i = new
  · rcases renewed.fresh i added with ⟨lostBefore, _, ⟨started, left⟩ | ⟨was, started, left⟩⟩
    · rw [left, started, lostBefore, renewed.setup, renewed.lost, Nat.add_sub_cancel_left, rate]
    · have soon := prompt was
      rw [Prompt] at soon
      have elapsed := elapsedIn_prompt fits soon
      have earlier : m.server.elapsedIn (times.linking - m.setup) = _ :=
        elapsedIn_prompt fits (by omega)
      rw [started, lostBefore, renewed.setup, renewed.lost, Nat.add_sub_cancel_left, rate,
        span_mul order' order'']
      rw [elapsed, earlier, span_mul order order'] at left
      omega
  · rcases renewed.old i added with ⟨started, lostBefore, init, counts⟩
    rcases counts running with ⟨running', left⟩
    have started_le := (enough i running').started_le
    have lost_le := (enough i running').lost_le
    have counted := before i running' (by
      intro zero
      rw [zero] at left
      exact remains' (by simpa using left))
    have elapsed := elapsedIn_prompt fits (prompt (busy i running'))
    rw [init, rate, started, lostBefore, renewed.setup, renewed.lost,
      span_mul (started_le.trans (order.trans order')) order'',
      span_mul started_le (order.trans order'), Nat.sub_add_comm lost_le, Nat.add_mul]
    rw [elapsed] at left
    omega

end Accounting

/-! ## What the sections do -/

section Sections

variable {m m' : Clocked Cb} {times : Times} {l : List TimerID} {timerID : TimerID}
variable {s t : TimerServer Cb} {ssr : SsrReadings}

structure Counted (m : Clocked Cb) (l : List TimerID) : Prop where
  listed : Listed m.server l
  ordered : Ordered m.server l
  moved : m.server.previousRunningTimerID ≠ m.server.currentRunningTimerID
  whole : m.server.WholeRate
  reference : m.server.currentRunningTimerID ≠ none →
    m.server.ssrValueOnLastSetup = (m.server.ssrAt m.setup).setWidth 32

structure Rearmed (m m' : Clocked Cb) (times : Times) (new : Option TimerID) : Prop
    extends Renewed m m' times new where
  awake : m'.server.wakeupTimerEnabled = true ∨ m'.server.pendingIrq = true
  value_le : ∀ current, m'.server.currentRunningTimerID = some current →
    m'.value.toNat ≤ (m'.server.countLeft current).toNat
  value : ∀ current, m'.server.currentRunningTimerID = some current →
    m'.server.wakeupTimerLimitation ≠ .overpassed →
      m'.value.toNat = (m'.server.countLeft current).toNat

structure Left (m m' : Clocked Cb) (times : Times) (new : Option TimerID) : Prop where
  counted : ∃ l, Counted m' l
  config : m'.server.config = m.server.config
  setup : m'.setup = times.restarting ∨ m'.setup = m.setup
  irq : m'.server.wakeupTimerEnabled = true ∨ m'.server.pendingIrq = true →
    m'.server.currentRunningTimerID ≠ none
  busy : m'.server.currentRunningTimerID ≠ none → Rearmed m m' times new

theorem ssrAt_eq (config : t.config = s.config) (time : Nat) : t.ssrAt time = s.ssrAt time := by
  simp only [TimerServer.config, Prod.mk.injEq] at config
  rw [ssrAt, ssrAt, config.2.2.1]

theorem elapsedIn_eq (config : t.config = s.config) (ticks : Nat) :
    t.elapsedIn ticks = s.elapsedIn ticks := by
  have rate := rate_eq config
  simp only [TimerServer.config, Prod.mk.injEq] at config
  rw [elapsedIn, elapsedIn, rate, config.2.2.1]

theorem readings_eq (config : m'.server.config = m.server.config) (times : Times) :
    m'.readings times = m.readings times := by
  rw [readings, readings, ssrAt_eq config, ssrAt_eq config, ssrAt_eq config]

theorem wholeRate_eq (config : t.config = s.config) (whole : s.WholeRate) : t.WholeRate := by
  have rate := rate_eq config
  simp only [TimerServer.config, Prod.mk.injEq] at config
  exact ⟨config.2.2.1 ▸ whole.synch_pos, config.2.2.1 ▸ whole.synch_le,
    config.2.1 ▸ whole.asynch_le, by rw [config.1, config.2.1, rate]; exact whole.asynch_eq⟩

structure SetAgain (m m' : Clocked Cb) (l : List TimerID) (times : Times) (ssr : SsrReadings) :
    Prop where
  rescheduled : Rescheduled m.server m'.server l ssr m'.value
  setup : m'.setup = times.restarting
  lost : m'.lost = m.lost + (times.restarting - times.rescheduling)
  started : m'.started = m.started
  lostBefore : m'.lostBefore = m.lostBefore

theorem rescheduleTimerList_setAgain (listed : Listed m.server l)
    (busy : m.server.currentRunningTimerID ≠ none) :
    ∃ m', m.rescheduleTimerList times ssr = some m' ∧ SetAgain m m' l times ssr := by
  unfold rescheduleTimerList
  split
  · exact absurd ‹_› busy
  · rename_i current first
    rcases @rescheduleTimerList_rescheduled _ _ _ ssr _ listed.toChained first with
      ⟨t, ends, rescheduled⟩
    rw [ends]
    exact ⟨_, rfl, rescheduled, rfl, rfl, rfl, rfl⟩

theorem SetAgain.counted (again : SetAgain m m' l times ssr)
    (shown : ssr.restarting = m.server.ssrAt times.restarting) (listed : Listed m.server l) (ordered : Ordered m.server l)
    (moved : m.server.previousRunningTimerID ≠ m.server.currentRunningTimerID)
    (whole : m.server.WholeRate) : Counted m' l := by
  have rescheduled := again.rescheduled
  refine ⟨rescheduled.recounted.listed listed, rescheduled.ordered listed.toChained ordered, ?_,
    wholeRate_eq rescheduled.config whole, fun _ => ?_⟩
  · rw [rescheduled.previous, rescheduled.recounted.current]
    exact moved
  · rw [rescheduled.setup, again.setup, ssrAt_eq rescheduled.config, shown]

structure Readied (m m₁ : Clocked Cb) (l : List TimerID) (times : Times) (new : Option TimerID) :
    Prop where
  lost : m₁.lost = m.lost
  config : m₁.server.config = m.server.config
  old : ∀ i, some i ≠ new → m₁.started i = m.started i ∧ m₁.lostBefore i = m.lostBefore i ∧
    m₁.server.counterInit i = m.server.counterInit i ∧
    (i ∈ l → m.server.status i = .running ∧ m₁.server.countLeft i = m.server.countLeft i ∧
      (m₁.server.returnTimeElapsed (m.server.ssrAt times.rescheduling)).toNat =
        m.server.elapsedIn (times.rescheduling - m.setup))
  fresh : ∀ i, some i = new → i ∈ l ∧ m₁.lostBefore i = m.lost ∧
    (m₁.server.counterInit i).toNat + 2 ^ 16 ≤ 2 ^ 32 ∧
    (m₁.started i = times.rescheduling ∧
        (m₁.server.countLeft i).toNat = (m₁.server.counterInit i).toNat ∧
        (m₁.server.returnTimeElapsed (m.server.ssrAt times.rescheduling)).toNat = 0 ∨
      m.server.currentRunningTimerID ≠ none ∧ m₁.started i = times.linking ∧
        (m₁.server.countLeft i).toNat = (m₁.server.counterInit i).toNat +
          m.server.elapsedIn (times.linking - m.setup) ∧
        (m₁.server.returnTimeElapsed (m.server.ssrAt times.rescheduling)).toNat =
          m.server.elapsedIn (times.rescheduling - m.setup))

theorem Readied.rearmed {m₁ : Clocked Cb} {new : Option TimerID}
    (readied : Readied m m₁ l times new) (listed : Listed m₁.server l)
    (again : SetAgain m₁ m' l times (m.readings times)) : Rearmed m m' times new := by
  have rescheduled := again.rescheduled
  have running : ∀ i, m'.server.status i = .running → i ∈ l := by
    intro i runs
    rw [rescheduled.recounted.status] at runs
    exact (listed.running i).mpr runs
  refine ⟨⟨again.setup, ?_, rescheduled.config.trans readied.config, ?_, ?_⟩, rescheduled.awake, ?_,
    ?_⟩
  · rw [again.lost, readied.lost]
  · intro i kept
    rcases readied.old i kept with ⟨started, lostBefore, init, left⟩
    refine ⟨?_, ?_, ?_, fun runs => ?_⟩
    · rw [again.started, started]
    · rw [again.lostBefore, lostBefore]
    · rw [rescheduled.counterInit, init]
    · have member := running i runs
      rcases left member with ⟨ran, left, elapsed⟩
      refine ⟨ran, ?_⟩
      rw [rescheduled.countLeft i member, left]
      exact congrArg _ elapsed
  · intro i added
    rcases readied.fresh i added with ⟨member, lostBefore, small, counts⟩
    have left : (m'.server.countLeft i).toNat = (m₁.server.countLeft i).toNat -
      (m₁.server.returnTimeElapsed (m.server.ssrAt times.rescheduling)).toNat :=
        rescheduled.countLeft i member
    rw [again.started, again.lostBefore, rescheduled.counterInit]
    refine ⟨lostBefore, small, ?_⟩
    rcases counts with ⟨started, count, elapsed⟩ | ⟨was, started, count, elapsed⟩
    · rw [elapsed, count] at left
      exact Or.inl ⟨started, left⟩
    · rw [elapsed, count] at left
      exact Or.inr ⟨was, started, left⟩
  · intro current first
    rw [rescheduled.recounted.current] at first
    exact rescheduled.value_le current first
  · intro current first whole
    rw [rescheduled.recounted.current] at first
    exact rescheduled.value current first whole

theorem Counted.busy (counted : Counted m l) (member : timerID ∈ l) :
    m.server.currentRunningTimerID ≠ none := by
  intro empty
  have thread := counted.listed.thread
  rw [empty] at thread
  cases l with
  | nil => cases member
  | cons x rest => cases thread.1

theorem Counted.unlink (counted : Counted m l) (ssrReadRequested : Bool) (member : timerID ∈ l) :
    ∃ l', (∀ i, i ∈ l' ↔ i ∈ l ∧ i ≠ timerID) ∧
      Counted { m with server := m.server.unlinkTimer timerID ssrReadRequested } l' := by
  have unlinked := unlinkTimer_unlinked (s := m.server) timerID ssrReadRequested
  rcases unlinkTimer_spec ssrReadRequested counted.listed member with ⟨⟨l', listed⟩, status, _⟩
  have members : ∀ i, i ∈ l' ↔ i ∈ l ∧ i ≠ timerID := by
    intro i
    rw [listed.running, status, Function.update_apply, counted.listed.running]
    split
    · simp [*]
    · simp [*]
  refine ⟨l', members, listed, ?_, ?_, wholeRate_eq unlinked.config counted.whole, ?_⟩
  · exact unlinkTimer_ordered ssrReadRequested counted.listed.toChained counted.ordered member
      fun i here => ((members i).mp here).1
  · rcases unlinked.moved with ⟨_, previous, current⟩ | ⟨_, previous, _⟩
    · rw [previous, current]
      exact counted.moved
    · rw [previous]
      intro again
      have thread := listed.thread
      rw [← again] at thread
      exact ((members timerID).mp thread.start_mem).2 rfl
  · intro busy
    rw [unlinked.setup busy, counted.reference (counted.busy member)]
    exact congrArg _ (ssrAt_eq unlinked.config m.setup).symm

theorem Counted.wakeup (counted : Counted m l) (enabled pending : Bool) : Counted { m with
    server := { m.server with wakeupTimerEnabled := enabled, pendingIrq := pending } } l :=
  ⟨⟨counted.listed.toChained.congr rfl rfl rfl, counted.listed.running⟩, counted.ordered,
    counted.moved, ⟨counted.whole.1, counted.whole.2, counted.whole.3, counted.whole.4⟩,
    counted.reference⟩

theorem Counted.elapsed (counted : Counted m l) (busy : m.server.currentRunningTimerID ≠ none)
    (config : t.config = m.server.config)
    (known : t.ssrValueOnLastSetup = m.server.ssrValueOnLastSetup) {time : Nat}
    (later : m.setup ≤ time) : (t.returnTimeElapsed (m.server.ssrAt time)).toNat =
      m.server.elapsedIn (time - m.setup) := by
  rw [← ssrAt_eq config, ← elapsedIn_eq config]
  apply returnTimeElapsed_toNat (wholeRate_eq config counted.whole) later
  rw [known, counted.reference busy, ssrAt_eq config]

theorem hwTsStop_left (counted : Counted m l) (later : m.setup ≤ times.rescheduling)
    (running : m.server.status timerID = .running) :
    ∃ m', m.hwTsStop timerID times (m.readings times) = some m' ∧ Left m m' times none := by
  have member := (counted.listed.running timerID).mpr running
  have unlinked := unlinkTimer_unlinked (s := m.server) timerID true
  rcases counted.unlink true member with ⟨l', members, counted'⟩
  unfold hwTsStop
  rw [if_pos running]
  dsimp only
  split
  · rename_i empty
    exact ⟨_, rfl, ⟨l', counted'.wakeup false false⟩, unlinked.config, Or.inr rfl, by simp,
      fun busy => absurd empty busy⟩
  · rename_i current first
    have busy : (m.server.unlinkTimer timerID true).currentRunningTimerID ≠ none := by
      rw [first]
      exact nofun
    rw [if_pos counted'.moved]
    rcases rescheduleTimerList_setAgain counted'.listed busy with ⟨m', ends, again⟩
    have readied : Readied m { m with server := m.server.unlinkTimer timerID true } l' times
        none := by
      refine ⟨rfl, unlinked.config, fun i _ => ⟨rfl, rfl, congrFun unlinked.counterInit i, ?_⟩,
        nofun⟩
      intro here
      refine ⟨(counted.listed.running i).mp ((members i).mp here).1,
        congrFun unlinked.countLeft i, ?_⟩
      exact counted.elapsed (counted.busy member) unlinked.config (unlinked.setup busy) later
    have rearmed := readied.rearmed counted'.listed again
    refine ⟨m', ends, ⟨l', ?_⟩, rearmed.config, Or.inl rearmed.setup, ?_, fun _ => rearmed⟩
    · exact again.counted (ssrAt_eq unlinked.config _).symm counted'.listed counted'.ordered
        counted'.moved counted'.whole
    · intro _
      rw [again.rescheduled.recounted.current]
      exact busy

private theorem begun (s : TimerServer Cb) (timerID : TimerID) (timeoutTicks : BitVec 32) :
    ∃ u, u = s.modify timerID (fun c => { c with
        timerIDStatus := .running
        countLeft := timeoutTicks
        counterInit := timeoutTicks }) ∧ u.next = s.next ∧ u.prev = s.prev ∧
      u.status = Function.update s.status timerID .running ∧
      u.countLeft = Function.update s.countLeft timerID timeoutTicks ∧
      u.counterInit = Function.update s.counterInit timerID timeoutTicks := by
  refine ⟨_, rfl, next_kept fun _ => rfl, prev_kept fun _ => rfl, ?_, ?_, ?_⟩
  · funext j
    rw [status_modify, Function.update_apply]
  · funext j
    rw [countLeft, modify_apply, Function.update_apply]
    split <;> rfl
  · funext j
    rw [counterInit, modify_apply, Function.update_apply]
    split <;> rfl

theorem startTimer_left (timeoutTicks : BitVec 32) (counted : Counted m l) (new : timerID ∉ l)
    (small : timeoutTicks.toNat + 2 ^ 16 ≤ 2 ^ 32) (after : times.After m.setup) :
    ∃ m', m.startTimer timerID timeoutTicks times (m.readings times) = some m' ∧
      Left m m' times (some timerID) := by
  have later := after.linking
  have later' := later.trans after.rescheduling
  rcases begun m.server timerID timeoutTicks with
    ⟨u, stored, next, prev, status, countLeft, counterInit⟩
  have current : u.currentRunningTimerID = m.server.currentRunningTimerID := stored ▸ rfl
  have previous : u.previousRunningTimerID = m.server.previousRunningTimerID := stored ▸ rfl
  have config : u.config = m.server.config := stored ▸ rfl
  have known : u.ssrValueOnLastSetup = m.server.ssrValueOnLastSetup := stored ▸ rfl
  have chained : Chained u l := counted.listed.toChained.congr next prev current
  have ordered : Ordered u l := by
    intro i member j follows
    have member' := chained.thread.next_member member follows
    rw [countLeft, Function.update_of_ne (ne_of_mem_of_not_mem member new),
      Function.update_of_ne (ne_of_mem_of_not_mem member' new)]
    exact counted.ordered i member j (next ▸ follows)
  rcases linkTimer_spec (m.readings times) chained new with
    ⟨t, timeElapsed, l', links, same, chained', members, busy⟩
  have linked := linkTimer_linked links
  have ordered' := linkTimer_ordered chained new ordered links members
  have listed' : Listed t l' := by
    refine ⟨chained', fun i => ?_⟩
    rw [members, same.status, status, Function.update_apply, counted.listed.running]
    split <;> simp [*]
  have moved : t.previousRunningTimerID ≠ t.currentRunningTimerID := by
    rcases linked.moved with ⟨before, now⟩ | ⟨before, now⟩
    · rw [before, now, previous, current]
      exact counted.moved
    · rw [before, now]
      intro again
      have thread := chained.thread
      rw [again] at thread
      exact new thread.start_mem
  unfold startTimer
  dsimp only [Option.bind_eq_bind]
  rw [← stored, links, Option.bind_some]
  dsimp only
  rw [if_pos moved]
  rcases @rescheduleTimerList_setAgain _ { m with
      server := t
      started := Function.update m.started timerID
        (if u.currentRunningTimerID = none then times.rescheduling else times.linking)
      lostBefore := Function.update m.lostBefore timerID m.lost } times _
    (m.readings times) listed' busy with ⟨m', ends, again⟩
  have config' : t.config = m.server.config := linked.config.trans config
  have counted' := again.counted (ssrAt_eq config' _).symm listed' ordered' moved
    (wholeRate_eq config' counted.whole)
  -- The time that has elapsed, where there was a first timer.
  have elapsed : m.server.currentRunningTimerID ≠ none →
      timeElapsed.toNat = m.server.elapsedIn (times.linking - m.setup) ∧
      (t.returnTimeElapsed (m.server.ssrAt times.rescheduling)).toNat =
        m.server.elapsedIn (times.rescheduling - m.setup) := by
    intro was
    rcases linked.setup with ⟨empty, _⟩ | ⟨_, read, kept⟩
    · exact absurd (current.symm.trans empty) was
    · rw [read]
      exact ⟨counted.elapsed was config known later,
        counted.elapsed was config' (kept.trans known) later'⟩
  have readied : Readied m { m with
      server := t
      started := Function.update m.started timerID
        (if u.currentRunningTimerID = none then times.rescheduling else times.linking)
      lostBefore := Function.update m.lostBefore timerID m.lost } l' times (some timerID) := by
    refine ⟨rfl, config', fun i other => ?_, fun i same => ?_⟩
    · have apart : i ≠ timerID := fun same => other (congrArg some same)
      refine ⟨Function.update_of_ne apart .., Function.update_of_ne apart .., ?_, fun here => ?_⟩
      · rw [linked.counterInit, counterInit, Function.update_of_ne apart]
      · have member := ((members i).mp here).resolve_right apart
        refine ⟨(counted.listed.running i).mp member, ?_, (elapsed (counted.busy member)).2⟩
        rw [linked.countLeft, Function.update_of_ne apart, countLeft, Function.update_of_ne apart]
    · obtain rfl := Option.some.inj same
      have whole : t.counterInit i = timeoutTicks := by
        rw [linked.counterInit, counterInit, Function.update_self]
      have count : t.countLeft i = timeoutTicks + timeElapsed.setWidth 32 := by
        rw [linked.countLeft, Function.update_self, countLeft, Function.update_self]
      refine ⟨(members i).mpr (Or.inr rfl), Function.update_self .., ?_, ?_⟩
      · rw [whole]
        exact small
      dsimp only
      rw [Function.update_self, whole, count]
      rcases linked.setup with ⟨empty, nothing, forbidden⟩ | ⟨was, _⟩
      · refine Or.inl ⟨if_pos empty, ?_, ?_⟩
        · rw [nothing]
          simp
        · rw [returnTimeElapsed, if_neg (not_not_intro forbidden)]
          rfl
      · rcases elapsed (current ▸ was) with ⟨linking, rescheduling⟩
        refine Or.inr ⟨current ▸ was, if_neg was, ?_, rescheduling⟩
        have few := timeElapsed.isLt
        rw [BitVec.toNat_add, BitVec.toNat_setWidth_of_le (by decide), Nat.mod_eq_of_lt (by omega),
          linking]
  have rearmed := readied.rearmed listed' again
  refine ⟨m', ends, ⟨l', counted'⟩, rearmed.config, Or.inl rearmed.setup, ?_, fun _ => rearmed⟩
  intro _
  rw [again.rescheduled.recounted.current]
  exact busy

theorem Left.before {m₁ : Clocked Cb} {new : Option TimerID} (left : Left m₁ m' times new)
    (config : m₁.server.config = m.server.config) (setup : m₁.setup = m.setup)
    (lost : m₁.lost = m.lost) (started : m₁.started = m.started)
    (lostBefore : m₁.lostBefore = m.lostBefore)
    (init : m₁.server.counterInit = m.server.counterInit)
    (countLeft : m₁.server.countLeft = m.server.countLeft)
    (busy : m₁.server.currentRunningTimerID ≠ none → m.server.currentRunningTimerID ≠ none)
    (running : ∀ i, m₁.server.status i = .running → m.server.status i = .running) :
    Left m m' times new := by
  refine ⟨left.counted, left.config.trans config, setup ▸ left.setup, left.irq, fun still => ?_⟩
  have rearmed := left.busy still
  refine ⟨⟨rearmed.setup, lost ▸ rearmed.lost, rearmed.config.trans config, fun i other => ?_,
    fun i added => ?_⟩, rearmed.awake, rearmed.value_le, rearmed.value⟩
  · have old := rearmed.old i other
    rw [started, lostBefore, init, countLeft, elapsedIn_eq config, setup] at old
    exact ⟨old.1, old.2.1, old.2.2.1, fun runs => ⟨running i (old.2.2.2 runs).1,
      (old.2.2.2 runs).2⟩⟩
  · have fresh := rearmed.fresh i added
    rw [lost, elapsedIn_eq config, elapsedIn_eq config, setup] at fresh
    exact ⟨fresh.1, fresh.2.1, fresh.2.2.imp id fun later => ⟨busy later.1, later.2⟩⟩

def Due (m : Clocked Cb) (notification : Option (Notification Cb)) : Prop :=
  ∀ n ∈ notification, m.server.currentRunningTimerID = some n.timerID ∧
    m.server.wakeupTimerLimitation ≠ .overpassed

theorem Left.of_taken {new : Option TimerID} (left : Left m.taken m' times new) :
    Left m m' times new :=
  left.before rfl rfl rfl rfl rfl rfl rfl id fun _ runs => runs

theorem hwTsRtcWakeupHandler_left (counted : Counted m l) (after : times.After m.setup)
    (busy : m.server.currentRunningTimerID ≠ none)
    (small : ∀ i, m.server.status i = .running →
      (m.server.counterInit i).toNat + 2 ^ 16 ≤ 2 ^ 32) :
    ∃ m' notification new,
      m.hwTsRtcWakeupHandler times (m.readings times) = some (m', notification) ∧
      Left m m' times new ∧ Due m notification := by
  have taken : Counted m.taken l := counted.wakeup false false
  have later : m.taken.setup ≤ times.rescheduling := after.linking.trans after.rescheduling
  have readings : m.readings times = m.taken.readings times := rfl
  rw [readings]
  unfold hwTsRtcWakeupHandler
  dsimp only
  split
  · exact absurd ‹_› busy
  · rename_i current first
    have member : current ∈ l := by
      have thread := taken.listed.thread
      rw [first] at thread
      exact thread.start_mem
    have running : (m.taken.server.aTimerContext current).timerIDStatus = .running :=
      (taken.listed.running current).mp member
    rw [if_pos running]
    split
    · rename_i reached
      have due : ∀ id callback, Due m (some ⟨id, current, callback⟩) := by
        rintro id callback n ⟨⟩
        exact ⟨first, reached⟩
      split
      · rcases taken.unlink false member with ⟨l', members, unlinked⟩
        have counts := unlinkTimer_unlinked (s := m.taken.server) current false
        have new : current ∉ l' := fun here => ((members current).mp here).2 rfl
        have init := congrFun counts.counterInit current
        have room := small current running
        rw [show m.server.counterInit current = _ from init.symm] at room
        rcases startTimer_left _ unlinked new room after with ⟨m', ends, left⟩
        have stopped := mt (unlinked.listed.running current).mpr new
        have left' : Left m.taken m' times (some current) := by
          apply left.before counts.config rfl rfl rfl rfl counts.counterInit counts.countLeft
            fun _ => busy
          intro i runs
          exact (taken.listed.running i).mp
            ((members i).mp ((unlinked.listed.running i).mpr runs)).1
        rw [readings_eq (m := m.taken) counts.config times] at ends
        rw [stopRunning, if_neg stopped, Option.bind_eq_bind, Option.bind_some]
        rw [TimerServer.counterInit] at ends
        dsimp only
        rw [ends]
        exact ⟨m', _, some current, rfl, left'.of_taken, due _ _⟩
      · rcases hwTsStop_left taken later running with ⟨m', ends, left⟩
        rw [ends]
        exact ⟨m', _, none, rfl, left.of_taken, due _ _⟩
    · rcases @rescheduleTimerList_setAgain _ _ _ _ (m.taken.readings times) taken.listed busy with
        ⟨m', ends, again⟩
      have readied : Readied m.taken m.taken l times none := by
        refine ⟨rfl, rfl, fun i _ => ⟨rfl, rfl, rfl, fun here => ?_⟩,
          fun i same => absurd same (Option.some_ne_none i)⟩
        exact ⟨(taken.listed.running i).mp here, rfl, taken.elapsed busy rfl rfl later⟩
      have rearmed := readied.rearmed taken.listed again
      rw [ends]
      refine ⟨m', none, none, rfl, Left.of_taken ⟨⟨l, ?_⟩, rearmed.config, Or.inl rearmed.setup, ?_,
        fun _ => rearmed⟩, fun n calls => absurd calls (Option.not_mem_none n)⟩
      · exact again.counted rfl taken.listed taken.ordered taken.moved taken.whole
      · intro _
        rw [again.rescheduled.recounted.current]
        exact busy

end Sections

end Clocked

end Baelux.Timers

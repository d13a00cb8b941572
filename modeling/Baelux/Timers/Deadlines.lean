import Baelux.Library.Simulation
import Baelux.Timers.Sections

/-! When callbacks are called, over any run of the timer server: the counts stand for the time since
each timer was started, however often the wakeup timer has been set up for others in between. -/

namespace Baelux.Timers

open TimerServer Simulation

variable {Cb : Type}

/-- What the sections of the timer server do, each between disabling and enabling interrupts. -/
inductive Op (Cb : Type) where
  | create (timerProcessID : BitVec 32) (timerMode : TimerMode) (pftimeoutHandler : Cb)
  | stop (timerID : TimerID) (times : Times)
  /-- The critical section of `HW_TS_Start`. -/
  | start (timerID : TimerID) (timeoutTicks : BitVec 32) (times : Times)
  | wakeup (entry : Nat) (times : Times)

def Op.times : Op Cb → Option Times
  | .create .. => none
  | .stop _ times => some times
  | .start _ _ times => some times
  | .wakeup _ times => some times

namespace Clocked

def step (m : Clocked Cb) : Op Cb → Option (Clocked Cb × Option (Notification Cb))
  | .create timerProcessID timerMode pftimeoutHandler =>
      some ({ m with
        server := (m.server.hwTsCreate timerProcessID timerMode pftimeoutHandler).1 }, none)
  | .stop timerID times =>
      (m.hwTsStop timerID times (m.readings times)).map fun next =>
        ({ next with now := times.restarting }, none)
  | .start timerID timeoutTicks times =>
      (m.startTimer timerID timeoutTicks times (m.readings times)).map fun next =>
        ({ next with now := times.restarting }, none)
  | .wakeup _ times =>
      (m.hwTsRtcWakeupHandler times (m.readings times)).map fun r =>
        ({ r.1 with now := times.restarting }, r.2)

/-- What is assumed of a step. Only a created timer is started, with a count that leaves room for
what has elapsed, and the wakeup timer expires at most `early` of its ticks before the value that
it was given. -/
def Assumed (early : Nat) (m : Clocked Cb) : Op Cb → Prop
  | .create .. => True
  | .stop _ times => times.After m.now
  | .start timerID timeoutTicks times =>
      m.server.status timerID = .created ∧ timeoutTicks.toNat + 2 ^ 16 ≤ 2 ^ 32 ∧
        times.After m.now
  | .wakeup entry times =>
      (m.server.wakeupTimerEnabled = true ∨ m.server.pendingIrq = true) ∧
        m.value.toNat ≤ (entry - m.setup) * m.server.rate + early ∧ m.now ≤ entry ∧
          times.After entry

def system (early : Nat) : System (Clocked Cb) (Op Cb) where
  step m op := (m.step op).map Prod.fst
  ok := Assumed early

def start (rtc : RtcConfig) (time : Nat) : Clocked Cb :=
  ⟨powerUp.hwTsInit rtc, time, time, 0, fun _ => time, 0, fun _ => 0⟩

section Runs

variable {m m' : Clocked Cb} {times : Times} {l : List TimerID} {i : TimerID}
variable {op : Op Cb} {early : Nat} {new : Option TimerID}

structure Timely (m : Clocked Cb) : Prop where
  counted : ∃ l, Counted m l
  setup_le : m.setup ≤ m.now
  irq : m.server.wakeupTimerEnabled = true ∨ m.server.pendingIrq = true →
    m.server.currentRunningTimerID ≠ none
  awake : m.server.currentRunningTimerID ≠ none →
    m.server.wakeupTimerEnabled = true ∨ m.server.pendingIrq = true
  value_le : ∀ current, m.server.currentRunningTimerID = some current →
    m.value.toNat ≤ (m.server.countLeft current).toNat
  value : ∀ current, m.server.currentRunningTimerID = some current →
    m.server.wakeupTimerLimitation ≠ .overpassed →
      m.value.toNat = (m.server.countLeft current).toNat
  enough : ∀ i, m.server.status i = .running → Enough m i

theorem Timely.whole (timely : Timely m) : m.server.WholeRate := by
  rcases timely.counted with ⟨l, counted⟩
  exact counted.whole

theorem Counted.current (counted : Counted m l) (running : m.server.status i = .running) :
    m.server.currentRunningTimerID ≠ none :=
  counted.busy ((counted.listed.running i).mpr running)

theorem Timely.busy (timely : Timely m) (running : m.server.status i = .running) :
    m.server.currentRunningTimerID ≠ none := by
  rcases timely.counted with ⟨l, counted⟩
  exact counted.current running

theorem Timely.left (timely : Timely m) (after : times.After m.now) (left : Left m m' times new) :
    Timely { m' with now := times.restarting } := by
  have after' : times.After m.setup :=
    ⟨timely.setup_le.trans after.linking, after.rescheduling, after.restarting⟩
  rcases left.counted with ⟨l, counted⟩
  refine ⟨⟨l, counted.listed, counted.ordered, counted.moved, counted.whole, counted.reference⟩, ?_,
    left.irq, fun busy => (left.busy busy).awake, fun current first => ?_,
    fun current first => ?_, fun i running => ?_⟩
  · rcases left.setup with again | before
    · exact again.le
    · have order := after'.linking
      have order' := after'.rescheduling
      have order'' := after'.restarting
      show m'.setup ≤ times.restarting
      omega
  · exact (left.busy (first ▸ nofun)).value_le current first
  · exact (left.busy (first ▸ nofun)).value current first
  · have rearmed := left.busy (counted.current running)
    have enough := rearmed.enough timely.whole after' running timely.enough
    exact ⟨enough.started_le, enough.lost_le, enough.small, enough.enough⟩

theorem hwTsCreate_counts (s : TimerServer Cb) (timerProcessID : BitVec 32) (timerMode : TimerMode)
    (cb : Cb) : let t := (s.hwTsCreate timerProcessID timerMode cb).1
    Counts s t ∧ t.next = s.next ∧ t.prev = s.prev ∧
      ∀ i, t.status i = .running ↔ s.status i = .running := by
  dsimp only
  unfold hwTsCreate
  split
  · rename_i loop found
    have free : s.status loop = .free := by simpa using List.find?_some found
    dsimp only
    refine ⟨?_, ?_, ?_, fun i => ?_⟩
    · apply (Counts.refl s).modify
      · exact fun _ => rfl
      · exact fun _ => rfl
    · exact next_kept fun _ => rfl
    · exact prev_kept fun _ => rfl
    · rw [status_modify]
      split
      · subst i
        simp [free]
      · rfl
  · exact ⟨.refl s, rfl, rfl, fun _ => Iff.rfl⟩

structure Quiet (m m' : Clocked Cb) : Prop where
  counts : Counts m.server m'.server
  next : m'.server.next = m.server.next
  prev : m'.server.prev = m.server.prev
  running : ∀ i, m'.server.status i = .running ↔ m.server.status i = .running
  clock : m' = { m with server := m'.server, now := m'.now }
  now : m.now ≤ m'.now

theorem Quiet.enough (quiet : Quiet m m') (enough : Enough m i) : Enough m' i := by
  have rate := rate_eq quiet.counts.config
  refine ⟨?_, ?_, ?_, ?_⟩
  · rw [quiet.clock]
    exact enough.started_le
  · rw [quiet.clock]
    exact enough.lost_le
  · rw [quiet.counts.counterInit]
    exact enough.small
  · rw [quiet.counts.counterInit, quiet.counts.countLeft, rate, quiet.clock]
    exact enough.enough

theorem Quiet.exact (quiet : Quiet m m') (exact : Exact m i) : Exact m' i := by
  have rate := rate_eq quiet.counts.config
  rw [Exact, quiet.counts.counterInit, quiet.counts.countLeft, rate, quiet.clock]
  exact exact

theorem Timely.quiet (timely : Timely m) (quiet : Quiet m m') : Timely m' := by
  have counts := quiet.counts
  have current := counts.current
  have enabled : m'.server.wakeupTimerEnabled = m.server.wakeupTimerEnabled :=
    (congrArg wakeupTimerEnabled counts.rest :)
  have pending : m'.server.pendingIrq = m.server.pendingIrq := (congrArg pendingIrq counts.rest :)
  have limitation : m'.server.wakeupTimerLimitation = m.server.wakeupTimerLimitation :=
    (congrArg wakeupTimerLimitation counts.rest :)
  have setup : m'.setup = m.setup := by rw [quiet.clock]
  have value : m'.value = m.value := by rw [quiet.clock]
  rcases timely.counted with ⟨l, counted⟩
  refine ⟨⟨l, ⟨counted.listed.toChained.congr quiet.next quiet.prev current, ?_⟩, ?_, ?_,
    wholeRate_eq counts.config counted.whole, ?_⟩, ?_, ?_, ?_, ?_, ?_, ?_⟩
  · exact fun i => (counted.listed.running i).trans (quiet.running i).symm
  · intro i member j follows
    rw [quiet.next] at follows
    rw [counts.countLeft]
    exact counted.ordered i member j follows
  · rw [counts.previous, current]
    exact counted.moved
  · rw [current, counts.setup, ssrAt_eq counts.config, setup]
    exact counted.reference
  · rw [setup]
    exact timely.setup_le.trans quiet.now
  · rw [enabled, pending, current]
    exact timely.irq
  · rw [enabled, pending, current]
    exact timely.awake
  · rw [current, value, counts.countLeft]
    exact timely.value_le
  · rw [current, value, limitation, counts.countLeft]
    exact timely.value
  · exact fun i running => quiet.enough (timely.enough i ((quiet.running i).mp running))

/-- What a step can do: nothing that counts, or what a section leaves. -/
theorem step_cases (timely : Timely m) (assumed : Assumed early m op) :
    ∃ m' notification, m.step op = some (m', notification) ∧ Due m notification ∧
      (Quiet m m' ∨ ∃ m₁ times new, times ∈ op.times ∧ times.After m.now ∧
        Left m m₁ times new ∧ m' = { m₁ with now := times.restarting }) := by
  rcases timely.counted with ⟨l, counted⟩
  have later : ∀ {times : Times}, times.After m.now → times.After m.setup := fun after =>
    ⟨timely.setup_le.trans after.linking, after.rescheduling, after.restarting⟩
  cases op with
  | create timerProcessID timerMode cb =>
      rcases hwTsCreate_counts m.server timerProcessID timerMode cb with
        ⟨counts, next, prev, running⟩
      exact ⟨_, none, rfl, nofun, Or.inl ⟨counts, next, prev, running, rfl, Nat.le_refl _⟩⟩
  | stop timerID times =>
      have after : times.After m.now := assumed
      by_cases running : m.server.status timerID = .running
      · have later' := (later after).linking.trans (later after).rescheduling
        rcases hwTsStop_left counted later' running with ⟨m₁, ends, left⟩
        refine ⟨_, none, ?_, nofun, Or.inr ⟨m₁, times, none, rfl, after, left, rfl⟩⟩
        rw [step, ends]
        rfl
      · refine ⟨{ m with now := times.restarting }, none, ?_, nofun,
          Or.inl ⟨.refl _, rfl, rfl, fun _ => Iff.rfl, rfl, ?_⟩⟩
        · rw [step, hwTsStop, if_neg running]
          rfl
        · exact after.linking.trans (after.rescheduling.trans after.restarting)
  | start timerID timeoutTicks times =>
      rcases assumed with ⟨created, small, after⟩
      have new : timerID ∉ l := by
        intro member
        cases created.symm.trans ((counted.listed.running timerID).mp member)
      rcases startTimer_left timeoutTicks counted new small (later after) with ⟨m₁, ends, left⟩
      refine ⟨_, none, ?_, nofun, Or.inr ⟨m₁, times, _, rfl, after, left, rfl⟩⟩
      rw [step, ends]
      rfl
  | wakeup entry times =>
      rcases assumed with ⟨comes, _, reached, after⟩
      have after' : times.After m.now :=
        ⟨reached.trans after.linking, after.rescheduling, after.restarting⟩
      rcases hwTsRtcWakeupHandler_left counted (later after') (timely.irq comes)
        fun i running => (timely.enough i running).small with ⟨m₁, notification, new, ends, left, due⟩
      refine ⟨_, notification, ?_, due, Or.inr ⟨m₁, times, new, rfl, after', left, rfl⟩⟩
      rw [step, ends]
      rfl

theorem step_timely (timely : Timely m) (assumed : Assumed early m op) :
    ∃ m' notification, m.step op = some (m', notification) ∧ Due m notification ∧ Timely m' := by
  rcases step_cases timely assumed with
    ⟨m', notification, steps, due, quiet | ⟨m₁, times, new, _, after, left, rfl⟩⟩
  · exact ⟨m', notification, steps, due, timely.quiet quiet⟩
  · exact ⟨_, notification, steps, due, timely.left after left⟩

theorem start_timely {rtc : RtcConfig} (time : Nat)
    (whole : (powerUp.hwTsInit rtc : TimerServer Cb).WholeRate) :
    Timely (start rtc time : Clocked Cb) := by
  have idle : ∀ i, (powerUp.hwTsInit rtc : TimerServer Cb).status i ≠ .running := fun _ => nofun
  refine ⟨⟨[], ⟨⟨rfl, List.nodup_nil⟩, ?_⟩, nofun, nofun, whole, ?_⟩, Nat.le_refl _, ?_, ?_, nofun,
    nofun, ?_⟩
  · exact fun i => iff_of_false List.not_mem_nil (idle i)
  · exact fun busy => absurd rfl busy
  · rintro (⟨⟨⟩⟩ | ⟨⟨⟩⟩)
  · exact fun busy => absurd rfl busy
  · exact fun i running => absurd running (idle i)

theorem reaches_timely {rtc : RtcConfig} {time : Nat}
    (whole : (powerUp.hwTsInit rtc : TimerServer Cb).WholeRate)
    (reaches : (system early).Reaches (start rtc time) m) : Timely m := by
  refine reaches.invariant (fun timely assumed stepped => ?_) (start_timely time whole)
  rcases step_timely timely assumed with ⟨m', notification, steps, _, kept⟩
  rcases Option.map_eq_some_iff.mp stepped with ⟨r, same, rfl⟩
  obtain rfl := Option.some.inj (steps.symm.trans same)
  exact kept

theorem Counted.least {first : TimerID} (counted : Counted m l)
    (current : m.server.currentRunningTimerID = some first) (running : m.server.status i = .running) :
    m.server.countLeft first ≤ m.server.countLeft i := by
  have thread := counted.listed.thread
  rw [current] at thread
  have member := (counted.listed.running i).mpr running
  have ordered := counted.ordered
  clear counted current running
  induction l generalizing first with
  | nil => cases member
  | cons x rest ih =>
      rcases thread with ⟨same, _, thread⟩
      obtain rfl := Option.some.inj same
      rcases List.mem_cons.mp member with rfl | later
      · exact BitVec.le_refl _
      · cases follows : m.server.next first with
        | none =>
            rw [follows] at thread
            cases rest with
            | nil => cases later
            | cons y rest => cases thread.1
        | some second =>
            rw [follows] at thread
            calc
              m.server.countLeft first ≤ m.server.countLeft second :=
                ordered first (List.mem_cons_self ..) second follows
              _ ≤ m.server.countLeft i :=
                ih thread later fun i member => ordered i (List.mem_cons_of_mem _ member)

/-- The callback of a running timer is called no earlier than its whole count after its start. -/
theorem Timely.expired {entry : Nat} {n : Notification Cb} (timely : Timely m)
    (assumed : Assumed early m (.wakeup entry times))
    (calls : m.step (.wakeup entry times) = some (m', some n)) :
    m.server.currentRunningTimerID = some n.timerID ∧ m.server.status n.timerID = .running ∧
      m.started n.timerID ≤ m.setup ∧
      (m.server.counterInit n.timerID).toNat ≤
        (entry - m.started n.timerID) * m.server.rate + early := by
  rcases step_timely timely assumed with ⟨_, notification, steps, due, _⟩
  obtain ⟨_, rfl⟩ := Prod.mk.inj (Option.some.inj (steps.symm.trans calls))
  rcases due n rfl with ⟨current, reached⟩
  rcases timely.counted with ⟨l, counted⟩
  have running : m.server.status n.timerID = .running := by
    have thread := counted.listed.thread
    rw [current] at thread
    exact (counted.listed.running _).mp thread.start_mem
  have enough := timely.enough n.timerID running
  refine ⟨current, running, enough.started_le, ?_⟩
  have value := timely.value n.timerID current reached
  have expired : m.value.toNat ≤ (entry - m.setup) * m.server.rate + early := assumed.2.1
  have counts := enough.enough
  have setup := timely.setup_le.trans assumed.2.2.1
  rw [span_mul enough.started_le setup]
  omega

structure Advanced (m m' : Clocked Cb) : Prop where
  timely : Timely m'
  config : m'.server.config = m.server.config
  now : m.now ≤ m'.now
  started : ∀ i, m'.server.status i = .running →
    m'.started i = m.started i ∧ m.server.status i = .running ∨ m.now ≤ m'.started i

theorem Advanced.refl (timely : Timely m) : Advanced m m :=
  ⟨timely, rfl, Nat.le_refl _, fun _ running => Or.inl ⟨rfl, running⟩⟩

theorem step_advanced (timely : Timely m) (assumed : Assumed early m op) :
    ∃ m' notification, m.step op = some (m', notification) ∧ Advanced m m' := by
  rcases step_cases timely assumed with
    ⟨m', notification, steps, _, quiet | ⟨m₁, times, new, _, after, left, rfl⟩⟩
  · refine ⟨m', notification, steps, timely.quiet quiet, quiet.counts.config, quiet.now, ?_⟩
    intro i running
    left
    refine ⟨?_, (quiet.running i).mp running⟩
    rw [quiet.clock]
  · have kept := timely.left after left
    have order := after.linking
    have order' := order.trans after.rescheduling
    refine ⟨_, notification, steps, kept, left.config, order'.trans after.restarting, ?_⟩
    intro i running
    have rearmed := left.busy (kept.busy running)
    by_cases added : some i = new
    · right
      rcases (rearmed.fresh i added).2.2 with ⟨begun, _⟩ | ⟨_, begun, _⟩
      · exact order'.trans begun.ge
      · exact order.trans begun.ge
    · left
      rcases rearmed.old i added with ⟨begun, _, _, before⟩
      exact ⟨begun, (before running).1⟩

/-- In every run, the callback of a timer is called no earlier than its whole count after it was
started, but for what the wakeup timer itself expires early, and no running timer has less left. -/
theorem never_early {rtc : RtcConfig} {time entry : Nat} {n : Notification Cb}
    (whole : (powerUp.hwTsInit rtc : TimerServer Cb).WholeRate)
    (reaches : (system early).Reaches (start rtc time) m)
    (assumed : Assumed early m (.wakeup entry times))
    (calls : m.step (.wakeup entry times) = some (m', some n)) :
    (m.server.counterInit n.timerID).toNat ≤
        (entry - m.started n.timerID) * m.server.rate + early ∧
      m.server.status n.timerID = .running ∧
      ∀ i, m.server.status i = .running →
        m.server.countLeft n.timerID ≤ m.server.countLeft i := by
  have timely := reaches_timely whole reaches
  rcases timely.expired assumed calls with ⟨current, running, _, expired⟩
  rcases timely.counted with ⟨l, counted⟩
  exact ⟨expired, running, fun i => counted.least current⟩

private def lsi : RtcConfig := ⟨0, 0x0F, 0x7FFF⟩

private theorem lsi_whole : (powerUp.hwTsInit lsi : TimerServer Unit).WholeRate :=
  ⟨by decide, by decide, by decide, by decide⟩

private def alone : Clocked Unit :=
  ((system 0).run (start lsi 0) [.create 1 .singleShot (), .start zeroID 100 ⟨10, 11, 12⟩]).get rfl

private theorem alone_reached : (system 0).Reaches (start lsi 0) alone :=
  ((System.Reaches.refl).tail (a := Op.create 1 .singleShot ()) trivial rfl).tail
    (a := Op.start 0 100 ⟨10, 11, 12⟩)
    ⟨by decide, by decide, by decide, by decide, by decide⟩ rfl

theorem never_early_alone : ∃ (m' : Clocked Unit) (n : Notification Unit),
    alone.step (.wakeup 112 ⟨113, 114, 115⟩) = some (m', some n) ∧
      (alone.server.counterInit n.timerID).toNat = 100 ∧
      (alone.server.counterInit n.timerID).toNat ≤
        (112 - alone.started n.timerID) * alone.server.rate + 0 := by
  have assumed : Assumed 0 alone (.wakeup 112 ⟨113, 114, 115⟩) :=
    ⟨Or.inl rfl, by decide, by decide, by decide, by decide, by decide⟩
  exact ⟨_, _, rfl, rfl, (never_early lsi_whole alone_reached assumed rfl).1⟩

/-- In every run, while a timer is running, the wakeup timer counts or its interrupt is pending, and
it was given no more than any running timer has left; and no step of the timer server runs off its
table. -/
theorem never_stranded {rtc : RtcConfig} {time : Nat}
    (whole : (powerUp.hwTsInit rtc : TimerServer Cb).WholeRate)
    (reaches : (system early).Reaches (start rtc time) m) :
    (∀ i, m.server.status i = .running →
      (m.server.wakeupTimerEnabled = true ∨ m.server.pendingIrq = true) ∧
        m.value.toNat ≤ (m.server.countLeft i).toNat) ∧
      ∀ op, Assumed early m op → ((system early).step m op).isSome := by
  have timely := reaches_timely whole reaches
  refine ⟨fun i running => ?_, fun op assumed => ?_⟩
  · have busy := timely.busy running
    refine ⟨timely.awake busy, ?_⟩
    rcases Option.ne_none_iff_exists'.mp busy with ⟨first, current⟩
    rcases timely.counted with ⟨l, counted⟩
    exact (timely.value_le first current).trans
      (BitVec.le_def.mp (counted.least current running))
  · rcases step_timely timely assumed with ⟨m', notification, steps, _⟩
    change ((m.step op).map Prod.fst).isSome
    rw [steps]
    rfl

theorem never_stranded_alone :
    (alone.server.wakeupTimerEnabled = true ∨ alone.server.pendingIrq = true) ∧
      alone.value.toNat ≤ (alone.server.countLeft 0).toNat :=
  (never_stranded lsi_whole alone_reached).1 0 rfl

/-! ## Runs in which the counter never comes round -/

def prompt (early : Nat) : System (Clocked Cb) (Op Cb) where
  step m op := (m.step op).map Prod.fst
  ok m op := Assumed early m op ∧
    (m.server.currentRunningTimerID ≠ none → ∀ times ∈ op.times, m.Prompt times)

structure Accurate (m : Clocked Cb) : Prop extends Timely m where
  fits : m.server.synchPrescalerUserConfig.toNat * m.server.rate ≤ 2 ^ 16
  exact : ∀ i, m.server.status i = .running → Exact m i

theorem fits_eq {s t : TimerServer Cb} (config : t.config = s.config) :
    t.synchPrescalerUserConfig.toNat * t.rate = s.synchPrescalerUserConfig.toNat * s.rate := by
  have rate := rate_eq config
  simp only [TimerServer.config, Prod.mk.injEq] at config
  rw [rate, config.2.2.1]

theorem step_accurate (accurate : Accurate m) (assumed : (prompt early).ok m op)
    (stepped : (prompt early).step m op = some m') : Accurate m' := by
  have timely := accurate.toTimely
  rcases step_cases timely assumed.1 with ⟨_, notification, steps, _, outcome⟩
  rcases Option.map_eq_some_iff.mp stepped with ⟨r, same, rfl⟩
  obtain rfl := Option.some.inj (steps.symm.trans same)
  rcases outcome with quiet | ⟨m₁, times, new, reads, after, left, rfl⟩
  · refine ⟨timely.quiet quiet, ?_, fun i running => ?_⟩
    · rw [fits_eq quiet.counts.config]
      exact accurate.fits
    · exact quiet.exact (accurate.exact i ((quiet.running i).mp running))
  · have kept := timely.left after left
    refine ⟨kept, ?_, fun i running => ?_⟩
    · rw [fits_eq left.config]
      exact accurate.fits
    · have after' : times.After m.setup :=
        ⟨timely.setup_le.trans after.linking, after.rescheduling, after.restarting⟩
      have rearmed := left.busy (kept.busy running)
      exact rearmed.exact accurate.fits after' (fun busy => assumed.2 busy times reads)
        (fun i => timely.busy) running timely.enough accurate.exact

/-- In every run in which the counter never comes round between two setups, a running timer that has
ticks left is behind the clock by exactly the ticks between the two readings of the setups since it
was started. -/
theorem drift_accounted {rtc : RtcConfig} {time : Nat}
    (whole : (powerUp.hwTsInit rtc : TimerServer Cb).WholeRate)
    (fits : (powerUp.hwTsInit rtc : TimerServer Cb).synchPrescalerUserConfig.toNat *
      (powerUp.hwTsInit rtc : TimerServer Cb).rate ≤ 2 ^ 16)
    (reaches : (prompt early).Reaches (start rtc time) m)
    (running : m.server.status i = .running) (ticks : m.server.countLeft i ≠ 0) :
    (m.server.countLeft i).toNat + (m.setup - m.started i) * m.server.rate =
      (m.server.counterInit i).toNat + (m.lost - m.lostBefore i) * m.server.rate := by
  have begins : Accurate (start rtc time : Clocked Cb) :=
    ⟨start_timely time whole, fits, fun i running => nomatch running⟩
  have accurate : Accurate m := reaches.invariant step_accurate begins
  exact accurate.exact i running ticks

/-- A second timer is started while the first one is running. -/
theorem drift_accounted_twice : ∃ m : Clocked Unit,
    (prompt 0).Reaches (start lsi 0) m ∧ m.server.countLeft 0 = 81 ∧ m.lost = 3 ∧
      (m.server.countLeft 0).toNat + (m.setup - m.started 0) * m.server.rate =
        (m.server.counterInit 0).toNat + (m.lost - m.lostBefore 0) * m.server.rate := by
  have begins : (prompt 0).Reaches (start lsi 0 : Clocked Unit) (start lsi 0) := .refl
  have created := (begins.tail (a := Op.create 1 .singleShot ())
    ⟨trivial, fun busy => absurd rfl busy⟩ rfl).tail (a := Op.create 2 .repeated ())
    ⟨trivial, fun busy => absurd rfl busy⟩ rfl
  have reached := (created.tail (a := Op.start 0 100 ⟨10, 11, 12⟩)
    ⟨⟨by decide, by decide, by decide, by decide, by decide⟩, fun busy => absurd rfl busy⟩
    rfl).tail (a := Op.start 1 50 ⟨30, 31, 33⟩)
    ⟨⟨by decide, by decide, by decide, by decide, by decide⟩, by
      rintro _ _ ⟨⟩
      exact (by decide : 31 - 12 < 32768)⟩ rfl
  exact ⟨_, reached, rfl, rfl, drift_accounted lsi_whole (by decide) reached rfl (by decide)⟩

end Runs

end Clocked

end Baelux.Timers

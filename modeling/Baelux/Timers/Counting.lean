import Baelux.Timers.TimerList

/-! What the timer server does to the counts: the running timers are linked in the order of their
counts, and a new setup of the wakeup timer takes the time that has elapsed off each of them. -/

namespace Baelux.Timers

namespace TimerServer

variable {Cb : Type} {s t : TimerServer Cb} {l : List TimerID} {i j timerID : TimerID}
variable {ssr : SsrReadings} {f : TimerContext Cb → TimerContext Cb}

def counterInit (s : TimerServer Cb) (timerID : TimerID) : BitVec 32 :=
  (s.aTimerContext timerID).counterInit

def config (s : TimerServer Cb) : BitVec 8 × BitVec 8 × BitVec 16 × BitVec 16 :=
  ⟨s.wakeupTimerDivider, s.asynchPrescalerUserConfig, s.synchPrescalerUserConfig,
    s.maxWakeupTimerSetup⟩

def Ordered (s : TimerServer Cb) (l : List TimerID) : Prop :=
  ∀ i ∈ l, ∀ j, s.next i = some j → s.countLeft i ≤ s.countLeft j

theorem countLeft_kept (kept : ∀ c, (f c).countLeft = c.countLeft) :
    (s.modify i f).countLeft = s.countLeft := modify_kept TimerContext.countLeft kept

theorem counterInit_kept (kept : ∀ c, (f c).counterInit = c.counterInit) :
    (s.modify i f).counterInit = s.counterInit := modify_kept TimerContext.counterInit kept

structure Counts (s t : TimerServer Cb) : Prop where
  countLeft : t.countLeft = s.countLeft
  counterInit : t.counterInit = s.counterInit
  rest : { t with aTimerContext := s.aTimerContext } = s

namespace Counts

theorem refl (s : TimerServer Cb) : Counts s s := ⟨rfl, rfl, rfl⟩

theorem config (counts : Counts s t) : t.config = s.config := (congrArg TimerServer.config counts.rest :)

theorem setup (counts : Counts s t) : t.ssrValueOnLastSetup = s.ssrValueOnLastSetup :=
  (congrArg ssrValueOnLastSetup counts.rest :)

theorem previous (counts : Counts s t) : t.previousRunningTimerID = s.previousRunningTimerID :=
  (congrArg previousRunningTimerID counts.rest :)

theorem current (counts : Counts s t) : t.currentRunningTimerID = s.currentRunningTimerID :=
  (congrArg currentRunningTimerID counts.rest :)

theorem modify (counts : Counts s t) (left : ∀ c, (f c).countLeft = c.countLeft)
    (init : ∀ c, (f c).counterInit = c.counterInit) : Counts s (t.modify i f) :=
  ⟨(countLeft_kept left).trans counts.countLeft, (counterInit_kept init).trans counts.counterInit,
    counts.rest⟩

end Counts

theorem linkTimerAfter_counts (ref : TimerID) : Counts s (s.linkTimerAfter timerID ref) := by
  unfold linkTimerAfter
  dsimp only
  repeat' apply Counts.modify
  · split
    · apply (Counts.refl s).modify
      · exact fun _ => rfl
      · exact fun _ => rfl
    · exact .refl s
  all_goals exact fun _ => rfl

theorem linkTimerBefore_counts (ref : TimerID) : Counts s (s.linkTimerBefore timerID ref) := by
  unfold linkTimerBefore
  split
  · dsimp only
    repeat' apply Counts.modify
    · exact .refl s
    all_goals exact fun _ => rfl
  · dsimp only
    repeat' apply Counts.modify
    · exact .refl s
    all_goals exact fun _ => rfl

/-! ## The search -/

theorem lookupLoop_found (timeLeft : BitVec 32) {turns : Nat} {found : TimerID}
    (here : s.countLeft i ≤ timeLeft) (ends : s.lookupLoop timeLeft turns i = some found) :
    s.countLeft found ≤ timeLeft ∧ ∀ j, s.next found = some j → timeLeft < s.countLeft j := by
  induction turns generalizing i with
  | zero => cases ends
  | succ turns ih =>
      rw [lookupLoop] at ends
      cases follows : s.next i with
      | none =>
          rw [follows] at ends
          obtain rfl := Option.some.inj ends
          exact ⟨here, fun j next =>
            absurd (follows.symm.trans next) (Option.some_ne_none j).symm⟩
      | some nextID =>
          rw [follows] at ends
          dsimp only at ends
          split at ends
          · exact ih ‹_› ends
          · rename_i later
            obtain rfl := Option.some.inj ends
            refine ⟨here, fun j next => ?_⟩
            obtain rfl := Option.some.inj (follows.symm.trans next)
            exact BitVec.not_le.mp later

/-! ## Linking -/

structure Linked (s t : TimerServer Cb) (timerID : TimerID) (ssr : SsrReadings)
    (timeElapsed : BitVec 16) : Prop where
  countLeft : t.countLeft =
    Function.update s.countLeft timerID (s.countLeft timerID + timeElapsed.setWidth 32)
  counterInit : t.counterInit = s.counterInit
  config : t.config = s.config
  /-- The first timer of the list starts without a reference. -/
  setup : s.currentRunningTimerID = none ∧ timeElapsed = 0 ∧
      t.ssrValueOnLastSetup = ssrForbiddenValue ∨
    s.currentRunningTimerID ≠ none ∧ timeElapsed = s.returnTimeElapsed ssr.linking ∧
      t.ssrValueOnLastSetup = s.ssrValueOnLastSetup
  moved : t.previousRunningTimerID = s.previousRunningTimerID ∧
      t.currentRunningTimerID = s.currentRunningTimerID ∨
    t.previousRunningTimerID = s.currentRunningTimerID ∧ t.currentRunningTimerID = some timerID

theorem countLeft_add (count : BitVec 32) :
    (s.modify timerID fun c => { c with countLeft := c.countLeft + count }).countLeft =
      Function.update s.countLeft timerID (s.countLeft timerID + count) := by
  funext j
  rw [countLeft, modify_apply, Function.update_apply]
  split <;> rfl

theorem linkTimer_linked {timeElapsed : BitVec 16}
    (links : s.linkTimer timerID ssr = some (t, timeElapsed)) :
    Linked s t timerID ssr timeElapsed := by
  unfold linkTimer at links
  split at links
  · rename_i empty
    obtain ⟨rfl, rfl⟩ := Prod.mk.inj (Option.some.inj links)
    refine ⟨?_, counterInit_kept (i := timerID) (s := s) (f := fun c => { c with nextID := none })
      fun _ => rfl, rfl, Or.inl ⟨empty, rfl, rfl⟩, Or.inr ⟨rfl, rfl⟩⟩
    calc
      _ = s.countLeft := countLeft_kept (i := timerID) (f := fun c => { c with nextID := none })
        fun _ => rfl
      _ = _ := by simp
  · rename_i current first
    have busy : s.currentRunningTimerID ≠ none := fun empty => nomatch empty.symm.trans first
    dsimp only at links
    split at links
    · rcases Option.map_eq_some_iff.mp links with ⟨found, _, same⟩
      obtain ⟨rfl, rfl⟩ := Prod.mk.inj same
      have counts := @linkTimerAfter_counts _ (s.modify timerID fun c =>
        { c with countLeft := c.countLeft + (s.returnTimeElapsed ssr.linking).setWidth 32 }) timerID found
      exact ⟨counts.countLeft.trans (countLeft_add _),
        counts.counterInit.trans (counterInit_kept fun _ => rfl), counts.config,
        Or.inr ⟨busy, rfl, counts.setup⟩, Or.inl ⟨counts.previous, counts.current⟩⟩
    · obtain ⟨rfl, rfl⟩ := Prod.mk.inj (Option.some.inj links)
      have counts := @linkTimerBefore_counts _ (s.modify timerID fun c =>
        { c with countLeft := c.countLeft + (s.returnTimeElapsed ssr.linking).setWidth 32 }) timerID current
      exact ⟨counts.countLeft.trans (countLeft_add _),
        counts.counterInit.trans (counterInit_kept fun _ => rfl), counts.config,
        Or.inr ⟨busy, rfl, counts.setup⟩, Or.inr ⟨counts.current, rfl⟩⟩

theorem next_linkTimerBefore {current : TimerID} (first : s.currentRunningTimerID = some current) :
    (s.linkTimerBefore timerID current).next j =
      if j = timerID then some current else s.next j := by
  unfold linkTimerBefore
  rw [if_neg (not_not_intro first.symm), next_kept, next_modify]
  exact fun _ => rfl

/-- The new timer is linked where its count belongs. -/
theorem linkTimer_ordered {timeElapsed : BitVec 16} (chained : Chained s l) (new : timerID ∉ l)
    (ordered : Ordered s l) (links : s.linkTimer timerID ssr = some (t, timeElapsed))
    {l' : List TimerID} (members : ∀ i, i ∈ l' ↔ i ∈ l ∨ i = timerID) : Ordered t l' := by
  have follows : ∀ i ∈ l, ∀ j, s.next i = some j → j ∈ l := fun i member j next =>
    chained.thread.next_member member next
  intro i member j next
  unfold linkTimer at links
  split at links
  · rename_i empty
    have nothing : l = [] := by
      cases l with
      | nil => rfl
      | cons x rest => cases empty.symm.trans chained.thread.1
    obtain rfl : i = timerID := by simpa [nothing] using (members i).mp member
    obtain ⟨rfl, rfl⟩ := Prod.mk.inj (Option.some.inj links)
    have last : (s.modify i fun c => { c with nextID := none }).next i = none :=
      next_modify.trans (if_pos rfl)
    cases last.symm.trans next
  · rename_i current first
    -- The state once the new timer has its count.
    obtain ⟨u, counted⟩ : ∃ u, u = s.modify timerID fun c =>
      { c with countLeft := c.countLeft + (s.returnTimeElapsed ssr.linking).setWidth 32 } := ⟨_, rfl⟩
    have recounted : Recounted s u :=
      counted ▸ recounted_modify (· + (s.returnTimeElapsed ssr.linking).setWidth 32)
    have left : u.countLeft = Function.update s.countLeft timerID _ :=
      counted ▸ countLeft_add (s := s) _
    have old : ∀ i ∈ l, ∀ j, s.next i = some j → u.countLeft i ≤ u.countLeft j := by
      intro i member j next
      rw [left, Function.update_of_ne (ne_of_mem_of_not_mem member new),
        Function.update_of_ne (ne_of_mem_of_not_mem (follows i member j next) new)]
      exact ordered i member j next
    dsimp only at links
    rw [← counted] at links
    split at links
    · rename_i behind
      rcases Option.map_eq_some_iff.mp links with ⟨found, ends, same⟩
      obtain ⟨rfl, rfl⟩ := Prod.mk.inj same
      have place := lookupLoop_found (u.countLeft timerID) behind ends
      rw [(linkTimerAfter_counts found).countLeft]
      rw [next_linkTimerAfter] at next
      split at next
      · subst i
        obtain rfl := Option.some.inj next
        exact place.1
      · split at next
        · subst i
          exact BitVec.le_of_lt (place.2 j next)
        · rename_i other
          rw [recounted.next] at next
          exact old i (((members i).mp member).resolve_right other) j next
    · rename_i before
      obtain ⟨rfl, rfl⟩ := Prod.mk.inj (Option.some.inj links)
      have first' : u.currentRunningTimerID = some current := recounted.current.trans first
      have counts := @linkTimerBefore_counts _ u timerID current
      have links' := (next_linkTimerBefore first').symm.trans next
      have goal : u.countLeft i ≤ u.countLeft j := by
        split at links'
        · subst i
          obtain rfl := Option.some.inj links'
          exact BitVec.le_of_lt (BitVec.not_le.mp before)
        · rename_i other
          rw [recounted.next] at links'
          exact old i (((members i).mp member).resolve_right other) j links'
      rw [← counts.countLeft] at goal
      exact goal

/-! ## Unlinking -/

structure Unlinked (s t : TimerServer Cb) (timerID : TimerID) : Prop where
  countLeft : t.countLeft = s.countLeft
  counterInit : t.counterInit = s.counterInit
  config : t.config = s.config
  setup : t.currentRunningTimerID ≠ none → t.ssrValueOnLastSetup = s.ssrValueOnLastSetup
  moved : s.currentRunningTimerID ≠ some timerID ∧
      t.previousRunningTimerID = s.previousRunningTimerID ∧
      t.currentRunningTimerID = s.currentRunningTimerID ∨
    s.currentRunningTimerID = some timerID ∧ t.previousRunningTimerID = some timerID ∧
      t.currentRunningTimerID = s.next timerID

theorem Unlinked.release (unlinked : Unlinked s t timerID) (ssrReadRequested : Bool) :
    Unlinked s
      (let u := t.modify timerID fun c => { c with timerIDStatus := .created }
      if u.currentRunningTimerID = none ∧ ssrReadRequested then
        { u with ssrValueOnLastSetup := ssrForbiddenValue }
      else u) timerID := by
  have counts : Counts t (t.modify timerID fun c => { c with timerIDStatus := .created }) := by
    apply (Counts.refl t).modify
    · exact fun _ => rfl
    · exact fun _ => rfl
  have left := counts.countLeft.trans unlinked.countLeft
  have init := counts.counterInit.trans unlinked.counterInit
  dsimp only
  split
  · rename_i empty
    exact ⟨left, init, unlinked.config, fun busy => absurd empty.1 busy, unlinked.moved⟩
  · exact ⟨left, init, unlinked.config, unlinked.setup, unlinked.moved⟩

theorem unlinkTimer_unlinked (timerID : TimerID) (ssrReadRequested : Bool) :
    Unlinked s (s.unlinkTimer timerID ssrReadRequested) timerID := by
  unfold unlinkTimer
  apply Unlinked.release
  split
  · rename_i first
    exact ⟨rfl, rfl, rfl, fun _ => rfl, Or.inr ⟨first.symm, first.symm, rfl⟩⟩
  · rename_i inner
    have around : Counts s (s.modify (s.prev timerID) fun c =>
        { c with nextID := s.next timerID }) := by
      apply (Counts.refl s).modify
      · exact fun _ => rfl
      · exact fun _ => rfl
    have counts : ∀ u, Counts s u → Unlinked s u timerID := fun u counts =>
      ⟨counts.countLeft, counts.counterInit, counts.config, fun _ => counts.setup,
        Or.inl ⟨Ne.symm inner, counts.previous, counts.current⟩⟩
    dsimp only
    split
    · apply counts
      apply around.modify
      · exact fun _ => rfl
      · exact fun _ => rfl
    · exact counts _ around

theorem next_unlinkTimer (ssrReadRequested : Bool) :
    (s.unlinkTimer timerID ssrReadRequested).next j =
      if some timerID = s.currentRunningTimerID then s.next j
      else if j = s.prev timerID then s.next timerID else s.next j := by
  have released : ∀ u : TimerServer Cb,
      (let v := u.modify timerID fun c => { c with timerIDStatus := .created }
        if v.currentRunningTimerID = none ∧ ssrReadRequested then
          { v with ssrValueOnLastSetup := ssrForbiddenValue }
        else v).next = u.next := by
    intro u
    have kept : (u.modify timerID fun c => { c with timerIDStatus := .created }).next = u.next :=
      next_kept fun _ => rfl
    dsimp only
    split
    · exact kept
    · exact kept
  unfold unlinkTimer
  rw [released]
  split
  · rfl
  · dsimp only
    split
    · rw [next_kept, next_modify]
      exact fun _ => rfl
    · rw [next_modify]

theorem Chained.next_prev (chained : Chained s l) (member : timerID ∈ l)
    (inner : some timerID ≠ s.currentRunningTimerID) :
    s.prev timerID ∈ l ∧ s.next (s.prev timerID) = some timerID := by
  rcases List.append_of_mem member with ⟨front, back, rfl⟩
  have thread := chained.thread
  rcases List.eq_nil_or_concat front with rfl | ⟨others, before, rfl⟩
  · exact absurd thread.1.symm inner
  · rw [List.concat_eq_append, List.append_assoc, List.singleton_append] at thread ⊢
    rcases Thread.append.mp thread with ⟨_, _, _, points, next, _⟩
    rw [points timerID next]
    exact ⟨by simp, next⟩

theorem unlinkTimer_ordered (ssrReadRequested : Bool) (chained : Chained s l) (ordered : Ordered s l)
    (member : timerID ∈ l) {l' : List TimerID} (members : ∀ i ∈ l', i ∈ l) :
    Ordered (s.unlinkTimer timerID ssrReadRequested) l' := by
  intro i here j next
  rw [(unlinkTimer_unlinked timerID ssrReadRequested).countLeft]
  rw [next_unlinkTimer] at next
  split at next
  · exact ordered i (members i here) j next
  · rename_i inner
    split at next
    · rename_i before
      rcases chained.next_prev member inner with ⟨linked, points⟩
      rw [before]
      exact BitVec.le_trans (ordered _ linked timerID points) (ordered timerID member j next)
    · exact ordered i (members i here) j next

/-! ## A new setup -/

structure Rescheduled (s t : TimerServer Cb) (l : List TimerID) (ssr : SsrReadings)
    (value : BitVec 16) : Prop where
  recounted : Recounted s t
  countLeft : ∀ i ∈ l, (t.countLeft i).toNat =
    (s.countLeft i).toNat - (s.returnTimeElapsed ssr.rescheduling).toNat
  counterInit : t.counterInit = s.counterInit
  config : t.config = s.config
  previous : t.previousRunningTimerID = s.previousRunningTimerID
  setup : t.ssrValueOnLastSetup = ssr.restarting.setWidth 32
  /-- The wakeup timer counts, or its interrupt is pending. -/
  awake : t.wakeupTimerEnabled = true ∨ t.pendingIrq = true
  value_le : ∀ current, s.currentRunningTimerID = some current →
    value.toNat ≤ (t.countLeft current).toNat
  value : ∀ current, s.currentRunningTimerID = some current →
    t.wakeupTimerLimitation ≠ .overpassed → value.toNat = (t.countLeft current).toNat

theorem countLoop_counts (timeElapsed : BitVec 32) {start : Option TimerID} {turns : Nat}
    (thread : Thread s.next s.prev start l none) (nodup : l.Nodup)
    (ends : countLoop timeElapsed turns start s = some t) :
    { t with aTimerContext := s.aTimerContext } = s ∧ t.counterInit = s.counterInit ∧
      (∀ i ∈ l, (t.countLeft i).toNat = (s.countLeft i).toNat - timeElapsed.toNat) ∧
      ∀ i ∉ l, t.countLeft i = s.countLeft i := by
  induction l generalizing s start turns with
  | nil =>
      obtain rfl : start = none := thread
      have same : s = t := by cases turns <;> exact Option.some.inj ends
      subst same
      exact ⟨rfl, rfl, fun _ member => (List.not_mem_nil member).elim, fun _ _ => rfl⟩
  | cons x rest ih =>
      rcases thread with ⟨rfl, _, thread⟩
      cases turns with
      | zero => cases ends
      | succ turns =>
          obtain ⟨u, counted⟩ : ∃ u, u = s.modify x fun c => { c with
              countLeft := if c.countLeft < timeElapsed then 0
                else c.countLeft - timeElapsed } := ⟨_, rfl⟩
          have recounted : Recounted s u := counted ▸ recounted_modify fun count =>
            if count < timeElapsed then 0 else count - timeElapsed
          have ends' : countLoop timeElapsed turns (u.next x) u = some t := counted ▸ ends
          rw [← recounted.next, ← recounted.prev] at thread
          rw [List.nodup_cons] at nodup
          rcases ih thread nodup.2 ends' with ⟨same, init, inside, outside⟩
          have left : ∀ i, u.countLeft i = if i = x then
              if s.countLeft x < timeElapsed then 0 else s.countLeft x - timeElapsed
              else s.countLeft i := by
            intro i
            rw [counted, countLeft, modify_apply]
            split <;> rfl
          refine ⟨?_, init.trans (counted ▸ counterInit_kept fun _ => rfl), ?_, ?_⟩
          · calc
              { t with aTimerContext := s.aTimerContext } =
                  { u with aTimerContext := s.aTimerContext } :=
                congrArg (fun v : TimerServer Cb => { v with aTimerContext := s.aTimerContext }) same
              _ = s := by
                rw [counted]
                rfl
          · intro i member
            rcases List.mem_cons.mp member with rfl | later
            · rw [outside i nodup.1, left, if_pos rfl]
              split
              · rename_i few
                exact (Nat.sub_eq_zero_of_le (BitVec.lt_def.mp few).le).symm
              · rename_i enough
                exact BitVec.toNat_sub_of_le (BitVec.not_lt.mp enough)
            · rw [inside i later, left, if_neg (ne_of_mem_of_not_mem later nodup.1)]
          · intro i apart
            rw [List.mem_cons, not_or] at apart
            rw [outside i apart.2, left, if_neg apart.1]

structure Restarted (s t : TimerServer Cb) (reading : BitVec 16) : Prop where
  table : t.aTimerContext = s.aTimerContext
  current : t.currentRunningTimerID = s.currentRunningTimerID
  previous : t.previousRunningTimerID = s.previousRunningTimerID
  config : t.config = s.config
  limitation : t.wakeupTimerLimitation = s.wakeupTimerLimitation
  setup : t.ssrValueOnLastSetup = reading.setWidth 32
  awake : t.wakeupTimerEnabled = true ∨ t.pendingIrq = true

theorem restartWakeupCounter_restarted (value reading : BitVec 16) :
    Restarted s (s.restartWakeupCounter value reading) reading := by
  unfold restartWakeupCounter
  dsimp only
  split
  · exact ⟨rfl, rfl, rfl, rfl, rfl, rfl, Or.inr rfl⟩
  · exact ⟨rfl, rfl, rfl, rfl, rfl, rfl, Or.inl rfl⟩

theorem Restarted.field {β : Type} {reading : BitVec 16} (restarted : Restarted s t reading)
    (field : TimerContext Cb → β) :
    (fun i => field (t.aTimerContext i)) = fun i => field (s.aTimerContext i) := by
  rw [restarted.table]

theorem wakeupValue_whole {timecountleft : BitVec 32} {timeElapsed : BitVec 16}
    (whole : (s.wakeupValue timecountleft timeElapsed).2 ≠ .overpassed) :
    (s.wakeupValue timecountleft timeElapsed).1.toNat =
      timecountleft.toNat - timeElapsed.toNat := by
  have widened : (timeElapsed.setWidth 32).toNat = timeElapsed.toNat :=
    BitVec.toNat_setWidth_of_le (by decide)
  have limit : (s.maxWakeupTimerSetup.setWidth 32).toNat = s.maxWakeupTimerSetup.toNat :=
    BitVec.toNat_setWidth_of_le (by decide)
  unfold wakeupValue at whole ⊢
  split
  · rename_i none_left
    rw [BitVec.lt_def, widened] at none_left
    exact (Nat.sub_eq_zero_of_le none_left.le).symm
  · rename_i some_left
    rw [if_neg some_left] at whole
    split
    · rename_i far
      rw [if_pos far] at whole
      exact absurd rfl whole
    · rename_i near
      have small := timeElapsed.isLt
      have few := s.maxWakeupTimerSetup.isLt
      rw [BitVec.not_lt, BitVec.le_def, widened] at some_left
      rw [BitVec.not_lt, BitVec.le_def, BitVec.toNat_add, widened, limit] at near
      rw [BitVec.toNat_setWidth, BitVec.toNat_sub_of_le (BitVec.le_def.mpr (widened ▸ some_left)),
        widened]
      omega

theorem wakeupValue_le (timecountleft : BitVec 32) (timeElapsed : BitVec 16) :
    (s.wakeupValue timecountleft timeElapsed).1.toNat ≤
      timecountleft.toNat - timeElapsed.toNat := by
  by_cases overpassed : (s.wakeupValue timecountleft timeElapsed).2 = .overpassed
  · unfold wakeupValue at overpassed ⊢
    split at overpassed
    · cases overpassed
    · rename_i some_left
      rw [if_neg some_left]
      split at overpassed
      · rename_i far
        have small := timeElapsed.isLt
        have few := s.maxWakeupTimerSetup.isLt
        rw [if_pos far]
        rw [BitVec.lt_def, BitVec.toNat_add, BitVec.toNat_setWidth_of_le (by decide),
          BitVec.toNat_setWidth_of_le (by decide)] at far
        dsimp only
        omega
      · cases overpassed
  · exact (wakeupValue_whole overpassed).le

theorem rescheduleTimerList_eq {current : TimerID} (first : s.currentRunningTimerID = some current) :
    s.rescheduleTimerList ssr =
      let timeElapsed := s.returnTimeElapsed ssr.rescheduling
      let setup := s.wakeupValue (s.countLeft current) timeElapsed
      (countLoop (timeElapsed.setWidth 32) 6 (some current) { s with
        wakeupTimerEnabled := false
        wakeupTimerLimitation := setup.2 }).map fun u =>
          u.restartWakeupCounter setup.1 ssr.restarting := by
  unfold rescheduleTimerList
  dsimp only
  split
  · rename_i empty
    cases empty.symm.trans first
  · rename_i other first'
    obtain rfl := Option.some.inj (first'.symm.trans first)
    rfl

theorem rescheduleTimerList_rescheduled {current : TimerID} (chained : Chained s l)
    (first : s.currentRunningTimerID = some current) :
    ∃ t, s.rescheduleTimerList ssr = some t ∧ Rescheduled s t l ssr
      (s.wakeupValue (s.countLeft current) (s.returnTimeElapsed ssr.rescheduling)).1 := by
  rw [rescheduleTimerList_eq first]
  obtain ⟨timeElapsed, elapsed⟩ : ∃ e, e = s.returnTimeElapsed ssr.rescheduling := ⟨_, rfl⟩
  obtain ⟨setup, sets⟩ : ∃ v, v = s.wakeupValue (s.countLeft current) timeElapsed := ⟨_, rfl⟩
  dsimp only
  rw [← elapsed, ← sets]
  have thread := chained.thread
  rw [first] at thread
  have member : current ∈ l := thread.start_mem
  have widened : (timeElapsed.setWidth 32).toNat = timeElapsed.toNat :=
    BitVec.toNat_setWidth_of_le (by decide)
  rcases countLoop_spec (s := { s with
      wakeupTimerEnabled := false
      wakeupTimerLimitation := setup.2 }) (timeElapsed.setWidth 32) thread chained.length_le with
    ⟨u, ends, recounted⟩
  rcases countLoop_counts (s := { s with
      wakeupTimerEnabled := false
      wakeupTimerLimitation := setup.2 }) _ thread chained.nodup ends with ⟨rest, init, left, _⟩
  have restarted := restartWakeupCounter_restarted (s := u) setup.1 ssr.restarting
  have countLeft : (u.restartWakeupCounter setup.1 ssr.restarting).countLeft = u.countLeft :=
    restarted.field TimerContext.countLeft
  have counted : ∀ i ∈ l, ((u.restartWakeupCounter setup.1 ssr.restarting).countLeft i).toNat =
      (s.countLeft i).toNat - (s.returnTimeElapsed ssr.rescheduling).toNat := by
    intro i member
    rw [countLeft, left i member, widened, elapsed]
    rfl
  refine ⟨_, by rw [ends]; rfl, ⟨⟨?_, ?_⟩, ?_, ?_, ?_⟩, counted, ?_, ?_, ?_, restarted.setup,
    restarted.awake, ?_, ?_⟩
  · exact (restarted.field TimerContext.timerIDStatus).trans recounted.status
  · exact (restarted.field TimerContext.pTimerCallBack).trans recounted.callback
  · exact (restarted.field TimerContext.nextID).trans recounted.next
  · exact (restarted.field TimerContext.previousID).trans recounted.prev
  · exact restarted.current.trans recounted.current
  · exact (restarted.field TimerContext.counterInit).trans init
  · exact restarted.config.trans (congrArg TimerServer.config rest :)
  · exact restarted.previous.trans (congrArg previousRunningTimerID rest :)
  · intro other first'
    obtain rfl := Option.some.inj (first'.symm.trans first)
    rw [counted other member, ← elapsed, sets]
    exact wakeupValue_le _ _
  · intro other first' whole
    obtain rfl := Option.some.inj (first'.symm.trans first)
    have limitation : u.wakeupTimerLimitation = setup.2 :=
      (congrArg wakeupTimerLimitation rest :)
    rw [counted other member, ← elapsed, sets]
    apply wakeupValue_whole
    rwa [← sets, ← limitation, ← restarted.limitation]

theorem Rescheduled.ordered {value : BitVec 16} (rescheduled : Rescheduled s t l ssr value)
    (chained : Chained s l) (ordered : Ordered s l) : Ordered t l := by
  intro i member j next
  rw [rescheduled.recounted.next] at next
  have member' := chained.thread.next_member member next
  have before := BitVec.le_def.mp (ordered i member j next)
  rw [BitVec.le_def, rescheduled.countLeft i member, rescheduled.countLeft j member']
  omega

/-! ## The whole counts -/

theorem countLoop_counterInit {timeElapsed : BitVec 32} {turns : Nat} {start : Option TimerID}
    (ends : countLoop timeElapsed turns start s = some t) : t.counterInit = s.counterInit := by
  induction turns generalizing start s with
  | zero =>
      cases start with
      | none =>
          obtain rfl := Option.some.inj ends
          rfl
      | some x => cases ends
  | succ turns ih =>
      cases start with
      | none =>
          obtain rfl := Option.some.inj ends
          rfl
      | some x => exact (ih ends).trans (counterInit_kept fun _ => rfl)

theorem rescheduleTimerList_counterInit (ends : s.rescheduleTimerList ssr = some t) :
    t.counterInit = s.counterInit := by
  cases current : s.currentRunningTimerID with
  | none =>
      unfold rescheduleTimerList at ends
      dsimp only at ends
      rw [current] at ends
      cases ends
  | some first =>
      rw [rescheduleTimerList_eq current] at ends
      rcases Option.map_eq_some_iff.mp ends with ⟨u, counted, rfl⟩
      have restarted := restartWakeupCounter_restarted (s := u)
        (s.wakeupValue (s.countLeft first) (s.returnTimeElapsed ssr.rescheduling)).1 ssr.restarting
      have kept := (restarted.field TimerContext.counterInit).trans (countLoop_counterInit counted)
      exact kept

theorem hwTsStop_counterInit (ends : s.hwTsStop timerID ssr = some t) :
    t.counterInit = s.counterInit := by
  unfold hwTsStop at ends
  have unlinked := (unlinkTimer_unlinked (s := s) timerID true).counterInit
  split at ends
  · dsimp only at ends
    split at ends
    · obtain rfl := Option.some.inj ends
      exact unlinked
    · split at ends
      · exact (rescheduleTimerList_counterInit ends).trans unlinked
      · obtain rfl := Option.some.inj ends
        exact unlinked
  · obtain rfl := Option.some.inj ends
    rfl

theorem startTimer_counterInit {timeoutTicks : BitVec 32}
    (ends : s.startTimer timerID timeoutTicks ssr = some t) :
    t.counterInit = Function.update s.counterInit timerID timeoutTicks := by
  have stored : (s.modify timerID fun c => { c with
      timerIDStatus := .running
      countLeft := timeoutTicks
      counterInit := timeoutTicks }).counterInit =
        Function.update s.counterInit timerID timeoutTicks := by
    funext j
    rw [counterInit, modify_apply, Function.update_apply]
    split <;> rfl
  unfold startTimer at ends
  rcases Option.bind_eq_some_iff.mp ends with ⟨⟨u, timeElapsed⟩, links, ends⟩
  have linked := (linkTimer_linked links).counterInit.trans stored
  dsimp only at ends
  split at ends
  · exact (rescheduleTimerList_counterInit ends).trans linked
  · obtain rfl := Option.some.inj ends
    have kept : (u.modify timerID fun c => { c with
        countLeft := c.countLeft - timeElapsed.setWidth 32 }).counterInit = u.counterInit :=
      counterInit_kept fun _ => rfl
    exact kept.trans linked

theorem hwTsRtcWakeupHandler_counterInit {notification : Option (Notification Cb)}
    (ends : s.hwTsRtcWakeupHandler ssr = some (t, notification)) :
    t.counterInit = s.counterInit := by
  unfold hwTsRtcWakeupHandler at ends
  dsimp only at ends
  split at ends
  · cases ends
  · rename_i current first
    split at ends
    · split at ends
      · split at ends
        · rcases Option.bind_eq_some_iff.mp ends with ⟨u, stops, ends⟩
          rcases Option.bind_eq_some_iff.mp ends with ⟨v, starts, ends⟩
          obtain ⟨rfl, _⟩ := Prod.mk.inj (Option.some.inj ends)
          rw [stopRunning_eq] at stops
          have stopped := (hwTsStop_counterInit stops).trans
            (unlinkTimer_unlinked current false).counterInit
          rw [startTimer_counterInit starts]
          exact (Function.update_eq_self ..).trans stopped
        · rcases Option.bind_eq_some_iff.mp ends with ⟨u, stops, ends⟩
          obtain ⟨rfl, _⟩ := Prod.mk.inj (Option.some.inj ends)
          have stopped := hwTsStop_counterInit stops
          exact stopped
      · rcases Option.bind_eq_some_iff.mp ends with ⟨u, again, ends⟩
        obtain ⟨rfl, _⟩ := Prod.mk.inj (Option.some.inj ends)
        have kept := rescheduleTimerList_counterInit again
        exact kept
    · obtain ⟨rfl, _⟩ := Prod.mk.inj (Option.some.inj ends)
      rfl

end TimerServer

end Baelux.Timers

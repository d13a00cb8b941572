import Baelux.Library.Thread
import Baelux.Timers.TimerServer

/-! The running timers are linked, whatever the timer server is asked for: no search or count
along the links goes on for ever, and the wakeup interrupt always finds a timer. -/

namespace Baelux.Timers

namespace TimerServer

variable {Cb : Type} {s t : TimerServer Cb} {l : List TimerID} {i j timerID : TimerID}
variable {ssr : SsrReadings} {f : TimerContext Cb → TimerContext Cb}

/-! ## One slot -/

theorem modify_apply : (s.modify i f).aTimerContext j =
    if j = i then f (s.aTimerContext i) else s.aTimerContext j :=
  Function.update_apply ..

theorem status_modify : (s.modify i f).status j =
    if j = i then (f (s.aTimerContext i)).timerIDStatus else s.status j := by
  rw [status, modify_apply]
  split <;> rfl

theorem next_modify : (s.modify i f).next j =
    if j = i then (f (s.aTimerContext i)).nextID else s.next j := by
  rw [next, modify_apply]
  split <;> rfl

theorem prev_modify : (s.modify i f).prev j =
    if j = i then (f (s.aTimerContext i)).previousID else s.prev j := by
  rw [prev, modify_apply]
  split <;> rfl

theorem modify_kept {β : Type} (field : TimerContext Cb → β) (kept : ∀ c, field (f c) = field c) :
    (fun j => field ((s.modify i f).aTimerContext j)) = fun j => field (s.aTimerContext j) := by
  funext j
  rw [modify_apply]
  split
  · subst j
    exact kept _
  · rfl

theorem next_kept (kept : ∀ c, (f c).nextID = c.nextID) : (s.modify i f).next = s.next :=
  modify_kept TimerContext.nextID kept

theorem prev_kept (kept : ∀ c, (f c).previousID = c.previousID) : (s.modify i f).prev = s.prev :=
  modify_kept TimerContext.previousID kept

structure Same (s t : TimerServer Cb) : Prop where
  status : t.status = s.status
  callback : t.callback = s.callback

theorem Same.refl (s : TimerServer Cb) : Same s s := ⟨rfl, rfl⟩

theorem Same.trans {u : TimerServer Cb} (first : Same s t) (second : Same t u) : Same s u :=
  ⟨second.status.trans first.status, second.callback.trans first.callback⟩

theorem Same.modify (same : Same s t) (status : ∀ c, (f c).timerIDStatus = c.timerIDStatus)
    (callback : ∀ c, (f c).pTimerCallBack = c.pTimerCallBack) : Same s (t.modify i f) := by
  apply same.trans
  exact ⟨modify_kept TimerContext.timerIDStatus status,
    modify_kept TimerContext.pTimerCallBack callback⟩

structure Chained (s : TimerServer Cb) (l : List TimerID) : Prop where
  thread : Thread s.next s.prev s.currentRunningTimerID l none
  nodup : l.Nodup

structure Listed (s : TimerServer Cb) (l : List TimerID) : Prop extends Chained s l where
  running : ∀ i, i ∈ l ↔ s.status i = .running

theorem Chained.length_le (chained : Chained s l) : l.length ≤ 6 := by
  have bound := List.Nodup.length_le_card chained.nodup
  rwa [Fintype.card_fin] at bound

theorem Chained.congr (chained : Chained s l) (next : t.next = s.next) (prev : t.prev = s.prev)
    (current : t.currentRunningTimerID = s.currentRunningTimerID) : Chained t l :=
  ⟨by rw [next, prev, current]; exact chained.thread, chained.nodup⟩

theorem Chained.modify (chained : Chained s l) (next : ∀ c, (f c).nextID = c.nextID)
    (prev : ∀ c, (f c).previousID = c.previousID) : Chained (s.modify i f) l :=
  chained.congr (next_kept next) (prev_kept prev) rfl

structure Recounted (s t : TimerServer Cb) : Prop extends Same s t where
  next : t.next = s.next
  prev : t.prev = s.prev
  current : t.currentRunningTimerID = s.currentRunningTimerID

theorem Recounted.trans {u : TimerServer Cb} (first : Recounted s t) (second : Recounted t u) :
    Recounted s u :=
  ⟨first.toSame.trans second.toSame, second.next.trans first.next, second.prev.trans first.prev,
    second.current.trans first.current⟩

theorem Recounted.chained (recounted : Recounted s t) (chained : Chained s l) : Chained t l :=
  chained.congr recounted.next recounted.prev recounted.current

theorem Recounted.listed (recounted : Recounted s t) (listed : Listed s l) : Listed t l := by
  refine ⟨recounted.chained listed.toChained, ?_⟩
  rw [recounted.status]
  exact listed.running

theorem recounted_modify (count : BitVec 32 → BitVec 32) :
    Recounted s (s.modify i fun c => { c with countLeft := count c.countLeft }) := by
  refine ⟨?_, next_kept fun _ => rfl, prev_kept fun _ => rfl, rfl⟩
  apply (Same.refl s).modify
  · exact fun _ => rfl
  · exact fun _ => rfl

/-! ## Linking -/

theorem linkTimerAfter_same (ref : TimerID) : Same s (s.linkTimerAfter timerID ref) := by
  unfold linkTimerAfter
  dsimp only
  repeat' apply Same.modify
  · split
    · apply (Same.refl s).modify
      · exact fun _ => rfl
      · exact fun _ => rfl
    · exact .refl s
  all_goals exact fun _ => rfl

theorem current_linkTimerAfter (ref : TimerID) :
    (s.linkTimerAfter timerID ref).currentRunningTimerID = s.currentRunningTimerID := by
  unfold linkTimerAfter
  dsimp only
  split
  · rfl
  · rfl

theorem next_linkTimerAfter (ref : TimerID) : (s.linkTimerAfter timerID ref).next j =
    if j = ref then some timerID else if j = timerID then s.next ref else s.next j := by
  unfold linkTimerAfter
  dsimp only
  rw [next_modify, next_modify]
  split
  · rfl
  split
  · rfl
  split
  · rw [next_kept]
    exact fun _ => rfl
  · rfl

theorem prev_linkTimerAfter (ref : TimerID) :
    (s.linkTimerAfter timerID ref).prev j =
      if j = timerID then ref else if s.next ref = some j then timerID else s.prev j := by
  unfold linkTimerAfter
  dsimp only
  rw [prev_kept, prev_modify]
  · split
    · rfl
    cases s.next ref with
    | none => exact (if_neg nofun).symm
    | some follower =>
      dsimp only
      rw [prev_modify]
      by_cases here : j = follower
      · rw [if_pos here, if_pos (congrArg some here.symm)]
      · rw [if_neg here, if_neg fun same => here (Option.some.inj same).symm]
  · exact fun _ => rfl

theorem linkTimerAfter_chained {front back : List TimerID} {ref : TimerID}
    (chained : Chained s (front ++ ref :: back)) (new : timerID ∉ front ++ ref :: back) :
    Chained (s.linkTimerAfter timerID ref) (front ++ ref :: timerID :: back) := by
  have other : ref ≠ timerID := ne_of_mem_of_not_mem (by simp) new
  have follower : ∀ z, s.next ref = some z → z ≠ timerID := fun z follows =>
    ne_of_mem_of_not_mem (chained.thread.next_member (by simp) follows) new
  constructor
  · rw [current_linkTimerAfter]
    apply chained.thread.insert_after chained.nodup new
    · rw [next_linkTimerAfter, if_pos rfl]
    · rw [next_linkTimerAfter, if_neg (Ne.symm other), if_pos rfl]
    · intro z not_new not_ref
      rw [next_linkTimerAfter, if_neg not_ref, if_neg not_new]
    · rw [prev_linkTimerAfter, if_pos rfl]
    · intro z follows
      rw [prev_linkTimerAfter, if_neg (follower z follows), if_pos follows]
    · intro z not_new apart
      rw [prev_linkTimerAfter, if_neg not_new, if_neg apart]
  · have nodup := chained.nodup
    grind

theorem linkTimerBefore_first {current : TimerID} (chained : Chained s l) (new : timerID ∉ l)
    (first : s.currentRunningTimerID = some current) :
    Same s (s.linkTimerBefore timerID current) ∧
      Chained { s.linkTimerBefore timerID current with
        previousRunningTimerID := s.currentRunningTimerID
        currentRunningTimerID := some timerID } (timerID :: l) := by
  have before : s.linkTimerBefore timerID current =
      (s.modify timerID fun c => { c with nextID := some current }).modify current
        fun c => { c with previousID := timerID } := if_neg (not_not_intro first.symm)
  have next : ∀ j, (s.linkTimerBefore timerID current).next j =
      if j = timerID then some current else s.next j := by
    intro j
    rw [before, next_kept, next_modify]
    exact fun _ => rfl
  have prev : ∀ j, (s.linkTimerBefore timerID current).prev j =
      if j = current then timerID else s.prev j := by
    intro j
    rw [before, prev_modify]
    split
    · rfl
    · rw [prev_kept]
      exact fun _ => rfl
  refine ⟨?_, ?_, List.nodup_cons.mpr ⟨new, chained.nodup⟩⟩
  · rw [before]
    repeat' apply Same.modify
    · exact .refl s
    all_goals exact fun _ => rfl
  · apply chained.thread.insert_front chained.nodup new
    · exact (next timerID).trans ((if_pos rfl).trans first.symm)
    · intro y here
      rw [first] at here
      obtain rfl := Option.some.inj here
      exact (prev current).trans (if_pos rfl)
    · intro z other
      exact (next z).trans (if_neg other)
    · intro z _ apart
      apply (prev z).trans (if_neg _)
      rintro rfl
      exact apart first

theorem lookupLoop_ends (timeLeft : BitVec 32) {turns : Nat}
    (thread : Thread s.next s.prev (some i) l none) (enough : l.length ≤ turns) :
    ∃ found, s.lookupLoop timeLeft turns i = some found ∧ found ∈ l := by
  induction turns generalizing i l with
  | zero =>
      obtain rfl := List.eq_nil_of_length_eq_zero (Nat.le_zero.mp enough)
      cases thread
  | succ turns ih =>
      cases l with
      | nil => cases thread
      | cons x rest =>
          rcases thread with ⟨here, _, thread⟩
          obtain rfl := Option.some.inj here
          rw [lookupLoop]
          cases follows : s.next i with
          | none => exact ⟨i, rfl, List.mem_cons_self ..⟩
          | some nextID =>
              dsimp only
              split
              · rw [follows] at thread
                rcases ih thread (Nat.le_of_succ_le_succ enough) with ⟨found, ends, member⟩
                exact ⟨found, ends, List.mem_cons_of_mem _ member⟩
              · exact ⟨i, rfl, List.mem_cons_self ..⟩

private theorem linkTimer_alone (timerID : TimerID) (ssr : SsrReadings)
    (empty : s.currentRunningTimerID = none) : ∃ t, s.linkTimer timerID ssr = some (t, 0) ∧
      Same s t ∧ Chained t [timerID] ∧ t.currentRunningTimerID ≠ none := by
  have alone : (s.modify timerID fun c => { c with nextID := none }).next timerID = none := by
    rw [next_modify, if_pos rfl]
  have same : Same s (s.modify timerID fun c => { c with nextID := none }) := by
    apply (Same.refl s).modify
    · exact fun _ => rfl
    · exact fun _ => rfl
  unfold linkTimer
  split
  · refine ⟨_, rfl, same.trans ⟨rfl, rfl⟩, ⟨⟨rfl, ?_, alone⟩, by simp⟩, nofun⟩
    intro y follows
    cases alone.symm.trans follows
  · rename_i current first
    cases empty.symm.trans first

theorem linkTimer_spec (ssr : SsrReadings) (chained : Chained s l) (new : timerID ∉ l) :
    ∃ t timeElapsed l', s.linkTimer timerID ssr = some (t, timeElapsed) ∧ Same s t ∧
      Chained t l' ∧ (∀ i, i ∈ l' ↔ i ∈ l ∨ i = timerID) ∧ t.currentRunningTimerID ≠ none := by
  cases first : s.currentRunningTimerID with
  | none =>
    have nothing : l = [] := by
      cases l with
      | nil => rfl
      | cons x rest => cases first.symm.trans chained.thread.1
    subst nothing
    rcases linkTimer_alone timerID ssr first with ⟨t, links, same, alone, busy⟩
    exact ⟨t, 0, [timerID], links, same, alone, by simp, busy⟩
  | some current =>
    simp only [linkTimer, first]
    have recounted : Recounted s (s.modify timerID fun c =>
        { c with countLeft := c.countLeft + (s.returnTimeElapsed ssr.linking).setWidth 32 }) :=
      recounted_modify (· + (s.returnTimeElapsed ssr.linking).setWidth 32)
    have counted := recounted.toSame
    have chained' := recounted.chained chained
    split
    · have thread := chained'.thread
      have started : (s.modify timerID fun c => { c with
          countLeft := c.countLeft + (s.returnTimeElapsed ssr.linking).setWidth 32
          }).currentRunningTimerID = some current := first
      rw [started] at thread
      rcases lookupLoop_ends _ thread chained.length_le with ⟨found, ends, member⟩
      rw [ends]
      rcases List.append_of_mem member with ⟨front, back, rfl⟩
      refine ⟨_, _, _, rfl, counted.trans (linkTimerAfter_same found),
        linkTimerAfter_chained chained' new, ?_, ?_⟩
      · intro i
        simp only [List.mem_append, List.mem_cons]
        tauto
      · rw [current_linkTimerAfter, started]
        exact nofun
    · rcases linkTimerBefore_first chained' new first with ⟨same, linked⟩
      refine ⟨_, _, _, rfl, counted.trans (same.trans ⟨rfl, rfl⟩),
        linked.congr rfl rfl rfl, ?_, nofun⟩
      intro i
      rw [List.mem_cons, or_comm]

/-! ## Unlinking -/

/-- The first half of `UnlinkTimer`: the links around the timer. -/
private def bypass (s : TimerServer Cb) (timerID : TimerID) : TimerServer Cb :=
  if some timerID = s.currentRunningTimerID then
    { s with
      previousRunningTimerID := s.currentRunningTimerID
      currentRunningTimerID := s.next timerID }
  else
    let t := s.modify (s.prev timerID) fun c => { c with nextID := s.next timerID }
    match s.next timerID with
    | some follower => t.modify follower fun c => { c with previousID := t.prev timerID }
    | none => t

/-- The second half: the timer is out of the list. -/
private def release (s : TimerServer Cb) (timerID : TimerID) (ssrReadRequested : Bool) :
    TimerServer Cb :=
  let t := s.modify timerID fun c => { c with timerIDStatus := .created }
  if t.currentRunningTimerID = none ∧ ssrReadRequested then
    { t with ssrValueOnLastSetup := ssrForbiddenValue }
  else t

private theorem unlinkTimer_eq (ssrReadRequested : Bool) : s.unlinkTimer timerID ssrReadRequested =
    release (bypass s timerID) timerID ssrReadRequested := rfl

private theorem release_status (ssrReadRequested : Bool) :
    (release s timerID ssrReadRequested).status = Function.update s.status timerID .created := by
  have stored : (s.modify timerID fun c => { c with timerIDStatus := .created }).status =
      Function.update s.status timerID .created := by
    funext j
    rw [status_modify, Function.update_apply]
  unfold release
  dsimp only
  split
  · exact stored
  · exact stored

private theorem release_callback (ssrReadRequested : Bool) :
    (release s timerID ssrReadRequested).callback = s.callback := by
  have stored : (s.modify timerID fun c => { c with timerIDStatus := .created }).callback =
      s.callback := modify_kept TimerContext.pTimerCallBack fun _ => rfl
  unfold release
  dsimp only
  split
  · exact stored
  · exact stored

private theorem release_chained (ssrReadRequested : Bool) (chained : Chained s l) :
    Chained (release s timerID ssrReadRequested) l := by
  have stored : Chained (s.modify timerID fun c => { c with timerIDStatus := .created }) l := by
    apply chained.modify
    · exact fun _ => rfl
    · exact fun _ => rfl
  unfold release
  dsimp only
  split
  · exact stored.congr rfl rfl rfl
  · exact stored

private theorem bypass_same (s : TimerServer Cb) (timerID : TimerID) :
    Same s (bypass s timerID) := by
  have stored : Same s
      (s.modify (s.prev timerID) fun c => { c with nextID := s.next timerID }) := by
    apply (Same.refl s).modify
    · exact fun _ => rfl
    · exact fun _ => rfl
  unfold bypass
  split
  · exact ⟨rfl, rfl⟩
  dsimp only
  split
  · apply stored.modify
    · exact fun _ => rfl
    · exact fun _ => rfl
  · exact stored

private theorem bypass_links {before : TimerID} (points : s.prev timerID = before)
    (inner : some timerID ≠ s.currentRunningTimerID) :
    (∀ j, (bypass s timerID).next j = if j = before then s.next timerID else s.next j) ∧
      (∀ j, (bypass s timerID).prev j = if s.next timerID = some j then before else s.prev j) ∧
      (bypass s timerID).currentRunningTimerID = s.currentRunningTimerID := by
  unfold bypass
  rw [if_neg inner]
  dsimp only
  rw [points]
  cases s.next timerID with
  | none =>
      refine ⟨fun j => next_modify, ?_, rfl⟩
      intro j
      rw [prev_kept]
      · exact (if_neg nofun).symm
      · exact fun _ => rfl
  | some follower =>
      refine ⟨?_, ?_, rfl⟩
      · intro j
        rw [next_kept, next_modify]
        exact fun _ => rfl
      · intro j
        have kept : (s.modify before fun c => { c with nextID := some follower }).prev =
            s.prev := prev_kept fun _ => rfl
        rw [prev_modify, kept, points]
        by_cases here : j = follower
        · rw [if_pos here, if_pos (congrArg some here.symm)]
        · rw [if_neg here, if_neg fun same => here (Option.some.inj same).symm]

private theorem bypass_inner {front back : List TimerID} {before : TimerID}
    (chained : Chained s (front ++ before :: timerID :: back)) :
    Chained (bypass s timerID) (front ++ before :: back) := by
  have nodup := chained.nodup
  have points : s.prev timerID = before := by
    rcases Thread.append.mp chained.thread with ⟨_, _, _, points, first, _⟩
    exact points timerID first
  have inner : some timerID ≠ s.currentRunningTimerID := by
    intro here
    have thread := chained.thread
    rw [← here] at thread
    cases front with
    | nil =>
        obtain rfl := Option.some.inj thread.1
        simp at nodup
    | cons x rest =>
        obtain rfl := Option.some.inj thread.1
        simp at nodup
  rcases bypass_links points inner with ⟨next, prev, current⟩
  constructor
  · rw [current]
    apply chained.thread.remove_after nodup
    · rw [next, if_pos rfl]
    · intro z _ other
      rw [next, if_neg other]
    · intro z follows
      rw [prev, if_pos follows]
    · intro z apart
      rw [prev, if_neg apart]
  · grind

theorem unlinkTimer_spec (ssrReadRequested : Bool) (listed : Listed s l) (member : timerID ∈ l) :
    (∃ l', Listed (s.unlinkTimer timerID ssrReadRequested) l') ∧
      (s.unlinkTimer timerID ssrReadRequested).status =
        Function.update s.status timerID .created ∧
      (s.unlinkTimer timerID ssrReadRequested).callback = s.callback := by
  have same := bypass_same s timerID
  have status : (s.unlinkTimer timerID ssrReadRequested).status =
      Function.update s.status timerID .created := by
    rw [unlinkTimer_eq, release_status, same.status]
  refine ⟨?_, status, ?_⟩
  · rcases List.append_of_mem member with ⟨front, back, rfl⟩
    have nodup := listed.nodup
    have left : Chained (bypass s timerID) (front ++ back) := by
      rcases List.eq_nil_or_concat front with rfl | ⟨others, before, rfl⟩
      · rcases listed.thread with ⟨first, _, thread⟩
        have cut : bypass s timerID = { s with
            previousRunningTimerID := s.currentRunningTimerID
            currentRunningTimerID := s.next timerID } := if_pos first.symm
        rw [cut]
        exact ⟨thread, (List.nodup_cons.mp nodup).2⟩
      · have chained := listed.toChained
        rw [List.concat_eq_append, List.append_assoc, List.singleton_append] at chained ⊢
        exact bypass_inner chained
    refine ⟨front ++ back, release_chained ssrReadRequested left, ?_⟩
    intro i
    have linked := listed.running i
    rw [status, Function.update_apply]
    split
    · subst i
      grind
    · rw [← linked]
      grind
  · rw [unlinkTimer_eq, release_callback, same.callback]

/-! ## The wakeup timer -/

theorem countLoop_spec (timeElapsed : BitVec 32) {start : Option TimerID} {turns : Nat}
    (thread : Thread s.next s.prev start l none) (enough : l.length ≤ turns) :
    ∃ t, countLoop timeElapsed turns start s = some t ∧ Recounted s t := by
  induction l generalizing s start turns with
  | nil =>
      obtain rfl : start = none := thread
      refine ⟨s, ?_, .refl s, rfl, rfl, rfl⟩
      cases turns <;> rfl
  | cons x rest ih =>
      rcases thread with ⟨rfl, _, thread⟩
      cases turns with
      | zero => cases enough
      | succ turns =>
          have counted : Recounted s (s.modify x fun c => { c with
              countLeft := if c.countLeft < timeElapsed then 0
                else c.countLeft - timeElapsed }) :=
            recounted_modify fun count => if count < timeElapsed then 0 else count - timeElapsed
          rw [← counted.next, ← counted.prev] at thread
          rcases ih thread (Nat.le_of_succ_le_succ enough) with ⟨t, ends, later⟩
          exact ⟨t, ends, counted.trans later⟩

theorem rescheduleTimerList_spec (ssr : SsrReadings) (listed : Listed s l)
    (busy : s.currentRunningTimerID ≠ none) :
    ∃ t, s.rescheduleTimerList ssr = some t ∧ Recounted s t := by
  have restarted : ∀ (u : TimerServer Cb) value reading,
      Recounted u (u.restartWakeupCounter value reading) := by
    intro u value reading
    unfold restartWakeupCounter
    dsimp only
    split
    · exact ⟨⟨rfl, rfl⟩, rfl, rfl, rfl⟩
    · exact ⟨⟨rfl, rfl⟩, rfl, rfl, rfl⟩
  unfold rescheduleTimerList
  dsimp only
  split
  · exact absurd ‹_› busy
  · rename_i first current
    have thread := listed.thread
    rw [current] at thread
    rcases countLoop_spec (s := { s with
        wakeupTimerEnabled := false
        wakeupTimerLimitation := _ }) _ thread listed.length_le with ⟨t, ends, counted⟩
    refine ⟨_, by rw [ends]; rfl, ?_⟩
    have same : Recounted s t := ⟨⟨counted.status, counted.callback⟩, counted.next, counted.prev,
      counted.current⟩
    exact same.trans (restarted _ _ _)

/-! ## The interface -/

/-- The links are in order, and the wakeup interrupt comes only while a timer is running. -/
structure Orderly (s : TimerServer Cb) : Prop where
  listed : ∃ l, Listed s l
  irq : s.wakeupTimerEnabled = true ∨ s.pendingIrq = true → s.currentRunningTimerID ≠ none

theorem Listed.orderly (listed : Listed s l) (busy : s.currentRunningTimerID ≠ none) : Orderly s :=
  ⟨⟨l, listed⟩, fun _ => busy⟩

theorem hwTsStop_spec (timerID : TimerID) (ssr : SsrReadings) (orderly : Orderly s) :
    ∃ t, s.hwTsStop timerID ssr = some t ∧ Orderly t ∧ t.callback = s.callback ∧
      t.status = if s.status timerID = .running then Function.update s.status timerID .created
        else s.status := by
  unfold hwTsStop
  split
  · rename_i running
    rcases orderly.listed with ⟨l, listed⟩
    rcases unlinkTimer_spec true listed ((listed.running timerID).mpr running) with
      ⟨⟨l', left⟩, status, callback⟩
    dsimp only
    split
    · refine ⟨_, rfl, ⟨⟨l', ?_⟩, by simp⟩, callback, status⟩
      exact ⟨left.toChained.congr rfl rfl rfl, left.running⟩
    · rename_i first current
      have busy : (s.unlinkTimer timerID true).currentRunningTimerID ≠ none := by
        rw [current]
        exact nofun
      split
      · rcases rescheduleTimerList_spec ssr left busy with ⟨t, ends, recounted⟩
        refine ⟨t, ends, (recounted.listed left).orderly ?_, recounted.callback.trans callback,
          recounted.status.trans status⟩
        rw [recounted.current]
        exact busy
      · exact ⟨_, rfl, left.orderly busy, callback, status⟩
  · exact ⟨s, rfl, orderly, rfl, rfl⟩

theorem stopRunning_eq (timerID : TimerID) (ssr : SsrReadings) :
    s.stopRunning timerID ssr = s.hwTsStop timerID ssr := by
  unfold stopRunning
  split
  · rfl
  · rw [hwTsStop, if_neg ‹_›]

theorem startTimer_spec (timeoutTicks : BitVec 32) (ssr : SsrReadings) (listed : Listed s l)
    (stopped : s.status timerID ≠ .running) :
    ∃ t, s.startTimer timerID timeoutTicks ssr = some t ∧ Orderly t ∧ t.callback = s.callback ∧
      t.status = Function.update s.status timerID .running := by
  have started : ∃ u : TimerServer Cb, u = s.modify timerID (fun c => { c with
      timerIDStatus := .running
      countLeft := timeoutTicks
      counterInit := timeoutTicks }) ∧ u.callback = s.callback ∧
      u.status = Function.update s.status timerID .running ∧ Chained u l := by
    refine ⟨_, rfl, modify_kept TimerContext.pTimerCallBack fun _ => rfl, ?_, ?_⟩
    · funext j
      rw [status_modify, Function.update_apply]
    · apply listed.toChained.modify
      · exact fun _ => rfl
      · exact fun _ => rfl
  rcases started with ⟨u, stored, callback, status, chained⟩
  have new : timerID ∉ l := fun member => stopped ((listed.running timerID).mp member)
  rcases linkTimer_spec ssr chained new with
    ⟨t, timeElapsed, l', links, same, linked, members, busy⟩
  have now : t.status = Function.update s.status timerID .running := same.status.trans status
  have listed' : Listed t l' := by
    refine ⟨linked, ?_⟩
    intro i
    rw [members, now, Function.update_apply, listed.running]
    split <;> simp [*]
  unfold startTimer
  rw [← stored]
  dsimp only
  rw [links]
  simp only [Option.bind_eq_bind, Option.bind_some]
  split
  · rcases rescheduleTimerList_spec ssr listed' busy with ⟨v, ends, recounted⟩
    refine ⟨v, ends, (recounted.listed listed').orderly ?_,
      recounted.callback.trans (same.callback.trans callback), recounted.status.trans now⟩
    rw [recounted.current]
    exact busy
  · have counted : Recounted t (t.modify timerID fun c =>
        { c with countLeft := c.countLeft - timeElapsed.setWidth 32 }) :=
      recounted_modify (· - timeElapsed.setWidth 32)
    exact ⟨_, rfl, (counted.listed listed').orderly busy,
      counted.callback.trans (same.callback.trans callback), counted.status.trans now⟩

private theorem restart_spec (timeoutTicks : BitVec 32) (ssr : SsrReadings) (listed : Listed s l)
    (member : timerID ∈ l) :
    (s.unlinkTimer timerID false).stopRunning timerID ssr = some (s.unlinkTimer timerID false) ∧
      ∃ t, (s.unlinkTimer timerID false).startTimer timerID timeoutTicks ssr = some t ∧
        Orderly t ∧ t.callback = s.callback ∧ t.status = s.status := by
  rcases unlinkTimer_spec false listed member with ⟨⟨l', left⟩, status, callback⟩
  have stopped : (s.unlinkTimer timerID false).status timerID ≠ .running := by
    rw [status, Function.update_self]
    exact nofun
  rcases startTimer_spec timeoutTicks ssr left stopped with
    ⟨t, starts, orderly, callback', status'⟩
  refine ⟨if_neg stopped, t, starts, orderly, callback'.trans callback, ?_⟩
  calc
    t.status = Function.update (s.unlinkTimer timerID false).status timerID .running := status'
    _ = Function.update s.status timerID .running := by
      rw [status, Function.update_idem]
    _ = s.status := by
      rw [← (listed.running timerID).mp member, Function.update_eq_self]

/-- The wakeup handler notifies the owner of a running timer, and starts no timer that did not
run. -/
theorem hwTsRtcWakeupHandler_spec (ssr : SsrReadings) (orderly : Orderly s)
    (irq : s.wakeupTimerEnabled = true ∨ s.pendingIrq = true) :
    ∃ t notification, s.hwTsRtcWakeupHandler ssr = some (t, notification) ∧ Orderly t ∧
      t.callback = s.callback ∧
      (∀ i, t.status i = s.status i ∨ s.status i = .running ∧ t.status i = .created) ∧
      ∀ n, notification = some n →
        s.status n.timerID = .running ∧ n.pTimerCallBack = s.callback n.timerID := by
  rcases orderly.listed with ⟨l, listed⟩
  have busy := orderly.irq irq
  have listed' : Listed { s with wakeupTimerEnabled := false, pendingIrq := false } l :=
    ⟨listed.toChained.congr rfl rfl rfl, listed.running⟩
  unfold hwTsRtcWakeupHandler
  dsimp only
  split
  · exact absurd ‹_› busy
  · rename_i first current
    have member : first ∈ l := by
      have thread := listed.thread
      rw [show s.currentRunningTimerID = some first from current] at thread
      exact thread.start_mem
    have running := (listed.running first).mp member
    rw [if_pos (show (s.aTimerContext first).timerIDStatus = .running from running)]
    split
    · split
      · rcases restart_spec _ ssr listed' member with ⟨passes, t, ends, restarted, callback, status⟩
        rw [passes, Option.bind_eq_bind, Option.bind_some, ends]
        refine ⟨t, _, rfl, restarted, callback, ?_, ?_⟩
        · intro i
          exact Or.inl (congrFun status i)
        · rintro n ⟨rfl⟩
          exact ⟨running, rfl⟩
      · have orderly' : Orderly { s with wakeupTimerEnabled := false, pendingIrq := false } :=
          ⟨⟨l, listed'⟩, by simp⟩
        rcases hwTsStop_spec first ssr orderly' with ⟨t, ends, stopped, callback, status⟩
        rw [ends]
        have status' : t.status = Function.update s.status first .created :=
          status.trans (if_pos running)
        refine ⟨t, _, rfl, stopped, callback, ?_, ?_⟩
        · intro i
          rw [status', Function.update_apply]
          split
          · subst i
            exact Or.inr ⟨running, rfl⟩
          · exact Or.inl rfl
        · rintro n ⟨rfl⟩
          exact ⟨running, rfl⟩
    · rcases rescheduleTimerList_spec ssr listed' busy with ⟨t, ends, recounted⟩
      rw [ends]
      refine ⟨t, none, rfl, (recounted.listed listed').orderly ?_, recounted.callback, ?_, nofun⟩
      · rw [recounted.current]
        exact busy
      · intro i
        exact Or.inl (congrFun recounted.status i)

theorem hwTsCreate_spec (timerProcessID : BitVec 32) (timerMode : TimerMode) (cb : Cb)
    (orderly : Orderly s) :
    (∃ loop t, s.hwTsCreate timerProcessID timerMode cb = (t, some loop) ∧
      s.status loop = .free ∧ Orderly t ∧ t.status = Function.update s.status loop .created ∧
      t.callback = Function.update s.callback loop (some cb)) ∨
    (s.hwTsCreate timerProcessID timerMode cb = (s, none) ∧ ∀ i, s.status i ≠ .free) := by
  unfold hwTsCreate
  split
  · rename_i loop found
    have free : s.status loop = .free := by simpa using List.find?_some found
    have status : (s.modify loop fun c => { c with
        timerIDStatus := .created
        timerProcessID := timerProcessID
        timerMode := timerMode
        pTimerCallBack := some cb }).status = Function.update s.status loop .created := by
      funext j
      rw [status_modify, Function.update_apply]
    refine Or.inl ⟨loop, _, rfl, free, ⟨?_, orderly.irq⟩, status, ?_⟩
    · rcases orderly.listed with ⟨l, listed⟩
      refine ⟨l, listed.toChained.modify ?_ ?_, ?_⟩
      · exact fun _ => rfl
      · exact fun _ => rfl
      · intro i
        rw [status, Function.update_apply, listed.running]
        split
        · subst i
          simp [free]
        · rfl
    · funext j
      rw [callback, modify_apply, Function.update_apply]
      split
      · rfl
      · rfl
  · rename_i missing
    refine Or.inr ⟨rfl, fun i => ?_⟩
    simpa using List.find?_eq_none.mp missing i (List.mem_finRange i)

theorem hwTsInit_orderly (rtc : RtcConfig) : Orderly (s.hwTsInit rtc) := by
  refine ⟨⟨[], ⟨rfl, List.nodup_nil⟩, ?_⟩, ?_⟩
  · intro i
    exact iff_of_false List.not_mem_nil nofun
  · rintro (⟨⟨⟩⟩ | ⟨⟨⟩⟩)

end TimerServer

end Baelux.Timers

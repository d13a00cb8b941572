import Baelux.Zigbee.StartupWait

/-! Every task keeps the waits of the others, so in a run without disturbance each
startup gets the status of its own callback. -/

namespace Baelux.Zigbee

open Effect Nesting Flash

variable {env : Env} {s₀ s t : State} {i : InfoId} {status : ZbStatus}

/-! ## The programs of a startup -/

def Requested (s₀ : State) (i : InfoId) (status : ZbStatus) (s : State) : Prop :=
  if status = zbStatusSuccess then Accepted s₀ i s else Asked s₀ i s

theorem requested_kept (s₀ : State) (i : InfoId) (status : ZbStatus) :
    Kept (Requested s₀ i status) := by
  by_cases accepted : status = zbStatusSuccess
  · have same : Requested s₀ i status = Accepted s₀ i := funext fun s => if_pos accepted
    exact same ▸ accepted_kept s₀ i
  · have same : Requested s₀ i status = Asked s₀ i := funext fun s => if_neg accepted
    exact same ▸ asked_kept s₀ i

theorem startup_requested (asked : Asked s₀ i s)
    (clear : status = zbStatusSuccess → s.evtSet .zigbeeStartupEnded = false) :
    Requested s₀ i status (s.startup i status) := by
  unfold Requested State.startup
  split
  · exact accept_asked asked (clear ‹_›)
  · exact asked

theorem runs_transfer_startup (s₀ : State) (i : InfoId) (type : ZbStartType) :
    Runs env (Asked s₀ i) (call (.transfer (.startup type i))) (Requested s₀ i) := by
  apply runs_call (.transfer (.startup type i)) (asked_kept s₀ i).steady
    (fun status => (requested_kept s₀ i status).steady)
  intro s asked
  refine ⟨trivial, fun choice answer t done undisturbed => ?_⟩
  rcases Option.map_eq_some_iff.mp done with ⟨status, _, same⟩
  rcases Prod.mk.inj same with ⟨rfl, rfl⟩
  exact startup_requested asked undisturbed

theorem runs_zbStartup (s₀ : State) (i : InfoId) (type : ZbStartType) :
    Runs env (Asked s₀ i) (zbStartup type i) (Requested s₀ i) := by
  have asked := asked_kept s₀ i
  apply triple_bind (asked.runs (quiet_call (by trivial)))
  intro (allocated : Bool)
  apply triple_ite
  · intro _
    apply triple_bind (asked.runs (quiet_wait (by trivial)))
    intro _
    apply triple_bind (runs_transfer_startup s₀ i type)
    intro (status : ZbStatus)
    have kept := requested_kept s₀ i status
    apply triple_bind (kept.runs (quiet_wait (by trivial)))
    intro _
    exact triple_pure kept.steady.stable fun _ requested => requested
  · intro _
    have refused : Requested s₀ i zbStatusAllocFail = Asked s₀ i :=
      funext fun s => if_neg (by decide)
    exact triple_pure (B := Requested s₀ i) asked.steady.stable fun s holds =>
      congrFun refused s ▸ holds

def Malloced (s₀ : State) : Option InfoId → State → Prop
  | none => Within s₀
  | some i => Asked s₀ i

theorem runs_mallocInfo (s₀ : State) : Runs env (Within s₀) mallocInfo (Malloced s₀) := by
  have steady : ∀ answer, Steady (Malloced s₀ answer)
    | none => (within_kept s₀).steady
    | some i => (asked_kept s₀ i).steady
  apply runs_call .mallocInfo (within_kept s₀).steady steady
  intro s within
  refine ⟨trivial, fun choice answer t done _ => ?_⟩
  rcases Option.bind_eq_some_iff.mp done with ⟨block, _, done⟩
  cases block with
  | none =>
    rcases Prod.mk.inj (Option.some.inj done) with ⟨rfl, rfl⟩
    exact within
  | some block =>
    rcases Option.ite_none_right_eq_some.mp done with ⟨free, done⟩
    rcases Prod.mk.inj (Option.some.inj done) with ⟨rfl, rfl⟩
    exact allocated within free block.2

theorem runs_writeInfo (s₀ : State) (i : InfoId)
    (update : ZbStartupWaitInfo → ZbStartupWaitInfo) :
    Runs env (Asked s₀ i) (writeInfo i update) fun _ => Asked s₀ i := by
  apply runs_call (.writeInfo i update) (asked_kept s₀ i).steady (fun _ => (asked_kept s₀ i).steady)
  intro s asked
  refine ⟨trivial, fun choice answer t done _ => ?_⟩
  obtain rfl := answered_state done
  exact written_asked asked update

/-- The wake finds the status that the callback left. -/
theorem runs_wait_startup (s₀ : State) (i : InfoId) :
    Runs env (Accepted s₀ i) (utilSeqWaitEvt .zigbeeStartupEnded) fun _ s =>
      ∃ status, Told s₀ i status s := by
  have steady : Steady fun s => ∃ status, Told s₀ i status s := by
    rintro s t ⟨status, told⟩ same
    exact ⟨status, told_steady s₀ i status s t told same⟩
  apply triple_wait steady.stable
  intro s accepted
  refine ⟨accepted.waiting, fun t nested set => ?_⟩
  exact wake_accepted ((accepted_kept s₀ i).nested s t accepted nested) set

theorem runs_infoStatus (s₀ : State) (i : InfoId) :
    Runs env (fun s => ∃ status, Told s₀ i status s) (infoStatus i) (Told s₀ i) := by
  apply runs_call (.infoStatus i) _ (told_steady s₀ i)
  · intro s holds
    rcases holds with ⟨status, told⟩
    refine ⟨⟨by simp [told.given], told.record.trans told.given.symm⟩, fun choice answer t done _ => ?_⟩
    rcases Prod.mk.inj (Option.some.inj done) with ⟨rfl, rfl⟩
    have answered : ((s.heap i).map (·.status)).getD (0 : ZbStatus) = status := by
      rw [told.record, Option.getD_some]
    exact answered ▸ told
  · rintro s t ⟨status, told⟩ same
    exact ⟨status, told_steady s₀ i status s t told same⟩

theorem runs_freeInfo_told (s₀ : State) (i : InfoId) (status : ZbStatus) :
    Runs env (Told s₀ i status) (freeInfo i) fun _ => Ended s₀ (some i) status := by
  apply runs_call (.freeInfo i) (told_steady s₀ i status) (fun _ => ended_steady s₀ (some i) status)
  intro s told
  refine ⟨trivial, fun choice answer t done _ => ?_⟩
  obtain rfl := answered_state done
  exact ⟨freed told.owning, fun success => success ▸ told.given⟩

theorem runs_freeInfo_asked (s₀ : State) (i : InfoId) :
    Runs env (Asked s₀ i) (freeInfo i) fun _ => Within s₀ := by
  apply runs_call (.freeInfo i) (asked_kept s₀ i).steady (fun _ => (within_kept s₀).steady)
  intro s asked
  refine ⟨trivial, fun choice answer t done _ => ?_⟩
  obtain rfl := answered_state done
  exact freed asked.owning

private theorem ended_failed (failed : status ≠ zbStatusSuccess) (within : Within s₀ s) :
    Ended s₀ none status s :=
  ⟨within, fun success => absurd success failed⟩

/-- The spec of `ZbStartupWait`. -/
theorem runs_zbStartupWait (s₀ : State) (type : ZbStartType) :
    Runs env (Within s₀) (zbStartupWait type) fun ended => Ended s₀ ended.1 ended.2 := by
  apply triple_bind (runs_mallocInfo s₀)
  intro answer
  cases answer with
  | none =>
    exact triple_pure (A := Within s₀) (within_kept s₀).steady.stable fun s within =>
      ended_failed (by decide) within
  | some i =>
    apply triple_bind (runs_writeInfo s₀ i _)
    intro _
    apply triple_bind (runs_writeInfo s₀ i _)
    intro _
    apply triple_bind (runs_zbStartup s₀ i type)
    intro status
    apply triple_ite
    · intro failed
      have asked : Requested s₀ i status = Asked s₀ i := funext fun s => if_neg failed
      rw [asked]
      apply triple_bind (runs_freeInfo_asked s₀ i)
      intro _
      exact triple_pure (within_kept s₀).steady.stable fun s within => ended_failed failed within
    · intro success
      have accepted : Requested s₀ i status = Accepted s₀ i :=
        funext fun s => if_pos (not_not.mp success)
      rw [accepted]
      apply triple_bind (runs_wait_startup s₀ i)
      intro _
      apply triple_bind (runs_infoStatus s₀ i)
      intro status
      apply triple_bind (runs_freeInfo_told s₀ i status)
      intro _
      exact triple_pure (ended_steady s₀ (some i) status).stable fun s ended => ended

/-- What follows a startup runs only after one that this task was told succeeded. -/
theorem runs_startupEnded (s₀ : State) (requested : Option InfoId) (status : ZbStatus)
    {failed : App Unit} (quiet : failed.Only Quiet) :
    Runs env (Ended s₀ requested status) (startupEnded requested status failed) fun _ =>
      Within s₀ := by
  have steady := ended_steady s₀ requested status
  have within := within_kept s₀
  have joined : Runs env (Ended s₀ requested status) (call (.setJoinStatus requested status))
      fun _ => Ended s₀ requested status := by
    apply steady.runs (.setJoinStatus requested status) (fun s ended => ended.earned)
    intro s choice answer t done
    obtain rfl := answered_state done
    exact ⟨rfl, rfl, rfl, rfl, rfl⟩
  apply triple_bind joined
  intro _
  apply triple_ite
  · intro success
    apply triple_bind (steady.quiet (by trivial))
    intro _
    have traced : Runs env (Ended s₀ requested status) (call (.appDbg (.startupDone requested)))
        fun _ => Ended s₀ requested status := by
      apply steady.runs (.appDbg (.startupDone requested)) (fun s ended => ended.earned success)
      intro s choice answer t done
      obtain rfl := answered_state done
      exact .refl s
    apply triple_bind traced
    intro _
    have rest := (quiet_talks talks_zbPersistNotifyRegister).bind fun _ => quiet_appZigbeePersistNotifyCb
    exact triple_weaken (within.runs rest) (fun s ended => ended.within) (fun _ _ kept => kept)
  · intro _
    exact triple_weaken (within.runs quiet) (fun s ended => ended.within) (fun _ _ kept => kept)

structure Tested (s₀ : State) (status : ZbStatus) (s : State) : Prop where
  within : Within s₀ s
  failed : status ≠ zbStatusSuccess → s.appInfo.joinStatus = status

theorem tested_stable (s₀ : State) (status : ZbStatus) :
    Stable (sequencer env) (Tested s₀ status) := by
  intro source s tested
  refine ⟨(within_kept s₀).steady.stable source s tested.within, fun failed => ?_⟩
  rw [← tested.failed failed]
  cases source <;> rfl

theorem runs_startupEnded_tested (s₀ : State) (requested : Option InfoId) (status : ZbStatus) :
    Runs env (Ended s₀ requested status) (startupEnded requested status (pure ())) fun _ =>
      Tested s₀ status := by
  by_cases success : status = zbStatusSuccess
  · exact triple_weaken (runs_startupEnded s₀ requested status (Prog.only_pure ()))
      (fun _ ended => ended) fun _ _ within => ⟨within, fun failed => absurd success failed⟩
  · have joined : Runs env (Ended s₀ requested status) (call (.setJoinStatus requested status))
        fun _ => Tested s₀ status := by
      apply triple_own (ended_steady s₀ requested status).stable fun _ => tested_stable s₀ status
      intro s ended
      refine ⟨ended.earned, fun choice answer t done _ => ?_⟩
      obtain rfl := answered_state done
      exact ⟨(within_kept s₀).steady s _ ended.within ⟨rfl, rfl, rfl, rfl, rfl⟩, fun _ => rfl⟩
    apply triple_bind joined
    intro _
    rw [if_neg success]
    exact triple_pure (tested_stable s₀ status) fun s tested => tested

theorem runs_getJoinStatus (s₀ : State) (status : ZbStatus) :
    Runs env (Tested s₀ status) (getJoinStatus status) fun _ => Within s₀ := by
  apply triple_own (tested_stable s₀ status) fun _ => (within_kept s₀).steady.stable
  intro s tested
  constructor
  · intro success
    by_contra failed
    exact failed ((tested.failed failed).symm.trans success)
  · intro choice answer t done _
    obtain rfl := answered_state done
    exact tested.within

/-! ## The tasks -/

theorem runs_appZigbeeNwkStart (s₀ : State) :
    Runs env (Within s₀) appZigbeeNwkStart fun _ => Within s₀ := by
  have within := within_kept s₀
  apply triple_bind (within.runs (quiet_call (by trivial)))
  intro (info : AppInfo)
  apply triple_ite
  · intro _
    exact triple_pure within.steady.stable fun s kept => kept
  · intro _
    apply triple_bind (within.runs (quiet_talks (talks_plainCall _)))
    intro _
    apply triple_bind (within.runs (quiet_talks (talks_plainCall _)))
    intro _
    apply triple_bind (within.runs (quiet_call (by trivial)))
    intro type
    apply triple_bind (runs_zbStartupWait s₀ type)
    intro ended
    apply triple_bind (runs_startupEnded_tested s₀ ended.1 ended.2)
    intro _
    apply triple_bind (runs_getJoinStatus s₀ ended.2)
    intro (joinStatus : ZbStatus)
    apply triple_ite
    · intro _
      exact triple_pure within.steady.stable fun s kept => kept
    · intro _
      exact within.runs (quiet_talks talks_joined)

theorem runs_tryStartup (s₀ : State) (info : AppInfo) (now : BitVec 32) :
    Runs env (Within s₀) (tryStartup info now) fun _ => Within s₀ := by
  have within := within_kept s₀
  apply triple_ite
  · intro _
    apply triple_bind (within.runs (quiet_talks (talks_plainCall _)))
    intro _
    apply triple_bind (within.runs (quiet_talks (talks_plainCall _)))
    intro _
    apply triple_bind (within.runs (quiet_call (by trivial)))
    intro (info : AppInfo)
    apply triple_bind (runs_zbStartupWait s₀ info.startupControl)
    intro ended
    have delayed := quiet_talks (talks_delayStartup.bind fun _ => talks_delayStartup)
    exact runs_startupEnded s₀ ended.1 ended.2 delayed
  · intro _
    exact triple_pure within.steady.stable fun s kept => kept

theorem runs_appZigbeeNwkForm (s₀ : State) :
    Runs env (Within s₀) appZigbeeNwkForm fun _ => Within s₀ := by
  have within := within_kept s₀
  apply triple_bind (within.runs (quiet_call (by trivial)))
  intro (info : AppInfo)
  apply triple_bind (within.runs (quiet_call (by trivial)))
  intro (now : BitVec 32)
  apply triple_bind (runs_tryStartup s₀ info now)
  intro _
  apply within.runs
  apply (quiet_call (by trivial)).bind
  intro (info : AppInfo)
  exact Prog.Only.ite (quiet_call (by trivial)) (quiet_talks (talks_plainCalls _))

/-! ## The callback -/

structure Calling (s₀ : State) (i : InfoId) (status : ZbStatus) (s : State) : Prop where
  ended : ∃ top ∈ s.history.waits.head?, s.history.given top ≠ none
  given : s.history.given i = some status
  held : ∀ j ∈ s.history.waits, ∃ record, s.heap j = some record ∧
    (j ≠ i → ∀ status, s.history.given j = some status → record.status = status)
  owed : ∀ j, s.owed j = true → j ∈ s.history.waits ∧ s.history.given j = none
  member : i ∈ s.history.waits
  waits : s.history.waits = s₀.history.waits
  blocks : ∀ j, s₀.heap j ≠ none → j ∉ s₀.history.waits →
    s.heap j = s₀.heap j ∧ s.history.given j = s₀.history.given j

theorem calling_steady (s₀ : State) (i : InfoId) (status : ZbStatus) :
    Steady (Calling s₀ i status) := by
  intro s t calling same
  constructor
  · rw [same.waits, same.given]
    exact calling.ended
  · rw [same.given]
    exact calling.given
  · rw [same.waits, same.heap, same.given]
    exact calling.held
  · rw [same.owed, same.waits, same.given]
    exact calling.owed
  · rw [same.waits]
    exact calling.member
  · exact same.waits.trans calling.waits
  · rw [same.heap, same.given]
    exact calling.blocks

structure Answered (s₀ : State) (i : InfoId) (s : State) : Prop where
  within : Within s₀ s
  ended : ∃ top ∈ s.history.waits.head?, s.history.given top ≠ none
  member : i ∈ s.history.waits

theorem answered_steady (s₀ : State) (i : InfoId) : Steady (Answered s₀ i) := by
  intro s t answered same
  refine ⟨(within_kept s₀).steady s t answered.within same, ?_, ?_⟩
  · rw [same.waits, same.given]
    exact answered.ended
  · rw [same.waits]
    exact answered.member

theorem called_back (within : Within s₀ s) (owed : s.owed i = true)
    (undisturbed : ∀ top ∈ s.history.waits.head?, top = i ∨ s.history.given top ≠ none) :
    Calling s₀ i status (s.giveCallback status i) := by
  rcases within.waiting.owed i owed with ⟨member, silent⟩
  have inside : i ∈ s₀.history.waits := within.nested.waits ▸ member
  constructor
  · obtain ⟨top, first⟩ : ∃ top, top ∈ s.history.waits.head? := by
      cases shape : s.history.waits with
      | nil => simp [shape] at member
      | cons top rest => exact ⟨top, rfl⟩
    refine ⟨top, first, ?_⟩
    by_cases same : top = i
    · simp [State.giveCallback, same]
    · simpa [State.giveCallback, same] using (undisturbed top first).resolve_left same
  · simp [State.giveCallback]
  · intro j below
    rcases within.waiting.held j below with ⟨record, present, holds⟩
    refine ⟨record, present, fun other => ?_⟩
    simpa [State.giveCallback, other] using holds
  · intro j still
    have other : j ≠ i := by
      intro same
      subst same
      simp [State.giveCallback] at still
    have before : s.owed j = true := by simpa [State.giveCallback, other] using still
    simpa [State.giveCallback, other] using within.waiting.owed j before
  · exact member
  · exact within.nested.waits
  · intro j present outside
    have other : j ≠ i := fun same => outside (same ▸ inside)
    simpa [State.giveCallback, other] using within.nested.blocks j present outside

theorem told_record (calling : Calling s₀ i status s) :
    Answered s₀ i (s.write i fun record => { record with status := status }) := by
  have inside : i ∈ s₀.history.waits := calling.waits ▸ calling.member
  have waiting : Waiting (s.write i fun record => { record with status := status }) := by
    refine ⟨fun _ => calling.ended, fun j below => ?_, calling.owed⟩
    rcases calling.held j below with ⟨record, present, holds⟩
    by_cases same : j = i
    · subst same
      refine ⟨{ record with status := status }, by simp [State.write, present], ?_⟩
      intro other given
      exact Option.some.inj (calling.given.symm.trans given)
    · exact ⟨record, by simpa [State.write, same] using present, holds same⟩
  refine ⟨⟨waiting, fun _ => waiting, calling.waits, fun j present outside => ?_⟩, calling.ended,
    calling.member⟩
  have other : j ≠ i := fun same => outside (same ▸ inside)
  simpa [State.write, other] using calling.blocks j present outside

theorem deactivated_record (answered : Answered s₀ i s) :
    Answered s₀ i (s.write i fun record => { record with active := false }) := by
  have inside : i ∈ s₀.history.waits := answered.within.nested.waits ▸ answered.member
  have waiting : Waiting (s.write i fun record => { record with active := false }) := by
    refine ⟨answered.within.waiting.ended, fun j below => ?_, answered.within.waiting.owed⟩
    rcases answered.within.waiting.held j below with ⟨record, present, holds⟩
    by_cases same : j = i
    · subst same
      exact ⟨{ record with active := false }, by simp [State.write, present], holds⟩
    · exact ⟨record, by simpa [State.write, same] using present, holds⟩
  refine ⟨⟨waiting, fun _ => waiting, answered.within.nested.waits, fun j present outside => ?_⟩,
    answered.ended, answered.member⟩
  have other : j ≠ i := fun same => outside (same ▸ inside)
  simpa [State.write, other] using answered.within.nested.blocks j present outside

theorem evt_set (answered : Answered s₀ i s) : Within s₀ (s.setEvt .zigbeeStartupEnded) := by
  have waiting : Waiting (s.setEvt .zigbeeStartupEnded) :=
    ⟨fun _ => answered.ended, answered.within.waiting.held, answered.within.waiting.owed⟩
  exact ⟨waiting, fun _ => waiting, answered.within.nested.waits, answered.within.nested.blocks⟩

/-- The spec of `ZbStartupWaitCb`. -/
theorem runs_zbStartupWaitCb (s₀ : State) (i : InfoId) (status : ZbStatus) :
    Runs env (Calling s₀ i status) (zbStartupWaitCb status i) fun _ => Within s₀ := by
  have first : Runs env (Calling s₀ i status)
      (writeInfo i fun record => { record with status := status }) fun _ => Answered s₀ i := by
    apply runs_call (.writeInfo i _) (calling_steady s₀ i status) (fun _ => answered_steady s₀ i)
    intro s calling
    refine ⟨trivial, fun choice answer t done _ => ?_⟩
    obtain rfl := answered_state done
    exact told_record calling
  have second : Runs env (Answered s₀ i)
      (writeInfo i fun record => { record with active := false }) fun _ => Answered s₀ i := by
    apply runs_call (.writeInfo i _) (answered_steady s₀ i) (fun _ => answered_steady s₀ i)
    intro s answered
    refine ⟨trivial, fun choice answer t done _ => ?_⟩
    obtain rfl := answered_state done
    exact deactivated_record answered
  apply triple_bind first
  intro _
  apply triple_bind second
  intro _
  apply runs_call (.utilSeqSetEvt .zigbeeStartupEnded) (answered_steady s₀ i)
    (fun _ => (within_kept s₀).steady)
  intro s answered
  refine ⟨trivial, fun choice answer t done _ => ?_⟩
  obtain rfl := answered_state done
  exact evt_set answered

def Notified (s₀ : State) : Notification → State → Prop
  | .startup status i => Calling s₀ i status
  | _ => Within s₀

theorem notified_steady (s₀ : State) (notified : Notification) : Steady (Notified s₀ notified) := by
  cases notified with
  | startup status i => exact calling_steady s₀ i status
  | _ => exact (within_kept s₀).steady

theorem runs_notification (s₀ : State) : Runs env (Within s₀) notification (Notified s₀) := by
  apply runs_call .notification (within_kept s₀).steady (notified_steady s₀)
  intro s within
  refine ⟨trivial, fun choice answer t done undisturbed => ?_⟩
  rcases Option.bind_eq_some_iff.mp done with ⟨notified, _, done⟩
  cases notified with
  | startup status i =>
    rcases Option.ite_none_right_eq_some.mp done with ⟨owed, done⟩
    rcases Prod.mk.inj (Option.some.inj done) with ⟨rfl, rfl⟩
    exact called_back within owed undisturbed
  | _ =>
    rcases Prod.mk.inj (Option.some.inj done) with ⟨rfl, rfl⟩
    exact within

theorem runs_zigbeeCallBackProcessing (s₀ : State) :
    Runs env (Within s₀) zigbeeCallBackProcessing fun _ => Within s₀ := by
  have within := within_kept s₀
  apply triple_bind (runs_notification s₀)
  intro notified
  cases notified with
  | startup status i => exact runs_zbStartupWaitCb s₀ i status
  | startupPersist status => exact within.runs (quiet_appZigbeePersistCompletedCallback status)
  | persist =>
    apply within.runs
    apply (quiet_call (by trivial)).bind
    intro (registered : Bool)
    exact Prog.Only.ite quiet_appZigbeePersistNotifyCb (Prog.only_pure ())
  | other requests => exact within.runs (quiet_talks (talks_plainCalls requests))

theorem runs_taskCb (s₀ : State) (task : SeqTask) :
    Runs env (Within s₀) (taskCb task) fun _ => Within s₀ := by
  have within := within_kept s₀
  cases task with
  | notifyFromM0ToM4 =>
    apply triple_bind (within.runs (quiet_call (by trivial)))
    intro (received : Nat)
    apply triple_ite
    · intro _
      apply triple_bind (within.runs (quiet_call (by trivial)))
      exact fun _ => runs_zigbeeCallBackProcessing s₀
    · intro _
      exact triple_pure within.steady.stable fun s kept => kept
  | requestFromM0ToM4 => exact within.runs (quiet_talks talks_appZigbeeProcessRequest)
  | zigbeeNetworkForm => exact runs_appZigbeeNwkForm s₀
  | bitmapGpioInt => exact within.runs (quiet_talks talks_userExtiHandler)
  | zigbeeNwkForm =>
    apply triple_bind (within.runs (quiet_call (by trivial)))
    exact fun _ => runs_appZigbeeNwkStart s₀
  | zigbeeNwkJoin =>
    apply triple_bind (within.runs (quiet_call (by trivial)))
    exact fun _ => runs_appZigbeeNwkStart s₀
  | systemHciAsynchEvt => exact triple_pure within.steady.stable fun s kept => kept
  | bitmapTest => exact triple_pure within.steady.stable fun s kept => kept
  | zigbeeEnterStop => exact triple_pure within.steady.stable fun s kept => kept

theorem tasks_keep (env : Env) : Keeps (startupRely env) Undisturbed Agrees := by
  intro event task s waiting _ _
  have taken : Within s ((sequencer env).take task s) :=
    (within_kept s).steady s _ ⟨waiting, .refl s⟩ ⟨rfl, rfl, rfl, rfl, rfl⟩
  exact safe_mono (runs_taskCb s task _ taken) fun _ t within => within.nested

theorem started_waiting (world : World) (info : AppInfo) : Waiting (started world info) where
  ended := fun set => absurd set Bool.false_ne_true
  held := fun _ member => absurd member List.not_mem_nil
  owed := fun _ owed => absurd owed Bool.false_ne_true

/-- In every run in which no startup disturbs the wait of another, each wait for a startup
reads the status that its own callback was given, and a join counts as successful only
if its own startup was. -/
theorem startups_agree (env : Env) (world : World) (info : AppInfo)
    (moves : List (Move SeqTask Interrupt Choice)) (c : Config appSig SeqEvent State)
    (run : (sequencer env).run ⟨started world info, []⟩ moves = some c)
    (undisturbed : (sequencer env).Meets Undisturbed ⟨started world info, []⟩ moves) :
    Kernel.Calls Agrees c.data c.stack :=
  run_calls (tasks_keep env) (started_waiting world info) run undisturbed

/-! ## Two runs -/

def requestMoves (choice : Choice) : List (Move SeqTask Interrupt Choice) :=
  [.idle, .wake, .call choice, .interrupt .cmdEvtReceived, .wake]

def joinMoves (info : InfoId) : List (Move SeqTask Interrupt Choice) :=
  [.interrupt .gpioExti, .dispatch .bitmapGpioInt, .call (.flag true), .call .settled, .finish,
    .dispatch .zigbeeNwkJoin, .call .settled, .call .settled] ++
    requestMoves .settled ++ requestMoves .settled ++
    [.call .settled, .call (.block (some (info, ⟨false, 0⟩))), .call .settled, .call .settled,
      .call (.flag true)] ++ requestMoves (.status zbStatusSuccess)

def callbackMoves (status : ZbStatus) (info : InfoId) : List (Move SeqTask Interrupt Choice) :=
  [.interrupt .notReceived, .dispatch .notifyFromM0ToM4, .call .settled, .call .settled,
    .call (.notification (.startup status info)), .call .settled, .call .settled, .call .settled,
    .finish, .wake]

def unjoined : Config appSig SeqEvent State :=
  ⟨started (powerUp fun _ => eeErased) ⟨1, 0, .join, false⟩, []⟩

def singleJoin : List (Move SeqTask Interrupt Choice) :=
  joinMoves 1 ++ callbackMoves zbStatusSuccess 1

theorem single_join_agrees : ∃ c, (sequencer quiet).run unjoined singleJoin = some c ∧
    (sequencer quiet).Meets Undisturbed unjoined singleJoin ∧
    Kernel.Calls Agrees c.data c.stack := by
  have runs : ((sequencer quiet).run unjoined singleJoin).isSome = true := by decide
  have undisturbed : (sequencer quiet).Meets Undisturbed unjoined singleJoin := by decide
  rcases Option.isSome_iff_exists.mp runs with ⟨c, run⟩
  exact ⟨c, run, undisturbed, startups_agree quiet _ _ singleJoin c run undisturbed⟩

/-- A second press inside the wait of the first, then the callback of the first startup,
which failed. -/
def doubleJoin : List (Move SeqTask Interrupt Choice) :=
  joinMoves 1 ++ joinMoves 2 ++ callbackMoves 5 1

private theorem double_join_runs : ((sequencer quiet).run unjoined doubleJoin).isSome = true := by
  decide

/-- The second wait returns success, and its own startup is still pending. -/
theorem second_join_woken : ∃ c, (sequencer quiet).run unjoined doubleJoin = some c ∧
    ¬ Kernel.Calls Agrees c.data c.stack := by
  refine ⟨_, (Option.some_get double_join_runs).symm, ?_⟩
  intro agrees
  exact absurd agrees.1 (by decide)

end Baelux.Zigbee

import Baelux.Zigbee.Sequencer

/-! Startups wait on one shared event bit, so the callback of one can end the wait of
another. Where it does not, each wait returns what its own callback was given. -/

namespace Baelux.Zigbee

open Effect Nesting Flash

/-- A wait that reads its status has been called back with it, and a join that succeeded
is one whose own startup did, also where `APP_ZIGBEE_NwkStart` tests it once more. -/
def Agrees : AppCall → State → Prop
  | .infoStatus info, s => s.history.given info ≠ none ∧
      (s.heap info).map (·.status) = s.history.given info
  | .setJoinStatus requested status, s => status = zbStatusSuccess →
      requested.bind s.history.given = some zbStatusSuccess
  | .appDbg (.startupDone requested), s =>
      requested.bind s.history.given = some zbStatusSuccess
  | .getJoinStatus status, s => s.appInfo.joinStatus = zbStatusSuccess → status = zbStatusSuccess
  | _, _ => True

/-- Only the innermost startup in progress is called back, or the innermost was before. -/
def CalledInside (s : State) : Notification → Prop
  | .startup _ info =>
      ∀ top ∈ s.history.waits.head?, top = info ∨ s.history.given top ≠ none
  | _ => True

def AcceptedUnset (s : State) (status : ZbStatus) : Prop :=
  status = zbStatusSuccess → s.evtSet .zigbeeStartupEnded = false

def Undisturbed : (call : AppCall) → call.Answer → State → Prop
  | .notification, notified, s => CalledInside s notified
  | .transfer (.startup _ _), status, s => AcceptedUnset s status
  | _, _, _ => True

instance (s : State) : DecidablePred (CalledInside s)
  | .startup _ info => inferInstanceAs
      (Decidable (∀ top ∈ s.history.waits.head?, top = info ∨ s.history.given top ≠ none))
  | .startupPersist _ => isTrue trivial
  | .persist => isTrue trivial
  | .other _ => isTrue trivial

instance (s : State) : DecidablePred (AcceptedUnset s) := fun status => inferInstanceAs
  (Decidable (status = zbStatusSuccess → s.evtSet .zigbeeStartupEnded = false))

private def holdsOf {τ : Type} (p : τ → Prop) [DecidablePred p] (answer : τ) : Bool :=
  decide (p answer)

private theorem holdsOf_iff {τ : Type} (p : τ → Prop) [DecidablePred p] (answer : τ) :
    holdsOf p answer = true ↔ p answer := decide_eq_true_iff

private def undisturbed : (call : AppCall) → call.Answer → State → Bool
  | .notification, notified, s => holdsOf (CalledInside s) notified
  | .transfer (.startup _ _), status, s => holdsOf (AcceptedUnset s) status
  | _, _, _ => true

private theorem undisturbed_iff (call : AppCall) (answer : call.Answer) (s : State) :
    undisturbed call answer s = true ↔ Undisturbed call answer s := by
  cases call with
  | notification => exact holdsOf_iff (CalledInside s) answer
  | transfer request =>
    cases request with
    | startup type info => exact holdsOf_iff (AcceptedUnset s) answer
    | _ => exact iff_of_true rfl trivial
  | _ => exact iff_of_true rfl trivial

instance (call : AppCall) (answer : call.Answer) (s : State) :
    Decidable (Undisturbed call answer s) :=
  decidable_of_iff (undisturbed call answer s = true) (undisturbed_iff call answer s)

/-! ## What the waits rely on -/

/-- The bit is set only for the innermost wait; each wait still owns its record. -/
structure Waiting (s : State) : Prop where
  ended : s.evtSet .zigbeeStartupEnded = true →
    ∃ top ∈ s.history.waits.head?, s.history.given top ≠ none
  held : ∀ i ∈ s.history.waits, ∃ record, s.heap i = some record ∧
    ∀ status, s.history.given i = some status → record.status = status
  owed : ∀ i, s.owed i = true → i ∈ s.history.waits ∧ s.history.given i = none

/-- What runs inside a wait ends the waits that it begins, and leaves the records that
no startup was accepted for alone. -/
structure Nested (s t : State) : Prop where
  waiting : Waiting s → Waiting t
  waits : t.history.waits = s.history.waits
  blocks : ∀ i, s.heap i ≠ none → i ∉ s.history.waits →
    t.heap i = s.heap i ∧ t.history.given i = s.history.given i

theorem Nested.refl (s : State) : Nested s s := ⟨id, rfl, fun _ _ _ => ⟨rfl, rfl⟩⟩

theorem Nested.trans {s t u : State} (first : Nested s t) (second : Nested t u) : Nested s u where
  waiting := second.waiting ∘ first.waiting
  waits := second.waits.trans first.waits
  blocks := by
    intro i present outside
    rcases first.blocks i present outside with ⟨heap, given⟩
    rcases second.blocks i (heap ▸ present) (first.waits ▸ outside) with ⟨heap', given'⟩
    exact ⟨heap'.trans heap, given'.trans given⟩

structure SameStartup (s t : State) : Prop where
  evt : t.evtSet .zigbeeStartupEnded = s.evtSet .zigbeeStartupEnded
  heap : t.heap = s.heap
  owed : t.owed = s.owed
  waits : t.history.waits = s.history.waits
  given : t.history.given = s.history.given

theorem SameStartup.refl (s : State) : SameStartup s s := ⟨rfl, rfl, rfl, rfl, rfl⟩

theorem SameStartup.waiting {s t : State} (same : SameStartup s t) (waiting : Waiting s) :
    Waiting t := by
  constructor
  · rw [same.evt, same.waits, same.given]
    exact waiting.ended
  · rw [same.waits, same.heap, same.given]
    exact waiting.held
  · rw [same.owed, same.waits, same.given]
    exact waiting.owed

theorem SameStartup.nested {s t : State} (same : SameStartup s t) : Nested s t where
  waiting := same.waiting
  waits := same.waits
  blocks := fun i _ _ => ⟨congrFun same.heap i, congrFun same.given i⟩

theorem same_interrupt (source : Interrupt) (s : State) : SameStartup s (interrupt source s) := by
  cases source <;> exact ⟨rfl, rfl, rfl, rfl, rfl⟩

theorem same_evtIdle (event : SeqEvent) (s : State) : SameStartup s (evtIdle event s) := by
  cases event <;> exact ⟨rfl, rfl, rfl, rfl, rfl⟩

theorem same_clearEvt {event : SeqEvent} (other : event ≠ .zigbeeStartupEnded) (s : State) :
    SameStartup s (clearEvt event s) := by
  cases event with
  | zigbeeStartupEnded => exact absurd rfl other
  | systemHciCmdEvtResp => exact ⟨rfl, rfl, rfl, rfl, rfl⟩
  | ackFromM0Evt => exact ⟨rfl, rfl, rfl, rfl, rfl⟩
  | synchroBypassIdle => exact ⟨rfl, rfl, rfl, rfl, rfl⟩

theorem same_storage (s : State) (world : World) (c : Call) :
    SameStartup s (s.storage world c) := by
  refine ⟨rfl, rfl, rfl, ?_, ?_⟩
  all_goals
    cases c with
    | enter point => cases point <;> rfl
    | leave point => cases point <;> rfl
    | _ => rfl

variable {env : Env}

def startupRely (env : Env) : Rely (sequencer env) where
  Idle _ s := Waiting s
  Rel := Nested
  refl := Nested.refl
  trans := Nested.trans
  closed := fun waiting nested => nested.waiting waiting
  interrupted := fun source _ => (same_interrupt source _).nested
  idled := fun _ => (same_evtIdle _ _).nested

def Quiet : TaskCall appSig SeqEvent → Prop
  | .own (.utilSeqSetEvt _) => False
  | .own (.setJoinStatus _ _) => False
  | .own (.getJoinStatus _) => False
  | .own .mallocInfo => False
  | .own (.freeInfo _) => False
  | .own (.writeInfo _ _) => False
  | .own (.infoStatus _) => False
  | .own (.transfer (.startup _ _)) => False
  | .own .notification => False
  | .own (.appDbg (.startupDone _)) => False
  | .wait .zigbeeStartupEnded => False
  | _ => True

theorem quiet_agrees {c : AppCall} (quiet : Quiet (.own c)) (s : State) : Agrees c s := by
  cases c with
  | infoStatus info => exact quiet.elim
  | setJoinStatus requested status => exact quiet.elim
  | getJoinStatus status => exact quiet.elim
  | appDbg message =>
    cases message with
    | startupDone requested => exact quiet.elim
    | persistentDataFlashed => trivial
  | _ => trivial

theorem quiet_transfer {request : Request} {choice : Choice} {answer : request.Answer}
    {s t : State} (quiet : Quiet (.own (.transfer request)))
    (done : performTransfer request choice s = some (answer, t)) : SameStartup s t := by
  rcases transfer_state done with rfl | ⟨_, _, rfl, _⟩ | ⟨_, _, _, _, _, rfl⟩
  · exact .refl t
  · exact quiet.elim
  · exact ⟨rfl, rfl, rfl, rfl, rfl⟩

theorem quiet_same {c : AppCall} {choice : Choice} {answer : c.Answer} {s t : State}
    (quiet : Quiet (.own c)) (done : perform env c choice s = some (answer, t)) :
    SameStartup s t := by
  cases c with
  | storage c =>
    obtain rfl := answered_state done
    exact same_storage s _ c
  | transfer request => exact quiet_transfer quiet done
  | utilSeqSetEvt event => exact quiet.elim
  | setJoinStatus requested status => exact quiet.elim
  | mallocInfo => exact quiet.elim
  | freeInfo info => exact quiet.elim
  | writeInfo info update => exact quiet.elim
  | infoStatus info => exact quiet.elim
  | notification => exact quiet.elim
  | halGetTick =>
    obtain rfl := mapped_state done
    exact .refl t
  | mallocCallback =>
    obtain rfl := mapped_state done
    exact .refl t
  | extiHandler =>
    obtain rfl := mapped_state done
    exact .refl t
  | _ =>
    obtain rfl := answered_state done
    exact ⟨rfl, rfl, rfl, rfl, rfl⟩

/-! ## Programs that do not concern the startups -/

theorem quiet_call {c : AppCall} (quiet : Quiet (.own c)) : (call c).Only Quiet :=
  (Prog.only_call _).mpr quiet

theorem quiet_wait {event : SeqEvent} (other : Quiet (.wait event)) :
    (utilSeqWaitEvt event).Only Quiet :=
  (Prog.only_call _).mpr other

theorem quiet_stackCall {request : Request} (quiet : Quiet (.own (.transfer request))) :
    (stackCall request).Only Quiet := by
  apply (quiet_wait (by trivial)).bind
  intro _
  apply (quiet_call quiet).bind
  intro answer
  apply (quiet_wait (by trivial)).bind
  exact fun _ => Prog.only_pure answer

theorem Talks.quiet {c : TaskCall appSig SeqEvent} (talks : Talks c) : Quiet c := by
  cases c with
  | own c =>
    cases c with
    | transfer request =>
      cases request with
      | startup type info => exact talks.elim
      | _ => trivial
    | utilSeqSetEvt event => exact talks.elim
    | setJoinStatus requested status => exact talks.elim
    | getJoinStatus status => exact talks.elim
    | mallocInfo => exact talks.elim
    | freeInfo info => exact talks.elim
    | writeInfo info update => exact talks.elim
    | infoStatus info => exact talks.elim
    | notification => exact talks.elim
    | appDbg message => exact talks.elim
    | _ => trivial
  | wait event =>
    cases event with
    | zigbeeStartupEnded => exact talks.elim
    | _ => trivial

theorem quiet_talks {α : Type} {program : App α} (only : program.Only Talks) :
    program.Only Quiet :=
  only.mono fun _ => Talks.quiet

theorem quiet_onStorage {α : Type} (program : Storage α) : (onStorage program).Only Quiet := by
  apply (Prog.only_anything program).translate
  intro c _
  cases c with
  | eraseActivity on => exact (quiet_call (by trivial)).bind fun _ => quiet_wait (by trivial)
  | _ => exact quiet_call trivial

theorem quiet_savePersistentData (len : Data) : (savePersistentData len).Only Quiet := by
  apply (quiet_stackCall (by trivial)).bind
  intro len
  apply (quiet_onStorage _).bind
  intro _
  apply (quiet_onStorage _).bind
  intro written
  apply Prog.Only.ite
  · exact (quiet_call (by trivial)).bind fun _ => Prog.only_pure true
  · exact Prog.only_pure false

theorem quiet_appZigbeePersistSave : appZigbeePersistSave.Only Quiet := by
  apply (quiet_call (by trivial)).bind
  intro _
  apply Prog.Only.bind
  · apply (quiet_call (by trivial)).bind
    intro _
    apply (quiet_stackCall (by trivial)).bind
    intro (len : Data)
    apply Prog.Only.ite (Prog.only_pure false)
    exact Prog.Only.ite (Prog.only_pure false) (quiet_savePersistentData len)
  · intro saved
    exact (quiet_call (by trivial)).bind fun _ => Prog.only_pure saved

theorem quiet_appZigbeePersistNotifyCb : appZigbeePersistNotifyCb.Only Quiet := by
  apply (quiet_talks (talks_plainCall _)).bind
  intro _
  exact quiet_appZigbeePersistSave.bind fun _ => Prog.only_pure ()

theorem quiet_appZigbeePersistCompletedCallback (status : ZbStatus) :
    (appZigbeePersistCompletedCallback status).Only Quiet := by
  apply (quiet_talks (talks_restoreClusterAttr status)).bind
  intro _
  exact (quiet_talks talks_zbPersistNotifyRegister).bind fun _ => quiet_appZigbeePersistNotifyCb

/-! ## Assertions that nested tasks keep -/

structure Kept (A : State → Prop) : Prop where
  waiting : ∀ s, A s → Waiting s
  nested : ∀ s t, A s → Nested s t → A t

def Steady (A : State → Prop) : Prop := ∀ s t, A s → SameStartup s t → A t

variable {A : State → Prop}

theorem Kept.steady (kept : Kept A) : Steady A :=
  fun s t holds same => kept.nested s t holds same.nested

theorem Steady.stable (steady : Steady A) : Stable (sequencer env) A :=
  fun source s holds => steady s _ holds (same_interrupt source s)

theorem Kept.retains (kept : Kept A) {c : TaskCall appSig SeqEvent} (quiet : Quiet c) :
    Retains (startupRely env) Undisturbed Agrees A c := by
  cases c with
  | own c =>
    intro s holds
    refine ⟨quiet_agrees quiet s, fun choice answer t done _ => ?_⟩
    exact kept.steady s t holds (quiet_same quiet done)
  | wait event =>
    have other : event ≠ .zigbeeStartupEnded := by
      intro same
      subst same
      exact quiet
    intro s holds
    refine ⟨kept.waiting s holds, fun t nested _ => ?_⟩
    exact kept.steady t _ (kept.nested s t holds nested) (same_clearEvt other t)

abbrev Runs (env : Env) (A : State → Prop) {α : Type} (program : App α) (B : α → State → Prop) :
    Prop :=
  Triple (startupRely env) Undisturbed Agrees A program B

theorem Kept.runs (kept : Kept A) {α : Type} {program : App α} (only : program.Only Quiet) :
    Runs env A program fun _ => A :=
  triple_retains kept.steady.stable (only.mono fun _ quiet => kept.retains quiet)

theorem Steady.runs (steady : Steady A) (c : AppCall) (allowed : ∀ s, A s → Agrees c s)
    (same : ∀ s choice answer t, perform env c choice s = some (answer, t) → SameStartup s t) :
    Runs env A (call c) fun _ => A := by
  apply triple_own steady.stable (fun _ => steady.stable)
  intro s holds
  exact ⟨allowed s holds, fun choice answer t done _ =>
    steady s t holds (same s choice answer t done)⟩

theorem Steady.quiet (steady : Steady A) {c : AppCall} (quiet : Quiet (.own c)) :
    Runs env A (call c) fun _ => A :=
  steady.runs c (fun s _ => quiet_agrees quiet s) fun _ _ _ _ done => quiet_same quiet done

theorem runs_call (c : AppCall) {B : c.Answer → State → Prop} (steady : Steady A)
    (steady' : ∀ answer, Steady (B answer))
    (step : ∀ s, A s → Agrees c s ∧ ∀ choice answer t,
      perform env c choice s = some (answer, t) → Undisturbed c answer s → B answer t) :
    Runs env A (call c) B :=
  triple_own steady.stable (fun answer => (steady' answer).stable) step

structure Within (s₀ s : State) : Prop where
  waiting : Waiting s
  nested : Nested s₀ s

variable {s₀ s t : State} {i : InfoId} {status : ZbStatus}

theorem within_kept (s₀ : State) : Kept (Within s₀) where
  waiting := fun _ within => within.waiting
  nested := fun _ _ within nested => ⟨nested.waiting within.waiting, within.nested.trans nested⟩

structure Owning (s₀ : State) (i : InfoId) (waits : List InfoId) (s : State) : Prop where
  waiting : Waiting s
  waits : s.history.waits = waits
  fresh : s₀.heap i = none
  outside : i ∉ s₀.history.waits
  others : ∀ j, j ≠ i → s₀.heap j ≠ none → j ∉ s₀.history.waits →
    s.heap j = s₀.heap j ∧ s.history.given j = s₀.history.given j

theorem Owning.nested {waits : List InfoId} (owning : Owning s₀ i waits s) (nested : Nested s t)
    (inside : ∀ j ∈ waits, j = i ∨ j ∈ s₀.history.waits) : Owning s₀ i waits t where
  waiting := nested.waiting owning.waiting
  waits := nested.waits.trans owning.waits
  fresh := owning.fresh
  outside := owning.outside
  others := by
    intro j other present outside
    rcases owning.others j other present outside with ⟨heap, given⟩
    have waits_outside : j ∉ s.history.waits := by
      rw [owning.waits]
      intro member
      exact (inside j member).elim other outside
    rcases nested.blocks j (heap ▸ present) waits_outside with ⟨heap', given'⟩
    exact ⟨heap'.trans heap, given'.trans given⟩

structure Asked (s₀ : State) (i : InfoId) (s : State) : Prop where
  owning : Owning s₀ i s₀.history.waits s
  present : s.heap i ≠ none
  silent : s.history.given i = none

theorem asked_kept (s₀ : State) (i : InfoId) : Kept (Asked s₀ i) where
  waiting := fun _ asked => asked.owning.waiting
  nested := by
    intro s t asked nested
    have blocks := nested.blocks i asked.present (asked.owning.waits ▸ asked.owning.outside)
    exact ⟨asked.owning.nested nested fun _ member => .inr member, blocks.1 ▸ asked.present,
      blocks.2.trans asked.silent⟩

def Accepted (s₀ : State) (i : InfoId) (s : State) : Prop :=
  Owning s₀ i (i :: s₀.history.waits) s

theorem accepted_kept (s₀ : State) (i : InfoId) : Kept (Accepted s₀ i) where
  waiting := fun _ accepted => accepted.waiting
  nested := fun _ _ accepted nested => accepted.nested nested fun _ member =>
    List.mem_cons.mp member

structure Told (s₀ : State) (i : InfoId) (status : ZbStatus) (s : State) : Prop where
  owning : Owning s₀ i s₀.history.waits s
  record : (s.heap i).map (·.status) = some status
  given : s.history.given i = some status

theorem told_steady (s₀ : State) (i : InfoId) (status : ZbStatus) : Steady (Told s₀ i status) := by
  intro s t told same
  refine ⟨told.owning.nested same.nested fun _ member => .inr member, ?_, ?_⟩
  · rw [same.heap]
    exact told.record
  · rw [same.given]
    exact told.given

structure Ended (s₀ : State) (requested : Option InfoId) (status : ZbStatus) (s : State) :
    Prop where
  within : Within s₀ s
  earned : status = zbStatusSuccess → requested.bind s.history.given = some zbStatusSuccess

theorem ended_steady (s₀ : State) (requested : Option InfoId) (status : ZbStatus) :
    Steady (Ended s₀ requested status) := by
  intro s t ended same
  refine ⟨(within_kept s₀).steady s t ended.within same, ?_⟩
  rw [same.given]
  exact ended.earned

/-! ## The steps of a startup wait -/

theorem Waiting.unused (waiting : Waiting s) (free : s.heap i = none) :
    i ∉ s.history.waits := by
  intro member
  rcases waiting.held i member with ⟨record, present, _⟩
  rw [free] at present
  cases present

theorem allocate_waiting (waiting : Waiting s) (free : s.heap i = none)
    (content : ZbStartupWaitInfo) : Waiting (s.allocate i content) := by
  have unused := waiting.unused free
  have other : ∀ j ∈ s.history.waits, j ≠ i := fun j member same => unused (same ▸ member)
  constructor
  · intro set
    rcases waiting.ended set with ⟨top, member, given⟩
    refine ⟨top, member, ?_⟩
    simpa [State.allocate, other top (List.mem_of_mem_head? member)] using given
  · intro j member
    simpa [State.allocate, other j member] using waiting.held j member
  · intro j owed
    rcases waiting.owed j owed with ⟨member, given⟩
    exact ⟨member, by simpa [State.allocate, other j member] using given⟩

theorem allocated (within : Within s₀ s) (free : s.heap i = none) (content : ZbStartupWaitInfo) :
    Asked s₀ i (s.allocate i content) := by
  have unused := within.waiting.unused free
  have outside : i ∉ s₀.history.waits := within.nested.waits ▸ unused
  have fresh : s₀.heap i = none := by
    by_contra present
    exact present ((within.nested.blocks i present outside).1 ▸ free)
  refine ⟨⟨allocate_waiting within.waiting free content, within.nested.waits, fresh, outside, ?_⟩,
    ?_, ?_⟩
  · intro j other present outside
    simpa [State.allocate, other] using within.nested.blocks j present outside
  · simp [State.allocate]
  · simp [State.allocate]

theorem write_waiting (waiting : Waiting s) (unused : i ∉ s.history.waits)
    (update : ZbStartupWaitInfo → ZbStartupWaitInfo) : Waiting (s.write i update) := by
  refine ⟨waiting.ended, fun j member => ?_, waiting.owed⟩
  have other : j ≠ i := fun same => unused (same ▸ member)
  simpa [State.write, other] using waiting.held j member

theorem written_asked (asked : Asked s₀ i s) (update : ZbStartupWaitInfo → ZbStartupWaitInfo) :
    Asked s₀ i (s.write i update) := by
  have unused : i ∉ s.history.waits := asked.owning.waits ▸ asked.owning.outside
  refine ⟨⟨write_waiting asked.owning.waiting unused update, asked.owning.waits, asked.owning.fresh,
    asked.owning.outside, ?_⟩, ?_, asked.silent⟩
  · intro j other present outside
    simpa [State.write, other] using asked.owning.others j other present outside
  · simpa [State.write] using asked.present

theorem freed_waiting (waiting : Waiting s) (unused : i ∉ s.history.waits) :
    Waiting (s.free i) := by
  refine ⟨waiting.ended, fun j member => ?_, waiting.owed⟩
  have other : j ≠ i := fun same => unused (same ▸ member)
  simpa [State.free, other] using waiting.held j member

theorem freed (owning : Owning s₀ i s₀.history.waits s) :
    Within s₀ (s.free i) := by
  have unused : i ∉ s.history.waits := owning.waits ▸ owning.outside
  have waiting := freed_waiting owning.waiting unused
  refine ⟨waiting, fun _ => waiting, owning.waits, fun j present outside => ?_⟩
  have other : j ≠ i := fun same => present (same ▸ owning.fresh)
  simpa [State.free, other] using owning.others j other present outside

theorem accept_asked (asked : Asked s₀ i s) (clear : s.evtSet .zigbeeStartupEnded = false) :
    Accepted s₀ i (s.accept i) := by
  rcases Option.ne_none_iff_exists'.mp asked.present with ⟨record, present⟩
  refine ⟨⟨?_, ?_, ?_⟩, ?_, asked.owning.fresh, asked.owning.outside, asked.owning.others⟩
  · intro set
    exact absurd (set.symm.trans clear) (by decide)
  · intro j member
    rcases List.mem_cons.mp member with rfl | below
    · refine ⟨record, present, fun status given => ?_⟩
      exact absurd (given.symm.trans asked.silent) (by simp)
    · exact asked.owning.waiting.held j below
  · intro j owed
    by_cases same : j = i
    · subst same
      exact ⟨List.mem_cons_self .., asked.silent⟩
    · have before : s.owed j = true := by simpa [State.accept, same] using owed
      rcases asked.owning.waiting.owed j before with ⟨member, given⟩
      exact ⟨List.mem_cons_of_mem i member, given⟩
  · simp [State.accept, asked.owning.waits]

/-- The wait that returns is the one that was called back. -/
theorem wake_accepted (accepted : Accepted s₀ i s) (set : s.evtSet .zigbeeStartupEnded = true) :
    ∃ status, Told s₀ i status (clearEvt .zigbeeStartupEnded s) := by
  have waiting := accepted.waiting
  rcases waiting.ended set with ⟨top, first, given⟩
  rw [accepted.waits, List.head?_cons, Option.mem_some_iff] at first
  rcases Option.ne_none_iff_exists'.mp (first ▸ given) with ⟨status, answered⟩
  rcases waiting.held i (accepted.waits ▸ List.mem_cons_self ..) with ⟨record, present, holds⟩
  refine ⟨status, ⟨⟨?_, ?_, ?_⟩, ?_, accepted.fresh, accepted.outside, accepted.others⟩, ?_, answered⟩
  · simp [clearEvt]
  · intro j member
    apply waiting.held j
    simp only [clearEvt, accepted.waits, List.tail_cons] at member
    exact accepted.waits ▸ List.mem_cons_of_mem i member
  · intro j owed
    rcases waiting.owed j owed with ⟨member, silent⟩
    refine ⟨?_, silent⟩
    have other : j ≠ i := by
      intro same
      subst same
      exact absurd (answered.symm.trans silent) (by simp)
    rw [accepted.waits] at member
    simpa [clearEvt, accepted.waits] using (List.mem_cons.mp member).resolve_left other
  · simp [clearEvt, accepted.waits]
  · change (s.heap i).map (·.status) = some status
    rw [present, Option.map_some, holds status answered]

end Baelux.Zigbee

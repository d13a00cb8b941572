import Baelux.Zigbee.Sequencer
import Baelux.Eeprom.Calls

/-! A save waits for the other core while it erases, and what is dispatched inside that
wait can save again. Where nothing does, saves and cleans do not overlap. -/

namespace Baelux.Zigbee.Saves

open Effect Nesting Flash Eeprom Nvm

/-- The first `k` words of the record of the last `ZbPersistGet`, as the store takes them. -/
def words (snapshot : Nat → Data) (k : Nat) : List (Nat × Data) :=
  (List.range k).map fun i => (i + zigbeeDbStartAddr, snapshot i)

/-- No save begins inside a save and no write inside a clean, and a record that was saved
is one snapshot. -/
def SingleWriter : AppCall → State → Prop
  | .storage (.enter .persistSave), s => s.history.saving = 0
  | .storage (.enter (.eeeWrite _ _)), s => s.history.cleaning = 0
  | .appDbg .persistentDataFlashed, s =>
      s.history.written = words s.history.snapshot (numWords (s.history.snapshot 0))
  | _, _ => True

def isStartupPersist : Notification → Bool
  | .startupPersist _ => true
  | _ => false

def StartsSave : (call : AppCall) → call.Answer → Prop
  | .notification, notified => isStartupPersist notified = true
  | .getPersistCb, registered => registered = true
  | .infoStatus _, status => status = zbStatusSuccess
  | _, _ => False

/-- No task goes on to save while a save waits for its erase. -/
def Unhurried (call : AppCall) (answer : call.Answer) (s : State) : Prop :=
  StartsSave call answer → s.history.erasing = 0

private def isSuccess (status : ZbStatus) : Bool := decide (status = zbStatusSuccess)

private theorem isSuccess_iff (status : ZbStatus) :
    isSuccess status = true ↔ status = zbStatusSuccess := decide_eq_true_iff

private def startsSave : (call : AppCall) → call.Answer → Bool
  | .notification, notified => isStartupPersist notified
  | .getPersistCb, registered => registered
  | .infoStatus _, status => isSuccess status
  | _, _ => false

private theorem startsSave_iff (call : AppCall) (answer : call.Answer) :
    startsSave call answer = true ↔ StartsSave call answer := by
  cases call with
  | notification => exact Iff.rfl
  | getPersistCb => exact Iff.rfl
  | infoStatus info => exact isSuccess_iff answer
  | _ => exact iff_of_false nofun not_false

instance (call : AppCall) (answer : call.Answer) : Decidable (StartsSave call answer) :=
  decidable_of_iff (startsSave call answer = true) (startsSave_iff call answer)

instance (call : AppCall) (answer : call.Answer) (s : State) :
    Decidable (Unhurried call answer s) :=
  inferInstanceAs (Decidable (StartsSave call answer → s.history.erasing = 0))

/-! ## What the waits rely on -/

structure Contents where
  cache : Nat → Data
  snapshot : Nat → Data
  written : List (Nat × Data)

structure View where
  saving : Nat
  cleaning : Nat
  erasing : Nat
  contents : Contents

def contents (s : State) : Contents := ⟨s.world.cache, s.history.snapshot, s.history.written⟩

def view (s : State) : View :=
  ⟨s.history.saving, s.history.cleaning, s.history.erasing, contents s⟩

/-- What runs inside a wait ends the saves that it begins, and saves only where no save is
in progress. -/
structure Alone (s t : State) : Prop where
  saving : t.history.saving = s.history.saving
  cleaning : t.history.cleaning = s.history.cleaning
  erasing : t.history.erasing = s.history.erasing
  data : s.history.saving ≠ 0 → view t = view s

theorem Alone.refl (s : State) : Alone s s := ⟨rfl, rfl, rfl, fun _ => rfl⟩

theorem Alone.trans {s t u : State} (first : Alone s t) (second : Alone t u) : Alone s u where
  saving := second.saving.trans first.saving
  cleaning := second.cleaning.trans first.cleaning
  erasing := second.erasing.trans first.erasing
  data := fun busy => (second.data (first.saving ▸ busy)).trans (first.data busy)

theorem alone_view {s t : State} (same : view t = view s) : Alone s t where
  saving := congrArg View.saving same
  cleaning := congrArg View.cleaning same
  erasing := congrArg View.erasing same
  data := fun _ => same

def admitsAll : Option SeqEvent → Prop
  | some .ackFromM0Evt => False
  | some .synchroBypassIdle => False
  | _ => True

/-- Only a save cleans, and where any task may run inside a save, the save is erasing. -/
structure Between (event : Option SeqEvent) (s : State) : Prop where
  cleaning : s.history.saving = 0 → s.history.cleaning = 0
  erasing : admitsAll event → s.history.saving ≠ 0 → s.history.erasing ≠ 0

theorem Between.alone {event : Option SeqEvent} {s t : State} (between : Between event s)
    (alone : Alone s t) : Between event t := by
  constructor
  · rw [alone.saving, alone.cleaning]
    exact between.cleaning
  · rw [alone.saving, alone.erasing]
    exact between.erasing

theorem view_interrupt (source : Interrupt) (s : State) : view (interrupt source s) = view s := by
  cases source <;> rfl

theorem view_evtIdle (event : SeqEvent) (s : State) : view (evtIdle event s) = view s := by
  cases event <;> rfl

theorem view_clearEvt {event : SeqEvent} (other : event ≠ .systemHciCmdEvtResp) (s : State) :
    view (clearEvt event s) = view s := by
  cases event with
  | systemHciCmdEvtResp => exact absurd rfl other
  | _ => rfl

def saveRely (env : Env) : Rely (sequencer env) where
  Idle := Between
  Rel := Alone
  refl := Alone.refl
  trans := Alone.trans
  closed := Between.alone
  interrupted := fun source _ => alone_view (view_interrupt source _)
  idled := fun _ => alone_view (view_evtIdle _ _)

variable {env : Env}

abbrev Runs (env : Env) (A : State → Prop) {α : Type} (program : App α) (B : α → State → Prop) :
    Prop :=
  Triple (saveRely env) Unhurried SingleWriter A program B

/-! ## Calls that keep to the side -/

def Aside : TaskCall appSig SeqEvent → Prop
  | .own (.storage _) => False
  | .own (.transfer (.persistGet _ _)) => False
  | .own .clearCache => False
  | .own (.appDbg .persistentDataFlashed) => False
  | .wait .systemHciCmdEvtResp => False
  | _ => True

theorem aside_talks {c : TaskCall appSig SeqEvent} (talks : Talks c) : Aside c := by
  cases c with
  | own c =>
    cases c with
    | storage c => exact talks.elim
    | clearCache => exact talks.elim
    | transfer request =>
      cases request with
      | persistGet buffer maxlen => exact talks.elim
      | _ => trivial
    | appDbg message => exact talks.elim
    | _ => trivial
  | wait event =>
    cases event with
    | systemHciCmdEvtResp => exact talks.elim
    | _ => trivial

theorem aside_allowed {c : AppCall} (aside : Aside (.own c)) (s : State) : SingleWriter c s := by
  cases c with
  | storage c => exact aside.elim
  | appDbg message =>
    cases message with
    | persistentDataFlashed => exact aside.elim
    | startupDone requested => trivial
  | _ => trivial

theorem aside_transfer {request : Request} {choice : Choice} {answer : request.Answer}
    {s t : State} (aside : Aside (.own (.transfer request)))
    (done : performTransfer request choice s = some (answer, t)) : view t = view s := by
  rcases transfer_state done with rfl | ⟨_, _, _, rfl⟩ | ⟨_, _, _, _, rfl, _⟩
  · rfl
  · rfl
  · exact aside.elim

theorem aside_view {c : AppCall} {choice : Choice} {answer : c.Answer} {s t : State}
    (aside : Aside (.own c)) (done : perform env c choice s = some (answer, t)) :
    view t = view s := by
  cases c with
  | storage c => exact aside.elim
  | clearCache => exact aside.elim
  | transfer request => exact aside_transfer aside done
  | halGetTick => exact congrArg view (mapped_state done)
  | mallocCallback => exact congrArg view (mapped_state done)
  | extiHandler => exact congrArg view (mapped_state done)
  | mallocInfo => rcases malloc_state done with rfl | ⟨_, _, rfl⟩ <;> rfl
  | notification => rcases notify_state done with rfl | ⟨_, _, rfl⟩ <;> rfl
  | _ =>
    obtain rfl := answered_state done
    rfl

/-! ## Assertions that nested tasks keep -/

structure Kept (A : State → Prop) : Prop where
  cleaning : ∀ s, A s → s.history.saving = 0 → s.history.cleaning = 0
  alone : ∀ s t, A s → Alone s t → A t

structure Open (A : State → Prop) : Prop extends Kept A where
  erasing : ∀ s, A s → s.history.saving ≠ 0 → s.history.erasing ≠ 0

variable {A : State → Prop}

theorem Kept.seen (kept : Kept A) {s t : State} (holds : A s) (same : view t = view s) : A t :=
  kept.alone s t holds (alone_view same)

theorem Kept.stable (kept : Kept A) : Stable (sequencer env) A :=
  fun source s holds => kept.seen holds (view_interrupt source s)

theorem Kept.aside (kept : Kept A) {c : AppCall} (aside : Aside (.own c)) :
    Retains (saveRely env) Unhurried SingleWriter A (.own c) :=
  fun s holds => ⟨aside_allowed aside s, fun _ _ _ done _ => kept.seen holds (aside_view aside done)⟩

theorem Kept.stack (kept : Kept A) {event : SeqEvent} (stack : ¬ admitsAll (some event)) :
    Retains (saveRely env) Unhurried SingleWriter A (.wait event) := by
  intro s holds
  refine ⟨⟨kept.cleaning s holds, fun all => absurd all stack⟩, fun t alone _ => ?_⟩
  have other : event ≠ .systemHciCmdEvtResp := by
    intro same
    subst same
    exact stack trivial
  exact kept.seen (kept.alone s t holds alone) (view_clearEvt other t)

theorem Open.wait (opened : Open A) {event : SeqEvent} (aside : Aside (.wait event)) :
    Retains (saveRely env) Unhurried SingleWriter A (.wait event) := by
  intro s holds
  refine ⟨⟨opened.cleaning s holds, fun _ => opened.erasing s holds⟩, fun t alone _ => ?_⟩
  have other : event ≠ .systemHciCmdEvtResp := by
    intro same
    subst same
    exact aside
  exact opened.seen (opened.alone s t holds alone) (view_clearEvt other t)

theorem Kept.runs (kept : Kept A) {α : Type} {program : App α} (only : program.Only Talks) :
    Runs env A program fun _ => A := by
  apply triple_retains kept.stable (only.mono _)
  intro c talks
  cases c with
  | own c => exact kept.aside (aside_talks talks)
  | wait event =>
    apply kept.stack
    cases event with
    | ackFromM0Evt => exact id
    | synchroBypassIdle => exact id
    | _ => exact talks.elim

theorem Open.runs (opened : Open A) {α : Type} {program : App α} (only : program.Only Aside) :
    Runs env A program fun _ => A := by
  apply triple_retains opened.stable (only.mono _)
  intro c aside
  cases c with
  | own c => exact opened.aside aside
  | wait event => exact opened.wait aside

theorem runs_call (c : AppCall) {B : c.Answer → State → Prop} (kept : Kept A)
    (kept' : ∀ answer, Kept (B answer))
    (step : ∀ s, A s → SingleWriter c s ∧ ∀ choice answer t,
      perform env c choice s = some (answer, t) → Unhurried c answer s → B answer t) :
    Runs env A (call c) B :=
  triple_own kept.stable (fun answer => (kept' answer).stable) step

theorem Kept.runs_aside (kept : Kept A) {c : AppCall} (aside : Aside (.own c)) :
    Runs env A (call c) fun _ => A :=
  triple_retains kept.stable ((Prog.only_call _).mpr (kept.aside aside))

end Baelux.Zigbee.Saves

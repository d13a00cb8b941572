import Baelux.Zigbee.Mailbox

/-! One line between the M0 and a task: where a message is, and what interrupts, the M0 and the other
calls do to it meanwhile. -/

namespace Baelux.Zigbee.Mailbox

open Effect Nesting Flash Ipcc Baelux.Seq

/-! ## What there is to a line -/

/-- `CptReceiveNotifyFromM0` and `CptReceiveRequestFromM0`. -/
def cpt : Line → State → Nat
  | .notify, s => s.cptReceiveNotifyFromM0
  | .request, s => s.cptReceiveRequestFromM0

def taskOf : Line → SeqTask
  | .notify => .notifyFromM0ToM4
  | .request => .requestFromM0ToM4

structure View (M : Type) where
  wire : Wire M
  cpt : Nat
  pending : Bool

def Board.view (b : Board) (line : Line) : View (Message line) :=
  ⟨b.ipcc.wire line, cpt line b.app, b.app.taskSet (taskOf line)⟩

variable {M : Type} {v w : View M}

inductive View.Meanwhile (v : View M) : View M → Prop where
  | aside {pending : Bool} (still : v.pending = true → pending = true) :
      Meanwhile v { v with pending := pending }
  | posted {wire : Wire M} (posted : v.wire.Posted wire) : Meanwhile v { v with wire := wire }
  | received (flag : v.wire.flag = true) (unmasked : v.wire.masked = false) :
      Meanwhile v ⟨{ v.wire with masked := true }, v.cpt + 1, true⟩

theorem View.Meanwhile.refl : v.Meanwhile v := .aside id

def Waiting (w : Wire M) : Prop :=
  ∃ message, w.buffer = some message ∧ w.posted = w.handled ++ [message]

/-- No message is lost, handed over twice or out of order. -/
def InOrder (w : Wire M) : Prop :=
  w.handled = w.posted ∨ w.flag = true ∧ w.inside = false ∧ Waiting w

structure Free (v : View M) : Prop where
  inside : v.wire.inside = false
  cpt : v.cpt = 0
  arrived : v.wire.flag = true → Waiting v.wire
  empty : v.wire.flag = false → v.wire.handled = v.wire.posted

structure Raised (v : View M) : Prop where
  inside : v.wire.inside = false
  cpt : v.cpt ≠ 0
  flag : v.wire.flag = true
  waiting : Waiting v.wire

structure Busy (v : View M) : Prop where
  inside : v.wire.inside = true
  cpt : v.cpt = 0
  flag : v.wire.flag = true
  masked : v.wire.masked = true
  handled : v.wire.handled = v.wire.posted

/-- What holds of a line whenever no task that serves it is under way, or it waits. -/
inductive Settled (v : View M) : Prop where
  | free (free : Free v) (unmasked : v.wire.masked = false)
  | raised (raised : Raised v) (pending : v.pending = true)
  | busy (busy : Busy v)

inductive Phase where
  | settled (inside : Bool)
  /-- It has started. -/
  | started (inside : Bool)
  /-- It has found its counter set. -/
  | found
  /-- It has reset its counter. -/
  | reset
  /-- It has processed the message, and written the type of the packet. -/
  | answered
  /-- It has cleared the flag. -/
  | cleared

def Phase.Holds (v : View M) : Phase → Prop
  | .settled inside => Settled v ∧ v.wire.inside = inside
  | .started inside => Settled { v with pending := true } ∧ v.wire.inside = inside
  | .found => Raised v ∧ v.wire.masked = true
  | .reset => v.cpt = 0 ∧ v.wire.inside = false ∧ v.wire.flag = true ∧ v.wire.masked = true ∧
      Waiting v.wire
  | .answered => Busy v ∧ v.wire.ackPkt = true
  | .cleared => Free v ∧ v.wire.masked = true

/-- Where `C1MR` was read in between, a mask bit may since have been set, by the interrupt. -/
def Stale (masked : Bool) (v : View M) : Prop :=
  masked = v.wire.masked ∨ masked = false ∧ Raised v ∧ v.pending = true

/-! ## What happens meanwhile -/

theorem Settled.received (settled : Settled v) (flag : v.wire.flag = true)
    (unmasked : v.wire.masked = false) :
    Raised ⟨{ v.wire with masked := true }, v.cpt + 1, true⟩ := by
  cases settled with
  | free free => exact ⟨free.inside, Nat.succ_ne_zero _, flag, free.arrived flag⟩
  | raised raised => exact ⟨raised.inside, Nat.succ_ne_zero _, flag, raised.waiting⟩
  | busy busy => exact absurd busy.masked (by simp [unmasked])

theorem Free.posted (free : Free v) {wire : Wire M} (posted : v.wire.Posted wire) :
    Free { v with wire := wire } := by
  cases posted with
  | kept => exact free
  | posted message none =>
    refine ⟨free.inside, free.cpt, fun _ => ⟨message, rfl, ?_⟩, fun unset => by cases unset⟩
    exact congrArg (· ++ [message]) (free.empty none).symm

theorem posted_kept {wire wire' : Wire M} (posted : wire.Posted wire') (flag : wire.flag = true) :
    wire' = wire := by
  cases posted with
  | kept => rfl
  | posted message none => exact absurd flag (by simp [none])

theorem posted_unseen {wire wire' : Wire M} (posted : wire.Posted wire') :
    wire'.inside = wire.inside ∧ wire'.masked = wire.masked := by
  cases posted <;> exact ⟨rfl, rfl⟩

theorem View.Meanwhile.inside (meanwhile : v.Meanwhile w) : w.wire.inside = v.wire.inside := by
  cases meanwhile with
  | aside still => rfl
  | posted posted => exact (posted_unseen posted).1
  | received flag unmasked => rfl

theorem Settled.lasting (settled : Settled v) (meanwhile : v.Meanwhile w) : Settled w := by
  cases meanwhile with
  | aside still =>
    cases settled with
    | free free unmasked => exact .free ⟨free.1, free.2, free.3, free.4⟩ unmasked
    | raised raised pending => exact .raised ⟨raised.1, raised.2, raised.3, raised.4⟩ (still pending)
    | busy busy => exact .busy ⟨busy.1, busy.2, busy.3, busy.4, busy.5⟩
  | posted posted =>
    cases settled with
    | free free unmasked =>
      exact .free (free.posted posted) ((posted_unseen posted).2.trans unmasked)
    | raised raised pending =>
      obtain rfl := posted_kept posted raised.flag
      exact .raised raised pending
    | busy busy =>
      obtain rfl := posted_kept posted busy.flag
      exact .busy busy
  | received flag unmasked => exact .raised (settled.received flag unmasked) rfl

theorem Phase.lasting {phase : Phase} (holds : phase.Holds v) (meanwhile : v.Meanwhile w) :
    phase.Holds w := by
  cases phase with
  | settled inside => exact ⟨holds.1.lasting meanwhile, meanwhile.inside.trans holds.2⟩
  | started inside =>
    refine ⟨holds.1.lasting ?_, meanwhile.inside.trans holds.2⟩
    cases meanwhile with
    | aside still => exact .refl
    | posted posted => exact .posted posted
    | received flag unmasked => exact .received flag unmasked
  | found =>
    cases meanwhile with
    | aside still =>
      exact ⟨⟨holds.1.inside, holds.1.cpt, holds.1.flag, holds.1.waiting⟩, holds.2⟩
    | posted posted =>
      obtain rfl := posted_kept posted holds.1.flag
      exact holds
    | received flag unmasked => exact absurd holds.2 (by simp [unmasked])
  | reset =>
    cases meanwhile with
    | aside still => exact holds
    | posted posted =>
      obtain rfl := posted_kept posted holds.2.2.1
      exact holds
    | received flag unmasked => exact absurd holds.2.2.2.1 (by simp [unmasked])
  | answered =>
    cases meanwhile with
    | aside still =>
      exact ⟨⟨holds.1.1, holds.1.2, holds.1.3, holds.1.4, holds.1.5⟩, holds.2⟩
    | posted posted =>
      obtain rfl := posted_kept posted holds.1.flag
      exact holds
    | received flag unmasked => exact absurd holds.1.masked (by simp [unmasked])
  | cleared =>
    cases meanwhile with
    | aside still => exact ⟨⟨holds.1.1, holds.1.2, holds.1.3, holds.1.4⟩, holds.2⟩
    | posted posted => exact ⟨holds.1.posted posted, (posted_unseen posted).2.trans holds.2⟩
    | received flag unmasked => exact absurd holds.2 (by simp [unmasked])

theorem Phase.received {phase : Phase} (holds : phase.Holds v) (flag : v.wire.flag = true)
    (unmasked : v.wire.masked = false) :
    Raised ⟨{ v.wire with masked := true }, v.cpt + 1, true⟩ := by
  cases phase with
  | settled inside => exact holds.1.received flag unmasked
  | started inside => exact holds.1.received flag unmasked
  | found => exact absurd holds.2 (by simp [unmasked])
  | reset => exact absurd holds.2.2.2.1 (by simp [unmasked])
  | answered => exact absurd holds.1.masked (by simp [unmasked])
  | cleared => exact absurd holds.2 (by simp [unmasked])

theorem Stale.lasting {phase : Phase} {masked : Bool} (holds : phase.Holds v)
    (stale : Stale masked v) (meanwhile : v.Meanwhile w) : Stale masked w := by
  cases meanwhile with
  | aside still =>
    exact stale.imp id fun ⟨unset, raised, pending⟩ =>
      ⟨unset, ⟨raised.1, raised.2, raised.3, raised.4⟩, still pending⟩
  | posted posted =>
    rcases stale with same | ⟨unset, raised, pending⟩
    · exact Or.inl (same.trans (posted_unseen posted).2.symm)
    · obtain rfl := posted_kept posted raised.flag
      exact Or.inr ⟨unset, raised, pending⟩
  | received flag unmasked =>
    refine Or.inr ⟨?_, Phase.received holds flag unmasked, rfl⟩
    rcases stale with same | ⟨unset, _⟩
    · exact same.trans unmasked
    · exact unset

/-- The mask bit of before is written back. -/
theorem Settled.restored {masked : Bool} (settled : Settled v) (stale : Stale masked v) :
    Settled { v with wire := { v.wire with masked := masked } } := by
  rcases stale with rfl | ⟨rfl, raised, pending⟩
  · exact settled
  · exact .raised ⟨raised.1, raised.2, raised.3, raised.4⟩ pending

theorem Phase.inOrder {phase : Phase} (holds : phase.Holds v) : InOrder v.wire := by
  have settled_inOrder : ∀ {u : View M}, Settled u → InOrder u.wire := by
    intro u settled
    cases settled with
    | free free =>
      cases flag : u.wire.flag with
      | false => exact Or.inl (free.empty flag)
      | true => exact Or.inr ⟨flag, free.inside, free.arrived flag⟩
    | raised raised => exact Or.inr ⟨raised.flag, raised.inside, raised.waiting⟩
    | busy busy => exact Or.inl busy.handled
  cases phase with
  | settled inside => exact settled_inOrder holds.1
  | started inside => exact settled_inOrder (u := ⟨v.wire, v.cpt, true⟩) holds.1
  | found => exact Or.inr ⟨holds.1.flag, holds.1.inside, holds.1.waiting⟩
  | reset => exact Or.inr ⟨holds.2.2.1, holds.2.1, holds.2.2.2.2⟩
  | answered => exact Or.inl holds.1.handled
  | cleared =>
    cases flag : v.wire.flag with
    | false => exact Or.inl (holds.1.empty flag)
    | true => exact Or.inr ⟨flag, holds.1.inside, holds.1.arrived flag⟩

/-! ## Interrupts and calls -/

theorem wire_rxHandler (m : Controller Message) (line : Line) :
    m.rxHandler.wire line = m.wire line ∧ m.rxWakes ≠ some (.line line) ∨
      m.rxHandler.wire line = { m.wire line with masked := true } ∧
        m.rxWakes = some (.line line) ∧ m.rxPending line = true := by
  unfold Controller.rxHandler Controller.rxWakes
  split
  · exact Or.inl ⟨rfl, by simp⟩
  · split
    · rename_i pending
      rw [Controller.wire_receive]
      cases line with
      | notify => exact Or.inr ⟨rfl, rfl, pending⟩
      | request => exact Or.inl ⟨rfl, by simp⟩
    · split
      · rename_i pending
        rw [Controller.wire_receive]
        cases line with
        | notify => exact Or.inl ⟨rfl, by simp⟩
        | request => exact Or.inr ⟨rfl, rfl, pending⟩
      · refine Or.inl ⟨?_, by simp⟩
        split
        · exact Controller.wire_tracesHandler m line
        · rfl

theorem setTask_keeps {s : State} {other : SeqTask} (set : SeqTask)
    (pending : s.taskSet other = true) : (s.setTask set).taskSet other = true := by
  simp [State.setTask, Function.update_apply, pending]

theorem setTask_set (s : State) (set : SeqTask) : (s.setTask set).taskSet set = true := by
  simp [State.setTask]

def Counts : Line → Interrupt
  | .notify => .notReceived
  | .request => .m0RequestReceived

theorem interrupt_aside {source : Interrupt} (s : State) {line : Line} (other : source ≠ Counts line) :
    cpt line (Zigbee.interrupt source s) = cpt line s ∧ (s.taskSet (taskOf line) = true →
      (Zigbee.interrupt source s).taskSet (taskOf line) = true) := by
  cases source with
  | cmdEvtReceived | shciCmdRespRelease => exact ⟨by cases line <;> rfl, id⟩
  | notReceived =>
    cases line with
    | notify => exact absurd rfl other
    | request => exact ⟨rfl, setTask_keeps (s := s) .notifyFromM0ToM4⟩
  | m0RequestReceived =>
    cases line with
    | notify => exact ⟨rfl, setTask_keeps (s := s) .requestFromM0ToM4⟩
    | request => exact absurd rfl other
  | gpioExti | setNwkTask | setTask => exact ⟨by cases line <;> rfl, setTask_keeps _⟩

theorem interrupt_counts (s : State) (line : Line) :
    cpt line (Zigbee.interrupt (Counts line) s) = cpt line s + 1 ∧
      (Zigbee.interrupt (Counts line) s).taskSet (taskOf line) = true := by
  cases line with
  | notify => exact ⟨rfl, setTask_set s .notifyFromM0ToM4⟩
  | request => exact ⟨rfl, setTask_set s .requestFromM0ToM4⟩

theorem view_aside {b t : Board} {line : Line} (wire : t.ipcc.wire line = b.ipcc.wire line)
    (same : cpt line t.app = cpt line b.app)
    (still : b.app.taskSet (taskOf line) = true → t.app.taskSet (taskOf line) = true) :
    (b.view line).Meanwhile (t.view line) := by
  have aside : (b.view line).Meanwhile
      { b.view line with pending := t.app.taskSet (taskOf line) } := .aside still
  unfold Board.view at aside ⊢
  rw [wire, same]
  exact aside

theorem view_rx (b : Board) (line : Line) :
    (b.view line).Meanwhile ((interrupt (.inr .rx) b).view line) := by
  rcases wire_rxHandler b.ipcc line with ⟨wire, wakes⟩ | ⟨wire, wakes, pending⟩
  · cases woken : b.ipcc.rxWakes with
    | none =>
      have idle : (interrupt (.inr .rx) b).app = b.app := congrArg (fun o => Option.elim o _ _) woken
      exact view_aside wire (congrArg _ idle) fun pending => idle ▸ pending
    | some wake =>
      have other : handler wake ≠ Counts line := by
        rw [woken] at wakes
        cases wake with
        | systemHciAsynchEvt => cases line <;> exact fun same => by cases same
        | line wake =>
          cases wake <;> cases line <;> first | exact absurd rfl wakes | exact fun same => by cases same
      have kept := interrupt_aside b.app other
      have handled : (interrupt (.inr .rx) b).app = Zigbee.interrupt (handler wake) b.app :=
        congrArg (fun o => Option.elim o _ _) woken
      rw [← handled] at kept
      exact view_aside wire kept.1 kept.2
  · have counts := interrupt_counts b.app line
    have same : handler (.line line) = Counts line := by cases line <;> rfl
    have handled : (interrupt (.inr .rx) b).app = Zigbee.interrupt (Counts line) b.app :=
      (congrArg (fun o => Option.elim o _ _) wakes).trans (congrArg (Zigbee.interrupt · b.app) same)
    rw [Controller.rxPending, Bool.and_eq_true, Bool.not_eq_true'] at pending
    have received := View.Meanwhile.received (v := b.view line) pending.1 pending.2
    have view : (interrupt (.inr .rx) b).view line =
        ⟨{ b.ipcc.wire line with masked := true }, cpt line b.app + 1, true⟩ := by
      rw [Board.view, handled, counts.1, counts.2]
      exact congrArg (View.mk · _ _) wire
    rw [view]
    exact received

theorem view_interrupt (source : Source) (b : Board) (line : Line) :
    (b.view line).Meanwhile ((interrupt source b).view line) := by
  cases source with
  | inl source =>
    have other : source.1 ≠ Counts line := by
      cases line with
      | notify => exact source.2.1
      | request => exact source.2.2
    have kept := interrupt_aside b.app other
    exact view_aside rfl kept.1 kept.2
  | inr source =>
    cases source with
    | rx => exact view_rx b line
    | tx => exact view_aside (b.ipcc.wire_txHandler line) rfl id
    | post other message => exact .posted (b.ipcc.wire_post line other message)
    | postSystemEvent | postTrace | take => exact .refl

def Aside : AppCall → Prop
  | .notification | .m0Request => False
  | .resetCptReceiveNotifyFromM0 | .resetCptReceiveRequestFromM0 => False
  | _ => True

variable {env : Env} {choice : Choice}

theorem cpt_aside {c : AppCall} {answer : c.Answer} {s t : State} (aside : Aside c)
    (done : Zigbee.perform env c choice s = some (answer, t)) (line : Line) :
    cpt line t = cpt line s := by
  cases c with
  | notification | m0Request | resetCptReceiveNotifyFromM0 | resetCptReceiveRequestFromM0 =>
    exact aside.elim
  | halGetTick | mallocCallback | extiHandler =>
    obtain rfl := mapped_state done
    rfl
  | mallocInfo =>
    rcases malloc_state done with rfl | ⟨info, content, rfl⟩ <;> cases line <;> rfl
  | transfer request =>
    rcases transfer_state done with rfl | ⟨_, _, _, rfl⟩ | ⟨_, _, _, _, _, rfl⟩ <;>
      cases line <;> rfl
  | _ =>
    obtain rfl := answered_state done
    cases line <;> rfl

theorem tasks_kept {c : AppCall} {answer : c.Answer} {s t : State} {other : SeqTask}
    (done : Zigbee.perform env c choice s = some (answer, t)) (pending : s.taskSet other = true) :
    t.taskSet other = true := by
  have again := Zigbee.perform_put env s.taskSet s.evtSet s c choice
  rw [show s.put s.taskSet s.evtSet = s from rfl, done] at again
  have tasks : t.taskSet = askTasks s.taskSet c.asks :=
    congrArg (fun r => r.2.taskSet) (Option.some.inj again)
  rw [tasks]
  cases asked : c.asks with
  | none => exact pending
  | some ask => cases ask <;> simp [askTasks, Function.update_apply, pending]

theorem view_app {c : AppCall} {answer : c.Answer} {b t : Board} (aside : Aside c)
    (done : perform env (.app c) choice b = some (answer, t)) (line : Line) :
    (b.view line).Meanwhile (t.view line) := by
  have below : ∃ r, Zigbee.perform env c choice b.app = some r ∧ t = { b with app := r.2 } := by
    have mapped : (Zigbee.perform env c choice b.app).map (fun r => (r.1, { b with app := r.2 })) =
        some (answer, t) := by
      cases c with
      | notification | m0Request => exact aside.elim
      | _ => exact done
    rcases Option.map_eq_some_iff.mp mapped with ⟨r, done, same⟩
    exact ⟨r, done, (Prod.mk.inj same).2.symm⟩
  rcases below with ⟨r, below, rfl⟩
  exact view_aside rfl (cpt_aside aside below line) (tasks_kept below)

end Baelux.Zigbee.Mailbox

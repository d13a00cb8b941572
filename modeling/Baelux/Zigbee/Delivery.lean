import Baelux.Zigbee.MailboxLines

/-! Each message of the M0 is handed to its processing function once and in order, and none is
forgotten, whichever interrupts come between any two accesses. -/

namespace Baelux.Zigbee.Mailbox

open Effect Nesting Flash Nvm Ipcc Baelux.Seq Simulation

variable {env : Env} {α : Type}

/-- A receive interrupt is taken before the task of its line runs. Where the task finds a message,
the interrupt is pending only since another task has written back an old `C1MR`. -/
def Prompt : (c : MailCall) → c.Answer → Board → Prop
  | .app .cptReceiveNotifyFromM0, (received : Nat), b =>
      received ≠ 0 → b.ipcc.rxPending .notify = false
  | .app .cptReceiveRequestFromM0, (received : Nat), b =>
      received ≠ 0 → b.ipcc.rxPending .request = false
  | _, _, _ => True

private def promptOn (line : Line) (b : Board) (received : Nat) : Bool :=
  decide (received ≠ 0 → b.ipcc.rxPending line = false)

private theorem promptOn_iff (line : Line) (b : Board) (received : Nat) :
    promptOn line b received = true ↔ (received ≠ 0 → b.ipcc.rxPending line = false) :=
  decide_eq_true_iff

private def prompt : (c : MailCall) → c.Answer → Board → Bool
  | .app .cptReceiveNotifyFromM0, received, b => promptOn .notify b received
  | .app .cptReceiveRequestFromM0, received, b => promptOn .request b received
  | _, _, _ => true

private theorem prompt_iff (c : MailCall) (answer : c.Answer) (b : Board) :
    prompt c answer b = true ↔ Prompt c answer b := by
  cases c with
  | app c =>
    cases c with
    | cptReceiveNotifyFromM0 => exact promptOn_iff .notify b answer
    | cptReceiveRequestFromM0 => exact promptOn_iff .request b answer
    | _ => exact iff_of_true rfl trivial
  | _ => exact iff_of_true rfl trivial

instance (c : MailCall) (answer : c.Answer) (b : Board) : Decidable (Prompt c answer b) :=
  decidable_of_iff (prompt c answer b = true) (prompt_iff c answer b)

structure Readable {M : Type} (w : Wire M) : Prop where
  flag : w.flag = true
  inside : w.inside = false
  waiting : Waiting w

def Delivers (c : MailCall) (b : Board) : Prop :=
  (∀ line, InOrder (b.ipcc.wire line)) ∧
    match c with
    | .app .notification => Readable (b.ipcc.wire .notify)
    | .app .m0Request => Readable (b.ipcc.wire .request)
    | .setAckPkt line => b.ipcc.flag line = true ∧ b.ipcc.inside line = true
    | .clearFlag line => b.ipcc.flag line = true ∧ b.ipcc.inside line = true ∧
        b.ipcc.ackPkt line = true ∧ b.ipcc.handled line = b.ipcc.posted line
    | _ => True

theorem view_idle (event : SeqEvent) (b : Board) (line : Line) :
    ((sequencer env).idle event b).view line = b.view line := by
  cases event <;> cases line <;> rfl

theorem view_clear (event : SeqEvent) (b : Board) (line : Line) :
    ((sequencer env).clear event b).view line = b.view line := by
  cases line <;> rfl

def rely (env : Env) : Rely (sequencer env) where
  Idle event b := ∀ line, Settled (b.view line) ∧
    (event = none → (b.view line).wire.inside = false)
  Rel b t := ∀ line, (t.view line).wire.inside = (b.view line).wire.inside ∧
    (Settled (b.view line) → Settled (t.view line))
  refl _ _ := ⟨rfl, id⟩
  trans first second line := ⟨(second line).1.trans (first line).1, (second line).2 ∘ (first line).2⟩
  closed idle held line := ⟨(held line).2 (idle line).1, fun none =>
    (held line).1.trans ((idle line).2 none)⟩
  interrupted source _ line :=
    ⟨(view_interrupt source _ line).inside, fun settled => settled.lasting (view_interrupt source _ line)⟩
  idled {event b} _ line := by
    rw [view_idle]
    exact ⟨rfl, id⟩

abbrev Runs (env : Env) (A : Board → Prop) (program : Mail α) (B : α → Board → Prop) : Prop :=
  Triple (rely env) Prompt Delivers A program B

/-! ## The lines while a task runs -/

def At (phases : Line → Phase) (b : Board) : Prop :=
  ∀ line, (phases line).Holds (b.view line)

def calm (inside : Line → Bool) (line : Line) : Phase := .settled (inside line)

def serving (line : Line) (phase : Phase) (inside : Line → Bool) : Line → Phase :=
  Function.update (calm inside) line phase

variable {phases phases' : Line → Phase} {b t : Board} {line : Line} {inside : Line → Bool}
  {phase : Phase}

theorem stable_at : Stable (sequencer env) (At phases) :=
  fun source b holds line => Phase.lasting (holds line) (view_interrupt source b line)

theorem At.delivers_rest (holds : At phases b) (line : Line) : InOrder (b.ipcc.wire line) :=
  Phase.inOrder (holds line)

theorem At.served (holds : At (serving line phase inside) b) : phase.Holds (b.view line) := by
  have here := holds line
  rwa [serving, Function.update_self] at here

theorem At.of_served (here : phase.Holds (b.view line))
    (others : ∀ other, other ≠ line → (calm inside other).Holds (b.view other)) :
    At (serving line phase inside) b := by
  intro other
  by_cases same : other = line
  · subst same
    rw [serving, Function.update_self]
    exact here
  · rw [serving, Function.update_of_ne same]
    exact others other same

theorem At.others (holds : At (serving line phase inside) b) {other : Line} (apart : other ≠ line) :
    (calm inside other).Holds (b.view other) := by
  have here := holds other
  rwa [serving, Function.update_of_ne apart] at here

theorem At.serve {next : Phase} (holds : At (serving line phase inside) b)
    (here : next.Holds (t.view line))
    (others : ∀ other, other ≠ line → (b.view other).Meanwhile (t.view other)) :
    At (serving line next inside) t :=
  .of_served here fun other apart =>
    show (calm inside other).Holds (t.view other) from
      Phase.lasting (holds.others apart) (others other apart)

theorem serving_calm : serving line (.settled (inside line)) inside = calm inside :=
  Function.update_eq_self line (calm inside)

theorem calm_update {now : Bool} : calm (Function.update inside line now) =
    serving line (.settled now) inside := by
  funext other
  by_cases same : other = line
  · subst same
    simp [calm, serving]
  · simp [calm, serving, same]

/-! ## The calls -/

theorem runs_call (c : MailCall) {phases' : c.Answer → Line → Phase}
    (allowed : ∀ b, At phases b → Delivers c b)
    (made : ∀ b choice answer t, At phases b → perform env c choice b = some (answer, t) →
      Prompt c answer b → At (phases' answer) t) :
    Runs env (At phases) (call c) fun answer => At (phases' answer) :=
  triple_own stable_at (fun _ => stable_at) fun b holds =>
    ⟨allowed b holds, fun choice answer t done prompt => made b choice answer t holds done prompt⟩

theorem delivers_app {c : AppCall} (aside : Aside c) (holds : At phases b) :
    Delivers (.app c) b := by
  refine ⟨holds.delivers_rest, ?_⟩
  cases c with
  | notification | m0Request => exact aside.elim
  | _ => trivial

theorem runs_app {c : AppCall} (aside : Aside c) :
    Runs env (At phases) (call (.app c)) fun _ => At phases :=
  runs_call (.app c) (fun _ holds => delivers_app aside holds) fun _ _ _ _ holds done _ line =>
    Phase.lasting (holds line) (view_app aside done line)

/-- An interrupt may come between the two accesses. -/
theorem runs_modifyC1MR {update : C1mr → C1mr}
    (restored : ∀ (line : Line) (value : C1mr) (v : View (Message line)), (phases line).Holds v →
      Stale (value.rx line) v → (phases' line).Holds
        { v with wire := { v.wire with masked := (update value).rx line } }) :
    Runs env (At phases) (modifyC1MR update) fun _ => At phases' := by
  let Read (value : C1mr) (b : Board) : Prop :=
    ∀ line, (phases line).Holds (b.view line) ∧ Stale (value.rx line) (b.view line)
  have stable (value : C1mr) : Stable (sequencer env) (Read value) := fun source b read line =>
    have meanwhile := view_interrupt source b line
    ⟨Phase.lasting (read line).1 meanwhile, Stale.lasting (read line).1 (read line).2 meanwhile⟩
  refine triple_bind (M := Read) (triple_own stable_at stable ?_) fun value =>
    triple_own (stable value) (fun _ => stable_at) ?_
  · intro b holds
    refine ⟨⟨holds.delivers_rest, trivial⟩, fun choice value t done _ line => ?_⟩
    obtain ⟨rfl, rfl⟩ := Prod.mk.inj (Option.some.inj done)
    exact ⟨holds line, Or.inl rfl⟩
  · intro b read
    refine ⟨⟨fun line => Phase.inOrder (read line).1, trivial⟩, fun choice value' t done _ line => ?_⟩
    obtain ⟨_, rfl⟩ := Prod.mk.inj (Option.some.inj done)
    exact restored line value (b.view line) (read line).1 (read line).2

theorem runs_enableTransmitChannel (channel : TxChannel) :
    Runs env (At (calm inside)) (enableTransmitChannel channel) fun _ => At (calm inside) :=
  runs_modifyC1MR fun _ _ _ holds stale => ⟨holds.1.restored stale, holds.2⟩

theorem runs_setFlag (channel : TxChannel) :
    Runs env (At phases) (call (.setFlag channel)) fun _ => At phases :=
  runs_call (.setFlag channel) (fun _ holds => ⟨holds.delivers_rest, trivial⟩)
    fun b choice answer t holds done _ => by
      obtain ⟨_, rfl⟩ := Prod.mk.inj (Option.some.inj done)
      exact holds

theorem runs_sendAll (channel : Option TxChannel) :
    Runs env (At (calm inside)) (sendAll channel) fun _ => At (calm inside) := by
  cases channel with
  | none => exact triple_pure stable_at fun _ holds => holds
  | some channel =>
    apply triple_bind (runs_setFlag channel)
    intro _
    exact runs_enableTransmitChannel channel

def Quiet : TaskCall appSig SeqEvent → Prop
  | .own c => Aside c
  | .wait _ => True

theorem runs_lift {program : App α} (quiet : program.Only Quiet) :
    Runs env (At (calm inside)) (lift program) fun _ => At (calm inside) := by
  refine triple_translate stable_at quiet fun c aside => ?_
  cases c with
  | own c =>
    apply triple_bind (runs_app aside)
    intro answer
    apply triple_bind (runs_sendAll _)
    intro _
    exact triple_pure stable_at fun _ holds => holds
  | wait event =>
    refine triple_wait stable_at fun b holds => ⟨fun line => ⟨(holds line).1, fun none => by cases none⟩, ?_⟩
    intro t held _ line
    rw [view_clear]
    exact ⟨(held line).2 (holds line).1, (held line).1.trans (holds line).2⟩

/-! ## The programs of the application -/

theorem quiet_call {c : AppCall} (aside : Aside c) : (Zigbee.call c).Only Quiet :=
  (Prog.only_call _).mpr aside

theorem quiet_wait (event : SeqEvent) : (Zigbee.utilSeqWaitEvt event).Only Quiet :=
  (Prog.only_call _).mpr trivial

theorem quiet_stackCall (request : Request) : (stackCall request).Only Quiet := by
  apply (quiet_wait _).bind
  intro _
  apply (quiet_call (by trivial)).bind
  intro answer
  apply (quiet_wait _).bind
  exact fun _ => Prog.only_pure answer

theorem quiet_plainCalls (requests : List PlainRequest) : (plainCalls requests).Only Quiet := by
  induction requests with
  | nil => exact Prog.only_pure ()
  | cons request rest ih => exact (quiet_stackCall _).bind fun _ => ih

theorem quiet_onStorage (program : Storage α) : (onStorage program).Only Quiet := by
  refine (Prog.only_anything program).translate fun c _ => ?_
  cases c with
  | eraseActivity => exact (quiet_call (by trivial)).bind fun _ => quiet_wait _
  | _ => exact quiet_call (by trivial)

theorem quiet_savePersistentData (len : Data) : (savePersistentData len).Only Quiet := by
  apply (quiet_stackCall _).bind
  intro (len : Data)
  apply (quiet_onStorage _).bind
  intro _
  apply (quiet_onStorage _).bind
  intro written
  apply Prog.Only.ite
  · exact (quiet_call (by trivial)).bind fun _ => Prog.only_pure _
  · exact Prog.only_pure _

theorem quiet_appZigbeePersistSave : appZigbeePersistSave.Only Quiet := by
  have body : (do
      Zigbee.call .clearCache
      let len ← zbPersistGet false 0
      if len = 0 then pure false
      else if stPersistMaxAllocSz < len.toNat then pure false
      else savePersistentData len : App Bool).Only Quiet := by
    apply (quiet_call (by trivial)).bind
    intro _
    apply (quiet_stackCall _).bind
    intro (len : Data)
    apply Prog.Only.ite (Prog.only_pure _)
    apply Prog.Only.ite (Prog.only_pure _)
    exact quiet_savePersistentData len
  apply (quiet_call (by trivial)).bind
  intro _
  apply body.bind
  intro value
  apply (quiet_call (by trivial)).bind
  exact fun _ => Prog.only_pure value

theorem quiet_appZigbeePersistNotifyCb : appZigbeePersistNotifyCb.Only Quiet := by
  apply (quiet_stackCall _).bind
  intro _
  exact quiet_appZigbeePersistSave.bind fun _ => Prog.only_pure ()

theorem quiet_zbPersistNotifyRegister : zbPersistNotifyRegister.Only Quiet :=
  (quiet_stackCall _).bind fun _ => quiet_call (by trivial)

theorem quiet_appZigbeePersistCompletedCallback (status : ZbStatus) :
    (appZigbeePersistCompletedCallback status).Only Quiet := by
  apply (Prog.Only.ite (quiet_stackCall _) (Prog.only_pure ())).bind
  intro _
  exact quiet_zbPersistNotifyRegister.bind fun _ => quiet_appZigbeePersistNotifyCb

theorem quiet_zbStartupWaitCb (status : ZbStatus) (info : InfoId) :
    (zbStartupWaitCb status info).Only Quiet := by
  apply (quiet_call (by trivial)).bind
  intro _
  exact (quiet_call (by trivial)).bind fun _ => quiet_call (by trivial)

theorem quiet_zbStartup (type : ZbStartType) (info : InfoId) : (zbStartup type info).Only Quiet := by
  apply (quiet_call (by trivial)).bind
  intro (allocated : Bool)
  exact Prog.Only.ite (quiet_stackCall _) (Prog.only_pure _)

theorem quiet_zbStartupWait (type : ZbStartType) : (zbStartupWait type).Only Quiet := by
  apply (quiet_call (by trivial)).bind
  intro (block : Option InfoId)
  cases block with
  | none => exact Prog.only_pure _
  | some info =>
    apply (quiet_call (by trivial)).bind
    intro _
    apply (quiet_call (by trivial)).bind
    intro _
    apply (quiet_zbStartup type info).bind
    intro (status : ZbStatus)
    apply Prog.Only.ite
    · exact (quiet_call (by trivial)).bind fun _ => Prog.only_pure _
    · apply (quiet_wait _).bind
      intro _
      apply (quiet_call (by trivial)).bind
      intro _
      exact (quiet_call (by trivial)).bind fun _ => Prog.only_pure _

theorem quiet_startupEnded (requested : Option InfoId) (status : ZbStatus) {failed : App Unit}
    (quiet : failed.Only Quiet) : (startupEnded requested status failed).Only Quiet := by
  apply (quiet_call (by trivial)).bind
  intro _
  apply Prog.Only.ite _ quiet
  apply (quiet_call (by trivial)).bind
  intro _
  apply (quiet_call (by trivial)).bind
  intro _
  exact quiet_zbPersistNotifyRegister.bind fun _ => quiet_appZigbeePersistNotifyCb

theorem quiet_appZigbeeNwkStart : appZigbeeNwkStart.Only Quiet := by
  apply (quiet_call (by trivial)).bind
  intro (info : AppInfo)
  apply Prog.Only.ite (Prog.only_pure _)
  apply (quiet_stackCall _).bind
  intro _
  apply (quiet_stackCall _).bind
  intro _
  apply (quiet_call (by trivial)).bind
  intro (type : ZbStartType)
  apply (quiet_zbStartupWait type).bind
  intro (requested, status)
  apply (quiet_startupEnded requested status (Prog.only_pure ())).bind
  intro _
  apply (quiet_call (by trivial)).bind
  intro (joinStatus : ZbStatus)
  apply Prog.Only.ite (Prog.only_pure _)
  apply (quiet_plainCalls _).bind
  intro _
  apply (quiet_stackCall _).bind
  intro _
  apply (quiet_call (by trivial)).bind
  intro (type : ZbStartType)
  exact Prog.Only.ite (quiet_stackCall _) (Prog.only_pure ())

theorem quiet_delayStartup : delayStartup.Only Quiet :=
  (quiet_call (by trivial)).bind fun _ => quiet_call (by trivial)

theorem quiet_tryStartup (info : AppInfo) (now : BitVec 32) : (tryStartup info now).Only Quiet := by
  apply Prog.Only.ite _ (Prog.only_pure _)
  apply (quiet_stackCall _).bind
  intro _
  apply (quiet_stackCall _).bind
  intro _
  apply (quiet_call (by trivial)).bind
  intro (info : AppInfo)
  apply (quiet_zbStartupWait _).bind
  intro (requested, status)
  exact quiet_startupEnded requested status (quiet_delayStartup.bind fun _ => quiet_delayStartup)

theorem quiet_appZigbeeNwkForm : appZigbeeNwkForm.Only Quiet := by
  apply (quiet_call (by trivial)).bind
  intro (info : AppInfo)
  apply (quiet_call (by trivial)).bind
  intro (now : BitVec 32)
  apply (quiet_tryStartup info now).bind
  intro _
  apply (quiet_call (by trivial)).bind
  intro (info : AppInfo)
  exact Prog.Only.ite (quiet_call (by trivial)) (quiet_plainCalls _)

theorem quiet_userExtiHandler : userExtiHandler.Only Quiet := by
  apply (quiet_call (by trivial)).bind
  intro (pressed : Bool)
  exact Prog.Only.ite (quiet_call (by trivial)) (Prog.only_pure ())

/-! ## The tasks of the lines -/

def Read (line : Line) (inside : Line → Bool) (received : Nat) (b : Board) : Prop :=
  (received = 0 → At (calm inside) b) ∧
    (received ≠ 0 → inside line = false ∧ At (serving line .found inside) b)

theorem stable_read (received : Nat) : Stable (sequencer env) (Read line inside received) :=
  fun source b read =>
    ⟨fun zero => stable_at source b (read.1 zero),
      fun nonzero => ⟨(read.2 nonzero).1, stable_at source b (read.2 nonzero).2⟩⟩

theorem read_started (holds : At (serving line (.started (inside line)) inside) b)
    (prompt : cpt line b.app ≠ 0 → b.ipcc.rxPending line = false) :
    Read line inside (cpt line b.app) b := by
  rcases holds.served with ⟨settled, inside_here⟩
  constructor
  · intro (zero : (b.view line).cpt = 0)
    have here : Settled (b.view line) := by
      cases settled with
      | free free unmasked => exact .free ⟨free.1, free.2, free.3, free.4⟩ unmasked
      | raised raised => exact absurd zero raised.cpt
      | busy busy => exact .busy ⟨busy.1, busy.2, busy.3, busy.4, busy.5⟩
    rw [← @serving_calm line inside]
    exact .of_served ⟨here, inside_here⟩ fun other apart => holds.others apart
  · intro (nonzero : (b.view line).cpt ≠ 0)
    have raised : Raised (b.view line) := by
      cases settled with
      | free free => exact absurd free.cpt nonzero
      | raised raised => exact ⟨raised.1, raised.2, raised.3, raised.4⟩
      | busy busy => exact absurd busy.cpt nonzero
    have masked : b.ipcc.c1mr.rx line = true := by
      have flag : b.ipcc.flag line = true := raised.flag
      simpa [Controller.rxPending, flag] using prompt nonzero
    exact ⟨inside_here.symm.trans raised.inside,
      .of_served ⟨raised, masked⟩ fun other apart => holds.others apart⟩

theorem lift_bind {β : Type} (program : App α) (rest : α → App β) :
    lift (program >>= rest) = lift program >>= fun value => lift (rest value) :=
  @Prog.translate_bind (waiting appSig SeqEvent) (waiting mailSig SeqEvent) α β liftCall program rest

theorem runs_lift_call {c : AppCall} {A : Board → Prop} {B : c.Answer → Board → Prop}
    (silent : channel c = none) (stable : ∀ answer, Stable (sequencer env) (B answer))
    (runs : Runs env A (call (.app c)) B) : Runs env A (lift (Zigbee.call c)) B := by
  apply triple_bind runs
  intro (answer : c.Answer)
  simp only [silent]
  exact triple_pure (stable answer) fun _ holds => holds

theorem runs_cptReceive : Runs env (At (serving line (.started (inside line)) inside))
    (lift (cptReceive line)) (Read line inside) := by
  cases line with
  | notify =>
    refine runs_lift_call rfl stable_read (triple_own stable_at stable_read fun b holds =>
      ⟨⟨holds.delivers_rest, trivial⟩, fun choice answer t done prompt => ?_⟩)
    obtain ⟨rfl, rfl⟩ := Prod.mk.inj (Option.some.inj done)
    exact read_started holds prompt
  | request =>
    refine runs_lift_call rfl stable_read (triple_own stable_at stable_read fun b holds =>
      ⟨⟨holds.delivers_rest, trivial⟩, fun choice answer t done prompt => ?_⟩)
    obtain ⟨rfl, rfl⟩ := Prod.mk.inj (Option.some.inj done)
    exact read_started holds prompt

theorem runs_resetCptReceive : Runs env (At (serving line .found inside))
    (lift (resetCptReceive line)) fun _ => At (serving line .reset inside) := by
  have found (b : Board) (holds : At (serving line .found inside) b) : Phase.reset.Holds
      { b.view line with cpt := 0 } :=
    have here := holds.served
    ⟨rfl, here.1.inside, here.1.flag, here.2, here.1.waiting⟩
  cases line with
  | notify =>
    refine runs_lift_call rfl (fun _ => stable_at) (runs_call _ (fun b holds =>
      ⟨holds.delivers_rest, trivial⟩) fun b choice answer t holds done _ => ?_)
    obtain ⟨_, rfl⟩ := Prod.mk.inj (Option.some.inj done)
    refine holds.serve (found b holds) fun other apart => ?_
    cases other with
    | notify => exact absurd rfl apart
    | request => exact .refl
  | request =>
    refine runs_lift_call rfl (fun _ => stable_at) (runs_call _ (fun b holds =>
      ⟨holds.delivers_rest, trivial⟩) fun b choice answer t holds done _ => ?_)
    obtain ⟨_, rfl⟩ := Prod.mk.inj (Option.some.inj done)
    refine holds.serve (found b holds) fun other apart => ?_
    cases other with
    | notify => exact .refl
    | request => exact absurd rfl apart

theorem handed {m : Controller Message} {message : Message line} {cpt : Nat} {pending : Bool}
    (reset : Phase.reset.Holds ⟨m.wire line, cpt, pending⟩) (reads : m.buffer line = some message) :
    (Phase.settled true).Holds ⟨(m.hand line message).wire line, cpt, pending⟩ := by
  rcases reset with ⟨zero, _, flag, masked, waits, here, posted⟩
  obtain rfl : waits = message := Option.some.inj (here.symm.trans reads)
  rw [Controller.wire_hand]
  exact ⟨.busy ⟨rfl, zero, flag, masked, posted.symm⟩, rfl⟩

theorem notify_aside {message answer : Notification} {s u : State}
    (done : s.notify message = some (answer, u)) :
    (∀ line, cpt line u = cpt line s) ∧ u.taskSet = s.taskSet := by
  have same : u = s ∨ ∃ status info, u = s.giveCallback status info :=
    @notify_state (.notification message) answer s u done
  rcases same with rfl | ⟨status, info, rfl⟩
  · exact ⟨fun _ => rfl, rfl⟩
  · exact ⟨fun line => by cases line <;> rfl, rfl⟩

theorem runs_notification : Runs env (At (serving .notify .reset inside))
    (lift notification) fun _ => At (serving .notify (.settled true) inside) := by
  refine runs_lift_call rfl (fun _ => stable_at) (runs_call _ (fun b holds => ?_)
    fun b choice answer t holds done _ => ?_)
  · have here := holds.served
    exact ⟨holds.delivers_rest, here.2.2.1, here.2.1, here.2.2.2.2⟩
  · rcases Option.bind_eq_some_iff.mp done with ⟨message, reads, done⟩
    rcases Option.map_eq_some_iff.mp done with ⟨r, notified, same⟩
    obtain ⟨_, rfl⟩ := Prod.mk.inj same
    have aside := notify_aside notified
    have view (other : Line) : Board.view ⟨r.2, b.ipcc.hand .notify message⟩ other =
        ⟨(b.ipcc.hand .notify message).wire other, cpt other b.app, b.app.taskSet (taskOf other)⟩ := by
      rw [Board.view, aside.1, aside.2]
    refine holds.serve ?_ fun other apart => ?_
    · rw [view]
      exact handed holds.served reads
    · rw [view, Controller.wire_hand_other _ _ message apart]
      exact .refl

theorem runs_m0Request : Runs env (At (serving .request .reset inside))
    (lift m0Request) fun _ => At (serving .request (.settled true) inside) := by
  refine runs_lift_call rfl (fun _ => stable_at) (runs_call _ (fun b holds => ?_)
    fun b choice answer t holds done _ => ?_)
  · have here := holds.served
    exact ⟨holds.delivers_rest, here.2.2.1, here.2.1, here.2.2.2.2⟩
  · rcases Option.map_eq_some_iff.mp done with ⟨message, reads, same⟩
    obtain ⟨_, rfl⟩ := Prod.mk.inj same
    refine holds.serve (handed holds.served reads) fun other apart => ?_
    exact view_aside (Controller.wire_hand_other _ _ message apart) rfl id

theorem runs_processing : Runs env (At (serving line .reset inside)) (lift (processing line))
    fun _ => At (serving line (.settled true) inside) := by
  cases line with
  | request => exact runs_m0Request
  | notify =>
    rw [processing, zigbeeCallBackProcessing, lift_bind]
    apply triple_bind runs_notification
    intro notified
    rw [← calm_update]
    apply runs_lift
    cases notified with
    | startup status info => exact quiet_zbStartupWaitCb status info
    | startupPersist status => exact quiet_appZigbeePersistCompletedCallback status
    | persist =>
      apply (quiet_call (by trivial)).bind
      intro (registered : Bool)
      exact Prog.Only.ite quiet_appZigbeePersistNotifyCb (Prog.only_pure ())
    | other requests => exact quiet_plainCalls requests

theorem Settled.busy_of_inside {M : Type} {v : View M} (settled : Settled v)
    (inside : v.wire.inside = true) : Busy v := by
  cases settled with
  | free free => exact absurd inside (by simp [free.inside])
  | raised raised => exact absurd inside (by simp [raised.inside])
  | busy busy => exact busy

theorem runs_setAckPkt : Runs env (At (serving line (.settled true) inside))
    (call (.setAckPkt line)) fun _ => At (serving line .answered inside) := by
  refine runs_call _ (fun b holds => ?_) fun b choice answer t holds done _ => ?_
  · have busy := holds.served.1.busy_of_inside holds.served.2
    exact ⟨holds.delivers_rest, busy.flag, busy.inside⟩
  · obtain ⟨_, rfl⟩ := Prod.mk.inj (Option.some.inj done)
    have busy := holds.served.1.busy_of_inside holds.served.2
    refine holds.serve ?_ fun other apart => view_aside ?_ rfl id
    · rw [Board.view, Controller.wire_setAckPkt, if_pos rfl]
      exact ⟨⟨busy.1, busy.2, busy.3, busy.4, busy.5⟩, rfl⟩
    · rw [Controller.wire_setAckPkt, if_neg apart]

theorem runs_clearFlag : Runs env (At (serving line .answered inside))
    (call (.clearFlag line)) fun _ => At (serving line .cleared inside) := by
  refine runs_call _ (fun b holds => ?_) fun b choice answer t holds done _ => ?_
  · have here := holds.served
    exact ⟨holds.delivers_rest, here.1.flag, here.1.inside, here.2, here.1.handled⟩
  · obtain ⟨_, rfl⟩ := Prod.mk.inj (Option.some.inj done)
    have busy := holds.served.1
    refine holds.serve ?_ fun other apart => view_aside ?_ rfl id
    · rw [Board.view, Controller.wire_clearFlag, if_pos rfl]
      exact ⟨⟨rfl, busy.cpt, (fun set => by cases set), fun _ => busy.handled⟩, busy.masked⟩
    · rw [Controller.wire_clearFlag, if_neg apart]

theorem runs_enableReceiveChannel (before : inside line = false) :
    Runs env (At (serving line .cleared inside)) (enableReceiveChannel line)
      fun _ => At (calm inside) := by
  refine runs_modifyC1MR fun other value v holds stale => ?_
  by_cases same : other = line
  · subst same
    rw [serving, Function.update_self] at holds
    rw [calm, before, C1mr.rx_enableReceiveChannel, if_pos rfl]
    exact ⟨.free ⟨holds.1.1, holds.1.2, holds.1.3, holds.1.4⟩ rfl, holds.1.inside⟩
  · rw [serving, Function.update_of_ne same] at holds
    rw [C1mr.rx_enableReceiveChannel, if_neg same]
    exact ⟨holds.1.restored stale, holds.2⟩

theorem runs_processM0ToM4 : Runs env (At (serving line (.started (inside line)) inside))
    (processM0ToM4 line) fun _ => At (calm inside) := by
  apply triple_bind runs_cptReceive
  intro (received : Nat)
  apply triple_ite
  · intro nonzero
    by_cases before : inside line = false
    · apply triple_bind
      · exact triple_weaken runs_resetCptReceive (fun b read => (read.2 nonzero).2) fun _ _ holds => holds
      · intro _
        apply triple_bind runs_processing
        intro _
        apply triple_bind runs_setAckPkt
        intro _
        apply triple_bind runs_clearFlag
        intro _
        exact runs_enableReceiveChannel before
    · exact fun b read => absurd (read.2 nonzero).1 before
  · intro zero
    exact triple_pure (stable_read received) fun b read => read.1 (not_not.mp zero)

/-! ## Every task -/

theorem runs_shciUserEvtProc : Runs env (At (calm inside)) shciUserEvtProc
    fun _ => At (calm inside) := by
  have asks (c : MailCall) (plain : ∀ b, At (calm inside) b → Delivers c b)
      (reads : ∀ {b choice answer t}, perform env c choice b = some (answer, t) → t = b) :
      Runs env (At (calm inside)) (call c) fun _ => At (calm inside) :=
    runs_call c plain fun b choice answer t holds done _ => reads done ▸ holds
  apply triple_bind (asks .evtDone (fun b holds => ⟨holds.delivers_rest, trivial⟩) mapped_state)
  intro (done : Bool)
  apply triple_bind (M := fun _ => At (calm inside))
  · apply triple_ite
    · intro _
      apply triple_bind (asks (.isActiveFlag _) (fun b holds => ⟨holds.delivers_rest, trivial⟩)
        fun done => (answered_state done).symm)
      intro (active : Bool)
      exact triple_ite (fun _ => runs_enableTransmitChannel _) fun _ => runs_setFlag _
    · exact fun _ => triple_pure stable_at fun _ holds => holds
  · intro _
    apply triple_bind (asks .evtLeft (fun b holds => ⟨holds.delivers_rest, trivial⟩) mapped_state)
    intro (left : Bool)
    apply triple_ite
    · exact fun _ => runs_lift (quiet_call (by trivial))
    · exact fun _ => triple_pure stable_at fun _ holds => holds

theorem runs_taskCb {task : SeqTask} (apart : ∀ line, taskOf line ≠ task) :
    Runs env (At (calm inside)) (taskCb task) fun _ => At (calm inside) := by
  cases task with
  | notifyFromM0ToM4 => exact absurd rfl (apart .notify)
  | requestFromM0ToM4 => exact absurd rfl (apart .request)
  | systemHciAsynchEvt => exact runs_shciUserEvtProc
  | zigbeeNetworkForm => exact runs_lift quiet_appZigbeeNwkForm
  | bitmapGpioInt => exact runs_lift quiet_userExtiHandler
  | bitmapTest | zigbeeEnterStop => exact runs_lift (Prog.only_pure ())
  | zigbeeNwkForm | zigbeeNwkJoin =>
    exact runs_lift ((quiet_call (by trivial)).bind fun _ => quiet_appZigbeeNwkStart)

theorem taskCb_taskOf (line : Line) : taskCb (taskOf line) = processM0ToM4 line := by
  cases line <;> rfl

theorem taskOf_injective : Function.Injective taskOf := by
  intro first second same
  cases first <;> cases second <;> first | rfl | cases same

theorem view_take (task : SeqTask) (b : Board) (line : Line) :
    ((sequencer env).take task b).view line = { b.view line with
      pending := if taskOf line = task then false else (b.view line).pending } := by
  have same : cpt line ((sequencer env).take task b).app = cpt line b.app := by cases line <;> rfl
  rw [Board.view, same]
  exact congrArg (View.mk _ _) (Function.update_apply b.app.taskSet task false (taskOf line))

theorem tasks_keep (env : Env) : Keeps (rely env) Prompt Delivers := by
  intro event task b idle _ _
  let inside : Line → Bool := fun line => (b.view line).wire.inside
  have ends : ∀ (_ : Unit) t, At (calm inside) t → (rely env).Rel b t := fun _ t calm line =>
    ⟨(calm line).2, fun _ => (calm line).1⟩
  have untouched : ∀ line, taskOf line ≠ task →
      (calm inside line).Holds (((sequencer env).take task b).view line) := by
    intro line apart
    rw [view_take, if_neg apart]
    exact ⟨(idle line).1, rfl⟩
  change Safe (rely env) Prompt Delivers _ (taskCb task) _
  by_cases serves : ∃ line, taskOf line = task
  · rcases serves with ⟨line, rfl⟩
    rw [taskCb_taskOf]
    refine safe_mono (@runs_processM0ToM4 env line inside _ (.of_served ?_ ?_)) ends
    · rw [view_take, if_pos rfl]
      exact ⟨(idle line).1.lasting (.aside fun _ => rfl), rfl⟩
    · exact fun other apart => untouched other (taskOf_injective.ne apart)
  · have apart : ∀ line, taskOf line ≠ task := fun line same => serves ⟨line, same⟩
    exact safe_mono (runs_taskCb apart _ fun line => untouched line (apart line)) ends

/-! ## On the sequencer -/

def listening (world : World) (info : AppInfo) : Board := ⟨started world info, .init⟩

theorem listening_idle (world : World) (info : AppInfo) :
    (rely env).Idle none (listening world info) := by
  intro line
  refine ⟨.free ⟨rfl, ?_, (fun set => by cases set), fun _ => rfl⟩ rfl, fun _ => rfl⟩
  cases line <;> rfl

/-- In every run of the sequencer in which the receive interrupts are prompt, each message of the M0
is handed to its processing function once and in order, while the M0 waits for the answer, and no
message while another of its line is processed; its flag is cleared once it is answered. -/
theorem delivered_on_sequencer (world : World) (info : AppInfo) {m : Machine mailSig SeqEvent Board}
    (reaches : ((hosted env).application.system fun c answer b =>
      Prompt c answer ((hosted env).view b)).Reaches
        (Application.boot (listening world info)) m) :
    Application.Calls (fun c b => Delivers c ((hosted env).view b)) m :=
  Hosted.calls (tasks_keep env) (listening_idle world info) reaches

def received (line : Line) (message : Message line) (calls : Nat) : List (Step Source Choice) :=
  .interrupt (.inr (.post line message)) :: .interrupt (.inr .rx) ::
    List.replicate calls (.call .settled)

def handsRequest : MailCall → Bool
  | .app .m0Request => true
  | _ => false

/-- The task of the requests has read its counter, and hands a message over. -/
theorem delivered_on_sequencer_received : ∃ m : Machine mailSig SeqEvent Board,
    Application.Next handsRequest m = true ∧
      Application.Calls (fun c b => Delivers c ((hosted quiet).view b)) m := by
  have played : (((hosted quiet).application.play
      (fun c answer b => Prompt c answer ((hosted quiet).view b))
      (Application.boot (listening (powerUp fun _ => eeErased) ⟨0, 0, .preconfigured, false⟩))
      (received .request (M0Request.zbMalloc 16) 2)).bind
        ((hosted quiet).application.settle 64)).any (Application.Next handsRequest) = true := by
    decide +kernel
  rcases Application.reaches_of_script played with ⟨m, reaches, here⟩
  exact ⟨m, here, delivered_on_sequencer _ _ reaches⟩

/-- A message that was sent and not handed over has its interrupt to come, or its task to run. -/
def Attended (b : Board) (line : Line) : Prop :=
  b.ipcc.handled line ≠ b.ipcc.posted line →
    b.ipcc.rxPending line = true ∨ cpt line b.app ≠ 0 ∧ b.app.taskSet (taskOf line) = true

theorem Settled.attended (settled : Settled (b.view line)) : Attended b line := by
  intro unequal
  cases settled with
  | free free unmasked =>
    left
    have unmasked : b.ipcc.c1mr.rx line = false := unmasked
    cases flag : b.ipcc.flag line with
    | false => exact absurd (free.empty flag) unequal
    | true => simp [Controller.rxPending, flag, unmasked]
  | raised raised pending => exact Or.inr ⟨raised.cpt, pending⟩
  | busy busy => exact absurd busy.handled unequal

/-- In every such run, whenever no task's own code runs, no message is stranded. -/
theorem attended_on_sequencer (world : World) (info : AppInfo) {m : Machine mailSig SeqEvent Board}
    (reaches : ((hosted env).application.system fun c answer b =>
      Prompt c answer ((hosted env).view b)).Reaches
        (Application.boot (listening world info)) m)
    (outside : ∀ backup program, m.top ≠ .task backup program) (line : Line) :
    Attended ((hosted env).view m.shared) line := by
  have others : ∀ {tasks events b} events', (∀ line, Settled ((Board.put tasks events b).view line)) →
      ∀ line, Settled ((Board.put tasks events' b).view line) := by
    intro tasks events b events' settled line
    cases line with
    | notify => exact settled .notify
    | request => exact settled .request
  have settled : ∀ line, Settled (((hosted env).view m.shared).view line) :=
    Hosted.rests (tasks_keep env) (listening_idle world info) (fun idle line => (idle line).1)
      others reaches outside
  exact (settled line).attended

def outside (m : Machine mailSig SeqEvent Board) : Bool :=
  match m.top with
  | .task _ _ => false
  | _ => (m.app.ipcc.handled .request).length == 1 && (m.app.ipcc.posted .request).length == 2

theorem attended_on_sequencer_received : ∃ m : Machine mailSig SeqEvent Board,
    outside m = true ∧ Attended ((hosted quiet).view m.shared) .request := by
  have played : ((hosted quiet).application.play
      (fun c answer b => Prompt c answer ((hosted quiet).view b))
      (Application.boot (listening (powerUp fun _ => eeErased) ⟨0, 0, .preconfigured, false⟩))
      (received .request (M0Request.zbMalloc 16) 7 ++
        [.interrupt (.inr (.post .request (M0Request.zbMalloc 8))), .advance])).any outside =
      true := by
    decide +kernel
  rcases Application.reaches_of_played played with ⟨m, reaches, here⟩
  refine ⟨m, here, attended_on_sequencer _ _ reaches ?_ .request⟩
  intro backup program top
  rw [outside, top] at here
  cases here

end Baelux.Zigbee.Mailbox

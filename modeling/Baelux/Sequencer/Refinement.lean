import Baelux.Library.KernelSimulation
import Baelux.Sequencer.Discipline

/-! Every run of the sequencer, with interrupts between any two accesses, is a run of cooperative
tasks on one stack, where a task is taken at once. -/

namespace Baelux.Seq

open Effect Nesting Simulation

variable {S : Sig} {E T I O α : Type}

namespace Application

variable (app : Application S E T I O α)

def ask (s : Shared α) : Option (Ask E T) → Shared α
  | some (.setTask task _) => { s with taskSet := s.taskSet ||| bit (app.taskId task) }
  | some (.setEvt event) => { s with evtSet := s.evtSet ||| app.evtBit event }
  | _ => s

def kernel : Kernel S E T I O (Shared α) where
  perform call choice s := (app.perform call choice s.app).map fun (answer, a) =>
    (answer, app.ask { s with app := a } (app.asks call))
  interrupt source s := app.ask { s with app := app.interrupt source s.app } (app.raises source s.app)
  isSet event s := s.evtSet &&& app.evtBit event ≠ 0
  clear event s :=
    { s with app := app.woken event s.app, evtSet := s.evtSet &&& ~~~app.evtBit event }
  idle event s := if app.bypass event then { s with evtSet := s.evtSet ||| app.evtBit event } else s
  mask event task := (app.evtIdleMask event).getLsbD (app.taskId task)
  pending task s := s.taskSet.getLsbD (app.taskId task)
  take task s := { s with taskSet := s.taskSet &&& ~~~bit (app.taskId task) }
  code := app.taskCb

/-- The events that interrupts set may still be missing above. -/
inductive Behind (evtSet : Bm) : Bm → Prop where
  | same : Behind evtSet evtSet
  | raise {later : Bm} {source : I} {event : E} (behind : Behind evtSet later)
      (raises : ∀ a, app.raises source a = some (.setEvt event)) :
      Behind evtSet (later ||| app.evtBit event)

/-- From the read of `EvtSet` on, until the task is taken, the events set since then wait. -/
def Agrees (m : Machine S E α) (evtSet : Bm) : Prop :=
  match m.top with
  | .run _ (.readTaskMask _ localEvtSet) => evtSet = localEvtSet ∧ app.Behind evtSet m.regs.evtSet
  | .run _ (.test _ localEvtSet _) => evtSet = localEvtSet ∧ app.Behind evtSet m.regs.evtSet
  | .run _ (.search _ _) => evtSet &&& app.waited m.layers = 0 ∧ app.Behind evtSet m.regs.evtSet
  | .run _ (.choose _ _) => evtSet &&& app.waited m.layers = 0 ∧ app.Behind evtSet m.regs.evtSet
  | .run _ (.turn _ _) => evtSet &&& app.waited m.layers = 0 ∧ app.Behind evtSet m.regs.evtSet
  | .run _ .take => evtSet &&& app.waited m.layers = 0 ∧ app.Behind evtSet m.regs.evtSet
  | _ => evtSet = m.regs.evtSet

def waiting (layer : Layer S E) : Task S E Unit := .ask (.wait layer.event) layer.next

def programs (m : Machine S E α) : List (Task S E Unit) :=
  match m.top with
  | .task _ program => program :: m.layers.map waiting
  | .wait _ event next _ _ _ => .ask (.wait event) next :: m.layers.map waiting
  | _ => m.layers.map waiting

structure Refines (m : Machine S E α) (c : Config S E (Shared α)) : Prop where
  sound : app.Sound m
  own : c.data.app = m.app
  taskSet : c.data.taskSet = m.regs.taskSet
  evtSet : app.Agrees m c.data.evtSet
  stack : c.stack = programs m

variable {app} {C : (call : S.Call) → S.Answer call → Shared α → Prop} {m n : Machine S E α}
  {c : Config S E (Shared α)}

theorem Behind.reaches {evtSet later : Bm} (behind : app.Behind evtSet later) (a : α)
    (taskSet : Bm) (stack : List (Task S E Unit)) :
    (app.kernel.system C).Reaches ⟨⟨a, taskSet, evtSet⟩, stack⟩ ⟨⟨a, taskSet, later⟩, stack⟩ := by
  induction behind with
  | same => exact .refl
  | raise behind raises ih =>
    rename_i later source event
    refine ih.tail (a := Move.interrupt source) trivial ?_
    simp only [Kernel.system, Kernel.move, kernel, ask, raises, (app.quiet (raises a) a).2]

theorem or_bit_of_set {b : Bm} {index : Nat} (set : b &&& bit index ≠ 0) : b ||| bit index = b := by
  rcases ne_zero_iff.mp set with ⟨i, here⟩
  simp only [BitVec.getLsbD_and, getLsbD_bit, Bool.and_eq_true, decide_eq_true_eq] at here
  rcases here with ⟨here, _, rfl⟩
  refine BitVec.eq_of_getLsbD_eq fun j _ => ?_
  rw [BitVec.getLsbD_or, getLsbD_bit]
  by_cases same : j = i
  · rw [same, here, Bool.true_or]
  · simp [same]

theorem admitted_mask {layers : List (Layer S E)} {index : Nat}
    (admits : (app.admitted layers).getLsbD index = true) {task : T} (here : app.taskId task = index) :
    (layers.map waiting).all (app.kernel.admits task) = true := by
  induction layers with
  | nil => rfl
  | cons layer rest ih =>
    simp only [admitted, BitVec.getLsbD_and, Bool.and_eq_true] at admits
    rw [List.map_cons, List.all_cons, ih admits.1, Bool.and_true]
    exact (congrArg _ here).trans admits.2

theorem scheduling_open {layers : List (Layer S E)} {s : Shared α} (isOpen : app.Open layers)
    (none_set : s.evtSet &&& app.waited layers = 0) :
    app.kernel.scheduling (layers.map waiting) s = some s := by
  cases layers with
  | nil => rfl
  | cons layer rest =>
    have notBypassed : app.bypass layer.event = false := isOpen layer rfl
    have idles : app.kernel.idle layer.event s = s := by simp [kernel, notBypassed]
    have notSet : app.kernel.isSet layer.event s = false := by
      simpa [kernel, waited] using none_set
    simp only [List.map_cons, waiting, Kernel.scheduling, idles, notSet, Bool.or_self,
      Bool.false_eq_true, if_false]

section Steps

theorem Refines.silent (refines : app.Refines m c) (sound : app.Sound n) (same : n.app = m.app)
    (taskSet : n.regs.taskSet = m.regs.taskSet) (agrees : app.Agrees n c.data.evtSet)
    (stack : programs n = programs m) : ∃ d, (app.kernel.system C).Reaches c d ∧ app.Refines n d :=
  ⟨c, .refl, sound, refines.own.trans same.symm, refines.taskSet.trans taskSet.symm,
    agrees, refines.stack.trans stack.symm⟩

theorem Refines.data (refines : app.Refines m c) :
    c = ⟨⟨m.app, m.regs.taskSet, c.data.evtSet⟩, programs m⟩ := by
  rcases c with ⟨⟨a, taskSet, evtSet⟩, stack⟩
  obtain rfl := refines.own
  obtain rfl := refines.taskSet
  obtain rfl := refines.stack
  rfl

theorem refines_take {backup : Bm} (refines : app.Refines m c) (top : m.top = .run backup .take)
    (stepped : app.runStep m backup .take = some n) (sound : app.Sound n) :
    ∃ d, (app.kernel.system C).Reaches c d ∧ app.Refines n d := by
  have here := refines.sound.top
  have agrees := refines.evtSet
  have data := refines.data
  rw [top] at here
  simp only [Agrees, top] at agrees
  simp only [programs, top] at data
  rcases here with ⟨_, _, isOpen, pending, admits⟩
  rcases agrees with ⟨none_set, behind⟩
  rw [runStep] at stepped
  rcases Option.map_eq_some_iff.mp stepped with ⟨task, registered, rfl⟩
  have index : app.taskId task = m.regs.currentTaskIdx.toNat := app.taskAt_eq_some.mp registered
  rw [refines.sound.mask] at admits
  have pends : app.kernel.pending task ⟨m.app, m.regs.taskSet, c.data.evtSet⟩ = true :=
    (congrArg _ index).trans pending
  have dispatched := @Kernel.move_dispatch_of _ _ _ _ _ _ app.kernel c task _
    (by rw [data]; exact scheduling_open isOpen none_set)
    (by rw [data]; exact admitted_mask admits index) pends
  have taken : app.kernel.take task ⟨m.app, m.regs.taskSet, c.data.evtSet⟩ =
      ⟨m.app, m.regs.taskSet &&& ~~~bit m.regs.currentTaskIdx.toNat, c.data.evtSet⟩ := by
    rw [← index]
    rfl
  rw [taken] at dispatched
  refine ⟨_, (Kernel.reaches_move dispatched trivial).trans (behind.reaches m.app _ _), sound, rfl, rfl, rfl, ?_⟩
  rw [data]
  rfl

theorem refines_test {backup localTaskSet localEvtSet localTaskMask : Bm}
    (refines : app.Refines m c)
    (top : m.top = .run backup (.test localTaskSet localEvtSet localTaskMask))
    (stepped : app.runStep m backup (.test localTaskSet localEvtSet localTaskMask) = some n)
    (sound : app.Sound n) : ∃ d, (app.kernel.system C).Reaches c d ∧ app.Refines n d := by
  have here := refines.sound.top
  have agrees := refines.evtSet
  have data := refines.data
  rw [top] at here
  simp only [Agrees, top] at agrees
  simp only [programs, top] at data
  rcases agrees with ⟨read, behind⟩
  rw [runStep] at stepped
  split at stepped
  · rename_i test
    obtain rfl := Option.some.inj stepped
    refine refines.silent sound rfl rfl ⟨?_, behind⟩ (by simp only [programs, top])
    rw [read, ← here.2.1]
    exact test.2
  · obtain rfl := Option.some.inj stepped
    rw [data]
    exact ⟨_, behind.reaches m.app _ _, sound, rfl, rfl, rfl, rfl⟩

theorem refines_runStep {backup : Bm} {pc : RunPc} (refines : app.Refines m c)
    (top : m.top = .run backup pc) (stepped : app.runStep m backup pc = some n)
    (sound : app.Sound n) : ∃ d, (app.kernel.system C).Reaches c d ∧ app.Refines n d := by
  have agrees := refines.evtSet
  simp only [Agrees, top] at agrees
  cases pc with
  | readTaskSet =>
    obtain rfl := Option.some.inj stepped
    exact refines.silent sound rfl rfl agrees (by simp only [programs, top])
  | readEvtSet localTaskSet =>
    obtain rfl := Option.some.inj stepped
    refine refines.silent sound rfl rfl ⟨agrees, ?_⟩ (by simp only [programs, top])
    rw [agrees]
    exact Behind.same
  | readTaskMask localTaskSet localEvtSet =>
    obtain rfl := Option.some.inj stepped
    exact refines.silent sound rfl rfl agrees (by simp only [programs, top])
  | test localTaskSet localEvtSet localTaskMask => exact refines_test refines top stepped sound
  | search localTaskMask counter =>
    rcases Option.map_eq_some_iff.mp stepped with ⟨tasks, _, rfl⟩
    split at sound
    · rename_i none_here
      rw [if_pos none_here]
      exact refines.silent sound rfl rfl agrees (by simp only [programs, top])
    · rename_i some_here
      rw [if_neg some_here]
      exact refines.silent sound rfl rfl agrees (by simp only [programs, top])
  | choose localTaskMask counter =>
    rcases Option.map_eq_some_iff.mp stepped with ⟨tasks, _, rfl⟩
    exact refines.silent sound rfl rfl agrees (by simp only [programs, top])
  | turn counter currentTaskSet =>
    have here := refines.sound.top
    rw [top] at here
    rcases here with ⟨_, _, _, inside, set, _, _⟩
    rcases chooseTask_spec (r := m.regs) inside set with ⟨s, chooses, chosen⟩
    simp only [runStep, chooses, Option.map_some] at stepped
    obtain rfl := Option.some.inj stepped
    refine refines.silent sound rfl chosen.taskSet ⟨agrees.1, ?_⟩ (by simp only [programs, top])
    rw [chosen.evtSet]
    exact agrees.2
  | take => exact refines_take refines top stepped sound
  | preIdle =>
    obtain rfl := Option.some.inj stepped
    exact refines.silent sound rfl rfl agrees (by simp only [programs, top])
  | idle =>
    obtain rfl := Option.some.inj stepped
    exact refines.silent sound rfl rfl agrees (by simp only [programs, top])
  | restore =>
    rw [runStep] at stepped
    cases layers : m.layers with
    | nil =>
      rw [layers] at stepped
      obtain rfl := Option.some.inj stepped
      exact refines.silent sound rfl rfl agrees (by simp only [programs, top, layers])
    | cons layer rest =>
      rw [layers] at stepped
      obtain rfl := Option.some.inj stepped
      exact refines.silent sound rfl rfl agrees
        (by simp only [programs, top, layers, List.map_cons, waiting])

theorem refines_waitStep {backup currentTaskIdx eventWaitedIdBackup : Bm} {event : E}
    {next : Unit → Task S E Unit} {pc : WaitPc} (refines : app.Refines m c)
    (top : m.top = .wait backup event next currentTaskIdx eventWaitedIdBackup pc)
    (sound : app.Sound
      (app.waitStep m backup event next currentTaskIdx eventWaitedIdBackup pc)) :
    ∃ d, (app.kernel.system C).Reaches c d ∧
      app.Refines (app.waitStep m backup event next currentTaskIdx eventWaitedIdBackup pc) d := by
  have here := refines.sound.top
  have exact_here := refines.evtSet
  have data := refines.data
  rw [top] at here
  simp only [Agrees, top] at exact_here
  simp only [programs, top, exact_here] at data
  cases pc with
  | test => exact refines.silent sound rfl rfl exact_here (by simp only [programs, top, waitStep])
  | bypass =>
    have bypasses : app.bypass event = true := here.2.2.2.2
    by_cases set : m.regs.evtSet &&& app.evtBit event = 0
    · have idles : app.kernel.move c .idle =
          some ⟨⟨m.app, m.regs.taskSet, m.regs.evtSet ||| app.evtBit event⟩, c.stack⟩ := by
        rw [data]
        simp [Kernel.move, kernel, set, bypasses]
      refine ⟨_, Kernel.reaches_move idles trivial, sound, rfl, rfl, rfl, ?_⟩
      rw [data]
      rfl
    · refine refines.silent sound rfl rfl ?_ (by simp only [programs, top, waitStep])
      rw [exact_here]
      exact (or_bit_of_set set).symm
  | nest =>
    exact refines.silent sound rfl rfl exact_here
      (by simp only [programs, top, waitStep, List.map_cons, waiting])
  | clear =>
    have set : m.regs.evtSet &&& app.evtBit event ≠ 0 := here.2.2.2.2
    have wakes : app.kernel.move c .wake =
        some ⟨⟨app.woken event m.app, m.regs.taskSet, m.regs.evtSet &&& ~~~app.evtBit event⟩,
          next () :: m.layers.map waiting⟩ := by
      rw [data]
      simp only [Kernel.move, kernel, decide_eq_true set, if_true]
    exact ⟨_, Kernel.reaches_move wakes trivial, sound, rfl, rfl, rfl, rfl⟩

theorem ask_handleAll (a : α) (r : Registers) (asked : Option (Ask E T)) :
    app.ask ⟨a, r.taskSet, r.evtSet⟩ asked =
      ⟨a, (app.handleAll r asked).taskSet, (app.handleAll r asked).evtSet⟩ := by
  cases asked with
  | none => rfl
  | some asked => cases asked <;> rfl

theorem ask_of_not_setEvt {asked : Option (Ask E T)} (a : α) (r : Registers) (evtSet : Bm)
    (others : ∀ event, asked ≠ some (.setEvt event)) :
    app.ask ⟨a, r.taskSet, evtSet⟩ asked = ⟨a, (app.handleAll r asked).taskSet, evtSet⟩ ∧
      (app.handleAll r asked).evtSet = r.evtSet := by
  cases asked with
  | none => exact ⟨rfl, rfl⟩
  | some asked =>
    cases asked with
    | setEvt event => exact absurd rfl (others event)
    | _ => exact ⟨rfl, rfl⟩

theorem refines_call {backup : Bm} {call : S.Call} {next : S.Answer call → Task S E Unit}
    {choice : O} {answer : S.Answer call} {a : α} (refines : app.Refines m c)
    (top : m.top = .task backup (.ask (.own call) next))
    (done : app.perform call choice m.app = some (answer, a))
    (made : n = { m with
      app := a
      regs := app.handleAll m.regs (app.asks call)
      top := .task backup (next answer) })
    (ok : (app.system C).ok m (.call choice)) (sound : app.Sound n) :
    ∃ d, (app.kernel.system C).Reaches c d ∧ app.Refines n d := by
  have exact_here := refines.evtSet
  have data := refines.data
  simp only [Agrees, top] at exact_here
  simp only [programs, top, exact_here] at data
  have answers : app.kernel.Answers C c.data (.call choice) c.stack := by
    rw [data]
    intro r performed
    simp only [system, top] at ok
    rcases Option.map_eq_some_iff.mp performed with ⟨r, below, rfl⟩
    exact ok r below
  have calls : app.kernel.move c (.call choice) =
      some ⟨app.ask ⟨a, m.regs.taskSet, m.regs.evtSet⟩ (app.asks call),
        next answer :: m.layers.map waiting⟩ := by
    rw [data]
    simp only [Kernel.move, kernel, done, Option.map_some]
  rw [ask_handleAll] at calls
  subst n
  exact ⟨_, Kernel.reaches_move calls answers, sound, rfl, rfl, rfl, rfl⟩

theorem Agrees.keep {evtSet : Bm} (agrees : app.Agrees m evtSet) (top : n.top = m.top)
    (layers : n.layers = m.layers) (same : n.regs.evtSet = m.regs.evtSet) :
    app.Agrees n evtSet := by
  unfold Agrees at agrees ⊢
  rw [top, layers, same]
  exact agrees

theorem Agrees.raise {source : I} {event : E} {evtSet : Bm} (agrees : app.Agrees m evtSet)
    (raises : ∀ a, app.raises source a = some (.setEvt event)) (top : n.top = m.top)
    (layers : n.layers = m.layers) (set : n.regs.evtSet = m.regs.evtSet ||| app.evtBit event) :
    app.Agrees n evtSet ∨ evtSet = m.regs.evtSet ∧ app.Agrees n n.regs.evtSet := by
  unfold Agrees at agrees ⊢
  rw [top, layers, set]
  split at agrees
  iterate 6 exact Or.inl ⟨agrees.1, agrees.2.raise raises⟩
  exact Or.inr ⟨agrees, rfl⟩

theorem refines_interrupt {source : I} (refines : app.Refines m c)
    (made : n = { m with
      app := app.interrupt source m.app
      regs := app.handleAll m.regs (app.raises source m.app) })
    (sound : app.Sound n) : ∃ d, (app.kernel.system C).Reaches c d ∧ app.Refines n d := by
  have data := refines.data
  have interrupts (evtSet : Bm) : app.kernel.move ⟨⟨m.app, m.regs.taskSet, evtSet⟩, programs m⟩
      (.interrupt source) =
        some ⟨app.ask ⟨app.interrupt source m.app, m.regs.taskSet, evtSet⟩
          (app.raises source m.app), programs m⟩ := rfl
  have stack : programs n = programs m := by
    rw [made]
    rfl
  by_cases sets : ∃ event, app.raises source m.app = some (.setEvt event)
  · rcases sets with ⟨event, sets⟩
    have raises : ∀ a, app.raises source a = some (.setEvt event) := fun a =>
      (app.quiet sets a).1
    have set : n.regs.evtSet = m.regs.evtSet ||| app.evtBit event := by
      rw [made, raises]
      rfl
    have taskSet : n.regs.taskSet = m.regs.taskSet := by
      rw [made, raises]
      rfl
    have same : n.app = m.app := by
      rw [made]
      exact (app.quiet sets m.app).2
    rcases refines.evtSet.raise raises (by rw [made]) (by rw [made]) set with
      agrees | ⟨exact_here, agrees⟩
    · exact refines.silent sound same taskSet agrees stack
    · rw [exact_here] at data
      rw [data]
      refine ⟨_, Kernel.reaches_move (interrupts m.regs.evtSet) trivial, sound, ?_, ?_, ?_, stack.symm⟩
      · rw [raises, same]
        exact (app.quiet sets m.app).2
      · rw [raises, taskSet]
        rfl
      · rw [set] at agrees
        rw [raises]
        exact agrees
  · have asks := @ask_of_not_setEvt _ _ _ _ _ _ app _ (app.interrupt source m.app) m.regs
      c.data.evtSet fun event raises => sets ⟨event, raises⟩
    have moves := interrupts c.data.evtSet
    rw [← data, asks.1] at moves
    refine ⟨_, Kernel.reaches_move moves trivial, sound, ?_, ?_, ?_, stack.symm⟩
    · rw [made]
    · rw [made]
    · exact refines.evtSet.keep (by rw [made]) (by rw [made]) (by rw [made]; exact asks.2)

/-- Each access is a move of cooperative tasks, a row of moves, or none. -/
theorem simulates (C : (call : S.Call) → S.Answer call → Shared α → Prop) :
    System.Simulates (app.system C) (app.kernel.system C) app.Refines := by
  intro m c a n refines ok stepped
  change app.step m a = some n at stepped
  have sound := step_sound refines.sound stepped
  cases a with
  | call choice =>
    simp only [step] at stepped
    split at stepped
    · rename_i backup call next top
      rcases Option.map_eq_some_iff.mp stepped with ⟨⟨answer, a⟩, done, made⟩
      exact refines_call refines top done made.symm ok sound
    · cases stepped
  | advance =>
    have agrees := refines.evtSet
    simp only [step] at stepped
    split at stepped
    · rename_i top
      simp only [Agrees, top] at agrees
      obtain rfl := Option.some.inj stepped
      exact refines.silent sound rfl rfl agrees (by simp only [programs, top])
    · rename_i backup pc top
      exact refines_runStep refines top stepped sound
    · rename_i backup value top
      simp only [Agrees, top] at agrees
      have stack := refines.stack
      simp only [programs, top] at stack
      obtain rfl := Option.some.inj stepped
      have finishes : app.kernel.move c .finish = some ⟨c.data, m.layers.map waiting⟩ := by
        simp only [Kernel.move, stack]
      exact ⟨_, Kernel.reaches_move finishes trivial, sound, refines.own, refines.taskSet, agrees, rfl⟩
    · rename_i backup event next top
      simp only [Agrees, top] at agrees
      obtain rfl := Option.some.inj stepped
      exact refines.silent sound rfl rfl agrees (by simp only [programs, top])
    · cases stepped
    · rename_i backup event next currentTaskIdx eventWaitedIdBackup pc top
      obtain rfl := Option.some.inj stepped
      exact refines_waitStep refines top sound
  | interrupt source => exact refines_interrupt refines (Option.some.inj stepped).symm sound

end Steps

theorem refines_boot (a : α) :
    app.Refines (boot a : Machine S E α) ⟨⟨a, 0, 0⟩, []⟩ :=
  ⟨boot_sound a, rfl, rfl, rfl, rfl⟩

/-- Every run of the machine is a run of cooperative tasks. -/
theorem reaches_kernel {a : α} (reaches : (app.system C).Reaches (boot a) m) :
    ∃ c, (app.kernel.system C).Reaches ⟨⟨a, 0, 0⟩, []⟩ c ∧ app.Refines m c :=
  (simulates C).reaches (refines_boot a) reaches

theorem reaches_kernel_late : ∃ (m : Machine noCalls Unit Unit) (c : Config noCalls Unit _),
    m.top = .task (BitVec.allOnes 32) (.done ()) ∧ m.layers.length = 1 ∧ m.regs.evtSet = bit 0 ∧
      (twoTasks.kernel.system fun _ _ _ => True).Reaches ⟨⟨(), 0, 0⟩, []⟩ c ∧
      twoTasks.Refines m c := by
  have reaches : (twoTasks.system fun _ _ _ => True).Reaches (boot ()) _ :=
    .of_run nestedRun rfl (along_silent (by simp [nestedRun]) _)
  rcases reaches_kernel reaches with ⟨c, above, refines⟩
  exact ⟨_, c, rfl, rfl, rfl, above, refines⟩

def Calls (P : S.Call → Shared α → Prop) (m : Machine S E α) : Prop :=
  match m.top with
  | .task _ (.ask (.own call) _) => P call m.shared
  | _ => True

theorem Refines.calls {P : S.Call → Shared α → Prop} (refines : app.Refines m c)
    (calls : Kernel.Calls P c.data c.stack) : Calls P m := by
  unfold Calls
  split
  · rename_i backup call next top
    have exact_here := refines.evtSet
    have data := refines.data
    simp only [Agrees, top] at exact_here
    simp only [programs, top, exact_here] at data
    rw [data] at calls
    exact calls
  · trivial

end Application

end Baelux.Seq

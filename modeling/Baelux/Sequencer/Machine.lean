import Baelux.Library.Nesting
import Baelux.Library.Simulation
import Baelux.Sequencer.Registers

/-! `UTIL_SEQ_Run` and `UTIL_SEQ_WaitEvt` of `stm32_seq.c`, one access to a shared variable at a
time, with interrupts in between. -/

namespace Baelux.Seq

open Effect Nesting Simulation

/-- An application on the sequencer. What a call or an interrupt does to the variables of the
sequencer is kept apart from what it does to its own. -/
structure Application (S : Sig) (E T I O α : Type) where
  perform : (call : S.Call) → O → α → Option (S.Answer call × α)
  asks : S.Call → Option (Ask E T)
  interrupt : I → α → α
  raises : I → α → Option (Ask E T)
  /-- The function that `UTIL_SEQ_RegTask` has registered. -/
  taskCb : T → Task S E Unit
  taskId : T → Nat
  evtId : E → Nat
  /-- The table `TaskCb`, by the tasks' names. -/
  taskAt : Nat → Option T
  /-- `UTIL_SEQ_EvtIdle` sets the event itself, before it runs the sequencer. -/
  bypass : E → Bool
  /-- What is noted of the end of a wait; no program reads it. -/
  woken : E → α → α
  /-- What `UTIL_SEQ_EvtIdle` gives `UTIL_SEQ_Run`. -/
  evtIdleMask : E → Bm
  taskAt_eq_some : ∀ {index task}, taskAt index = some task ↔ taskId task = index
  taskId_lt : ∀ task, taskId task < 32
  evtId_lt : ∀ event, evtId event < 32
  /-- An interrupt that sets an event always does, and nothing else. -/
  quiet : ∀ {source event a}, raises source a = some (.setEvt event) →
    ∀ b, raises source b = some (.setEvt event) ∧ interrupt source b = b

/-- Where a `UTIL_SEQ_Run` is, with its local variables. -/
inductive RunPc where
  | readTaskSet
  | readEvtSet (localTaskSet : Bm)
  | readTaskMask (localTaskSet localEvtSet : Bm)
  | test (localTaskSet localEvtSet localTaskMask : Bm)
  | search (localTaskMask : Bm) (counter : Nat)
  | choose (localTaskMask : Bm) (counter : Nat)
  | turn (counter : Nat) (currentTaskSet : Bm)
  | take
  | preIdle
  | idle
  | restore

inductive WaitPc where
  | test
  | bypass
  | nest
  | clear

/-- What runs: the main loop, or the innermost `UTIL_SEQ_Run`, in its own code, in a task, or in a
`UTIL_SEQ_WaitEvt` of its task. -/
inductive Top (S : Sig) (E : Type) where
  | main
  | run (superMaskBackup : Bm) (pc : RunPc)
  | task (superMaskBackup : Bm) (program : Task S E Unit)
  | wait (superMaskBackup : Bm) (event : E) (next : Unit → Task S E Unit)
      (currentTaskIdx eventWaitedIdBackup : Bm) (pc : WaitPc)

/-- A `UTIL_SEQ_Run` whose task waits, and runs the sequencer again inside the wait. -/
structure Layer (S : Sig) (E : Type) where
  superMaskBackup : Bm
  event : E
  next : Unit → Task S E Unit
  currentTaskIdx : Bm
  eventWaitedIdBackup : Bm

structure Machine (S : Sig) (E α : Type) where
  app : α
  regs : Registers
  top : Top S E
  /-- The innermost first. -/
  layers : List (Layer S E)

structure Shared (α : Type) where
  app : α
  taskSet : Bm
  evtSet : Bm

def Machine.shared {S : Sig} {E α : Type} (m : Machine S E α) : Shared α :=
  ⟨m.app, m.regs.taskSet, m.regs.evtSet⟩

inductive Step (I O : Type) where
  /-- The task makes a call of its own. -/
  | call (choice : O)
  | advance
  | interrupt (source : I)

variable {S : Sig} {E T I O α : Type}

namespace Application

variable (app : Application S E T I O α)

def evtBit (event : E) : Bm := bit (app.evtId event)

def handle (r : Registers) : Ask E T → Registers
  | .setTask task taskPrio => r.utilSeqSetTask (bit (app.taskId task)) taskPrio
  | .setEvt event => r.utilSeqSetEvt (app.evtBit event)
  | .pauseTask task => r.utilSeqPauseTask (bit (app.taskId task))
  | .resumeTask task => r.utilSeqResumeTask (bit (app.taskId task))

def handleAll (r : Registers) (ask : Option (Ask E T)) : Registers :=
  ask.elim r (app.handle r)

def runStep (m : Machine S E α) (backup : Bm) : RunPc → Option (Machine S E α)
  | .readTaskSet => some { m with top := .run backup (.readEvtSet m.regs.taskSet) }
  | .readEvtSet localTaskSet =>
      some { m with top := .run backup (.readTaskMask localTaskSet m.regs.evtSet) }
  | .readTaskMask localTaskSet localEvtSet =>
      some { m with top := .run backup (.test localTaskSet localEvtSet m.regs.taskMask) }
  | .test localTaskSet localEvtSet localTaskMask =>
      if localTaskSet &&& localTaskMask &&& m.regs.superMask ≠ 0 ∧
          localEvtSet &&& m.regs.evtWaited = 0 then
        some { m with top := .run backup (.search localTaskMask 0) }
      else some { m with top := .run backup .preIdle }
  | .search localTaskMask counter =>
      (m.regs.eligible localTaskMask counter).map fun tasks =>
        if tasks = 0 then { m with top := .run backup (.search localTaskMask (counter + 1)) }
        else { m with top := .run backup (.choose localTaskMask counter) }
  | .choose localTaskMask counter =>
      (m.regs.eligible localTaskMask counter).map fun currentTaskSet =>
        { m with top := .run backup (.turn counter currentTaskSet) }
  | .turn counter currentTaskSet =>
      (m.regs.chooseTask counter currentTaskSet).map fun regs =>
        { m with regs := regs, top := .run backup .take }
  -- The critical section, and the call of the task.
  | .take =>
      let index := m.regs.currentTaskIdx.toNat
      (app.taskAt index).map fun task =>
        { m with regs := m.regs.takeTask index, top := .task backup (app.taskCb task) }
  | .preIdle =>
      some { m with
        regs := { m.regs with currentTaskIdx := utilSeqNoTaskRunning }
        top := .run backup .idle }
  -- `UTIL_SEQ_Idle` waits for an interrupt, in a critical section.
  | .idle => some { m with top := .run backup .restore }
  | .restore =>
      let regs := { m.regs with superMask := backup }
      match m.layers with
      | [] => some { m with regs := regs, top := .main }
      | layer :: layers => some { m with
          regs := regs
          top := .wait layer.superMaskBackup layer.event layer.next layer.currentTaskIdx
            layer.eventWaitedIdBackup .test
          layers := layers }

def waitStep (m : Machine S E α) (backup : Bm) (event : E) (next : Unit → Task S E Unit)
    (currentTaskIdx eventWaitedIdBackup : Bm) : WaitPc → Machine S E α
  | .test =>
      let pc := if m.regs.evtSet &&& app.evtBit event ≠ 0 then WaitPc.clear
        else if app.bypass event then .bypass else .nest
      { m with top := .wait backup event next currentTaskIdx eventWaitedIdBackup pc }
  | .bypass =>
      { m with
        regs := m.regs.utilSeqSetEvt (app.evtBit event)
        top := .wait backup event next currentTaskIdx eventWaitedIdBackup .nest }
  | .nest =>
      { m with
        regs := { m.regs with superMask := m.regs.superMask &&& app.evtIdleMask event }
        top := .run m.regs.superMask .readTaskSet
        layers := ⟨backup, event, next, currentTaskIdx, eventWaitedIdBackup⟩ :: m.layers }
  -- No interrupt uses the other two variables.
  | .clear =>
      { m with
        app := app.woken event m.app
        regs := { m.regs.utilSeqClrEvt (app.evtBit event) with
          currentTaskIdx := currentTaskIdx
          evtWaited := eventWaitedIdBackup }
        top := .task backup (next ()) }

def step (m : Machine S E α) : Step I O → Option (Machine S E α)
  | .call choice =>
      match m.top with
      | .task backup (.ask (.own call) next) =>
          (app.perform call choice m.app).map fun (answer, a) => { m with
            app := a
            regs := app.handleAll m.regs (app.asks call)
            top := .task backup (next answer) }
      | _ => none
  | .advance =>
      match m.top with
      | .main => some { m with
          regs := { m.regs with superMask := m.regs.superMask &&& utilSeqAllBitSet }
          top := .run m.regs.superMask .readTaskSet }
      | .run backup pc => app.runStep m backup pc
      | .task backup (.done _) => some { m with top := .run backup .readTaskSet }
      | .task backup (.ask (.wait event) next) => some { m with
          regs := { m.regs with evtWaited := app.evtBit event }
          top := .wait backup event next m.regs.currentTaskIdx m.regs.evtWaited .test }
      | .task _ (.ask (.own _) _) => none
      | .wait backup event next currentTaskIdx eventWaitedIdBackup pc =>
          some (app.waitStep m backup event next currentTaskIdx eventWaitedIdBackup pc)
  | .interrupt source => some { m with
      app := app.interrupt source m.app
      regs := app.handleAll m.regs (app.raises source m.app) }

def system (C : (call : S.Call) → S.Answer call → Shared α → Prop) :
    System (Machine S E α) (Step I O) where
  step := app.step
  ok
    | m, .call choice =>
        match m.top with
        | .task _ (.ask (.own call) _) =>
            ∀ r, app.perform call choice m.app = some r → C call r.1 m.shared
        | _ => True
    | _, _ => True

def boot (a : α) : Machine S E α := ⟨a, Registers.utilSeqInit, .main, []⟩

theorem along_silent {app : Application S E T I O α}
    {C : (call : S.Call) → S.Answer call → Shared α → Prop} {labels : List (Step I O)}
    (silent : ∀ choice, Step.call choice ∉ labels) (m : Machine S E α) :
    (app.system C).Along m labels := by
  induction labels generalizing m with
  | nil => trivial
  | cons a rest ih =>
    refine ⟨?_, fun t _ => ih (fun choice member => silent choice (.tail a member)) t⟩
    cases a with
    | call choice => exact absurd (.head rest) (silent choice)
    | advance => trivial
    | interrupt source => trivial

end Application

abbrev noCalls : Sig := ⟨Empty, fun _ => Unit⟩

/-- Two tasks, of which the second one waits for an event. Interrupts set the tasks and the event. -/
def twoTasks : Application noCalls Unit Bool (Option Bool) Unit Unit where
  perform call := nomatch call
  asks call := nomatch call
  interrupt _ a := a
  raises
    | some task, _ => some (.setTask task cfgSchPrio0)
    | none, _ => some (.setEvt ())
  taskCb task := if task then .ask (.wait ()) .done else .done ()
  taskId task := if task then 1 else 0
  evtId _ := 0
  taskAt
    | 0 => some false
    | 1 => some true
    | _ => none
  bypass _ := false
  woken _ a := a
  evtIdleMask _ := utilSeqAllBitSet
  taskAt_eq_some := by
    intro index task
    constructor
    · intro known
      split at known <;> cases known <;> rfl
    · rintro rfl
      cases task <;> rfl
  taskId_lt task := by cases task <;> decide
  evtId_lt _ := by decide
  quiet := by
    intro source event a raises b
    cases source with
    | none => exact ⟨raises, rfl⟩
    | some task => cases raises

/-- The second task waits. Inside its wait the first one is taken, although the event has been set
since `UTIL_SEQ_Run` has read `EvtSet`. -/
def nestedRun : List (Step (Option Bool) Unit) :=
  .interrupt (some true) :: List.replicate 12 .advance ++
    [.interrupt (some false), .advance, .advance, .interrupt none] ++ List.replicate 6 .advance

end Baelux.Seq

import Baelux.Sequencer.Refinement

/-! Cooperative tasks whose state names the pending tasks and the set events, on the sequencer,
which keeps both as bits. -/

namespace Baelux.Seq

open Effect Nesting Simulation

variable {S : Sig} {E T I O σ : Type} [DecidableEq E] [DecidableEq T]

def askTasks (tasks : T → Bool) : Option (Ask E T) → T → Bool
  | some (.setTask task _) => Function.update tasks task true
  | _ => tasks

def askEvents (events : E → Bool) : Option (Ask E T) → E → Bool
  | some (.setEvt event) => Function.update events event true
  | _ => events

structure Hosted (S : Sig) (E T I O σ : Type) [DecidableEq E] [DecidableEq T] where
  kernel : Kernel S E T I O σ
  tasks : σ → T → Bool
  events : σ → E → Bool
  put : (T → Bool) → (E → Bool) → σ → σ
  asks : S.Call → Option (Ask E T)
  raises : I → σ → Option (Ask E T)
  taskId : T → Nat
  evtId : E → Nat
  taskAt : Nat → Option T
  bypass : E → Bool
  woken : E → σ → σ
  evtIdleMask : E → Bm
  taskAt_eq_some : ∀ {index task}, taskAt index = some task ↔ taskId task = index
  taskId_lt : ∀ task, taskId task < 32
  evtId_lt : ∀ event, evtId event < 32
  evtId_inj : Function.Injective evtId
  put_self : ∀ s, put (tasks s) (events s) s = s
  put_put : ∀ tasks events tasks' events' s,
    put tasks events (put tasks' events' s) = put tasks events s
  raises_put : ∀ source tasks events s, raises source (put tasks events s) = raises source s
  quiet : ∀ {source event s}, raises source s = some (.setEvt event) → ∀ tasks events t,
    raises source t = some (.setEvt event) ∧
      put tasks events (kernel.interrupt source t) = put tasks events t
  perform_put : ∀ call choice tasks events s, kernel.perform call choice (put tasks events s) =
    (kernel.perform call choice s).map fun r =>
      (r.1, put (askTasks tasks (asks call)) (askEvents events (asks call)) r.2)
  interrupt_put : ∀ source tasks events s, kernel.interrupt source (put tasks events s) =
    put (askTasks tasks (raises source s)) (askEvents events (raises source s))
      (kernel.interrupt source s)
  isSet_put : ∀ event tasks events s, kernel.isSet event (put tasks events s) = events event
  clear_put : ∀ event tasks events s, kernel.clear event (put tasks events s) =
    put tasks (Function.update events event false) (woken event s)
  idle_put : ∀ event tasks events s, kernel.idle event (put tasks events s) =
    put tasks (if bypass event then Function.update events event true else events) s
  mask_eq : ∀ event task, kernel.mask event task = (evtIdleMask event).getLsbD (taskId task)
  pending_put : ∀ task tasks events s, kernel.pending task (put tasks events s) = tasks task
  take_put : ∀ task tasks events s, kernel.take task (put tasks events s) =
    put (Function.update tasks task false) events s

namespace Hosted

variable (h : Hosted S E T I O σ)

def application : Application S E T I O σ where
  perform call choice s :=
    (h.kernel.perform call choice s).map fun r => (r.1, h.put (h.tasks s) (h.events s) r.2)
  asks := h.asks
  interrupt source s := h.put (h.tasks s) (h.events s) (h.kernel.interrupt source s)
  raises := h.raises
  taskCb := h.kernel.code
  taskId := h.taskId
  evtId := h.evtId
  taskAt := h.taskAt
  bypass := h.bypass
  woken := h.woken
  evtIdleMask := h.evtIdleMask
  taskAt_eq_some := h.taskAt_eq_some
  taskId_lt := h.taskId_lt
  evtId_lt := h.evtId_lt
  quiet raises s := ⟨(h.quiet raises (h.tasks s) (h.events s) s).1,
    (h.quiet raises _ _ s).2.trans (h.put_self s)⟩

def view (s : Shared σ) : σ :=
  h.put (fun task => s.taskSet.getLsbD (h.taskId task))
    (fun event => s.evtSet.getLsbD (h.evtId event)) s.app

variable {h}

theorem taskId_inj : Function.Injective h.taskId := by
  intro first second same
  have first_at := h.taskAt_eq_some.mpr (rfl : h.taskId first = h.taskId first)
  have second_at := h.taskAt_eq_some.mpr same.symm
  exact Option.some.inj (first_at.symm.trans second_at)

theorem getLsbD_or_bit {N : Type} [DecidableEq N] {id : N → Nat} (few : ∀ name, id name < 32)
    (inj : Function.Injective id) (b : Bm) (name : N) :
    (fun other => (b ||| bit (id name)).getLsbD (id other)) =
      Function.update (fun other => b.getLsbD (id other)) name true := by
  funext other
  rw [Function.update_apply, BitVec.getLsbD_or, getLsbD_bit, decide_eq_true (few other),
    Bool.true_and]
  by_cases same : other = name
  · simp [same]
  · simp [same, inj.ne same]

theorem getLsbD_and_not_bit {N : Type} [DecidableEq N] {id : N → Nat} (few : ∀ name, id name < 32)
    (inj : Function.Injective id) (b : Bm) (name : N) :
    (fun other => (b &&& ~~~bit (id name)).getLsbD (id other)) =
      Function.update (fun other => b.getLsbD (id other)) name false := by
  funext other
  rw [Function.update_apply, BitVec.getLsbD_and, BitVec.getLsbD_not, getLsbD_bit,
    decide_eq_true (few other), Bool.true_and, Bool.true_and]
  by_cases same : other = name
  · simp [same]
  · simp [same, inj.ne same]

theorem view_ask (a : σ) (taskSet evtSet : Bm) (asked : Option (Ask E T)) :
    h.view (h.application.ask ⟨a, taskSet, evtSet⟩ asked) =
      h.put (askTasks (fun task => taskSet.getLsbD (h.taskId task)) asked)
        (askEvents (fun event => evtSet.getLsbD (h.evtId event)) asked) a := by
  cases asked with
  | none => rfl
  | some asked =>
    cases asked with
    | setTask task taskPrio =>
      exact congrArg (fun tasks => h.put tasks _ a)
        (getLsbD_or_bit h.taskId_lt taskId_inj taskSet task)
    | setEvt event =>
      exact congrArg (fun events => h.put _ events a)
        (getLsbD_or_bit h.evtId_lt h.evtId_inj evtSet event)
    | pauseTask task => rfl
    | resumeTask task => rfl

theorem isSet_iff (event : E) (s : Shared σ) :
    h.application.kernel.isSet event s = true ↔ s.evtSet.getLsbD (h.evtId event) = true := by
  refine decide_eq_true_iff.trans (ne_zero_iff.trans ⟨?_, fun set => ⟨h.evtId event, ?_⟩⟩)
  · rintro ⟨i, set⟩
    rw [BitVec.getLsbD_and, Bool.and_eq_true, Application.evtBit, getLsbD_bit, Bool.and_eq_true,
      decide_eq_true_iff, decide_eq_true_iff] at set
    rcases set with ⟨set, _, rfl⟩
    exact set
  · rw [BitVec.getLsbD_and, set, Bool.true_and, Application.evtBit, getLsbD_bit,
      decide_eq_true (h.evtId_lt event), Bool.true_and]
    exact decide_eq_true rfl

/-- On the sequencer the tasks do what they do on their kernel. -/
theorem image : Kernel.Image h.application.kernel h.kernel h.view where
  perform call choice s := by
    rw [view, h.perform_put]
    simp only [Application.kernel, application, Option.map_map]
    refine congrArg (fun f => Option.map f _) (funext fun r => ?_)
    refine congrArg (Prod.mk r.1) (Eq.symm ((view_ask _ _ _ _).trans ?_))
    exact h.put_put _ _ _ _ _
  interrupt source s := by
    rw [view, h.interrupt_put]
    refine Eq.symm ((view_ask _ _ _ _).trans ?_)
    exact h.put_put _ _ _ _ _
  isSet event s := by
    rw [view, h.isSet_put]
    exact Bool.eq_iff_iff.mpr (isSet_iff event s).symm
  clear event s := by
    rw [view, h.clear_put]
    refine congrArg (fun events => h.put _ events _) ?_
    exact (getLsbD_and_not_bit h.evtId_lt h.evtId_inj s.evtSet event).symm
  idle event s := by
    rw [view, h.idle_put]
    have bypass : h.application.bypass event = h.bypass event := rfl
    cases sets : h.bypass event with
    | true =>
      simp only [Application.kernel, bypass, sets, if_true]
      refine congrArg (fun events => h.put _ events _) ?_
      exact (getLsbD_or_bit h.evtId_lt h.evtId_inj s.evtSet event).symm
    | false =>
      simp only [Application.kernel, bypass, sets, Bool.false_eq_true, if_false]
      rfl
  mask := funext fun event => funext fun task => h.mask_eq event task
  pending task s := h.pending_put _ _ _ _
  take task s := by
    rw [view, h.take_put]
    refine congrArg (fun tasks => h.put tasks _ _) ?_
    exact (getLsbD_and_not_bit h.taskId_lt taskId_inj s.taskSet task).symm
  code := rfl

theorem view_boot (a : σ) : h.view ⟨a, 0, 0⟩ = h.put (fun _ => false) (fun _ => false) a := by
  simp [view]

/-- What holds of the calls of cooperative tasks holds of the calls that the sequencer runs. -/
theorem calls {r : Rely h.kernel} {C : (call : S.Call) → S.Answer call → σ → Prop}
    {P : S.Call → σ → Prop} (keeps : Keeps r C P) {a : σ}
    (idle : r.Idle none (h.put (fun _ => false) (fun _ => false) a)) {m : Machine S E σ}
    (reaches : (h.application.system fun call answer s => C call answer (h.view s)).Reaches
      (Application.boot a) m) : Application.Calls (fun call s => P call (h.view s)) m := by
  rcases Application.reaches_kernel reaches with ⟨c, reaches, refines⟩
  rcases (image.simulates C).reaches rfl reaches with ⟨d, reaches, rfl⟩
  rw [view_boot] at reaches
  refine refines.calls ?_
  have calls := Kernel.reaches_calls keeps idle reaches
  unfold Kernel.Calls at calls ⊢
  split
  · rename_i stack
    rw [stack] at calls
    exact calls
  · trivial

/-- What holds of cooperative tasks while none is under way, whichever events are set, holds on the
sequencer outside of its tasks. -/
theorem rests {r : Rely h.kernel} {C : (call : S.Call) → S.Answer call → σ → Prop}
    {P : S.Call → σ → Prop} (keeps : Keeps r C P) {a : σ}
    (idle : r.Idle none (h.put (fun _ => false) (fun _ => false) a)) {Q : σ → Prop}
    (holds : ∀ {event s}, r.Idle event s → Q s)
    (others : ∀ {tasks events s} events', Q (h.put tasks events s) → Q (h.put tasks events' s))
    {m : Machine S E σ}
    (reaches : (h.application.system fun call answer s => C call answer (h.view s)).Reaches
      (Application.boot a) m) (outside : ∀ backup program, m.top ≠ .task backup program) :
    Q (h.view m.shared) := by
  rcases Application.reaches_kernel reaches with ⟨c, reaches, refines⟩
  rcases (image.simulates C).reaches rfl reaches with ⟨d, reaches, rfl⟩
  rw [view_boot] at reaches
  have resting : Kernel.Resting c.stack := by
    rw [refines.stack, Application.programs]
    split
    · rename_i backup program top
      exact absurd top (outside backup program)
    · trivial
    · cases m.layers <;> trivial
  rcases Kernel.reaches_idle keeps idle reaches resting with ⟨event, idle⟩
  have here := holds idle
  rw [refines.data] at here
  exact others _ here

end Hosted

end Baelux.Seq

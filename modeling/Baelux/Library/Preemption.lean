import Baelux.Library.Nesting

/-! Interrupt handlers that run whole programs, waits included, on top of whatever they
preempt, and resources that one task at a time may hold while it waits. -/

namespace Baelux.Nesting

open Effect

/-! ## Programs that follow a protocol -/

/-- An automaton over the calls of a program. -/
structure Protocol (S : Sig) (Φ : Type) where
  home : Φ
  next : Φ → S.Call → Option Φ

def Follows {S : Sig} {Φ α : Type} (p : Protocol S Φ) : Φ → Prog S α → Prop
  | phase, .done _ => phase = p.home
  | phase, .ask call rest =>
      ∃ after, p.next phase call = some after ∧ ∀ answer, Follows p after (rest answer)

section Protocols

variable {S : Sig} {Φ α β : Type} {p : Protocol S Φ} {phase : Φ}

theorem follows_pure (value : α) : Follows p p.home (pure value : Prog S α) := rfl

theorem follows_bind {program : Prog S α} {rest : α → Prog S β} (first : Follows p phase program)
    (second : ∀ value, Follows p p.home (rest value)) : Follows p phase (program >>= rest) := by
  rw [Prog.bind_eq]
  induction program generalizing phase with
  | done value =>
      obtain rfl : phase = p.home := first
      exact second value
  | ask call next ih =>
      rcases first with ⟨after, allowed, follows⟩
      exact ⟨after, allowed, fun answer => ih answer (follows answer)⟩

end Protocols

/-! ## Preemption -/

structure Preemptive (S : Sig) (E T I O H σ : Type) where
  kernel : Kernel S E T I O σ
  /-- The interrupts that may come. -/
  armed : H → σ → Bool
  handler : H → Task S E Unit

/-- The stack that runs, and those that interrupts have left below it. -/
structure Contexts (S : Sig) (E σ : Type) where
  data : σ
  running : List (Task S E Unit)
  preempted : List (List (Task S E Unit))

inductive Step (T I O H : Type) where
  | move (m : Move T I O)
  /-- The scheduler goes on in a wait whose `idle` an interrupt has undone. -/
  | resume (task : T)
  | fire (handler : H)
  /-- The return from an interrupt. -/
  | leave

variable {S : Sig} {E T I O H σ : Type}

namespace Contexts

def frames (c : Contexts S E σ) : List (Task S E Unit) := c.running ++ c.preempted.flatten

def bottom (c : Contexts S E σ) : Bool := c.running.isEmpty && !c.preempted.isEmpty

end Contexts

namespace Preemptive

variable (k : Preemptive S E T I O H σ)

def move (c : Contexts S E σ) (m : Move T I O) : Option (Contexts S E σ) :=
  (k.kernel.move ⟨c.data, c.running⟩ m).map fun next => ⟨next.data, next.stack, c.preempted⟩

/-- A wait below the interrupt may or may not be inside its scheduler, so only the waits of the
running stack mask the tasks. -/
def step (c : Contexts S E σ) : Step T I O H → Option (Contexts S E σ)
  | .move (.dispatch task) => if c.bottom then none else k.move c (.dispatch task)
  | .move m => k.move c m
  | .resume task =>
      match c.running with
      | .ask (.wait event) _ :: _ =>
          if !k.kernel.isSet event c.data && c.running.all (k.kernel.admits task) &&
              k.kernel.pending task c.data then
            some ⟨k.kernel.take task c.data, k.kernel.code task :: c.running, c.preempted⟩
          else none
      | _ => none
  | .fire handler =>
      if k.armed handler c.data then
        some ⟨c.data, [k.handler handler], c.running :: c.preempted⟩
      else none
  | .leave =>
      match c.running, c.preempted with
      | [], below :: rest => some ⟨c.data, below, rest⟩
      | _, _ => none

def run (c : Contexts S E σ) : List (Step T I O H) → Option (Contexts S E σ)
  | [] => some c
  | s :: rest => (k.step c s).bind fun next => run next rest

def Fires (C : H → σ → Prop) : Contexts S E σ → List (Step T I O H) → Prop
  | _, [] => True
  | c, s :: rest => (∀ handler, s = .fire handler → C handler c.data) ∧
      ∀ next, k.step c s = some next → Fires C next rest

variable {k} in
theorem Fires.mono {C D : H → σ → Prop} {c : Contexts S E σ} {steps : List (Step T I O H)}
    (fires : k.Fires C c steps) (weaker : ∀ handler s, C handler s → D handler s) :
    k.Fires D c steps := by
  induction steps generalizing c with
  | nil => trivial
  | cons s rest ih =>
      refine ⟨fun handler same => weaker handler c.data (fires.1 handler same), ?_⟩
      intro next stepped
      exact ih (fires.2 next stepped)

private def decidableFire (C : H → σ → Prop) [∀ handler s, Decidable (C handler s)] (s : σ) :
    (a : Step T I O H) → Decidable (∀ handler, a = .fire handler → C handler s)
  | .fire handler => decidable_of_iff (C handler s)
      ⟨fun holds _ same => Step.fire.inj same ▸ holds, fun all => all handler rfl⟩
  | .move _ => isTrue nofun
  | .resume _ => isTrue nofun
  | .leave => isTrue nofun

def decidableFires (C : H → σ → Prop) [∀ handler s, Decidable (C handler s)] :
    (c : Contexts S E σ) → (steps : List (Step T I O H)) → Decidable (k.Fires C c steps)
  | _, [] => isTrue trivial
  | c, a :: rest =>
      have : DecidablePred fun next => k.Fires C next rest := fun next => decidableFires C next rest
      have := Kernel.decidableAll (k.step c a) fun next => k.Fires C next rest
      have := decidableFire C c.data a
      inferInstanceAs (Decidable ((∀ handler, a = .fire handler → C handler c.data) ∧ _))

instance (C : H → σ → Prop) [∀ handler s, Decidable (C handler s)] (c : Contexts S E σ)
    (steps : List (Step T I O H)) : Decidable (k.Fires C c steps) :=
  k.decidableFires C c steps

variable {k} in
theorem run_append {c d : Contexts S E σ} {steps : List (Step T I O H)}
    (run : k.run c steps = some d) (later : List (Step T I O H)) :
    k.run c (steps ++ later) = k.run d later := by
  induction steps generalizing c with
  | nil =>
      obtain rfl := Option.some.inj run
      rfl
  | cons a rest ih =>
      rcases Option.bind_eq_some_iff.mp run with ⟨next, stepped, run⟩
      simp only [List.cons_append, Preemptive.run, stepped, Option.bind_some]
      exact ih run

end Preemptive

/-! ## A resource that is held inside waits -/

/-- What tasks do with the resource. A loose task does not hold it; a task that holds it waits,
and inside this wait only quiet tasks run, which never wait and never use it. -/
structure Exclusive (k : Preemptive S E T I O H σ) where
  Loose : Task S E Unit → Prop
  Held : Task S E Unit → Prop
  Quiet : Task S E Unit → Prop
  /-- The number of holders. -/
  count : σ → Nat
  loose_call : ∀ {call next choice answer s t}, Loose (.ask (.own call) next) →
    k.kernel.perform call choice s = some (answer, t) →
      (Loose (next answer) ∧ count t = count s) ∨ (Held (next answer) ∧ count t = count s + 1)
  loose_wait : ∀ {event next}, Loose (.ask (.wait event) next) →
    Loose (next ()) ∧ ∀ s, count (k.kernel.clear event s) = count s
  held_wait : ∀ {task}, Held task → ∃ event next, task = .ask (.wait event) next ∧
    Loose (next ()) ∧ (∀ s, count (k.kernel.clear event s) = count s - 1) ∧
      ∀ other, k.kernel.mask event other = true → Quiet (k.kernel.code other)
  quiet_call : ∀ {call next choice answer s t}, Quiet (.ask (.own call) next) →
    k.kernel.perform call choice s = some (answer, t) → Quiet (next answer) ∧ count t = count s
  quiet_wait : ∀ {event next}, ¬ Quiet (.ask (.wait event) next)
  loose_code : ∀ task, Loose (k.kernel.code task)
  loose_handler : ∀ handler, Loose (k.handler handler)
  interrupt_count : ∀ source s, count (k.kernel.interrupt source s) = count s
  idle_count : ∀ event s, count (k.kernel.idle event s) = count s
  take_count : ∀ task s, count (k.kernel.take task s) = count s

namespace Exclusive

variable {k : Preemptive S E T I O H σ} (x : Exclusive k)

/-- One task holds the resource: all above it are quiet, all below it are loose. -/
def Holding : List (Task S E Unit) → Prop
  | [] => False
  | task :: rest => (x.Held task ∧ ∀ below ∈ rest, x.Loose below) ∨ (x.Quiet task ∧ Holding rest)

def Orderly (frames : List (Task S E Unit)) (s : σ) : Prop :=
  (x.count s = 0 ∧ ∀ task ∈ frames, x.Loose task) ∨ (x.count s = 1 ∧ x.Holding frames)

def Unheld (handler : H) (s : σ) : Prop := x.Quiet (k.handler handler) ∨ x.count s = 0

variable {x} {s t : σ} {task : Task S E Unit} {rest : List (Task S E Unit)}

theorem Orderly.same (orderly : x.Orderly rest s) (same : x.count t = x.count s) :
    x.Orderly rest t := by
  unfold Orderly at orderly ⊢
  rwa [same]

theorem Orderly.push_loose (orderly : x.Orderly rest s) (unheld : x.count s = 0)
    (loose : x.Loose task) : x.Orderly (task :: rest) s := by
  rcases orderly with ⟨_, all⟩ | ⟨held, _⟩
  · refine Or.inl ⟨unheld, ?_⟩
    intro other member
    rcases List.mem_cons.mp member with rfl | below
    · exact loose
    · exact all other below
  · rw [unheld] at held
    cases held

theorem Orderly.push (orderly : x.Orderly rest s) (loose : x.Loose task)
    (quiet : x.count s = 1 → x.Quiet task) : x.Orderly (task :: rest) s := by
  rcases orderly with ⟨unheld, all⟩ | ⟨held, holding⟩
  · exact Orderly.push_loose (Or.inl ⟨unheld, all⟩) unheld loose
  · exact Or.inr ⟨held, Or.inr ⟨quiet held, holding⟩⟩

theorem Orderly.call {call : S.Call} {next : S.Answer call → Task S E Unit} {choice : O}
    {answer : S.Answer call} (orderly : x.Orderly (.ask (.own call) next :: rest) s)
    (done : k.kernel.perform call choice s = some (answer, t)) :
    x.Orderly (next answer :: rest) t := by
  rcases orderly with ⟨unheld, all⟩ | ⟨held, ⟨holds, _⟩ | ⟨quiet, holding⟩⟩
  · have below : ∀ other ∈ rest, x.Loose other :=
      fun other member => all other (List.mem_cons_of_mem _ member)
    rcases x.loose_call (all _ (List.mem_cons_self ..)) done with ⟨loose, same⟩ | ⟨holds, more⟩
    · refine Or.inl ⟨same.trans unheld, ?_⟩
      intro other member
      rcases List.mem_cons.mp member with rfl | inside
      · exact loose
      · exact below other inside
    · rw [unheld] at more
      exact Or.inr ⟨more, Or.inl ⟨holds, below⟩⟩
  · rcases x.held_wait holds with ⟨event, after, same, _⟩
    cases same
  · rcases x.quiet_call quiet done with ⟨still, same⟩
    exact Or.inr ⟨same.trans held, Or.inr ⟨still, holding⟩⟩

theorem Orderly.wake {event : E} {next : Unit → Task S E Unit}
    (orderly : x.Orderly (.ask (.wait event) next :: rest) s) :
    x.Orderly (next () :: rest) (k.kernel.clear event s) := by
  rcases orderly with ⟨unheld, all⟩ | ⟨held, ⟨holds, below⟩ | ⟨quiet, _⟩⟩
  · rcases x.loose_wait (all _ (List.mem_cons_self ..)) with ⟨loose, same⟩
    refine Or.inl ⟨(same s).trans unheld, ?_⟩
    intro other member
    rcases List.mem_cons.mp member with rfl | inside
    · exact loose
    · exact all other (List.mem_cons_of_mem _ inside)
  · rcases x.held_wait holds with ⟨waited, after, same, loose, fewer, _⟩
    cases same
    refine Or.inl ⟨by rw [fewer, held], ?_⟩
    intro other member
    rcases List.mem_cons.mp member with rfl | inside
    · exact loose
    · exact below other inside
  · exact absurd quiet x.quiet_wait

theorem Orderly.dispatch {event : E} {next : Unit → Task S E Unit} {other : T}
    (orderly : x.Orderly (.ask (.wait event) next :: rest) s)
    (masked : k.kernel.mask event other = true) :
    x.Orderly (k.kernel.code other :: .ask (.wait event) next :: rest) s := by
  apply orderly.push (x.loose_code other)
  intro held
  rcases orderly with ⟨unheld, _⟩ | ⟨_, ⟨holds, _⟩ | ⟨quiet, _⟩⟩
  · rw [unheld] at held
    cases held
  · rcases x.held_wait holds with ⟨waited, after, same, _, _, quiet⟩
    cases same
    exact quiet other masked
  · exact absurd quiet x.quiet_wait

theorem Orderly.finish {value : Unit} (orderly : x.Orderly (.done value :: rest) s) :
    x.Orderly rest s := by
  rcases orderly with ⟨unheld, all⟩ | ⟨held, ⟨holds, _⟩ | ⟨_, holding⟩⟩
  · exact Or.inl ⟨unheld, fun other member => all other (List.mem_cons_of_mem _ member)⟩
  · rcases x.held_wait holds with ⟨event, after, same, _⟩
    cases same
  · exact Or.inr ⟨held, holding⟩

/-! ### Steps and runs -/

private theorem orderly_dispatch {c : Contexts S E σ} {other : T} {u : σ}
    (orderly : x.Orderly c.frames c.data) (scheduled : c.bottom = false)
    (looks : k.kernel.scheduling c.running c.data = some u)
    (admitted : c.running.all (k.kernel.admits other) = true) :
    x.Orderly (k.kernel.code other :: c.frames) (k.kernel.take other u) := by
  rcases c with ⟨s, running, preempted⟩
  match running with
  | [] =>
      obtain rfl := Option.some.inj looks
      obtain rfl : preempted = [] := by simpa [Contexts.bottom] using scheduled
      have empty : x.Orderly (Contexts.frames ⟨s, [], []⟩) (k.kernel.take other s) :=
        orderly.same (x.take_count other s)
      have unheld : x.count (k.kernel.take other s) = 0 := by
        rcases empty with ⟨unheld, _⟩ | ⟨_, holding⟩
        · exact unheld
        · exact holding.elim
      exact empty.push_loose unheld (x.loose_code other)
  | .ask (.wait event) next :: rest =>
      simp only [Kernel.scheduling] at looks
      split at looks
      · cases looks
      · obtain rfl := Option.some.inj looks
        simp only [List.all_cons, Bool.and_eq_true] at admitted
        apply (orderly.dispatch admitted.1).same
        rw [x.take_count, x.idle_count]
  | .done _ :: _ => cases looks
  | .ask (.own _) _ :: _ => cases looks

private theorem orderly_move {c d : Contexts S E σ} {m : Move T I O}
    (orderly : x.Orderly c.frames c.data)
    (scheduled : ∀ other, m = .dispatch other → c.bottom = false)
    (stepped : k.move c m = some d) : x.Orderly d.frames d.data := by
  rcases Option.map_eq_some_iff.mp stepped with ⟨after, moved, rfl⟩
  clear stepped
  rcases c with ⟨s, running, preempted⟩
  cases m with
  | call choice =>
      rcases Kernel.move_call moved with ⟨call, next, rest, answer, t, rfl, done, rfl⟩
      exact orderly.call done
  | wake =>
      rcases Kernel.move_wake moved with ⟨event, next, rest, rfl, _, rfl⟩
      exact orderly.wake
  | idle =>
      rcases Kernel.move_idle moved with ⟨event, next, rest, _, rfl⟩
      exact orderly.same (x.idle_count event s)
  | dispatch other =>
      rcases Kernel.move_dispatch moved with ⟨t, looks, admitted, _, rfl⟩
      exact orderly_dispatch orderly (scheduled other rfl) looks admitted
  | finish =>
      rcases Kernel.move_finish moved with ⟨value, rest, rfl, rfl⟩
      exact orderly.finish
  | interrupt source =>
      cases moved
      exact orderly.same (x.interrupt_count source s)

/-- What one step preserves. -/
theorem orderly_step {c d : Contexts S E σ} {a : Step T I O H}
    (orderly : x.Orderly c.frames c.data)
    (unheld : ∀ handler, a = .fire handler → x.Unheld handler c.data)
    (stepped : k.step c a = some d) : x.Orderly d.frames d.data := by
  cases a with
  | move m =>
      cases m with
      | dispatch other =>
          simp only [Preemptive.step, Option.ite_none_left_eq_some, Bool.not_eq_true] at stepped
          exact orderly_move orderly (fun _ _ => stepped.1) stepped.2
      | call choice => exact orderly_move (m := (.call choice)) orderly nofun stepped
      | wake => exact orderly_move (m := .wake) orderly nofun stepped
      | idle => exact orderly_move (m := .idle) orderly nofun stepped
      | finish => exact orderly_move (m := .finish) orderly nofun stepped
      | interrupt source => exact orderly_move (m := (.interrupt source)) orderly nofun stepped
  | resume other =>
      rcases c with ⟨s, running, preempted⟩
      match running, orderly, stepped with
      | .ask (.wait event) next :: rest, orderly, stepped =>
          simp only [Preemptive.step, List.all_cons, Option.ite_none_right_eq_some,
            Bool.and_eq_true] at stepped
          rcases stepped with ⟨⟨⟨_, masked, _⟩, _⟩, same⟩
          cases same
          exact (orderly.dispatch masked).same (x.take_count other s)
  | fire handler =>
      simp only [Preemptive.step, Option.ite_none_right_eq_some, Option.some.injEq] at stepped
      cases stepped.2
      have quiet := unheld handler rfl
      apply orderly.push (x.loose_handler handler)
      intro held
      exact quiet.resolve_right (by rw [held]; decide)
  | leave =>
      rcases c with ⟨s, running, preempted⟩
      match running, preempted, orderly, stepped with
      | [], below :: rest, orderly, stepped =>
          cases stepped
          exact orderly

/-- In a run in which no handler that uses the resource fires while it is held, at most one
task ever holds it. -/
theorem orderly_run {c d : Contexts S E σ} {steps : List (Step T I O H)}
    (orderly : x.Orderly c.frames c.data) (run : k.run c steps = some d)
    (unheld : k.Fires x.Unheld c steps) : x.Orderly d.frames d.data := by
  induction steps generalizing c with
  | nil =>
      obtain rfl := Option.some.inj run
      exact orderly
  | cons a later ih =>
      rcases Option.bind_eq_some_iff.mp run with ⟨next, stepped, run⟩
      exact ih (orderly_step orderly unheld.1 stepped) run (unheld.2 next stepped)

theorem Orderly.calls {c : Contexts S E σ} {P : S.Call → σ → Prop}
    (orderly : x.Orderly c.frames c.data) (free : ∀ call s, x.count s = 0 → P call s)
    (quiet : ∀ call next s, x.Quiet (.ask (.own call) next) → P call s) :
    Kernel.Calls P c.data c.running := by
  rcases c with ⟨s, running, preempted⟩
  match running, orderly with
  | .ask (.own call) next :: rest, orderly =>
      rcases orderly with ⟨unheld, _⟩ | ⟨_, ⟨holds, _⟩ | ⟨silent, _⟩⟩
      · exact free call s unheld
      · rcases x.held_wait holds with ⟨event, after, same, _⟩
        cases same
      · exact quiet call next s silent
  | [], _ => trivial
  | .done _ :: _, _ => trivial
  | .ask (.wait _) _ :: _, _ => trivial

end Exclusive

end Baelux.Nesting

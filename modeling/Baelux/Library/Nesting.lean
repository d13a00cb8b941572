import Baelux.Library.Effect
import Mathlib.Logic.Relation

/-! Cooperative tasks on one stack. A task that waits for an event runs the scheduler
inside the wait, so tasks nest, and only the innermost wait can return. -/

namespace Baelux.Nesting

open Effect

inductive TaskCall (S : Sig) (E : Type) where
  | own (call : S.Call)
  | wait (event : E)

def TaskCall.Answer {S : Sig} {E : Type} : TaskCall S E → Type
  | .own call => S.Answer call
  | .wait _ => Unit

abbrev waiting (S : Sig) (E : Type) : Sig := ⟨TaskCall S E, TaskCall.Answer⟩

abbrev Task (S : Sig) (E : Type) := Prog (waiting S E)

/-- What the tasks run on. A choice settles what a call leaves open. -/
structure Kernel (S : Sig) (E T I O σ : Type) where
  perform : (call : S.Call) → O → σ → Option (S.Answer call × σ)
  interrupt : I → σ → σ
  isSet : E → σ → Bool
  clear : E → σ → σ
  /-- What a wait does each time before it runs the scheduler. -/
  idle : E → σ → σ
  /-- The tasks that the scheduler may run inside a wait. -/
  mask : E → T → Bool
  pending : T → σ → Bool
  take : T → σ → σ
  code : T → Task S E Unit

structure Config (S : Sig) (E σ : Type) where
  data : σ
  stack : List (Task S E Unit)

inductive Move (T I O : Type) where
  | call (choice : O)
  | wake
  | idle
  | dispatch (task : T)
  | finish
  | interrupt (source : I)

variable {S : Sig} {E T I O σ α β : Type}

namespace Kernel

variable (k : Kernel S E T I O σ)

def scheduling : List (Task S E Unit) → σ → Option σ
  | [], s => some s
  | .ask (.wait event) _ :: _, s =>
      if k.isSet event s || k.isSet event (k.idle event s) then none else some (k.idle event s)
  | _, _ => none

def admits (task : T) : Task S E Unit → Bool
  | .ask (.wait event) _ => k.mask event task
  | _ => false

def move (c : Config S E σ) : Move T I O → Option (Config S E σ)
  | .call choice =>
      match c.stack with
      | .ask (.own call) next :: rest =>
          (k.perform call choice c.data).map fun r => ⟨r.2, next r.1 :: rest⟩
      | _ => none
  | .wake =>
      match c.stack with
      | .ask (.wait event) next :: rest =>
          if k.isSet event c.data then some ⟨k.clear event c.data, next () :: rest⟩ else none
      | _ => none
  | .idle =>
      match c.stack with
      | .ask (.wait event) _ :: _ =>
          if k.isSet event c.data then none else some ⟨k.idle event c.data, c.stack⟩
      | _ => none
  | .dispatch task =>
      match k.scheduling c.stack c.data with
      | some s =>
          if c.stack.all (k.admits task) && k.pending task s then
            some ⟨k.take task s, k.code task :: c.stack⟩
          else none
      | none => none
  | .finish =>
      match c.stack with
      | .done _ :: rest => some ⟨c.data, rest⟩
      | _ => none
  | .interrupt source => some ⟨k.interrupt source c.data, c.stack⟩

section Inversion

variable {k} {c d : Config S E σ}

/-- What each move can do. -/
theorem move_call {choice : O} (moved : k.move c (.call choice) = some d) :
    ∃ call next rest answer t, c.stack = .ask (.own call) next :: rest ∧
      k.perform call choice c.data = some (answer, t) ∧ d = ⟨t, next answer :: rest⟩ := by
  simp only [move] at moved
  split at moved
  · rename_i call next rest stack
    rcases Option.map_eq_some_iff.mp moved with ⟨⟨answer, t⟩, done, rfl⟩
    exact ⟨call, next, rest, answer, t, stack, done, rfl⟩
  · cases moved

theorem move_wake (moved : k.move c .wake = some d) :
    ∃ event next rest, c.stack = .ask (.wait event) next :: rest ∧
      k.isSet event c.data = true ∧ d = ⟨k.clear event c.data, next () :: rest⟩ := by
  simp only [move] at moved
  split at moved
  · rename_i event next rest stack
    rw [Option.ite_none_right_eq_some] at moved
    exact ⟨event, next, rest, stack, moved.1, (Option.some.inj moved.2).symm⟩
  · cases moved

theorem move_idle (moved : k.move c .idle = some d) :
    ∃ event next rest, c.stack = .ask (.wait event) next :: rest ∧
      d = ⟨k.idle event c.data, c.stack⟩ := by
  simp only [move] at moved
  split at moved
  · rename_i event next rest stack
    rw [Option.ite_none_left_eq_some] at moved
    exact ⟨event, next, rest, stack, (Option.some.inj moved.2).symm⟩
  · cases moved

theorem move_dispatch {task : T} (moved : k.move c (.dispatch task) = some d) :
    ∃ t, k.scheduling c.stack c.data = some t ∧ c.stack.all (k.admits task) = true ∧
      k.pending task t = true ∧ d = ⟨k.take task t, k.code task :: c.stack⟩ := by
  simp only [move] at moved
  split at moved
  · rename_i t looks
    rw [Option.ite_none_right_eq_some, Bool.and_eq_true] at moved
    exact ⟨t, looks, moved.1.1, moved.1.2, (Option.some.inj moved.2).symm⟩
  · cases moved

theorem move_finish (moved : k.move c .finish = some d) :
    ∃ value rest, c.stack = .done value :: rest ∧ d = ⟨c.data, rest⟩ := by
  simp only [move] at moved
  split at moved
  · rename_i value rest stack
    exact ⟨value, rest, stack, (Option.some.inj moved).symm⟩
  · cases moved

theorem move_dispatch_of {task : T} {t : σ} (looks : k.scheduling c.stack c.data = some t)
    (admits : c.stack.all (k.admits task) = true) (pending : k.pending task t = true) :
    k.move c (.dispatch task) = some ⟨k.take task t, k.code task :: c.stack⟩ := by
  simp only [move, looks, admits, pending, Bool.and_self, if_true]

end Inversion

def run (c : Config S E σ) : List (Move T I O) → Option (Config S E σ)
  | [] => some c
  | m :: rest => (k.move c m).bind fun c' => run c' rest

variable {k} in
theorem run_append {c d : Config S E σ} {moves : List (Move T I O)} (run : k.run c moves = some d)
    (later : List (Move T I O)) : k.run c (moves ++ later) = k.run d later := by
  induction moves generalizing c with
  | nil =>
      obtain rfl := Option.some.inj run
      rfl
  | cons m rest ih =>
      rcases Option.bind_eq_some_iff.mp run with ⟨next, moved, run⟩
      simp only [List.cons_append, Kernel.run, moved, Option.bind_some]
      exact ih run

def Answers (C : (call : S.Call) → S.Answer call → σ → Prop) (s : σ) :
    Move T I O → List (Task S E Unit) → Prop
  | .call choice, .ask (.own call) _ :: _ => ∀ r, k.perform call choice s = some r → C call r.1 s
  | _, _ => True

def Meets (C : (call : S.Call) → S.Answer call → σ → Prop) :
    Config S E σ → List (Move T I O) → Prop
  | _, [] => True
  | c, m :: rest => k.Answers C c.data m c.stack ∧ ∀ c', k.move c m = some c' → Meets C c' rest

def Calls (P : S.Call → σ → Prop) (s : σ) : List (Task S E Unit) → Prop
  | .ask (.own call) _ :: _ => P call s
  | _ => True

variable {k} in
theorem meets_append {C : (call : S.Call) → S.Answer call → σ → Prop} {c d : Config S E σ}
    {moves later : List (Move T I O)} (run : k.run c moves = some d) (first : k.Meets C c moves)
    (rest : k.Meets C d later) : k.Meets C c (moves ++ later) := by
  induction moves generalizing c with
  | nil =>
      obtain rfl := Option.some.inj run
      exact rest
  | cons m moves ih =>
      rcases Option.bind_eq_some_iff.mp run with ⟨next, moved, run⟩
      refine ⟨first.1, fun c' moved' => ?_⟩
      obtain rfl := Option.some.inj (moved.symm.trans moved')
      exact ih run (first.2 next moved)

def decidableAll {τ : Type} (o : Option τ) (p : τ → Prop) [DecidablePred p] :
    Decidable (∀ x, o = some x → p x) :=
  match o with
  | none => isTrue fun _ wrong => nomatch wrong
  | some x => decidable_of_iff (p x)
      ⟨fun holds _ same => Option.some.inj same ▸ holds, fun holds => holds x rfl⟩

instance (C : (call : S.Call) → S.Answer call → σ → Prop)
    [∀ call answer s, Decidable (C call answer s)] (s : σ) :
    (m : Move T I O) → (stack : List (Task S E Unit)) → Decidable (k.Answers C s m stack)
  | .call choice, .ask (.own call) _ :: _ =>
      decidableAll (k.perform call choice s) fun r => C call r.1 s
  | .call _, [] => isTrue trivial
  | .call _, .done _ :: _ => isTrue trivial
  | .call _, .ask (.wait _) _ :: _ => isTrue trivial
  | .wake, _ => isTrue trivial
  | .idle, _ => isTrue trivial
  | .dispatch _, _ => isTrue trivial
  | .finish, _ => isTrue trivial
  | .interrupt _, _ => isTrue trivial

def decidableMeets (C : (call : S.Call) → S.Answer call → σ → Prop)
    [∀ call answer s, Decidable (C call answer s)] :
    (c : Config S E σ) → (moves : List (Move T I O)) → Decidable (k.Meets C c moves)
  | _, [] => isTrue trivial
  | c, m :: rest =>
      have : DecidablePred fun c' => k.Meets C c' rest := fun c' => decidableMeets C c' rest
      have := decidableAll (k.move c m) fun c' => k.Meets C c' rest
      inferInstanceAs (Decidable (k.Answers C c.data m c.stack ∧ _))

instance (C : (call : S.Call) → S.Answer call → σ → Prop)
    [∀ call answer s, Decidable (C call answer s)] (c : Config S E σ)
    (moves : List (Move T I O)) : Decidable (k.Meets C c moves) :=
  k.decidableMeets C c moves

instance (P : S.Call → σ → Prop) [∀ call s, Decidable (P call s)] (s : σ) :
    (stack : List (Task S E Unit)) → Decidable (Calls P s stack)
  | .ask (.own call) _ :: _ => inferInstanceAs (Decidable (P call s))
  | [] => isTrue trivial
  | .done _ :: _ => isTrue trivial
  | .ask (.wait _) _ :: _ => isTrue trivial

end Kernel

/-! ## A rely rule -/

/-- What a wait relies on: `Rel` relates the state before to the state after whatever
runs inside it. -/
structure Rely (k : Kernel S E T I O σ) where
  /-- What holds while a task waits for an event, or while no task runs. -/
  Idle : Option E → σ → Prop
  Rel : σ → σ → Prop
  refl : ∀ s, Rel s s
  trans : ∀ {s t u}, Rel s t → Rel t u → Rel s u
  closed : ∀ {event s t}, Idle event s → Rel s t → Idle event t
  interrupted : ∀ {event s} source, Idle event s → Rel s (k.interrupt source s)
  idled : ∀ {event s}, Idle (some event) s → Rel s (k.idle event s)

section Rules

variable {k : Kernel S E T I O σ} (r : Rely k)
variable (C : (call : S.Call) → S.Answer call → σ → Prop) (P : S.Call → σ → Prop)

def Interrupted (k : Kernel S E T I O σ) : σ → σ → Prop :=
  Relation.ReflTransGen fun s t => ∃ source, t = k.interrupt source s

/-- `P` holds of every call that a program makes and `B` of its result, if all that
runs inside its waits keeps to `Rel` and the answers keep to `C`. -/
def Safe (B : α → σ → Prop) : Task S E α → σ → Prop
  | .done value, s => ∀ t, Interrupted k s t → B value t
  | .ask (.own call) next, s => ∀ t, Interrupted k s t → P call t ∧
      ∀ choice answer u, k.perform call choice t = some (answer, u) → C call answer t →
        Safe B (next answer) u
  | .ask (.wait event) next, s => r.Idle (some event) s ∧
      ∀ t, r.Rel s t → k.isSet event t = true → Safe B (next ()) (k.clear event t)

structure Admitted (k : Kernel S E T I O σ) (e : E) (task : T) (s : σ) : Prop where
  mask : k.mask e task = true
  unset : k.isSet e s = false
  idled : ∃ s₀, s = k.idle e s₀

def Keeps : Prop :=
  ∀ event task s, r.Idle event s → (∀ e, event = some e → Admitted k e task s) →
    k.pending task s = true → Safe r C P (fun _ t => r.Rel s t) (k.code task) (k.take task s)

def Fits : List (Task S E Unit) → σ → Prop
  | [], s => r.Idle none s
  | task :: rest, s => Safe r C P (fun _ t => Fits rest t) task s

variable {r C P} {B B' : α → σ → Prop} {s t : σ}

theorem Rely.many_interrupted {event : Option E} (idle : r.Idle event s)
    (many : Interrupted k s t) : r.Rel s t := by
  induction many with
  | refl => exact r.refl s
  | tail earlier last ih =>
      rcases last with ⟨source, rfl⟩
      exact r.trans ih (r.interrupted source (r.closed idle ih))

theorem safe_interrupted {program : Task S E α} (safe : Safe r C P B program s)
    (many : Interrupted k s t) : Safe r C P B program t := by
  cases program with
  | done value => exact fun u later => safe u (many.trans later)
  | ask call next =>
      cases call with
      | own call => exact fun u later => safe u (many.trans later)
      | wait event =>
          have held := r.many_interrupted safe.1 many
          exact ⟨r.closed safe.1 held, fun u later => safe.2 u (r.trans held later)⟩

theorem safe_mono {program : Task S E α} (safe : Safe r C P B program s)
    (result : ∀ value t, B value t → B' value t) : Safe r C P B' program s := by
  induction program generalizing s with
  | done value => exact fun t many => result value t (safe t many)
  | ask call next ih =>
      cases call with
      | own call =>
          intro t many
          rcases safe t many with ⟨allowed, after⟩
          exact ⟨allowed, fun choice answer u done meets =>
            ih answer (after choice answer u done meets)⟩
      | wait event => exact ⟨safe.1, fun t held set => ih () (safe.2 t held set)⟩

theorem safe_bind {program : Task S E α} {rest : α → Task S E β} {B : β → σ → Prop}
    (safe : Safe r C P (fun value t => Safe r C P B (rest value) t) program s) :
    Safe r C P B (program >>= rest) s := by
  rw [Prog.bind_eq]
  induction program generalizing s with
  | done value => exact safe s Relation.ReflTransGen.refl
  | ask call next ih =>
      cases call with
      | own call =>
          intro t many
          rcases safe t many with ⟨allowed, after⟩
          exact ⟨allowed, fun choice answer u done meets =>
            ih answer (after choice answer u done meets)⟩
      | wait event => exact ⟨safe.1, fun t held set => ih () (safe.2 t held set)⟩

theorem fits_held {event : E} {next : Unit → Task S E Unit} {rest : List (Task S E Unit)}
    (fits : Fits r C P (.ask (.wait event) next :: rest) s) (held : r.Rel s t) :
    Fits r C P (.ask (.wait event) next :: rest) t :=
  ⟨r.closed fits.1 held, fun u later => fits.2 u (r.trans held later)⟩

theorem fits_interrupted {stack : List (Task S E Unit)} (fits : Fits r C P stack s) (source : I) :
    Fits r C P stack (k.interrupt source s) := by
  cases stack with
  | nil => exact r.closed fits (r.interrupted source fits)
  | cons task rest => exact safe_interrupted fits (Relation.ReflTransGen.single ⟨source, rfl⟩)

theorem fits_scheduling {stack : List (Task S E Unit)} (fits : Fits r C P stack s)
    (looks : k.scheduling stack s = some t) :
    ∃ event, r.Idle event t ∧ (∀ u, r.Rel t u → Fits r C P stack u) ∧
      ∀ task, stack.all (k.admits task) = true → ∀ e, event = some e → Admitted k e task t := by
  cases stack with
  | nil =>
      obtain rfl := Option.some.inj looks
      exact ⟨none, fits, fun u held => r.closed fits held, fun _ _ e none => by cases none⟩
  | cons top rest =>
      match top, fits, looks with
      | .ask (.wait event) next, fits, looks =>
          simp only [Kernel.scheduling] at looks
          split at looks
          · cases looks
          · rename_i unset
            obtain rfl := Option.some.inj looks
            have ready := r.idled fits.1
            refine ⟨some event, r.closed fits.1 ready, ?_, ?_⟩
            · intro u held
              exact fits_held fits (r.trans ready held)
            · intro task admitted e same
              obtain rfl := Option.some.inj same
              simp only [List.all_cons, Bool.and_eq_true] at admitted
              simp only [Bool.or_eq_true, not_or, Bool.not_eq_true] at unset
              exact ⟨admitted.1, unset.2, s, rfl⟩

theorem fits_dispatch {stack : List (Task S E Unit)} {task : T} (keeps : Keeps r C P)
    (fits : Fits r C P stack s) (looks : k.scheduling stack s = some t)
    (admitted : stack.all (k.admits task) = true) (pending : k.pending task t = true) :
    Fits r C P (k.code task :: stack) (k.take task t) := by
  rcases fits_scheduling fits looks with ⟨event, idle, waits, masked⟩
  apply safe_mono (keeps event task t idle (masked task admitted) pending)
  exact fun _ u held => waits u held

/-- What one move preserves. -/
theorem fits_move {c c' : Config S E σ} {m : Move T I O} {later : List (Move T I O)}
    (keeps : Keeps r C P) (fits : Fits r C P c.stack c.data) (moves : k.move c m = some c')
    (meets : k.Meets C c (m :: later)) : Fits r C P c'.stack c'.data := by
  have allowed := meets.1
  cases m with
  | call choice =>
      rcases Kernel.move_call moves with ⟨call, next, rest, answer, t, stack, done, rfl⟩
      rw [stack] at fits allowed
      exact (fits c.data .refl).2 choice answer t done (allowed _ done)
  | wake =>
      rcases Kernel.move_wake moves with ⟨event, next, rest, stack, set, rfl⟩
      rw [stack] at fits
      exact fits.2 c.data (r.refl c.data) set
  | idle =>
      rcases Kernel.move_idle moves with ⟨event, next, rest, stack, rfl⟩
      rw [stack] at fits ⊢
      exact fits_held fits (r.idled fits.1)
  | dispatch task =>
      rcases Kernel.move_dispatch moves with ⟨t, looks, admitted, pending, rfl⟩
      exact fits_dispatch keeps fits looks admitted pending
  | finish =>
      rcases Kernel.move_finish moves with ⟨value, rest, stack, rfl⟩
      rw [stack] at fits
      exact fits c.data .refl
  | interrupt source =>
      obtain rfl := Option.some.inj moves
      exact fits_interrupted fits source

/-- What a whole run preserves, by induction on its moves. -/
theorem fits_run {c c' : Config S E σ} {moves : List (Move T I O)} (keeps : Keeps r C P)
    (fits : Fits r C P c.stack c.data) (run : k.run c moves = some c')
    (meets : k.Meets C c moves) : Fits r C P c'.stack c'.data := by
  induction moves generalizing c with
  | nil =>
      obtain rfl := Option.some.inj run
      exact fits
  | cons m later ih =>
      rcases Option.bind_eq_some_iff.mp run with ⟨next, moved, run⟩
      exact ih (fits_move keeps fits moved meets) run (meets.2 next moved)

theorem fits_calls {stack : List (Task S E Unit)} (fits : Fits r C P stack s) :
    Kernel.Calls P s stack := by
  match stack, fits with
  | .ask (.own call) next :: rest, fits => exact (fits s .refl).1
  | [], _ => trivial
  | .done _ :: _, _ => trivial
  | .ask (.wait _) _ :: _, _ => trivial

/-- In a run from an idle state whose answers keep to `C`, each call finds `P`. -/
theorem run_calls {c' : Config S E σ} {moves : List (Move T I O)} (keeps : Keeps r C P)
    (idle : r.Idle none s) (run : k.run ⟨s, []⟩ moves = some c') (meets : k.Meets C ⟨s, []⟩ moves) :
    Kernel.Calls P c'.data c'.stack :=
  fits_calls (fits_run (c := ⟨s, []⟩) keeps idle run meets)

/-! ## Programs that keep an assertion -/

def Stable (k : Kernel S E T I O σ) (A : σ → Prop) : Prop :=
  ∀ source s, A s → A (k.interrupt source s)

theorem Stable.many {A : σ → Prop} (stable : Stable k A) (holds : A s)
    (many : Interrupted k s t) : A t := by
  induction many with
  | refl => exact holds
  | tail earlier last ih =>
      rcases last with ⟨source, rfl⟩
      exact stable source _ ih

def Triple (r : Rely k) (C : (call : S.Call) → S.Answer call → σ → Prop) (P : S.Call → σ → Prop)
    (A : σ → Prop) (program : Task S E α) (B : α → σ → Prop) : Prop :=
  ∀ s, A s → Safe r C P B program s

variable {A A' : σ → Prop}

theorem triple_pure {value : α} (stable : Stable k A) (result : ∀ s, A s → B value s) :
    Triple r C P A (pure value) B :=
  fun _ holds t many => result t (stable.many holds many)

theorem triple_bind {program : Task S E α} {rest : α → Task S E β} {M : α → σ → Prop}
    {B : β → σ → Prop} (first : Triple r C P A program M)
    (second : ∀ value, Triple r C P (M value) (rest value) B) :
    Triple r C P A (program >>= rest) B :=
  fun s holds => safe_bind (safe_mono (first s holds) (fun value t held => second value t held))

theorem triple_own {call : S.Call} {B : S.Answer call → σ → Prop} (stable : Stable k A)
    (stable' : ∀ answer, Stable k (B answer))
    (step : ∀ s, A s → P call s ∧ ∀ choice answer t,
      k.perform call choice s = some (answer, t) → C call answer s → B answer t) :
    Triple r C P A (Prog.call (S := waiting S E) (.own call)) B := by
  intro s holds t many
  rcases step t (stable.many holds many) with ⟨allowed, after⟩
  refine ⟨allowed, fun choice answer u done meets v later => ?_⟩
  exact (stable' answer).many (after choice answer u done meets) later

theorem triple_wait {event : E} {B : Unit → σ → Prop} (stable' : Stable k (B ()))
    (step : ∀ s, A s → r.Idle (some event) s ∧
      ∀ t, r.Rel s t → k.isSet event t = true → B () (k.clear event t)) :
    Triple r C P A (Prog.call (S := waiting S E) (.wait event)) B := by
  intro s holds
  rcases step s holds with ⟨idle, wakes⟩
  exact ⟨idle, fun t held set u many => stable'.many (wakes t held set) many⟩

theorem triple_weaken {program : Task S E α} (triple : Triple r C P A program B)
    (before : ∀ s, A' s → A s) (after : ∀ value s, B value s → B' value s) :
    Triple r C P A' program B' :=
  fun s holds => safe_mono (triple s (before s holds)) after

theorem triple_ite {c : Prop} [Decidable c] {first second : Task S E α}
    (yes : c → Triple r C P A first B) (no : ¬ c → Triple r C P A second B) :
    Triple r C P A (if c then first else second) B := by
  by_cases chosen : c
  · rw [if_pos chosen]
    exact yes chosen
  · rw [if_neg chosen]
    exact no chosen

def Retains (r : Rely k) (C : (call : S.Call) → S.Answer call → σ → Prop)
    (P : S.Call → σ → Prop) (A : σ → Prop) : TaskCall S E → Prop
  | .own call => ∀ s, A s → P call s ∧
      ∀ choice answer t, k.perform call choice s = some (answer, t) → C call answer s → A t
  | .wait event => ∀ s, A s → r.Idle (some event) s ∧
      ∀ t, r.Rel s t → k.isSet event t = true → A (k.clear event t)

theorem triple_retains (stable : Stable k A) {program : Task S E α}
    (only : program.Only (Retains r C P A)) : Triple r C P A program fun _ => A := by
  intro s holds
  induction program generalizing s with
  | done value => exact fun t many => stable.many holds many
  | ask call next ih =>
      cases call with
      | own call =>
          intro t many
          rcases only.1 t (stable.many holds many) with ⟨allowed, after⟩
          exact ⟨allowed, fun choice answer u done meets =>
            ih answer (only.2 answer) u (after choice answer u done meets)⟩
      | wait event =>
          rcases only.1 s holds with ⟨idle, wakes⟩
          exact ⟨idle, fun t held set => ih () (only.2 ()) _ (wakes t held set)⟩

/-- A translated program keeps what the meaning of each of its calls keeps. -/
theorem triple_translate {S' : Sig} {D : S'.Call → Prop}
    {meaning : (c : S'.Call) → Task S E (S'.Answer c)} (stable : Stable k A)
    {program : Prog S' α} (only : program.Only D)
    (means : ∀ c, D c → Triple r C P A (meaning c) fun _ => A) :
    Triple r C P A (program.translate meaning) fun _ => A := by
  induction program with
  | done value => exact triple_pure stable fun _ holds => holds
  | ask call next ih =>
      exact triple_bind (means call only.1) fun answer => ih answer (only.2 answer)

end Rules

end Baelux.Nesting

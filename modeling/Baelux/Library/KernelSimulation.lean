import Baelux.Library.Nesting
import Baelux.Library.Simulation

/-! Cooperative tasks as a system, and a kernel that is another one seen through a function. -/

namespace Baelux.Nesting

open Effect Simulation

variable {S : Sig} {E T I O σ τ : Type}

namespace Kernel

section System

variable (k : Kernel S E T I O σ) (C : (call : S.Call) → S.Answer call → σ → Prop)

def system : System (Config S E σ) (Move T I O) where
  step := k.move
  ok c move := k.Answers C c.data move c.stack

variable {k C} {c d : Config S E σ} {moves : List (Move T I O)}

theorem reaches_move {a : Move T I O} (moved : k.move c a = some d)
    (answers : k.Answers C c.data a c.stack) : (k.system C).Reaches c d :=
  .one answers moved

theorem run_of_system (run : (k.system C).run c moves = some d) : k.run c moves = some d := by
  induction moves generalizing c with
  | nil => exact run
  | cons move rest ih =>
      rcases Option.bind_eq_some_iff.mp run with ⟨next, moved, run⟩
      rw [Kernel.run, show k.move c move = some next from moved]
      exact ih run

theorem meets_of_along (along : (k.system C).Along c moves) : k.Meets C c moves := by
  induction moves generalizing c with
  | nil => trivial
  | cons move rest ih => exact ⟨along.1, fun next moved => ih (along.2 next moved)⟩

theorem reaches_calls {r : Rely k} {P : S.Call → σ → Prop} {s : σ} (keeps : Keeps r C P)
    (idle : r.Idle none s) (reaches : (k.system C).Reaches ⟨s, []⟩ d) : Calls P d.data d.stack := by
  rcases reaches.exists_run with ⟨moves, run, along⟩
  exact run_calls keeps idle (run_of_system run) (meets_of_along along)

def Resting : List (Task S E Unit) → Prop
  | [] => True
  | .ask (.wait _) _ :: _ => True
  | _ => False

theorem reaches_idle {r : Rely k} {P : S.Call → σ → Prop} {s : σ} (keeps : Keeps r C P)
    (idle : r.Idle none s) (reaches : (k.system C).Reaches ⟨s, []⟩ d) (rests : Resting d.stack) :
    ∃ event, r.Idle event d.data := by
  rcases reaches.exists_run with ⟨moves, run, along⟩
  have fits := fits_run (c := ⟨s, []⟩) keeps idle (run_of_system run) (meets_of_along along)
  match stack : d.stack, fits, rests with
  | [], fits, _ => exact ⟨none, fits⟩
  | .ask (.wait event) _ :: _, fits, _ => exact ⟨some event, fits.1⟩

end System

structure Image (k : Kernel S E T I O σ) (k' : Kernel S E T I O τ) (f : σ → τ) : Prop where
  perform : ∀ call choice s, k'.perform call choice (f s) =
    (k.perform call choice s).map fun r => (r.1, f r.2)
  interrupt : ∀ source s, k'.interrupt source (f s) = f (k.interrupt source s)
  isSet : ∀ event s, k'.isSet event (f s) = k.isSet event s
  clear : ∀ event s, k'.clear event (f s) = f (k.clear event s)
  idle : ∀ event s, k'.idle event (f s) = f (k.idle event s)
  mask : k'.mask = k.mask
  pending : ∀ task s, k'.pending task (f s) = k.pending task s
  take : ∀ task s, k'.take task (f s) = f (k.take task s)
  code : k'.code = k.code

namespace Image

variable {k : Kernel S E T I O σ} {k' : Kernel S E T I O τ} {f : σ → τ} {c d : Config S E σ}

theorem scheduling (image : Image k k' f) {stack : List (Task S E Unit)} {s t : σ}
    (looks : k.scheduling stack s = some t) : k'.scheduling stack (f s) = some (f t) := by
  unfold Kernel.scheduling at looks ⊢
  split at looks
  · exact congrArg (Option.map f) looks
  · rw [image.idle, image.isSet, image.isSet]
    rw [Option.ite_none_left_eq_some] at looks
    rw [if_neg looks.1]
    exact congrArg (Option.map f) looks.2
  · cases looks

theorem admits (image : Image k k' f) (task : T) : k'.admits task = k.admits task := by
  funext program
  unfold Kernel.admits
  rw [image.mask]

theorem move (image : Image k k' f) {a : Move T I O} (moved : k.move c a = some d) :
    k'.move ⟨f c.data, c.stack⟩ a = some ⟨f d.data, d.stack⟩ := by
  cases a with
  | call choice =>
      rcases move_call moved with ⟨call, next, rest, answer, t, stack, done, rfl⟩
      simp only [Kernel.move, stack, image.perform, done, Option.map_some]
  | wake =>
      rcases move_wake moved with ⟨event, next, rest, stack, set, rfl⟩
      simp only [Kernel.move, stack, image.isSet, set, image.clear, if_true]
  | idle =>
      simp only [Kernel.move] at moved ⊢
      split at moved
      · rw [Option.ite_none_left_eq_some] at moved
        obtain rfl := Option.some.inj moved.2
        rw [image.isSet, if_neg moved.1, image.idle]
      · cases moved
  | dispatch task =>
      rcases move_dispatch moved with ⟨t, looks, admitted, pending, rfl⟩
      rw [move_dispatch_of (image.scheduling looks) (by rwa [image.admits])
        (by rwa [image.pending]), image.take, image.code]
  | finish =>
      rcases move_finish moved with ⟨value, rest, stack, rfl⟩
      simp only [Kernel.move, stack]
  | interrupt source =>
      obtain rfl := Option.some.inj moved
      simp only [Kernel.move, image.interrupt]

theorem answers (image : Image k k' f) {C : (call : S.Call) → S.Answer call → τ → Prop} {s : σ}
    {a : Move T I O} {stack : List (Task S E Unit)}
    (answers : k.Answers (fun call answer s => C call answer (f s)) s a stack) :
    k'.Answers C (f s) a stack := by
  unfold Kernel.Answers at answers ⊢
  split at answers
  · intro r done
    rw [image.perform] at done
    rcases Option.map_eq_some_iff.mp done with ⟨r, below, rfl⟩
    exact answers r below
  · trivial

theorem simulates (image : Image k k' f) (C : (call : S.Call) → S.Answer call → τ → Prop) :
    System.Simulates (k.system fun call answer s => C call answer (f s)) (k'.system C)
      fun c d => d = ⟨f c.data, c.stack⟩ :=
  System.Simulates.of_map id image.answers image.move

end Image

end Kernel

end Baelux.Nesting

import Mathlib.Logic.Relation

/-! Systems that take partial steps under an assumption, and a system whose every step is a run
of another. -/

namespace Baelux.Simulation

/-- A step may be unable to run. Of a step that runs, `ok` says what is assumed. -/
structure System (σ ℓ : Type) where
  step : σ → ℓ → Option σ
  ok : σ → ℓ → Prop

variable {σ τ ℓ μ : Type}

namespace System

def run (sys : System σ ℓ) (s : σ) : List ℓ → Option σ
  | [] => some s
  | a :: rest => (sys.step s a).bind fun t => run sys t rest

def Along (sys : System σ ℓ) : σ → List ℓ → Prop
  | _, [] => True
  | s, a :: rest => sys.ok s a ∧ ∀ t, sys.step s a = some t → Along sys t rest

section Runs

variable {sys : System σ ℓ} {s t u : σ} {labels : List ℓ} {a : ℓ}

theorem run_snoc (run : sys.run s labels = some t) (stepped : sys.step t a = some u) :
    sys.run s (labels ++ [a]) = some u := by
  induction labels generalizing s with
  | nil =>
      obtain rfl := Option.some.inj run
      rw [List.nil_append, System.run, stepped]
      rfl
  | cons b rest ih =>
      rcases Option.bind_eq_some_iff.mp run with ⟨next, first, run⟩
      rw [List.cons_append, System.run, first]
      exact ih run

theorem along_snoc (along : sys.Along s labels) (run : sys.run s labels = some t)
    (ok : sys.ok t a) : sys.Along s (labels ++ [a]) := by
  induction labels generalizing s with
  | nil =>
      obtain rfl := Option.some.inj run
      exact ⟨ok, fun _ _ => trivial⟩
  | cons b rest ih =>
      refine ⟨along.1, fun next first => ih (along.2 next first) ?_⟩
      rw [System.run, first] at run
      exact run

end Runs

inductive Reaches (sys : System σ ℓ) (s : σ) : σ → Prop where
  | refl : Reaches sys s s
  | tail {t u : σ} {a : ℓ} (earlier : Reaches sys s t) (ok : sys.ok t a)
      (stepped : sys.step t a = some u) : Reaches sys s u

namespace Reaches

variable {sys : System σ ℓ} {s t u : σ}

theorem one {a : ℓ} (ok : sys.ok s a) (stepped : sys.step s a = some t) : sys.Reaches s t :=
  .tail .refl ok stepped

theorem trans (first : sys.Reaches s t) (second : sys.Reaches t u) : sys.Reaches s u := by
  induction second with
  | refl => exact first
  | tail _ ok stepped ih => exact ih.tail ok stepped

theorem invariant {I : σ → Prop}
    (kept : ∀ {s a t}, I s → sys.ok s a → sys.step s a = some t → I t) (start : I s)
    (reaches : sys.Reaches s t) : I t := by
  induction reaches with
  | refl => exact start
  | tail _ ok stepped ih => exact kept ih ok stepped

theorem of_run (labels : List ℓ) (run : sys.run s labels = some t) (along : sys.Along s labels) :
    sys.Reaches s t := by
  induction labels generalizing s with
  | nil =>
      obtain rfl := Option.some.inj run
      exact .refl
  | cons a rest ih =>
      rcases Option.bind_eq_some_iff.mp run with ⟨next, stepped, run⟩
      exact (one along.1 stepped).trans (ih run (along.2 next stepped))

theorem exists_run (reaches : sys.Reaches s t) :
    ∃ labels, sys.run s labels = some t ∧ sys.Along s labels := by
  induction reaches with
  | refl => exact ⟨[], rfl, trivial⟩
  | tail _ ok stepped ih =>
      rcases ih with ⟨labels, run, along⟩
      exact ⟨labels ++ [_], run_snoc run stepped, along_snoc along run ok⟩

end Reaches

def Simulates (low : System σ ℓ) (high : System τ μ) (R : σ → τ → Prop) : Prop :=
  ∀ ⦃s t a s'⦄, R s t → low.ok s a → low.step s a = some s' →
    ∃ t', high.Reaches t t' ∧ R s' t'

namespace Simulates

variable {low : System σ ℓ} {high : System τ μ} {R : σ → τ → Prop} {s s' : σ} {t : τ}

theorem reaches (simulates : Simulates low high R) (related : R s t) (run : low.Reaches s s') :
    ∃ t', high.Reaches t t' ∧ R s' t' := by
  induction run with
  | refl => exact ⟨t, .refl, related⟩
  | tail _ ok stepped ih =>
      rcases ih with ⟨u, first, related⟩
      rcases simulates related ok stepped with ⟨t', second, related⟩
      exact ⟨t', first.trans second, related⟩

theorem of_map {f : σ → τ} (label : ℓ → μ) (ok : ∀ {s a}, low.ok s a → high.ok (f s) (label a))
    (stepped : ∀ {s a t}, low.step s a = some t → high.step (f s) (label a) = some (f t)) :
    Simulates low high fun s t => t = f s := by
  rintro s _ a s' rfl assumed step
  exact ⟨f s', .one (ok assumed) (stepped step), rfl⟩

end Simulates

end System

end Baelux.Simulation

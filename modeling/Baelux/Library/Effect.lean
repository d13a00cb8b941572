import Mathlib.Logic.Basic
import Mathlib.Order.Defs.Unbundled

/-! Programs as trees of calls to an environment. A tree is run by a handler,
and `wp` is the weakest precondition that also puts an obligation on every call
the run makes: crash points, address footprints and protocol rules are all
obligations of this one kind. -/

namespace Baelux.Effect

/-- The calls a program may make and the type of the answer to each. -/
structure Sig where
  Call : Type
  Answer : Call → Type

inductive Prog (S : Sig) (α : Type) where
  | done (value : α)
  | ask (call : S.Call) (next : S.Answer call → Prog S α)

namespace Prog

variable {S T : Sig} {α β γ σ : Type}

def bind : Prog S α → (α → Prog S β) → Prog S β
  | done value, rest => rest value
  | ask call next, rest => ask call (fun answer => (next answer).bind rest)

instance : Monad (Prog S) where
  pure := done
  bind := bind

def call (c : S.Call) : Prog S (S.Answer c) := ask c done

theorem bind_eq (program : Prog S α) (rest : α → Prog S β) :
    program >>= rest = program.bind rest := rfl

theorem bind_assoc (program : Prog S α) (first : α → Prog S β) (second : β → Prog S γ) :
    (program.bind first).bind second = program.bind (fun value => (first value).bind second) := by
  induction program with
  | done value => rfl
  | ask call next ih =>
      simp only [bind]
      congr 1
      funext answer
      exact ih answer

theorem bind_unit (program : Prog S Unit) : (program >>= fun _ => pure ()) = program := by
  rw [bind_eq]
  induction program with
  | done value => rfl
  | ask call next ih => exact congrArg (ask call) (funext ih)

def translate (meaning : (c : S.Call) → Prog T (S.Answer c)) : Prog S α → Prog T α
  | done value => done value
  | ask call next => (meaning call).bind (fun answer => (next answer).translate meaning)

theorem translate_bind (meaning : (c : S.Call) → Prog T (S.Answer c))
    (program : Prog S α) (rest : α → Prog S β) :
    (program.bind rest).translate meaning =
      (program.translate meaning).bind (fun value => (rest value).translate meaning) := by
  induction program with
  | done value => rfl
  | ask call next ih =>
      simp only [bind, translate, bind_assoc]
      congr 1
      funext answer
      exact ih answer

def Only (C : S.Call → Prop) : Prog S α → Prop
  | done _ => True
  | ask call next => C call ∧ ∀ answer, (next answer).Only C

variable {C : S.Call → Prop} {D : T.Call → Prop}

@[simp] theorem only_pure (value : α) : (pure value : Prog S α).Only C := trivial

@[simp] theorem only_call (c : S.Call) : (call c).Only C ↔ C c :=
  and_iff_left (fun _ => trivial)

theorem only_anything (program : Prog S α) : program.Only fun _ => True := by
  induction program with
  | done value => trivial
  | ask call next ih => exact ⟨trivial, ih⟩

theorem Only.ite {c : Prop} [Decidable c] {first second : Prog S α} (yes : first.Only C)
    (no : second.Only C) : (if c then first else second).Only C := by
  split
  · exact yes
  · exact no

theorem Only.bind {program : Prog S α} {rest : α → Prog S β} (first : program.Only C)
    (second : ∀ value, (rest value).Only C) : (program >>= rest).Only C := by
  rw [bind_eq]
  induction program with
  | done value => exact second value
  | ask call next ih => exact ⟨first.1, fun answer => ih answer (first.2 answer)⟩

theorem Only.mono {program : Prog S α} {C' : S.Call → Prop} (only : program.Only C)
    (weaker : ∀ c, C c → C' c) : program.Only C' := by
  induction program with
  | done value => trivial
  | ask call next ih => exact ⟨weaker call only.1, fun answer => ih answer (only.2 answer)⟩

theorem Only.translate {program : Prog S α} {meaning : (c : S.Call) → Prog T (S.Answer c)}
    (only : program.Only C) (means : ∀ c, C c → (meaning c).Only D) :
    (program.translate meaning).Only D := by
  induction program with
  | done value => trivial
  | ask call next ih =>
      exact (means call only.1).bind (fun answer => ih answer (only.2 answer))

end Prog

/-! ## Running a program -/

abbrev Handler (S : Sig) (σ : Type) := (c : S.Call) → σ → S.Answer c × σ

section Running

variable {S : Sig} {α β σ : Type} (h : Handler S σ)

def run : Prog S α → σ → α × σ
  | .done value, s => (value, s)
  | .ask call next, s => run (next (h call s).1) (h call s).2

/-- The states in which the run makes its calls, and the state it ends in. -/
def visited : Prog S α → σ → List σ
  | .done _, s => [s]
  | .ask call next, s => s :: visited (next (h call s).1) (h call s).2

def calls : Prog S α → σ → List S.Call
  | .done _, _ => []
  | .ask call next, s => call :: calls (next (h call s).1) (h call s).2

/-- `P` holds of every call in the state it is made in, and `R` of the result. -/
def wp (P : S.Call → σ → Prop) (R : α → σ → Prop) : Prog S α → σ → Prop
  | .done value, s => R value s
  | .ask call next, s => P call s ∧ wp P R (next (h call s).1) (h call s).2

variable {h} {P P' : S.Call → σ → Prop} {R R' : α → σ → Prop}

@[simp] theorem run_pure (value : α) (s : σ) : run h (pure value) s = (value, s) := rfl

@[simp] theorem run_bind (program : Prog S α) (rest : α → Prog S β) (s : σ) :
    run h (program >>= rest) s = run h (rest (run h program s).1) (run h program s).2 := by
  rw [Prog.bind_eq]
  induction program generalizing s with
  | done value => rfl
  | ask call next ih => exact ih _ _

@[simp] theorem wp_pure (value : α) (s : σ) : wp h P R (pure value) s ↔ R value s := Iff.rfl

@[simp] theorem wp_call (c : S.Call) (R : S.Answer c → σ → Prop) (s : σ) :
    wp h P R (Prog.call c) s ↔ P c s ∧ R (h c s).1 (h c s).2 := Iff.rfl

@[simp] theorem wp_bind (program : Prog S α) (rest : α → Prog S β) (R : β → σ → Prop) (s : σ) :
    wp h P R (program >>= rest) s ↔
      wp h P (fun value s' => wp h P R (rest value) s') program s := by
  rw [Prog.bind_eq]
  induction program generalizing s with
  | done value => rfl
  | ask call next ih => exact and_congr_right (fun _ => ih _ _)

theorem wp_mono {program : Prog S α} {s : σ} (holds : wp h P R program s)
    (calls : ∀ c t, P c t → P' c t) (result : ∀ value t, R value t → R' value t) :
    wp h P' R' program s := by
  induction program generalizing s with
  | done value => exact result value s holds
  | ask call next ih => exact ⟨calls call s holds.1, ih _ holds.2⟩

theorem wp_post {program : Prog S α} {s : σ} (holds : wp h P R program s)
    (result : ∀ value t, R value t → R' value t) : wp h P R' program s :=
  wp_mono holds (fun _ _ present => present) result

theorem wp_run {program : Prog S α} {s : σ} (holds : wp h P R program s) :
    R (run h program s).1 (run h program s).2 := by
  induction program generalizing s with
  | done value => exact holds
  | ask call next ih => exact ih _ holds.2

/-- What every allowed call keeps is kept by a program of such calls. -/
theorem Prog.Only.keeps {program : Prog S α} {C : S.Call → Prop} {I : σ → Prop}
    (only : program.Only C) (kept : ∀ c t, C c → I t → I (h c t).2) {s : σ} (start : I s) :
    wp h (fun _ _ => True) (fun _ t => I t) program s := by
  induction program generalizing s with
  | done value => exact start
  | ask call next ih => exact ⟨trivial, ih _ (only.2 _) (kept call s only.1 start)⟩

theorem Prog.Only.allowed {program : Prog S α} {C : S.Call → Prop} (only : program.Only C) {s : σ}
    (result : R (run h program s).1 (run h program s).2) : wp h (fun c _ => C c) R program s := by
  induction program generalizing s with
  | done value => exact result
  | ask call next ih => exact ⟨only.1, ih _ (only.2 _) result⟩

/-- The obligations of a sequence include those of its second part. -/
theorem wp_rest {program : Prog S α} {rest : α → Prog S β} {R : β → σ → Prop} {s : σ}
    (holds : wp h P R (program >>= rest) s) :
    wp h P R (rest (run h program s).1) (run h program s).2 :=
  wp_run ((wp_bind program rest R s).mp holds)

theorem wp_visited {program : Prog S α} {s : σ} {Q : σ → Prop}
    (holds : wp h (fun _ t => Q t) (fun _ t => Q t) program s) :
    ∀ t ∈ visited h program s, Q t := by
  induction program generalizing s with
  | done value =>
      intro t member
      simp only [visited, List.mem_singleton] at member
      exact member ▸ holds
  | ask call next ih =>
      intro t member
      rcases List.mem_cons.mp member with rfl | later
      · exact holds.1
      · exact ih _ holds.2 t later

theorem visited_start (program : Prog S α) (s : σ) : s ∈ visited h program s := by
  cases program with
  | done value => exact List.mem_singleton_self s
  | ask call next => exact List.mem_cons_self ..

theorem visited_bind_left (program : Prog S α) (rest : α → Prog S β) (s : σ) {t : σ}
    (visit : t ∈ visited h program s) : t ∈ visited h (program >>= rest) s := by
  rw [Prog.bind_eq]
  induction program generalizing s with
  | done value =>
      obtain rfl := List.mem_singleton.mp visit
      exact visited_start _ _
  | ask call next ih =>
      rcases List.mem_cons.mp visit with rfl | later
      · exact List.mem_cons_self ..
      · exact List.mem_cons_of_mem _ (ih _ _ later)

theorem visited_bind_right (program : Prog S α) (rest : α → Prog S β) (s : σ) {t : σ}
    (visit : t ∈ visited h (rest (run h program s).1) (run h program s).2) :
    t ∈ visited h (program >>= rest) s := by
  rw [Prog.bind_eq]
  induction program generalizing s with
  | done value => exact visit
  | ask call next ih => exact List.mem_cons_of_mem _ (ih _ _ visit)

theorem wp_calls {program : Prog S α} {s : σ} {C : S.Call → Prop} :
    wp h (fun c _ => C c) (fun _ _ => True) program s ↔ ∀ c ∈ calls h program s, C c := by
  induction program generalizing s with
  | done value => simp [wp, calls]
  | ask call next ih => simp [wp, calls, ih]

end Running

/-! ## Relations between the ends of a run -/

section Relations

variable {S : Sig} {α β σ : Type} {h : Handler S σ} {R : σ → σ → Prop}

def Moves (h : Handler S σ) (R : σ → σ → Prop) (program : Prog S α) : Prop :=
  ∀ s, R s (run h program s).2

theorem Moves.ite {c : Prop} [Decidable c] {first second : Prog S α} (yes : Moves h R first)
    (no : Moves h R second) : Moves h R (if c then first else second) := by
  split
  · exact yes
  · exact no

variable [IsPreorder σ R]

theorem Moves.pure (value : α) : Moves h R (pure value : Prog S α) := fun s => refl s

theorem Moves.bind {program : Prog S α} {rest : α → Prog S β} (first : Moves h R program)
    (second : ∀ value, Moves h R (rest value)) : Moves h R (program >>= rest) := by
  intro s
  rw [run_bind]
  exact IsTrans.trans _ _ _ (first s) (second _ _)

omit [IsPreorder σ R] in
theorem Moves.read {program : Prog S α} {rest : α → Prog S β}
    (reads : ∀ s, (run h program s).2 = s) (next : ∀ value, Moves h R (rest value)) :
    Moves h R (program >>= rest) := by
  intro s
  rw [run_bind, reads]
  exact next _ s

instance preserves (I : σ → Prop) : IsPreorder σ fun s t => I s → I t where
  refl _ := id
  trans _ _ _ first second := second ∘ first

end Relations

/-! ## Histories -/

section Histories

variable {S : Sig} {α σ τ : Type}

/-- Answers as `h` does and keeps a history of the calls, which no answer depends on. -/
def watched (h : Handler S σ) (note : S.Call → σ → τ → τ) : Handler S (σ × τ) :=
  fun c s => ((h c s.1).1, (h c s.1).2, note c s.1 s.2)

variable {h : Handler S σ} {note : S.Call → σ → τ → τ}

theorem run_watched (program : Prog S α) (s : σ × τ) :
    (run (watched h note) program s).2.1 = (run h program s.1).2 := by
  induction program generalizing s with
  | done value => rfl
  | ask call next ih => exact ih _ _

end Histories

end Baelux.Effect

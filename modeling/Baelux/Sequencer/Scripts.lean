import Baelux.Sequencer.Machine

/-! Runs of the sequencer, given by what comes from outside: the choices that settle the tasks' calls
and the interrupts between them. The sequencer does the rest by itself. -/

namespace Baelux.Seq.Application

open Effect Nesting Simulation

variable {S : Sig} {E T I O α : Type} (app : Application S E T I O α)
  (C : (call : S.Call) → S.Answer call → Shared α → Prop)

def script : List (Move T I O) → List (Step I O) :=
  List.filterMap fun
    | .call choice => some (.call choice)
    | .interrupt source => some (.interrupt source)
    | _ => none

def settle : Nat → Machine S E α → Option (Machine S E α)
  | 0, _ => none
  | steps + 1, m =>
      match m.top with
      | .task _ (.ask (.own _) _) => some m
      | _ => (app.step m .advance).bind (settle steps)

instance decidableOk [∀ call answer s, Decidable (C call answer s)] :
    (m : Machine S E α) → (a : Step I O) → Decidable ((app.system C).ok m a)
  | _, .advance => isTrue trivial
  | _, .interrupt _ => isTrue trivial
  | ⟨_, _, .main, _⟩, .call _ => isTrue trivial
  | ⟨_, _, .run .., _⟩, .call _ => isTrue trivial
  | ⟨_, _, .wait .., _⟩, .call _ => isTrue trivial
  | ⟨_, _, .task _ (.done _), _⟩, .call _ => isTrue trivial
  | ⟨_, _, .task _ (.ask (.wait _) _), _⟩, .call _ => isTrue trivial
  | ⟨a, regs, .task _ (.ask (.own call) _), _⟩, .call choice =>
      Kernel.decidableAll (app.perform call choice a) fun r => C call r.1 ⟨a, regs.taskSet, regs.evtSet⟩

variable [∀ call answer s, Decidable (C call answer s)]

/-- Plays a script; each call must meet the condition. -/
def play : Machine S E α → List (Step I O) → Option (Machine S E α)
  | m, [] => some m
  | m, .call choice :: rest =>
      (app.settle 64 m).bind fun m =>
        if (app.system C).ok m (.call choice) then
          (app.step m (.call choice)).bind fun m => play m rest
        else none
  | m, a :: rest => (app.step m a).bind fun m => play m rest

def Next (kind : S.Call → Bool) (m : Machine S E α) : Bool :=
  match m.top with
  | .task _ (.ask (.own call) _) => kind call
  | _ => false

variable {app C} {m n : Machine S E α}

omit [∀ call answer s, Decidable (C call answer s)] in
theorem settle_reaches {steps : Nat} (settled : app.settle steps m = some n) :
    (app.system C).Reaches m n := by
  induction steps generalizing m with
  | zero => cases settled
  | succ steps ih =>
    rw [settle] at settled
    split at settled
    · obtain rfl := Option.some.inj settled
      exact .refl
    · rcases Option.bind_eq_some_iff.mp settled with ⟨next, stepped, settled⟩
      exact (System.Reaches.one (a := Step.advance) trivial stepped).trans (ih settled)

theorem play_reaches {script : List (Step I O)} (played : app.play C m script = some n) :
    (app.system C).Reaches m n := by
  induction script generalizing m with
  | nil =>
    obtain rfl := Option.some.inj played
    exact .refl
  | cons a rest ih =>
    cases a with
    | call choice =>
      rcases Option.bind_eq_some_iff.mp played with ⟨ready, settled, played⟩
      rcases Option.ite_none_right_eq_some.mp played with ⟨ok, played⟩
      rcases Option.bind_eq_some_iff.mp played with ⟨next, stepped, played⟩
      exact (settle_reaches settled).trans ((System.Reaches.one ok stepped).trans (ih played))
    | advance =>
      rcases Option.bind_eq_some_iff.mp played with ⟨next, stepped, played⟩
      exact (System.Reaches.one (a := Step.advance) trivial stepped).trans (ih played)
    | interrupt source =>
      rcases Option.bind_eq_some_iff.mp played with ⟨next, stepped, played⟩
      exact (System.Reaches.one (a := Step.interrupt source) trivial stepped).trans (ih played)

theorem reaches_of_played {test : Machine S E α → Bool} {script : List (Step I O)}
    (played : (app.play C m script).any test = true) :
    ∃ n, (app.system C).Reaches m n ∧ test n = true := by
  rcases (Option.any_eq_true _ _).mp played with ⟨n, played, here⟩
  exact ⟨n, play_reaches played, here⟩

/-- A script that can be played up to a call of a kind gives a run to such a call. -/
theorem reaches_of_script {kind : S.Call → Bool} {script : List (Step I O)}
    (played : ((app.play C m script).bind (app.settle 64)).any (Next kind) = true) :
    ∃ n, (app.system C).Reaches m n ∧ Next kind n = true := by
  rcases (Option.any_eq_true _ _).mp played with ⟨n, played, here⟩
  rcases Option.bind_eq_some_iff.mp played with ⟨last, played, settled⟩
  exact ⟨n, (play_reaches played).trans (settle_reaches settled), here⟩

end Baelux.Seq.Application

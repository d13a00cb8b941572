import Baelux.Eeprom.Adoption
import Baelux.Nvm.Confinement

/-! Resets between any two flash operations of a run, and the initialisation that
follows, for every pool size. -/

namespace Baelux.Nvm

open Effect Flash Eeprom

/-- A reset at some call of a write or a clean: the store before the operation, the store
it would reach, and the flash content that is left. -/
inductive ResetAt (b : Bank) : Store → Store → Memory → Prop where
  | write {m : Store} {w : World} (before : Reach b m false w) {addr : Nat}
      (inside : addr < b.capacity) (data : Data) {t : World}
      (visit : t ∈ visited (handle quiet) (eeeWrite addr data) w) :
      ResetAt b m (Function.update m addr (some data)) t.mem
  | clean {m : Store} {w : World} (before : Reach b m true w) {t : World}
      (visit : t ∈ visited (handle quiet) eeeClean w) : ResetAt b m m t.mem

/-- Whatever the RAM holds, the next initialisation succeeds and every variable reads its
value before or after the operation: only the variable being written can tell them apart. -/
def Survives (b : Bank) (m m' : Store) (mem : Memory) : Prop :=
  ∀ w : World, w.mem = mem →
    (run (handle quiet) (eeeInit b.nb false b.base) w).1 = .ok ∧
      ∀ v < b.capacity,
        (run (handle quiet) (eeeRead v)
          (run (handle quiet) (eeeInit b.nb false b.base) w).2).1 = m v ∨
        (run (handle quiet) (eeeRead v)
          (run (handle quiet) (eeeInit b.nb false b.base) w).2).1 = m' v

/-- With pools of two pages or more always; with pools of one page only when the page
behind the page in use is erased, and that page lies in the other pool or behind the bank. -/
def Recoverable (b : Bank) (mem : Memory) : Prop :=
  2 ≤ b.nb ∨
    (pageState mem (b.page 0) = .active ∧ pageState mem (b.page 1) = .erased) ∨
    ((pageState mem (b.page 1) = .receive ∨ pageState mem (b.page 1) = .active) ∧
      pageState mem (b.page 2) = .erased)

variable {b : Bank} {m m' m'' : Store} {mem : Memory} {img : Image}

theorem reset_content (reset : ResetAt b m m' mem) : Content b (Interrupted b m m') mem := by
  cases reset with
  | write before inside data visit =>
      have idle : Idle b m _ := before.ready
      refine wp_visited (wp_mono (wp_eeeWrite quiet_honest idle data inside
        fun img' kind => Content.safe kind) (fun _ _ safe => safe) ?_) _ visit
      rintro status t (⟨_, ⟨img', cur, c, ws, live, vacant⟩, _⟩ |
        ⟨_, ⟨img', cur, c, ws, live, erasing⟩, _⟩ | ⟨_, _, safe⟩)
      · exact ⟨img', live.holds, Or.inr (Or.inl (vacant.settled live))⟩
      · exact ⟨img', live.holds, Or.inr (Or.inl ⟨cur, c, ws, live.shape, live.answers,
          fun i bound => by rw [erasing i bound]; decide⟩)⟩
      · exact safe
  | clean before visit =>
      have waiting : Pending b m _ := before.ready
      refine wp_visited (wp_mono (wp_eeeClean quiet_honest waiting
        fun img' kind => Content.safe (.settled kind)) (fun _ _ safe => safe) ?_) _ visit
      rintro status t (⟨_, ⟨img', cur, c, ws, live, vacant⟩, _⟩ | ⟨_, _, safe⟩)
      · exact ⟨img', live.holds, .settled (vacant.settled live)⟩
      · exact safe

/-! ## The outcome of the next initialisation -/

def Recovers (b : Bank) (m m' : Store) (mem : Memory) : Prop :=
  ∀ w : World, w.mem = mem → wp (handle quiet) (Crash fun _ => True)
    (Ends quiet (fun _ => True) fun t => Serves b m t ∨ Serves b m' t)
    (eeeInit b.nb false b.base) w

def Fails (b : Bank) (mem : Memory) : Prop :=
  ∀ w : World, w.mem = mem → wp (handle quiet) (Crash fun _ => True)
    (fun status _ => status = .stateError) (eeeInit b.nb false b.base) w

structure Outcome (b : Bank) (m m' : Store) (mem : Memory) : Prop where
  recovers : Recoverable b mem → Recovers b m m' mem
  fails : ¬ Recoverable b mem → Fails b mem

private theorem recovers_serving (value : m'' = m ∨ m'' = m')
    (serving : ∀ w : World, w.mem = mem → wp (handle quiet) (Crash fun _ => True)
      (Ends quiet (fun _ => True) (Serves b m'')) (eeeInit b.nb false b.base) w) :
    Recovers b m m' mem := by
  intro w content
  apply wp_post (serving w content)
  rintro status t (⟨ok, serves⟩ | refused)
  · rcases value with rfl | rfl
    · exact Or.inl ⟨ok, Or.inl serves⟩
    · exact Or.inl ⟨ok, Or.inr serves⟩
  · exact Or.inr refused

private theorem lost (receive : ∀ p < 2 * b.nb, Skips b mem .receive p)
    (active : ∀ p < 2 * b.nb, Skips b mem .active p) : Fails b mem := by
  intro w content
  subst content
  exact wp_init_lost receive active

private theorem wide_outcome (wide : 2 ≤ b.nb) (holds : Holds b mem img)
    (interrupted : Interrupted b m m' img) : Outcome b m m' mem := by
  have settled : ∀ m'', (m'' = m ∨ m'' = m') → Settled b m'' img → Recovers b m m' mem := by
    intro m'' value holds
    rcases holds with ⟨cur, c, ws, shape, answers, others⟩
    apply recovers_serving value
    rintro w rfl
    exact wp_init_active quiet_honest holds shape answers (fun i inside => (others i inside).2)
      (skips_receive holds shape fun i inside => (others i inside).1) (Or.inl wide)
  have receiving : ∀ m'', (m'' = m ∨ m'' = m') → Receiving b m m'' img → Recovers b m m' mem := by
    intro m'' value holds
    rcases holds with ⟨new, c, ws, ows, old, copying, _, others⟩
    apply recovers_serving value
    rintro w rfl
    exact wp_init_receiving quiet_honest holds old copying (fun i inside => (others i inside).1)
      (Or.inl wide)
  refine ⟨fun _ => ?_, fun unfit => absurd (Or.inl wide) unfit⟩
  rcases interrupted with before | after | before | after
  · exact settled m (Or.inl rfl) before
  · exact settled m' (Or.inr rfl) after
  · exact receiving m (Or.inl rfl) before
  · exact receiving m' (Or.inr rfl) after

/-! ## Pools of one page -/

section OnePage

variable (single : b.nb = 1)
include single

private theorem page_states (holds : Holds b mem img) :
    pageState mem (b.page 0) = img.state .lower 0 ∧
      pageState mem (b.page 1) = img.state .upper 0 := by
  have lower := holds.state .lower 0 b.pos
  have upper := holds.state .upper 0 b.pos
  rw [show b.first .upper + 0 = 1 from single] at upper
  exact ⟨lower, upper⟩

private theorem next_pages : (Next b mem .lower ↔ pageState mem (b.page 1) = .erased) ∧
    (Next b mem .upper ↔ pageState mem (b.page 2) = .erased) := by
  refine ⟨Iff.rfl, ?_⟩
  rw [Next, show b.first .upper + 1 = 2 by rw [Bank.first, single]]

private theorem forall_pages {P : Nat → Prop} : (∀ p < 2 * b.nb, P p) ↔ P 0 ∧ P 1 := by
  rw [single]
  constructor
  · exact fun all => ⟨all 0 (by omega), all 1 (by omega)⟩
  · rintro ⟨first, second⟩ p inside
    obtain rfl | rfl : p = 0 ∨ p = 1 := by omega
    · exact first
    · exact second

private theorem recoverable_iff : Recoverable b mem ↔
    (pageState mem (b.page 0) = .active ∧ pageState mem (b.page 1) = .erased) ∨
      ((pageState mem (b.page 1) = .receive ∨ pageState mem (b.page 1) = .active) ∧
        pageState mem (b.page 2) = .erased) := by
  rw [Recoverable]
  exact or_iff_right (by omega)

private theorem settled_single (holds : Holds b mem img) (settled : Settled b m'' img)
    (value : m'' = m ∨ m'' = m') : Outcome b m m' mem := by
  rcases settled with ⟨cur, c, ws, shape, answers, others⟩
  have inside := shape.inside
  obtain rfl : c = 0 := by omega
  rcases page_states single holds with ⟨s0, s1⟩
  have here := shape.current
  have other := others 0 b.pos
  have receive := skips_receive holds shape fun i inside => (others i inside).1
  have served : Next b mem cur → Recovers b m m' mem := by
    intro next
    apply recovers_serving value
    rintro w rfl
    exact wp_init_active quiet_honest holds shape answers (fun i inside => (others i inside).2)
      receive (Or.inr next)
  cases cur with
  | lower =>
      rw [Pool.other] at other
      constructor
      · intro recoverable
        rcases (recoverable_iff single).mp recoverable with ⟨_, erased⟩ | ⟨used, _⟩
        · exact served erased
        · rw [s1] at used
          exact absurd used (not_or.mpr other)
      · intro unfit
        refine lost receive ((forall_pages single).mpr ⟨Or.inr ⟨Or.inl rfl, ?_⟩, Or.inl ?_⟩)
        · exact fun erased => unfit ((recoverable_iff single).mpr (Or.inl ⟨s0.trans here, erased⟩))
        · rw [s1]
          exact other.2
  | upper =>
      rw [Pool.other] at other
      constructor
      · intro recoverable
        rcases (recoverable_iff single).mp recoverable with ⟨active, _⟩ | ⟨_, erased⟩
        · exact absurd (s0.symm.trans active) other.2
        · exact served ((next_pages single).2.mpr erased)
      · intro unfit
        refine lost receive ((forall_pages single).mpr ⟨Or.inl ?_, Or.inr ⟨Or.inr single.symm, ?_⟩⟩)
        · rw [s0]
          exact other.2
        · intro erased
          exact unfit ((recoverable_iff single).mpr (Or.inr ⟨Or.inr (s1.trans here), erased⟩))

/-- The old pool is still whole: it can be adopted instead of the one being received. -/
private theorem receiving_single (holds : Holds b mem img) (receiving : Receiving b m m'' img)
    (value : m'' = m ∨ m'' = m') : Outcome b m m' mem := by
  rcases receiving with ⟨new, c, ws, ows, old, copying, answers, others⟩
  have inside := copying.shape.inside
  obtain rfl : c = 0 := by omega
  rcases page_states single holds with ⟨s0, s1⟩
  have here := copying.shape.current
  have other := others 0 b.pos
  cases new with
  | lower =>
      rw [Pool.other] at other old
      have r0 : pageState mem (b.page 0) = .receive := s0.trans here
      have kept : pageState mem (b.page 1) ≠ .erased := by
        rw [s1]
        exact other.2
      have receive : ∀ p < 2 * b.nb, Skips b mem .receive p :=
        (forall_pages single).mpr ⟨Or.inr ⟨Or.inl rfl, kept⟩, Or.inl (by rw [s1]; exact other.1)⟩
      have whole : img.state .upper 0 = .active → Shape b img .upper .active 0 ows := by
        intro active
        have length := (holds.log .upper ows old).length
        rw [Bank.capacity_eq, single] at length
        exact ⟨old, b.pos, by simp, by simpa using length, fun i before => by omega, active,
          fun i after small => by omega⟩
      constructor
      · intro recoverable
        rcases (recoverable_iff single).mp recoverable with ⟨active, _⟩ | ⟨used, erased⟩
        · rw [r0] at active
          cases active
        · have active : img.state .upper 0 = .active :=
            (s1 ▸ used).resolve_left other.1
          apply recovers_serving (Or.inl rfl)
          rintro w rfl
          refine wp_init_active quiet_honest holds (whole active) answers ?_ receive
            (Or.inr ((next_pages single).2.mpr erased))
          intro i small
          obtain rfl : i = 0 := by omega
          rw [Pool.other, here]
          decide
      · intro unfit
        refine lost receive ((forall_pages single).mpr ⟨Or.inl (by rw [r0]; decide), ?_⟩)
        by_cases active : pageState mem (b.page 1) = .active
        · refine Or.inr ⟨Or.inr single.symm, fun erased => ?_⟩
          exact unfit ((recoverable_iff single).mpr (Or.inr ⟨Or.inr active, erased⟩))
        · exact Or.inl active
  | upper =>
      rw [Pool.other] at other
      have r1 : pageState mem (b.page 1) = .receive := s1.trans here
      have not_erased : pageState mem (b.page 1) ≠ .erased := by
        rw [r1]
        decide
      have lower : ∀ st, Skips b mem st 0 := fun st => Or.inr ⟨Or.inl rfl, not_erased⟩
      constructor
      · intro recoverable
        rcases (recoverable_iff single).mp recoverable with ⟨_, erased⟩ | ⟨_, erased⟩
        · exact absurd erased not_erased
        · apply recovers_serving value
          rintro w rfl
          exact wp_init_receiving quiet_honest holds old copying
            (fun i inside => (others i inside).1) (Or.inr ((next_pages single).2.mpr erased))
      · intro unfit
        refine lost ((forall_pages single).mpr ⟨lower _, Or.inr ⟨Or.inr single.symm, ?_⟩⟩)
          ((forall_pages single).mpr ⟨lower _, Or.inl (by rw [r1]; decide)⟩)
        exact fun erased => unfit ((recoverable_iff single).mpr (Or.inr ⟨Or.inl r1, erased⟩))

end OnePage

/-- What the initialisation makes of a flash that a reset left behind. -/
theorem recovery_outcome (holds : Holds b mem img) (interrupted : Interrupted b m m' img) :
    Outcome b m m' mem := by
  by_cases wide : 2 ≤ b.nb
  · exact wide_outcome wide holds interrupted
  · have pos := b.pos
    have single : b.nb = 1 := by omega
    rcases interrupted with before | after | before | after
    · exact settled_single single holds before (Or.inl rfl)
    · exact settled_single single holds after (Or.inr rfl)
    · exact receiving_single single holds before (Or.inl rfl)
    · exact receiving_single single holds after (Or.inr rfl)

private theorem outcome_survives_iff (outcome : Outcome b m m' mem) :
    Survives b m m' mem ↔ Recoverable b mem := by
  constructor
  · intro survives
    by_contra unfit
    have status := wp_run (outcome.fails unfit (powerUp mem) rfl)
    have ok := (survives (powerUp mem) rfl).1
    rw [status] at ok
    cases ok
  · intro recoverable w content
    rcases wp_run (outcome.recovers recoverable w content) with ⟨ok, serves⟩ | refused
    · refine ⟨ok, fun v inside => ?_⟩
      rcases serves with before | after
      · exact Or.inl (wp_run (before.read (Q := fun _ => True) (R := fun found _ => found = m v)
          inside trivial rfl))
      · exact Or.inr (wp_run (after.read (Q := fun _ => True) (R := fun found _ => found = m' v)
          inside trivial rfl))
    · exact absurd refused not_refused

/-- A reset during a run is survived exactly when recovery can trust the page it needs. -/
theorem reset_survived_iff (reset : ResetAt b m m' mem) :
    Survives b m m' mem ↔ Recoverable b mem := by
  rcases reset_content reset with ⟨img, holds, interrupted⟩
  exact outcome_survives_iff (recovery_outcome holds interrupted)

/-! ## Resets in a pool transfer of the compiled bank -/

/-- The compiled bank in a flash that otherwise holds the word, formatted, and with the
variable 0 written `n` times. -/
def filledOver (word : Word) : Nat → World
  | 0 => (run (handle quiet) (eeeInit nvmBank.nb true nvmBank.base) (powerUp fun _ => word)).2
  | n + 1 => (run (handle quiet) (eeeWrite 0 0) (filledOver word n)).2

def filled (n : Nat) : World := filledOver 0 n

private theorem write_frame {w : World} (idle : Idle nvmBank m w) {a : Nat}
    (behind : nvmBank.page 2 ≤ a) :
    (run (handle quiet) (eeeWrite 0 0) w).2.mem a = w.mem a := by
  have inside : wp (handle quiet) Inside (fun _ _ => True) (eeeWrite 0 0) w :=
    wp_eeeWrite_inside (idle_hasRoom idle) (by omega) fun _ _ _ => trivial
  exact confined_frame (wp_calls.mp inside) (Or.inr behind)

theorem filledOver_reach (word : Word) (n : Nat) (small : n ≤ 508) :
    (∃ m, Reach nvmBank m false (filledOver word n)) ∧
      (filledOver word n).var.nbWrittenElements = n ∧
      (filledOver word n).var.currentWritePage < nvmBank.nb ∧
      ∀ a, nvmBank.page 2 ≤ a → (filledOver word n).mem a = word := by
  induction n with
  | zero =>
      have start := (format_ready (b := nvmBank) (powerUp fun _ => word)).2.2
      refine ⟨⟨_, .format _⟩, ?_, ?_, ?_⟩
      · rw [filledOver, start]
        rfl
      · rw [filledOver, start]
        decide
      · intro a behind
        have inside : wp (handle quiet) Inside (fun _ _ => True)
            (eeeInit nvmBank.nb true nvmBank.base) (powerUp fun _ => word) :=
          wp_format_inside fun _ _ _ => trivial
        exact confined_frame (wp_calls.mp inside) (Or.inr behind)
  | succ n ih =>
      obtain ⟨⟨m, reach⟩, count, lower, behind⟩ := ih (by omega)
      have idle : Idle nvmBank m (filledOver word n) := reach.ready
      have zero : 0 < nvmBank.capacity := by decide
      have next := reach.write zero 0
      rcases write_cases idle zero 0 with ⟨ok, _, _, more⟩ | ⟨_, _, _, full⟩ | refused
      · rw [ok] at next
        exact ⟨⟨_, next⟩, more.count.trans (by rw [count]), more.pool.mpr lower,
          fun a far => (write_frame idle far).trans (behind a far)⟩
      · rw [count, Bank.capacity_eq, nb_eq] at full
        omega
      · exact absurd refused not_refused

theorem filled_reach (n : Nat) (small : n ≤ 508) :
    (∃ m, Reach nvmBank m false (filled n)) ∧ (filled n).var.nbWrittenElements = n ∧
      (filled n).var.currentWritePage < nvmBank.nb ∧
      ∀ a, nvmBank.page 2 ≤ a → (filled n).mem a = 0 :=
  filledOver_reach 0 n small

/-- The write that finds the lower page full comes to the state in which the upper one has got its
first header word, and nothing else has changed. -/
private theorem transfer_begins {w : World} (idle : Idle nvmBank m w)
    (count : w.var.nbWrittenElements = 508) (lower : w.var.currentWritePage < nvmBank.nb) :
    ∃ t ∈ visited (handle quiet) (eeeWrite 0 0) w,
      pageState t.mem (nvmBank.page 1) = .receive ∧
      ∀ a, nvmBank.page 2 ≤ a → t.mem a = w.mem a := by
  rcases idle.stands rfl with ⟨cur, ws, stands⟩
  obtain rfl : cur = .lower := by
    cases cur with
    | lower => rfl
    | upper =>
        rw [stands.var] at lower
        exact absurd (show 1 + 0 < 1 from lower) (by decide)
  have mounted := stands.mounted
  have next : w.var.nextPool = nvmBank.first .upper := stands.nextPool
  have erased : pageState w.mem (w.var.flashAddr w.var.nextPool) = .erased := stands.next_state
  refine ⟨(run (handle quiet) (eeSetState (nvmBank.first .upper) .receive) w).2, ?_, ?_, ?_⟩
  · rw [eeeWrite, traced]
    apply visited_bind_right
    apply visited_bind_left
    apply visited_bind_right
    change _ ∈ visited _ (if w.var.nbWrittenElements < eeNbMaxElt * w.var.nbPages then _ else _) w
    rw [count, mounted.nbPages, if_neg (by decide), changePool]
    apply visited_bind_right
    apply visited_bind_right
    change _ ∈ visited _ (if (run _ (eeGetState w.var.nextPool) w).1 ≠ .erased then _ else _)
      (run _ (eeGetState w.var.nextPool) w).2
    rw [run_eeGetState, erased, if_neg (not_not_intro rfl),
      show (run (handle quiet) getVar w).1.nextPool = nvmBank.first .upper from next]
    apply visited_bind_right
    exact visited_start _ _
  · have beside : pageState w.mem (nvmBank.page (nvmBank.first .upper)) = .erased := stands.beside
    have headed := wp_run (wp_eeSetState_headed quiet_honest mounted .upper
      (show PageState.receive ≠ .erased by decide) (by rw [beside]; decide))
    rcases headed with ⟨_, _, _, headed⟩ | ⟨_, j, inside, stops, _⟩
    · exact headed.state
    · exact absurd stops ((Unrefused.of_free quiet_free w.clock 1).not_stops inside)
  · intro a behind
    rcases idle_hasRoom idle with ⟨k, ahead⟩
    have inside : wp (handle quiet) Inside (fun _ _ => True)
        (eeSetState (nvmBank.first .upper) .receive) w :=
      wp_eeSetState_inside ahead.toPlaced (Nat.le_refl 1) (Or.inr rfl) fun _ _ _ => trivial
    exact confined_frame (wp_calls.mp inside) (Or.inr behind)

/-- With an erased page behind the bank, a reset is survived that comes when the new page has got
its first header word. -/
theorem reset_survived_in_transfer :
    ∃ m, ∃ t ∈ visited (handle quiet) (eeeWrite 0 0) (filledOver eeErased 508),
      pageState t.mem (nvmBank.page 1) = .receive ∧
      Survives nvmBank m (Function.update m 0 (some 0)) t.mem := by
  rcases filledOver_reach eeErased 508 (Nat.le_refl _) with ⟨⟨m, reach⟩, count, lower, behind⟩
  have idle : Idle nvmBank m (filledOver eeErased 508) := reach.ready
  rcases transfer_begins idle count lower with ⟨t, visit, receive, same⟩
  refine ⟨m, t, visit, receive, ?_⟩
  have blank : ∀ k, t.mem (nvmBank.page 2 + k) = eeErased := fun k =>
    (same _ (Nat.le_add_right _ k)).trans (behind _ (Nat.le_add_right _ k))
  have erased : pageState t.mem (nvmBank.page 2) = .erased := by
    have first : t.mem (nvmBank.page 2) = eeErased := blank 0
    rw [pageState, blank, blank, blank, first]
    rfl
  exact (reset_survived_iff (.write reach (by decide) 0 visit)).mpr
    (Or.inr (Or.inr ⟨Or.inl receive, erased⟩))

private theorem waiting_lost {w : World} (reach : Reach nvmBank m false w)
    (count : w.var.nbWrittenElements = 508) (behind : ∀ a, nvmBank.page 2 ≤ a → w.mem a = 0) :
    ∃ m, ResetAt nvmBank m m (run (handle quiet) (eeeWrite 0 0) w).2.mem ∧
      ¬ Survives nvmBank m m (run (handle quiet) (eeeWrite 0 0) w).2.mem := by
  have idle : Idle nvmBank m w := reach.ready
  have zero : 0 < nvmBank.capacity := by decide
  have next := reach.write zero 0
  rcases write_cases idle zero 0 with ⟨_, _, _, more⟩ | ⟨needed, waiting, _⟩ | refused
  · have room := more.room
    rw [count, Bank.capacity_eq, nb_eq] at room
    omega
  · rw [needed] at next
    have reset := ResetAt.clean next (List.mem_cons_self ..)
    refine ⟨_, reset, fun survives => ?_⟩
    rcases reset_content reset with ⟨img, holds, interrupted⟩
    have recoverable := (outcome_survives_iff (recovery_outcome holds interrupted)).mp survives
    have header : pageState (run (handle quiet) (eeeWrite 0 0) w).2.mem (nvmBank.page 2) =
        .erasing := by
      have word : (run (handle quiet) (eeeWrite 0 0) w).2.mem (nvmBank.page 2 + 24) = 0 :=
        (write_frame idle (Nat.le_add_right _ _)).trans (behind _ (Nat.le_add_right _ _))
      rw [pageState, word]
      rfl
    rcases waiting with ⟨img', cur, c, ws, live, erasing⟩
    have pages : c < 1 := live.shape.inside
    obtain rfl : c = 0 := by omega
    rcases page_states (b := nvmBank) rfl live.holds with ⟨s0, s1⟩
    have here := live.shape.current
    have other := erasing 0 nvmBank.pos
    rcases (recoverable_iff (b := nvmBank) rfl).mp recoverable with ⟨active, erased⟩ | ⟨_, erased⟩
    · cases cur with
      | lower => cases other.symm.trans (s1.symm.trans erased)
      | upper => cases other.symm.trans (s0.symm.trans active)
    · cases header.symm.trans erased
  · exact absurd refused not_refused

/-- After the first pool change the lower page waits to be erased and the page behind the
bank is not erased: a reset at this moment makes the next initialisation fail. -/
theorem full_bank_lost :
    ∃ m, ResetAt nvmBank m m (filled 509).mem ∧ ¬ Survives nvmBank m m (filled 509).mem := by
  rcases filled_reach 508 (Nat.le_refl _) with ⟨⟨m, reach⟩, count, _, behind⟩
  have last : filled 509 = (run (handle quiet) (eeeWrite 0 0) (filled 508)).2 := by
    rw [show 509 = 508 + 1 from rfl, filled, filledOver]
    rfl
  rw [last]
  exact waiting_lost reach count behind

end Baelux.Nvm

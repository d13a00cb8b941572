import Baelux.Eeprom.Update

/-! The store as its callers see it when no flash operation fails: over every run
of reads, writes and the cleans that writes ask for, it is a map. -/

namespace Baelux.Eeprom

open Effect Flash

section Runs

variable (b : Bank)

/-- The runs after a formatting `EEE_Init`: the last write to every variable, whether
`EEE_CLEAN_NEEDED` still waits for its `EEE_Clean`, and the state reached. -/
inductive Reach : Store → Bool → World → Prop where
  | format (w : World) :
      Reach (fun _ => none) false (run (handle quiet) (eeeInit b.nb true b.base) w).2
  | write {m : Store} {w : World} (before : Reach m false w) {addr : Nat}
      (inside : addr < b.capacity) (data : Data) :
      Reach (Function.update m addr (some data))
        (decide ((run (handle quiet) (eeeWrite addr data) w).1 = .cleanNeeded))
        (run (handle quiet) (eeeWrite addr data) w).2
  | read {m : Store} {pending : Bool} {w : World} (before : Reach m pending w) {addr : Nat}
      (inside : addr < b.capacity) : Reach m pending (run (handle quiet) (eeeRead addr) w).2
  | clean {m : Store} {w : World} (before : Reach m true w) :
      Reach m false (run (handle quiet) eeeClean w).2

end Runs

variable {b : Bank} {m : Store} {pending : Bool} {w : World} {Q : Memory → Prop}

def Ready (b : Bank) (m : Store) (pending : Bool) (w : World) : Prop :=
  if pending then Pending b m w else Idle b m w

theorem Ready.live (ready : Ready b m pending w) : ∃ img cur c ws, Live b m w img cur c ws := by
  cases pending with
  | false =>
      rcases ready with ⟨img, cur, c, ws, live, _⟩
      exact ⟨img, cur, c, ws, live⟩
  | true =>
      rcases ready with ⟨img, cur, c, ws, live, _⟩
      exact ⟨img, cur, c, ws, live⟩

theorem not_refused {status : Status} {t : World} : ¬ Refused quiet Q status t :=
  fun refused => refused.2.1 quiet_free

theorem format_ready (w : World) :
    (run (handle quiet) (eeeInit b.nb true b.base) w).1 = .ok ∧
      Idle b (fun _ => none) (run (handle quiet) (eeeInit b.nb true b.base) w).2 ∧
      (run (handle quiet) (eeeInit b.nb true b.base) w).2.var = cursor b .lower 0 0 := by
  rcases wp_run (wp_format (b := b) (w := w) quiet_honest fun mem => (trivial : True)) with
    ⟨ok, idle, _, start⟩ | refused
  · exact ⟨ok, idle, start⟩
  · exact absurd refused not_refused

theorem write_cases (idle : Idle b m w) {addr : Nat} (inside : addr < b.capacity) (data : Data) :
    Wrote quiet (fun _ => True) b (Function.update m addr (some data)) w
      (run (handle quiet) (eeeWrite addr data) w).1
      (run (handle quiet) (eeeWrite addr data) w).2 :=
  wp_run (wp_eeeWrite quiet_honest idle data inside fun _ _ _ _ => trivial)

theorem write_ready (idle : Idle b m w) {addr : Nat} (inside : addr < b.capacity) (data : Data) :
    ((run (handle quiet) (eeeWrite addr data) w).1 = .ok ∨
      (run (handle quiet) (eeeWrite addr data) w).1 = .cleanNeeded) ∧
    Ready b (Function.update m addr (some data))
      (decide ((run (handle quiet) (eeeWrite addr data) w).1 = .cleanNeeded))
      (run (handle quiet) (eeeWrite addr data) w).2 := by
  rcases write_cases idle inside data with ⟨ok, idle', _⟩ | ⟨needed, waiting, _⟩ | refused
  · rw [ok]
    exact ⟨Or.inl rfl, idle'⟩
  · rw [needed]
    exact ⟨Or.inr rfl, waiting⟩
  · exact absurd refused not_refused

theorem read_ready (ready : Ready b m pending w) {addr : Nat} (inside : addr < b.capacity) :
    (run (handle quiet) (eeeRead addr) w).1 = m addr ∧
      Ready b m pending (run (handle quiet) (eeeRead addr) w).2 := by
  rcases ready.live with ⟨img, cur, c, ws, live⟩
  exact wp_run (wp_eeeRead (Q := fun _ => True)
    (R := fun found t => found = m addr ∧ Ready b m pending t) live inside trivial ⟨rfl, ready⟩)

theorem clean_ready (waiting : Pending b m w) :
    (run (handle quiet) eeeClean w).1 = .ok ∧ Idle b m (run (handle quiet) eeeClean w).2 := by
  rcases wp_run (wp_eeeClean (Q := fun _ => True) quiet_honest waiting fun _ _ _ _ => trivial) with
    ⟨ok, idle, _⟩ | refused
  · exact ⟨ok, idle⟩
  · exact absurd refused not_refused

theorem Reach.ready (reach : Reach b m pending w) : Ready b m pending w := by
  induction reach with
  | format w => exact (format_ready w).2.1
  | write _ inside data ih => exact (write_ready ih inside data).2
  | read _ inside ih => exact (read_ready ih inside).2
  | clean _ ih => exact (clean_ready ih).2

/-- Over every run a write succeeds, and a read returns the last write. -/
theorem sequential_store_law (reach : Reach b m pending w) {addr : Nat}
    (inside : addr < b.capacity) :
    (pending = false → ∀ data, (run (handle quiet) (eeeWrite addr data) w).1 = .ok ∨
      (run (handle quiet) (eeeWrite addr data) w).1 = .cleanNeeded) ∧
    (run (handle quiet) (eeeRead addr) w).1 = m addr := by
  have ready := reach.ready
  refine ⟨?_, (read_ready ready inside).1⟩
  rintro rfl data
  exact (write_ready ready inside data).1

def twoPages : Bank where
  base := hwFlashAddress
  nb := 2
  pos := by decide
  above := by decide
  aligned := by decide
  fits := by decide
  small := by decide

theorem sequential_store_law_formatted :
    let w := (run (handle quiet) (eeeInit twoPages.nb true twoPages.base)
      (powerUp fun _ => eeErased)).2
    (∀ data, (run (handle quiet) (eeeWrite 3 data) w).1 = .ok ∨
      (run (handle quiet) (eeeWrite 3 data) w).1 = .cleanNeeded) ∧
    (run (handle quiet) (eeeRead 3) (run (handle quiet) (eeeWrite 3 5) w).2).1 = some 5 := by
  have start := Reach.format (b := twoPages) (powerUp fun _ => eeErased)
  have inside : 3 < twoPages.capacity := by decide
  refine ⟨(sequential_store_law start inside).1 rfl, ?_⟩
  have read := (sequential_store_law (start.write inside 5) inside).2
  rwa [Function.update_self] at read

end Baelux.Eeprom

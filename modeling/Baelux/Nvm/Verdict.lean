import Baelux.Nvm.RoundTrip

/-! What the boolean of `APP_ZIGBEE_NVM_Write` says, over histories in which cores may
refuse any flash operation. -/

namespace Baelux.Nvm

open Effect Flash Eeprom AppendLog

/-- The save returns true exactly when each word of the record reads back right afterwards. -/
def Verdict (env : Env) (record : Nat → Data) (w : World) : Prop :=
  (run (handle env) appZigbeeNvmWrite (NvmOp.prepared (.write record) w)).1 = true ↔
    ∀ i < numWords (record 0),
      (run (handle env) (eeeRead (i + zigbeeDbStartAddr)) (perform env (.write record) w)).1 =
        some (record i)

abbrev History := List (Env × NvmOp)

def Truthful : History → World → Prop
  | [], _ => True
  | (env, op) :: rest, w =>
      (∀ record, op = .write record → Verdict env record w) ∧ Truthful rest (perform env op w)

/-! ## When the verdict is right -/

def standing (w : World) : Standing where
  clock := w.clock
  count := w.var.nbWrittenElements
  own := pageState w.mem (w.var.flashAddr w.var.currentWritePage)
  beside := pageState w.mem (w.var.flashAddr w.var.nextPool)
  held := readBack w

def Unsaved (n : Nat) (record : Nat → Data) (held : Store) : Prop :=
  ∃ i < n, held i ≠ some (record i)

def afterWord (env : Env) (s : Standing) (k : Nat) (data : Data) : Standing :=
  if s.full nvmBank then (s.wrote nvmBank k data).cleaned env else s.wrote nvmBank k data

/-- The save of the words from `k` on is judged rightly, by the times at which operations are
refused: where a word is given up, what is left does not happen to be the whole record already, and
the last word does not change pools. -/
def Judged (env : Env) (record : Nat → Data) : Nat → Nat → Standing → Prop
  | 0, _, _ => True
  | remaining + 1, k, s =>
      (s.blocked nvmBank → Unsaved (k + (remaining + 1)) record s.held) ∧
        (¬ s.blocked nvmBank →
          (∀ j < s.operations nvmBank k (record k), Stops env s.clock j →
            Unsaved (k + (remaining + 1)) record (s.left nvmBank k (record k) j)) ∧
          (Unrefused env s.clock (s.operations nvmBank k (record k)) →
            (s.full nvmBank → remaining ≠ 0) ∧
              Judged env record remaining (k + 1) (afterWord env s k (record k))))

/-- No HAL error occurs, records fit a pool, and the bank is mounted from a sound flash, or formatted,
while no core refuses an operation. -/
def Ordinary (env : Env) (w : World) : NvmOp → Prop
  | .read => True
  | .init => Honest env ∧ Free env ∧ SoundFlash nvmBank w.mem
  | .erase => Honest env ∧ Free env
  | .write record => Honest env ∧ numWords (record 0) ≤ nvmBank.capacity

def AllOrdinary : History → World → Prop
  | [], _ => True
  | (env, op) :: rest, w => Ordinary env w op ∧ AllOrdinary rest (perform env op w)

def AllJudged : History → World → Prop
  | [], _ => True
  | (env, op) :: rest, w =>
      (∀ record, op = .write record →
        Judged env record (numWords (record 0)) 0 (standing w)) ∧
        AllJudged rest (perform env op w)

variable {env : Env} {w t : World} {record : Nat → Data} {m : Store} {s : Standing}

theorem standing_of (stands : StandsAs nvmBank s w) : standing w = s := by
  have reads := funext (stands.reads rfl)
  rcases stands.page with ⟨cur, ws, old, page, _, count, _⟩
  have elements : w.var.nbWrittenElements = s.count := by
    rw [page.var, ← count]
    rfl
  rw [standing, page.own_state, page.next_state, stands.clock, elements, reads]

/-! ## The save loop -/

def writeWord (env : Env) (k : Nat) (w : World) : Status × World :=
  run (handle env) (eeeWrite (k + zigbeeDbStartAddr) (w.cache k)) w

private theorem run_writeLoop_succ (k remaining : Nat) (status : Status) :
    run (handle env) (writeLoop (remaining + 1) k status) w =
      if (writeWord env k w).1 = .ok then
        run (handle env) (writeLoop remaining (k + 1) (writeWord env k w).1) (writeWord env k w).2
      else if (writeWord env k w).1 = .cleanNeeded then
        run (handle env) (writeLoop remaining (k + 1) (writeWord env k w).1)
          (run (handle env) eeeClean (writeWord env k w).2).2
      else writeWord env k w := by
  have cached : run (handle env) (getCache k) w = (w.cache k, w) := rfl
  unfold writeWord
  rw [writeLoop, run_bind, cached, run_bind]
  split
  · rfl
  · split
    · rw [run_bind]
    · rfl

private theorem given_up {status : Status} {n : Nat} {held : Store} (failed : status ≠ .ok)
    (reads : ∀ v, readBack t v = held v) :
    (status = .ok ↔ ∀ i < n, readBack t i = some (record i)) ↔ Unsaved n record held := by
  rw [iff_false_left failed, Unsaved]
  simp only [reads, not_forall, exists_prop]

theorem writeWord_outcome (honest : Honest env) (stands : StandsAs nvmBank s w) {k : Nat}
    (inside : k < nvmBank.capacity) :
    (writeWord env k w).2.cache = w.cache ∧
      Wrotes env nvmBank s k (w.cache k) (writeWord env k w).1 (writeWord env k w).2 :=
  wp_run (wp_eeeWrite_page rfl honest inside stands)

theorem eeeClean_outcome (honest : Honest env) (stands : StandsAs nvmBank s w) :
    (run (handle env) eeeClean w).2.cache = w.cache ∧
      StandsAs nvmBank (s.cleaned env) (run (handle env) eeeClean w).2 :=
  wp_run (wp_eeeClean_page rfl honest stands)

theorem afterWord_held {k v : Nat} (inside : v < nvmBank.capacity) (data : Data) :
    (afterWord env s k data).held v = Function.update s.held k (some data) v := by
  have cleaned : ∀ s : Standing, (s.cleaned env).held = s.held := by
    intro s
    unfold Standing.cleaned
    split <;> rfl
  have wrote : (s.wrote nvmBank k data).held v = Function.update s.held k (some data) v := by
    unfold Standing.wrote
    split
    · apply (copied_all inside).trans
      rw [only, Function.update_apply, Function.update_apply]
      split <;> rfl
    · rfl
  unfold afterWord
  split
  · rw [cleaned]
    exact wrote
  · exact wrote

theorem word_stored (honest : Honest env) {k : Nat} (data : Data)
    (ended : (writeWord env k w).1 = if s.full nvmBank then .cleanNeeded else .ok)
    (wrote : StandsAs nvmBank (s.wrote nvmBank k data) (writeWord env k w).2) (remaining : Nat)
    (status : Status) : ∃ t, StandsAs nvmBank (afterWord env s k data) t ∧
      t.cache = (writeWord env k w).2.cache ∧
      run (handle env) (writeLoop (remaining + 1) k status) w =
        run (handle env) (writeLoop remaining (k + 1)
          (if s.full nvmBank then .cleanNeeded else .ok)) t := by
  rw [run_writeLoop_succ, afterWord, ended]
  by_cases full : s.full nvmBank
  · have cleaned := eeeClean_outcome honest wrote
    rw [if_pos full, if_pos full, if_neg (by decide), if_pos rfl]
    exact ⟨_, cleaned.2, cleaned.1, rfl⟩
  · rw [if_neg full, if_neg full, if_pos rfl]
    exact ⟨_, wrote, rfl, rfl⟩

private theorem run_writeLoop_given_up {k : Nat} (failed : (writeWord env k w).1 ≠ .ok)
    (other : (writeWord env k w).1 ≠ .cleanNeeded) (remaining : Nat) (status : Status) :
    run (handle env) (writeLoop (remaining + 1) k status) w = writeWord env k w := by
  rw [run_writeLoop_succ, if_neg failed, if_neg other]

theorem judged_blocked {k : Nat} (blocked : s.blocked nvmBank) (remaining : Nat) :
    Judged env record (remaining + 1) k s ↔ Unsaved (k + (remaining + 1)) record s.held := by
  simp [Judged, blocked]

theorem judged_stopped {k j : Nat} (free : ¬ s.blocked nvmBank)
    (inside : j < s.operations nvmBank k (record k)) (stop : Stops env s.clock j)
    (remaining : Nat) : Judged env record (remaining + 1) k s ↔
      Unsaved (k + (remaining + 1)) record (s.left nvmBank k (record k) j) := by
  rw [Judged]
  constructor
  · exact fun judged => (judged.2 free).1 j inside stop
  · intro unsaved
    refine ⟨fun blocked => absurd blocked free, fun _ => ⟨fun i _ stop' => ?_, fun all => ?_⟩⟩
    · rwa [stop'.unique stop]
    · exact absurd stop (all.not_stops inside)

theorem judged_done {k : Nat} (free : ¬ s.blocked nvmBank)
    (all : Unrefused env s.clock (s.operations nvmBank k (record k))) (remaining : Nat) :
    Judged env record (remaining + 1) k s ↔ (s.full nvmBank → remaining ≠ 0) ∧
      Judged env record remaining (k + 1) (afterWord env s k (record k)) := by
  rw [Judged]
  constructor
  · exact fun judged => (judged.2 free).2 all
  · intro rest
    refine ⟨fun blocked => absurd blocked free, fun _ => ⟨fun j inside stop => ?_, fun _ => rest⟩⟩
    exact absurd stop (all.not_stops inside)

/-- The save loop ends with `EEE_OK` exactly when all the words are stored, if it is judged so. -/
theorem writeLoop_judged (honest : Honest env) (remaining k : Nat)
    (small : k + remaining ≤ nvmBank.capacity) (stands : StandsAs nvmBank s w)
    (cache : w.cache = record) (before : ∀ i < k, s.held i = some (record i)) (status : Status)
    (last : remaining = 0 → status = .ok) :
    InOrder nvmBank (run (handle env) (writeLoop remaining k status) w).2 ∧
      (((run (handle env) (writeLoop remaining k status) w).1 = .ok ↔ ∀ i < k + remaining,
        readBack (run (handle env) (writeLoop remaining k status) w).2 i = some (record i)) ↔
          Judged env record remaining k s) := by
  induction remaining generalizing w s k status with
  | zero =>
    refine ⟨⟨s, stands⟩, iff_of_true ⟨fun _ i inside => ?_, fun _ => last rfl⟩ trivial⟩
    exact (stands.reads rfl i).trans (before i inside)
  | succ remaining ih =>
    obtain ⟨same, wrotes⟩ := writeWord_outcome honest stands (k := k) (by omega)
    rw [cache] at wrotes
    cases wrotes with
    | blocked blocked error still =>
      have failed : (writeWord env k w).1 ≠ .ok := by rw [error]; decide
      rw [run_writeLoop_given_up failed (by rw [error]; decide), judged_blocked blocked]
      exact ⟨⟨s, still⟩, given_up failed (still.reads rfl)⟩
    | stopped free j inside stop error order reads =>
      have failed : (writeWord env k w).1 ≠ .ok := by rw [error]; decide
      rw [run_writeLoop_given_up failed (by rw [error]; decide), judged_stopped free inside stop]
      exact ⟨order, given_up failed reads⟩
    | done free all ended wrote =>
      obtain ⟨t, after, same', runs⟩ := word_stored honest (record k) ended wrote remaining status
      have stored : ∀ i < k + 1, (afterWord env s k (record k)).held i = some (record i) := by
        intro i inside
        rw [afterWord_held (by omega), Function.update_apply]
        by_cases here : i = k
        · rw [if_pos here, here]
        · rw [if_neg here]
          exact before i (by omega)
      rw [judged_done free all, runs]
      by_cases none_left : remaining = 0
      · subst none_left
        have all_stored : ∀ i < k + (0 + 1), readBack t i = some (record i) :=
          fun i inside => (after.reads rfl i).trans (stored i inside)
        refine ⟨⟨_, after⟩, ?_⟩
        change ((if s.full nvmBank then Status.cleanNeeded else .ok) = .ok ↔ _) ↔ _
        by_cases full : s.full nvmBank
        · rw [if_pos full]
          refine iff_of_false (fun right => ?_) fun both => both.1 full rfl
          exact absurd (right.mpr all_stored) (by decide)
        · rw [if_neg full]
          exact iff_of_true (iff_of_true rfl all_stored) ⟨fun is_full => absurd is_full full, trivial⟩
      · have rest := ih (k + 1) (by omega) after (same'.trans (same.trans cache)) stored
          (if s.full nvmBank then .cleanNeeded else .ok) fun zero => absurd zero none_left
        rw [show k + (remaining + 1) = k + 1 + remaining by omega]
        refine ⟨rest.1, rest.2.trans ?_⟩
        exact ⟨fun judged => ⟨fun _ => none_left, judged⟩, fun both => both.2⟩

theorem run_save : run (handle env) appZigbeeNvmWrite w =
    (decide ((run (handle env) (writeLoop (numWords (w.cache 0)) 0 .ok) w).1 = .ok),
      (run (handle env) (writeLoop (numWords (w.cache 0)) 0 .ok) w).2) := by
  simp only [appZigbeeNvmWrite, traced, run_bind, run_pure]
  rfl

theorem perform_write : perform env (.write record) w =
    (run (handle env) (writeLoop (numWords (record 0)) 0 .ok) { w with cache := record }).2 := by
  rw [perform, NvmOp.program, run_bind, run_save]
  rfl

theorem verdict_iff : Verdict env record w ↔
    ((run (handle env) (writeLoop (numWords (record 0)) 0 .ok) { w with cache := record }).1 = .ok ↔
      ∀ i < numWords (record 0), readBack (perform env (.write record) w) i = some (record i)) := by
  simp only [Verdict, run_save, run_eeeRead, zigbeeDbStartAddr, Nat.add_zero, decide_eq_true_eq]
  rfl

/-- A save leaves the bank in order, and its verdict is right exactly when it is judged so. -/
theorem save_judged (honest : Honest env) (small : numWords (record 0) ≤ nvmBank.capacity)
    (order : InOrder nvmBank w) :
    InOrder nvmBank (perform env (.write record) w) ∧
      (Verdict env record w ↔ Judged env record (numWords (record 0)) 0 (standing w)) := by
  rcases order with ⟨s, stands⟩
  have start : StandsAs nvmBank s { w with cache := record } := by
    rcases stands with ⟨⟨cur, ws, old, page, rest⟩, used, clock⟩
    exact ⟨⟨cur, ws, old, ⟨page.var, page.filled, page.own, page.beside, page.old⟩, rest⟩, used, clock⟩
  have saved := writeLoop_judged honest (numWords (record 0)) 0 (by omega) start rfl
    (fun i before => absurd before (Nat.not_lt_zero i)) .ok fun _ => rfl
  rw [Nat.zero_add] at saved
  rw [verdict_iff, perform_write, standing_of stands]
  exact saved

/-! ## Histories -/

private theorem readLoop_same (remaining k : Nat) :
    (run (handle env) (readLoop remaining k) w).2.mem = w.mem ∧
      (run (handle env) (readLoop remaining k) w).2.var = w.var := by
  induction remaining generalizing w k with
  | zero => exact ⟨rfl, rfl⟩
  | succ remaining ih =>
      rw [readLoop, run_bind, run_eeeRead]
      cases readBack w (k + zigbeeDbStartAddr) with
      | none => exact ⟨rfl, rfl⟩
      | some data => exact @ih { w with cache := Function.update w.cache k data } (k + 1)

theorem read_in_order (order : InOrder nvmBank w) : InOrder nvmBank (perform env .read w) := by
  have unlocked : run (handle env) halFlashUnlock w = ((), { w with unlocked := true }) := rfl
  have same : (run (handle env) appZigbeeNvmRead w).2.mem = w.mem ∧
      (run (handle env) appZigbeeNvmRead w).2.var = w.var := by
    rw [appZigbeeNvmRead, run_bind, unlocked, run_bind, run_eeeRead]
    cases readBack { w with unlocked := true } zigbeeDbStartAddr with
    | none => exact ⟨rfl, rfl⟩
    | some length =>
        have first : run (handle env) (setCache 0 length) { w with unlocked := true } = ((),
            { w with unlocked := true, cache := Function.update w.cache 0 length }) := rfl
        rw [run_bind, first]
        split
        · exact ⟨rfl, rfl⟩
        · rw [run_bind]
          exact @readLoop_same env
            { w with unlocked := true, cache := Function.update w.cache 0 length } _ 1
  rw [perform, NvmOp.program, run_bind]
  exact order.congr same.1 same.2

theorem perform_erase : perform env .erase w =
    (run (handle env) (eeeInit nvmBank.nb true nvmBank.base) w).2 := by
  rw [perform, NvmOp.program, appZigbeeNvmErase, run_bind, run_pure]
  rfl

theorem perform_in_order {op : NvmOp} (mounted : op = .init ∨ op = .erase ∨ InOrder nvmBank w)
    (ordinary : Ordinary env w op) : InOrder nvmBank (perform env op w) := by
  cases op with
  | init =>
    rcases ordinary with ⟨honest, free, sound⟩
    obtain ⟨_, m, idle⟩ := init_idle honest free sound
    rw [perform, NvmOp.program, run_bind]
    exact idle.inOrder rfl
  | erase =>
    rcases ordinary with ⟨honest, free⟩
    rw [perform_erase]
    have formats := @wp_format nvmBank env (fun _ => True) w honest fun _ => trivial
    rcases wp_run formats with ⟨_, idle, _⟩ | refused
    · exact idle.inOrder rfl
    · exact absurd free refused.2.1
  | read => exact read_in_order (by simpa using mounted)
  | write record => exact (save_judged ordinary.1 ordinary.2 (by simpa using mounted)).1

theorem in_order_truthful (history : History) (order : InOrder nvmBank w)
    (ordinary : AllOrdinary history w) : Truthful history w ↔ AllJudged history w := by
  induction history generalizing w with
  | nil => exact Iff.rfl
  | cons step rest ih =>
    rcases step with ⟨env, op⟩
    refine and_congr (forall_congr' fun record => forall_congr' fun same => ?_)
      (ih (perform_in_order (Or.inr (Or.inr order)) ordinary.1) ordinary.2)
    subst same
    exact (save_judged ordinary.1.1 ordinary.1.2 order).2

/-- In a history that mounts the bank first and whose operations are all ordinary, every save returns
true exactly when its record is stored, if and only if each save is judged so. -/
theorem saves_truthful (history : History) (w : World)
    (mounts : MountsFirst (history.map Prod.snd)) (ordinary : AllOrdinary history w) :
    Truthful history w ↔ AllJudged history w := by
  cases history with
  | nil => exact Iff.rfl
  | cons step rest =>
    rcases step with ⟨env, op⟩
    have mounted : op = .init ∨ op = .erase ∨ InOrder nvmBank w := by
      rcases mounts with init | erase
      · exact Or.inl init
      · exact Or.inr (Or.inl erase)
    refine and_congr (forall_congr' fun record => forall_congr' fun same => ?_)
      (in_order_truthful rest (perform_in_order mounted ordinary.1) ordinary.2)
    subst same
    rcases mounts with init | erase <;> contradiction

/-! ## Saves into a page with room -/

private theorem room_afterWord {k : Nat} {data : Data} (room : s.count < nvmBank.capacity) :
    afterWord env s k data = { s with
      clock := s.clock + 3
      count := s.count + 1
      held := Function.update s.held k (some data) } := by
  have not_full : ¬ s.full nvmBank := not_not_intro room
  rw [afterWord, if_neg not_full, Standing.wrote, if_neg not_full]

/-- A save that fits the page in use is judged rightly where nothing is refused. -/
theorem room_judged (free : Free env) (remaining k : Nat)
    (room : s.count + remaining ≤ nvmBank.capacity) : Judged env record remaining k s := by
  induction remaining generalizing s k with
  | zero => exact trivial
  | succ remaining ih =>
    have not_full : ¬ s.full nvmBank := not_not_intro (by omega)
    rw [judged_done (fun blocked => not_full blocked.1) (.of_free free _ _)]
    refine ⟨fun full => absurd full not_full, ?_⟩
    rw [room_afterWord (by omega)]
    apply ih
    change s.count + 1 + remaining ≤ _
    omega

/-- A save is misjudged whose last word is the first to meet a full page. -/
theorem full_misjudged (free : Free env) (n k : Nat) (full : s.count + n = nvmBank.capacity)
    (ready : s.beside = .erased) : ¬ Judged env record (n + 1) k s := by
  induction n generalizing s k with
  | zero =>
    intro judged
    have is_full : s.full nvmBank := by
      unfold Standing.full
      omega
    have rest := (judged_done (fun blocked => blocked.2 ready) (.of_free free _ _) _).mp judged
    exact rest.1 is_full rfl
  | succ n ih =>
    intro judged
    have rest := (judged_done (fun blocked => blocked.2 ready) (.of_free free _ _) _).mp judged
    rw [room_afterWord (by omega)] at rest
    apply absurd rest.2 (ih (k + 1) _ _)
    · change s.count + 1 + n = _
      omega
    · exact ready

theorem idle_standing (idle : Idle nvmBank m w) : StandsAs nvmBank (standing w) w ∧
    (standing w).beside = .erased := by
  rcases idle.stands rfl with ⟨cur, ws, page⟩
  rcases page.inOrder (by decide) fun _ _ _ => rfl with ⟨s, stands⟩
  rw [standing_of stands]
  refine ⟨stands, ?_⟩
  rw [← standing_of stands, standing, page.next_state]

theorem idle_reads {v : Nat} (idle : Idle nvmBank m w) (inside : v < nvmBank.capacity) :
    readBack w v = m v := by
  have ready : Ready nvmBank m false w := idle
  have read := (read_ready ready inside).1
  rwa [run_eeeRead] at read

/-! ## Saves into a bank that was erased -/

private theorem blank_saved (record : Nat → Data) (small : numWords (record 0) ≤ nvmBank.capacity) :
    Idle nvmBank (stored (fun _ => none) record (numWords (record 0)))
        (perform quiet (.write record) (perform quiet .erase (powerUp fun _ => eeErased))) ∧
      (perform quiet (.write record)
        (perform quiet .erase (powerUp fun _ => eeErased))).var.nbWrittenElements =
          numWords (record 0) := by
  obtain ⟨_, idle, start⟩ := format_ready (b := nvmBank) (powerUp fun _ => eeErased)
  have count : (run (handle quiet) (eeeInit nvmBank.nb true nvmBank.base)
      (powerUp fun _ => eeErased)).2.var.nbWrittenElements = 0 :=
    congrArg EeVar.nbWrittenElements start
  rw [perform_write, perform_erase]
  generalize (run (handle quiet) (eeeInit nvmBank.nb true nvmBank.base)
    (powerUp fun _ => eeErased)).2 = w at idle count
  have begins : Idle nvmBank (stored (fun _ => none) record 0) { w with cache := record } := by
    rw [stored_zero]
    exact idle.congr rfl rfl
  obtain ⟨t, after, appended, runs, _⟩ := run_writeLoop_room (numWords (record 0)) 0 0 begins rfl
    (by omega) (by
      change w.var.nbWrittenElements + _ ≤ _
      omega)
  rw [Nat.add_zero, Nat.zero_add] at runs
  rw [Nat.zero_add] at after
  rw [runs]
  exact ⟨after, appended.count.trans (by
    change w.var.nbWrittenElements + _ = _
    omega)⟩

def refusing : Env := fun _ => ⟨false, true, true⟩

def refusedSave : History :=
  [(quiet, .erase), (quiet, .write fun _ => 4), (refusing, .write fun _ => 8)]

theorem saves_truthful_refused : Truthful refusedSave (powerUp fun _ => eeErased) := by
  have ordinary : AllOrdinary refusedSave (powerUp fun _ => eeErased) :=
    ⟨⟨quiet_honest, quiet_free⟩, ⟨quiet_honest, by decide⟩, ⟨fun _ => rfl, by decide⟩, trivial⟩
  have words : numWords 4 = 2 := by decide
  obtain ⟨_, idle, start⟩ := format_ready (b := nvmBank) (powerUp fun _ => eeErased)
  have empty : (standing (perform quiet .erase (powerUp fun _ => eeErased))).count = 0 := by
    rw [perform_erase]
    exact congrArg EeVar.nbWrittenElements start
  obtain ⟨saved, count⟩ := blank_saved (fun _ => 4) (by decide)
  refine (saves_truthful refusedSave _ (Or.inr rfl) ordinary).mpr ⟨nofun, ?_, ?_, trivial⟩
  · rintro record ⟨⟩
    apply room_judged quiet_free
    rw [empty, words]
    decide
  · rintro record ⟨⟩
    generalize perform quiet (.write fun _ => 4) (perform quiet .erase (powerUp fun _ => eeErased)) = w
      at saved count ⊢
    have not_full : ¬ (standing w).full nvmBank := by
      refine not_not_intro (?_ : w.var.nbWrittenElements < nvmBank.capacity)
      rw [count]
      decide
    refine ⟨fun blocked => absurd blocked.1 not_full, fun _ => ⟨fun j _ _ => ⟨0, by decide, ?_⟩, ?_⟩⟩
    · rw [Standing.left, if_neg not_full]
      change readBack w 0 ≠ _
      rw [idle_reads saved (by decide)]
      decide
    · intro all
      have one : (standing w).operations nvmBank 0 8 = 1 := if_neg not_full
      have refused : executed refusing (standing w).clock = true := all 0 (one ▸ Nat.one_pos)
      cases refused

/-! ## A save whose last word changes pools -/

/-- Every save whose last word is the first to meet a full page is misjudged. -/
theorem last_word_misjudged (idle : Idle nvmBank m w) {n : Nat} (words : numWords (record 0) = n + 1)
    (small : n < nvmBank.capacity) (full : w.var.nbWrittenElements + n = nvmBank.capacity) :
    ¬ Verdict quiet record w := by
  rw [(save_judged quiet_honest (by omega) (idle.inOrder rfl)).2, words]
  exact full_misjudged quiet_free n 0 full (idle_standing idle).2

def twoRecords : History := [(quiet, .erase), (quiet, .write fun _ => 2024), (quiet, .write fun _ => 4)]

/-- The second word of the second record meets a full page: both words are stored and read back,
and the save returns false. -/
theorem last_word_changes_pool : ¬ Truthful twoRecords (powerUp fun _ => eeErased) := by
  intro holds
  rcases holds with ⟨_, _, truthful, _⟩
  rcases blank_saved (fun _ => 2024) (by decide) with ⟨idle, count⟩
  apply last_word_misjudged idle (n := 1) (by decide) (by decide) _ (truthful _ rfl)
  rw [count]
  decide

end Baelux.Nvm

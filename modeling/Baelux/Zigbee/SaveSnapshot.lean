import Baelux.Zigbee.SaveWait

/-! One save, from the length that the stack reports to the last word written: no other
save disturbs the cache on the way, so the record is one snapshot. -/

namespace Baelux.Zigbee.Saves

open Effect Nesting Flash Eeprom Nvm

variable {env : Env} {s₀ s t : State} {A : State → Prop}

/-! ## The assertions -/

structure Running (s₀ s : State) : Prop where
  alone : Alone s₀ s
  cleaning : s.history.saving = 0 → s.history.cleaning = 0
  erasing : s.history.saving ≠ 0 → s.history.erasing ≠ 0

theorem running_open (s₀ : State) : Open (Running s₀) where
  cleaning := fun _ running => running.cleaning
  erasing := fun _ running => running.erasing
  alone := by
    intro s t running alone
    refine ⟨running.alone.trans alone, ?_, ?_⟩
    · rw [alone.saving, alone.cleaning]
      exact running.cleaning
    · rw [alone.saving, alone.erasing]
      exact running.erasing

/-- A task that may save: no erase is waited for, so no save is in progress. -/
structure Unerased (s₀ s : State) : Prop where
  running : Running s₀ s
  erasing : s.history.erasing = 0

theorem unerased_open (s₀ : State) : Open (Unerased s₀) where
  cleaning := fun _ unerased => unerased.running.cleaning
  erasing := fun _ unerased => unerased.running.erasing
  alone := fun s t unerased alone =>
    ⟨(running_open s₀).alone s t unerased.running alone, alone.erasing.trans unerased.erasing⟩

structure During (s₀ : State) (cleaning erasing : Nat) (D : Contents → Prop) (s : State) : Prop where
  unsaved : s₀.history.saving = 0
  uncleaned : s₀.history.cleaning = 0
  unerased : s₀.history.erasing = 0
  saving : s.history.saving = 1
  cleaning : s.history.cleaning = cleaning
  erasing : s.history.erasing = erasing
  data : D (contents s)

variable {D D' : Contents → Prop} {cleaning erasing : Nat}

theorem During.seen (during : During s₀ cleaning erasing D s) (same : view t = view s) :
    During s₀ cleaning erasing D t where
  unsaved := during.unsaved
  uncleaned := during.uncleaned
  unerased := during.unerased
  saving := (congrArg View.saving same).trans during.saving
  cleaning := (congrArg View.cleaning same).trans during.cleaning
  erasing := (congrArg View.erasing same).trans during.erasing
  data := by
    have unchanged : contents t = contents s := congrArg View.contents same
    exact unchanged ▸ during.data

theorem During.mono (during : During s₀ cleaning erasing D s) (data : D' (contents s)) :
    During s₀ cleaning erasing D' s :=
  { during with data := data }

theorem during_kept (s₀ : State) (cleaning erasing : Nat) (D : Contents → Prop) :
    Kept (During s₀ cleaning erasing D) where
  cleaning := by
    intro s during idle
    rw [during.saving] at idle
    cases idle
  alone := by
    intro s t during alone
    apply during.seen (alone.data _)
    rw [during.saving]
    decide

structure Fetched (length : Data) (v : Contents) : Prop where
  first : v.snapshot 0 = length
  short : length.toNat ≤ stPersistMaxAllocSz
  words : ∀ i, 0 < i → i ≤ (length.toNat + 3) / 4 → v.cache i = v.snapshot i

structure Cached (v : Contents) : Prop where
  short : (v.snapshot 0).toNat ≤ stPersistMaxAllocSz
  words : ∀ i < numWords (v.snapshot 0), v.cache i = v.snapshot i

structure Taken (n k : Nat) (v : Contents) : Prop where
  cached : Cached v
  count : numWords (v.snapshot 0) = n
  written : v.written = words v.snapshot k

def Whole (v : Contents) : Prop := v.written = words v.snapshot (numWords (v.snapshot 0))

theorem word_fetched {length : Data} (short : length.toNat ≤ stPersistMaxAllocSz) {i : Nat}
    (inside : i < numWords length) : i ≤ (length.toNat + 3) / 4 := by
  have bytes : stPersistMaxAllocSz = 4000 := rfl
  unfold numWords at inside
  split at inside <;> omega

theorem words_succ (snapshot : Nat → Data) (k : Nat) :
    words snapshot (k + 1) = words snapshot k ++ [(k + zigbeeDbStartAddr, snapshot k)] := by
  simp [words, List.range_succ]

/-! ## Calls to the stack -/

theorem Kept.runs_wait (kept : Kept A) {event : SeqEvent} (stack : ¬ admitsAll (some event)) :
    Runs env A (utilSeqWaitEvt event) fun _ => A :=
  triple_retains kept.stable ((Prog.only_call _).mpr (kept.stack stack))

theorem runs_stackCall {request : Request} {B : request.Answer → State → Prop} (kept : Kept A)
    (kept' : ∀ answer, Kept (B answer))
    (step : ∀ s choice answer t, A s → performTransfer request choice s = some (answer, t) →
      B answer t) :
    Runs env A (stackCall request) B := by
  apply triple_bind (kept.runs_wait id)
  intro _
  have transferred : Runs env A (call (.transfer request)) B := by
    apply runs_call (.transfer request) kept kept'
    exact fun s holds => ⟨trivial, fun choice answer t done _ => step s choice answer t holds done⟩
  apply triple_bind transferred
  intro answer
  apply triple_bind ((kept' answer).runs_wait id)
  intro _
  exact triple_pure (kept' answer).stable fun s holds => holds

theorem runs_zbPersistGet_length (kept : Kept A) (maxlen : Data) :
    Runs env A (zbPersistGet false maxlen) fun _ => A := by
  apply runs_stackCall kept (fun _ => kept)
  intro s choice answer t holds done
  rcases Option.bind_eq_some_iff.mp done with ⟨_, _, done⟩
  obtain rfl := answered_state done
  exact holds

theorem fill_fetched (during : During s₀ 0 0 D s) {length : Data} (data : Nat → Data)
    (short : length.toNat ≤ stPersistMaxAllocSz) :
    During s₀ 0 0 (Fetched length) (s.fillCache length data) where
  unsaved := during.unsaved
  uncleaned := during.uncleaned
  unerased := during.unerased
  saving := during.saving
  cleaning := during.cleaning
  erasing := during.erasing
  data := by
    refine ⟨rfl, short, fun i positive inside => ?_⟩
    have later : i ≠ 0 := Nat.ne_of_gt positive
    simp only [contents, State.fillCache, if_pos (And.intro positive inside), if_neg later]

theorem runs_zbPersistGet_data (maxlen : Data) (short : maxlen.toNat ≤ stPersistMaxAllocSz) :
    Runs env (During s₀ 0 0 D) (zbPersistGet true maxlen) fun length =>
      During s₀ 0 0 (Fetched length) := by
  apply runs_stackCall (during_kept s₀ 0 0 D) (fun _ => during_kept s₀ 0 0 _)
  intro s choice answer t during done
  rcases Option.bind_eq_some_iff.mp done with ⟨_, _, done⟩
  rcases Option.ite_none_right_eq_some.mp done with ⟨fits, done⟩
  rcases Prod.mk.inj (Option.some.inj done) with ⟨rfl, rfl⟩
  exact fill_fetched during _ (Nat.le_trans fits short)

/-! ## Storage programs on the sequencer -/

theorem onStorage_bind {α β : Type} (program : Storage α) (rest : α → Storage β) :
    onStorage (program >>= rest) = onStorage program >>= fun value => onStorage (rest value) :=
  Prog.translate_bind (S := storage) (T := waiting appSig SeqEvent) storageCall program rest

theorem stores_bind {α β : Type} {program : Storage α} {rest : α → Storage β}
    {M : α → State → Prop} {B : β → State → Prop} (first : Runs env A (onStorage program) M)
    (second : ∀ value, Runs env (M value) (onStorage (rest value)) B) :
    Runs env A (onStorage (program >>= rest)) B := by
  rw [onStorage_bind]
  exact triple_bind first second

theorem stores_pure {α : Type} {value : α} {B : α → State → Prop} (kept : Kept A)
    (result : ∀ s, A s → B value s) : Runs env A (onStorage (pure value)) B :=
  triple_pure kept.stable result

theorem stores_ite {α : Type} {c : Prop} [Decidable c] {first second : Storage α}
    {B : α → State → Prop} (yes : c → Runs env A (onStorage first) B)
    (no : ¬ c → Runs env A (onStorage second) B) :
    Runs env A (onStorage (if c then first else second)) B := by
  by_cases chosen : c
  · rw [if_pos chosen]
    exact yes chosen
  · rw [if_neg chosen]
    exact no chosen

theorem stores_issue (c : Call) {B : Flash.Answer c → State → Prop} (kept : Kept A)
    (kept' : ∀ answer, Kept (B answer)) (direct : onStorage (issue c) = call (.storage c))
    (step : ∀ s, A s → SingleWriter (.storage c) s ∧
      B (handle env c s.world).1 (s.storage (handle env c s.world).2 c)) :
    Runs env A (onStorage (issue c)) B := by
  rw [direct]
  apply runs_call (.storage c) kept kept'
  intro s holds
  rcases step s holds with ⟨allowed, after⟩
  refine ⟨allowed, fun choice answer t done _ => ?_⟩
  rcases Prod.mk.inj (Option.some.inj done) with ⟨rfl, rfl⟩
  exact after

theorem plain_view {c : Call} (plain : Plain c) (s : State) :
    view (s.storage (handle env c s.world).2 c) = view s := by
  cases c with
  | setCache index data => exact plain.elim
  | eraseActivity on => exact plain.elim
  | enter point => exact plain.elim
  | leave point => exact plain.elim
  | halFlashProgram address data =>
    simp only [handle, World.operate]
    split <;> rfl
  | halFlashErase page =>
    simp only [handle, World.operate]
    split <;> rfl
  | _ => rfl

theorem Kept.stores_plain (kept : Kept A) {c : Call} (plain : Plain c) :
    Runs env A (storageCall c) fun _ => A := by
  have direct : storageCall c = call (.storage c) := by
    cases c with
    | eraseActivity on => exact plain.elim
    | _ => rfl
  rw [direct]
  apply triple_own kept.stable (fun _ => kept.stable)
  intro s holds
  refine ⟨?_, fun choice answer t done _ => ?_⟩
  · cases c with
    | enter point => exact plain.elim
    | _ => trivial
  · obtain rfl := answered_state done
    exact kept.seen holds (plain_view plain s)

theorem Kept.stores (kept : Kept A) {α : Type} {program : Storage α} (only : program.Only Plain) :
    Runs env A (onStorage program) fun _ => A :=
  triple_translate kept.stable only fun _ => kept.stores_plain

/-- The wait of an erase activity command, inside which other tasks run. -/
theorem stores_eraseActivity (on : Bool) :
    Runs env (During s₀ 1 0 D) (storageCall (.eraseActivity on)) fun _ => During s₀ 1 0 D := by
  have asked : Runs env (During s₀ 1 0 D) (call (.storage (.eraseActivity on)))
      fun _ => During s₀ 1 1 D := by
    apply triple_own (during_kept s₀ 1 0 D).stable (fun _ => (during_kept s₀ 1 1 D).stable)
    intro s during
    refine ⟨trivial, fun choice answer t done _ => ?_⟩
    obtain rfl := answered_state done
    exact { during with erasing := congrArg (· + 1) during.erasing }
  apply triple_bind asked
  intro _
  apply triple_wait (during_kept s₀ 1 0 D).stable
  intro s during
  have between : Between (some .systemHciCmdEvtResp) s := by
    refine ⟨(during_kept s₀ 1 1 D).cleaning s during, fun _ _ => ?_⟩
    rw [during.erasing]
    decide
  refine ⟨between, fun t alone _ => ?_⟩
  have after := (during_kept s₀ 1 1 D).alone s t during alone
  exact { after with erasing := congrArg (· - 1) after.erasing }

/-! ## Writing and cleaning -/

theorem stores_eeeWrite {n k : Nat} (data : Data) :
    Runs env (During s₀ 0 0 fun v => Taken n k v ∧ v.snapshot k = data)
      (onStorage (eeeWrite (k + zigbeeDbStartAddr) data)) fun _ => During s₀ 0 0 (Taken n (k + 1)) := by
  have kept := during_kept s₀ 0 0 (Taken n (k + 1))
  apply stores_bind (M := fun _ => During s₀ 0 0 (Taken n (k + 1)))
  · apply stores_issue (.enter (.eeeWrite _ data)) (during_kept s₀ 0 0 _) (fun _ => kept) rfl
    intro s during
    rcases during.data with ⟨taken, word⟩
    refine ⟨during.cleaning, { during with data := ⟨⟨taken.cached.short, taken.cached.words⟩, taken.count, ?_⟩ }⟩
    change s.history.written ++ [(k + zigbeeDbStartAddr, data)] = words s.history.snapshot (k + 1)
    rw [words_succ, ← word]
    exact congrArg (· ++ _) taken.written
  intro _
  apply stores_bind (M := fun _ => During s₀ 0 0 (Taken n (k + 1)))
  · exact kept.stores (driven_writeBody _ data).plain
  intro status
  apply stores_bind (M := fun _ => During s₀ 0 0 (Taken n (k + 1)))
  · apply stores_issue (.leave (.eeeWrite _ data)) kept (fun _ => kept) rfl
    exact fun s during => ⟨trivial, during.seen rfl⟩
  intro _
  exact stores_pure kept fun s during => during

theorem stores_eeeClean :
    Runs env (During s₀ 0 0 D) (onStorage eeeClean) fun _ => During s₀ 0 0 D := by
  have kept := during_kept s₀ 0 0 D
  have kept' := during_kept s₀ 1 0 D
  apply stores_bind (M := fun _ => During s₀ 1 0 D)
  · apply stores_issue (.enter .eeeClean) kept (fun _ => kept') rfl
    intro s during
    exact ⟨trivial, { during with cleaning := congrArg (· + 1) during.cleaning }⟩
  intro _
  apply stores_bind (M := fun _ => During s₀ 1 0 D)
  · apply triple_translate kept'.stable driven_cleanBody.erasing
    intro c erasing
    cases c with
    | eraseActivity on => exact stores_eraseActivity on
    | _ => exact kept'.stores_plain erasing
  intro status
  apply stores_bind (M := fun _ => During s₀ 0 0 D)
  · apply stores_issue (.leave .eeeClean) kept' (fun _ => kept) rfl
    intro s during
    exact ⟨trivial, { during with cleaning := congrArg (· - 1) during.cleaning }⟩
  intro _
  exact stores_pure kept fun s during => during

/-! ## The save -/

def Looped (status : Status) (v : Contents) : Prop := status = .ok → Whole v

theorem stores_writeLoop {n k : Nat} (remaining : Nat) (status : Status) (all : k + remaining = n) :
    Runs env (During s₀ 0 0 (Taken n k)) (onStorage (Nvm.writeLoop remaining k status))
      fun status => During s₀ 0 0 (Looped status) := by
  induction remaining generalizing k status with
  | zero =>
    refine stores_pure (during_kept s₀ 0 0 _) fun s during => during.mono fun _ => ?_
    rw [Whole, during.data.count, ← all]
    exact during.data.written
  | succ remaining ih =>
    have rest : ∀ status, Runs env (During s₀ 0 0 (Taken n (k + 1)))
        (onStorage (Nvm.writeLoop remaining (k + 1) status)) fun status => During s₀ 0 0 (Looped status) :=
      fun status => ih status (by omega)
    apply stores_bind (M := fun data => During s₀ 0 0 fun v => Taken n k v ∧ v.snapshot k = data)
    · apply stores_issue (.getCache k) (during_kept s₀ 0 0 _) (fun _ => during_kept s₀ 0 0 _) rfl
      intro s during
      have taken := during.data
      refine ⟨trivial, during.mono ⟨taken, ?_⟩⟩
      have inside : k < numWords (s.history.snapshot 0) := by
        have count : numWords (s.history.snapshot 0) = n := taken.count
        omega
      exact (taken.cached.words k inside).symm
    intro data
    apply stores_bind (stores_eeeWrite data)
    intro status
    apply stores_ite (fun _ => rest status)
    intro failed
    apply stores_ite
    · intro _
      apply stores_bind stores_eeeClean
      exact fun _ => rest status
    · intro _
      refine stores_pure (during_kept s₀ 0 0 _) fun s during => during.mono ?_
      exact fun ok => absurd ok failed

theorem stores_appZigbeeNvmWrite :
    Runs env (During s₀ 0 0 Cached) (onStorage appZigbeeNvmWrite)
      fun written => During s₀ 0 0 fun v => written = true → Whole v := by
  apply stores_bind (M := fun _ => During s₀ 0 0 fun v => Cached v ∧ v.written = [])
  · apply stores_issue (.enter .nvmWrite) (during_kept s₀ 0 0 _) (fun _ => during_kept s₀ 0 0 _) rfl
    intro s during
    have cached := during.data
    exact ⟨trivial, { during with data := ⟨⟨cached.short, cached.words⟩, rfl⟩ }⟩
  intro _
  apply stores_bind (M := fun written => During s₀ 0 0 fun v => written = true → Whole v)
  · apply stores_bind (M := fun length => During s₀ 0 0 (Taken (numWords length) 0))
    · apply stores_issue (.getCache 0) (during_kept s₀ 0 0 _) (fun _ => during_kept s₀ 0 0 _) rfl
      intro s during
      rcases during.data with ⟨cached, none⟩
      have first : s.world.cache 0 = s.history.snapshot 0 := cached.words 0 (numWords_pos cached.short)
      exact ⟨trivial, during.mono ⟨cached, congrArg numWords first.symm, none⟩⟩
    intro length
    apply stores_bind (stores_writeLoop _ _ (Nat.zero_add _))
    intro status
    refine stores_pure (during_kept s₀ 0 0 _) fun s during => during.mono ?_
    exact fun ok => during.data (of_decide_eq_true ok)
  intro written
  have kept := during_kept s₀ 0 0 fun v => written = true → Whole v
  apply stores_bind (M := fun _ => During s₀ 0 0 fun v => written = true → Whole v)
  · apply stores_issue (.leave .nvmWrite) kept (fun _ => kept) rfl
    exact fun s during => ⟨trivial, during.seen rfl⟩
  intro _
  exact stores_pure kept fun s during => during

theorem stores_setLength (length : Data) :
    Runs env (During s₀ 0 0 (Fetched length)) (onStorage (setCache 0 length))
      fun _ => During s₀ 0 0 Cached := by
  apply stores_issue (.setCache 0 length) (during_kept s₀ 0 0 _) (fun _ => during_kept s₀ 0 0 _) rfl
  intro s during
  rcases during.data with ⟨first, short, words⟩
  refine ⟨trivial, { during with data := ⟨?_, fun i inside => ?_⟩ }⟩
  · exact first ▸ short
  · change Function.update s.world.cache 0 length i = s.history.snapshot i
    by_cases start : i = 0
    · subst start
      rw [Function.update_self]
      exact first.symm
    · rw [Function.update_of_ne start]
      have bound : i < numWords length := first ▸ inside
      exact words i (Nat.pos_of_ne_zero start) (word_fetched short bound)

theorem runs_savePersistentData (length : Data) (short : length.toNat ≤ stPersistMaxAllocSz) :
    Runs env (During s₀ 0 0 D) (savePersistentData length)
      fun _ => During s₀ 0 0 fun _ => True := by
  have kept := during_kept s₀ 0 0 fun _ => True
  apply triple_bind (runs_zbPersistGet_data length short)
  intro length
  apply triple_bind (stores_setLength length)
  intro _
  apply triple_bind stores_appZigbeeNvmWrite
  intro written
  apply triple_ite
  · intro saved
    apply triple_bind (M := fun _ => During s₀ 0 0 fun _ => True)
    · apply runs_call (.appDbg .persistentDataFlashed) (during_kept s₀ 0 0 _) (fun _ => kept)
      intro s during
      refine ⟨during.data saved, fun choice answer t done _ => ?_⟩
      obtain rfl := answered_state done
      exact during.mono trivial
    intro _
    exact triple_pure kept.stable fun s during => during
  · intro _
    exact triple_pure (during_kept s₀ 0 0 _).stable fun s during => during.mono trivial

theorem save_entered (unerased : Unerased s₀ s) (point : Call)
    (enters : point = .enter .persistSave) :
    s.history.saving = 0 ∧ During s₀ 0 0 (fun _ => True) (s.storage s.world point) := by
  have idle : s.history.saving = 0 := by
    by_contra busy
    exact unerased.running.erasing busy unerased.erasing
  have clean := unerased.running.cleaning idle
  have alone := unerased.running.alone
  subst enters
  exact ⟨idle, alone.saving.symm.trans idle, alone.cleaning.symm.trans clean,
    alone.erasing.symm.trans unerased.erasing, congrArg (· + 1) idle, clean, unerased.erasing, trivial⟩

theorem save_left (during : During s₀ 0 0 D s) (world : World) :
    Unerased s₀ (s.storage world (.leave .persistSave)) := by
  have idle : (s.storage world (.leave .persistSave)).history.saving = 0 :=
    congrArg (· - 1) during.saving
  refine ⟨⟨⟨?_, ?_, ?_, ?_⟩, fun _ => during.cleaning, fun busy => absurd idle busy⟩, during.erasing⟩
  · exact idle.trans during.unsaved.symm
  · exact during.cleaning.trans during.uncleaned.symm
  · exact during.erasing.trans during.unerased.symm
  · exact fun busy => absurd during.unsaved busy

/-- The spec of `APP_ZIGBEE_persist_save`. -/
theorem runs_appZigbeePersistSave :
    Runs env (Unerased s₀) appZigbeePersistSave fun _ => Unerased s₀ := by
  have kept := during_kept s₀ 0 0 fun _ => True
  have opened := unerased_open s₀
  apply triple_bind (M := fun _ => During s₀ 0 0 fun _ => True)
  · apply runs_call (.storage (.enter .persistSave)) opened.toKept (fun _ => kept)
    intro s unerased
    rcases save_entered unerased _ rfl with ⟨idle, entered⟩
    refine ⟨idle, fun choice answer t done _ => ?_⟩
    obtain rfl := answered_state done
    exact entered
  intro _
  apply triple_bind (M := fun _ => During s₀ 0 0 fun _ => True)
  · apply triple_bind (M := fun _ => During s₀ 0 0 fun _ => True)
    · apply runs_call .clearCache kept (fun _ => kept)
      intro s during
      refine ⟨trivial, fun choice answer t done _ => ?_⟩
      obtain rfl := answered_state done
      exact { during with data := trivial }
    intro _
    apply triple_bind (runs_zbPersistGet_length kept 0)
    intro (length : Data)
    apply triple_ite
    · exact fun _ => triple_pure kept.stable fun s during => during
    intro _
    apply triple_ite
    · exact fun _ => triple_pure kept.stable fun s during => during
    · exact fun short => runs_savePersistentData length (Nat.le_of_not_lt short)
  intro saved
  apply triple_bind (M := fun _ => Unerased s₀)
  · apply runs_call (.storage (.leave .persistSave)) kept (fun _ => opened.toKept)
    intro s during
    refine ⟨trivial, fun choice answer t done _ => ?_⟩
    obtain rfl := answered_state done
    exact save_left during _
  intro _
  exact triple_pure opened.stable fun s unerased => unerased

end Baelux.Zigbee.Saves

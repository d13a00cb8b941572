import Baelux.Eeprom.Calls
import Baelux.Eeprom.Rules
import Baelux.Zigbee.AddressRecovery

/-! Every index that saving and restoring a record use on `cache_persistent_data`: the length
word in front of the data makes the longest records four bytes too long for it. -/

namespace Baelux.Zigbee

open Effect Flash Eeprom Nvm

/-- `U8_data[index]` or `U32_data[index]`. -/
inductive CacheUse where
  | byte (index : Nat)
  | word (index : Nat)
  deriving DecidableEq

def CacheUse.Inside : CacheUse → Prop
  | byte index => index < stPersistMaxAllocSz
  | word index => index < stPersistMaxAllocSz / 4

def AllInside (uses : List CacheUse) : Prop := ∀ use ∈ uses, use.Inside

/-- The bytes that a copy of `count` bytes to or from `U8_data[first]` touches. -/
def region (first count : Nat) : List CacheUse := (List.range' first count).map .byte

def cacheUse : Call → Option CacheUse
  | .getCache index => some (.word index)
  | .setCache index _ => some (.word index)
  | _ => none

def storageUses {α : Type} (env : Env) (program : Storage α) (w : World) : List CacheUse :=
  (calls (handle env) program w).filterMap cacheUse

/-- `U8_data` over the words of the cache, the first byte the lowest. -/
def bytesOf (cache : Nat → Data) (i : Nat) : BitVec 8 := (cache (i / 4)).extractLsb' (8 * (i % 4)) 8

/-- The bytes that one turn of `azcl_restore_nwk_addr` reads, and the new `is_fe`. -/
def restoreTurn (b : Nat → BitVec 8) (i : Nat) (isFe : Bool) : List CacheUse × Bool :=
  if isFe = false then ([.byte i], decide (b i = 0xFE))
  else if b i = 0xFF ∧ 3 < i then ([.byte i, .byte (i - 2), .byte (i - 3)], false)
  else ([.byte i], false)

def restoreUses (b : Nat → BitVec 8) : Nat → Nat → Bool → List CacheUse
  | 0, _, _ => []
  | remaining + 1, i, isFe =>
      (restoreTurn b i isFe).1 ++ restoreUses b remaining (i + 1) (restoreTurn b i isFe).2

def fetched (w : World) (n : Data) (data : Nat → Data) : World :=
  { w with cache := fun i => if i = 0 then n else data i }

/-- `APP_ZIGBEE_persist_save` with `n` bytes: `memset`, the check, `ZbPersistGet`, the length
word, `APP_ZIGBEE_NVM_Write` and, if it succeeds, `azcl_restore_nwk_addr`. -/
def persistSaveUses (env : Env) (w : World) (n : Data) (data : Nat → Data) : List CacheUse :=
  let ended := run (handle env) appZigbeeNvmWrite (fetched w n data)
  region 0 stPersistMaxAllocSz ++
    if n = 0 ∨ stPersistMaxAllocSz < n.toNat then []
    else
      region 4 n.toNat ++ [.word 0] ++ storageUses env appZigbeeNvmWrite (fetched w n data) ++
        if ended.1 then .word 0 :: restoreUses (bytesOf ended.2.cache) (n + 4).toNat 0 false else []

/-- How far below `len` the trace in `APP_ZIGBEE_ZbStartupPersist` reads. -/
def traceOffsets : List Data := [9, 10, 7, 8, 6, 4, 5, 2, 3, 1]

/-- The trace; `len` is an unsigned word. -/
def traceUses (length : Data) : List CacheUse :=
  [.word 0] ++ traceOffsets.map fun offset => .byte (length + 4 - offset).toNat

/-- `APP_ZIGBEE_ZbStartupPersist`; `started` is whether `ZbStartupPersist` returns success. -/
def startupPersistUses (env : Env) (w : World) (started : Bool) : List CacheUse :=
  let ended := run (handle env) appZigbeeNvmRead w
  storageUses env appZigbeeNvmRead w ++
    if ended.1 then
      region 4 (ended.2.cache 0).toNat ++ [.word 0] ++
        if started then traceUses (ended.2.cache 0) else []
    else []

def recordRoom : Nat := stPersistMaxAllocSz - 4

structure WholeRecord (w : World) (n : Data) : Prop where
  length : readBack w zigbeeDbStartAddr = some n
  nonzero : n ≠ 0
  accepted : n.toNat ≤ stPersistMaxAllocSz
  words : ∀ j, 0 < j → j < numWords n → readBack w (j + zigbeeDbStartAddr) ≠ none

variable {env : Env} {w : World} {n : Data} {uses others : List CacheUse}

/-! ## Lists of uses -/

theorem allInside_append : AllInside (uses ++ others) ↔ AllInside uses ∧ AllInside others :=
  List.forall_mem_append

theorem allInside_word_zero : AllInside [.word 0] := by
  intro use member
  rw [List.mem_singleton.mp member]
  show 0 < stPersistMaxAllocSz / 4
  decide

theorem region_inside {first count : Nat} (fits : first + count ≤ stPersistMaxAllocSz) :
    AllInside (region first count) := by
  intro use member
  rcases List.mem_map.mp member with ⟨i, inside, rfl⟩
  rw [List.mem_range'_1] at inside
  exact Nat.lt_of_lt_of_le inside.2 fits

theorem region_fits {first count : Nat} (some_byte : 0 < count)
    (inside : AllInside (region first count)) : first + count ≤ stPersistMaxAllocSz := by
  have last : CacheUse.byte (first + count - 1) ∈ region first count := by
    apply List.mem_map_of_mem
    rw [List.mem_range'_1]
    omega
  have bound : first + count - 1 < stPersistMaxAllocSz := inside _ last
  omega

theorem region_record (fits : n.toNat ≤ recordRoom) : AllInside (region 4 n.toNat) := by
  have room : recordRoom = 3996 := rfl
  have size : stPersistMaxAllocSz = 4000 := rfl
  apply region_inside
  omega

theorem restoreTurn_inside (b : Nat → BitVec 8) {i : Nat} (inside : i < stPersistMaxAllocSz)
    (isFe : Bool) : AllInside (restoreTurn b i isFe).1 := by
  have here : AllInside [.byte i] := by
    intro use member
    rw [List.mem_singleton.mp member]
    exact inside
  unfold restoreTurn
  split
  · exact here
  split
  · intro use member
    simp only [List.mem_cons, List.not_mem_nil, or_false] at member
    rcases member with rfl | rfl | rfl
    · exact inside
    · exact Nat.lt_of_le_of_lt (Nat.sub_le i 2) inside
    · exact Nat.lt_of_le_of_lt (Nat.sub_le i 3) inside
  · exact here

theorem restoreUses_inside (b : Nat → BitVec 8) {remaining i : Nat}
    (inside : i + remaining ≤ stPersistMaxAllocSz) (isFe : Bool) :
    AllInside (restoreUses b remaining i isFe) := by
  induction remaining generalizing i isFe with
  | zero =>
    intro use member
    cases member
  | succ remaining ih =>
    apply allInside_append.mpr
    exact ⟨restoreTurn_inside b (by omega) isFe, ih (by omega) _⟩

/-! ## The storage programs -/

def WithinCache (c : Call) : Prop := ∀ use, cacheUse c = some use → use.Inside

theorem storageUses_inside {α : Type} {program : Storage α} :
    AllInside (storageUses env program w) ↔
      wp (handle env) (fun c _ => WithinCache c) (fun _ _ => True) program w := by
  rw [wp_calls]
  constructor
  · intro inside c called use named
    exact inside use (List.mem_filterMap.mpr ⟨c, called, named⟩)
  · intro within use member
    rcases List.mem_filterMap.mp member with ⟨c, called, named⟩
    exact within c called use named

theorem driven_within {α : Type} (erases : Prop) {program : Storage α}
    (driven : Driven erases program) : program.Only WithinCache := by
  apply driven.only
  · intro c made use named
    cases c with
    | getCache index => exact made.elim
    | setCache index data => exact made.elim
    | _ => cases named
  · intro c here use named
    cases c with
    | getCache index => exact here.elim
    | setCache index data => exact here.elim
    | _ => cases named

variable {R : Option Data → World → Prop} {k remaining : Nat}

theorem wp_eeeRead_within (addr : Nat) : wp (handle env) (fun c _ => WithinCache c) R (eeeRead addr) w ↔
    R (readBack w addr) w := by
  have only : (eeeRead addr).Only WithinCache := by
    apply driven_within False
    apply (Driven.issue (by trivial)).bind
    intro (pv : EeVar)
    exact driven_eeReadEl addr pv.currentWritePage
  constructor
  · intro reads
    have result := wp_run reads
    rwa [run_eeeRead] at result
  · intro result
    apply only.allowed
    rwa [run_eeeRead]

theorem wp_readLoop_present {R : Bool → World → Prop} {data : Data}
    (there : readBack w (k + zigbeeDbStartAddr) = some data) :
    wp (handle env) (fun c _ => WithinCache c) R (readLoop (remaining + 1) k) w ↔
      k < stPersistMaxAllocSz / 4 ∧ wp (handle env) (fun c _ => WithinCache c) R
        (readLoop remaining (k + 1)) { w with cache := Function.update w.cache k data } := by
  rw [readLoop, wp_bind, wp_eeeRead_within, there]
  show wp _ _ _ (setCache k data >>= _) w ↔ _
  rw [wp_bind, wp_setCache]
  apply and_congr_left
  intro _
  constructor
  · intro here
    exact here (.word k) rfl
  · intro inside use named
    cases named
    exact inside

theorem wp_readLoop_missing {R : Bool → World → Prop}
    (missing : readBack w (k + zigbeeDbStartAddr) = none) :
    wp (handle env) (fun c _ => WithinCache c) R (readLoop (remaining + 1) k) w ↔ R false w := by
  rw [readLoop, wp_bind, wp_eeeRead_within, missing]
  rfl

theorem wp_readLoop_whole (start : 0 < k) (fits : k + remaining ≤ stPersistMaxAllocSz / 4)
    (whole : ∀ j, k ≤ j → j < k + remaining → readBack w (j + zigbeeDbStartAddr) ≠ none) :
    wp (handle env) (fun c _ => WithinCache c) (fun found t => found = true ∧ t.cache 0 = w.cache 0)
      (readLoop remaining k) w := by
  induction remaining generalizing k w with
  | zero => exact ⟨rfl, rfl⟩
  | succ remaining ih =>
    rcases Option.ne_none_iff_exists'.mp (whole k (Nat.le_refl k) (by omega)) with ⟨data, there⟩
    rw [wp_readLoop_present there]
    refine ⟨Nat.lt_of_lt_of_le (by omega) fits, ?_⟩
    have later := ih (w := { w with cache := Function.update w.cache k data }) (Nat.succ_pos k)
      (by omega) fun j low high => whole j (by omega) (by omega)
    apply wp_post later
    intro found t ended
    refine ⟨ended.1, ended.2.trans ?_⟩
    exact Function.update_of_ne (Nat.ne_of_lt start) _ _

theorem wp_readLoop_stops (fits : k + remaining ≤ stPersistMaxAllocSz / 4 + 1)
    (missing : ∃ j, k ≤ j ∧ j < k + remaining ∧ readBack w (j + zigbeeDbStartAddr) = none) :
    wp (handle env) (fun c _ => WithinCache c) (fun found _ => found = false)
      (readLoop remaining k) w := by
  rcases missing with ⟨j, low, high, missing⟩
  induction remaining generalizing k w with
  | zero => omega
  | succ remaining ih =>
    cases there : readBack w (k + zigbeeDbStartAddr) with
    | none => exact (wp_readLoop_missing there).mpr rfl
    | some data =>
      have later : k ≠ j := by
        intro same
        subst same
        rw [there] at missing
        cases missing
      rw [wp_readLoop_present there]
      exact ⟨by omega, ih (by omega) (by omega) (by omega) missing⟩

/-- A whole record that does not fit is read past the end of the cache. -/
theorem readLoop_outside {R : Bool → World → Prop} (low : k ≤ stPersistMaxAllocSz / 4)
    (long : stPersistMaxAllocSz / 4 < k + remaining)
    (whole : ∀ j, k ≤ j → j < k + remaining → readBack w (j + zigbeeDbStartAddr) ≠ none) :
    ¬ wp (handle env) (fun c _ => WithinCache c) R (readLoop remaining k) w := by
  induction remaining generalizing k w with
  | zero => omega
  | succ remaining ih =>
    rcases Option.ne_none_iff_exists'.mp (whole k (Nat.le_refl k) (by omega)) with ⟨data, there⟩
    rw [wp_readLoop_present there]
    intro reads
    have inside := reads.1
    apply ih (k := k + 1) (w := { w with cache := Function.update w.cache k data }) _ _ _ reads.2
    · omega
    · omega
    · exact fun j low high => whole j (by omega) (by omega)

theorem only_writeLoop {status : Status} (fits : k + remaining ≤ stPersistMaxAllocSz / 4) :
    (writeLoop remaining k status).Only WithinCache := by
  induction remaining generalizing k status with
  | zero => exact Prog.only_pure status
  | succ remaining ih =>
    have reads : (getCache k).Only WithinCache := by
      apply (@Prog.only_call storage WithinCache _).mpr
      intro use named
      cases named
      exact Nat.lt_of_lt_of_le (by omega) fits
    have writes : ∀ data, (eeeWrite (k + zigbeeDbStartAddr) data).Only WithinCache := by
      intro data
      exact only_traced nofun nofun (driven_within False (driven_writeBody _ data))
    have cleans : eeeClean.Only WithinCache :=
      only_traced nofun nofun (driven_within True driven_cleanBody)
    apply reads.bind
    intro (data : Data)
    apply (writes data).bind
    intro ended
    apply Prog.Only.ite (ih (by omega))
    apply Prog.Only.ite _ (Prog.only_pure ended)
    exact cleans.bind fun _ => ih (by omega)

/-! ## The longest record that fits -/

theorem numWords_fits (fits : n.toNat ≤ recordRoom) : numWords n ≤ stPersistMaxAllocSz / 4 := by
  have room : recordRoom = 3996 := rfl
  have size : stPersistMaxAllocSz = 4000 := rfl
  unfold numWords
  split <;> omega

theorem numWords_long (accepted : n.toNat ≤ stPersistMaxAllocSz) (long : ¬ n.toNat ≤ recordRoom) :
    numWords n = stPersistMaxAllocSz / 4 + 1 := by
  have room : recordRoom = 3996 := rfl
  have size : stPersistMaxAllocSz = 4000 := rfl
  unfold numWords
  split <;> omega

theorem length_fits (fits : n.toNat ≤ recordRoom) : (n + 4).toNat ≤ stPersistMaxAllocSz := by
  have room : recordRoom = 3996 := rfl
  have size : stPersistMaxAllocSz = 4000 := rfl
  rw [BitVec.toNat_add, show (4 : Data).toNat = 4 from rfl]
  omega

theorem traceUses_inside (fits : n.toNat ≤ recordRoom) :
    AllInside (traceUses n) ↔ 6 ≤ n.toNat := by
  have room : recordRoom = 3996 := rfl
  have size : stPersistMaxAllocSz = 4000 := rfl
  have inside : ∀ offset : Data, 0 < offset.toNat → offset.toNat ≤ 10 →
      ((n + 4 - offset).toNat < stPersistMaxAllocSz ↔ offset.toNat ≤ n.toNat + 4) := by
    intro offset low high
    rw [BitVec.toNat_sub, BitVec.toNat_add, show (4 : Data).toNat = 4 from rfl]
    omega
  have offsets : ∀ offset ∈ traceOffsets, 0 < offset.toNat ∧ offset.toNat ≤ 10 := by
    simp [traceOffsets]
  constructor
  · intro all
    have lowest : CacheUse.byte (n + 4 - 10).toNat ∈ traceUses n := by
      apply List.mem_append_right
      exact List.mem_map_of_mem (f := fun offset => CacheUse.byte (n + 4 - offset).toNat) (by decide)
    have bound := (inside 10 (by decide) (by decide)).mp (all _ lowest)
    have ten : (10 : Data).toNat = 10 := rfl
    omega
  · intro long
    apply allInside_append.mpr
    refine ⟨allInside_word_zero, ?_⟩
    intro use member
    rcases List.mem_map.mp member with ⟨offset, listed, rfl⟩
    have bounds := offsets offset listed
    exact (inside offset bounds.1 bounds.2).mpr (by omega)

/-! ## Saving -/

theorem appZigbeeNvmWrite_inside (fits : n.toNat ≤ recordRoom) (data : Nat → Data) :
    AllInside (storageUses env appZigbeeNvmWrite (fetched w n data)) := by
  rw [storageUses_inside, appZigbeeNvmWrite, wp_traced]
  refine ⟨nofun, ?_⟩
  rw [wp_bind, wp_getCache]
  constructor
  · intro use named
    cases named
    exact allInside_word_zero _ (List.mem_singleton_self _)
  rw [wp_bind]
  apply (only_writeLoop _).allowed
  · exact ⟨nofun, trivial⟩
  · rw [Nat.zero_add]
    exact numWords_fits fits

theorem persistSaveUses_inside (some_data : n ≠ 0) (accepted : n.toNat ≤ stPersistMaxAllocSz)
    (data : Nat → Data) : AllInside (persistSaveUses env w n data) ↔ n.toNat ≤ recordRoom := by
  have room : recordRoom = 3996 := rfl
  have size : stPersistMaxAllocSz = 4000 := rfl
  have cleared : AllInside (region 0 stPersistMaxAllocSz) :=
    region_inside (Nat.le_of_eq (Nat.zero_add _))
  have saved : ¬ (n = 0 ∨ stPersistMaxAllocSz < n.toNat) := by
    rintro (zero | long)
    · exact some_data zero
    · exact absurd accepted (Nat.not_le.mpr long)
  unfold persistSaveUses
  simp only [if_neg saved, allInside_append]
  constructor
  · intro inside
    have positive : 0 < n.toNat := by
      apply Nat.pos_of_ne_zero
      intro zero
      exact some_data (BitVec.eq_of_toNat_eq zero)
    have bound := region_fits positive inside.2.1.1.1
    omega
  · intro fits
    have copied := And.intro (region_record fits) allInside_word_zero
    refine ⟨cleared, ⟨copied, appZigbeeNvmWrite_inside fits data⟩, ?_⟩
    split
    · show AllInside ([.word 0] ++ _)
      apply allInside_append.mpr
      refine ⟨allInside_word_zero, restoreUses_inside _ ?_ false⟩
      rw [Nat.zero_add]
      exact length_fits fits
    · exact nofun

/-! ## Loading -/

theorem numWords_accepted (accepted : n.toNat ≤ stPersistMaxAllocSz) :
    numWords n ≤ stPersistMaxAllocSz / 4 + 1 := by
  by_cases fits : n.toNat ≤ recordRoom
  · exact Nat.le_succ_of_le (numWords_fits fits)
  · exact Nat.le_of_eq (numWords_long accepted fits)

theorem wp_appZigbeeNvmRead_within {R : Bool → World → Prop} :
    wp (handle env) (fun c _ => WithinCache c) R appZigbeeNvmRead w ↔
      match readBack w zigbeeDbStartAddr with
      | none => R false { w with unlocked := false }
      | some length =>
        if length = 0 ∨ stPersistMaxAllocSz < length.toNat then
          R false { w with unlocked := false, cache := Function.update w.cache 0 length }
        else wp (handle env) (fun c _ => WithinCache c)
          (fun found t => R found { t with unlocked := false })
          (readLoop (numWords length - 1) 1)
          { w with unlocked := true, cache := Function.update w.cache 0 length } := by
  have zero_inside (length : Data) : WithinCache (.setCache 0 length) := by
    intro use named
    cases named
    exact allInside_word_zero _ (List.mem_singleton_self _)
  have unlocks : WithinCache .halFlashUnlock := nofun
  have locks : WithinCache .halFlashLock := nofun
  rw [appZigbeeNvmRead, wp_bind, wp_halFlashUnlock, and_iff_right unlocks, wp_bind, wp_eeeRead_within]
  have same : readBack { w with unlocked := true } zigbeeDbStartAddr = readBack w zigbeeDbStartAddr :=
    rfl
  rw [same]
  cases readBack w zigbeeDbStartAddr with
  | none => simp [locks]
  | some length =>
    simp only [wp_bind, wp_setCache, zero_inside, true_and]
    split
    · simp [locks]
    · simp [locks]

section Whole

variable {m : Data} (whole : WholeRecord w m)
include whole

theorem wp_read_whole {R : Bool → World → Prop} :
    wp (handle env) (fun c _ => WithinCache c) R appZigbeeNvmRead w ↔
      wp (handle env) (fun c _ => WithinCache c) (fun found t => R found { t with unlocked := false })
        (readLoop (numWords m - 1) 1)
        { w with unlocked := true, cache := Function.update w.cache 0 m } := by
  have short : ¬ (m = 0 ∨ stPersistMaxAllocSz < m.toNat) := by
    rintro (zero | long)
    · exact whole.nonzero zero
    · exact absurd whole.accepted (Nat.not_le.mpr long)
  rw [wp_appZigbeeNvmRead_within, whole.length]
  simp only [if_neg short]

theorem numWords_split : 1 + (numWords m - 1) = numWords m :=
  Nat.add_sub_of_le (numWords_pos whole.accepted)

theorem reads_whole (fits : m.toNat ≤ recordRoom) :
    wp (handle env) (fun c _ => WithinCache c) (fun found t => found = true ∧ t.cache 0 = m)
      appZigbeeNvmRead w := by
  have total := numWords_split whole
  rw [wp_read_whole whole]
  apply wp_post (wp_readLoop_whole Nat.one_pos _ _)
  · intro found t ended
    exact ⟨ended.1, ended.2.trans (Function.update_self 0 m w.cache)⟩
  · rw [total]
    exact numWords_fits fits
  · intro j low high
    exact whole.words j low (total ▸ high)

theorem reads_long (long : ¬ m.toNat ≤ recordRoom) {R : Bool → World → Prop} :
    ¬ wp (handle env) (fun c _ => WithinCache c) R appZigbeeNvmRead w := by
  have total := numWords_split whole
  rw [wp_read_whole whole]
  apply readLoop_outside
  · decide
  · rw [total, numWords_long whole.accepted long]
    exact Nat.lt_succ_self _
  · intro j low high
    exact whole.words j low (total ▸ high)

end Whole

theorem reads_no_record (no_record : ∀ m, ¬ WholeRecord w m) :
    wp (handle env) (fun c _ => WithinCache c) (fun found _ => found = false) appZigbeeNvmRead w := by
  rw [wp_appZigbeeNvmRead_within]
  cases length : readBack w zigbeeDbStartAddr with
  | none => rfl
  | some m =>
    by_cases refused : m = 0 ∨ stPersistMaxAllocSz < m.toNat
    · simp only [if_pos refused]
    · have accepted : m.toNat ≤ stPersistMaxAllocSz :=
        Nat.not_lt.mp fun long => refused (Or.inr long)
      have total : 1 + (numWords m - 1) = numWords m := Nat.add_sub_of_le (numWords_pos accepted)
      simp only [if_neg refused]
      apply wp_readLoop_stops
      · rw [total]
        exact numWords_accepted accepted
      · by_contra found
        apply no_record m
        refine ⟨length, fun zero => refused (Or.inl zero), accepted, ?_⟩
        intro j low high missing
        exact found ⟨j, low, total.symm ▸ high, missing⟩

theorem startupPersistUses_inside (started : Bool) :
    AllInside (startupPersistUses env w started) ↔
      ∀ m, WholeRecord w m → m.toNat ≤ recordRoom ∧ (started = true → 6 ≤ m.toNat) := by
  unfold startupPersistUses
  rw [allInside_append, storageUses_inside]
  by_cases record : ∃ m, WholeRecord w m
  · rcases record with ⟨m, whole⟩
    have alone : (∀ n, WholeRecord w n → n.toNat ≤ recordRoom ∧ (started = true → 6 ≤ n.toNat)) ↔
        m.toNat ≤ recordRoom ∧ (started = true → 6 ≤ m.toNat) := by
      constructor
      · exact fun all => all m whole
      · intro holds n other
        have same : m = n := Option.some.inj (whole.length.symm.trans other.length)
        exact same ▸ holds
    rw [alone]
    by_cases fits : m.toNat ≤ recordRoom
    · have reads := @reads_whole env _ _ whole fits
      have ended := wp_run reads
      have within := wp_post reads fun found t _ => (trivial : (fun _ _ => True) found t)
      rw [and_iff_right within, and_iff_right fits, if_pos ended.1, ended.2]
      rw [allInside_append, allInside_append, and_iff_right ⟨region_record fits, allInside_word_zero⟩]
      cases started with
      | true =>
        rw [if_pos rfl, traceUses_inside fits]
        exact ⟨fun long _ => long, fun long => long rfl⟩
      | false => exact iff_of_true nofun nofun
    · constructor
      · intro inside
        exact absurd inside.1 (reads_long whole fits)
      · intro holds
        exact absurd holds.1 fits
  · have none_whole : ∀ m, ¬ WholeRecord w m := not_exists.mp record
    have reads := @reads_no_record env _ none_whole
    constructor
    · intro _ m whole
      exact absurd whole (none_whole m)
    · intro _
      refine ⟨wp_post reads fun _ _ _ => trivial, ?_⟩
      rw [wp_run reads, if_neg Bool.false_ne_true]
      exact nofun

/-! ## Both -/

/-- A save stays inside the cache exactly when the record leaves room for its length, and a start
exactly when what it reads does and, where it is traced, has the six bytes that the trace needs. -/
theorem cache_bounds_iff (some_data : n ≠ 0) (accepted : n.toNat ≤ stPersistMaxAllocSz)
    (data : Nat → Data) (started : Bool) :
    (AllInside (persistSaveUses env w n data) ↔ n.toNat ≤ recordRoom) ∧
      (AllInside (startupPersistUses env w started) ↔
        ∀ m, WholeRecord w m → m.toNat ≤ recordRoom ∧ (started = true → 6 ≤ m.toNat)) :=
  ⟨persistSaveUses_inside some_data accepted data, startupPersistUses_inside started⟩

theorem cache_bounds_thousand :
    (AllInside (persistSaveUses quiet (powerUp fun _ => eeErased) 1000 fun _ => 0) ↔
        (1000 : Data).toNat ≤ recordRoom) ∧
      (AllInside (startupPersistUses quiet (powerUp fun _ => eeErased) true) ↔
        ∀ m, WholeRecord (powerUp fun _ => eeErased) m →
          m.toNat ≤ recordRoom ∧ (true = true → 6 ≤ m.toNat)) :=
  cache_bounds_iff (by decide) (by decide) _ true

/-- The first length that the check lets through and the cache cannot hold. -/
theorem save_leaves_cache :
    (3997 : Data) ≠ 0 ∧ (3997 : Data).toNat ≤ stPersistMaxAllocSz ∧
      ¬ AllInside (persistSaveUses quiet (powerUp fun _ => eeErased) 3997 fun _ => 0) := by
  refine ⟨by decide, by decide, ?_⟩
  rw [persistSaveUses_inside (by decide) (by decide)]
  decide

end Baelux.Zigbee

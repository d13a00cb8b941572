import Baelux.Buttons.Button
import Baelux.Library.Table
import Mathlib.Data.List.GetD
import Mathlib.Data.List.Nodup

/-! `buttons.c`: buttons are registered under ids, with a table from the index of a button to
its id beside the buttons themselves. -/

namespace Baelux.Buttons

abbrev ButtonId := BitVec 16

def idNotMapped : ButtonId := 0xffff

def buttonsMax : Nat := 5

/-- The fields of `button_t` that a registration sets; pointers are numbers. -/
structure Registration where
  id : ButtonId
  mDriver : Option Nat
  mEvents : Option Nat
  deriving DecidableEq, Repr

/-- `m_buttons` in two parts, the second one with the statics of `button.c`, and the statics of
`buttons.c`. -/
structure ButtonsRegistry where
  mButtons : Table Registration buttonsMax
  button : ButtonsState
  idx2IdMap : Table ButtonId buttonsMax
  mInitCount : BitVec 8

inductive ButtonsResult where
  | success
  | overflow
  | idNotUnique
  | idNotValid
  deriving DecidableEq, Repr

/-- `button_init`, which leaves the count and the pointers. -/
def Button.init (handle : Button) : Button :=
  { handle with
    mErrorTimeout := 10000
    mInitialPressedTime := 0
    mPressedElapsedMs := 0
    mShortPressTimeout := 500
    mStatePre := .released }

namespace ButtonsRegistry

def id2idx (s : ButtonsRegistry) (id : ButtonId) : Option ButtonId := do
  match ← s.idx2IdMap.search (· = id) buttonsMax 0 with
  | some i => some (BitVec.ofNat 16 i)
  | none => some idNotMapped

def verifyId (s : ButtonsRegistry) (id : ButtonId) : Option ButtonsResult :=
  if id = idNotMapped then some .idNotValid
  else do
    match ← s.idx2IdMap.search (· = id) buttonsMax 0 with
    | some _ => some .idNotUnique
    | none => some .success

/-- `idx2IdMapper`. -/
def mapIdx2Id (s : ButtonsRegistry) (id : ButtonId) (idx : Nat) : Option ButtonsRegistry := do
  let map ← s.idx2IdMap.store idx id
  some { s with idx2IdMap := map }

def setInvokeTimer (s : ButtonsState) (invokeTimer : Option Nat) : ButtonsState :=
  match invokeTimer with
  | some _ => { s with mIsTimerUsed := true }
  | none => s

def initLoop (s : ButtonsRegistry) : Nat → Nat → Option ButtonsRegistry
  | 0, _ => some s
  | remaining + 1, i => do
      let map ← s.idx2IdMap.store i idNotMapped
      let handle ← s.mButtons.load i
      let buttons ← s.mButtons.store i { handle with id := idNotMapped }
      initLoop { s with
        idx2IdMap := map
        mButtons := buttons
        button := s.button.setButton i (s.button.button i).init } remaining (i + 1)

def buttonsInit (s : ButtonsRegistry) (invokeTimer : Option Nat) : Option ButtonsRegistry := do
  let s ← initLoop { s with mInitCount := 0 } buttonsMax 0
  some { s with button := setInvokeTimer s.button invokeTimer }

/-- `buttons_update`, with the index of the button that `button_update` is called for. -/
def buttonsUpdate (s : ButtonsRegistry) (id : ButtonId) (timestamp : BitVec 32)
    (status : ButtonStatus) (reading : DriverReading) : Option (Option Nat × ButtonsRegistry) := do
  let idx ← s.id2idx id
  if idx = idNotMapped then some (none, s)
  else
    let _ ← s.mButtons.load idx.toNat
    some (some idx.toNat,
      { s with button := buttonUpdate s.button idx.toNat timestamp status reading })

def buttonsRegisterButton (s : ButtonsRegistry) (id : ButtonId) (driver handler : Option Nat) :
    Option (ButtonsResult × ButtonsRegistry) :=
  if buttonsMax < s.mInitCount.toNat then some (.overflow, s)
  else do
    let verdict ← s.verifyId id
    if verdict ≠ .success then some (verdict, s)
    else
      let curIdx := s.mInitCount.toNat
      let buttons ← s.mButtons.store curIdx ⟨id, driver, handler⟩
      let s ← mapIdx2Id { s with mInitCount := s.mInitCount + 1, mButtons := buttons } id curIdx
      some (.success, s)

end ButtonsRegistry

open ButtonsRegistry

def unregistered : ButtonsRegistry where
  mButtons := fun _ => ⟨0, none, none⟩
  button := ⟨fun _ => ⟨.pressed, 0, 0, 0, 0, 0⟩, false, none, false, []⟩
  idx2IdMap := fun _ => 0
  mInitCount := 0

/-! ## What the calls are to do -/

inductive RegistryOp where
  | init (invokeTimer : Option Nat)
  | register (id : ButtonId) (driver handler : Option Nat)
  | update (id : ButtonId) (timestamp : BitVec 32) (status : ButtonStatus) (reading : DriverReading)

inductive RegistryAnswer where
  | done
  | result (result : ButtonsResult)
  | reached (idx : Option Nat)
  deriving DecidableEq

def RegistryOp.perform (s : ButtonsRegistry) :
    RegistryOp → Option (RegistryAnswer × ButtonsRegistry)
  | .init invokeTimer => (s.buttonsInit invokeTimer).map fun t => (.done, t)
  | .register id driver handler =>
      (s.buttonsRegisterButton id driver handler).map fun done => (.result done.1, done.2)
  | .update id timestamp status reading =>
      (s.buttonsUpdate id timestamp status reading).map fun done => (.reached done.1, done.2)

structure InStep (s : ButtonsRegistry) : Prop where
  bounded : s.mInitCount.toNat ≤ buttonsMax
  mapped : ∀ i : Fin buttonsMax, i < s.mInitCount.toNat → s.idx2IdMap i = (s.mButtons i).id
  unmapped : ∀ i : Fin buttonsMax, s.mInitCount.toNat ≤ i → s.idx2IdMap i = idNotMapped
  valid : ∀ i : Fin buttonsMax, i < s.mInitCount.toNat → (s.mButtons i).id ≠ idNotMapped
  distinct : ∀ i j : Fin buttonsMax, i < s.mInitCount.toNat → j < s.mInitCount.toNat →
    (s.mButtons i).id = (s.mButtons j).id → i = j

def RegisteredAt (s : ButtonsRegistry) (id : ButtonId) (i : Fin buttonsMax) : Prop :=
  i < s.mInitCount.toNat ∧ (s.mButtons i).id = id

/-- A failed registration changes nothing, and an update reaches the button of its id only. -/
def Served (s t : ButtonsRegistry) (answer : RegistryAnswer) : RegistryOp → Prop
  | .init _ => True
  | .register _ _ _ => answer ≠ .result .success → t = s
  | .update id timestamp status reading =>
      (∀ i : Fin buttonsMax, RegisteredAt s id i → answer = .reached (some i) ∧
        t = { s with button := buttonUpdate s.button i timestamp status reading }) ∧
      ((∀ i, ¬ RegisteredAt s id i) → answer = .reached none ∧ t = s)

/-- Each call of the run stays inside the arrays, does what it is to do, and leaves both tables
in step. -/
def RegistryKept : ButtonsRegistry → List RegistryOp → Prop
  | _, [] => True
  | s, op :: rest => ∃ answer t, op.perform s = some (answer, t) ∧ Served s t answer op ∧
      InStep t ∧ RegistryKept t rest

/-! ## When they do it -/

def RegistryOp.registered (ids : List ButtonId) : RegistryOp → List ButtonId
  | .init _ => []
  | .register id _ _ => if id = idNotMapped ∨ id ∈ ids then ids else ids ++ [id]
  | .update _ _ _ _ => ids

/-- No button is registered beyond the last one, and no update asks for `ID_NOT_MAPPED` while a
button is left. -/
def RegistryOp.Fits (ids : List ButtonId) : RegistryOp → Prop
  | .init _ => True
  | .register id _ _ => id ≠ idNotMapped → id ∉ ids → ids.length < buttonsMax
  | .update id _ _ _ => id = idNotMapped → ids.length = buttonsMax

def AllFit : List ButtonId → List RegistryOp → Prop
  | _, [] => True
  | ids, op :: rest => op.Fits ids ∧ AllFit (op.registered ids) rest

def StartsWithInit : List RegistryOp → Prop
  | [] => True
  | op :: _ => ∃ invokeTimer, op = .init invokeTimer

/-! ## The tables as a list of ids -/

structure Holds (s : ButtonsRegistry) (ids : List ButtonId) : Prop where
  count : s.mInitCount.toNat = ids.length
  bounded : ids.length ≤ buttonsMax
  map : ∀ i : Fin buttonsMax, s.idx2IdMap i = ids.getD i idNotMapped
  buttons : ∀ i : Fin buttonsMax, i < ids.length → (s.mButtons i).id = ids.getD i idNotMapped
  valid : idNotMapped ∉ ids
  nodup : ids.Nodup

variable {s t : ButtonsRegistry} {ids : List ButtonId} {id : ButtonId}

theorem getD_mem {i : Nat} (inside : i < ids.length) : ids.getD i idNotMapped ∈ ids := by
  rw [List.getD_eq_getElem _ _ inside]
  exact List.getElem_mem inside

theorem Holds.inStep (holds : Holds s ids) : InStep s where
  bounded := holds.count ▸ holds.bounded
  mapped := by
    intro i low
    rw [holds.count] at low
    rw [holds.map, holds.buttons i low]
  unmapped := by
    intro i high
    rw [holds.count] at high
    rw [holds.map, List.getD_eq_default _ _ high]
  valid := by
    intro i low same
    rw [holds.count] at low
    rw [holds.buttons i low] at same
    exact holds.valid (same ▸ getD_mem low)
  distinct := by
    intro i j low low' same
    rw [holds.count] at low low'
    rw [holds.buttons i low, holds.buttons j low', List.getD_eq_getElem _ _ low,
      List.getD_eq_getElem _ _ low'] at same
    exact Fin.ext ((holds.nodup.getElem_inj_iff).mp same)

theorem Holds.registeredAt_iff (holds : Holds s ids) (i : Fin buttonsMax) :
    RegisteredAt s id i ↔ ids[i.val]? = some id := by
  rw [RegisteredAt, holds.count]
  constructor
  · intro holds
    rcases holds with ⟨low, same⟩
    rw [holds.buttons i low, List.getD_eq_getElem _ _ low] at same
    rw [List.getElem?_eq_getElem low, same]
  · intro there
    rcases List.getElem?_eq_some_iff.mp there with ⟨low, same⟩
    refine ⟨low, ?_⟩
    rw [holds.buttons i low, List.getD_eq_getElem _ _ low, same]

theorem Holds.search (holds : Holds s ids) (id : ButtonId) :
    (∃ i, s.idx2IdMap.search (· = id) buttonsMax 0 = some (some i) ∧ i < buttonsMax ∧
      ids.getD i idNotMapped = id) ∨
    (s.idx2IdMap.search (· = id) buttonsMax 0 = some none ∧
      ∀ i < buttonsMax, ids.getD i idNotMapped ≠ id) := by
  rcases s.idx2IdMap.search_cases (· = id) (Nat.le_of_eq (Nat.zero_add buttonsMax)) with
    ⟨i, value, finds, _, inside, there, hit⟩ | ⟨ends, missed⟩
  · rw [Nat.zero_add] at inside
    rw [Table.load_of_lt inside, Option.some_inj, holds.map] at there
    exact Or.inl ⟨i, finds, inside, there.trans (of_decide_eq_true hit)⟩
  · refine Or.inr ⟨ends, fun i inside same => ?_⟩
    have there := missed i _ (Nat.zero_le i) (by omega) (Table.load_of_lt inside)
    rw [holds.map] at there
    exact of_decide_eq_false there same

theorem getD_eq_iff (real : id ≠ idNotMapped) :
    (∃ i < buttonsMax, ids.getD i idNotMapped = id) ↔ ∃ i < buttonsMax, ids[i]? = some id := by
  constructor
  · intro holds
    rcases holds with ⟨i, inside, same⟩
    refine ⟨i, inside, ?_⟩
    rw [List.getD_eq_getElem?_getD] at same
    cases there : ids[i]? with
    | none =>
      rw [there] at same
      exact absurd same.symm real
    | some other =>
      rw [there] at same
      exact congrArg some same
  · intro holds
    rcases holds with ⟨i, inside, there⟩
    refine ⟨i, inside, ?_⟩
    rw [List.getD_eq_getElem?_getD, there]
    rfl

theorem Holds.mem_iff (holds : Holds s ids) :
    id ∈ ids ↔ ∃ i < buttonsMax, ids[i]? = some id := by
  have bounded := holds.bounded
  constructor
  · intro member
    rcases List.getElem_of_mem member with ⟨i, inside, same⟩
    exact ⟨i, by omega, List.getElem?_eq_some_iff.mpr ⟨inside, same⟩⟩
  · intro holds
    rcases holds with ⟨i, _, there⟩
    exact List.mem_of_getElem? there

theorem Holds.verifyId (holds : Holds s ids) (id : ButtonId) : s.verifyId id =
    some (if id = idNotMapped then .idNotValid else if id ∈ ids then .idNotUnique else .success) := by
  by_cases invalid : id = idNotMapped
  · rw [ButtonsRegistry.verifyId, if_pos invalid, if_pos invalid]
  · rw [ButtonsRegistry.verifyId, if_neg invalid, if_neg invalid]
    rcases holds.search id with ⟨i, finds, inside, same⟩ | ⟨ends, missed⟩
    · have member := holds.mem_iff.mpr ((getD_eq_iff invalid).mp ⟨i, inside, same⟩)
      rw [if_pos member, finds]
      rfl
    · have other : id ∉ ids := by
        intro member
        rcases (getD_eq_iff invalid).mpr (holds.mem_iff.mp member) with ⟨i, inside, same⟩
        exact missed i inside same
      rw [if_neg other, ends]
      rfl

/-! ## One call -/

theorem Holds.refuses (holds : Holds s ids) (taken : id = idNotMapped ∨ id ∈ ids)
    (driver handler : Option Nat) :
    ∃ result, s.buttonsRegisterButton id driver handler = some (result, s) := by
  have room : ¬ buttonsMax < s.mInitCount.toNat := by
    rw [holds.count]
    exact Nat.not_lt.mpr holds.bounded
  rw [buttonsRegisterButton, if_neg room, holds.verifyId]
  rcases taken with invalid | member
  · rw [if_pos invalid]
    exact ⟨_, rfl⟩
  · have real : id ≠ idNotMapped := fun same => holds.valid (same ▸ member)
    rw [if_neg real, if_pos member]
    exact ⟨_, rfl⟩

theorem Holds.registers (holds : Holds s ids) (real : id ≠ idNotMapped) (fresh : id ∉ ids)
    (driver handler : Option Nat) : s.buttonsRegisterButton id driver handler =
      (s.mButtons.store ids.length ⟨id, driver, handler⟩).bind fun buttons =>
        (s.idx2IdMap.store ids.length id).map fun map => (.success,
          { s with mInitCount := s.mInitCount + 1, mButtons := buttons, idx2IdMap := map }) := by
  have room : ¬ buttonsMax < s.mInitCount.toNat := by
    rw [holds.count]
    exact Nat.not_lt.mpr holds.bounded
  rw [buttonsRegisterButton, if_neg room, holds.verifyId, if_neg real, if_neg fresh, holds.count]
  simp only [Option.bind_eq_bind, Option.bind_some, ne_eq, not_true_eq_false, ↓reduceIte]
  cases s.mButtons.store ids.length ⟨id, driver, handler⟩ with
  | none => rfl
  | some buttons =>
    simp only [Option.bind_some, mapIdx2Id, Option.bind_eq_bind]
    cases s.idx2IdMap.store ids.length id <;> rfl

theorem Holds.register (holds : Holds s ids) (real : id ≠ idNotMapped) (fresh : id ∉ ids)
    (room : ids.length < buttonsMax) (driver handler : Option Nat) :
    ∃ t, s.buttonsRegisterButton id driver handler = some (.success, t) ∧
      Holds t (ids ++ [id]) := by
  rcases s.mButtons.store_of_lt room ⟨id, driver, handler⟩ with ⟨buttons, stored⟩
  rcases s.idx2IdMap.store_of_lt room id with ⟨map, mapped⟩
  have count := holds.count
  have small : buttonsMax = 5 := rfl
  rw [holds.registers real fresh, stored, mapped]
  refine ⟨_, rfl, ?_, ?_, ?_, ?_, ?_, ?_⟩
  · calc
      (s.mInitCount + 1).toNat = (ids.length + 1) % 2 ^ 8 := by
        rw [BitVec.toNat_add, count]
        rfl
      _ = ids.length + 1 := Nat.mod_eq_of_lt (by omega)
      _ = (ids ++ [id]).length := by
        rw [List.length_append, List.length_singleton]
  · rw [List.length_append, List.length_singleton]
    exact room
  · intro i
    change map i = _
    by_cases last : i.val = ids.length
    · obtain rfl : i = ⟨ids.length, room⟩ := Fin.ext last
      rw [Table.stored_eq mapped, List.getD_append_right _ _ _ _ (Nat.le_refl _), Nat.sub_self]
      rfl
    · rw [Table.stored_other mapped last, holds.map]
      rcases Nat.lt_or_ge i.val ids.length with low | high
      · rw [List.getD_append _ _ _ _ low]
      · rw [List.getD_eq_default _ _ high, List.getD_eq_default]
        rw [List.length_append, List.length_singleton]
        omega
  · intro i low
    rw [List.length_append, List.length_singleton] at low
    change (buttons i).id = _
    by_cases last : i.val = ids.length
    · obtain rfl : i = ⟨ids.length, room⟩ := Fin.ext last
      rw [Table.stored_eq stored, List.getD_append_right _ _ _ _ (Nat.le_refl _), Nat.sub_self]
      rfl
    · have before : i.val < ids.length := by omega
      rw [Table.stored_other stored last, holds.buttons i before, List.getD_append _ _ _ _ before]
  · rw [List.mem_append, List.mem_singleton]
    rintro (member | same)
    · exact holds.valid member
    · exact real same.symm
  · rw [List.nodup_append]
    refine ⟨holds.nodup, List.nodup_singleton id, ?_⟩
    intro a member b only
    rw [List.mem_singleton] at only
    subst only
    exact ne_of_mem_of_not_mem member fresh

/-- What the loop of `buttons_init` leaves from an index on. -/
theorem initLoop_total (remaining i : Nat) (inside : i + remaining = buttonsMax) :
    ∃ t, initLoop s remaining i = some t ∧ t.mInitCount = s.mInitCount ∧
      (∀ j : Fin buttonsMax, j < i → t.idx2IdMap j = s.idx2IdMap j) ∧
      ∀ j : Fin buttonsMax, i ≤ j → t.idx2IdMap j = idNotMapped := by
  induction remaining generalizing s i with
  | zero => exact ⟨s, rfl, rfl, fun _ _ => rfl, fun j behind => by omega⟩
  | succ remaining ih =>
    have here : i < buttonsMax := by omega
    rcases s.idx2IdMap.store_of_lt here idNotMapped with ⟨map, mapped⟩
    obtain ⟨buttons, stored⟩ := s.mButtons.store_of_lt here
      { s.mButtons ⟨i, here⟩ with id := idNotMapped }
    obtain ⟨t, ends, count, before, behind⟩ := ih (s := { s with
      idx2IdMap := map
      mButtons := buttons
      button := s.button.setButton i (s.button.button i).init }) (i + 1) (by omega)
    refine ⟨t, ?_, count, ?_, ?_⟩
    · simp only [initLoop, mapped, Table.load_of_lt here, stored, Option.bind_eq_bind,
        Option.bind_some]
      exact ends
    · intro j low
      rw [before j (by omega)]
      exact Table.stored_other mapped (by omega)
    · intro j high
      by_cases first : j.val = i
      · obtain rfl : j = ⟨i, here⟩ := Fin.ext first
        rw [before _ (Nat.lt_succ_self i)]
        exact Table.stored_eq mapped here
      · exact behind j (by omega)

theorem init_holds (s : ButtonsRegistry) (invokeTimer : Option Nat) :
    ∃ t, s.buttonsInit invokeTimer = some t ∧ Holds t [] := by
  obtain ⟨t, ends, count, _, unmapped⟩ := initLoop_total (s := { s with mInitCount := 0 })
    buttonsMax 0 (Nat.zero_add buttonsMax)
  refine ⟨{ t with button := setInvokeTimer t.button invokeTimer }, ?_, ?_⟩
  · simp only [buttonsInit, ends, Option.bind_eq_bind, Option.bind_some]
  · exact ⟨congrArg BitVec.toNat count, Nat.zero_le _, fun i => unmapped i (Nat.zero_le _),
      fun i low => absurd low (Nat.not_lt_zero _), List.not_mem_nil, List.nodup_nil⟩

theorem Holds.updates (holds : Holds s ids) (id : ButtonId) (timestamp : BitVec 32)
    (status : ButtonStatus) (reading : DriverReading) :
    (∃ i < buttonsMax, ids.getD i idNotMapped = id ∧ s.buttonsUpdate id timestamp status reading =
      some (some i, { s with button := buttonUpdate s.button i timestamp status reading })) ∨
    ((∀ i < buttonsMax, ids.getD i idNotMapped ≠ id) ∧
      s.buttonsUpdate id timestamp status reading = some (none, s)) := by
  rcases holds.search id with ⟨i, finds, inside, same⟩ | ⟨ends, missed⟩
  · refine Or.inl ⟨i, inside, same, ?_⟩
    have small : buttonsMax = 5 := rfl
    have value : (BitVec.ofNat 16 i).toNat = i := by
      rw [BitVec.toNat_ofNat]
      omega
    have real : BitVec.ofNat 16 i ≠ idNotMapped := by
      intro same
      have wrong := congrArg BitVec.toNat same
      rw [value, show idNotMapped.toNat = 65535 from rfl] at wrong
      omega
    simp only [buttonsUpdate, id2idx, finds, Option.bind_eq_bind, Option.bind_some, if_neg real,
      value, Table.load_of_lt inside]
  · refine Or.inr ⟨missed, ?_⟩
    simp only [buttonsUpdate, id2idx, ends, Option.bind_eq_bind, Option.bind_some, ↓reduceIte]

theorem Holds.entry_iff (holds : Holds s ids)
    (asked : id = idNotMapped → ids.length = buttonsMax) (i : Fin buttonsMax) :
    ids.getD i idNotMapped = id ↔ RegisteredAt s id i := by
  rw [holds.registeredAt_iff]
  rcases Nat.lt_or_ge i.val ids.length with low | high
  · rw [List.getD_eq_getElem _ _ low, List.getElem?_eq_getElem low, Option.some_inj]
  · rw [List.getD_eq_default _ _ high, List.getElem?_eq_none high]
    have inside := i.isLt
    constructor
    · intro same
      have full := asked same.symm
      omega
    · intro there
      cases there

theorem fits_step (holds : Holds s ids) (op : RegistryOp) (fits : op.Fits ids) :
    ∃ answer t, op.perform s = some (answer, t) ∧ Served s t answer op ∧
      Holds t (op.registered ids) := by
  cases op with
  | init invokeTimer =>
    rcases init_holds s invokeTimer with ⟨t, ends, after⟩
    refine ⟨.done, t, ?_, trivial, after⟩
    rw [RegistryOp.perform, ends]
    rfl
  | register id driver handler =>
    rw [RegistryOp.registered]
    by_cases taken : id = idNotMapped ∨ id ∈ ids
    · rcases holds.refuses taken driver handler with ⟨result, refused⟩
      rw [if_pos taken]
      refine ⟨.result result, s, ?_, fun _ => rfl, holds⟩
      rw [RegistryOp.perform, refused]
      rfl
    · rcases not_or.mp taken with ⟨real, fresh⟩
      rcases holds.register real fresh (fits real fresh) driver handler with ⟨t, registers, after⟩
      rw [if_neg taken]
      refine ⟨.result .success, t, ?_, fun failed => absurd rfl failed, after⟩
      rw [RegistryOp.perform, registers]
      rfl
  | update id timestamp status reading =>
    have entry := holds.entry_iff fits
    rcases holds.updates id timestamp status reading with
      ⟨i, inside, same, updates⟩ | ⟨missed, updates⟩
    · have here : RegisteredAt s id ⟨i, inside⟩ := (entry ⟨i, inside⟩).mp same
      refine ⟨.reached (some i),
        { s with button := buttonUpdate s.button i timestamp status reading }, ?_, ⟨?_, ?_⟩, ?_⟩
      · rw [RegistryOp.perform, updates]
        rfl
      · intro j there
        obtain rfl := holds.inStep.distinct _ _ here.1 there.1 (here.2.trans there.2.symm)
        exact ⟨rfl, rfl⟩
      · intro nowhere
        exact absurd here (nowhere _)
      · exact ⟨holds.count, holds.bounded, holds.map, holds.buttons, holds.valid, holds.nodup⟩
    · refine ⟨.reached none, s, ?_, ⟨?_, ?_⟩, holds⟩
      · rw [RegistryOp.perform, updates]
        rfl
      · intro i there
        exact absurd ((entry i).mpr there) (missed i i.isLt)
      · exact fun _ => ⟨rfl, rfl⟩

/-- A button too many is registered outside the arrays, and `ID_NOT_MAPPED` is found behind the
last button. -/
theorem unfit_step (holds : Holds s ids) (op : RegistryOp) (unfit : ¬ op.Fits ids)
    {answer : RegistryAnswer} (performed : op.perform s = some (answer, t)) :
    ¬ Served s t answer op := by
  cases op with
  | init invokeTimer => exact absurd trivial unfit
  | register id driver handler =>
    have real : id ≠ idNotMapped := fun same => unfit fun other => absurd same other
    have fresh : id ∉ ids := fun member => unfit fun _ other => absurd member other
    have full : buttonsMax ≤ ids.length := by
      by_contra room
      exact unfit fun _ _ => Nat.lt_of_not_le room
    rw [RegistryOp.perform, holds.registers real fresh, Table.store_none full] at performed
    cases performed
  | update id timestamp status reading =>
    have invalid : id = idNotMapped := by
      by_contra real
      exact unfit fun same => absurd same real
    have room : ids.length < buttonsMax := by
      apply Nat.lt_of_le_of_ne holds.bounded
      intro full
      exact unfit fun _ => full
    have nowhere : ∀ i, ¬ RegisteredAt s id i := by
      intro i there
      have member := List.mem_of_getElem? ((holds.registeredAt_iff i).mp there)
      exact holds.valid (invalid ▸ member)
    intro holds
    rcases holds with ⟨_, unreached⟩
    rcases unreached nowhere with ⟨rfl, _⟩
    rcases holds.updates id timestamp status reading with ⟨i, _, _, updates⟩ | ⟨missed, _⟩
    · rw [RegistryOp.perform, updates] at performed
      cases performed
    · exact missed ids.length room ((List.getD_eq_default _ _ (Nat.le_refl _)).trans invalid.symm)

/-! ## Runs -/

theorem kept_iff (holds : Holds s ids) (ops : List RegistryOp) :
    RegistryKept s ops ↔ AllFit ids ops := by
  induction ops generalizing s ids with
  | nil => exact Iff.rfl
  | cons op rest ih =>
    constructor
    · intro holds
      rcases holds with ⟨answer, t, performed, served, _, later⟩
      have fits : op.Fits ids := by
        by_contra unfit
        exact unfit_step holds op unfit performed served
      rcases fits_step holds op fits with ⟨answer', t', performed', _, after⟩
      rcases Prod.mk.inj (Option.some.inj (performed.symm.trans performed')) with ⟨_, rfl⟩
      exact ⟨fits, (ih after).mp later⟩
    · intro holds
      rcases holds with ⟨fits, later⟩
      rcases fits_step holds op fits with ⟨answer, t, performed, served, after⟩
      exact ⟨answer, t, performed, served, after.inStep, (ih after).mpr later⟩

/-- Without `buttons_init` the map stays full of zeros. -/
theorem uninitialised_step (op : RegistryOp) (starts : ¬ ∃ invokeTimer, op = .init invokeTimer)
    {answer : RegistryAnswer} (performed : op.perform unregistered = some (answer, t)) :
    ¬ InStep t := by
  have inside : 4 < buttonsMax := by decide
  have last : t.idx2IdMap ⟨4, inside⟩ = 0 ∧ t.mInitCount.toNat ≤ 1 := by
    cases op with
    | init invokeTimer => exact absurd ⟨invokeTimer, rfl⟩ starts
    | register id driver handler =>
      rcases Option.map_eq_some_iff.mp performed with ⟨⟨result, u⟩, done, same⟩
      rcases Prod.mk.inj same with ⟨_, rfl⟩
      rw [buttonsRegisterButton, if_neg (by decide)] at done
      rcases Option.bind_eq_some_iff.mp done with ⟨verdict, _, done⟩
      split at done
      · cases done
        exact ⟨rfl, Nat.zero_le _⟩
      · rcases Option.bind_eq_some_iff.mp done with ⟨buttons, _, done⟩
        rcases Option.bind_eq_some_iff.mp done with ⟨v, mapped, done⟩
        rw [mapIdx2Id] at mapped
        rcases Option.bind_eq_some_iff.mp mapped with ⟨map, stored, same⟩
        cases same
        cases done
        have other : 4 ≠ unregistered.mInitCount.toNat := by decide
        exact ⟨Table.stored_other stored other, Nat.le_refl 1⟩
    | update id timestamp status reading =>
      rcases Option.map_eq_some_iff.mp performed with ⟨⟨reached, u⟩, done, same⟩
      rcases Prod.mk.inj same with ⟨_, rfl⟩
      rcases Option.bind_eq_some_iff.mp done with ⟨idx, _, done⟩
      split at done
      · cases done
        exact ⟨rfl, Nat.zero_le _⟩
      · rcases Option.bind_eq_some_iff.mp done with ⟨_, _, done⟩
        cases done
        exact ⟨rfl, Nat.zero_le _⟩
  intro inStep
  have unmapped := inStep.unmapped ⟨4, inside⟩ (last.2.trans (show 1 ≤ 4 by decide))
  rw [last.1] at unmapped
  exact absurd unmapped (by decide)

/-- Exactly the runs that begin with `buttons_init`, register at most `BUTTONS_MAX` ids between
two calls of it and update `ID_NOT_MAPPED` only when all buttons are registered. -/
theorem registry_kept_iff (ops : List RegistryOp) :
    RegistryKept unregistered ops ↔ StartsWithInit ops ∧ AllFit [] ops := by
  cases ops with
  | nil => exact ⟨fun _ => ⟨trivial, trivial⟩, fun _ => trivial⟩
  | cons op rest =>
    constructor
    · intro holds
      rcases holds with ⟨answer, t, performed, _, inStep, later⟩
      have starts : ∃ invokeTimer, op = .init invokeTimer := by
        by_contra other
        exact uninitialised_step op other performed inStep
      rcases starts with ⟨invokeTimer, rfl⟩
      rcases init_holds unregistered invokeTimer with ⟨t', ends, after⟩
      rw [RegistryOp.perform, ends] at performed
      cases performed
      exact ⟨⟨invokeTimer, rfl⟩, trivial, (kept_iff after rest).mp later⟩
    · intro holds
      rcases holds with ⟨⟨invokeTimer, rfl⟩, _, later⟩
      rcases init_holds unregistered invokeTimer with ⟨t, ends, after⟩
      refine ⟨.done, t, ?_, trivial, after.inStep, (kept_iff after rest).mpr later⟩
      rw [RegistryOp.perform, ends]
      rfl

/-- The sixth button is written behind the arrays. -/
theorem sixth_button_outside : ¬ RegistryKept unregistered
    [.init none, .register 1 none none, .register 2 none none, .register 3 none none,
      .register 4 none none, .register 5 none none, .register 6 none none] := by
  intro holds
  rcases holds with ⟨answer, t, performed, _, _, later⟩
  rcases init_holds unregistered none with ⟨t', ends, after⟩
  rw [RegistryOp.perform, ends] at performed
  cases performed
  have fit := (kept_iff after _).mp later
  simp [AllFit, RegistryOp.Fits, RegistryOp.registered, idNotMapped, buttonsMax] at fit

end Baelux.Buttons

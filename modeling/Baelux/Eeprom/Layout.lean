import Baelux.Eeprom.Store
import Baelux.Library.AppendLog

/-! What a bank means: two pools, each with the states of its pages and the log
of its elements. A memory holds such an image, and every flash operation of the
store moves the image by one abstract step. -/

namespace Baelux.Eeprom

open Flash AppendLog

theorem pageSize_eq : hwFlashPageSize = 4096 := rfl
theorem width_eq : hwFlashWidth = 8 := rfl
theorem headerSize_eq : eeHeaderSize = 32 := rfl
theorem nbMaxElt_eq : eeNbMaxElt = 508 := rfl

/-- A bank as `EEE_Init` requires it: page aligned, inside the 32-bit address
space, with no more variables than an element can address. -/
structure Bank where
  base : Nat
  nb : Nat
  pos : 0 < nb
  above : hwFlashAddress ≤ base
  aligned : (base - hwFlashAddress) % hwFlashPageSize = 0
  fits : base + 2 * nb * hwFlashPageSize ≤ 2 ^ 32
  small : eeNbMaxElt * nb ≤ 0x4000

inductive Pool where
  | lower
  | upper
  deriving DecidableEq, Repr

def Pool.other : Pool → Pool
  | lower => upper
  | upper => lower

@[simp] theorem Pool.other_ne (pool : Pool) : pool.other ≠ pool := by cases pool <;> decide

@[simp] theorem Pool.ne_other (pool : Pool) : pool ≠ pool.other := by cases pool <;> decide

@[simp] theorem Pool.other_other (pool : Pool) : pool.other.other = pool := by cases pool <;> rfl

namespace Bank

variable (b : Bank)

/-- The number of elements of a pool, which is also the number of variables. -/
def capacity : Nat := eeNbMaxElt * b.nb

def first : Pool → Nat
  | .lower => 0
  | .upper => b.nb

def page (p : Nat) : Nat := b.base + p * hwFlashPageSize

def slot (pool : Pool) (i : Nat) : Nat :=
  b.page (b.first pool + i / eeNbMaxElt) + (eeHeaderSize + i % eeNbMaxElt * hwFlashWidth)

end Bank

def pageState (mem : Memory) (page : Nat) : PageState :=
  if mem (page + 24) ≠ eeErased then .erasing
  else if mem (page + 16) ≠ eeErased then .valid
  else if mem (page + 8) ≠ eeErased then .active
  else if mem page ≠ eeErased then .receive
  else .erased

/-- What the store reads from a bank. The log of a pool that is being erased is unknown. -/
structure Image where
  state : Pool → Nat → PageState
  log : Pool → Option (List Word)

namespace Image

def blank : Image := ⟨fun _ _ => .erased, fun _ => some []⟩

def setState (img : Image) (pool : Pool) (page : Nat) (state : PageState) : Image :=
  { img with state := fun p i => if p = pool ∧ i = page then state else img.state p i }

def append (img : Image) (pool : Pool) (el : Word) : Image :=
  { img with log := fun p => if p = pool then (img.log p).map (· ++ [el]) else img.log p }

/-- Erases the pages `from_ ≤ i < upTo` of a pool of `nb` pages. -/
def erase (img : Image) (nb : Nat) (pool : Pool) (from_ upTo : Nat) : Image where
  state := fun p i => if p = pool ∧ from_ ≤ i ∧ i < upTo then .erased else img.state p i
  log := fun p =>
    if p = pool then (if from_ = 0 ∧ nb ≤ upTo then some [] else none) else img.log p

end Image

/-- The elements `ws` fill a pool from its start and nothing follows them. -/
structure Filled (b : Bank) (mem : Memory) (pool : Pool) (ws : List Word) : Prop where
  length : ws.length ≤ b.capacity
  programmed : ∀ el ∈ ws, el ≠ eeErased
  content : ∀ i < b.capacity, mem (b.slot pool i) = ws.getD i eeErased

structure Holds (b : Bank) (mem : Memory) (img : Image) : Prop where
  state : ∀ pool i, i < b.nb → pageState mem (b.page (b.first pool + i)) = img.state pool i
  log : ∀ pool ws, img.log pool = some ws → Filled b mem pool ws

/-! ## Page states -/

section PageState

variable {mem mem' : Memory} {page : Nat}

theorem pageState_congr (same : ∀ k < 32, mem' (page + k) = mem (page + k)) :
    pageState mem' page = pageState mem page := by
  simp only [pageState, same 24 (by omega), same 16 (by omega), same 8 (by omega)]
  rw [← Nat.add_zero page, same 0 (by omega)]

theorem pageState_blank (blank : ∀ k < 32, mem (page + k) = eeErased) :
    pageState mem page = .erased := by
  have header := blank 0 (by omega)
  rw [Nat.add_zero] at header
  simp [pageState, blank 24, blank 16, blank 8, header]

private theorem above_erased {state : PageState}
    (order : (pageState mem page).index ≤ state.index) :
    ∀ k, state.index ≤ k → k < 4 → mem (page + k * 8) = eeErased := by
  intro k low high
  by_contra programmed
  have reached : k + 1 ≤ (pageState mem page).index := by
    unfold pageState
    obtain rfl | rfl | rfl | rfl : k = 0 ∨ k = 1 ∨ k = 2 ∨ k = 3 := by omega
    all_goals
      simp only [Nat.zero_mul, Nat.add_zero, Nat.one_mul, Nat.reduceMul] at programmed
      repeat' split
      all_goals simp_all [PageState.index]
  omega

/-- Page states only go up: programming a header word reaches its state. -/
theorem pageState_programmed {state : PageState} (real : state ≠ .erased)
    (order : (pageState mem page).index ≤ state.index) :
    pageState (programmed mem (page + state.index * 8 - 8) eeProgrammed) page = state := by
  have here : ∀ a, programmed mem a eeProgrammed a ≠ eeErased := by
    intro a
    by_cases blank : mem a = eeErased
    · rw [programmed_blank blank]
      decide
    · rwa [programmed_written blank (by decide)]
  have other : ∀ a x, x ≠ a → programmed mem a eeProgrammed x = mem x :=
    fun a x different => programmed_other different
  have above := above_erased order
  cases state with
  | erased => exact absurd rfl real
  | receive =>
      have first := above 1 (by decide) (by omega)
      have second := above 2 (by decide) (by omega)
      have third := above 3 (by decide) (by omega)
      simp_all [pageState, PageState.index]
  | active =>
      have second := above 2 (by decide) (by omega)
      have third := above 3 (by decide) (by omega)
      simp_all [pageState, PageState.index]
  | valid =>
      have third := above 3 (by decide) (by omega)
      simp_all [pageState, PageState.index]
  | erasing => simp_all [pageState, PageState.index]

end PageState

/-! ## Addresses -/

section Addresses

variable {b : Bank} {pool other : Pool} {i j : Nat}

theorem Bank.slot_eq : b.slot pool i =
    b.base + (b.first pool + i / 508) * 4096 + (32 + i % 508 * 8) := rfl

theorem Bank.page_eq (p : Nat) : b.page p = b.base + p * 4096 := rfl

theorem Bank.capacity_eq : b.capacity = 508 * b.nb := rfl

theorem slot_page (inside : i < b.capacity) : i / 508 < b.nb := by
  rw [Bank.capacity_eq] at inside
  omega

theorem first_add_inj (left : i < b.nb) (right : j < b.nb)
    (same : b.first pool + i = b.first other + j) : pool = other ∧ i = j := by
  cases pool <;> cases other <;> simp only [Bank.first] at same <;>
    first
      | exact ⟨rfl, by omega⟩
      | omega

theorem slot_inj (left : i < b.capacity) (right : j < b.capacity)
    (same : b.slot pool i = b.slot other j) : pool = other ∧ i = j := by
  rw [Bank.slot_eq, Bank.slot_eq] at same
  have pages := first_add_inj (slot_page left) (slot_page right)
    (show b.first pool + i / 508 = b.first other + j / 508 by omega)
  exact ⟨pages.1, by omega⟩

theorem slot_ne_header {p k : Nat} (header : k < 32) : b.slot pool i ≠ b.page p + k := by
  rw [Bank.slot_eq, Bank.page_eq]
  omega

end Addresses

/-! ## The abstract steps of the flash operations -/

section Steps

variable {b : Bank} {mem : Memory} {img : Image} {pool : Pool} {ws : List Word} {i : Nat}

theorem Filled.congr {mem' : Memory} (filled : Filled b mem pool ws)
    (same : ∀ i < b.capacity, mem' (b.slot pool i) = mem (b.slot pool i)) :
    Filled b mem' pool ws :=
  ⟨filled.length, filled.programmed,
    fun i inside => (same i inside).trans (filled.content i inside)⟩

theorem Holds.setState (holds : Holds b mem img) (pool : Pool) {i : Nat} (inside : i < b.nb)
    {state : PageState} (real : state ≠ .erased)
    (order : (img.state pool i).index ≤ state.index) :
    Holds b
      (programmed mem (b.page (b.first pool + i) + state.index * hwFlashWidth - hwFlashWidth)
        eeProgrammed)
      (img.setState pool i state) := by
  have bounds : 1 ≤ state.index ∧ state.index ≤ 4 := by
    cases state <;> simp [PageState.index] at real ⊢
  rw [width_eq]
  constructor
  · intro p j small
    by_cases same : p = pool ∧ j = i
    · rcases same with ⟨rfl, rfl⟩
      rw [pageState_programmed real (by rwa [holds.state p j small])]
      simp [Image.setState]
    · rw [pageState_congr, holds.state p j small]
      · simp [Image.setState, same]
      · intro k header
        refine programmed_other ?_
        have apart : b.first p + j ≠ b.first pool + i :=
          fun equal => same (first_add_inj small inside equal)
        rw [Bank.page_eq, Bank.page_eq]
        omega
  · intro p log present
    refine (holds.log p log present).congr ?_
    intro j _
    refine programmed_other ?_
    have apart : b.slot p j ≠ b.page (b.first pool + i) + (state.index * 8 - 8) :=
      slot_ne_header (by omega)
    omega

theorem Filled.append (filled : Filled b mem pool ws) (room : ws.length < b.capacity) {el : Word}
    (real : el ≠ eeErased) :
    Filled b (Flash.programmed mem (b.slot pool ws.length) el) pool (ws ++ [el]) := by
  have blank : mem (b.slot pool ws.length) = eeErased := by simp [filled.content _ room]
  refine ⟨by rw [List.length_append]; exact room, ?_, ?_⟩
  · intro x member
    rcases List.mem_append.mp member with old | new
    · exact filled.programmed x old
    · exact List.mem_singleton.mp new ▸ real
  · intro i inside
    by_cases here : i = ws.length
    · subst here
      rw [programmed_blank blank]
      simp
    · rw [programmed_other (fun equal => here (slot_inj inside room equal).2),
        filled.content i inside]
      rcases Nat.lt_or_gt_of_ne here with before | after
      · simp [List.getElem?_append_left before]
      · simp [List.getElem?_eq_none (Nat.le_of_lt after),
          List.getElem?_eq_none (show (ws ++ [el]).length ≤ i by rwa [List.length_append])]

theorem slot_programmed {other : Pool} (different : other ≠ pool) {k : Nat} (room : k < b.capacity)
    (el : Word) {j : Nat} (small : j < b.capacity) :
    programmed mem (b.slot pool k) el (b.slot other j) = mem (b.slot other j) :=
  programmed_other fun equal => different (slot_inj small room equal).1

theorem Holds.append (holds : Holds b mem img) (log : img.log pool = some ws)
    (room : ws.length < b.capacity) {el : Word} (real : el ≠ eeErased) :
    Holds b (programmed mem (b.slot pool ws.length) el) (img.append pool el) := by
  constructor
  · intro p j small
    rw [pageState_congr, holds.state p j small]
    · rfl
    · intro k header
      exact programmed_other (slot_ne_header header).symm
  · intro p other present
    by_cases same : p = pool
    · subst same
      obtain rfl : ws ++ [el] = other := by simpa [Image.append, log] using present
      exact (holds.log p ws log).append room real
    · have unchanged : img.log p = some other := by simpa [Image.append, same] using present
      exact (holds.log p other unchanged).congr fun j small => slot_programmed same room el small

def Bank.number (b : Bank) (p : Nat) : Nat := (b.base - hwFlashAddress) / hwFlashPageSize + p

theorem Bank.number_address (p : Nat) :
    hwFlashAddress + b.number p * hwFlashPageSize = b.page p := by
  have whole := Nat.div_add_mod (b.base - hwFlashAddress) hwFlashPageSize
  rw [b.aligned] at whole
  have above := b.above
  simp only [Bank.number, Bank.page, pageSize_eq] at whole ⊢
  omega

theorem erasedPages_inside {p n a : Nat} (low : b.page p ≤ a) (high : a < b.page (p + n)) :
    erasedPages mem (b.number p) n a = eeErased := by
  have start := b.number_address p
  have stop := b.number_address (p + n)
  rw [erasedPages, if_pos]
  exact ⟨by omega, by rw [Bank.number, ← Nat.add_assoc] at stop; rw [Bank.number]; omega⟩

private theorem erasedPages_outside {p n a : Nat} (outside : a < b.page p ∨ b.page (p + n) ≤ a) :
    erasedPages mem (b.number p) n a = mem a := by
  have start := b.number_address p
  have stop := b.number_address (p + n)
  rw [erasedPages, if_neg]
  rw [Bank.number, ← Nat.add_assoc] at stop
  rw [Bank.number] at start ⊢
  omega

theorem slot_bounds (pool : Pool) (inside : i < b.capacity) :
    b.page (b.first pool) ≤ b.slot pool i ∧ b.slot pool i < b.page (b.first pool + b.nb) := by
  have page := slot_page inside
  simp only [Bank.slot_eq, Bank.page_eq]
  omega

theorem header_outside_erase {p : Pool} {j from_ n : Nat} (small : j < b.nb)
    (inside : from_ + n ≤ b.nb) (outside : ¬ (p = pool ∧ from_ ≤ j ∧ j < from_ + n)) :
    ∀ k < 32, erasedPages mem (b.number (b.first pool + from_)) n (b.page (b.first p + j) + k) =
      mem (b.page (b.first p + j) + k) := by
  intro k header
  refine erasedPages_outside ?_
  simp only [Bank.page_eq]
  cases p <;> cases pool <;> simp only [Bank.first, reduceCtorEq, false_and, true_and,
    not_false_eq_true] at outside ⊢ <;> omega

theorem slot_outside_erase {p : Pool} {from_ n : Nat} (different : p ≠ pool)
    (inside : from_ + n ≤ b.nb) (small : i < b.capacity) :
    erasedPages mem (b.number (b.first pool + from_)) n (b.slot p i) = mem (b.slot p i) := by
  have bounds := slot_bounds p small
  refine erasedPages_outside ?_
  simp only [Bank.page_eq] at bounds ⊢
  cases p <;> cases pool <;>
    simp only [Bank.first, ne_eq, not_true_eq_false] at different bounds ⊢ <;> omega

theorem Filled.of_erase (mem : Memory) (pool : Pool) {n : Nat} (whole : b.nb ≤ n) :
    Filled b (erasedPages mem (b.number (b.first pool)) n) pool [] := by
  refine ⟨Nat.zero_le _, by simp, ?_⟩
  intro i small
  have bounds := slot_bounds pool small
  refine erasedPages_inside bounds.1 (Nat.lt_of_lt_of_le bounds.2 ?_)
  simp only [Bank.page_eq]
  omega

theorem Holds.erase (holds : Holds b mem img) {from_ n : Nat} (inside : from_ + n ≤ b.nb) :
    Holds b (erasedPages mem (b.number (b.first pool + from_)) n)
      (img.erase b.nb pool from_ (from_ + n)) := by
  constructor
  · intro p j small
    by_cases same : p = pool ∧ from_ ≤ j ∧ j < from_ + n
    · rw [pageState_blank]
      · simp [Image.erase, same]
      · intro k header
        rcases same with ⟨rfl, low, high⟩
        refine erasedPages_inside ?_ ?_ <;> simp only [Bank.page_eq] <;> omega
    · rw [pageState_congr (header_outside_erase small inside same), holds.state p j small]
      simp [Image.erase, same]
  · intro p other present
    by_cases same : p = pool
    · subst same
      simp only [Image.erase, ↓reduceIte, Option.ite_none_right_eq_some, Option.some.injEq] at present
      rcases present with ⟨⟨rfl, whole⟩, rfl⟩
      exact .of_erase mem p (by omega)
    · simp only [Image.erase, same, ↓reduceIte] at present
      exact (holds.log p other present).congr fun i small => slot_outside_erase same inside small

theorem Holds.blank (mem : Memory) :
    Holds b (erasedPages mem (b.number 0) (2 * b.nb)) Image.blank := by
  have inside : ∀ a, b.base ≤ a → a < b.page (2 * b.nb) →
      erasedPages mem (b.number 0) (2 * b.nb) a = eeErased := by
    intro a low high
    refine erasedPages_inside ?_ ?_
    · rwa [Bank.page_eq, Nat.zero_mul]
    · rwa [Nat.zero_add]
  have first : ∀ p, b.first p ≤ b.nb := by
    intro p
    cases p <;> simp [Bank.first]
  constructor
  · intro p j small
    have pool := first p
    refine pageState_blank fun k header => inside _ ?_ ?_
    · rw [Bank.page_eq]
      omega
    · rw [Bank.page_eq, Bank.page_eq]
      omega
  · intro p ws present
    obtain rfl : [] = ws := by simpa [Image.blank] using present
    refine ⟨Nat.zero_le _, by simp, fun i small => ?_⟩
    have pool := first p
    have bounds := slot_bounds p small
    simp only [Bank.page_eq] at bounds
    refine inside _ (by omega) ?_
    rw [Bank.page_eq]
    omega

end Steps

end Baelux.Eeprom

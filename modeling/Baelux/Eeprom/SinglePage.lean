import Baelux.Eeprom.Update

/-! Banks whose pools are one page each, with cores that may refuse any flash operation:
how far each function of the store gets, and what the bank holds then. -/

namespace Baelux.Eeprom

open Effect Flash AppendLog

variable {env : Env} {w t : World} {b : Bank} {mem : Memory} {time : Nat}

/-! ## Operations one after another -/

def Unrefused (env : Env) (time n : Nat) : Prop := ∀ j < n, executed env (time + 3 * j) = true

def Stops (env : Env) (time j : Nat) : Prop :=
  Unrefused env time j ∧ executed env (time + 3 * j) = false

instance (env : Env) (time n : Nat) : Decidable (Unrefused env time n) :=
  inferInstanceAs (Decidable (∀ j < n, executed env (time + 3 * j) = true))

instance (env : Env) (time j : Nat) : Decidable (Stops env time j) :=
  inferInstanceAs (Decidable (_ ∧ _))

theorem Unrefused.zero (env : Env) (time : Nat) : Unrefused env time 0 :=
  fun _ inside => absurd inside (Nat.not_lt_zero _)

theorem Unrefused.one (done : executed env time = true) : Unrefused env time 1 := by
  intro j inside
  obtain rfl : j = 0 := by omega
  exact done

theorem Unrefused.append {n m : Nat} (first : Unrefused env time n)
    (rest : Unrefused env (time + 3 * n) m) : Unrefused env time (n + m) := by
  intro j inside
  by_cases before : j < n
  · exact first j before
  · have later := rest (j - n) (by omega)
    rwa [show time + 3 * n + 3 * (j - n) = time + 3 * j by omega] at later

theorem Unrefused.of_free (free : Free env) (time n : Nat) : Unrefused env time n :=
  fun j _ => executed_of_free free (time + 3 * j)

theorem Stops.zero (refused : executed env time = false) : Stops env time 0 :=
  ⟨.zero env time, refused⟩

theorem Stops.after {n j : Nat} (first : Unrefused env time n)
    (stops : Stops env (time + 3 * n) j) :
    Stops env time (n + j) := by
  refine ⟨first.append stops.1, ?_⟩
  have refused := stops.2
  rwa [show time + 3 * n + 3 * j = time + 3 * (n + j) by omega] at refused

theorem Unrefused.not_stops {n j : Nat} (all : Unrefused env time n) (inside : j < n) :
    ¬ Stops env time j := by
  intro stops
  have done := all j inside
  rw [stops.2] at done
  cases done

theorem Stops.unique {i j : Nat} (first : Stops env time i) (second : Stops env time j) :
    i = j := by
  rcases Nat.lt_trichotomy i j with before | same | after
  · exact absurd first (second.1.not_stops before)
  · exact same
  · exact absurd second (first.1.not_stops after)

/-- A function of the store succeeds, or a core refuses one of its operations. -/
def Finished (Good Bad : World → Prop) (status : Status) (t : World) : Prop :=
  (status = .ok ∧ Good t) ∨ (status = .writeError ∧ Bad t)

/-- The pattern `if ( f() != EEE_OK ) return EEE_WRITE_ERROR;`, with the state of a refusal. -/
theorem wp_finished {P : Call → World → Prop} {Good Bad : World → Prop}
    {R : Status → World → Prop} {first rest : Storage Status}
    (begins : wp (handle env) P (Finished Good Bad) first w)
    (refused : ∀ t, Bad t → R .writeError t)
    (next : ∀ t, Good t → wp (handle env) P R rest t) :
    wp (handle env) P R
      (first >>= fun status => if status ≠ .ok then pure .writeError else rest) w := by
  apply wp_unless_failed begins
  · intro status t ends failed
    rcases ends with ⟨ok, _⟩ | ⟨_, bad⟩
    · exact absurd ok failed
    · exact refused t bad
  · intro t ends
    rcases ends with ⟨_, good⟩ | ⟨error, _⟩
    · exact next t good
    · cases error

/-- A function makes `n` flash operations from `time` on. What it leaves when one of them is refused
depends on how many were executed before. -/
def Operated (env : Env) (time n : Nat) (Good : World → Prop) (Left : Nat → World → Prop) :
    Status → World → Prop :=
  Finished (fun t => Unrefused env time n ∧ t.clock = time + 3 * n ∧ Good t)
    (fun t => ∃ j < n, Stops env time j ∧ Left j t)

section Operated

variable {n m : Nat} {Good Good' : World → Prop} {Left Left' : Nat → World → Prop} {status : Status}

theorem Operated.nothing (clock : t.clock = time) (good : Good t) :
    Operated env time 0 Good Left .ok t :=
  Or.inl ⟨rfl, .zero env time, clock, good⟩

theorem Operated.stopped {j : Nat} (inside : j < n) (stops : Stops env time j) (left : Left j t) :
    Operated env time n Good Left .writeError t :=
  Or.inr ⟨rfl, j, inside, stops, left⟩

theorem Operated.mono (operated : Operated env time n Good Left status t) (good : Good t → Good' t)
    (left : ∀ j < n, Left j t → Left' j t) : Operated env time n Good' Left' status t := by
  rcases operated with ⟨ok, all, clock, holds⟩ | ⟨refused, j, inside, stops, holds⟩
  · exact Or.inl ⟨ok, all, clock, good holds⟩
  · exact Or.inr ⟨refused, j, inside, stops, left j inside holds⟩

theorem Operated.after (first : Unrefused env time n)
    (operated : Operated env (time + 3 * n) m Good Left status t) (good : Good t → Good' t)
    (left : ∀ j < m, Left j t → Left' (n + j) t) :
    Operated env time (n + m) Good' Left' status t := by
  rcases operated with ⟨ok, all, clock, holds⟩ | ⟨refused, j, inside, stops, holds⟩
  · exact Or.inl ⟨ok, first.append all, by omega, good holds⟩
  · exact Or.inr ⟨refused, n + j, by omega, stops.after first, left j inside holds⟩

end Operated

/-! ## The two pages -/

def pageStore (n : Nat) (words : Nat → Word) : Store := latest decode ((List.range n).map words)

/-- The page of `cur` is in use and holds the elements `ws`; `old` are the words of the other
page. -/
structure Stands (b : Bank) (cur : Pool) (ws : List Word) (own beside : PageState)
    (old : Nat → Word) (w : World) : Prop where
  var : w.var = cursor b cur 0 ws.length
  filled : Filled b w.mem cur ws
  own : pageState w.mem (b.page (b.first cur)) = own
  beside : pageState w.mem (b.page (b.first cur.other)) = beside
  old : ∀ i < b.capacity, w.mem (b.slot cur.other i) = old i

def BlankWhenErased (b : Bank) (beside : PageState) (old : Nat → Word) : Prop :=
  beside = .erased → ∀ i < b.capacity, old i = eeErased

structure Headed (b : Bank) (pool : Pool) (state : PageState) (w t : World) : Prop where
  state : pageState t.mem (b.page (b.first pool)) = state
  other : pageState t.mem (b.page (b.first pool.other)) =
    pageState w.mem (b.page (b.first pool.other))
  slots : ∀ pool, ∀ i < b.capacity, t.mem (b.slot pool i) = w.mem (b.slot pool i)
  ram : SameRam w t

structure Same (w t : World) : Prop where
  mem : t.mem = w.mem
  ram : SameRam w t

variable {cur new : Pool} {ws : List Word} {own beside : PageState} {old : Nat → Word}
variable {addr : Nat} {data : Data}

namespace Stands

theorem mounted (stands : Stands b cur ws own beside old w) : Mounted b w.var :=
  stands.var ▸ cursor_mounted b cur 0 ws.length

theorem same (stands : Stands b cur ws own beside old w) (same : Same w t) :
    Stands b cur ws own beside old t where
  var := same.ram.var.trans stands.var
  filled := by
    rw [same.mem]
    exact stands.filled
  own := by
    rw [same.mem]
    exact stands.own
  beside := by
    rw [same.mem]
    exact stands.beside
  old := by
    rw [same.mem]
    exact stands.old

theorem headed {state : PageState} (stands : Stands b cur ws own beside old w)
    (headed : Headed b cur state w t) : Stands b cur ws state beside old t where
  var := headed.ram.var.trans stands.var
  filled := stands.filled.congr (headed.slots cur)
  own := headed.state
  beside := headed.other.trans stands.beside
  old := fun i inside => (headed.slots _ i inside).trans (stands.old i inside)

theorem headed_other {state : PageState} (stands : Stands b cur ws own beside old w)
    (headed : Headed b cur.other state w t) : Stands b cur ws own state old t where
  var := headed.ram.var.trans stands.var
  filled := stands.filled.congr (headed.slots cur)
  own := by
    have other := headed.other
    rw [Pool.other_other] at other
    exact other.trans stands.own
  beside := headed.state
  old := fun i inside => (headed.slots _ i inside).trans (stands.old i inside)

theorem full_iff (stands : Stands b cur ws own beside old w) : Full w ↔ ws.length = b.capacity := by
  have length := stands.filled.length
  rw [Full, stands.var]
  simp only [cursor, Bank.capacity] at length ⊢
  omega

theorem nextPool (stands : Stands b cur ws own beside old w) :
    w.var.nextPool = b.first cur.other :=
  cursor_nextPool b.pos stands.var

theorem next_state (stands : Stands b cur ws own beside old w) :
    pageState w.mem (w.var.flashAddr w.var.nextPool) = beside := by
  rw [stands.mounted.flashAddr, stands.nextPool, stands.beside]

theorem own_state (stands : Stands b cur ws own beside old w) :
    pageState w.mem (w.var.flashAddr w.var.currentWritePage) = own := by
  have current : w.var.currentWritePage = b.first cur := by
    rw [stands.var]
    rfl
  rw [stands.mounted.flashAddr, current, stands.own]

end Stands

theorem programmed_header {pool : Pool} {state : PageState} (real : state ≠ .erased)
    (order : (pageState w.mem (b.page (b.first pool))).index ≤ state.index)
    (mem : t.mem = programmed w.mem
      (b.page (b.first pool) + state.index * hwFlashWidth - hwFlashWidth) eeProgrammed)
    (ram : SameRam w t) : Headed b pool state w t := by
  have bounds : 1 ≤ state.index ∧ state.index ≤ 4 := by
    cases state <;> simp [PageState.index] at real ⊢
  rw [width_eq] at mem
  refine ⟨?_, ?_, ?_, ram⟩
  · rw [mem]
    exact pageState_programmed real order
  · rw [mem]
    apply pageState_congr
    intro k header
    apply programmed_other
    have apart : b.first pool.other + 0 ≠ b.first pool + 0 :=
      fun same => Pool.other_ne pool (first_add_inj b.pos b.pos same).1
    rw [Bank.page_eq, Bank.page_eq]
    omega
  · intro p i _
    rw [mem]
    apply programmed_other
    have apart : b.slot p i ≠ b.page (b.first pool) + (state.index * 8 - 8) :=
      slot_ne_header (by omega)
    omega

theorem wp_eeSetState_headed (honest : Honest env) (mounted : Mounted b w.var) (pool : Pool)
    {state : PageState} (real : state ≠ .erased)
    (order : (pageState w.mem (b.page (b.first pool))).index ≤ state.index) :
    wp (handle env) (Crash fun _ => True)
      (Operated env w.clock 1 (Headed b pool state w) fun _ => Same w)
      (eeSetState (b.first pool) state) w := by
  simp only [eeSetState, wp_bind, wp_getVar, mounted.flashAddr]
  refine ⟨trivial, wp_fdWriteData_timed honest _ _ ?_ ?_⟩
  · intro done t written ram clock
    simp only [ne_eq, not_true_eq_false, ↓reduceIte, wp_pure]
    exact Or.inl ⟨rfl, .one done, clock.trans (ending_executed done),
      programmed_header real order written ram⟩
  · intro refused t same ram _
    simp only [ne_eq, Nat.one_ne_zero, not_false_eq_true, ↓reduceIte, wp_pure]
    exact .stopped Nat.one_pos (.zero refused) ⟨same, ram⟩

def marks (state : PageState) : Nat := if state = .active ∨ state = .valid then 1 else 0

def marked (state : PageState) : PageState :=
  if state = .active ∨ state = .valid then .erasing else state

theorem marked_used {state : PageState} (used : state ≠ .erased) : marked state ≠ .erased := by
  unfold marked
  split
  · decide
  · exact used

/-! ## A write and a clean -/

/-- How a bank stands when the next function of the store is called. -/
structure Standing where
  clock : Nat
  /-- The number of elements on the page in use. -/
  count : Nat
  /-- The headers of the page in use and of the other one. -/
  own : PageState
  beside : PageState
  /-- What the variables read. -/
  held : Store

def only (addr : Nat) (data : Data) : Store := Function.update (fun _ => none) addr (some data)

namespace Standing

variable (b : Bank) (s : Standing) (addr : Nat) (data : Data)

def full : Prop := ¬ s.count < b.capacity

/-- A write finds no room, and no page to change to. -/
def blocked : Prop := s.full b ∧ s.beside ≠ .erased

instance : Decidable (s.full b) := inferInstanceAs (Decidable (¬ _))

instance : Decidable (s.blocked b) := inferInstanceAs (Decidable (_ ∧ _))

def copies : Nat := missingBelow (only addr data) s.held b.capacity

/-- The flash operations of a write: the RECEIVE mark, the element, the ERASING mark, the copies and
the ACTIVE mark, or the element alone. -/
def operations : Nat :=
  if s.full b then 1 + (1 + (marks s.own + (s.copies b addr data + 1))) else 1

/-- What the variables read when only so many of these were executed. -/
def left (j : Nat) : Store :=
  if s.full b then
    if j = 0 then s.held
    else if j = 1 then fun _ => none
    else copied (only addr data) s.held (j - 2 - marks s.own)
  else s.held

def wrote : Standing :=
  if s.full b then
    { clock := s.clock + 3 * s.operations b addr data
      count := 1 + s.copies b addr data
      own := .active
      beside := marked s.own
      held := copied (only addr data) s.held (s.copies b addr data) }
  else
    { s with
      clock := s.clock + 3
      count := s.count + 1
      held := Function.update s.held addr (some data) }

def cleaned (env : Env) : Standing :=
  if s.beside = .erasing then
    { s with
      clock := ending env s.clock
      beside := if executed env s.clock then .erased else .erasing }
  else s

end Standing

/-- The bank is mounted on one of its pages and stands so. The other page can receive when its
header is blank. -/
structure StandsAs (b : Bank) (s : Standing) (w : World) : Prop where
  page : ∃ cur ws old, Stands b cur ws s.own s.beside old w ∧ BlankWhenErased b s.beside old ∧
    ws.length = s.count ∧ latest decode ws = s.held
  used : s.own ≠ .erased
  clock : w.clock = s.clock

def InOrder (b : Bank) (w : World) : Prop := ∃ s, StandsAs b s w

section Single

variable (single : b.nb = 1)
include single

theorem single_capacity : b.capacity = 508 := by
  rw [Bank.capacity_eq, single]

theorem Stands.reads (stands : Stands b cur ws own beside old w) (v : Nat) :
    readBack w v = latest decode ws v := by
  have current : w.var.currentWritePage = b.first cur + 0 := by
    rw [stands.var]
    rfl
  have length := stands.filled.length
  rw [single_capacity single] at length
  rw [readBack, current]
  exact elementAt_filled stands.mounted stands.filled v b.pos (by omega)

theorem Stands.reads_old (stands : Stands b cur ws own beside old w) (v : Nat) :
    elementAt w.mem w.var v (b.first cur.other) = pageStore b.capacity old v := by
  have scan := @elementAt_slots w b cur.other stands.mounted v 0 b.pos
  have words : poolElements b w.mem cur.other (508 * (0 + 1)) =
      (List.range b.capacity).map old := by
    rw [single_capacity single, poolElements]
    apply List.map_congr_left
    intro i member
    have inside : i < 508 := List.mem_range.mp member
    exact stands.old i (by rw [single_capacity single]; exact inside)
  rw [words] at scan
  exact scan

/-- An element is appended, or a core refuses it and nothing happens. -/
theorem wp_eeWriteEl_page (honest : Honest env) (small : addr < 0x4000)
    (stands : Stands b cur ws own beside old w) (room : ws.length < b.capacity) :
    wp (handle env) (Crash fun _ => True)
      (Operated env w.clock 1
        (fun t => Stands b cur (ws ++ [element addr data]) own beside old t ∧ t.cache = w.cache)
        fun _ => Same w) (eeWriteEl addr data) w := by
  have few := room
  rw [single_capacity single] at few
  have fits : ¬ hwFlashPageSize ≤ w.var.nextWriteOffset := by
    rw [stands.var]
    simp only [cursor, pageSize_eq]
    omega
  have target : w.var.flashAddr w.var.currentWritePage + w.var.nextWriteOffset =
      b.slot cur ws.length := by
    rw [stands.var]
    simp only [cursor, EeVar.flashAddr, Bank.slot_eq, pageSize_eq]
    omega
  rw [eeWriteEl, wp_bind, wp_getVar, if_neg fits, storeElement, wp_bind, wp_getVar, wp_bind, target]
  refine ⟨trivial, trivial, wp_fdWriteData_timed honest _ _ ?_ ?_⟩
  · intro done t written ram clock
    have header (p : Pool) : pageState (programmed w.mem (b.slot cur ws.length) (element addr data))
        (b.page (b.first p)) = pageState w.mem (b.page (b.first p)) :=
      pageState_congr fun k header => programmed_other (slot_ne_header header).symm
    have appended : Stands b cur (ws ++ [element addr data]) own beside old { t with var :=
        { w.var with
          nextWriteOffset := w.var.nextWriteOffset + hwFlashWidth
          nbWrittenElements := w.var.nbWrittenElements + 1 } } := by
      refine ⟨?_, ?_, ?_, ?_, ?_⟩
      · rw [stands.var, List.length_append, List.length_singleton]
        simp only [cursor, width_eq, EeVar.mk.injEq, true_and]
        omega
      · rw [written]
        exact stands.filled.append room (element_ne_erased small)
      · rw [written, header]
        exact stands.own
      · rw [written, header]
        exact stands.beside
      · intro i inside
        rw [written, slot_programmed (Pool.other_ne cur) room _ inside]
        exact stands.old i inside
    simp only [ne_eq, not_true_eq_false, ↓reduceIte, wp_bind, wp_setVar, wp_pure]
    exact ⟨trivial, Or.inl ⟨rfl, .one done, clock.trans (ending_executed done), appended,
      ram.cache⟩⟩
  · intro refused t same ram _
    simp only [ne_eq, Nat.one_ne_zero, not_false_eq_true, ↓reduceIte, wp_pure]
    exact .stopped Nat.one_pos (.zero refused) ⟨same, ram⟩

/-! ## Copying -/

variable {next : Nat}

theorem wp_copyVar_skips (stands : Stands b new ws own beside old w)
    (absent : addr ≠ eeTag → latest decode ws next = none)
    (skips : missing (latest decode ws) (pageStore b.capacity old) next = false) :
    wp (handle env) (Crash fun _ => True) (fun status t => status = .ok ∧ t = w)
      (copyVar addr (b.first new.other) next) w := by
  have lacking : latest decode ws next = none →
      wp (handle env) (Crash fun _ => True) (fun status t => status = .ok ∧ t = w)
        (copyAbsent (b.first new.other) next) w := by
    intro none_here
    rw [copyAbsent, wp_bind]
    apply wp_eeReadEl trivial fun _ _ _ _ => trivial
    rw [stands.reads_old single]
    cases gives : pageStore b.capacity old next with
    | none => exact ⟨rfl, rfl⟩
    | some value => simp [missing, none_here, gives] at skips
  rw [copyVar_eq, wp_bind, wp_getVar]
  refine ⟨trivial, ?_⟩
  by_cases transfer : addr = eeTag
  · rw [if_neg (not_not_intro transfer), wp_bind]
    apply wp_eeReadEl trivial fun _ _ _ _ => trivial
    have own_page := stands.reads single next
    rw [readBack] at own_page
    rw [own_page]
    cases present : latest decode ws next with
    | some value => exact ⟨rfl, rfl⟩
    | none => exact lacking present
  · rw [if_pos transfer, wp_bind]
    exact lacking (absent transfer)

theorem wp_copyVar_copies (honest : Honest env) (stands : Stands b new ws own beside old w)
    (inside : next < b.capacity) (room : ws.length < b.capacity) {value : Data}
    (none_here : latest decode ws next = none)
    (gives : pageStore b.capacity old next = some value) :
    wp (handle env) (Crash fun _ => True)
      (Operated env w.clock 1
        (fun t => Stands b new (ws ++ [element next value]) own beside old t ∧ t.cache = w.cache)
        fun _ => Same w) (copyVar addr (b.first new.other) next) w := by
  have small : next < 0x4000 := Nat.lt_of_lt_of_le inside b.small
  have lacking : wp (handle env) (Crash fun _ => True)
      (Operated env w.clock 1
        (fun t => Stands b new (ws ++ [element next value]) own beside old t ∧ t.cache = w.cache)
        fun _ => Same w) (copyAbsent (b.first new.other) next) w := by
    rw [copyAbsent, wp_bind]
    apply wp_eeReadEl trivial fun _ _ _ _ => trivial
    rw [stands.reads_old single, gives]
    apply wp_finished (wp_eeWriteEl_page single honest small stands room)
    · intro t bad
      exact Or.inr ⟨rfl, bad⟩
    · intro t good
      exact Or.inl ⟨rfl, good⟩
  rw [copyVar_eq, wp_bind, wp_getVar]
  refine ⟨trivial, ?_⟩
  by_cases transfer : addr = eeTag
  · rw [if_neg (not_not_intro transfer), wp_bind]
    apply wp_eeReadEl trivial fun _ _ _ _ => trivial
    have own_page := stands.reads single next
    rw [readBack] at own_page
    rw [own_page, none_here]
    exact lacking
  · rw [if_pos transfer, wp_bind]
    exact lacking

/-- The new page once the missing variables are copied, `count` of them. -/
structure Received (b : Bank) (new : Pool) (own beside : PageState) (old : Nat → Word)
    (held : Store) (count : Nat) (cache : Nat → Data) (t : World) : Prop where
  cache : t.cache = cache
  page : ∃ ws, Stands b new ws own beside old t ∧
    latest decode ws = copied held (pageStore b.capacity old) count

def remainingCopies (b : Bank) (held : Store) (old : Nat → Word) (next : Nat) : Nat :=
  missingBelow held (pageStore b.capacity old) b.capacity -
    missingBelow held (pageStore b.capacity old) next

omit single in
theorem latest_copied {held source : Store} {value : Data} (inside : next < b.capacity)
    (lacks : missing held source next = true) (gives : source next = some value)
    (contents : latest decode ws = copied held source (missingBelow held source next)) :
    latest decode (ws ++ [element next value]) =
      copied held source (missingBelow held source (next + 1)) := by
  rw [missingBelow_succ, if_pos lacks, copied_next lacks, ← contents, gives]
  funext v
  rw [latest_concat ws (decode_element (Nat.lt_of_lt_of_le inside b.small)),
    Function.update_apply]
  exact if_congr eq_comm rfl rfl

theorem wp_copyLoop_page (honest : Honest env) {held : Store}
    (absent : addr ≠ eeTag → ∀ v, v ≠ addr → held v = none)
    (written : addr < b.capacity → (held addr).isSome) (remaining : Nat)
    (reach : next + remaining = b.capacity) (stands : Stands b new ws own beside old w)
    (contents : latest decode ws =
      copied held (pageStore b.capacity old) (missingBelow held (pageStore b.capacity old) next))
    (room : ws.length + remainingCopies b held old next ≤ b.capacity) :
    wp (handle env) (Crash fun _ => True)
      (Operated env w.clock (remainingCopies b held old next)
        (fun t => t.cache = w.cache ∧ ∃ more, Stands b new more own beside old t ∧
          more.length = ws.length + remainingCopies b held old next ∧
          latest decode more = copied held (pageStore b.capacity old)
            (missingBelow held (pageStore b.capacity old) b.capacity))
        fun j => Received b new own beside old held
          (missingBelow held (pageStore b.capacity old) next + j) w.cache)
      (copyLoop addr (b.first new.other) remaining next) w := by
  induction remaining generalizing w ws next with
  | zero =>
    obtain rfl : next = b.capacity := by omega
    have none_left : remainingCopies b held old b.capacity = 0 := Nat.sub_self _
    rw [none_left]
    exact .nothing rfl ⟨rfl, ws, stands, rfl, contents⟩
  | succ remaining ih =>
    have inside : next < b.capacity := by omega
    have here : latest decode ws next = held next := by rw [contents, copied_self]
    have step := missingBelow_succ held (pageStore b.capacity old) next
    have order := missingBelow_mono held (pageStore b.capacity old)
      (show next + 1 ≤ b.capacity from inside)
    rw [copyLoop]
    by_cases lacks : missing held (pageStore b.capacity old) next = true
    · rw [if_pos lacks] at step
      have more : remainingCopies b held old next = 1 + remainingCopies b held old (next + 1) := by
        unfold remainingCopies
        omega
      obtain ⟨none_here, value, gives⟩ : held next = none ∧
          ∃ value, pageStore b.capacity old next = some value := by
        simpa [missing, Option.isSome_iff_exists] using lacks
      have other : next ≠ addr := by
        rintro rfl
        rw [none_here] at written
        exact absurd (written inside) (by decide)
      have now := latest_copied inside lacks gives contents
      rw [if_pos other, more]
      apply wp_finished (wp_copyVar_copies single honest stands inside (by omega)
        (here.trans none_here) gives)
      · rintro t ⟨j, first, stops, same⟩
        obtain rfl : j = 0 := by omega
        exact .stopped (by omega) stops ⟨same.ram.cache, ws, stands.same same, contents⟩
      · rintro t ⟨done, clock, stands', cache⟩
        rw [Nat.mul_one] at clock
        apply wp_post (ih (by omega) stands' now (by
          rw [List.length_append, List.length_singleton]
          omega))
        intro status u operated
        rw [clock] at operated
        apply operated.after done
        · rintro ⟨cache', more, stands'', length, final⟩
          rw [List.length_append, List.length_singleton] at length
          exact ⟨cache'.trans cache, more, stands'', by omega, final⟩
        · rintro j _ ⟨cache', page⟩
          refine ⟨cache'.trans cache, ?_⟩
          rwa [step, Nat.add_assoc] at page
    · replace step : missingBelow held (pageStore b.capacity old) (next + 1) =
          missingBelow held (pageStore b.capacity old) next := by
        rw [step, if_neg lacks]
        rfl
      have same_left : remainingCopies b held old (next + 1) = remainingCopies b held old next := by
        rw [remainingCopies, step, remainingCopies]
      have now : latest decode ws = copied held (pageStore b.capacity old)
          (missingBelow held (pageStore b.capacity old) (next + 1)) := by
        rw [step]
        exact contents
      have rest := ih (show next + 1 + remaining = b.capacity by omega) stands now
        (same_left ▸ room)
      rw [same_left, step] at rest
      by_cases same : next = addr
      · rw [if_neg (not_not_intro same), wp_bind]
        exact rest
      · rw [if_pos same, wp_bind]
        apply wp_post (wp_copyVar_skips single stands
          (fun transfer => here.trans (absent transfer _ same)) ?_)
        · rintro status t ⟨rfl, rfl⟩
          exact rest
        · rw [missing, here]
          exact Bool.eq_false_iff.mpr lacks

theorem wp_copies_page (honest : Honest env) {held : Store}
    (absent : addr ≠ eeTag → ∀ v, v ≠ addr → held v = none)
    (written : addr < b.capacity → (held addr).isSome) (stands : Stands b new ws own beside old w)
    (order : own.index ≤ PageState.active.index) (contents : latest decode ws = held)
    (room : ws.length + missingBelow held (pageStore b.capacity old) b.capacity ≤ b.capacity) :
    wp (handle env) (Crash fun _ => True)
      (Operated env w.clock (missingBelow held (pageStore b.capacity old) b.capacity + 1)
        (fun t => t.cache = w.cache ∧ ∃ more, Stands b new more .active beside old t ∧
          more.length = ws.length + missingBelow held (pageStore b.capacity old) b.capacity ∧
          latest decode more = copied held (pageStore b.capacity old)
            (missingBelow held (pageStore b.capacity old) b.capacity))
        fun j => Received b new own beside old held j w.cache)
      (do
        let status ← copyLoop addr (b.first new.other) b.capacity 0
        if status ≠ .ok then pure .writeError
        else
          let pv ← getVar
          eeSetState pv.currentWritePage .active) w := by
  have none_below : missingBelow held (pageStore b.capacity old) 0 = 0 := rfl
  have all : remainingCopies b held old 0 =
      missingBelow held (pageStore b.capacity old) b.capacity := Nat.sub_zero _
  have copies := wp_copyLoop_page single honest absent written b.capacity (Nat.zero_add _) stands
    (by rw [none_below, copied_zero]; exact contents) (by rw [all]; exact room)
  rw [all] at copies
  apply wp_finished copies
  · rintro t ⟨j, inside, stops, received⟩
    rw [none_below, Nat.zero_add] at received
    exact .stopped (by omega) stops received
  · rintro t ⟨done, clock, cache, more, stands', length, final⟩
    have current : t.var.currentWritePage = b.first new := by
      rw [stands'.var]
      rfl
    rw [wp_bind, wp_getVar, current]
    refine ⟨trivial, wp_post (wp_eeSetState_headed honest stands'.mounted new (by decide)
      (by rw [stands'.own]; exact order)) ?_⟩
    intro status u operated
    rw [clock] at operated
    apply operated.after done
    · intro headed
      exact ⟨headed.ram.cache.trans cache, more, stands'.headed headed, length, final⟩
    · intro j last same
      obtain rfl : j = 0 := by omega
      exact ⟨same.ram.cache.trans cache, more, stands'.same same, final⟩

/-! ## A pool change -/

omit single in
theorem wp_markPage_page (honest : Honest env) (stands : Stands b new ws own beside old w) :
    wp (handle env) (Crash fun _ => True)
      (Operated env w.clock (marks beside)
        (fun t => Stands b new ws own (marked beside) old t ∧ t.cache = w.cache)
        fun _ => Same w) (markPage (b.first new.other)) w := by
  rw [markPage, wp_bind]
  apply wp_eeGetState trivial fun _ _ => trivial
  rw [stands.mounted.flashAddr, stands.beside, marks, marked]
  split
  · apply wp_post (wp_eeSetState_headed honest stands.mounted new.other (by decide) (by
      rw [stands.beside]
      cases beside <;> decide))
    intro status t operated
    exact operated.mono (fun headed => ⟨stands.headed_other headed, headed.ram.cache⟩)
      fun _ _ same => same
  · exact .nothing rfl ⟨stands, rfl⟩

theorem wp_markLoop_page (honest : Honest env) (stands : Stands b new ws own beside old w) :
    wp (handle env) (Crash fun _ => True)
      (Operated env w.clock (marks beside)
        (fun t => Stands b new ws own (marked beside) old t ∧ t.cache = w.cache)
        fun _ => Same w) (markLoop (b.first new.other)) w := by
  have page := wp_markPage_page honest stands
  cases new with
  | upper => exact page
  | lower =>
    have start : b.first (Pool.other .lower) = 0 + 1 := single
    rw [start] at page ⊢
    rw [markLoop]
    apply wp_finished page
    · intro t bad
      exact Or.inr ⟨rfl, bad⟩
    · rintro t ⟨done, clock, stands', cache⟩
      have begins : poolStart t.var (0 + 1) :=
        Or.inr (by rw [stands'.mounted.nbPages, single])
      rw [wp_bind, wp_getVar, if_pos begins]
      exact ⟨trivial, Or.inl ⟨rfl, done, clock, stands', cache⟩⟩

structure Halted (b : Bank) (new : Pool) (held : Store) (cache : Nat → Data) (t : World) :
    Prop where
  cache : t.cache = cache
  page : ∃ ws own beside old, Stands b new ws own beside old t ∧ own ≠ .erased ∧
    beside ≠ .erased ∧ latest decode ws = held

theorem wp_eeTransfer_page (honest : Honest env) {held : Store} (inside : addr < b.capacity)
    (absent : ∀ v, v ≠ addr → held v = none) (written : (held addr).isSome)
    (stands : Stands b new ws .receive beside old w) (used : beside ≠ .erased)
    (contents : latest decode ws = held)
    (room : ws.length + missingBelow held (pageStore b.capacity old) b.capacity ≤ b.capacity) :
    wp (handle env) (Crash fun _ => True)
      (Operated env w.clock
        (marks beside + (missingBelow held (pageStore b.capacity old) b.capacity + 1))
        (fun t => t.cache = w.cache ∧ ∃ more, Stands b new more .active (marked beside) old t ∧
          more.length = ws.length + missingBelow held (pageStore b.capacity old) b.capacity ∧
          latest decode more = copied held (pageStore b.capacity old)
            (missingBelow held (pageStore b.capacity old) b.capacity))
        fun j => Halted b new (copied held (pageStore b.capacity old) (j - marks beside)) w.cache)
      (eeTransfer addr (b.first new)) w := by
  have transfer : addr ≠ eeTag := by
    have limit := b.small
    rw [Bank.capacity] at inside
    unfold eeTag
    omega
  have last : b.first new.other + (b.nb - 1) = b.first new.other := by
    rw [single, Nat.sub_self, Nat.add_zero]
  rw [eeTransfer, wp_bind, wp_getVar, stands.mounted.nbPages]
  refine ⟨trivial, ?_⟩
  simp only [← last_old_page, last]
  rw [if_pos transfer]
  apply wp_finished (wp_markLoop_page single honest stands)
  · rintro t ⟨j, before, stops, same⟩
    refine .stopped (by omega) stops
      ⟨same.ram.cache, ws, _, _, _, stands.same same, by decide, used, ?_⟩
    rw [Nat.sub_eq_zero_of_le (Nat.le_of_lt before), copied_zero]
    exact contents
  · rintro t ⟨done, clock, stands', cache⟩
    apply wp_post (wp_copies_page single honest (fun _ => absent) (fun _ => written) stands'
      (by decide) contents room)
    intro status u operated
    rw [clock] at operated
    apply operated.after done
    · rintro ⟨cache', more, stands'', rest⟩
      exact ⟨cache'.trans cache, more, stands'', rest⟩
    · rintro j _ ⟨cache', more, stands'', contents'⟩
      refine ⟨cache'.trans cache, more, _, _, _, stands'', by decide, marked_used used, ?_⟩
      rw [Nat.add_sub_cancel_left]
      exact contents'

omit single in
theorem Stands.swap (stands : Stands b cur ws own .receive old w)
    (blank : ∀ i < b.capacity, old i = eeErased) :
    Stands b cur.other [] .receive own (fun i => ws.getD i eeErased)
      { w with var :=
          { w.var with
            currentWritePage := b.first cur.other
            nbWrittenElements := 0
            nextWriteOffset := eeHeaderSize } } where
  var := by
    rw [stands.var]
    rfl
  filled := by
    refine ⟨Nat.zero_le _, by simp, fun i inside => ?_⟩
    rw [stands.old i inside, blank i inside]
    rfl
  own := stands.beside
  beside := by
    rw [Pool.other_other]
    exact stands.own
  old := by
    intro i inside
    rw [Pool.other_other]
    exact stands.filled.content i inside

theorem Stands.swap_store (stands : Stands b cur ws own .receive old w)
    (blank : ∀ i < b.capacity, old i = eeErased) :
    pageStore b.capacity (fun i => ws.getD i eeErased) = latest decode ws := by
  funext v
  have length := stands.filled.length
  rw [single_capacity single] at length
  have swapped := stands.swap blank
  have here := swapped.reads_old single v
  rw [Pool.other_other] at here
  exact here.symm.trans (elementAt_filled (k := 0) swapped.mounted stands.filled v b.pos (by omega))

/-! ## The functions of the store -/

inductive Wrotes (env : Env) (b : Bank) (s : Standing) (addr : Nat) (data : Data) (status : Status)
    (t : World) : Prop where
  | blocked (blocked : s.blocked b) (error : status = .stateError) (standing : StandsAs b s t)
  | done (free : ¬ s.blocked b) (all : Unrefused env s.clock (s.operations b addr data))
      (ended : status = if s.full b then .cleanNeeded else .ok)
      (standing : StandsAs b (s.wrote b addr data) t)
  | stopped (free : ¬ s.blocked b) (j : Nat) (inside : j < s.operations b addr data)
      (stops : Stops env s.clock j) (error : status = .writeError) (order : InOrder b t)
      (reads : ∀ v, readBack t v = s.left b addr data j v)

variable {s : Standing}

theorem StandsAs.reads (standing : StandsAs b s w) (v : Nat) : readBack w v = s.held v := by
  rcases standing.page with ⟨cur, ws, old, stands, _, _, held⟩
  rw [stands.reads single, held]

omit single in
theorem StandsAs.full_iff (standing : StandsAs b s w) : Full w ↔ s.full b := by
  rcases standing.page with ⟨cur, ws, old, stands, _, count, _⟩
  have length := stands.filled.length
  rw [stands.full_iff, Standing.full, ← count]
  omega

omit single in
theorem Stands.inOrder (stands : Stands b cur ws own beside old w) (used : own ≠ .erased)
    (blank : BlankWhenErased b beside old) : InOrder b w :=
  ⟨⟨w.clock, ws.length, own, beside, latest decode ws⟩, ⟨cur, ws, old, stands, blank, rfl, rfl⟩,
    used, rfl⟩

omit single in
theorem InOrder.congr (order : InOrder b w) (mem : t.mem = w.mem) (var : t.var = w.var) :
    InOrder b t := by
  rcases order with ⟨s, ⟨cur, ws, old, stands, blank, count, held⟩, used, _⟩
  refine ⟨{ s with clock := t.clock }, ⟨cur, ws, old, ⟨var.trans stands.var, ?_, ?_, ?_, ?_⟩, blank,
    count, held⟩, used, rfl⟩
  all_goals rw [mem]
  · exact stands.filled
  · exact stands.own
  · exact stands.beside
  · exact stands.old

/-- The new page takes the element and what the old one still holds of the other variables. -/
theorem wp_receive_page (honest : Honest env) (inside : addr < b.capacity) (used : own ≠ .erased)
    (start : Stands b new [] .receive own old w) {held : Store}
    (source : pageStore b.capacity old = held) {copies : Nat}
    (lacking : missingBelow (only addr data) held b.capacity = copies)
    {R : Status → World → Prop} {rest : Storage Status}
    (refused : ∀ t, ∀ j < 1 + (marks own + (copies + 1)), Stops env w.clock j →
      t.cache = w.cache → InOrder b t →
      (readBack t = if j = 0 then fun _ => none
        else copied (only addr data) held (j - 1 - marks own)) → R .writeError t)
    (next : ∀ t more, Unrefused env w.clock (1 + (marks own + (copies + 1))) →
      t.clock = w.clock + 3 * (1 + (marks own + (copies + 1))) → t.cache = w.cache →
      Stands b new more .active (marked own) old t → more.length = 1 + copies →
      latest decode more = copied (only addr data) held copies →
      wp (handle env) (Crash fun _ => True) R rest t) :
    wp (handle env) (Crash fun _ => True) R
      (eeWriteEl addr data >>= fun status => if status ≠ .ok then pure .writeError else
        eeTransfer addr (b.first new) >>= fun status => if status ≠ .ok then pure .writeError else
          rest) w := by
  have small : addr < 0x4000 := Nat.lt_of_lt_of_le inside b.small
  apply wp_finished (wp_eeWriteEl_page single honest small start
    (Nat.lt_of_le_of_lt (Nat.zero_le _) inside))
  · rintro t ⟨j, first, stops, same⟩
    obtain rfl : j = 0 := by omega
    have still := start.same same
    refine refused t 0 (by omega) stops same.ram.cache
      (still.inOrder (by decide) fun erased => absurd erased used) ?_
    funext v
    rw [still.reads single, if_pos rfl]
    rfl
  rintro t ⟨stored, clock, first, cache⟩
  have contents : latest decode ([] ++ [element addr data]) = only addr data := by
    funext v
    rw [latest_concat [] (decode_element small), only, Function.update_apply]
    exact if_congr eq_comm rfl rfl
  have absent : ∀ v, v ≠ addr → only addr data v = none := fun v other =>
    Function.update_of_ne other _ _
  have wrote_some : (only addr data addr).isSome := by
    rw [only, Function.update_self]
    rfl
  have few : copies < b.capacity := lacking ▸ missingBelow_lt inside wrote_some
  have transfer := wp_eeTransfer_page single honest inside absent wrote_some first used contents
    (by rw [source, lacking, List.length_append, List.length_singleton]
        exact Nat.add_comm _ 1 ▸ few)
  rw [source, lacking, clock] at transfer
  apply wp_finished transfer
  · rintro u ⟨j, before, stops, halted⟩
    rcases halted.page with ⟨more, own', beside', old', still, used, used', kept⟩
    refine refused u (1 + j) (by omega) (stops.after stored) (halted.cache.trans cache)
      (still.inOrder used fun erased => absurd erased used') ?_
    funext v
    rw [still.reads single, kept, if_neg (by omega), Nat.add_sub_cancel_left]
  · rintro u ⟨done, clock', cache', more, still, length, kept⟩
    refine next u more (stored.append done) ?_ (cache'.trans cache) still length kept
    rw [clock']
    omega

omit single in
theorem Standing.left_full (full : s.full b) (j : Nat) :
    s.left b addr data (1 + j) = if j = 0 then fun _ => none
      else copied (only addr data) s.held (j - 1 - marks s.own) := by
  rw [Standing.left, if_pos full, if_neg (by omega)]
  refine if_congr (by omega) rfl ?_
  rw [show 1 + j - 2 = j - 1 by omega]

theorem wp_changePool_page (honest : Honest env) (inside : addr < b.capacity)
    (standing : StandsAs b s w) (full : s.full b) :
    wp (handle env) (Crash fun _ => True)
      (fun status t => t.cache = w.cache ∧ Wrotes env b s addr data status t)
      (changePool addr data) w := by
  rcases standing.page with ⟨cur, ws, old, stands, blank, count, held⟩
  rw [changePool, wp_bind, wp_getVar]
  refine ⟨trivial, ?_⟩
  rw [wp_bind]
  apply wp_eeGetState trivial fun _ _ => trivial
  rw [stands.next_state, stands.nextPool]
  by_cases used : s.beside ≠ .erased
  · rw [if_pos used]
    exact ⟨rfl, .blocked ⟨full, used⟩ rfl standing⟩
  rw [if_neg used]
  have erased : s.beside = .erased := not_not.mp used
  have free : ¬ s.blocked b := fun blocked => used blocked.2
  have count_all : s.operations b addr data =
      1 + (1 + (marks s.own + (s.copies b addr data + 1))) := if_pos full
  rw [erased] at stands
  have ready := blank erased
  apply wp_finished (wp_eeSetState_headed honest stands.mounted cur.other (by decide)
    (by rw [stands.beside]; decide))
  · rintro t ⟨j, first, stops, same⟩
    obtain rfl : j = 0 := by omega
    have still := stands.same same
    refine ⟨same.ram.cache, .stopped free 0 (by omega) (standing.clock ▸ stops) rfl
      (still.inOrder standing.used fun _ => ready) fun v => ?_⟩
    rw [still.reads single, held, Standing.left, if_pos full, if_pos rfl]
  rintro t ⟨received, clock, headed⟩
  have receiving := stands.headed_other headed
  rw [standing.clock] at received clock
  rw [wp_bind, wp_setVar]
  refine ⟨trivial, ?_⟩
  have start := receiving.swap ready
  have source : pageStore b.capacity (fun i => ws.getD i eeErased) = s.held :=
    (receiving.swap_store single ready).trans held
  have cache : t.cache = w.cache := headed.ram.cache
  have var : w.var = t.var := headed.ram.var.symm
  rw [var]
  apply wp_receive_page single honest inside standing.used start source rfl
  · intro u j before stops cache' order reads
    refine ⟨cache'.trans cache, .stopped free (1 + j) ?_ (Stops.after received (clock ▸ stops)) rfl
      order fun v => ?_⟩
    · rw [count_all]
      exact Nat.add_lt_add_left before 1
    · rw [reads, Standing.left_full full]
  · intro u more done clock' cache' still length kept
    refine ⟨cache'.trans cache, .done free ?_ (if_pos full).symm ?_⟩
    · rw [count_all]
      exact received.append (clock ▸ done)
    · have after : s.wrote b addr data = { clock := s.clock + 3 * s.operations b addr data
                                           count := 1 + s.copies b addr data
                                           own := .active
                                           beside := marked s.own
                                           held := copied (only addr data) s.held
                                             (s.copies b addr data) } := if_pos full
      rw [after]
      refine ⟨⟨cur.other, more, _, still, fun erased => absurd erased (marked_used standing.used),
        length, kept⟩, ?_, ?_⟩
      · show PageState.active ≠ .erased
        decide
      · change u.clock = s.clock + 3 * s.operations b addr data
        change u.clock = t.clock + _ at clock'
        rw [clock', clock, count_all]
        unfold Standing.copies
        omega

theorem wp_eeeWrite_page (honest : Honest env) (inside : addr < b.capacity)
    (standing : StandsAs b s w) :
    wp (handle env) (Crash fun _ => True)
      (fun status t => t.cache = w.cache ∧ Wrotes env b s addr data status t)
      (eeeWrite addr data) w := by
  have small : addr < 0x4000 := Nat.lt_of_lt_of_le inside b.small
  rw [eeeWrite, wp_traced, wp_bind, wp_getVar]
  refine ⟨trivial, trivial, ?_⟩
  by_cases full : s.full b
  · rw [if_neg (standing.full_iff.mpr full)]
    exact wp_post (wp_changePool_page single honest inside standing full)
      fun _ _ wrotes => ⟨trivial, wrotes⟩
  · have room : ¬ Full w := fun none_left => full (standing.full_iff.mp none_left)
    rw [if_pos (not_not.mp room)]
    have free : ¬ s.blocked b := fun blocked => full blocked.1
    have one : s.operations b addr data = 1 := if_neg full
    rcases standing.page with ⟨cur, ws, old, stands, blank, count, held⟩
    have few : ws.length < b.capacity := by
      rw [count]
      exact not_not.mp full
    apply wp_post (wp_eeWriteEl_page single honest small stands few)
    rintro status t (⟨rfl, done, clock, appended, cache⟩ | ⟨rfl, j, first, stops, same⟩)
    · rw [standing.clock] at done clock
      refine ⟨trivial, cache, .done free (by rwa [one]) (if_neg full).symm ?_⟩
      have after : s.wrote b addr data = { s with
          clock := s.clock + 3
          count := s.count + 1
          held := Function.update s.held addr (some data) } := if_neg full
      rw [after]
      refine ⟨⟨cur, _, old, appended, blank, ?_, ?_⟩, standing.used, clock⟩
      · rw [List.length_append, List.length_singleton, count]
      · funext v
        rw [latest_concat ws (decode_element small), held]
        exact (if_congr eq_comm rfl rfl).trans (Function.update_apply s.held addr _ v).symm
    · rw [standing.clock] at stops
      have still := stands.same same
      refine ⟨trivial, same.ram.cache, .stopped free j (by omega) stops rfl
        (still.inOrder standing.used blank) fun v => ?_⟩
      rw [still.reads single, held, Standing.left, if_neg full]

theorem Stands.erased (stands : Stands b cur ws own beside old w)
    (mem : t.mem = pageErased w.mem (b.number (b.first cur.other))) (ram : SameRam w t) :
    Stands b cur ws own .erased (fun _ => eeErased) t := by
  have whole : t.mem = erasedPages w.mem (b.number (b.first cur.other + 0)) 1 := by
    rw [mem, ← erasedPages_succ, erasedPages_zero]
    rfl
  refine ⟨ram.var.trans stands.var, stands.filled.congr fun i inside => ?_, ?_, ?_,
    fun i inside => ?_⟩
  · rw [whole]
    exact slot_outside_erase (Pool.ne_other cur) (by omega) inside
  · have outside := @header_outside_erase b w.mem cur.other cur 0 0 1 b.pos (by omega) (by simp)
    rw [Nat.add_zero (b.first cur)] at outside
    rw [whole, pageState_congr outside, stands.own]
  · rw [whole]
    apply pageState_blank
    intro k header
    apply erasedPages_inside
    · rw [Nat.add_zero]
      omega
    · simp only [Bank.page_eq]
      omega
  · rw [whole]
    exact (Filled.of_erase w.mem cur.other (by omega)).content i inside

/-- A clean erases the old page where a pool change has marked it, or leaves it for later. -/
theorem wp_eeeClean_page (honest : Honest env) (standing : StandsAs b s w) :
    wp (handle env) (Crash fun _ => True)
      (fun _ t => t.cache = w.cache ∧ StandsAs b (s.cleaned env) t) eeeClean w := by
  rcases standing.page with ⟨cur, ws, old, stands, blank, count, held⟩
  rw [eeeClean, wp_traced, wp_bind, wp_getVar]
  refine ⟨trivial, trivial, ?_⟩
  rw [wp_bind]
  apply wp_eeGetState trivial fun _ _ => trivial
  rw [stands.next_state, Standing.cleaned]
  by_cases erasing : s.beside = .erasing
  · rw [if_neg (not_not_intro erasing), if_pos erasing, wp_bind, stands.mounted.flashPage,
      stands.nextPool, stands.mounted.nbPages, single]
    apply wp_fdEraseSectors_timed honest
    · intro done t erased ram clock
      rw [standing.clock] at done clock
      simp only [ne_eq, not_true_eq_false, ↓reduceIte, wp_pure]
      rw [if_pos done]
      exact ⟨trivial, ram.cache, ⟨cur, ws, _, stands.erased single erased ram, fun _ _ _ => rfl,
        count, held⟩, standing.used, clock⟩
    · intro refused t same ram clock
      simp only [ne_eq, Nat.one_ne_zero, not_false_eq_true, ↓reduceIte, wp_pure]
      rw [standing.clock] at refused clock
      rw [refused, if_neg Bool.false_ne_true, ← erasing]
      exact ⟨trivial, ram.cache, ⟨cur, ws, old, stands.same ⟨same, ram⟩, blank, count, held⟩,
        standing.used, clock⟩
  · rw [if_pos erasing, if_neg erasing]
    exact ⟨trivial, rfl, standing⟩

end Single

end Baelux.Eeprom

import Baelux.Zigbee.ServerListOrder
import Mathlib.Data.List.Nodup

/-! The cursor of the server list is a second pointer into it, which no deletion repairs:
when it still points at a listed server, and when not. -/

namespace Baelux.Zigbee

open Chain

def appZigbeeServerlistMaxalloc : Nat := 100

structure ServerTracking where
  list : ServerListState
  /-- The cursor, `ptr` of the file. -/
  ptr : Option Nat
  mAddressBuffer : Nat → ServerlistAddr

def emptyTracking : ServerTracking := ⟨emptyServerList, none, fun _ => 0⟩

def addrAt (s : ServerTracking) (p : Nat) : Option ServerlistAddr :=
  (s.list.heap.cells p).map fun node => node.value.addr

def moveTo (s : ServerTracking) (p : Nat) : Option (ServerlistAddr × ServerTracking) :=
  (addrAt s p).map fun addr => (addr, { s with ptr := some p })

def next (s : ServerTracking) : Option (ServerlistAddr × ServerTracking) :=
  match s.list.head with
  | none => some (0, s)
  | some head =>
      match s.ptr with
      | none => moveTo s head
      | some ptr => do
          let node ← s.list.heap.cells ptr
          moveTo s (node.next.getD head)

def cur (s : ServerTracking) : Option ServerlistAddr :=
  match s.ptr with
  | none =>
      match s.list.head with
      | none => some 0
      | some head => addrAt s head
  | some ptr => addrAt s ptr

def clearLoop (buffer : Nat → ServerlistAddr) :
    Nat → Nat → ServerListState → Option ServerListState
  | 0, _, s => some s
  | remaining + 1, i, s =>
      if buffer i = 0 then some s
      else do
        let s ← delete s (buffer i)
        clearLoop buffer remaining (i + 1) s

def clearTimeouts (s : ServerTracking) : Option ServerTracking := do
  let list ← clearLoop s.mAddressBuffer appZigbeeServerlistMaxalloc 0 s.list
  some { s with list := list, mAddressBuffer := fun _ => 0 }

inductive CursorOp where
  | list (op : ServerListOp)
  | clearTimeouts
  | next
  | cur

namespace CursorOp

def perform (A : Allocator Serverlist) (s : ServerTracking) :
    CursorOp → Option (Option ServerlistAddr × ServerTracking)
  | list op => (op.perform A s.list).map fun l => (none, { s with list := l })
  | clearTimeouts => (Zigbee.clearTimeouts s).map fun t => (none, t)
  | next => (Zigbee.next s).map fun r => (some r.1, r.2)
  | cur => (Zigbee.cur s).map fun addr => (some addr, s)

def kept (l : List ServerlistAddr) : CursorOp → List ServerlistAddr
  | list op => op.kept l
  | _ => l

def following (l : List ServerlistAddr) (addr : ServerlistAddr) : Option ServerlistAddr :=
  match l.dropWhile (· ≠ addr) with
  | _ :: behind :: _ => some behind
  | _ => l.head?

def moved (l : List ServerlistAddr) (c : Option ServerlistAddr) : CursorOp → Option ServerlistAddr
  | next =>
      match c with
      | none => l.head?
      | some addr => following l addr
  | _ => c

/-- Deletes only behind the cursor, and clears only a list without a cursor. -/
def Spares (l : List ServerlistAddr) (c : Option ServerlistAddr) : CursorOp → Prop
  | list (.delete addr) => ∀ under ∈ c, under ∈ l.takeWhile (· ≠ addr)
  | list .deleteAll => l ≠ [] ∧ c = none
  | _ => True

end CursorOp

open CursorOp

def CursorListed (s : ServerTracking) : Prop :=
  ∃ keys, Keyed s.list keys ∧ ∀ p ∈ s.ptr, p ∈ keys.map Prod.fst

def AnswerListed (s : ServerTracking) (answer : Option ServerlistAddr) : Prop :=
  ∃ l, Lists s.list l ∧ ∀ addr ∈ answer, addr ∈ l ∨ (l = [] ∧ addr = 0)

/-- Every operation of a run succeeds, the cursor stays in the list and so do the answers. -/
def CursorValid (A : Allocator Serverlist) : ServerTracking → List CursorOp → Prop
  | s, [] => CursorListed s
  | s, op :: rest => CursorListed s ∧ ∃ answer t, op.perform A s = some (answer, t) ∧
      AnswerListed t answer ∧ CursorValid A t rest

def AllSpare : List ServerlistAddr → Option ServerlistAddr → List CursorOp → Prop
  | _, _, [] => True
  | l, c, op :: rest => op.Spares l c ∧ AllSpare (op.kept l) (op.moved l c) rest

/-! ## One operation -/

inductive At (keys : List (Nat × ServerlistAddr)) : Option Nat → Option ServerlistAddr → Prop where
  | nowhere : At keys none none
  | node {p : Nat} {addr : ServerlistAddr} (member : (p, addr) ∈ keys) : At keys (some p) (some addr)

structure Tracked (s : ServerTracking) (keys : List (Nat × ServerlistAddr))
    (c : Option ServerlistAddr) : Prop where
  keyed : Keyed s.list keys
  noFilter : s.list.mFilter = 0
  blank : s.mAddressBuffer = fun _ => 0
  cursor : At keys s.ptr c

variable {s t : ServerTracking} {keys : List (Nat × ServerlistAddr)} {c : Option ServerlistAddr}

theorem tracked_empty : Tracked emptyTracking [] none := ⟨keyed_empty, rfl, rfl, .nowhere⟩

theorem Tracked.listed (tracked : Tracked s keys c) : CursorListed s := by
  refine ⟨keys, tracked.keyed, fun p pointed => ?_⟩
  have cursor := tracked.cursor
  rw [Option.mem_def.mp pointed] at cursor
  cases cursor with
  | node member => exact List.mem_map_of_mem member

theorem At.mono {keys' : List (Nat × ServerlistAddr)} {p : Option Nat} (cursor : At keys p c)
    (more : ∀ key ∈ keys, key ∈ keys') : At keys' p c := by
  cases cursor with
  | nowhere => exact .nowhere
  | node member => exact .node (more _ member)

theorem Keyed.split {p : Nat} {addr : ServerlistAddr} (keyed : Keyed s.list keys)
    (member : (p, addr) ∈ keys) : ∃ front back, keys = front ++ (p, addr) :: back ∧
      addr ∉ front.map Prod.snd ∧ ∃ node, s.list.heap.cells p = some node ∧
        node.value.addr = addr ∧ node.next = (back.map Prod.fst).head? := by
  rcases keyed with ⟨nodes, linked, rfl, nodup⟩
  rcases List.mem_map.mp member with ⟨⟨q, value⟩, listed, same⟩
  rcases Prod.mk.inj same with ⟨rfl, rfl⟩
  rcases List.append_of_mem listed with ⟨front, back, rfl⟩
  rw [List.map_append, List.map_cons] at nodup ⊢
  refine ⟨_, _, rfl, fun before => ?_, ?_⟩
  · rw [List.map_append, List.map_cons, List.nodup_append] at nodup
    exact nodup.2.2 _ before _ (List.mem_cons_self ..) rfl
  · rcases linked.cell with ⟨before, after, last, cell, _, segment⟩
    refine ⟨_, cell, rfl, ?_⟩
    cases back with
    | nil => exact segment.2
    | cons node rest => exact segment.1

theorem Keyed.nodup_fst (keyed : Keyed s.list keys) : (keys.map Prod.fst).Nodup := by
  rcases keyed with ⟨nodes, linked, rfl, _⟩
  rw [List.map_map]
  exact linked.nodup

theorem Keyed.nodup_snd (keyed : Keyed s.list keys) : (keys.map Prod.snd).Nodup := by
  rcases keyed with ⟨_, _, _, nodup⟩
  exact nodup

theorem Keyed.kept_iff {p : Nat} {under : ServerlistAddr} (keyed : Keyed s.list keys)
    (member : (p, under) ∈ keys) (addr : ServerlistAddr) :
    (p ∈ (keys.takeWhile (·.2 ≠ addr)).map Prod.fst ↔
      (p, under) ∈ keys.takeWhile (·.2 ≠ addr)) ∧
    (under ∈ (keys.map Prod.snd).takeWhile (· ≠ addr) ↔
      (p, under) ∈ keys.takeWhile (·.2 ≠ addr)) := by
  have inside : ∀ key ∈ keys.takeWhile (·.2 ≠ addr), key ∈ keys :=
    fun key kept => (List.takeWhile_sublist _).subset kept
  constructor
  · refine ⟨fun pointed => ?_, List.mem_map_of_mem⟩
    rcases List.mem_map.mp pointed with ⟨key, kept, same⟩
    exact List.inj_on_of_nodup_map keyed.nodup_fst (inside key kept) member same ▸ kept
  · have mapped : (keys.map Prod.snd).takeWhile (· ≠ addr) =
        (keys.takeWhile (·.2 ≠ addr)).map Prod.snd := List.takeWhile_map
    rw [mapped]
    refine ⟨fun listed => ?_, List.mem_map_of_mem⟩
    rcases List.mem_map.mp listed with ⟨key, kept, same⟩
    exact List.inj_on_of_nodup_map keyed.nodup_snd (inside key kept) member same ▸ kept

theorem Keyed.head (keyed : Keyed s.list keys) : s.list.head = (keys.map Prod.fst).head? := by
  rcases keyed with ⟨nodes, linked, rfl, _⟩
  cases nodes with
  | nil => exact linked.start_nil
  | cons node rest => exact linked.start_cons

theorem Keyed.addrAt {p : Nat} {addr : ServerlistAddr} (keyed : Keyed s.list keys)
    (member : (p, addr) ∈ keys) : addrAt s p = some addr := by
  rcases keyed.split member with ⟨_, _, _, _, node, cell, rfl, _⟩
  simp only [Zigbee.addrAt, cell, Option.map_some]

theorem tracked_moveTo {p : Nat} {addr : ServerlistAddr} (tracked : Tracked s keys c)
    (member : (p, addr) ∈ keys) :
    ∃ t, moveTo s p = some (addr, t) ∧ Tracked t keys (some addr) := by
  refine ⟨{ s with ptr := some p }, ?_, tracked.keyed, tracked.noFilter, tracked.blank, .node member⟩
  simp only [moveTo, tracked.keyed.addrAt member, Option.map_some]

theorem tracked_next (tracked : Tracked s keys c) : ∃ answer t, next s = some (answer, t) ∧
    Tracked t keys (CursorOp.moved (keys.map Prod.snd) c .next) ∧
    (answer ∈ keys.map Prod.snd ∨ (keys.map Prod.snd = [] ∧ answer = 0)) := by
  have head := tracked.keyed.head
  have cursor := tracked.cursor
  cases keys with
  | nil =>
    have nothing : s.list.head = none := head
    refine ⟨0, s, ?_, ?_, .inr ⟨rfl, rfl⟩⟩
    · simp only [next, nothing]
    · generalize s.ptr = p at cursor
      cases cursor with
      | nowhere => exact tracked
      | node member => cases member
  | cons first rest =>
    rcases first with ⟨p₀, addr₀⟩
    have start : s.list.head = some p₀ := head
    have member₀ : (p₀, addr₀) ∈ (p₀, addr₀) :: rest := List.mem_cons_self ..
    generalize pointed : s.ptr = p at cursor
    cases cursor with
    | nowhere =>
      rcases tracked_moveTo tracked member₀ with ⟨t, moves, after⟩
      refine ⟨addr₀, t, ?_, after, .inl (List.mem_map_of_mem member₀)⟩
      simp only [next, start, pointed, moves]
    | @node p addr member =>
      rcases tracked.keyed.split member with ⟨front, back, shape, apart, node, cell, _, link⟩
      have behind : ((((p₀, addr₀) :: rest).map Prod.snd).dropWhile (· ≠ addr)) =
          addr :: back.map Prod.snd := by
        rw [shape, List.map_append, List.map_cons, List.dropWhile_append_of_pos]
        · simp
        · intro other before
          exact decide_eq_true (ne_of_mem_of_not_mem before apart)
      cases back with
      | nil =>
        rcases tracked_moveTo tracked member₀ with ⟨t, moves, after⟩
        refine ⟨addr₀, t, ?_, ?_, .inl (List.mem_map_of_mem member₀)⟩
        · have stop : node.next = none := link
          simp only [next, start, pointed, cell, stop, Option.bind_eq_bind, Option.bind_some,
            Option.getD_none, moves]
        · simp only [moved, following, behind]
          exact after
      | cons key back =>
        rcases key with ⟨q, addr'⟩
        have member' : (q, addr') ∈ (p₀, addr₀) :: rest := by
          rw [shape]
          simp
        rcases tracked_moveTo tracked member' with ⟨t, moves, after⟩
        refine ⟨addr', t, ?_, ?_, .inl (List.mem_map_of_mem member')⟩
        · have more : node.next = some q := link
          simp only [next, start, pointed, cell, more, Option.bind_eq_bind, Option.bind_some,
            Option.getD_some, moves]
        · simp only [moved, following, behind]
          exact after

theorem tracked_cur (tracked : Tracked s keys c) : ∃ answer, cur s = some answer ∧
    (answer ∈ keys.map Prod.snd ∨ (keys.map Prod.snd = [] ∧ answer = 0)) := by
  have head := tracked.keyed.head
  have cursor := tracked.cursor
  generalize pointed : s.ptr = p at cursor
  cases cursor with
  | @node p addr member =>
    refine ⟨addr, ?_, .inl (List.mem_map_of_mem member)⟩
    simp only [cur, pointed, tracked.keyed.addrAt member]
  | nowhere =>
    cases keys with
    | nil =>
      have nothing : s.list.head = none := head
      exact ⟨0, by simp only [cur, pointed, nothing], .inr ⟨rfl, rfl⟩⟩
    | cons first rest =>
      have start : s.list.head = some first.1 := head
      have member : (first.1, first.2) ∈ first :: rest := List.mem_cons_self ..
      refine ⟨first.2, ?_, .inl (List.mem_map_of_mem member)⟩
      simp only [cur, pointed, start, tracked.keyed.addrAt member]

theorem clearTimeouts_blank (blank : s.mAddressBuffer = fun _ => 0) :
    clearTimeouts s = some { s with mAddressBuffer := fun _ => 0 } := by
  have stops : clearLoop s.mAddressBuffer appZigbeeServerlistMaxalloc 0 s.list = some s.list := by
    rw [blank]
    rfl
  simp only [clearTimeouts, stops, Option.bind_eq_bind, Option.bind_some]

theorem Tracked.answered (tracked : Tracked s keys c) {answer : Option ServerlistAddr}
    (listed : ∀ addr ∈ answer, addr ∈ keys.map Prod.snd ∨ (keys.map Prod.snd = [] ∧ addr = 0)) :
    AnswerListed s answer :=
  ⟨_, tracked.keyed.lists, listed⟩

/-- An operation that spares the cursor. -/
theorem spared_step (A : Allocator Serverlist) (tracked : Tracked s keys c) (op : CursorOp)
    (spares : op.Spares (keys.map Prod.snd) c) :
    ∃ answer t keys', op.perform A s = some (answer, t) ∧
      Tracked t keys' (op.moved (keys.map Prod.snd) c) ∧
      keys'.map Prod.snd = op.kept (keys.map Prod.snd) ∧ AnswerListed t answer := by
  rcases tracked with ⟨keyed, noFilter, blank, cursor⟩
  have silent : ∀ {t : ServerTracking} {keys'}, Tracked t keys' c → AnswerListed t none :=
    fun after => after.answered fun _ nothing => nomatch nothing
  cases op with
  | list op =>
    cases op with
    | update addr timestamp =>
      obtain ⟨verdict, l, p, updated, after, noFilter'⟩ := update_keyed A addr noFilter timestamp keyed
      have more : ∀ key ∈ keys, key ∈
          if addr ∈ keys.map Prod.snd then keys else keys ++ [(p, addr)] := by
        intro key member
        split
        · exact member
        · exact List.mem_append_left _ member
      have tracked' : Tracked { s with list := l } _ c := ⟨after, noFilter', blank, cursor.mono more⟩
      refine ⟨none, _, _, ?_, tracked', ?_, silent tracked'⟩
      · simp only [CursorOp.perform, ServerListOp.perform, updated, Option.map_some]
      · rw [apply_ite (List.map Prod.snd), List.map_append]
        rfl
    | delete addr =>
      rcases delete_keyed addr keyed with ⟨l, deleted, after, same⟩
      have ahead : At (keys.takeWhile (·.2 ≠ addr)) s.ptr c := by
        generalize s.ptr = p at cursor
        cases cursor with
        | nowhere => exact .nowhere
        | @node p under member =>
          exact .node ((keyed.kept_iff member addr).2.mp (spares under rfl))
      have tracked' : Tracked { s with list := l } _ c := ⟨after, same.trans noFilter, blank, ahead⟩
      refine ⟨none, _, _, ?_, tracked', ?_, silent tracked'⟩
      · simp only [CursorOp.perform, ServerListOp.perform, deleted, Option.map_some]
      · rw [CursorOp.kept, ServerListOp.kept, List.takeWhile_map]
        rfl
    | deleteAll =>
      rcases spares with ⟨real, rfl⟩
      have nonempty : keys ≠ [] := fun empty => real (empty ▸ rfl)
      rcases deleteAll_keyed keyed nonempty with ⟨l, cleared, after, same⟩
      have ahead : At [] s.ptr none := by
        generalize s.ptr = p at cursor
        cases cursor with
        | nowhere => exact .nowhere
      have tracked' : Tracked { s with list := l } [] none := ⟨after, same.trans noFilter, blank, ahead⟩
      refine ⟨none, _, _, ?_, tracked', rfl, silent tracked'⟩
      simp only [CursorOp.perform, ServerListOp.perform, cleared, Option.map_some]
  | clearTimeouts =>
    have tracked' : Tracked { s with mAddressBuffer := fun _ => 0 } keys c :=
      ⟨keyed, noFilter, rfl, cursor⟩
    refine ⟨none, _, keys, ?_, tracked', rfl, silent tracked'⟩
    simp only [CursorOp.perform, clearTimeouts_blank blank, Option.map_some]
  | next =>
    rcases tracked_next ⟨keyed, noFilter, blank, cursor⟩ with ⟨answer, t, moves, after, listed⟩
    refine ⟨some answer, t, keys, ?_, after, rfl, after.answered fun addr same => ?_⟩
    · simp only [CursorOp.perform, moves, Option.map_some]
    · exact Option.some.inj same ▸ listed
  | cur =>
    have tracked : Tracked s keys c := ⟨keyed, noFilter, blank, cursor⟩
    rcases tracked_cur tracked with ⟨answer, reads, listed⟩
    refine ⟨some answer, s, keys, ?_, tracked, rfl, tracked.answered fun addr same => ?_⟩
    · simp only [CursorOp.perform, reads, Option.map_some]
    · exact Option.some.inj same ▸ listed

/-- An operation that does not: where it succeeds at all, the cursor is left outside. -/
theorem unspared_step (A : Allocator Serverlist) (tracked : Tracked s keys c) (op : CursorOp)
    (harms : ¬ op.Spares (keys.map Prod.snd) c) {answer : Option ServerlistAddr}
    (performed : op.perform A s = some (answer, t)) : ¬ CursorListed t := by
  rcases tracked with ⟨keyed, noFilter, blank, cursor⟩
  intro holds
  rcases holds with ⟨keys', keyed', pointed⟩
  generalize under : s.ptr = p at cursor
  cases op with
  | list op =>
    rcases Option.map_eq_some_iff.mp performed with ⟨l, done, same⟩
    rcases Prod.mk.inj same with ⟨rfl, rfl⟩
    cases op with
    | update addr timestamp => exact harms trivial
    | delete addr =>
      rcases delete_keyed addr keyed with ⟨l', deleted, after, _⟩
      obtain rfl := Option.some.inj (deleted.symm.trans done)
      obtain rfl := after.unique keyed'
      cases cursor with
      | nowhere => exact harms fun _ nothing => nomatch nothing
      | @node p addr' member =>
        apply harms
        intro other same
        obtain rfl := Option.some.inj same
        rcases keyed.kept_iff member addr with ⟨by_pointer, by_address⟩
        exact by_address.mpr (by_pointer.mp (pointed p under))
    | deleteAll =>
      by_cases real : keys = []
      · subst real
        cases (deleteAll_empty keyed.lists).symm.trans done
      · rcases deleteAll_keyed keyed real with ⟨l', cleared, after, _⟩
        obtain rfl := Option.some.inj (cleared.symm.trans done)
        obtain rfl := after.unique keyed'
        cases cursor with
        | nowhere => exact harms ⟨fun empty => real (List.map_eq_nil_iff.mp empty), rfl⟩
        | node member => cases pointed _ under
  | clearTimeouts => exact harms trivial
  | next => exact harms trivial
  | cur => exact harms trivial

/-! ## Runs -/

theorem CursorValid.listed {A : Allocator Serverlist} {ops : List CursorOp}
    (valid : CursorValid A s ops) : CursorListed s := by
  cases ops with
  | nil => exact valid
  | cons op rest => exact valid.1

private theorem valid_iff (A : Allocator Serverlist) (tracked : Tracked s keys c)
    (ops : List CursorOp) : CursorValid A s ops ↔ AllSpare (keys.map Prod.snd) c ops := by
  induction ops generalizing s keys c with
  | nil => exact ⟨fun _ => trivial, fun _ => tracked.listed⟩
  | cons op rest ih =>
    constructor
    · intro holds
      rcases holds with ⟨_, answer, t, performed, _, valid⟩
      have spares : op.Spares (keys.map Prod.snd) c := by
        by_contra harms
        exact unspared_step A tracked op harms performed valid.listed
      rcases spared_step A tracked op spares with ⟨answer', t', keys', performed', after, kept, _⟩
      rcases Prod.mk.inj (Option.some.inj (performed.symm.trans performed')) with ⟨_, rfl⟩
      exact ⟨spares, kept ▸ (ih after).mp valid⟩
    · intro holds
      rcases holds with ⟨spares, later⟩
      obtain ⟨answer, t, keys', performed, after, kept, answered⟩ := spared_step A tracked op spares
      rw [← kept] at later
      exact ⟨tracked.listed, answer, t, performed, answered, (ih after).mpr later⟩

/-- From the empty list, with any addresses: the cursor stays valid exactly as long as only
servers behind it are deleted, and the list is cleared only while it has servers and no cursor. -/
theorem cursor_valid_iff (A : Allocator Serverlist) (ops : List CursorOp) :
    CursorValid A emptyTracking ops ↔ AllSpare [] none ops :=
  valid_iff A tracked_empty ops

/-- Deleting the server under the cursor leaves the cursor on a freed node. -/
theorem deletion_under_cursor : ¬ CursorValid (Allocator.upward _) emptyTracking
    [.list (.update 1 0), .next, .list (.delete 1)] := by
  intro valid
  have spared := (valid_iff _ tracked_empty _).mp valid
  have under := spared.2.2.1 (1 : ServerlistAddr) rfl
  revert under
  decide

end Baelux.Zigbee

import Baelux.Library.Chain

/-! `app_zigbee_clientList.c`: the known clients, in a list of nodes on the heap, and when
an operation on the list does what it says.
`none` stands for a run that reads or frees what is not allocated, or that never ends. -/

namespace Baelux.Zigbee.ClientList

open Chain

abbrev Address := BitVec 16

structure ClientListState where
  heap : Heap Address
  head : Option Nat

def emptyClientList : ClientListState := ⟨Heap.empty, none⟩

/-- A loop over a list takes as many turns as there are nodes. -/
def ClientListState.turns (s : ClientListState) : Nat := s.heap.bound + 1

def getTail (s : ClientListState) (start : Nat) : Option Nat := lastFrom s.heap s.turns start

/-- The first node is read before the loop asks for NULL. -/
def findNode (s : ClientListState) (addr : Address) : Option (Option Nat) := do
  let head ← s.head
  let node ← s.heap.cells head
  if node.value = addr then some (some head)
  else searchFrom s.heap (fun value => value = addr) s.turns s.head

def deleteAll (s : ClientListState) : Option ClientListState := do
  let base ← s.head
  let heap ← emptyBehind base s.turns s.heap
  let heap ← heap.release s.head
  some ⟨heap, none⟩

def delete (s : ClientListState) (addr : Address) : Option ClientListState := do
  let cur ← findNode s addr
  if cur = s.head then
    let heap ← s.heap.release s.head
    some ⟨heap, none⟩
  else
    match cur with
    | none => some s
    | some ptr => do
        let node ← s.heap.cells ptr
        let prev ← node.prev
        let before ← s.heap.cells prev
        let heap ← (s.heap.set prev { before with next := none }).release (some ptr)
        some { s with heap := heap }

/-- `app_zigbee_clientList_add`, which always answers true. -/
def add (A : Allocator Address) (s : ClientListState) (addr : Address) : Option ClientListState :=
  match s.head with
  | none =>
      let ptr := A.malloc s.heap
      some ⟨s.heap.set ptr ⟨addr, none, none⟩, some ptr⟩
  | some head => do
      let tail ← getTail s head
      let newTail := A.malloc s.heap
      let node ← s.heap.cells tail
      let heap := s.heap.set tail { node with next := some newTail }
      some { s with heap := heap.set newTail ⟨addr, some tail, none⟩ }

def find (s : ClientListState) (addr : Address) : Option Bool :=
  match s.head with
  | none => some false
  | some _ => do
      let ptr ← findNode s addr
      some ptr.isSome

inductive ClientListOp where
  | add (addr : Address)
  | delete (addr : Address)
  | deleteAll
  deriving DecidableEq, Repr

def RemovesOne (addr : Address) (l l' : List Address) : Prop :=
  (∃ front back, l = front ++ addr :: back ∧ l' = front ++ back) ∨ (addr ∉ l ∧ l' = l)

namespace ClientListOp

def perform (A : Allocator Address) (s : ClientListState) : ClientListOp → Option ClientListState
  | add addr => ClientList.add A s addr
  | delete addr => ClientList.delete s addr
  | deleteAll => ClientList.deleteAll s

def Intended (l l' : List Address) : ClientListOp → Prop
  | add addr => l' = l ++ [addr]
  | delete addr => RemovesOne addr l l'
  | deleteAll => l' = []

def after (l : List Address) : ClientListOp → List Address
  | add addr => l ++ [addr]
  | delete addr => l.erase addr
  | deleteAll => []

/-- What the code makes of the list: a deletion drops the client and all behind it. -/
def kept (l : List Address) : ClientListOp → List Address
  | add addr => l ++ [addr]
  | delete addr => l.takeWhile (· ≠ addr)
  | deleteAll => []

/-- Deletes from a list that has a client, and none that another one stands behind. -/
def Fits (l : List Address) : ClientListOp → Prop
  | add _ => True
  | delete addr => l ≠ [] ∧ addr ∉ l.dropLast
  | deleteAll => l ≠ []

end ClientListOp

def Lists (s : ClientListState) (l : List Address) : Prop :=
  ∃ nodes, Linked s.heap s.head nodes ∧ nodes.map Prod.snd = l

/-- At every point of a run a search succeeds for the listed addresses and no others, and
every operation ends with the addresses it is meant to leave. -/
def Behaves (A : Allocator Address) :
    ClientListState → List Address → List ClientListOp → Prop
  | s, l, [] => Lists s l ∧ ∀ addr, find s addr = some (decide (addr ∈ l))
  | s, l, op :: rest =>
      (Lists s l ∧ ∀ addr, find s addr = some (decide (addr ∈ l))) ∧
        ∃ t l', op.perform A s = some t ∧ op.Intended l l' ∧ Behaves A t l' rest

def AllFit : List Address → List ClientListOp → Prop
  | _, [] => True
  | l, op :: rest => op.Fits l ∧ AllFit (op.after l) rest

/-! ## One operation -/

section Operations

variable {s : ClientListState} {l : List Address} {addr : Address} {nodes : List (Nat × Address)}

theorem lists_empty : Lists emptyClientList [] := ⟨[], Linked.nil, rfl⟩

theorem Lists.unique {l' : List Address} (lists : Lists s l) (lists' : Lists s l') : l = l' := by
  rcases lists with ⟨nodes, linked, rfl⟩
  rcases lists' with ⟨nodes', linked', rfl⟩
  rw [linked.unique linked']

private theorem first_node (listed : addr ∈ nodes.map Prod.snd) :
    ∃ front p back, nodes = front ++ (p, addr) :: back ∧ addr ∉ front.map Prod.snd := by
  rcases List.eq_append_cons_of_mem listed with ⟨before, behind, split, first⟩
  rcases List.map_eq_append_iff.mp split with ⟨front, rest, rfl, rfl, split'⟩
  rcases List.map_eq_cons_iff.mp split' with ⟨⟨p, _⟩, back, rfl, rfl, rfl⟩
  exact ⟨front, p, back, rfl, first⟩

theorem findNode_first {front back : List (Nat × Address)} {p : Nat}
    (linked : Linked s.heap s.head (front ++ (p, addr) :: back))
    (first : addr ∉ front.map Prod.snd) : findNode s addr = some (some p) := by
  rcases linked.segment with ⟨last, segment⟩
  have bounded := linked.length_le
  rw [List.length_append, List.length_cons] at bounded
  have search : searchFrom s.heap (fun value => value = addr) s.turns s.head = some (some p) := by
    apply searchFrom_found _ segment
    · rw [ClientListState.turns]
      omega
    · intro node member same
      exact first (List.mem_map.mpr ⟨node, member, of_decide_eq_true same⟩)
    · exact decide_eq_true rfl
  cases front with
  | nil =>
      rcases linked.cell with ⟨before, after, _, cell, _, _⟩
      simp only [findNode, linked.start_cons, cell, Option.bind_eq_bind, Option.bind_some,
        ↓reduceIte]
  | cons node rest =>
      rcases node with ⟨q, value⟩
      rcases segment with ⟨start, next, cell, _⟩
      have other : value ≠ addr := fun same => first (same ▸ List.mem_cons_self ..)
      rw [start] at search
      simp only [findNode, start, cell, Option.bind_eq_bind, Option.bind_some, other, ↓reduceIte]
      exact search

theorem findNode_none (linked : Linked s.heap s.head nodes) (real : nodes ≠ [])
    (absent : addr ∉ nodes.map Prod.snd) : findNode s addr = some none := by
  rcases linked.segment with ⟨last, segment⟩
  have search : searchFrom s.heap (fun value => value = addr) s.turns s.head = some none := by
    apply searchFrom_absent _ segment (Nat.le_succ_of_le linked.length_le)
    intro node member same
    exact absent (List.mem_map.mpr ⟨node, member, of_decide_eq_true same⟩)
  cases nodes with
  | nil => exact absurd rfl real
  | cons node rest =>
      rcases node with ⟨q, value⟩
      rcases segment with ⟨start, next, cell, _⟩
      have other : value ≠ addr := fun same => absent (same ▸ List.mem_cons_self ..)
      rw [start] at search
      simp only [findNode, start, cell, Option.bind_eq_bind, Option.bind_some, other, ↓reduceIte]
      exact search

theorem find_lists (lists : Lists s l) (addr : Address) :
    find s addr = some (decide (addr ∈ l)) := by
  rcases lists with ⟨nodes, linked, rfl⟩
  cases nodes with
  | nil =>
      have start := linked.start_nil
      simp [find, start]
  | cons node rest =>
      have start := linked.start_cons
      by_cases listed : addr ∈ (node :: rest).map Prod.snd
      · rcases first_node listed with ⟨front, p, back, split, first⟩
        have found : findNode s addr = some (some p) := findNode_first (split ▸ linked) first
        simp only [find, start, found, Option.bind_eq_bind, Option.bind_some, Option.isSome_some,
          listed, decide_true]
      · have found := findNode_none linked (List.cons_ne_nil _ _) listed
        simp only [find, start, found, Option.bind_eq_bind, Option.bind_some, Option.isSome_none,
          listed, decide_false]

theorem add_lists (A : Allocator Address) (lists : Lists s l) (addr : Address) :
    ∃ t, add A s addr = some t ∧ Lists t (l ++ [addr]) := by
  rcases lists with ⟨nodes, linked, rfl⟩
  rcases List.eq_nil_or_concat' nodes with rfl | ⟨front, ⟨p, value⟩, rfl⟩
  · have start := linked.start_nil
    simp only [add, start]
    exact ⟨_, rfl, _, linked_single s.heap, rfl⟩
  · rcases linked.segment with ⟨last, segment⟩
    obtain ⟨head, start⟩ : ∃ head, s.head = some head := by
      cases front with
      | nil => exact ⟨_, linked.start_cons⟩
      | cons node rest => exact ⟨_, linked.start_cons⟩
    rw [start] at segment
    have bounded := linked.length_le
    rw [List.length_append] at bounded
    have tail : getTail s head = some p := by
      apply lastFrom_last segment
      rw [ClientListState.turns]
      omega
    rcases linked.cell with ⟨before, after, _, cell, _, _⟩
    simp only [add, start, tail, cell, Option.bind_eq_bind, Option.bind_some]
    refine ⟨_, rfl, _, start ▸ linked.concat_new cell (A.fresh s.heap), ?_⟩
    rw [List.map_append]
    rfl

theorem delete_lists (lists : Lists s l) (real : l ≠ []) (addr : Address) :
    ∃ t, delete s addr = some t ∧ Lists t (l.takeWhile (· ≠ addr)) := by
  rcases lists with ⟨nodes, linked, rfl⟩
  have real' : nodes ≠ [] := fun empty => real (empty ▸ rfl)
  by_cases listed : addr ∈ nodes.map Prod.snd
  · rcases first_node listed with ⟨front, p, back, rfl, first⟩
    have found := findNode_first linked first
    rw [List.map_append, List.map_cons, takeWhile_first _ first]
    rcases linked.cell with ⟨_, _, _, cell, _, _⟩
    rcases List.eq_nil_or_concat' front with rfl | ⟨front, ⟨q, value⟩, rfl⟩
    · have start := linked.start_cons
      simp only [delete, found, start, ↓reduceIte, Heap.release_some cell, Option.bind_eq_bind,
        Option.bind_some]
      exact ⟨_, rfl, [], Linked.nil, rfl⟩
    · rw [List.append_assoc, List.singleton_append] at linked
      have not_head := linked.not_start
      rcases linked.cut_free with ⟨before, after, cell', cell'', same, shortened⟩
      rw [cell''] at same
      simp only [delete, found, not_head, ↓reduceIte, cell'', cell', Heap.release_some same,
        Option.bind_eq_bind, Option.bind_some]
      exact ⟨_, rfl, _, shortened, rfl⟩
  · have found := findNode_none linked real' listed
    rw [takeWhile_absent listed]
    cases nodes with
    | nil => exact absurd rfl real'
    | cons node rest =>
        have start := linked.start_cons
        simp only [delete, found, start, Option.bind_eq_bind, Option.bind_some, reduceCtorEq,
          ↓reduceIte]
        exact ⟨s, rfl, _, linked, rfl⟩

theorem deleteAll_lists (lists : Lists s l) (real : l ≠ []) :
    ∃ t, deleteAll s = some t ∧ Lists t [] := by
  rcases lists with ⟨nodes, linked, rfl⟩
  cases nodes with
  | nil => exact absurd rfl real
  | cons node rest =>
      rcases node with ⟨p, value⟩
      have start := linked.start_cons
      rcases linked.emptied with ⟨heap, emptied, node, cell⟩
      simp only [deleteAll, start, ClientListState.turns, Option.bind_eq_bind, Option.bind_some,
        emptied, Heap.release_some cell]
      exact ⟨_, rfl, [], Linked.nil, rfl⟩

def ClientListOp.ReadsHead : ClientListOp → Prop
  | .add _ => False
  | .delete _ => True
  | .deleteAll => True

/-- Both deletions read through the head without a look at it. -/
theorem perform_empty (A : Allocator Address) (lists : Lists s []) (op : ClientListOp)
    (reads : op.ReadsHead) : op.perform A s = none := by
  rcases lists with ⟨nodes, linked, empty⟩
  obtain rfl := List.map_eq_nil_iff.mp empty
  have start := linked.start_nil
  cases op with
  | add addr => exact absurd reads not_false
  | delete addr =>
      simp only [ClientListOp.perform, delete, findNode, start, Option.bind_eq_bind,
        Option.bind_none]
  | deleteAll =>
      simp only [ClientListOp.perform, deleteAll, start, Option.bind_eq_bind, Option.bind_none]

/-- One operation: the code keeps a well-formed list of what it keeps. -/
theorem perform_lists (A : Allocator Address) (lists : Lists s l) (op : ClientListOp)
    (possible : op.ReadsHead → l ≠ []) : ∃ t, op.perform A s = some t ∧ Lists t (op.kept l) := by
  cases op with
  | add addr => exact add_lists A lists addr
  | delete addr => exact delete_lists lists (possible trivial) addr
  | deleteAll => exact deleteAll_lists lists (possible trivial)

end Operations

/-! ## Runs -/

theorem concat_of_last {l : List Address} {addr : Address} (listed : addr ∈ l)
    (last : addr ∉ l.dropLast) : l = l.dropLast ++ [addr] := by
  rcases List.eq_nil_or_concat' l with rfl | ⟨front, value, rfl⟩
  · cases listed
  · rw [List.dropLast_concat] at last ⊢
    rcases List.mem_append.mp listed with before | here
    · exact absurd before last
    · rw [List.mem_singleton.mp here]

theorem removesOne_takeWhile_iff (l : List Address) (addr : Address) :
    RemovesOne addr l (l.takeWhile (· ≠ addr)) ↔ addr ∉ l.dropLast := by
  by_cases listed : addr ∈ l
  · constructor
    · intro removes
      rcases List.eq_append_cons_of_mem listed with ⟨front, back, rfl, first⟩
      rw [takeWhile_first _ first] at removes
      rcases removes with ⟨front', back', split, same⟩ | ⟨absent, _⟩
      · have short : back.length = 0 := by
          have lengths := congrArg List.length split
          rw [same] at lengths
          simp only [List.length_append, List.length_cons] at lengths
          omega
        obtain rfl := List.eq_nil_of_length_eq_zero short
        rwa [List.dropLast_concat]
      · exact absurd listed absent
    · intro last
      have split := concat_of_last listed last
      have shorter : l.takeWhile (· ≠ addr) = l.dropLast := by
        rw [split, takeWhile_first [] last, List.dropLast_concat]
      exact Or.inl ⟨l.dropLast, [], split, shorter.trans (List.append_nil _).symm⟩
  · rw [takeWhile_absent listed]
    constructor
    · exact fun _ member => listed (List.dropLast_subset l member)
    · exact fun _ => Or.inr ⟨listed, rfl⟩

theorem kept_eq_after {l : List Address} {op : ClientListOp} (fits : op.Fits l) :
    op.kept l = op.after l := by
  cases op with
  | add addr => rfl
  | delete addr =>
      rcases fits with ⟨_, last⟩
      rw [ClientListOp.kept, ClientListOp.after]
      by_cases listed : addr ∈ l
      · rw [concat_of_last listed last, takeWhile_first [] last,
          List.erase_append_right _ last, List.erase_cons_head, List.append_nil]
      · rw [takeWhile_absent listed, List.erase_of_not_mem listed]
  | deleteAll => rfl

theorem intended_kept_iff (l : List Address) (op : ClientListOp)
    (possible : op.ReadsHead → l ≠ []) : op.Intended l (op.kept l) ↔ op.Fits l := by
  cases op with
  | add addr => exact ⟨fun _ => trivial, fun _ => rfl⟩
  | delete addr =>
      rw [ClientListOp.Intended, ClientListOp.kept, removesOne_takeWhile_iff, ClientListOp.Fits]
      exact ⟨fun last => ⟨possible trivial, last⟩, fun fits => fits.2⟩
  | deleteAll => exact ⟨fun _ => possible trivial, fun _ => rfl⟩

theorem real_of_fits {l : List Address} {op : ClientListOp} (fits : op.Fits l)
    (reads : op.ReadsHead) : l ≠ [] := by
  cases op with
  | add addr => exact absurd reads not_false
  | delete addr => exact fits.1
  | deleteAll => exact fits

theorem Behaves.lists {A : Allocator Address} {s : ClientListState} {l : List Address}
    {ops : List ClientListOp} (behaves : Behaves A s l ops) : Lists s l := by
  cases ops with
  | nil => exact behaves.1
  | cons op rest => exact behaves.1.1

private theorem behaves_iff (A : Allocator Address) {s : ClientListState} {l : List Address}
    (lists : Lists s l) (ops : List ClientListOp) : Behaves A s l ops ↔ AllFit l ops := by
  induction ops generalizing s l with
  | nil => exact ⟨fun _ => trivial, fun _ => ⟨lists, find_lists lists⟩⟩
  | cons op rest ih =>
      constructor
      · intro behaves
        rcases behaves with ⟨_, t, l', performed, intended, later⟩
        have possible : op.ReadsHead → l ≠ [] := by
          intro reads empty
          subst empty
          cases (perform_empty A lists op reads).symm.trans performed
        rcases perform_lists A lists op possible with ⟨u, performed', after⟩
        obtain rfl := Option.some.inj (performed'.symm.trans performed)
        obtain rfl := after.unique later.lists
        have fits := (intended_kept_iff l op possible).mp intended
        rw [AllFit, ← kept_eq_after fits]
        exact ⟨fits, (ih after).mp later⟩
      · intro fit
        rcases fit with ⟨fits, later⟩
        rw [← kept_eq_after fits] at later
        rcases perform_lists A lists op (real_of_fits fits) with ⟨t, performed, after⟩
        exact ⟨⟨lists, find_lists lists⟩, t, op.kept l, performed,
          (intended_kept_iff l op (real_of_fits fits)).mpr fits, (ih after).mpr later⟩

/-- From the empty list, with any addresses: the operations do what they are there for exactly
as long as nothing is deleted from an empty list and no client that another stands behind. -/
theorem client_list_behaves_iff (A : Allocator Address) (ops : List ClientListOp) :
    Behaves A emptyClientList [] ops ↔ AllFit [] ops :=
  behaves_iff A lists_empty ops

/-- A deletion from the empty list reads through NULL, and deleting the first of two clients
loses the second. -/
theorem client_deletion_misbehaves :
    (ClientListOp.delete 1).perform (Allocator.upward _) emptyClientList = none ∧
      ClientListOp.deleteAll.perform (Allocator.upward _) emptyClientList = none ∧
      ¬ Behaves (Allocator.upward _) emptyClientList [] [.add 1, .add 2, .delete 1] := by
  refine ⟨rfl, rfl, fun behaves => ?_⟩
  rcases (behaves_iff _ lists_empty _).mp behaves with ⟨_, _, fits, _⟩
  change [(1 : Address), 2] ≠ [] ∧ (1 : Address) ∉ [(1 : Address), 2].dropLast at fits
  revert fits
  decide

end Baelux.Zigbee.ClientList

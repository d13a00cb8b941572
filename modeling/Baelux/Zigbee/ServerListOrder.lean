import Baelux.Zigbee.ServerList

/-! What the operations on the server list do to the addresses in it, and when
that is what a set in order of announcement does. -/

namespace Baelux.Zigbee

open Chain

inductive ServerListOp where
  | update (addr : ServerlistAddr) (timestamp : ServerlistTime)
  | delete (addr : ServerlistAddr)
  | deleteAll

namespace ServerListOp

def perform (A : Allocator Serverlist) (s : ServerListState) : ServerListOp → Option ServerListState
  | update addr timestamp => (Zigbee.update A s addr timestamp).map Prod.snd
  | delete addr => Zigbee.delete s addr
  | deleteAll => Zigbee.deleteAll s

def announced (l : List ServerlistAddr) : ServerListOp → List ServerlistAddr
  | update addr _ => if addr ∈ l then l else l ++ [addr]
  | delete addr => l.erase addr
  | deleteAll => []

/-- What the code makes of the list: a deletion drops the server and all behind it. -/
def kept (l : List ServerlistAddr) : ServerListOp → List ServerlistAddr
  | update addr _ => if addr ∈ l then l else l ++ [addr]
  | delete addr => l.takeWhile (· ≠ addr)
  | deleteAll => []

/-- Deletes only the last server or none, and clears only a list that has one. -/
def Fits (l : List ServerlistAddr) : ServerListOp → Prop
  | update _ _ => True
  | delete addr => addr ∉ l ∨ l.getLast? = some addr
  | deleteAll => l ≠ []

end ServerListOp

open ServerListOp

def Lists (s : ServerListState) (l : List ServerlistAddr) : Prop :=
  ∃ nodes, Linked s.heap s.head nodes ∧ nodes.map (fun node => node.2.addr) = l ∧ l.Nodup

def Keyed (s : ServerListState) (keys : List (Nat × ServerlistAddr)) : Prop :=
  ∃ nodes, Linked s.heap s.head nodes ∧ nodes.map (fun node => (node.1, node.2.addr)) = keys ∧
    (keys.map Prod.snd).Nodup

def Follows (A : Allocator Serverlist) :
    ServerListState → List ServerlistAddr → List ServerListOp → Prop
  | s, l, [] => Lists s l
  | s, l, op :: rest =>
      Lists s l ∧ ∃ t, op.perform A s = some t ∧ Follows A t (op.announced l) rest

def AllFit : List ServerlistAddr → List ServerListOp → Prop
  | _, [] => True
  | l, op :: rest => op.Fits l ∧ AllFit (op.announced l) rest

/-! ## Traversals -/

section Traversals

variable {heap : Heap Serverlist} {prev start last : Option Nat} {nodes : List (Nat × Serverlist)}

theorem getTail_eq (heap : Heap Serverlist) (turns ptr : Nat) :
    getTail heap turns ptr = lastFrom heap turns ptr := by
  induction turns generalizing ptr with
  | zero => rfl
  | succ turns ih =>
      have same : getTail heap turns = lastFrom heap turns := funext ih
      rw [getTail, same]
      rfl

theorem findLoop_eq (heap : Heap Serverlist) (addr : ServerlistAddr) (turns : Nat)
    (start : Option Nat) :
    findLoop heap addr turns start = searchFrom heap (fun value => value.addr = addr) turns start := by
  induction turns generalizing start with
  | zero => cases start <;> rfl
  | succ turns ih =>
      cases start with
      | none => rfl
      | some ptr => simp only [findLoop, searchFrom, ih, decide_eq_true_eq]

theorem release_eq (heap : Heap Serverlist) (ptr : Option Nat) :
    release heap ptr = heap.release ptr := by
  cases ptr <;> rfl

theorem deleteLoop_eq (base turns : Nat) (heap : Heap Serverlist) :
    deleteLoop base turns heap = emptyBehind base turns heap := by
  induction turns generalizing heap with
  | zero => rfl
  | succ turns ih =>
      have same : deleteLoop base turns = emptyBehind base turns := funext ih
      have releases : release = Heap.release := funext₂ release_eq
      rw [deleteLoop, same, releases]
      rfl

theorem checkLoop_verdict (timestamp : ServerlistTime) {turns : Nat}
    (segment : Segment heap.cells prev start nodes last none) (enough : nodes.length ≤ turns) :
    checkLoop heap timestamp turns start = some (decide (∀ node ∈ nodes,
      ¬ unrecognizableTimeout ≤ (timestamp - node.2.lastUpdatedTime).toNat)) := by
  induction nodes generalizing prev start turns with
  | nil =>
      rcases segment with ⟨_, rfl⟩
      cases turns <;> simp [checkLoop]
  | cons node rest ih =>
      rcases node with ⟨p, value⟩
      rcases segment with ⟨rfl, next, cell, segment⟩
      cases turns with
      | zero => exact absurd enough (Nat.not_succ_le_zero _)
      | succ turns =>
          simp only [checkLoop, cell, Option.bind_eq_bind, Option.bind_some, List.forall_mem_cons]
          by_cases silent : unrecognizableTimeout ≤ (timestamp - value.lastUpdatedTime).toNat
          · simp only [silent, ↓reduceIte, not_true_eq_false, false_and, decide_false]
          · rw [if_neg silent, ih segment (Nat.le_of_succ_le_succ enough)]
            simp only [silent, not_false_eq_true, true_and]

end Traversals

/-! ## The operations -/

section Operations

variable {s : ServerListState} {l : List ServerlistAddr} {addr : ServerlistAddr}
variable {keys : List (Nat × ServerlistAddr)}

theorem Lists.unique {l' : List ServerlistAddr} (lists : Lists s l) (lists' : Lists s l') :
    l = l' := by
  rcases lists with ⟨nodes, linked, rfl, _⟩
  rcases lists' with ⟨nodes', linked', rfl, _⟩
  rw [linked.unique linked']

theorem Lists.nodup (lists : Lists s l) : l.Nodup := by
  rcases lists with ⟨_, _, _, nodup⟩
  exact nodup

theorem lists_empty : Lists emptyServerList [] := ⟨[], Linked.nil, rfl, List.nodup_nil⟩

private theorem addresses (nodes : List (Nat × Serverlist)) :
    (nodes.map fun node => (node.1, node.2.addr)).map Prod.snd =
      nodes.map fun node => node.2.addr := by
  rw [List.map_map]
  rfl

theorem lists_iff : Lists s l ↔ ∃ keys, Keyed s keys ∧ keys.map Prod.snd = l := by
  constructor
  · intro holds
    rcases holds with ⟨nodes, linked, rfl, nodup⟩
    exact ⟨_, ⟨nodes, linked, rfl, (addresses nodes).symm ▸ nodup⟩, addresses nodes⟩
  · intro holds
    rcases holds with ⟨_, ⟨nodes, linked, rfl, nodup⟩, rfl⟩
    exact ⟨nodes, linked, (addresses nodes).symm, nodup⟩

theorem Keyed.lists (keyed : Keyed s keys) : Lists s (keys.map Prod.snd) :=
  lists_iff.mpr ⟨keys, keyed, rfl⟩

theorem Keyed.unique {keys' : List (Nat × ServerlistAddr)} (keyed : Keyed s keys)
    (keyed' : Keyed s keys') : keys = keys' := by
  rcases keyed with ⟨nodes, linked, rfl, _⟩
  rcases keyed' with ⟨nodes', linked', rfl, _⟩
  rw [linked.unique linked']

theorem keyed_empty : Keyed emptyServerList [] := ⟨[], Linked.nil, rfl, List.nodup_nil⟩

private theorem split_at {nodes : List (Nat × Serverlist)}
    (nodup : (nodes.map fun node => node.2.addr).Nodup)
    (listed : addr ∈ nodes.map fun node => node.2.addr) :
    ∃ front p value back, nodes = front ++ (p, value) :: back ∧ value.addr = addr ∧
      ∀ node ∈ front, node.2.addr ≠ addr := by
  rcases List.mem_map.mp listed with ⟨⟨p, value⟩, member, rfl⟩
  rcases List.append_of_mem member with ⟨front, back, rfl⟩
  refine ⟨front, p, value, back, rfl, rfl, fun node before same => ?_⟩
  rw [List.map_append, List.map_cons, List.nodup_append] at nodup
  exact nodup.2.2 _ (List.mem_map_of_mem before) _ (List.mem_cons_self ..) same

private theorem turns_enough {nodes : List (Nat × Serverlist)}
    (linked : Linked s.heap s.head nodes) : nodes.length < s.turns :=
  Nat.lt_succ_of_le linked.length_le

theorem findNode_absent (lists : Lists s l) (absent : addr ∉ l) :
    findNode s addr = some none := by
  rcases lists with ⟨nodes, linked, rfl, _⟩
  rcases linked.segment with ⟨last, segment⟩
  rw [findNode, findLoop_eq]
  apply searchFrom_absent _ segment (Nat.le_of_lt (turns_enough linked))
  intro node member same
  exact absent (List.mem_map.mpr ⟨node, member, of_decide_eq_true same⟩)

theorem findNode_found {p : Nat} {value : Serverlist} {front back : List (Nat × Serverlist)}
    (linked : Linked s.heap s.head (front ++ (p, value) :: back))
    (first : ∀ node ∈ front, node.2.addr ≠ value.addr) :
    findNode s value.addr = some (some p) := by
  rcases linked.segment with ⟨last, segment⟩
  have enough := turns_enough linked
  rw [List.length_append] at enough
  rw [findNode, findLoop_eq]
  apply searchFrom_found _ segment (by omega) _ (decide_eq_true rfl)
  intro node member same
  exact first node member (of_decide_eq_true same)

def announcedNodes (nodes : List (Nat × Serverlist)) (p : Nat) (addr : ServerlistAddr)
    (timestamp : ServerlistTime) : List (Nat × Serverlist) :=
  if addr ∈ nodes.map fun node => node.2.addr then
    nodes.map fun node => if node.2.addr = addr then (node.1, ⟨addr, timestamp⟩) else node
  else nodes ++ [(p, ⟨addr, timestamp⟩)]

variable {nodes : List (Nat × Serverlist)}

theorem announcedNodes_keys (nodes : List (Nat × Serverlist)) (p : Nat) (addr : ServerlistAddr)
    (timestamp : ServerlistTime) :
    (announcedNodes nodes p addr timestamp).map (fun node => (node.1, node.2.addr)) =
      if addr ∈ (nodes.map fun node => (node.1, node.2.addr)).map Prod.snd then
        nodes.map fun node => (node.1, node.2.addr)
      else (nodes.map fun node => (node.1, node.2.addr)) ++ [(p, addr)] := by
  rw [addresses, announcedNodes]
  split
  · rw [List.map_map]
    apply List.map_congr_left
    intro node _
    simp only [Function.comp_apply]
    split
    · rename_i same
      rw [same]
    · rfl
  · rw [List.map_append]
    rfl

theorem announcedNodes_nodup (p : Nat) (timestamp : ServerlistTime)
    (nodup : (nodes.map fun node => node.2.addr).Nodup) :
    ((announcedNodes nodes p addr timestamp).map fun node => node.2.addr).Nodup := by
  rw [← addresses, announcedNodes_keys]
  split
  · rwa [addresses]
  · rename_i absent
    rw [← addresses] at nodup
    rw [List.map_append, List.nodup_append]
    refine ⟨nodup, by simp, ?_⟩
    rintro a listed b last rfl
    obtain rfl := List.mem_singleton.mp last
    exact absent listed

theorem add_linked (A : Allocator Serverlist) (noFilter : s.mFilter = 0) (timestamp : ServerlistTime)
    (linked : Linked s.heap s.head nodes) :
    ∃ t p, add A s addr timestamp = some t ∧
      Linked t.heap t.head (nodes ++ [(p, ⟨addr, timestamp⟩)]) ∧ t.mFilter = 0 := by
  have unfiltered : ¬ (s.mFilter ≠ 0 ∧ addr = s.mFilter) := fun filtered => filtered.1 noFilter
  have fresh := A.fresh s.heap
  rcases List.eq_nil_or_concat' nodes with rfl | ⟨front, ⟨p, value⟩, rfl⟩
  · have start := linked.start_nil
    simp only [add, unfiltered, ↓reduceIte, start]
    exact ⟨_, A.malloc s.heap, rfl, linked_single s.heap, noFilter⟩
  · rcases linked.segment with ⟨last, segment⟩
    obtain ⟨head, start⟩ : ∃ head, s.head = some head := by
      cases front with
      | nil => exact ⟨_, linked.start_cons⟩
      | cons node rest => exact ⟨_, linked.start_cons⟩
    rw [start] at segment
    have enough := turns_enough linked
    rw [List.length_append] at enough
    have tail : getTail s.heap s.turns head = some p := by
      rw [getTail_eq]
      exact lastFrom_last segment (by omega)
    rcases linked.cell with ⟨before, after, _, cell, _, _⟩
    simp only [add, unfiltered, ↓reduceIte, start, tail, cell, Option.bind_eq_bind,
      Option.bind_some]
    refine ⟨_, A.malloc s.heap, rfl, ?_, noFilter⟩
    rw [← start]
    exact linked.concat_new cell fresh

theorem announce_linked (A : Allocator Serverlist) (addr : ServerlistAddr) (noFilter : s.mFilter = 0)
    (timestamp : ServerlistTime) (linked : Linked s.heap s.head nodes)
    (nodup : (nodes.map fun node => node.2.addr).Nodup) :
    ∃ t p, announce A s addr timestamp = some t ∧
      Linked t.heap t.head (announcedNodes nodes p addr timestamp) ∧ t.mFilter = 0 := by
  by_cases listed : addr ∈ nodes.map fun node => node.2.addr
  · simp only [announcedNodes, if_pos listed]
    rcases split_at nodup listed with ⟨front, p, value, back, rfl, rfl, first⟩
    rcases linked.cell with ⟨before, after, _, cell, _, _⟩
    have moved : Linked (s.heap.set p ⟨⟨value.addr, timestamp⟩, before, after⟩) s.head
        (front ++ (p, ⟨value.addr, timestamp⟩) :: back) :=
      linked.modify ⟨before, after, cell, Function.update_self ..⟩
        fun r other => Function.update_of_ne other _ _
    have behind : ∀ node ∈ back, node.2.addr ≠ value.addr := by
      intro node member same
      rw [List.map_append, List.map_cons] at nodup
      have fresh := (List.nodup_cons.mp (List.nodup_append.mp nodup).2.1).1
      exact fresh (same ▸ List.mem_map_of_mem member)
    simp only [announce, findNode_found linked first, Option.bind_eq_bind, Option.bind_some, cell]
    refine ⟨_, 0, rfl, ?_, noFilter⟩
    rw [List.map_append, List.map_cons, if_pos rfl,
      List.map_congr_left fun node member => if_neg (first node member),
      List.map_congr_left fun node member => if_neg (behind node member), List.map_id', List.map_id']
    exact moved
  · have absent := findNode_absent ⟨nodes, linked, rfl, nodup⟩ listed
    simp only [announcedNodes, if_neg listed, announce, absent, Option.bind_eq_bind,
      Option.bind_some]
    exact add_linked (s := { s with mLastUpdatedTime := timestamp }) A noFilter timestamp linked

/-- The whole update: the announcement, and whether no listed server is silent for too long. -/
theorem update_linked (A : Allocator Serverlist) (addr : ServerlistAddr) (noFilter : s.mFilter = 0)
    (timestamp : ServerlistTime) (linked : Linked s.heap s.head nodes)
    (nodup : (nodes.map fun node => node.2.addr).Nodup) :
    ∃ t p, update A s addr timestamp = some (decide (∀ node ∈ announcedNodes nodes p addr timestamp,
        ¬ unrecognizableTimeout ≤ (timestamp - node.2.lastUpdatedTime).toNat), t) ∧
      Linked t.heap t.head (announcedNodes nodes p addr timestamp) ∧ t.mFilter = 0 := by
  obtain ⟨t, p, announced, after, noFilter'⟩ := announce_linked A addr noFilter timestamp linked nodup
  rcases after.segment with ⟨last, segment⟩
  have check := checkLoop_verdict timestamp segment (Nat.le_of_lt (turns_enough after))
  refine ⟨t, p, ?_, after, noFilter'⟩
  simp only [update, announced, Option.bind_eq_bind, Option.bind_some, check]

theorem update_keyed (A : Allocator Serverlist) (addr : ServerlistAddr) (noFilter : s.mFilter = 0)
    (timestamp : ServerlistTime) (keyed : Keyed s keys) :
    ∃ verdict t p, update A s addr timestamp = some (verdict, t) ∧
      Keyed t (if addr ∈ keys.map Prod.snd then keys else keys ++ [(p, addr)]) ∧ t.mFilter = 0 := by
  rcases keyed with ⟨nodes, linked, rfl, nodup⟩
  obtain ⟨t, p, updated, after, noFilter'⟩ :=
    update_linked A addr noFilter timestamp linked (addresses nodes ▸ nodup)
  refine ⟨_, t, p, updated, ⟨_, after, announcedNodes_keys nodes p addr timestamp, ?_⟩, noFilter'⟩
  rw [← announcedNodes_keys nodes p addr timestamp, addresses]
  exact announcedNodes_nodup p timestamp (addresses nodes ▸ nodup)

theorem delete_keyed (addr : ServerlistAddr) (keyed : Keyed s keys) :
    ∃ t, delete s addr = some t ∧ Keyed t (keys.takeWhile (·.2 ≠ addr)) ∧
      t.mFilter = s.mFilter := by
  by_cases listed : addr ∈ keys.map Prod.snd
  · rcases keyed with ⟨nodes, linked, rfl, nodup⟩
    rw [addresses] at listed nodup
    rcases split_at nodup listed with ⟨front, p, value, back, rfl, rfl, first⟩
    have found := findNode_found linked first
    have shorter : ((front ++ (p, value) :: back).map fun node => (node.1, node.2.addr)).takeWhile
        (·.2 ≠ value.addr) = front.map fun node => (node.1, node.2.addr) := by
      rw [List.map_append, List.takeWhile_append_of_pos]
      · simp
      · intro a member
        rcases List.mem_map.mp member with ⟨node, before, rfl⟩
        exact decide_eq_true (first node before)
    rw [shorter]
    have distinct : ((front.map fun node => (node.1, node.2.addr)).map Prod.snd).Nodup := by
      rw [addresses]
      rw [List.map_append] at nodup
      exact (List.nodup_append.mp nodup).1
    rcases linked.cell with ⟨_, _, _, cell, _, _⟩
    rcases List.eq_nil_or_concat' front with rfl | ⟨front, ⟨q, value'⟩, rfl⟩
    · have start := linked.start_cons
      simp only [delete, found, Option.bind_eq_bind, Option.bind_some, start, ↓reduceIte, release,
        cell]
      exact ⟨_, rfl, ⟨[], Linked.nil, rfl, List.nodup_nil⟩, rfl⟩
    · rw [List.append_assoc, List.singleton_append] at linked
      have not_head := linked.not_start
      rcases linked.cut_free with ⟨before, after, cell', cell'', kept, shortened⟩
      simp only [delete, found, Option.bind_eq_bind, Option.bind_some, not_head, ↓reduceIte, cell'',
        cell', release, kept]
      exact ⟨_, rfl, ⟨_, shortened, rfl, distinct⟩, rfl⟩
  · have found := findNode_absent keyed.lists listed
    have same : keys.takeWhile (·.2 ≠ addr) = keys := by
      rw [List.takeWhile_eq_self_iff]
      intro key member
      exact decide_eq_true (ne_of_mem_of_not_mem (List.mem_map_of_mem member) listed)
    rw [same]
    cases start : s.head with
    | none =>
        simp only [delete, found, start, Option.bind_eq_bind, Option.bind_some, ↓reduceIte, release]
        rcases keyed with ⟨nodes, linked, rest⟩
        rw [start] at linked
        exact ⟨_, rfl, ⟨nodes, linked, rest⟩, rfl⟩
    | some head =>
        simp only [delete, found, start, Option.bind_eq_bind, Option.bind_some, reduceCtorEq,
          ↓reduceIte]
        exact ⟨s, rfl, keyed, rfl⟩

theorem deleteAll_keyed (keyed : Keyed s keys) (real : keys ≠ []) :
    ∃ t, deleteAll s = some t ∧ Keyed t [] ∧ t.mFilter = s.mFilter := by
  rcases keyed with ⟨nodes, linked, rfl, _⟩
  cases nodes with
  | nil => exact absurd rfl real
  | cons node rest =>
      rcases node with ⟨p, value⟩
      have start := linked.start_cons
      rcases linked.emptied with ⟨heap, emptied, node, kept⟩
      rw [← deleteLoop_eq] at emptied
      simp only [deleteAll, start, ServerListState.turns, Option.bind_eq_bind, Option.bind_some,
        emptied, release, kept]
      exact ⟨_, rfl, ⟨[], Linked.nil, rfl, List.nodup_nil⟩, rfl⟩

theorem deleteAll_empty (lists : Lists s []) : deleteAll s = none := by
  rcases lists with ⟨nodes, linked, empty, _⟩
  obtain rfl := List.map_eq_nil_iff.mp empty
  have start := linked.start_nil
  simp only [deleteAll, start, Option.bind_eq_bind, Option.bind_none]

/-- One operation: the code keeps a well-formed list of what it keeps. -/
theorem perform_lists (A : Allocator Serverlist) (noFilter : s.mFilter = 0) (lists : Lists s l)
    (op : ServerListOp) (possible : op = .deleteAll → l ≠ []) :
    ∃ t, op.perform A s = some t ∧ Lists t (op.kept l) ∧ t.mFilter = 0 := by
  rcases lists_iff.mp lists with ⟨keys, keyed, rfl⟩
  cases op with
  | update addr timestamp =>
      obtain ⟨verdict, t, p, updated, after, noFilter'⟩ :=
        update_keyed A addr noFilter timestamp keyed
      refine ⟨t, by simp only [ServerListOp.perform, updated, Option.map_some], ?_, noFilter'⟩
      have kept := after.lists
      rwa [apply_ite (List.map Prod.snd), List.map_append] at kept
  | delete addr =>
      rcases delete_keyed addr keyed with ⟨t, deleted, after, same⟩
      refine ⟨t, deleted, ?_, same.trans noFilter⟩
      rw [kept, List.takeWhile_map]
      exact after.lists
  | deleteAll =>
      have real : keys ≠ [] := fun empty => possible rfl (empty ▸ rfl)
      rcases deleteAll_keyed keyed real with ⟨t, cleared, after, same⟩
      exact ⟨t, cleared, after.lists, same.trans noFilter⟩

end Operations

/-! ## Runs -/

theorem kept_delete_iff {l : List ServerlistAddr} (nodup : l.Nodup) (addr : ServerlistAddr) :
    l.takeWhile (· ≠ addr) = l.erase addr ↔ addr ∉ l ∨ l.getLast? = some addr := by
  by_cases listed : addr ∈ l
  · rcases List.append_of_mem listed with ⟨front, back, rfl⟩
    rw [List.nodup_append] at nodup
    rcases nodup with ⟨_, behind, apart⟩
    have before : addr ∉ front := fun member => apart addr member addr (List.mem_cons_self ..) rfl
    have erased : (front ++ addr :: back).erase addr = front ++ back := by
      rw [List.erase_append_right _ before, List.erase_cons_head]
    rw [takeWhile_first back before, erased]
    constructor
    · intro same
      obtain rfl : back = [] := List.self_eq_append_right.mp same
      exact Or.inr (by simp)
    · rintro (absent | last)
      · exact absurd listed absent
      · cases List.eq_nil_or_concat' back with
        | inl none_behind => rw [none_behind, List.append_nil]
        | inr some_behind =>
            rcases some_behind with ⟨rest, other, rfl⟩
            rw [← List.cons_append, ← List.append_assoc, List.getLast?_concat] at last
            obtain rfl := Option.some.inj last
            simp at behind
  · rw [takeWhile_absent listed, List.erase_of_not_mem listed]
    exact ⟨fun _ => Or.inl listed, fun _ => rfl⟩

theorem kept_iff_fits {l : List ServerlistAddr} (nodup : l.Nodup) (op : ServerListOp)
    (possible : op = .deleteAll → l ≠ []) : op.kept l = op.announced l ↔ op.Fits l := by
  cases op with
  | update addr timestamp => exact ⟨fun _ => trivial, fun _ => rfl⟩
  | delete addr => exact kept_delete_iff nodup addr
  | deleteAll => exact ⟨fun _ => possible rfl, fun _ => rfl⟩

theorem Follows.lists {A : Allocator Serverlist} {s : ServerListState} {l : List ServerlistAddr}
    {ops : List ServerListOp} (follows : Follows A s l ops) : Lists s l := by
  cases ops with
  | nil => exact follows
  | cons op rest => exact follows.1

private theorem follows_iff (A : Allocator Serverlist) {s : ServerListState}
    {l : List ServerlistAddr} (noFilter : s.mFilter = 0) (lists : Lists s l)
    (ops : List ServerListOp) : Follows A s l ops ↔ AllFit l ops := by
  induction ops generalizing s l with
  | nil => exact ⟨fun _ => trivial, fun _ => lists⟩
  | cons op rest ih =>
      by_cases possible : op = .deleteAll → l ≠ []
      · rcases perform_lists A noFilter lists op possible with ⟨t, performed, after, noFilter'⟩
        have fits := kept_iff_fits lists.nodup op possible
        constructor
        · intro holds
          rcases holds with ⟨_, u, performed', follows⟩
          obtain rfl := Option.some.inj (performed.symm.trans performed')
          have same := after.unique follows.lists
          rw [same] at after
          exact ⟨fits.mp same, (ih noFilter' after).mp follows⟩
        · intro holds
          rcases holds with ⟨fit, later⟩
          rw [fits.mpr fit] at after
          exact ⟨lists, t, performed, (ih noFilter' after).mpr later⟩
      · rcases Classical.not_imp.mp possible with ⟨rfl, empty⟩
        obtain rfl := Classical.not_not.mp empty
        constructor
        · intro holds
          rcases holds with ⟨_, t, performed, _⟩
          cases (deleteAll_empty lists).symm.trans performed
        · exact fun fit => absurd rfl fit.1

/-- From the empty list, with any addresses: the list is the set of the announced servers in
order exactly as long as only the last server is deleted and an empty list is never cleared. -/
theorem server_list_follows_iff (A : Allocator Serverlist) (ops : List ServerListOp) :
    Follows A emptyServerList [] ops ↔ AllFit [] ops :=
  follows_iff A rfl lists_empty ops

/-- Deleting the first of two servers loses the second. -/
theorem head_deletion_loses : ¬ Follows (Allocator.upward _) emptyServerList []
    [.update 1 0, .update 2 0, .delete 1] := by
  intro follows
  rcases (follows_iff _ rfl lists_empty _).mp follows with ⟨_, _, fit, _⟩
  change (1 : ServerlistAddr) ∉ [1, 2] ∨ [(1 : ServerlistAddr), 2].getLast? = some 1 at fit
  revert fit
  decide

end Baelux.Zigbee

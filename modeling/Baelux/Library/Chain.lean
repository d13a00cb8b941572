import Mathlib.Data.List.Perm.Subperm
import Mathlib.Data.List.TakeWhile
import Mathlib.Logic.Function.Basic

/-! A finite heap of nodes with two links, and the doubly linked chains in it. -/

namespace Baelux.Chain

structure Node (α : Type) where
  value : α
  prev : Option Nat
  next : Option Nat

/-- Pointers are numbers. Only finitely many nodes are allocated: those below `bound` at most. -/
structure Heap (α : Type) where
  cells : Nat → Option (Node α)
  bound : Nat
  above : ∀ p, bound ≤ p → cells p = none

variable {α : Type}

namespace Heap

def empty : Heap α := ⟨fun _ => none, 0, fun _ _ => rfl⟩

def set (h : Heap α) (p : Nat) (node : Node α) : Heap α where
  cells := Function.update h.cells p (some node)
  bound := max h.bound (p + 1)
  above := by
    intro q high
    rw [Function.update_of_ne (by omega)]
    exact h.above q (by omega)

def free (h : Heap α) (p : Nat) : Heap α where
  cells := Function.update h.cells p none
  bound := h.bound
  above := by
    intro q high
    rw [Function.update_apply]
    split
    · rfl
    · exact h.above q high

@[simp] theorem set_cells (h : Heap α) (p : Nat) (node : Node α) :
    (h.set p node).cells = Function.update h.cells p (some node) := rfl

@[simp] theorem free_cells (h : Heap α) (p : Nat) :
    (h.free p).cells = Function.update h.cells p none := rfl

theorem lt_bound {h : Heap α} {p : Nat} {node : Node α} (present : h.cells p = some node) :
    p < h.bound := by
  by_contra high
  rw [h.above p (by omega)] at present
  cases present

end Heap

/-- `malloc` that never fails: it answers with a pointer that is not in use. -/
structure Allocator (α : Type) where
  malloc : Heap α → Nat
  fresh : ∀ h : Heap α, h.cells (malloc h) = none

def Allocator.upward (α : Type) : Allocator α := ⟨Heap.bound, fun h => h.above _ (Nat.le_refl _)⟩

/-! ## Segments -/

/-- The nodes from `start` up to `stop`, with consistent links: `prev` stands before the
first and `last` is the last of them. -/
def Segment (cells : Nat → Option (Node α)) :
    Option Nat → Option Nat → List (Nat × α) → Option Nat → Option Nat → Prop
  | prev, start, [], last, stop => last = prev ∧ start = stop
  | prev, start, (p, value) :: rest, last, stop =>
      start = some p ∧ ∃ next, cells p = some ⟨value, prev, next⟩ ∧
        Segment cells (some p) next rest last stop

variable {cells cells' : Nat → Option (Node α)} {prev start last stop : Option Nat}
variable {front back nodes : List (Nat × α)}

theorem segment_append : Segment cells prev start (front ++ back) last stop ↔
    ∃ middle between, Segment cells prev start front middle between ∧
      Segment cells middle between back last stop := by
  induction front generalizing prev start with
  | nil =>
      constructor
      · exact fun segment => ⟨prev, start, ⟨rfl, rfl⟩, segment⟩
      · intro holds
        rcases holds with ⟨middle, between, ⟨rfl, rfl⟩, segment⟩
        exact segment
  | cons node rest ih =>
      rcases node with ⟨p, value⟩
      constructor
      · intro holds
        rcases holds with ⟨here, next, cell, segment⟩
        rcases ih.mp segment with ⟨middle, between, first, second⟩
        exact ⟨middle, between, ⟨here, next, cell, first⟩, second⟩
      · intro holds
        rcases holds with ⟨middle, between, ⟨here, next, cell, first⟩, second⟩
        exact ⟨here, next, cell, ih.mpr ⟨middle, between, first, second⟩⟩

/-- Stores elsewhere do not matter. -/
theorem Segment.congr (segment : Segment cells prev start nodes last stop)
    (same : ∀ p ∈ nodes.map Prod.fst, cells' p = cells p) :
    Segment cells' prev start nodes last stop := by
  induction nodes generalizing prev start with
  | nil => exact segment
  | cons node rest ih =>
      rcases node with ⟨p, value⟩
      rcases segment with ⟨here, next, cell, segment⟩
      refine ⟨here, next, ?_, ih segment fun q member => same q (List.mem_cons_of_mem _ member)⟩
      rw [same p (List.mem_cons_self ..), cell]

theorem Segment.present (segment : Segment cells prev start nodes last stop) {p : Nat}
    (member : p ∈ nodes.map Prod.fst) : ∃ node, cells p = some node := by
  induction nodes generalizing prev start with
  | nil => simp at member
  | cons node rest ih =>
      rcases node with ⟨q, value⟩
      rcases segment with ⟨_, next, cell, segment⟩
      rcases List.mem_cons.mp member with rfl | later
      · exact ⟨_, cell⟩
      · exact ih segment later

/-! ## Chains -/

structure Linked (h : Heap α) (start : Option Nat) (nodes : List (Nat × α)) : Prop where
  segment : ∃ last, Segment h.cells none start nodes last none
  nodup : (nodes.map Prod.fst).Nodup

variable {h : Heap α}

theorem Linked.nil : Linked h none ([] : List (Nat × α)) := ⟨⟨none, rfl, rfl⟩, List.nodup_nil⟩

theorem Linked.start_nil (linked : Linked h start []) : start = none := by
  rcases linked.segment with ⟨last, _, stop⟩
  exact stop

theorem Linked.start_cons {p : Nat} {value : α} {rest : List (Nat × α)}
    (linked : Linked h start ((p, value) :: rest)) : start = some p := by
  rcases linked.segment with ⟨last, here, _⟩
  exact here

theorem Linked.length_le (linked : Linked h start nodes) : nodes.length ≤ h.bound := by
  rcases linked.segment with ⟨last, segment⟩
  have below : nodes.map Prod.fst ⊆ List.range h.bound := by
    intro p member
    rcases segment.present member with ⟨node, present⟩
    exact List.mem_range.mpr (Heap.lt_bound present)
  have length := (linked.nodup.subperm below).length_le
  rwa [List.length_map, List.length_range] at length

theorem segment_unique {nodes' : List (Nat × α)} {last' : Option Nat}
    (segment : Segment cells prev start nodes last none)
    (segment' : Segment cells prev start nodes' last' none) : nodes = nodes' := by
  induction nodes generalizing prev start nodes' with
  | nil =>
      rcases segment with ⟨_, rfl⟩
      cases nodes' with
      | nil => rfl
      | cons node rest => cases segment'.1
  | cons node rest ih =>
      rcases node with ⟨p, value⟩
      rcases segment with ⟨rfl, next, cell, segment⟩
      cases nodes' with
      | nil => cases segment'.2
      | cons node' rest' =>
          rcases node' with ⟨q, value'⟩
          rcases segment' with ⟨here, next', cell', segment'⟩
          obtain rfl := Option.some.inj here
          rw [cell] at cell'
          rcases Node.mk.inj (Option.some.inj cell') with ⟨rfl, -, rfl⟩
          rw [ih segment segment']

/-- A start pointer determines the chain. -/
theorem Linked.unique {nodes' : List (Nat × α)} (linked : Linked h start nodes)
    (linked' : Linked h start nodes') : nodes = nodes' := by
  rcases linked.segment with ⟨last, segment⟩
  rcases linked'.segment with ⟨last', segment'⟩
  exact segment_unique segment segment'

private theorem nodup_parts {p : Nat} {value : α}
    (nodup : ((front ++ (p, value) :: back).map Prod.fst).Nodup) :
    (front.map Prod.fst).Nodup ∧ p ∉ front.map Prod.fst ∧ p ∉ back.map Prod.fst ∧
      (((p, value) :: back).map Prod.fst).Nodup := by
  rw [List.map_append, List.map_cons, List.nodup_append] at nodup
  rcases nodup with ⟨first, second, apart⟩
  refine ⟨first, fun member => ?_, (List.nodup_cons.mp second).1, second⟩
  exact apart p member p (List.mem_cons_self ..) rfl

theorem Linked.cell {p : Nat} {value : α} (linked : Linked h start (front ++ (p, value) :: back)) :
    ∃ before after last, h.cells p = some ⟨value, before, after⟩ ∧
      Segment h.cells none start front before (some p) ∧
      Segment h.cells (some p) after back last none := by
  rcases linked.segment with ⟨last, segment⟩
  rcases segment_append.mp segment with ⟨before, between, first, rfl, after, cell, second⟩
  exact ⟨before, after, last, cell, first, second⟩

theorem Linked.neighbours {p q : Nat} {value value' : α}
    (linked : Linked h start (front ++ (p, value) :: (q, value') :: back)) :
    ∃ before after, h.cells p = some ⟨value, before, some q⟩ ∧
      h.cells q = some ⟨value', some p, after⟩ := by
  rcases linked.cell with ⟨before, next, last, cell, _, rfl, after, cell', _⟩
  exact ⟨before, after, cell, cell'⟩

theorem Linked.concat {p q : Nat} {value value' : α}
    (linked : Linked h start (front ++ [(p, value)])) (fresh : h.cells q = none)
    {h' : Heap α} (tail : ∃ before, h.cells p = some ⟨value, before, none⟩ ∧
      h'.cells p = some ⟨value, before, some q⟩)
    (new : h'.cells q = some ⟨value', some p, none⟩)
    (frame : ∀ r, r ≠ p → r ≠ q → h'.cells r = h.cells r) :
    Linked h' start (front ++ [(p, value)] ++ [(q, value')]) := by
  have nodup := linked.nodup
  rcases nodup_parts nodup with ⟨_, apart, _, _⟩
  rcases tail with ⟨before, cell, cell'⟩
  rcases linked.cell with ⟨before', after, last, here, first, _⟩
  rcases Node.mk.inj (Option.some.inj (here.symm.trans cell)) with ⟨-, rfl, -⟩
  have absent : q ∉ (front ++ [(p, value)]).map Prod.fst := by
    intro member
    rcases linked.segment with ⟨_, segment⟩
    rcases segment.present member with ⟨node, present⟩
    rw [fresh] at present
    cases present
  have not_front : q ∉ front.map Prod.fst := by
    intro member
    apply absent
    rw [List.map_append]
    exact List.mem_append_left _ member
  constructor
  · refine ⟨some q, segment_append.mpr ⟨some p, some q, segment_append.mpr
      ⟨before', some p, first.congr ?_, rfl, some q, cell', rfl, rfl⟩, rfl, none, new, rfl, rfl⟩⟩
    intro r member
    apply frame
    · intro same
      subst same
      exact apart member
    · intro same
      subst same
      exact not_front member
  · rw [List.map_append, List.nodup_append]
    refine ⟨nodup, by simp, ?_⟩
    rintro r member s last rfl
    obtain rfl := List.mem_singleton.mp last
    exact absent member

theorem Linked.cut {p : Nat} {value : α} (linked : Linked h start (front ++ (p, value) :: back))
    {h' : Heap α} (tail : ∃ before after, h.cells p = some ⟨value, before, after⟩ ∧
      h'.cells p = some ⟨value, before, none⟩)
    (frame : ∀ r ∈ front.map Prod.fst, h'.cells r = h.cells r) :
    Linked h' start (front ++ [(p, value)]) := by
  rcases nodup_parts linked.nodup with ⟨first, apart, _, _⟩
  rcases tail with ⟨before, after, cell, cell'⟩
  rcases linked.cell with ⟨before', after', last, here, segment, _⟩
  rcases Node.mk.inj (Option.some.inj (here.symm.trans cell)) with ⟨-, rfl, -⟩
  constructor
  · exact ⟨some p, segment_append.mpr
      ⟨before', some p, segment.congr frame, rfl, none, cell', rfl, rfl⟩⟩
  · rw [List.map_append, List.nodup_append]
    refine ⟨first, by simp, ?_⟩
    rintro r member s last rfl
    obtain rfl := List.mem_singleton.mp last
    exact apart member

theorem Linked.modify {p : Nat} {value value' : α}
    (linked : Linked h start (front ++ (p, value) :: back))
    {h' : Heap α} (node : ∃ before after, h.cells p = some ⟨value, before, after⟩ ∧
      h'.cells p = some ⟨value', before, after⟩)
    (frame : ∀ r, r ≠ p → h'.cells r = h.cells r) :
    Linked h' start (front ++ (p, value') :: back) := by
  rcases nodup_parts linked.nodup with ⟨_, apart, behind, _⟩
  rcases node with ⟨before, after, cell, cell'⟩
  rcases linked.cell with ⟨before', after', last, here, first, second⟩
  rcases Node.mk.inj (Option.some.inj (here.symm.trans cell)) with ⟨-, rfl, rfl⟩
  constructor
  · refine ⟨last, segment_append.mpr ⟨before', some p, first.congr ?_, rfl, after', cell',
      second.congr ?_⟩⟩
    · rintro r member
      apply frame
      intro same
      subst same
      exact apart member
    · rintro r member
      apply frame
      intro same
      subst same
      exact behind member
  · have nodup := linked.nodup
    rw [List.map_append, List.map_cons] at nodup ⊢
    exact nodup

theorem linked_single {p : Nat} {value : α} (h : Heap α) :
    Linked (h.set p ⟨value, none, none⟩) (some p) [(p, value)] := by
  constructor
  · exact ⟨some p, rfl, none, Function.update_self _ _ _, rfl, rfl⟩
  · simp

theorem Linked.concat_new {p q : Nat} {value value' : α} {before after : Option Nat}
    (linked : Linked h start (front ++ [(p, value)]))
    (cell : h.cells p = some ⟨value, before, after⟩) (fresh : h.cells q = none) :
    Linked ((h.set p ⟨value, before, some q⟩).set q ⟨value', some p, none⟩) start
      (front ++ [(p, value)] ++ [(q, value')]) := by
  rcases linked.cell with ⟨before', _, _, here, _, _, rfl⟩
  rcases Node.mk.inj (Option.some.inj (here.symm.trans cell)) with ⟨-, rfl, rfl⟩
  have apart : q ≠ p := by
    intro same
    rw [same, cell] at fresh
    cases fresh
  apply linked.concat fresh ⟨before', cell, ?_⟩
  · exact Function.update_self _ _ _
  · intro r not_p not_q
    rw [Heap.set_cells, Function.update_of_ne not_q, Heap.set_cells, Function.update_of_ne not_p]
  · rw [Heap.set_cells, Function.update_of_ne (Ne.symm apart), Heap.set_cells,
      Function.update_self]

theorem Linked.not_start {p q : Nat} {value value' : α}
    (linked : Linked h start (front ++ (q, value') :: (p, value) :: back)) : some p ≠ start := by
  intro same
  have nodup := linked.nodup
  cases front with
  | nil =>
      rw [linked.start_cons] at same
      obtain rfl := Option.some.inj same
      simp at nodup
  | cons node rest =>
      rw [linked.start_cons] at same
      obtain rfl := Option.some.inj same
      simp at nodup

theorem Linked.cut_free {p q : Nat} {value value' : α}
    (linked : Linked h start (front ++ (q, value') :: (p, value) :: back)) :
    ∃ before after, h.cells q = some ⟨value', before, some p⟩ ∧
      h.cells p = some ⟨value, some q, after⟩ ∧
      (h.set q ⟨value', before, none⟩).cells p = h.cells p ∧
      Linked ((h.set q ⟨value', before, none⟩).free p) start (front ++ [(q, value')]) := by
  rcases linked.neighbours with ⟨before, after, cell', cell⟩
  have nodup := linked.nodup
  rw [List.map_append, List.map_cons, List.map_cons, List.nodup_append] at nodup
  rcases nodup with ⟨_, behind, ahead⟩
  have apart : p ≠ q := by
    intro same
    subst same
    simp at behind
  refine ⟨before, after, cell', cell, ?_, linked.cut ⟨before, some p, cell', ?_⟩ ?_⟩
  · rw [Heap.set_cells, Function.update_of_ne apart]
  · rw [Heap.free_cells, Function.update_of_ne (Ne.symm apart), Heap.set_cells,
      Function.update_self]
  · intro r member
    have not_q : r ≠ q := ahead r member q (List.mem_cons_self ..)
    have not_p : r ≠ p := ahead r member p (List.mem_cons_of_mem _ (List.mem_cons_self ..))
    rw [Heap.free_cells, Function.update_of_ne not_p, Heap.set_cells, Function.update_of_ne not_q]

/-! ## Loops

A loop fails (`none`) when it reads a node that is not allocated, or when it is not done after
so many turns. -/

def lastFrom (h : Heap α) : Nat → Nat → Option Nat
  | 0, _ => none
  | turns + 1, ptr => do
      let node ← h.cells ptr
      match node.next with
      | none => some ptr
      | some next => lastFrom h turns next

def searchFrom (h : Heap α) (wanted : α → Bool) : Nat → Option Nat → Option (Option Nat)
  | _, none => some none
  | 0, some _ => none
  | turns + 1, some ptr => do
      let node ← h.cells ptr
      if wanted node.value then some (some ptr) else searchFrom h wanted turns node.next

def Heap.release (h : Heap α) : Option Nat → Option (Heap α)
  | none => some h
  | some ptr => do
      let _ ← h.cells ptr
      some (h.free ptr)

theorem Heap.release_some {p : Nat} {node : Node α} (cell : h.cells p = some node) :
    h.release (some p) = some (h.free p) := by
  simp only [release, cell, Option.bind_eq_bind, Option.bind_some]

def emptyBehind (base : Nat) : Nat → Heap α → Option (Heap α)
  | 0, _ => none
  | turns + 1, h => do
      let node ← h.cells base
      match node.next with
      | none => some h
      | some ptr =>
          let victim ← h.cells ptr
          let h ← (h.set base { node with next := victim.next }).release (some ptr)
          emptyBehind base turns h

theorem searchFrom_absent (wanted : α → Bool) {turns : Nat}
    (segment : Segment h.cells prev start nodes last none) (enough : nodes.length ≤ turns)
    (absent : ∀ node ∈ nodes, ¬ wanted node.2) :
    searchFrom h wanted turns start = some none := by
  induction nodes generalizing prev start turns with
  | nil =>
      rcases segment with ⟨_, rfl⟩
      cases turns <;> rfl
  | cons node rest ih =>
      rcases node with ⟨p, value⟩
      rcases segment with ⟨rfl, next, cell, segment⟩
      cases turns with
      | zero => exact absurd enough (Nat.not_succ_le_zero _)
      | succ turns =>
          have other : ¬ wanted value := absent (p, value) (List.mem_cons_self ..)
          simp only [searchFrom, cell, Option.bind_eq_bind, Option.bind_some, other,
            Bool.false_eq_true, ↓reduceIte]
          exact ih segment (Nat.le_of_succ_le_succ enough)
            fun node member => absent node (List.mem_cons_of_mem _ member)

theorem searchFrom_found (wanted : α → Bool) {p : Nat} {value : α} {turns : Nat}
    (segment : Segment h.cells prev start (front ++ (p, value) :: back) last none)
    (enough : front.length < turns) (first : ∀ node ∈ front, ¬ wanted node.2)
    (found : wanted value) : searchFrom h wanted turns start = some (some p) := by
  induction front generalizing prev start turns with
  | nil =>
      rcases segment with ⟨rfl, next, cell, segment⟩
      cases turns with
      | zero => exact absurd enough (Nat.not_lt_zero _)
      | succ turns =>
          simp only [searchFrom, cell, Option.bind_eq_bind, Option.bind_some, found, ↓reduceIte]
  | cons node rest ih =>
      rcases node with ⟨q, value'⟩
      rcases segment with ⟨rfl, next, cell, segment⟩
      cases turns with
      | zero => exact absurd enough (Nat.not_lt_zero _)
      | succ turns =>
          have other : ¬ wanted value' := first (q, value') (List.mem_cons_self ..)
          simp only [searchFrom, cell, Option.bind_eq_bind, Option.bind_some, other,
            Bool.false_eq_true, ↓reduceIte]
          exact ih segment (Nat.lt_of_succ_lt_succ enough)
            fun node member => first node (List.mem_cons_of_mem _ member)

theorem lastFrom_last {head p : Nat} {value : α} {turns : Nat}
    (segment : Segment h.cells prev (some head) (front ++ [(p, value)]) last none)
    (enough : front.length < turns) : lastFrom h turns head = some p := by
  induction front generalizing prev head turns with
  | nil =>
      rcases segment with ⟨here, next, cell, _, rfl⟩
      obtain rfl := Option.some.inj here
      cases turns with
      | zero => exact absurd enough (Nat.not_lt_zero _)
      | succ turns => simp only [lastFrom, cell, Option.bind_eq_bind, Option.bind_some]
  | cons node rest ih =>
      rcases node with ⟨q, value'⟩
      rcases segment with ⟨here, next, cell, segment⟩
      obtain rfl := Option.some.inj here
      cases turns with
      | zero => exact absurd enough (Nat.not_lt_zero _)
      | succ turns =>
          have more : ∃ after, next = some after := by
            cases rest with
            | nil => exact ⟨p, segment.1⟩
            | cons node rest => exact ⟨node.1, segment.1⟩
          rcases more with ⟨after, rfl⟩
          simp only [lastFrom, cell, Option.bind_eq_bind, Option.bind_some]
          exact ih segment (Nat.lt_of_succ_lt_succ enough)

def Ahead (cells : Nat → Option (Node α)) : Option Nat → List Nat → Prop
  | start, [] => start = none
  | start, p :: rest => start = some p ∧ ∃ node, cells p = some node ∧ Ahead cells node.next rest

theorem Ahead.congr {ptrs : List Nat} (ahead : Ahead cells start ptrs)
    (same : ∀ p ∈ ptrs, cells' p = cells p) : Ahead cells' start ptrs := by
  induction ptrs generalizing start with
  | nil => exact ahead
  | cons p rest ih =>
      rcases ahead with ⟨here, node, cell, ahead⟩
      refine ⟨here, node, ?_, ih ahead fun q member => same q (List.mem_cons_of_mem _ member)⟩
      rw [same p (List.mem_cons_self ..), cell]

theorem segment_ahead (segment : Segment cells prev start nodes last none) :
    Ahead cells start (nodes.map Prod.fst) := by
  induction nodes generalizing prev start with
  | nil => exact segment.2
  | cons node rest ih =>
      rcases node with ⟨p, value⟩
      rcases segment with ⟨here, next, cell, segment⟩
      exact ⟨here, _, cell, ih segment⟩

theorem emptyBehind_total {base : Nat} {node : Node α} {ptrs : List Nat} {turns : Nat}
    (cell : h.cells base = some node) (ahead : Ahead h.cells node.next ptrs)
    (nodup : (base :: ptrs).Nodup) (enough : ptrs.length < turns) :
    ∃ h', emptyBehind base turns h = some h' ∧ ∃ node', h'.cells base = some node' := by
  induction ptrs generalizing h node turns with
  | nil =>
      cases turns with
      | zero => exact absurd enough (Nat.not_lt_zero _)
      | succ turns =>
          have stop : node.next = none := ahead
          refine ⟨h, ?_, node, cell⟩
          simp only [emptyBehind, cell, Option.bind_eq_bind, Option.bind_some, stop]
  | cons p rest ih =>
      rcases ahead with ⟨next, victim, cell', ahead⟩
      rcases List.nodup_cons.mp nodup with ⟨apart, nodup'⟩
      have not_base : base ≠ p := fun same => apart (same ▸ List.mem_cons_self ..)
      have apart' : base ∉ rest := fun member => apart (List.mem_cons_of_mem _ member)
      rcases List.nodup_cons.mp nodup' with ⟨not_p, nodup''⟩
      cases turns with
      | zero => exact absurd enough (Nat.not_lt_zero _)
      | succ turns =>
          have kept : (h.set base { node with next := victim.next }).cells p = some victim := by
            rw [Heap.set_cells, Function.update_of_ne (Ne.symm not_base), cell']
          have step : emptyBehind base (turns + 1) h =
              emptyBehind base turns ((h.set base { node with next := victim.next }).free p) := by
            simp only [emptyBehind, cell, Option.bind_eq_bind, Option.bind_some, next, cell',
              Heap.release_some kept]
          rw [step]
          have here : ((h.set base { node with next := victim.next }).free p).cells base =
              some { node with next := victim.next } := by
            rw [Heap.free_cells, Function.update_of_ne not_base, Heap.set_cells,
              Function.update_self]
          apply ih here
          · apply ahead.congr
            intro q member
            have not_q : q ≠ p := fun same => not_p (same ▸ member)
            have other : q ≠ base := fun same => apart' (same ▸ member)
            rw [Heap.free_cells, Function.update_of_ne not_q, Heap.set_cells,
              Function.update_of_ne other]
          · exact List.nodup_cons.mpr ⟨apart', nodup''⟩
          · exact Nat.lt_of_succ_lt_succ enough

/-- The whole list behind its first node is emptied within as many turns as there are nodes. -/
theorem Linked.emptied {p : Nat} {value : α} (linked : Linked h start ((p, value) :: nodes)) :
    ∃ h', emptyBehind p (h.bound + 1) h = some h' ∧ ∃ node, h'.cells p = some node := by
  rcases linked.segment with ⟨last, _, next, cell, segment⟩
  apply emptyBehind_total cell (segment_ahead segment) linked.nodup
  have bounded := linked.length_le
  rw [List.length_cons] at bounded
  rw [List.length_map]
  omega

/-! ## The elements before the first of a kind -/

theorem takeWhile_first [DecidableEq α] {a : α} {front : List α} (back : List α)
    (first : a ∉ front) : (front ++ a :: back).takeWhile (· ≠ a) = front := by
  rw [List.takeWhile_append_of_pos]
  · simp
  · intro b member
    exact decide_eq_true (ne_of_mem_of_not_mem member first)

theorem takeWhile_absent [DecidableEq α] {a : α} {l : List α} (absent : a ∉ l) :
    l.takeWhile (· ≠ a) = l := by
  rw [List.takeWhile_eq_self_iff]
  intro b member
  exact decide_eq_true (ne_of_mem_of_not_mem member absent)

end Baelux.Chain

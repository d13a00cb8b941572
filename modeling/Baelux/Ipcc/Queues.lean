import Mathlib.Data.List.Nodup
import Mathlib.Data.List.Pairwise
import Mathlib.Data.List.Perm.Basic
import Mathlib.Logic.Function.Basic
import Baelux.Library.Loop

/-! `stm_list.c` and the queues of `tl_mbox.c`, through which the two processors hand the event
buffers around. A buffer is a list node itself, and is in one queue at a time. -/

namespace Baelux.Ipcc

open Baelux.Loop

variable {ι : Type}

section Functions

variable [DecidableEq ι]

def setNext (m : Links ι) (node target : ι) : Links ι :=
  { m with next := Function.update m.next node target }

def setPrev (m : Links ι) (node target : ι) : Links ι :=
  { m with prev := Function.update m.prev node target }

def lstInitHead (m : Links ι) (listHead : ι) : Links ι :=
  let m := setNext m listHead listHead
  setPrev m listHead listHead

def lstIsEmpty (m : Links ι) (listHead : ι) : Bool := m.next listHead = listHead

def lstInsertHead (m : Links ι) (listHead node : ι) : Links ι :=
  let m := setNext m node (m.next listHead)
  let m := setPrev m node listHead
  let m := setNext m listHead node
  setPrev m (m.next node) node

def lstInsertTail (m : Links ι) (listHead node : ι) : Links ι :=
  let m := setNext m node listHead
  let m := setPrev m node (m.prev listHead)
  let m := setPrev m listHead node
  setNext m (m.prev node) node

def lstRemoveNode (m : Links ι) (node : ι) : Links ι :=
  let m := setNext m (m.prev node) (m.next node)
  setPrev m (m.next node) (m.prev node)

/-- `LST_remove_head`, with the node that goes to `*node`. -/
def lstRemoveHead (m : Links ι) (listHead : ι) : ι × Links ι :=
  (m.next listHead, lstRemoveNode m (m.next listHead))

variable {m : Links ι} {listHead node : ι}

theorem inserted_head (new : node ≠ listHead) (other : node ≠ m.next listHead) :
    Inserted m (lstInsertHead m listHead node) listHead node := by
  have follows : (lstInsertHead m listHead node).next = Function.update
      (Function.update m.next node (m.next listHead)) listHead node := rfl
  have behind : (lstInsertHead m listHead node).prev = Function.update
      (Function.update m.prev node listHead) (m.next listHead) node := by
    have points : (Function.update (Function.update m.next node (m.next listHead)) listHead node)
        node = m.next listHead := by
      rw [Function.update_of_ne new, Function.update_self]
    rw [← points]
    rfl
  constructor
  · rw [follows, Function.update_of_ne new, Function.update_self]
  · rw [behind, Function.update_of_ne other, Function.update_self]
  · rw [follows, Function.update_self]
  · rw [behind, Function.update_self]
  · intro y away notNew
    rw [follows, Function.update_of_ne away, Function.update_of_ne notNew]
  · intro y away notNew
    rw [behind, Function.update_of_ne away, Function.update_of_ne notNew]

theorem inserted_tail (new : node ≠ listHead) (other : node ≠ m.prev listHead) :
    Inserted m.mirror (lstInsertTail m listHead node).mirror listHead node :=
  @inserted_head ι _ m.mirror listHead node new other

theorem removed_node : Removed m (lstRemoveNode m node) node := by
  have follows : (lstRemoveNode m node).next = Function.update m.next (m.prev node) (m.next node) := rfl
  have behind : (lstRemoveNode m node).prev = Function.update m.prev (m.next node) (m.prev node) := by
    have same : Function.update m.next (m.prev node) (m.next node) node = m.next node := by
      rw [Function.update_apply]
      split <;> rfl
    change Function.update m.prev (Function.update m.next (m.prev node) (m.next node) node) _ = _
    rw [same]
    rfl
  constructor
  · rw [follows, Function.update_self]
  · rw [behind, Function.update_self]
  · intro y away
    rw [follows, Function.update_of_ne away]
  · intro y away
    rw [behind, Function.update_of_ne away]

end Functions

/-! ## Several queues -/

/-- Queues by their heads, the buffers in each one, and the buffers that some code holds. -/
structure Queues (ι : Type) where
  heads : List ι
  buffers : ι → List ι
  held : List ι

def Queues.nodes (q : Queues ι) : List ι := (q.heads.flatMap fun h => h :: q.buffers h) ++ q.held

def Queues.empty (heads held : List ι) : Queues ι := ⟨heads, fun _ => [], held⟩

theorem nodes_empty (heads held : List ι) : (Queues.empty heads held).nodes = heads ++ held := by
  rw [Queues.nodes, Queues.empty, List.flatMap_singleton']

structure Stored (m : Links ι) (q : Queues ι) : Prop where
  linked : ∀ h ∈ q.heads, Path m h (q.buffers h) h
  distinct : q.heads.Nodup
  apart : q.nodes.Nodup

namespace Stored

variable {m : Links ι} {q : Queues ι} {h h' y : ι}

theorem own (stored : Stored m q) (head : h ∈ q.heads) : (h :: q.buffers h).Nodup :=
  (List.nodup_flatMap.mp (List.nodup_append.mp stored.apart).1).1 h head

theorem own_head (stored : Stored m q) (head : h ∈ q.heads) : h ∉ q.buffers h :=
  (List.nodup_cons.mp (stored.own head)).1

theorem other (stored : Stored m q) (head : h ∈ q.heads) (head' : h' ∈ q.heads) (differ : h ≠ h')
    (member : y ∈ h :: q.buffers h) : y ∉ h' :: q.buffers h' := by
  have pairs := (List.nodup_flatMap.mp (List.nodup_append.mp stored.apart).1).2
  have : Std.Symm (Function.onFun List.Disjoint fun h => h :: q.buffers h) :=
    ⟨fun _ _ disjoint _ there here => disjoint here there⟩
  exact pairs.forall head head' differ member

theorem in_hand (stored : Stored m q) (head : h ∈ q.heads) (holds : y ∈ q.held) :
    y ∉ h :: q.buffers h := by
  intro member
  have disjoint := (List.nodup_append.mp stored.apart).2.2
  exact disjoint y (List.mem_flatMap.mpr ⟨h, head, member⟩) y holds rfl

end Stored

section Calls

variable [DecidableEq ι] {q : Queues ι} {m m' : Links ι} {listHead node : ι}

/-- The calls of `stm_list.c` that the queues see. Each one masks the interrupts. -/
inductive QueueCall (ι : Type) where
  | insertHead (listHead node : ι)
  | insertTail (listHead node : ι)
  | removeHead (listHead : ι)

/-- The memory after a call, and the node that it returns. -/
def QueueCall.perform (m : Links ι) : QueueCall ι → Option ι × Links ι
  | insertHead listHead node => (none, lstInsertHead m listHead node)
  | insertTail listHead node => (none, lstInsertTail m listHead node)
  | removeHead listHead =>
      let (node, m) := lstRemoveHead m listHead
      (some node, m)

def Queues.change (q : Queues ι) (listHead : ι) (buffers held : List ι) : Queues ι :=
  { q with buffers := Function.update q.buffers listHead buffers, held := held }

def QueueCall.after (q : Queues ι) : QueueCall ι → Option ι × Queues ι
  | insertHead listHead node =>
      (none, q.change listHead (node :: q.buffers listHead) (q.held.erase node))
  | insertTail listHead node =>
      (none, q.change listHead (q.buffers listHead ++ [node]) (q.held.erase node))
  | removeHead listHead =>
      ((q.buffers listHead).head?, q.change listHead (q.buffers listHead).tail
        ((q.buffers listHead).head?.toList ++ q.held))

/-- Only a buffer in hand is put into a queue, and nothing is taken from an empty one. -/
def QueueCall.Fits (q : Queues ι) : QueueCall ι → Prop
  | insertHead listHead node | insertTail listHead node => listHead ∈ q.heads ∧ node ∈ q.held
  | removeHead listHead => listHead ∈ q.heads ∧ q.buffers listHead ≠ []

theorem put_first {buffers held : List ι} (holds : node ∈ held) :
    ((node :: buffers) ++ held.erase node).Perm (buffers ++ held) :=
  List.perm_middle.symm.trans (List.Perm.append_left _ (List.perm_cons_erase holds).symm)

theorem put_last {buffers held : List ι} (holds : node ∈ held) :
    ((buffers ++ [node]) ++ held.erase node).Perm (buffers ++ held) := by
  rw [List.append_assoc]
  exact List.Perm.append_left _ (List.perm_cons_erase holds).symm

theorem nodes_change (head : listHead ∈ q.heads) (distinct : q.heads.Nodup)
    {buffers held : List ι} (same : (buffers ++ held).Perm (q.buffers listHead ++ q.held)) :
    (q.change listHead buffers held).nodes.Perm q.nodes := by
  obtain ⟨before, behind, heads⟩ := List.append_of_mem head
  rw [heads] at distinct
  have others : ∀ h, h ∈ before ∨ h ∈ behind →
      Function.update q.buffers listHead buffers h = q.buffers h := by
    intro h member
    refine Function.update_of_ne ?_ ..
    rintro rfl
    have apart := List.nodup_middle.mp distinct
    exact (List.nodup_cons.mp apart).1 (List.mem_append.mpr member)
  have left : (before.flatMap fun h => h :: Function.update q.buffers listHead buffers h) =
      before.flatMap fun h => h :: q.buffers h :=
    List.flatMap_congr fun h member => by rw [others h (Or.inl member)]
  have right : (behind.flatMap fun h => h :: Function.update q.buffers listHead buffers h) =
      behind.flatMap fun h => h :: q.buffers h :=
    List.flatMap_congr fun h member => by rw [others h (Or.inr member)]
  have counts := List.perm_iff_count.mp same
  rw [Queues.nodes, Queues.nodes, Queues.change, heads, List.flatMap_append, List.flatMap_append,
    List.flatMap_cons, List.flatMap_cons, left, right, List.perm_iff_count]
  dsimp only
  rw [Function.update_self]
  intro y
  have count := counts y
  simp only [List.count_append, List.count_cons] at count ⊢
  omega

theorem Stored.change (stored : Stored m q) (head : listHead ∈ q.heads) {buffers held : List ι}
    (same : (buffers ++ held).Perm (q.buffers listHead ++ q.held))
    (path : Path m' listHead buffers listHead)
    (next : ∀ y, y ∉ listHead :: q.buffers listHead → y ∉ buffers → m'.next y = m.next y)
    (prev : ∀ y, y ∉ listHead :: q.buffers listHead → y ∉ buffers → m'.prev y = m.prev y)
    (new : ∀ y ∈ buffers, y ∈ q.buffers listHead ∨ y ∈ q.held) :
    Stored m' (q.change listHead buffers held) := by
  refine ⟨?_, stored.distinct, (nodes_change head stored.distinct same).nodup_iff.mpr stored.apart⟩
  intro h member
  by_cases here : h = listHead
  · subst here
    change Path m' h (Function.update q.buffers h buffers h) h
    rwa [Function.update_self]
  · change Path m' h (Function.update q.buffers listHead buffers h) h
    rw [Function.update_of_ne here]
    have outside : ∀ y ∈ h :: q.buffers h, y ∉ listHead :: q.buffers listHead ∧ y ∉ buffers := by
      intro y there
      have notMine := stored.other member head here there
      refine ⟨notMine, fun added => ?_⟩
      rcases new y added with mine | holds
      · exact notMine (List.mem_cons_of_mem _ mine)
      · exact stored.in_hand member holds there
    exact (stored.linked h member).congr
      (fun y there => next y (outside y there).1 (outside y there).2)
      fun y there => prev y (outside y there).1 (outside y there).2

theorem Stored.insertHead (stored : Stored m q) (head : listHead ∈ q.heads) (holds : node ∈ q.held) :
    Stored (lstInsertHead m listHead node)
      (q.change listHead (node :: q.buffers listHead) (q.held.erase node)) := by
  have fresh := stored.in_hand head holds
  have path := stored.linked listHead head
  have new : node ≠ listHead := List.ne_of_not_mem_cons fresh
  have inserted : Inserted m (lstInsertHead m listHead node) listHead node :=
    inserted_head new fun same => fresh (same ▸ path.next_mem)
  refine stored.change head (put_first holds) (path.insert inserted fresh new (stored.own head)
    (stored.own_head head)) ?_ ?_ ?_
  · intro y mine added
    exact inserted.next_other y (List.ne_of_not_mem_cons mine) (List.ne_of_not_mem_cons added)
  · intro y mine added
    exact inserted.prev_other y (fun same => mine (same ▸ path.next_mem))
      (List.ne_of_not_mem_cons added)
  · intro y added
    rcases List.mem_cons.mp added with rfl | mine
    · exact Or.inr holds
    · exact Or.inl mine

theorem Stored.insertTail (stored : Stored m q) (head : listHead ∈ q.heads) (holds : node ∈ q.held) :
    Stored (lstInsertTail m listHead node)
      (q.change listHead (q.buffers listHead ++ [node]) (q.held.erase node)) := by
  have fresh := stored.in_hand head holds
  have new : node ≠ listHead := List.ne_of_not_mem_cons fresh
  have reversed := (q.buffers listHead).reverse_perm.cons listHead
  -- everything is read from the end, where the tail is the head
  have path := (stored.linked listHead head).mirror
  have last : m.prev listHead ∈ listHead :: q.buffers listHead := reversed.subset path.next_mem
  have inserted : Inserted m.mirror (lstInsertTail m listHead node).mirror listHead node :=
    inserted_tail new fun same => fresh (same ▸ last)
  have longer := (path.insert inserted (fun there => fresh (reversed.subset there)) new
    (reversed.nodup_iff.mpr (stored.own head))
    fun there => stored.own_head head (List.mem_reverse.mp there)).mirror
  rw [List.reverse_cons, List.reverse_reverse] at longer
  refine stored.change head (put_last holds) longer ?_ ?_ ?_
  · intro y mine added
    refine inserted.prev_other y (fun same => mine (same ▸ last)) ?_
    rintro rfl
    exact added (List.mem_append.mpr (Or.inr List.mem_cons_self))
  · intro y mine added
    refine inserted.next_other y (List.ne_of_not_mem_cons mine) ?_
    rintro rfl
    exact added (List.mem_append.mpr (Or.inr List.mem_cons_self))
  · intro y added
    rcases List.mem_append.mp added with mine | there
    · exact Or.inl mine
    · exact Or.inr (List.mem_singleton.mp there ▸ holds)

theorem Stored.removeHead (stored : Stored m q) (head : listHead ∈ q.heads) {rest : List ι}
    (first : q.buffers listHead = node :: rest) :
    (lstRemoveHead m listHead).1 = node ∧
      Stored (lstRemoveHead m listHead).2 (q.change listHead rest (node :: q.held)) := by
  have path := stored.linked listHead head
  have own := stored.own head
  have apart := stored.own_head head
  rw [first] at path own apart
  have points : m.next listHead = node := path.1.1
  have removed : Removed m (lstRemoveNode m node) node := removed_node
  unfold lstRemoveHead
  rw [points]
  refine ⟨rfl, stored.change head ?_ (path.remove removed own apart) ?_ ?_ ?_⟩
  · rw [first]
    exact List.perm_middle
  · intro y mine _
    refine removed.next_other y ?_
    rw [path.1.2]
    exact List.ne_of_not_mem_cons mine
  · intro y mine _
    refine removed.prev_other y ?_
    rintro rfl
    refine mine ?_
    rw [first]
    exact List.cons_subset_cons _ (List.subset_cons_self ..) path.2.next_mem
  · intro y there
    rw [first]
    exact Or.inl (List.mem_cons_of_mem _ there)

theorem Stored.isEmpty_iff (stored : Stored m q) (head : listHead ∈ q.heads) :
    lstIsEmpty m listHead = true ↔ q.buffers listHead = [] := by
  have path := stored.linked listHead head
  have apart := stored.own_head head
  rw [lstIsEmpty, decide_eq_true_eq]
  cases buffers : q.buffers listHead with
  | nil =>
      rw [buffers] at path
      exact iff_of_true path.1 rfl
  | cons x rest =>
      rw [buffers] at path apart
      refine iff_of_false ?_ (List.cons_ne_nil _ _)
      intro same
      exact apart ((path.1.1.symm.trans same) ▸ List.mem_cons_self)

/-! ## Runs -/

theorem QueueCall.performed (stored : Stored m q) (call : QueueCall ι) (fits : call.Fits q) :
    (call.perform m).1 = (call.after q).1 ∧ Stored (call.perform m).2 (call.after q).2 ∧
      (call.after q).2.nodes.Perm q.nodes := by
  cases call with
  | insertHead listHead node =>
      obtain ⟨head, holds⟩ := fits
      exact ⟨rfl, stored.insertHead head holds, nodes_change head stored.distinct (put_first holds)⟩
  | insertTail listHead node =>
      obtain ⟨head, holds⟩ := fits
      exact ⟨rfl, stored.insertTail head holds, nodes_change head stored.distinct (put_last holds)⟩
  | removeHead listHead =>
      obtain ⟨head, present⟩ := fits
      obtain ⟨node, rest, first⟩ := List.exists_cons_of_ne_nil present
      obtain ⟨answer, removed⟩ := stored.removeHead head first
      simp only [after, perform, first, List.head?_cons, List.tail_cons, Option.toList_some]
      refine ⟨congrArg some answer, removed, nodes_change head stored.distinct ?_⟩
      rw [first]
      exact List.perm_middle

def performAll : List (QueueCall ι) → Links ι → List (Option ι) × Links ι
  | [], m => ([], m)
  | call :: calls, m =>
      let (answer, m) := call.perform m
      let (answers, m) := performAll calls m
      (answer :: answers, m)

def afterAll : List (QueueCall ι) → Queues ι → List (Option ι) × Queues ι
  | [], q => ([], q)
  | call :: calls, q =>
      let (answer, q) := call.after q
      let (answers, q) := afterAll calls q
      (answer :: answers, q)

def AllFit : List (QueueCall ι) → Queues ι → Prop
  | [], _ => True
  | call :: calls, q => call.Fits q ∧ AllFit calls (call.after q).2

theorem performed_all (calls : List (QueueCall ι)) (stored : Stored m q) (fits : AllFit calls q) :
    (performAll calls m).1 = (afterAll calls q).1 ∧
      Stored (performAll calls m).2 (afterAll calls q).2 ∧
      (afterAll calls q).2.nodes.Perm q.nodes := by
  induction calls generalizing m q with
  | nil => exact ⟨rfl, stored, List.Perm.refl _⟩
  | cons call calls ih =>
      obtain ⟨answer, here, same⟩ := call.performed stored fits.1
      obtain ⟨answers, later, nodes⟩ := ih here fits.2
      simp only [performAll, afterAll]
      exact ⟨by rw [answer, answers], later, nodes.trans same⟩

theorem initialised (heads : List ι) (h : ι)
    (given : h ∈ heads ∨ (m.next h = h ∧ m.prev h = h)) :
    (heads.foldl lstInitHead m).next h = h ∧ (heads.foldl lstInitHead m).prev h = h := by
  induction heads generalizing m with
  | nil => exact given.resolve_left List.not_mem_nil
  | cons first heads ih =>
      refine ih ?_
      by_cases here : h = first
      · subst here
        exact Or.inr ⟨Function.update_self .., Function.update_self ..⟩
      · rcases given with member | looped
        · exact Or.inl ((List.mem_cons.mp member).resolve_left here)
        · refine Or.inr ⟨?_, ?_⟩
          · exact (Function.update_of_ne here ..).trans looped.1
          · exact (Function.update_of_ne here ..).trans looped.2

theorem initialised_stored (m : Links ι) {heads held : List ι} (distinct : (heads ++ held).Nodup) :
    Stored (heads.foldl lstInitHead m) (Queues.empty heads held) where
  linked h member := initialised heads h (Or.inl member)
  distinct := (List.nodup_append.mp distinct).1
  apart := (nodes_empty heads held).symm ▸ distinct

/-- Whatever calls are made, by whichever code on either processor: the links hold the queues, what
is taken from a queue is what was put there first, and every buffer stays in one place. -/
theorem queues_follow (m : Links ι) {heads held : List ι} (distinct : (heads ++ held).Nodup)
    (calls : List (QueueCall ι)) (fits : AllFit calls (Queues.empty heads held)) :
    (performAll calls (heads.foldl lstInitHead m)).1 =
        (afterAll calls (Queues.empty heads held)).1 ∧
      Stored (performAll calls (heads.foldl lstInitHead m)).2
        (afterAll calls (Queues.empty heads held)).2 ∧
      (afterAll calls (Queues.empty heads held)).2.nodes.Perm (heads ++ held) := by
  have follows := performed_all calls (initialised_stored m distinct) fits
  rwa [nodes_empty] at follows

theorem queues_follow_freed : ([0, 1] ++ [5, 6] : List Nat).Nodup ∧
    AllFit [.insertTail 0 5, .insertTail 0 6, .removeHead 0, .insertTail 1 5]
      (Queues.empty [0, 1] [5, 6]) ∧
    (performAll [.insertTail 0 5, .insertTail 0 6, .removeHead 0, .insertTail 1 5]
      ([0, 1].foldl lstInitHead (Links.mk id id))).1 = [none, none, some 5, none] := by
  have fits : AllFit [.insertTail 0 5, .insertTail 0 6, .removeHead 0, .insertTail 1 5]
      (Queues.empty [0, 1] [5, 6]) := by
    simp [AllFit, QueueCall.Fits, QueueCall.after, Queues.empty, Queues.change]
  exact ⟨by decide, fits, (queues_follow _ (by decide) _ fits).1⟩

/-! ## Handing the buffers on -/

/-- The loop of `SendFreeBuf`, from `LocalFreeBufQueue` to the free queue of the memory manager. -/
def sendFreeBuf (localFreeBufQueue freeBufQueue : ι) : Nat → Links ι → Option (Links ι)
  | 0, _ => none
  | fuel + 1, m =>
      if lstIsEmpty m localFreeBufQueue then some m
      else
        let (node, m) := lstRemoveHead m localFreeBufQueue
        sendFreeBuf localFreeBufQueue freeBufQueue fuel (lstInsertTail m freeBufQueue node)

inductive SystemAct (ι : Type) where
  /-- `OutputDbgTrace` with `TL_MB_SYS_ASYNCH_EVT`. -/
  | trace (pEvt : ι)
  /-- `shci_notify_asynch_evt`, which sets the task of the system events. -/
  | shciNotifyAsynchEvt
  deriving DecidableEq

/-- The callback `SYS_EVT_IoBusCallBackFunction`. -/
def tlUserEvtReceived (sHciAsynchEventQueue shcievt : ι) (m : Links ι) :
    Links ι × List (SystemAct ι) :=
  (lstInsertTail m sHciAsynchEventQueue shcievt, [.shciNotifyAsynchEvt])

def hwIpccSysEvtNot (systemEvtQueue sHciAsynchEventQueue : ι) :
    Nat → Links ι → Option (Links ι × List (SystemAct ι))
  | 0, _ => none
  | fuel + 1, m =>
      if lstIsEmpty m systemEvtQueue then some (m, [])
      else
        let (pEvt, m) := lstRemoveHead m systemEvtQueue
        let (m, received) := tlUserEvtReceived sHciAsynchEventQueue pEvt m
        (hwIpccSysEvtNot systemEvtQueue sHciAsynchEventQueue fuel m).map fun (m, acts) =>
          (m, .trace pEvt :: received ++ acts)

/-- Everything in the one queue is handed over to the other, in order; nothing else changes. -/
structure HandedOver (q q' : Queues ι) (source target : ι) : Prop where
  heads : q'.heads = q.heads
  held : q'.held = q.held
  emptied : q'.buffers source = []
  filled : q'.buffers target = q.buffers target ++ q.buffers source
  others : ∀ h, h ≠ source → h ≠ target → q'.buffers h = q.buffers h

structure Moved (q q' : Queues ι) (source target node : ι) : Prop where
  heads : q'.heads = q.heads
  held : q'.held = q.held
  taken : q.buffers source = node :: q'.buffers source
  put : q'.buffers target = q.buffers target ++ [node]
  others : ∀ h, h ≠ source → h ≠ target → q'.buffers h = q.buffers h

omit [DecidableEq ι] in
theorem Moved.handedOver {q₁ q' : Queues ι} {source target node : ι}
    (moved : Moved q q₁ source target node) (rest : HandedOver q₁ q' source target) :
    HandedOver q q' source target := by
  refine ⟨rest.heads.trans moved.heads, rest.held.trans moved.held, rest.emptied, ?_, ?_⟩
  · rw [rest.filled, moved.put, moved.taken, List.append_assoc]
    rfl
  · exact fun h away off => (rest.others h away off).trans (moved.others h away off)

theorem Stored.moves {source target node : ι} {rest : List ι} (stored : Stored m q)
    (from_head : source ∈ q.heads) (to_head : target ∈ q.heads) (differ : source ≠ target)
    (buffers : q.buffers source = node :: rest) :
    (lstRemoveHead m source).1 = node ∧
      ∃ q₁, Stored (lstInsertTail (lstRemoveHead m source).2 target node) q₁ ∧
        Moved q q₁ source target node := by
  obtain ⟨answer, taken⟩ := stored.removeHead from_head buffers
  have put := taken.insertTail to_head List.mem_cons_self
  have erased : (q.change source rest (node :: q.held)).held.erase node = q.held :=
    List.erase_cons_head ..
  rw [erased] at put
  refine ⟨answer, _, put, rfl, rfl, ?_, ?_, ?_⟩
  · have at_source : (q.change source rest (node :: q.held)).buffers source = rest :=
      Function.update_self ..
    rw [buffers]
    exact congrArg (node :: ·) ((Function.update_of_ne differ ..).trans at_source).symm
  · refine (Function.update_self ..).trans (congrArg (· ++ [node]) ?_)
    exact Function.update_of_ne differ.symm ..
  · intro h away off
    exact (Function.update_of_ne off ..).trans (Function.update_of_ne away ..)

/-- `SendFreeBuf` ends and hands over every buffer that was freed; so does `HW_IPCC_SYS_EvtNot` with
the events of the system, and it traces and announces each of them. -/
theorem sendFreeBuf_hands {source target : ι} {fuel : Nat} (stored : Stored m q)
    (from_head : source ∈ q.heads) (to_head : target ∈ q.heads) (differ : source ≠ target)
    (fueled : (q.buffers source).length < fuel) :
    ∃ m' q', sendFreeBuf source target fuel m = some m' ∧
      hwIpccSysEvtNot source target fuel m =
        some (m', (q.buffers source).flatMap fun pEvt => [.trace pEvt, .shciNotifyAsynchEvt]) ∧
      Stored m' q' ∧ HandedOver q q' source target := by
  induction fuel generalizing m q with
  | zero => exact absurd fueled (Nat.not_lt_zero _)
  | succ fuel ih =>
      cases buffers : q.buffers source with
      | nil =>
          have empty := (stored.isEmpty_iff from_head).mpr buffers
          rw [sendFreeBuf, if_pos empty, hwIpccSysEvtNot, if_pos empty]
          refine ⟨m, q, rfl, rfl, stored, rfl, rfl, buffers, ?_, fun _ _ _ => rfl⟩
          rw [buffers, List.append_nil]
      | cons node rest =>
          have more : ¬ lstIsEmpty m source = true := fun empty =>
            List.cons_ne_nil _ _ (buffers.symm.trans ((stored.isEmpty_iff from_head).mp empty))
          obtain ⟨answer, q₁, put, moved⟩ := stored.moves from_head to_head differ buffers
          have left : q₁.buffers source = rest :=
            (List.cons.inj (buffers.symm.trans moved.taken)).2.symm
          rw [buffers, List.length_cons] at fueled
          obtain ⟨m', q', runs, announces, later, hands⟩ :=
            ih put (moved.heads ▸ from_head) (moved.heads ▸ to_head)
              (left ▸ Nat.lt_of_succ_lt_succ fueled)
          refine ⟨m', q', ?_, ?_, later, moved.handedOver hands⟩
          · rw [sendFreeBuf, if_neg more, ← runs, ← answer]
          · rw [hwIpccSysEvtNot, if_neg more]
            dsimp only [tlUserEvtReceived]
            rw [answer, announces, left]
            rfl

theorem sendFreeBuf_hands_two :
    Stored (performAll [.insertTail 0 5, .insertTail 0 6] ([0, 1].foldl lstInitHead (Links.mk id id))).2
      (afterAll [.insertTail 0 5, .insertTail 0 6] (Queues.empty [0, 1] [5, 6])).2 ∧
    ∃ m' q', sendFreeBuf 0 1 3 (performAll [.insertTail 0 5, .insertTail 0 6]
      ([0, 1].foldl lstInitHead (Links.mk id id))).2 = some m' ∧ Stored m' q' ∧
      q'.buffers 0 = [] ∧ q'.buffers 1 = [5, 6] := by
  have fits : AllFit [.insertTail 0 5, .insertTail 0 6] (Queues.empty [0, 1] [5, 6]) := by
    simp [AllFit, QueueCall.Fits, QueueCall.after, Queues.empty, Queues.change]
  have stored := (performed_all _ (initialised_stored (Links.mk id id) (by decide)) fits).2.1
  obtain ⟨m', q', runs, _, later, hands⟩ := @sendFreeBuf_hands Nat _ _ _ 0 1 3 stored (by decide)
    (by decide) (by decide) (by decide)
  exact ⟨stored, m', q', runs, later, hands.emptied, hands.filled⟩

end Calls

end Baelux.Ipcc

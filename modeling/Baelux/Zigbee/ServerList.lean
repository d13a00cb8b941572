import Baelux.Library.Chain

/-! `app_zigbee_serverList.c`: the known servers, in a list of nodes on the heap.
`none` stands for a run that reads or frees what is not allocated, or that never ends. -/

namespace Baelux.Zigbee

open Chain

abbrev ServerlistAddr := BitVec 16
abbrev ServerlistTime := BitVec 32

structure Serverlist where
  addr : ServerlistAddr
  lastUpdatedTime : ServerlistTime
  deriving DecidableEq, Repr

structure ServerListState where
  heap : Heap Serverlist
  head : Option Nat
  mLastUpdatedTime : ServerlistTime
  mFilter : ServerlistAddr

def unrecognizableTimeout : Nat := 1000 * 60 * 10

def emptyServerList : ServerListState := ⟨Heap.empty, none, 0, 0⟩

/-- A loop over a list takes as many turns as there are nodes. -/
def ServerListState.turns (s : ServerListState) : Nat := s.heap.bound + 1

def getTail (heap : Heap Serverlist) : Nat → Nat → Option Nat
  | 0, _ => none
  | turns + 1, ptr => do
      let node ← heap.cells ptr
      match node.next with
      | none => some ptr
      | some next => getTail heap turns next

/-- The loop of `findNode`; the answer is a pointer that may be NULL. -/
def findLoop (heap : Heap Serverlist) (addr : ServerlistAddr) :
    Nat → Option Nat → Option (Option Nat)
  | _, none => some none
  | 0, some _ => none
  | turns + 1, some ptr => do
      let node ← heap.cells ptr
      if node.value.addr = addr then some (some ptr) else findLoop heap addr turns node.next

def findNode (s : ServerListState) (addr : ServerlistAddr) : Option (Option Nat) :=
  findLoop s.heap addr s.turns s.head

def release (heap : Heap Serverlist) : Option Nat → Option (Heap Serverlist)
  | none => some heap
  | some ptr => do
      let _ ← heap.cells ptr
      some (heap.free ptr)

def deleteLoop (base : Nat) : Nat → Heap Serverlist → Option (Heap Serverlist)
  | 0, _ => none
  | turns + 1, heap => do
      let node ← heap.cells base
      match node.next with
      | none => some heap
      | some ptr =>
          let victim ← heap.cells ptr
          let heap ← release (heap.set base { node with next := victim.next }) (some ptr)
          deleteLoop base turns heap

def deleteAll (s : ServerListState) : Option ServerListState := do
  let base ← s.head
  let heap ← deleteLoop base s.turns s.heap
  let heap ← release heap s.head
  some { s with heap := heap, head := none }

def delete (s : ServerListState) (addr : ServerlistAddr) : Option ServerListState := do
  let cur ← findNode s addr
  if cur = s.head then
    let heap ← release s.heap s.head
    some { s with heap := heap, head := none }
  else
    match cur with
    | none => some s
    | some ptr => do
        let node ← s.heap.cells ptr
        let prev ← node.prev
        let before ← s.heap.cells prev
        let heap ← release (s.heap.set prev { before with next := none }) (some ptr)
        some { s with heap := heap }

section Allocating

variable (A : Allocator Serverlist)

/-- `app_zigbee_serverList_add`, which always answers true. -/
def add (s : ServerListState) (addr : ServerlistAddr) (timestamp : ServerlistTime) :
    Option ServerListState :=
  if s.mFilter ≠ 0 ∧ addr = s.mFilter then some s
  else
    match s.head with
    | none =>
        let ptr := A.malloc s.heap
        some { s with heap := s.heap.set ptr ⟨⟨addr, timestamp⟩, none, none⟩, head := some ptr }
    | some head => do
        let tail ← getTail s.heap s.turns head
        let newTail := A.malloc s.heap
        let node ← s.heap.cells tail
        let heap := s.heap.set tail { node with next := some newTail }
        some { s with heap := heap.set newTail ⟨⟨addr, timestamp⟩, some tail, none⟩ }

/-- The first half of `app_zigbee_serverList_update`: the server is listed with its new time. -/
def announce (s : ServerListState) (addr : ServerlistAddr) (timestamp : ServerlistTime) :
    Option ServerListState := do
  let ptr ← findNode s addr
  let s := { s with mLastUpdatedTime := timestamp }
  match ptr with
  | none => add A s addr timestamp
  | some ptr => do
      let node ← s.heap.cells ptr
      let value := ⟨node.value.addr, timestamp⟩
      some { s with heap := s.heap.set ptr { node with value := value } }

/-- The second half: whether no listed server is silent for too long. -/
def checkLoop (heap : Heap Serverlist) (timestamp : ServerlistTime) :
    Nat → Option Nat → Option Bool
  | _, none => some true
  | 0, some _ => none
  | turns + 1, some ptr => do
      let node ← heap.cells ptr
      if unrecognizableTimeout ≤ (timestamp - node.value.lastUpdatedTime).toNat then some false
      else checkLoop heap timestamp turns node.next

def update (s : ServerListState) (addr : ServerlistAddr) (timestamp : ServerlistTime) :
    Option (Bool × ServerListState) := do
  let s ← announce A s addr timestamp
  let verdict ← checkLoop s.heap timestamp s.turns s.head
  some (verdict, s)

end Allocating

end Baelux.Zigbee

import Baelux.Zigbee.ServerCursor

/-! The timeouts of the server list: they are collected in a static buffer, handed over and
then cleared. The collecting loop stays at the head of the list. -/

namespace Baelux.Zigbee

open Chain

/-- `m_lastUpdatedTime - curtime >= unrecognizable_timeout`, in `uint32_t`. -/
def TimedOut (last : ServerlistTime) (server : Serverlist) : Prop :=
  unrecognizableTimeout ≤ (last - server.lastUpdatedTime).toNat

instance (last : ServerlistTime) : DecidablePred (TimedOut last) :=
  fun _ => inferInstanceAs (Decidable (_ ≤ _))

/-- The loop of `app_zigbee_clientList_getTimeouts`: `ptr` is the head and is never moved. -/
def timeoutsLoop (heap : Heap Serverlist) (last : ServerlistTime) :
    Nat → Option Nat → Nat → (Nat → ServerlistAddr) → Option (Nat × (Nat → ServerlistAddr))
  | _, none, size, buffer => some (size, buffer)
  | 0, some _, _, _ => none
  | turns + 1, some ptr, size, buffer => do
      let node ← heap.cells ptr
      if ¬ TimedOut last node.value then timeoutsLoop heap last turns (some ptr) size buffer
      else if size < appZigbeeServerlistMaxalloc then
        timeoutsLoop heap last turns (some ptr) (size + 1)
          (Function.update buffer size node.value.addr)
      else failure

/-- `app_zigbee_clientList_getTimeouts`: the size, what the argument of the caller points at
afterwards, and the state. The function assigns to its own copy of the argument only. -/
def getTimeouts (turns : Nat) (s : ServerTracking) (addresses : Nat → ServerlistAddr) :
    Option (BitVec 16 × (Nat → ServerlistAddr) × ServerTracking) := do
  let (size, buffer) ←
    timeoutsLoop s.list.heap s.list.mLastUpdatedTime turns s.list.head 0 s.mAddressBuffer
  some (BitVec.ofNat 16 size, addresses, { s with mAddressBuffer := buffer })

/-- Both documented calls return; the caller gets the timed out addresses and the list keeps
the others in their order. -/
def HandsOver (s : ServerTracking) (addresses : Nat → ServerlistAddr) : Prop :=
  ∃ nodes, Linked s.list.heap s.list.head nodes ∧
    ∃ turns size given t u, getTimeouts turns s addresses = some (size, given, t) ∧
      (List.range size.toNat).map given =
        (nodes.filter fun node => TimedOut s.list.mLastUpdatedTime node.2).map (·.2.addr) ∧
      clearTimeouts t = some u ∧
      Lists u.list
        ((nodes.filter fun node => ¬ TimedOut s.list.mLastUpdatedTime node.2).map (·.2.addr))

def track (A : Allocator Serverlist) : ServerTracking → List CursorOp → Option ServerTracking
  | s, [] => some s
  | s, op :: rest => (op.perform A s).bind fun r => track A r.2 rest

def WellLinked (l : ServerListState) : Prop := l.mFilter = 0 ∧ ∃ keys, Keyed l keys

variable {A : Allocator Serverlist} {s t : ServerTracking} {l : ServerListState}

theorem clearLoop_linked (buffer : Nat → ServerlistAddr) (remaining i : Nat)
    (linked : WellLinked l) {l' : ServerListState}
    (cleared : clearLoop buffer remaining i l = some l') : WellLinked l' := by
  induction remaining generalizing i l with
  | zero =>
    obtain rfl := Option.some.inj cleared
    exact linked
  | succ remaining ih =>
    simp only [clearLoop] at cleared
    split at cleared
    · obtain rfl := Option.some.inj cleared
      exact linked
    · rcases linked with ⟨noFilter, keys, keyed⟩
      rcases delete_keyed (buffer i) keyed with ⟨m, deleted, after, same⟩
      rw [deleted, Option.bind_eq_bind, Option.bind_some] at cleared
      exact ih (i + 1) ⟨same.trans noFilter, _, after⟩ cleared

theorem moveTo_list {p : Nat} {addr : ServerlistAddr} (moves : moveTo s p = some (addr, t)) :
    t.list = s.list := by
  rcases Option.map_eq_some_iff.mp moves with ⟨_, _, same⟩
  exact (Prod.mk.inj same).2 ▸ rfl

theorem next_list {addr : ServerlistAddr} (moves : next s = some (addr, t)) : t.list = s.list := by
  unfold next at moves
  split at moves
  · rcases Prod.mk.inj (Option.some.inj moves) with ⟨_, rfl⟩
    rfl
  · split at moves
    · exact moveTo_list moves
    · rcases Option.bind_eq_some_iff.mp moves with ⟨node, _, moves⟩
      exact moveTo_list moves

theorem perform_linked (linked : WellLinked s.list) (op : CursorOp)
    {answer : Option ServerlistAddr} (performed : op.perform A s = some (answer, t)) :
    WellLinked t.list := by
  rcases linked with ⟨noFilter, keys, keyed⟩
  cases op with
  | list op =>
    rcases Option.map_eq_some_iff.mp performed with ⟨l, done, same⟩
    rcases Prod.mk.inj same with ⟨_, rfl⟩
    by_cases possible : op = .deleteAll → keys.map Prod.snd ≠ []
    · obtain ⟨l', performed', after, noFilter'⟩ := perform_lists A noFilter keyed.lists op possible
      obtain rfl := Option.some.inj (performed'.symm.trans done)
      rcases lists_iff.mp after with ⟨keys', keyed', _⟩
      exact ⟨noFilter', keys', keyed'⟩
    · rcases Classical.not_imp.mp possible with ⟨rfl, empty⟩
      have none : Lists s.list [] := Classical.not_not.mp empty ▸ keyed.lists
      cases (deleteAll_empty none).symm.trans done
  | clearTimeouts =>
    rcases Option.map_eq_some_iff.mp performed with ⟨u, done, same⟩
    rcases Prod.mk.inj same with ⟨_, rfl⟩
    rcases Option.bind_eq_some_iff.mp done with ⟨l, cleared, done⟩
    obtain rfl := Option.some.inj done
    exact clearLoop_linked _ _ _ ⟨noFilter, keys, keyed⟩ cleared
  | next =>
    rcases Option.map_eq_some_iff.mp performed with ⟨⟨addr, u⟩, done, same⟩
    rcases Prod.mk.inj same with ⟨_, rfl⟩
    exact next_list done ▸ ⟨noFilter, keys, keyed⟩
  | cur =>
    rcases Option.map_eq_some_iff.mp performed with ⟨addr, _, same⟩
    rcases Prod.mk.inj same with ⟨_, rfl⟩
    exact ⟨noFilter, keys, keyed⟩

theorem track_linked {ops : List CursorOp} (linked : WellLinked s.list)
    (reached : track A s ops = some t) : WellLinked t.list := by
  induction ops generalizing s with
  | nil =>
    obtain rfl := Option.some.inj reached
    exact linked
  | cons op rest ih =>
    rcases Option.bind_eq_some_iff.mp reached with ⟨⟨answer, u⟩, performed, reached⟩
    exact ih (perform_linked linked op performed) reached

theorem updated_head {addr : ServerlistAddr} {timestamp : ServerlistTime} {verdict : Bool}
    (linked : WellLinked l) {l' : ServerListState}
    (updated : update A l addr timestamp = some (verdict, l')) : ∃ head, l'.head = some head := by
  rcases linked with ⟨noFilter, keys, keyed⟩
  rcases update_keyed A addr noFilter timestamp keyed with ⟨verdict', m, p, updated', after, _⟩
  rcases Prod.mk.inj (Option.some.inj (updated'.symm.trans updated)) with ⟨_, rfl⟩
  have head := Keyed.head (s := ⟨m, none, fun _ => 0⟩) after
  split at head
  · rename_i listed
    cases keys with
    | nil => cases listed
    | cons key rest => exact ⟨key.1, head⟩
  · cases keys with
    | nil => exact ⟨p, head⟩
    | cons key rest => exact ⟨key.1, head⟩

/-- The loop that does not move never ends. -/
theorem timeoutsLoop_stuck (heap : Heap Serverlist) (last : ServerlistTime) (turns ptr size : Nat)
    (buffer : Nat → ServerlistAddr) : timeoutsLoop heap last turns (some ptr) size buffer = none := by
  induction turns generalizing size buffer with
  | zero => rfl
  | succ turns ih =>
    simp only [timeoutsLoop]
    cases heap.cells ptr with
    | none => rfl
    | some node =>
      simp only [Option.bind_eq_bind, Option.bind_some]
      split
      · exact ih _ _
      · split
        · exact ih _ _
        · rfl

theorem getTimeouts_stuck {head : Nat} (start : s.list.head = some head) (turns : Nat)
    (addresses : Nat → ServerlistAddr) : getTimeouts turns s addresses = none := by
  simp only [getTimeouts, start, timeoutsLoop_stuck, Option.bind_eq_bind, Option.bind_none]

private theorem update_not_handed_over {verdict : Bool} (linked : WellLinked s.list)
    (addr : ServerlistAddr) (timestamp : ServerlistTime)
    (updated : update A s.list addr timestamp = some (verdict, l)) (addresses : Nat → ServerlistAddr) :
    ¬ HandsOver { s with list := l } addresses := by
  rcases updated_head linked updated with ⟨head, start⟩
  intro holds
  rcases holds with ⟨_, _, turns, size, given, t, u, collected, _⟩
  cases (getTimeouts_stuck (s := { s with list := l }) start turns addresses).symm.trans collected

/-- Whatever was announced, deleted and cleared before: after an update that reports timeouts,
collecting them does not come to an end. -/
theorem timeouts_never_handed_over (A : Allocator Serverlist) (ops : List CursorOp)
    (s : ServerTracking) (reached : track A emptyTracking ops = some s) (addr : ServerlistAddr)
    (timestamp : ServerlistTime) (l : ServerListState)
    (reports : update A s.list addr timestamp = some (false, l)) (addresses : Nat → ServerlistAddr) :
    ¬ HandsOver { s with list := l } addresses :=
  update_not_handed_over (track_linked ⟨rfl, [], keyed_empty⟩ reached) addr timestamp reports
    addresses

/-- Server 1 is silent for ten minutes when server 2 is announced. -/
theorem silent_server_not_handed_over : ∃ s l,
    track (Allocator.upward _) emptyTracking [.list (.update 1 0)] = some s ∧
      update (Allocator.upward _) s.list 2 600000 = some (false, l) ∧
      ¬ HandsOver { s with list := l } fun _ => 0 :=
  ⟨_, _, rfl, rfl, timeouts_never_handed_over (Allocator.upward _) [.list (.update 1 0)] _ rfl 2
    600000 _ rfl fun _ => 0⟩

/-- Server 0 is silent as well, and its address would end the collected ones early. -/
theorem two_servers_not_handed_over : ∃ s l,
    track (Allocator.upward _) emptyTracking [.list (.update 0 7)] = some s ∧
      update (Allocator.upward _) s.list 3 700000 = some (false, l) ∧
      ¬ HandsOver { s with list := l } fun _ => 0 := by
  have linked : ∀ s, track (Allocator.upward _) emptyTracking [.list (.update 0 7)] = some s →
      WellLinked s.list := fun s reached => track_linked ⟨rfl, [], keyed_empty⟩ reached
  exact ⟨_, _, rfl, rfl,
    update_not_handed_over (A := Allocator.upward _) (linked _ rfl) 3 700000 rfl _⟩

end Baelux.Zigbee

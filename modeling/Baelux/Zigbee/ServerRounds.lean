import Baelux.Zigbee.ServerCursor
import Baelux.Library.Rounds

/-! Without deletions the cursor goes round the listed servers: each gets its turn
between two turns of any other. -/

namespace Baelux.Zigbee

open Chain Rounds

def CursorOp.Grows : CursorOp → Prop
  | list (.update _ _) => True
  | next => True
  | cur => True
  | _ => False

def CursorOp.heard (answer : Option ServerlistAddr) : CursorOp → List ServerlistAddr
  | next => answer.toList
  | _ => []

def returned (A : Allocator Serverlist) :
    ServerTracking → List CursorOp → Option (List ServerlistAddr × ServerTracking)
  | s, [] => some ([], s)
  | s, op :: rest => do
      let (answer, s) ← op.perform A s
      let (later, s) ← returned A s rest
      some (op.heard answer ++ later, s)

variable {A : Allocator Serverlist} {s t u : ServerTracking} {keys : List (Nat × ServerlistAddr)}
variable {c : Option ServerlistAddr} {a x answer : ServerlistAddr} {op : CursorOp}
variable {ops : List CursorOp} {l seen among : List ServerlistAddr}

theorem CursorOp.Grows.spares (grows : op.Grows) : op.Spares l c := by
  cases op with
  | list op =>
    cases op with
    | update addr timestamp => trivial
    | delete addr => exact grows.elim
    | deleteAll => exact grows.elim
  | clearTimeouts => trivial
  | next => trivial
  | cur => trivial

/-! ## The cursor after an answer -/

theorem Tracked.cur_under (tracked : Tracked s keys (some a)) : cur s = some a := by
  have cursor := tracked.cursor
  generalize pointed : s.ptr = p at cursor
  cases cursor with
  | node member => simp only [cur, pointed, tracked.keyed.addrAt member]

theorem moveTo_cur {p : Nat} (moves : moveTo s p = some (answer, t)) : cur t = some answer := by
  rcases Option.map_eq_some_iff.mp moves with ⟨addr, found, same⟩
  rcases Prod.mk.inj same with ⟨rfl, rfl⟩
  exact found

theorem next_cur (listed : s.list.head ≠ none) (moves : next s = some (answer, t)) :
    cur t = some answer := by
  unfold next at moves
  split at moves
  · exact absurd ‹_› listed
  · split at moves
    · exact moveTo_cur moves
    · rcases Option.bind_eq_some_iff.mp moves with ⟨node, _, moves⟩
      exact moveTo_cur moves

theorem tracked_answer (tracked : Tracked s keys c) (real : keys ≠ []) :
    ∃ answer t, next s = some (answer, t) ∧ Tracked t keys (some answer) ∧
      CursorOp.moved (keys.map Prod.snd) c .next = some answer := by
  rcases tracked_next tracked with ⟨answer, t, moves, after, _⟩
  have listed : s.list.head ≠ none := by
    rw [tracked.keyed.head]
    intro nothing
    exact real (List.map_eq_nil_iff.mp (List.head?_eq_none_iff.mp nothing))
  have here : cur t = some answer := next_cur listed moves
  have under : CursorOp.moved (keys.map Prod.snd) c .next = some answer := by
    generalize CursorOp.moved (keys.map Prod.snd) c .next = d at after
    cases d with
    | some b => exact (after.cur_under).symm.trans here
    | none =>
      have pointed := after.cursor
      generalize there : t.ptr = p at pointed
      cases pointed
      unfold next at moves
      split at moves
      · exact absurd ‹_› listed
      · split at moves
        · rcases Option.map_eq_some_iff.mp moves with ⟨_, _, same⟩
          cases (Prod.mk.inj same).2 ▸ there
        · rcases Option.bind_eq_some_iff.mp moves with ⟨_, _, moves⟩
          rcases Option.map_eq_some_iff.mp moves with ⟨_, _, same⟩
          cases (Prod.mk.inj same).2 ▸ there
  exact ⟨answer, t, moves, under ▸ after, under⟩

/-! ## Runs -/

theorem returned_tracked (A : Allocator Serverlist) (tracked : Tracked s keys c)
    (grow : ∀ op ∈ ops, op.Grows) : ∃ among u keys' c',
      returned A s ops = some (among, u) ∧ Tracked u keys' c' := by
  induction ops generalizing s keys c with
  | nil => exact ⟨[], s, keys, c, rfl, tracked⟩
  | cons op rest ih =>
    have grows : op.Grows := grow op (List.mem_cons_self ..)
    rcases spared_step A tracked op grows.spares with ⟨answer, t, keys', performed, after, _⟩
    rcases ih after fun op member => grow op (List.mem_cons_of_mem _ member) with
      ⟨later, u, keys'', c'', returns, last⟩
    refine ⟨op.heard answer ++ later, u, keys'', c'', ?_, last⟩
    simp only [returned, performed, returns, Option.bind_eq_bind, Option.bind_some]

theorem Tracked.member (tracked : Tracked s keys (some a)) : a ∈ keys.map Prod.snd := by
  have cursor := tracked.cursor
  generalize s.ptr = p at cursor
  cases cursor with
  | node member => exact List.mem_map_of_mem member

/-- The cursor stands on the last answer, and the round goes on until `a` is returned. -/
def InRound (a : ServerlistAddr) (l : List ServerlistAddr) (keys : List (Nat × ServerlistAddr))
    (x : ServerlistAddr) (seen : List ServerlistAddr) : Prop :=
  a ∉ seen → Turn a l (keys.map Prod.snd) x seen

theorem InRound.update {keys' : List (Nat × ServerlistAddr)} (round : InRound a l keys x seen)
    {addr : ServerlistAddr} {timestamp : ServerlistTime}
    (kept : keys'.map Prod.snd =
      CursorOp.kept (keys.map Prod.snd) (.list (.update addr timestamp))) :
    InRound a l keys' x seen := by
  intro unseen
  rw [kept]
  change Turn a l (if addr ∈ keys.map Prod.snd then _ else _) x seen
  split
  · exact round unseen
  · exact (round unseen).append addr

theorem moved_next (l : List ServerlistAddr) (x : ServerlistAddr) :
    CursorOp.moved l (some x) .next = successor l x := by
  simp only [CursorOp.moved, CursorOp.following, successor]
  cases l.dropWhile (· ≠ x) with
  | nil => rfl
  | cons b rest => cases rest <;> rfl

/-- A turn of the cursor: `a` again, which ends the round, or one more server of it. -/
theorem InRound.next {y : ServerlistAddr} (round : InRound a l keys x seen)
    (nodup : (keys.map Prod.snd).Nodup)
    (moved : CursorOp.moved (keys.map Prod.snd) (some x) .next = some y) :
    InRound a l keys y (seen ++ [y]) := by
  intro unseen
  have before : a ∉ seen := fun member => unseen (List.mem_append_left _ member)
  have other : y ≠ a := fun same => unseen (same ▸ List.mem_concat_self)
  rw [moved_next] at moved
  rcases (round before).step nodup with ⟨back, _⟩ | ⟨b, _, reached, turn⟩
  · exact absurd (Option.some.inj (moved.symm.trans back)) other
  · obtain rfl := Option.some.inj (moved.symm.trans reached)
    exact turn

theorem grown_step (A : Allocator Serverlist) (tracked : Tracked s keys (some x))
    (grows : op.Grows) (round : InRound a l keys x seen) :
    ∃ answer t keys' y, op.perform A s = some (answer, t) ∧ Tracked t keys' (some y) ∧
      (x :: op.heard answer).getLast? = some y ∧ InRound a l keys' y (seen ++ op.heard answer) := by
  cases op with
  | list op =>
    cases op with
    | update addr timestamp =>
      rcases spared_step A tracked (.list (.update addr timestamp)) trivial with
        ⟨answer, t, keys', performed, after, kept, _⟩
      refine ⟨answer, t, keys', x, performed, after, rfl, ?_⟩
      have silent : seen ++ CursorOp.heard answer (.list (.update addr timestamp)) = seen :=
        List.append_nil seen
      rw [silent]
      exact round.update kept
    | delete addr => exact grows.elim
    | deleteAll => exact grows.elim
  | clearTimeouts => exact grows.elim
  | next =>
    have real : keys ≠ [] := fun empty => absurd (empty ▸ tracked.member) List.not_mem_nil
    rcases tracked_answer tracked real with ⟨y, t, moves, after, moved⟩
    refine ⟨some y, t, keys, y, ?_, after, rfl, round.next tracked.keyed.nodup_snd moved⟩
    simp only [CursorOp.perform, moves, Option.map_some]
  | cur =>
    rw [← List.append_nil seen] at round
    refine ⟨some x, s, keys, x, ?_, tracked, rfl, round⟩
    simp only [CursorOp.perform, tracked.cur_under, Option.map_some]

private theorem getLast?_continued {y z : ServerlistAddr} {early late : List ServerlistAddr}
    (first : (x :: early).getLast? = some y) (second : (y :: late).getLast? = some z) :
    (x :: (early ++ late)).getLast? = some z := by
  rw [List.getLast?_cons] at first second ⊢
  rw [List.getLast?_append, Option.getD_or, Option.some.inj first]
  exact second

theorem returned_round (A : Allocator Serverlist) (tracked : Tracked s keys (some x))
    (grow : ∀ op ∈ ops, op.Grows) (round : InRound a l keys x seen) :
    ∃ among u keys' y, returned A s ops = some (among, u) ∧ Tracked u keys' (some y) ∧
      (x :: among).getLast? = some y ∧ InRound a l keys' y (seen ++ among) := by
  induction ops generalizing s keys x seen with
  | nil =>
    rw [← List.append_nil seen] at round
    exact ⟨[], s, keys, x, rfl, tracked, rfl, round⟩
  | cons op rest ih =>
    have grows : op.Grows := grow op (List.mem_cons_self ..)
    have grow' : ∀ op ∈ rest, op.Grows := fun op member => grow op (List.mem_cons_of_mem _ member)
    rcases grown_step A tracked grows round with ⟨answer, t, keys', y, performed, after, under, round'⟩
    rcases ih after grow' round' with ⟨later, u, keys'', z, returns, last, under', round''⟩
    rw [List.append_assoc] at round''
    refine ⟨op.heard answer ++ later, u, keys'', z, ?_, last, ?_, round''⟩
    · simp only [returned, performed, returns, Option.bind_eq_bind, Option.bind_some]
    · exact getLast?_continued under under'

/-- From the empty list, with announcements and turns of the cursor in any order: between two
returns of an address in a row every other address listed at the first is returned once, and the
cursor stands on what was returned last once there was a server. -/
theorem round_robin (A : Allocator Serverlist) (before between : List CursorOp)
    (grow : ∀ op ∈ before, op.Grows) (grow' : ∀ op ∈ between, op.Grows) :
    ∃ early s a t l among u b v, returned A emptyTracking before = some (early, s) ∧
      next s = some (a, t) ∧ Lists t.list l ∧ returned A t between = some (among, u) ∧
      next u = some (b, v) ∧ (b = a → a ∉ among → Complete a l among) ∧
      (l ≠ [] → cur u = (a :: among).getLast?) := by
  rcases returned_tracked A tracked_empty grow with ⟨early, s, keys, c, returns, tracked⟩
  by_cases real : keys = []
  · rcases tracked_next tracked with ⟨a, t, moves, after, _⟩
    rcases returned_tracked A after grow' with ⟨among, u, keys', c', returns', last⟩
    rcases tracked_next last with ⟨b, v, moves', _⟩
    have nothing : Lists t.list [] := by
      have lists := after.keyed.lists
      rwa [real] at lists
    refine ⟨early, s, a, t, [], among, u, b, v, returns, moves, nothing, returns', moves', ?_, ?_⟩
    · intro _ _ c listed
      cases listed
    · exact fun some_server => absurd rfl some_server
  · rcases tracked_answer tracked real with ⟨a, t, moves, after, _⟩
    have start : InRound a (keys.map Prod.snd) keys a [] := fun _ => Turn.start after.member
    rcases returned_round A after grow' start with ⟨among, u, keys', x, returns', last, under, round⟩
    have real' : keys' ≠ [] := fun empty => absurd (empty ▸ last.member) List.not_mem_nil
    rcases tracked_answer last real' with ⟨b, v, moves', _, moved⟩
    rw [moved_next] at moved
    refine ⟨early, s, a, t, _, among, u, b, v, returns, moves, after.keyed.lists, returns', moves',
      ?_, fun _ => under ▸ last.cur_under⟩
    rintro rfl unseen
    rcases (round unseen).step last.keyed.nodup_snd with ⟨_, complete⟩ | ⟨d, other, reached, _⟩
    · exact complete
    · exact absurd (Option.some.inj (reached.symm.trans moved)) other

theorem round_robin_three : (∀ op ∈ [CursorOp.list (.update 1 0), .list (.update 2 0)], op.Grows) ∧
    ∃ early s a t l among u b v,
      returned (Allocator.upward _) emptyTracking [.list (.update 1 0), .list (.update 2 0)] =
        some (early, s) ∧
      next s = some (a, t) ∧ Lists t.list l ∧
      returned (Allocator.upward _) t [.next, .list (.update 3 0), .next] = some (among, u) ∧
      next u = some (b, v) ∧ (b = a → a ∉ among → Complete a l among) ∧
      (l ≠ [] → cur u = (a :: among).getLast?) :=
  ⟨by simp [CursorOp.Grows], round_robin _ _ _ (by simp [CursorOp.Grows])
    (by simp [CursorOp.Grows])⟩

/-- After a call on the empty list, which returns 0, the cursor answers with the first server. -/
theorem first_answer_forgotten : ∃ s verdict l,
    next emptyTracking = some (0, s) ∧
    update (Allocator.upward _) s.list 5 0 = some (verdict, l) ∧
    cur { s with list := l } = some 5 :=
  ⟨_, _, _, rfl, rfl, rfl⟩

end Baelux.Zigbee

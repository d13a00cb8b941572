import Mathlib.Data.List.Nodup
import Mathlib.Data.List.TakeWhile

/-! Going round a list that grows at its end: between two visits to an element every other
element that was there at the first of them is visited once. -/

namespace Baelux.Rounds

variable {α : Type} [DecidableEq α] {a x : α} {l list seen front back : List α}

def successor (list : List α) (a : α) : Option α :=
  match list.dropWhile (· ≠ a) with
  | _ :: behind :: _ => some behind
  | _ => list.head?

theorem successor_split (apart : a ∉ front) :
    successor (front ++ a :: back) a = back.head?.or (front ++ [a]).head? := by
  have drops : (front ++ a :: back).dropWhile (· ≠ a) = a :: back := by
    rw [List.dropWhile_append_of_pos]
    · simp
    · intro b before
      exact decide_eq_true (ne_of_mem_of_not_mem before apart)
  rw [successor, drops]
  cases back with
  | nil => rfl
  | cons b back => rfl

/-- Between two visits to `a`, where the elements `l` were there at the first one: the last visit
was to `x`, and `seen` are the visits since. -/
inductive Turn (a : α) (l : List α) : List α → α → List α → Prop where
  | ahead {front mid back : List α} {x : α} (known : l ⊆ front ++ a :: (mid ++ back))
      (last : (a :: mid).getLast? = some x) : Turn a l (front ++ a :: (mid ++ back)) x mid
  | wrapped {front rest behind new : List α} {x : α} (known : l ⊆ front ++ rest ++ a :: behind)
      (last : front.getLast? = some x) :
      Turn a l (front ++ rest ++ a :: (behind ++ new)) x (behind ++ front)

omit [DecidableEq α] in
theorem Turn.start (member : a ∈ list) : Turn a list list a [] := by
  rcases List.append_of_mem member with ⟨front, back, rfl⟩
  have known : front ++ a :: back ⊆ front ++ a :: ([] ++ back) := fun _ there => there
  exact Turn.ahead known rfl

omit [DecidableEq α] in
theorem Turn.append (turn : Turn a l list x seen) (b : α) : Turn a l (list ++ [b]) x seen := by
  cases turn with
  | @ahead front seen back x known last =>
    have longer : front ++ a :: (seen ++ back) ++ [b] = front ++ a :: (seen ++ (back ++ [b])) := by
      simp
    rw [longer]
    refine Turn.ahead (fun c there => ?_) last
    rw [← longer]
    exact List.mem_append_left _ (known there)
  | @wrapped front rest behind new x known last =>
    have longer : front ++ rest ++ a :: (behind ++ new) ++ [b] =
        front ++ rest ++ a :: (behind ++ (new ++ [b])) := by
      simp
    rw [longer]
    exact Turn.wrapped known last

def Complete (a : α) (l seen : List α) : Prop := ∀ b ∈ l, b ≠ a → seen.count b = 1

theorem complete_of_nodup (nodup : (a :: seen).Nodup) (known : l ⊆ a :: seen) :
    Complete a l seen := by
  intro b there other
  rcases List.mem_cons.mp (known there) with same | inside
  · exact absurd same other
  · exact List.count_eq_one_of_mem (List.nodup_cons.mp nodup).2 inside

/-- One step: either the round is complete, or one more element is seen. -/
theorem Turn.step (turn : Turn a l list x seen) (nodup : list.Nodup) :
    (successor list x = some a ∧ Complete a l seen) ∨
      ∃ b, b ≠ a ∧ successor list x = some b ∧ Turn a l list b (seen ++ [b]) := by
  cases turn with
  | @ahead front seen back x known last =>
    rcases List.getLast?_eq_some_iff.mp last with ⟨init, split⟩
    have whole : front ++ a :: (seen ++ back) = front ++ init ++ x :: back := by
      rw [← List.cons_append, split]
      simp
    have apart : x ∉ front ++ init := by
      rw [whole] at nodup
      intro before
      exact (List.nodup_append.mp nodup).2.2 x before x (List.mem_cons_self ..) rfl
    have next : successor (front ++ a :: (seen ++ back)) x =
        back.head?.or (front ++ a :: seen).head? := by
      rw [whole, successor_split apart, List.append_assoc, ← split]
    cases back with
    | nil =>
      cases front with
      | nil =>
        refine Or.inl ⟨next, complete_of_nodup ?_ ?_⟩
        · simpa using nodup
        · simpa using known
      | cons b front =>
        have other : b ≠ a := by
          intro same
          subst same
          exact (List.nodup_cons.mp nodup).1 (by simp)
        refine Or.inr ⟨b, other, next, ?_⟩
        have known' : l ⊆ [b] ++ front ++ a :: seen := by simpa using known
        simpa using @Turn.wrapped _ a l _ _ _ [] b known' rfl
    | cons b back =>
      have other : b ≠ a := by
        intro same
        subst same
        exact (List.nodup_cons.mp (List.nodup_append.mp nodup).2.1).1 (by simp)
      refine Or.inr ⟨b, other, next, ?_⟩
      have known' : l ⊆ front ++ a :: (seen ++ [b] ++ back) := by simpa using known
      have last' : (a :: (seen ++ [b])).getLast? = some b := by
        rw [← List.cons_append]
        exact List.getLast?_concat
      simpa using Turn.ahead known' last'
  | @wrapped front rest behind new x known last =>
    rcases List.getLast?_eq_some_iff.mp last with ⟨init, split⟩
    have whole : front ++ rest ++ a :: (behind ++ new) =
        init ++ x :: (rest ++ a :: (behind ++ new)) := by
      rw [split]
      simp
    have apart : x ∉ init := by
      rw [whole] at nodup
      intro before
      exact (List.nodup_append.mp nodup).2.2 x before x (List.mem_cons_self ..) rfl
    have next : successor (front ++ rest ++ a :: (behind ++ new)) x =
        (rest ++ a :: (behind ++ new)).head?.or (init ++ [x]).head? := by
      rw [whole, successor_split apart]
    cases rest with
    | nil =>
      refine Or.inl ⟨next, complete_of_nodup ?_ ?_⟩
      · have perm : (a :: behind ++ front).Perm (front ++ a :: behind) := List.perm_append_comm
        apply perm.nodup_iff.mpr
        have prefixed : front ++ [] ++ a :: (behind ++ new) = front ++ a :: behind ++ new := by
          simp
        rw [prefixed] at nodup
        exact (List.nodup_append.mp nodup).1
      · intro b there
        have found := known there
        simp only [List.append_nil, List.mem_append, List.mem_cons] at found ⊢
        tauto
    | cons b rest =>
      have other : b ≠ a := by
        intro same
        subst same
        rw [List.append_assoc] at nodup
        exact (List.nodup_cons.mp (List.nodup_append.mp nodup).2.1).1 (by simp)
      refine Or.inr ⟨b, other, next, ?_⟩
      have known' : l ⊆ front ++ [b] ++ rest ++ a :: behind := by simpa using known
      simpa using @Turn.wrapped _ a l _ _ _ new b known' (by simp)

end Baelux.Rounds

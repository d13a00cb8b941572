import Mathlib.Data.List.Nodup

/-! Circular lists with links in both directions, whose head is a node itself. -/

namespace Baelux.Loop

structure Links (ι : Type) where
  next : ι → ι
  prev : ι → ι

variable {ι : Type} {m m' : Links ι} {a b x y : ι} {l : List ι}

def Links.mirror (m : Links ι) : Links ι := ⟨m.prev, m.next⟩

def Path (m : Links ι) : ι → List ι → ι → Prop
  | a, [], b => m.next a = b ∧ m.prev b = a
  | a, x :: l, b => (m.next a = x ∧ m.prev x = a) ∧ Path m x l b

structure Inserted (m m' : Links ι) (a x : ι) : Prop where
  next_new : m'.next x = m.next a
  prev_new : m'.prev x = a
  next_at : m'.next a = x
  prev_at : m'.prev (m.next a) = x
  next_other : ∀ y, y ≠ a → y ≠ x → m'.next y = m.next y
  prev_other : ∀ y, y ≠ m.next a → y ≠ x → m'.prev y = m.prev y

structure Removed (m m' : Links ι) (x : ι) : Prop where
  next_at : m'.next (m.prev x) = m.next x
  prev_at : m'.prev (m.next x) = m.prev x
  next_other : ∀ y, y ≠ m.prev x → m'.next y = m.next y
  prev_other : ∀ y, y ≠ m.next x → m'.prev y = m.prev y

namespace Path

theorem congr (path : Path m a l b) (next : ∀ y ∈ a :: l, m'.next y = m.next y)
    (prev : ∀ y ∈ b :: l, m'.prev y = m.prev y) : Path m' a l b := by
  induction l generalizing a with
  | nil => exact ⟨(next a List.mem_cons_self).trans path.1, (prev b List.mem_cons_self).trans path.2⟩
  | cons x l ih =>
      obtain ⟨⟨points, back⟩, rest⟩ := path
      have inside : x ∈ b :: x :: l := List.mem_cons_of_mem _ List.mem_cons_self
      refine ⟨⟨(next a List.mem_cons_self).trans points, (prev x inside).trans back⟩, ?_⟩
      refine ih rest (fun y member => next y (List.mem_cons_of_mem _ member)) fun y member => prev y ?_
      rcases List.mem_cons.mp member with rfl | later
      · exact List.mem_cons_self
      · exact List.mem_cons_of_mem _ (List.mem_cons_of_mem _ later)

theorem append {r : List ι} : Path m a (l ++ x :: r) b ↔ Path m a l x ∧ Path m x r b := by
  induction l generalizing a with
  | nil => exact Iff.rfl
  | cons y l ih =>
      constructor
      · rintro ⟨linked, rest⟩
        obtain ⟨first, second⟩ := ih.mp rest
        exact ⟨⟨linked, first⟩, second⟩
      · rintro ⟨⟨linked, first⟩, second⟩
        exact ⟨linked, ih.mpr ⟨first, second⟩⟩

theorem mirror (path : Path m a l b) : Path m.mirror b l.reverse a := by
  induction l generalizing a with
  | nil => exact ⟨path.2, path.1⟩
  | cons x l ih =>
      obtain ⟨⟨points, back⟩, rest⟩ := path
      rw [List.reverse_cons]
      exact append.mpr ⟨ih rest, back, points⟩

theorem next_mem (path : Path m a l b) : m.next a ∈ b :: l := by
  cases l with
  | nil => exact List.mem_singleton.mpr path.1
  | cons x l => exact List.mem_cons_of_mem _ (path.1.1 ▸ List.mem_cons_self)

theorem insert (path : Path m a l b) (inserted : Inserted m m' a x) (new : x ∉ a :: l)
    (other : x ≠ b) (nodup : (a :: l).Nodup) (last : b ∉ l) : Path m' a (x :: l) b := by
  have differ : ∀ y ∈ l, y ≠ a ∧ y ≠ x := by
    intro y member
    refine ⟨?_, ?_⟩
    · rintro rfl
      exact (List.nodup_cons.mp nodup).1 member
    · rintro rfl
      exact new (List.mem_cons_of_mem _ member)
  refine ⟨⟨inserted.next_at, inserted.prev_new⟩, ?_⟩
  cases l with
  | nil =>
      have points := path.1
      exact ⟨inserted.next_new.trans points, points ▸ inserted.prev_at⟩
  | cons y l =>
      obtain ⟨⟨points, _⟩, rest⟩ := path
      refine ⟨⟨inserted.next_new.trans points, points ▸ inserted.prev_at⟩, rest.congr ?_ ?_⟩
      · intro z member
        exact inserted.next_other z (differ z member).1 (differ z member).2
      · intro z member
        rcases List.mem_cons.mp member with rfl | later
        · refine inserted.prev_other z ?_ other.symm
          rw [points]
          rintro rfl
          exact last List.mem_cons_self
        · refine inserted.prev_other z ?_ (differ z (List.mem_cons_of_mem _ later)).2
          rw [points]
          rintro rfl
          exact (List.nodup_cons.mp (List.nodup_cons.mp nodup).2).1 later

theorem remove (path : Path m a (x :: l) b) (removed : Removed m m' x)
    (nodup : (a :: x :: l).Nodup) (last : b ∉ x :: l) : Path m' a l b := by
  obtain ⟨⟨_, back⟩, rest⟩ := path
  cases l with
  | nil =>
      have points := rest.1
      exact ⟨back ▸ removed.next_at.trans points, points ▸ removed.prev_at.trans back⟩
  | cons y l =>
      obtain ⟨⟨points, _⟩, rest⟩ := rest
      refine ⟨⟨back ▸ removed.next_at.trans points, points ▸ removed.prev_at.trans back⟩,
        rest.congr ?_ ?_⟩
      · intro z member
        refine removed.next_other z ?_
        rw [back]
        rintro rfl
        exact (List.nodup_cons.mp nodup).1 (List.mem_cons_of_mem _ member)
      · intro z member
        refine removed.prev_other z ?_
        rw [points]
        rintro rfl
        rcases List.mem_cons.mp member with rfl | later
        · exact last (List.mem_cons_of_mem _ List.mem_cons_self)
        · have behind := (List.nodup_cons.mp (List.nodup_cons.mp nodup).2).2
          exact (List.nodup_cons.mp behind).1 later

end Path

end Baelux.Loop

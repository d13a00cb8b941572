import Mathlib.Data.List.Nodup

/-! Doubly linked lists threaded through an array: every element has a link to the next one,
or to none, and whoever is next points back. The back link of the first element is free. -/

namespace Baelux

variable {ι : Type} {next next' : ι → Option ι} {prev prev' : ι → ι}
variable {start middle stop : Option ι} {front back l : List ι} {x y : ι}

/-- The elements from `start` up to `stop`. -/
def Thread (next : ι → Option ι) (prev : ι → ι) : Option ι → List ι → Option ι → Prop
  | start, [], stop => start = stop
  | start, x :: rest, stop =>
      start = some x ∧ (∀ y, next x = some y → prev y = x) ∧ Thread next prev (next x) rest stop

namespace Thread

theorem append : Thread next prev start (front ++ back) stop ↔
    ∃ middle, Thread next prev start front middle ∧ Thread next prev middle back stop := by
  induction front generalizing start with
  | nil =>
      constructor
      · exact fun thread => ⟨start, rfl, thread⟩
      · rintro ⟨_, rfl, thread⟩
        exact thread
  | cons x rest ih =>
      constructor
      · rintro ⟨here, points, thread⟩
        rcases ih.mp thread with ⟨middle, first, second⟩
        exact ⟨middle, ⟨here, points, first⟩, second⟩
      · rintro ⟨middle, ⟨here, points, first⟩, second⟩
        exact ⟨here, points, ih.mpr ⟨middle, first, second⟩⟩

theorem points_back (thread : Thread next prev start l stop) (member : x ∈ l)
    (follows : next x = some y) : prev y = x := by
  induction l generalizing start with
  | nil => cases member
  | cons z rest ih =>
      rcases thread with ⟨_, points, thread⟩
      rcases List.mem_cons.mp member with rfl | later
      · exact points y follows
      · exact ih thread later

theorem next_inj {z : ι} (thread : Thread next prev start l stop) (memberX : x ∈ l)
    (memberY : y ∈ l) (followsX : next x = some z) (followsY : next y = some z) : x = y := by
  calc
    x = prev z := (thread.points_back memberX followsX).symm
    _ = y := thread.points_back memberY followsY

theorem start_mem (thread : Thread next prev (some x) l none) : x ∈ l := by
  cases l with
  | nil => cases thread
  | cons y rest =>
      obtain rfl := Option.some.inj thread.1
      exact List.mem_cons_self ..

theorem next_mem {z : ι} (thread : Thread next prev start (z :: l) none) (member : x ∈ z :: l)
    (follows : next x = some y) : y ∈ l := by
  induction l generalizing start z with
  | nil =>
      obtain rfl := List.mem_singleton.mp member
      rw [thread.2.2] at follows
      cases follows
  | cons w rest ih =>
      rcases List.mem_cons.mp member with rfl | later
      · have behind := thread.2.2
        rw [follows] at behind
        exact behind.start_mem
      · exact List.mem_cons_of_mem _ (ih thread.2.2 later)

theorem next_member (thread : Thread next prev start l none) (member : x ∈ l)
    (follows : next x = some y) : y ∈ l := by
  cases l with
  | nil => cases member
  | cons z rest => exact List.mem_cons_of_mem _ (thread.next_mem member follows)

theorem congr (thread : Thread next prev start l stop) (same : ∀ x ∈ l, next' x = next x)
    (back : ∀ x ∈ l, ∀ y, next x = some y → prev' y = x) : Thread next' prev' start l stop := by
  induction l generalizing start with
  | nil => exact thread
  | cons x rest ih =>
      rcases thread with ⟨here, _, thread⟩
      have first := same x (List.mem_cons_self ..)
      refine ⟨here, ?_, ?_⟩
      · intro y follows
        rw [first] at follows
        exact back x (List.mem_cons_self ..) y follows
      · rw [first]
        exact ih thread (fun y member => same y (List.mem_cons_of_mem _ member))
          fun y member => back y (List.mem_cons_of_mem _ member)

/-! ## Insertion and removal -/

theorem insert_front (thread : Thread next prev start l none) (nodup : l.Nodup) (new : x ∉ l)
    (link : next' x = start) (points : ∀ y, start = some y → prev' y = x)
    (same : ∀ z, z ≠ x → next' z = next z)
    (others : ∀ y, y ≠ x → start ≠ some y → prev' y = prev y) :
    Thread next' prev' (some x) (x :: l) none := by
  refine ⟨rfl, link ▸ points, ?_⟩
  rw [link]
  cases l with
  | nil => exact thread
  | cons w rest =>
      apply thread.congr
      · intro z member
        exact same z (ne_of_mem_of_not_mem member new)
      · intro z member y follows
        have behind := thread.next_mem member follows
        rw [others y, thread.points_back member follows]
        · exact ne_of_mem_of_not_mem (List.mem_cons_of_mem _ behind) new
        · rw [thread.1]
          rintro ⟨rfl⟩
          exact (List.nodup_cons.mp nodup).1 behind

theorem insert_after (thread : Thread next prev start (front ++ y :: back) none)
    (nodup : (front ++ y :: back).Nodup) (new : x ∉ front ++ y :: back) (link : next' y = some x)
    (onward : next' x = next y) (same : ∀ z, z ≠ x → z ≠ y → next' z = next z)
    (points : prev' x = y) (back_points : ∀ z, next y = some z → prev' z = x)
    (others : ∀ z, z ≠ x → next y ≠ some z → prev' z = prev z) :
    Thread next' prev' start (front ++ y :: x :: back) none := by
  have other : y ≠ x := ne_of_mem_of_not_mem (by simp) new
  have whole := thread
  have kept : ∀ z ∈ front ++ back, next' z = next z := by
    intro z member
    apply same
    · exact ne_of_mem_of_not_mem (by grind) new
    · grind
  have pointed : ∀ z ∈ front ++ back, ∀ w, next z = some w → prev' w = z := by
    intro z member w follows
    have inside : z ∈ front ++ y :: back := by grind
    rw [others w, whole.points_back inside follows]
    · exact ne_of_mem_of_not_mem (whole.next_member inside follows) new
    · intro also
      have same := whole.next_inj inside (by simp) follows also
      grind
  rcases append.mp thread with ⟨middle, first, rfl, _, rest⟩
  apply append.mpr
  refine ⟨some y, first.congr ?_ ?_, rfl, ?_, ?_⟩
  · exact fun z member => kept z (List.mem_append_left _ member)
  · exact fun z member => pointed z (List.mem_append_left _ member)
  · rw [link]
    rintro z ⟨rfl⟩
    exact points
  · rw [link]
    refine ⟨rfl, ?_, ?_⟩
    · rw [onward]
      exact back_points
    · rw [onward]
      exact rest.congr (fun z member => kept z (List.mem_append_right _ member))
        fun z member => pointed z (List.mem_append_right _ member)

theorem remove_after (thread : Thread next prev start (front ++ y :: x :: back) none)
    (nodup : (front ++ y :: x :: back).Nodup) (link : next' y = next x)
    (same : ∀ z, z ≠ x → z ≠ y → next' z = next z) (points : ∀ z, next x = some z → prev' z = y)
    (others : ∀ z, next x ≠ some z → prev' z = prev z) :
    Thread next' prev' start (front ++ y :: back) none := by
  have whole := thread
  have kept : ∀ z ∈ front ++ back, next' z = next z := by
    intro z member
    apply same
    · grind
    · grind
  have pointed : ∀ z ∈ front ++ back, ∀ w, next z = some w → prev' w = z := by
    intro z member w follows
    have inside : z ∈ front ++ y :: x :: back := by grind
    rw [others w, whole.points_back inside follows]
    intro also
    have same := whole.next_inj inside (by simp) follows also
    grind
  rcases append.mp thread with ⟨middle, first, rfl, _, ⟨behind, _, rest⟩⟩
  apply append.mpr
  refine ⟨some y, first.congr ?_ ?_, rfl, ?_, ?_⟩
  · exact fun z member => kept z (List.mem_append_left _ member)
  · exact fun z member => pointed z (List.mem_append_left _ member)
  · rw [link]
    exact points
  · rw [link]
    exact rest.congr (fun z member => kept z (List.mem_append_right _ member))
      fun z member => pointed z (List.mem_append_right _ member)

end Thread

end Baelux

import Mathlib.Data.Finset.Max
import Mathlib.Data.Fintype.Card

/-! Turns among the members of a finite order. The greatest member whose turn it is goes first,
and loses its turn. Where nobody who asks has a turn, all of them get one. -/

namespace Baelux.RoundRobin

variable {α : Type} [LinearOrder α] [Fintype α]

def turns (rest asking : Finset α) : Finset α :=
  if rest ∩ asking = ∅ then Finset.univ else rest

def above (b : α) : Finset α := Finset.univ.filter fun a => b < a

def ahead (rest : Finset α) (b : α) : Nat :=
  if b ∈ rest then (rest ∩ above b).card else rest.card + (above b).card

variable {rest asking : Finset α} {a b : α}

structure Goes (rest asking : Finset α) (a : α) : Prop where
  mem : a ∈ asking ∩ turns rest asking
  greatest : ∀ other ∈ asking ∩ turns rest asking, other ≤ a

theorem ahead_le (rest : Finset α) (b : α) :
    ahead rest b ≤ Fintype.card α - 1 + (above b).card := by
  unfold ahead
  split
  · exact (Finset.card_le_card Finset.inter_subset_right).trans (Nat.le_add_left _ _)
  · rename_i out
    have few : rest.card < Fintype.card α := Finset.card_lt_univ_of_notMem out
    omega

/-- Each turn of another brings `b` nearer to its own. -/
theorem ahead_lt (goes : Goes rest asking a) (asks : b ∈ asking) (other : a ≠ b) :
    ahead ((turns rest asking).erase a) b < ahead rest b := by
  have mem := Finset.mem_inter.mp goes.mem
  by_cases none_left : rest ∩ asking = ∅
  · -- All of them get a turn, so `b` had none.
    have out : b ∉ rest := fun inside =>
      Finset.notMem_empty b (none_left ▸ Finset.mem_inter.mpr ⟨inside, asks⟩)
    have all : turns rest asking = Finset.univ := if_pos none_left
    have before : b < a := by
      refine lt_of_le_of_ne (goes.greatest b ?_) other.symm
      rw [all, Finset.inter_univ]
      exact asks
    have inside : b ∈ (turns rest asking).erase a := by simp [all, other.symm]
    have smaller : (turns rest asking).erase a ∩ above b ⊂ above b := by
      refine (Finset.ssubset_iff_of_subset Finset.inter_subset_right).mpr ⟨a, ?_, ?_⟩
      · simp [above, before]
      · simp
    rw [ahead, if_pos inside, ahead, if_neg out]
    exact (Finset.card_lt_card smaller).trans_le (Nat.le_add_left _ _)
  · have same : turns rest asking = rest := if_neg none_left
    rw [same] at mem ⊢
    by_cases inside : b ∈ rest
    · have before : b < a := by
        refine lt_of_le_of_ne (goes.greatest b ?_) other.symm
        rw [same]
        exact Finset.mem_inter.mpr ⟨asks, inside⟩
      have smaller : rest.erase a ∩ above b ⊂ rest ∩ above b := by
        refine (Finset.ssubset_iff_of_subset
          (Finset.inter_subset_inter_right (Finset.erase_subset a rest))).mpr ⟨a, ?_, ?_⟩
        · simp [above, before, mem.2]
        · simp
      rw [ahead, if_pos (Finset.mem_erase.mpr ⟨other.symm, inside⟩), ahead, if_pos inside]
      exact Finset.card_lt_card smaller
    · have out : b ∉ rest.erase a := fun still => inside (Finset.mem_of_mem_erase still)
      rw [ahead, if_neg out, ahead, if_neg inside]
      exact Nat.add_lt_add_right (Finset.card_erase_lt_of_mem mem.2) _

end Baelux.RoundRobin

import Baelux.Library.RoundRobin
import Baelux.Sequencer.Discipline
import Mathlib.Order.Interval.Finset.Fin

/-! The turns of `UTIL_SEQ_Run`: a task that it may choose each time is passed over only so often,
whatever the other tasks and the interrupts do. -/

namespace Baelux.Seq

open Effect Nesting Simulation RoundRobin

abbrev Bit := Fin 32

def bits (b : Bm) : Finset Bit := Finset.univ.filter fun i => b.getLsbD i.val = true

@[simp] theorem mem_bits {b : Bm} {i : Bit} : i ∈ bits b ↔ b.getLsbD i.val = true := by
  simp [bits]

theorem bits_and (b c : Bm) : bits (b &&& c) = bits b ∩ bits c := by
  ext i
  simp

theorem bits_eq_empty {b : Bm} : bits b = ∅ ↔ b = 0 := by
  constructor
  · intro none_set
    by_contra set
    have position := seqBitPosition_set set
    have inside : (⟨_, position.1⟩ : Bit) ∈ bits b := mem_bits.mpr position.2
    rw [none_set] at inside
    exact Finset.notMem_empty _ inside
  · rintro rfl
    ext i
    simp

theorem bits_allowed (roundRobin currentTaskSet : Bm) :
    bits (allowed roundRobin currentTaskSet) = turns (bits roundRobin) (bits currentTaskSet) := by
  unfold allowed turns
  rw [← bits_and]
  by_cases none_left : roundRobin &&& currentTaskSet = 0
  · rw [if_pos none_left, if_pos (bits_eq_empty.mpr none_left)]
    ext i
    rw [mem_bits, utilSeqAllBitSet, BitVec.getLsbD_allOnes, decide_eq_true i.isLt]
    simp
  · rw [if_neg none_left, if_neg (mt bits_eq_empty.mp none_left)]

theorem bits_clear (b : Bm) (i : Bit) : bits (b &&& ~~~bit i.val) = (bits b).erase i := by
  ext j
  rw [mem_bits, BitVec.getLsbD_and, BitVec.getLsbD_not, getLsbD_bit, decide_eq_true j.isLt]
  simp [Fin.ext_iff, and_comm]

theorem le_seqBitPosition {value : Bm} {i : Nat} (set : value.getLsbD i = true) :
    i ≤ (seqBitPosition value).toNat := by
  have some_bit : value ≠ 0 := ne_zero_iff.mpr ⟨i, set⟩
  have few : value.clz < 32 := BitVec.clz_lt_iff_ne_zero.mpr some_bit
  have reached : 2 ^ i ≤ value.toNat := Nat.ge_two_pow_of_testBit set
  have below : i < 32 - value.clz.toNat :=
    (Nat.pow_lt_pow_iff_right (by decide)).mp
      (reached.trans_lt BitVec.toNat_lt_two_pow_sub_clz)
  have small : value.clz.toNat < 32 := by simpa [BitVec.lt_def] using few
  have last : (31 : Bm).toNat = 31 := rfl
  unfold seqBitPosition
  simp only [BitVec.toNat_setWidth, BitVec.toNat_sub]
  omega

theorem goes_nextTask (roundRobin : Bm) {currentTaskSet : Bm} (some_task : currentTaskSet ≠ 0)
    {i : Bit} (chosen : (nextTask roundRobin currentTaskSet).toNat = i.val) :
    Goes (bits roundRobin) (bits currentTaskSet) i := by
  have set := nextTask_set roundRobin some_task
  constructor
  · rw [← bits_allowed, ← bits_and, mem_bits, BitVec.getLsbD_and, ← chosen, set.1, set.2]
    rfl
  · intro other asks
    rw [← bits_allowed, ← bits_and, mem_bits] at asks
    have below := le_seqBitPosition asks
    rw [nextTask, BitVec.toNat_setWidth_of_le (by decide)] at chosen
    exact Fin.le_def.mpr (chosen ▸ below)

variable {S : Sig} {E T I O α : Type}

namespace Application

variable (app : Application S E T I O α)

/-- The steps from one machine to another, where `b` may be chosen at each choice of the priority,
and is not: how often that is. -/
inductive Passed (p : Fin utilSeqConfPrioNbr) (b : Bit) (m : Machine S E α) :
    Nat → Machine S E α → Prop where
  | refl : Passed p b m 0 m
  | other {n : Nat} {s t : Machine S E α} {a : Step I O} (earlier : Passed p b m n s)
      (aside : a = .advance →
        ∀ backup currentTaskSet, s.top ≠ .run backup (.turn p.val currentTaskSet))
      (stepped : app.step s a = some t) : Passed p b m n t
  | turn {n : Nat} {s t : Machine S E α} {backup currentTaskSet : Bm} (earlier : Passed p b m n s)
      (top : s.top = .run backup (.turn p.val currentTaskSet))
      (eligible : currentTaskSet.getLsbD b.val = true)
      (stepped : app.step s .advance = some t)
      (others : t.regs.currentTaskIdx.toNat ≠ b.val) : Passed p b m (n + 1) t

variable {app}

def aheadOf (p : Fin utilSeqConfPrioNbr) (b : Bit) (m : Machine S E α) : Nat :=
  ahead (bits (m.regs.taskPrio p).roundRobin) b

variable {p : Fin utilSeqConfPrioNbr} {b : Bit} {m s t : Machine S E α}

theorem handleAll_roundRobin (r : Registers) (asked : Option (Ask E T)) :
    ((app.handleAll r asked).taskPrio p).roundRobin = (r.taskPrio p).roundRobin := by
  cases asked with
  | none => rfl
  | some asked =>
    cases asked with
    | setTask task taskPrio =>
      simp only [handleAll, Option.elim, handle, Registers.utilSeqSetTask, Function.update_apply]
      split
      · subst p
        rfl
      · rfl
    | _ => rfl

theorem runStep_roundRobin {backup : Bm} {pc : RunPc}
    (aside : ∀ currentTaskSet, pc ≠ .turn p.val currentTaskSet)
    (stepped : app.runStep s backup pc = some t) :
    (t.regs.taskPrio p).roundRobin = (s.regs.taskPrio p).roundRobin := by
  cases pc with
  | turn counter currentTaskSet =>
    rcases Option.map_eq_some_iff.mp stepped with ⟨regs, chooses, rfl⟩
    by_cases inside : counter < utilSeqConfPrioNbr
    · rw [Registers.chooseTask_eq _ inside] at chooses
      obtain rfl := Option.some.inj chooses
      have elsewhere : p ≠ ⟨counter, inside⟩ := by
        rintro rfl
        exact aside currentTaskSet rfl
      simp only [Function.update_of_ne elsewhere]
    · simp [Registers.chooseTask, Table.load, inside] at chooses
  | search localTaskMask counter =>
    rcases Option.map_eq_some_iff.mp stepped with ⟨tasks, _, rfl⟩
    split <;> rfl
  | choose localTaskMask counter =>
    rcases Option.map_eq_some_iff.mp stepped with ⟨tasks, _, rfl⟩
    rfl
  | take =>
    rcases Option.map_eq_some_iff.mp stepped with ⟨task, _, rfl⟩
    rfl
  | test localTaskSet localEvtSet localTaskMask =>
    rw [runStep] at stepped
    split at stepped <;> obtain rfl := Option.some.inj stepped <;> rfl
  | restore =>
    rw [runStep] at stepped
    cases layers : s.layers with
    | nil =>
      rw [layers] at stepped
      obtain rfl := Option.some.inj stepped
      rfl
    | cons layer rest =>
      rw [layers] at stepped
      obtain rfl := Option.some.inj stepped
      rfl
  | _ =>
    obtain rfl := Option.some.inj stepped
    rfl

theorem step_roundRobin {a : Step I O}
    (aside : a = .advance →
      ∀ backup currentTaskSet, s.top ≠ .run backup (.turn p.val currentTaskSet))
    (stepped : app.step s a = some t) :
    (t.regs.taskPrio p).roundRobin = (s.regs.taskPrio p).roundRobin := by
  cases a with
  | call choice =>
    simp only [step] at stepped
    split at stepped
    · rcases Option.map_eq_some_iff.mp stepped with ⟨⟨answer, a⟩, _, rfl⟩
      exact handleAll_roundRobin s.regs _
    · cases stepped
  | advance =>
    simp only [step] at stepped
    split at stepped
    · obtain rfl := Option.some.inj stepped
      rfl
    · rename_i backup pc top
      refine runStep_roundRobin (fun currentTaskSet same => ?_) stepped
      exact aside rfl backup currentTaskSet (same ▸ top)
    · obtain rfl := Option.some.inj stepped
      rfl
    · obtain rfl := Option.some.inj stepped
      rfl
    · cases stepped
    · rename_i pc _
      obtain rfl := Option.some.inj stepped
      cases pc <;> rfl
  | interrupt source =>
    obtain rfl := Option.some.inj stepped
    exact handleAll_roundRobin s.regs _

theorem turn_ahead {backup currentTaskSet : Bm}
    (top : s.top = .run backup (.turn p.val currentTaskSet))
    (eligible : currentTaskSet.getLsbD b.val = true) (stepped : app.step s .advance = some t)
    (others : t.regs.currentTaskIdx.toNat ≠ b.val) : aheadOf p b t < aheadOf p b s := by
  have some_task : currentTaskSet ≠ 0 := ne_zero_iff.mpr ⟨b.val, eligible⟩
  simp only [step, top, runStep, Registers.chooseTask_eq _ p.isLt, Option.map_some] at stepped
  obtain rfl := Option.some.inj stepped
  have range : (nextTask (s.regs.taskPrio p).roundRobin currentTaskSet).toNat < 32 := by
    by_contra beyond
    have set := (nextTask_set (s.regs.taskPrio p).roundRobin some_task).1
    rw [BitVec.getLsbD_of_ge _ _ (Nat.not_lt.mp beyond)] at set
    cases set
  have goes := goes_nextTask (s.regs.taskPrio p).roundRobin some_task
    (i := ⟨_, range⟩) rfl
  have nearer := ahead_lt goes (mem_bits.mpr eligible) fun same => others (congrArg Fin.val same)
  rw [← bits_allowed, ← bits_clear] at nearer
  simpa only [aheadOf, Function.update_self] using nearer

theorem Passed.bound {n : Nat} (passed : app.Passed p b m n t) :
    n + aheadOf p b t ≤ aheadOf p b m := by
  induction passed with
  | refl => exact (Nat.zero_add _).le
  | other earlier aside stepped ih =>
    unfold aheadOf at ih ⊢
    rwa [step_roundRobin aside stepped]
  | turn earlier top eligible stepped others ih =>
    have nearer := turn_ahead top eligible stepped others
    omega

theorem aheadOf_le (p : Fin utilSeqConfPrioNbr) (b : Bit) (m : Machine S E α) :
    aheadOf p b m ≤ 62 - b.val := by
  refine (ahead_le _ b).trans ?_
  have higher : (above b).card = 31 - b.val := by
    have same : above b = Finset.Ioi b := by
      ext i
      simp [above]
    rw [same, Fin.card_Ioi]
  rw [higher, Fintype.card_fin]
  omega

/-- Of the choices of a priority at which `b` may be chosen, at most `62 - b` in a row go to
others. -/
theorem passed_over_at_most {n : Nat} (passed : app.Passed p b m n t) : n ≤ 62 - b.val :=
  (Nat.le_add_right n _).trans (passed.bound.trans (aheadOf_le p b m))

/-- Two tasks are pending, and the one with the higher bit goes first. -/
theorem passed_over_at_most_once : ∃ m t : Machine noCalls Unit Unit,
    (twoTasks.system fun _ _ _ => True).Reaches (boot ()) m ∧ twoTasks.Passed 0 0 m 1 t ∧
      1 ≤ 62 - (0 : Bit).val := by
  let labels : List (Step (Option Bool) Unit) :=
    .interrupt (some true) :: .interrupt (some false) :: List.replicate 7 .advance
  let m := ((twoTasks.system fun _ _ _ => True).run (boot ()) labels).get rfl
  have reaches : (twoTasks.system fun _ _ _ => True).Reaches (boot ()) m :=
    .of_run labels rfl (along_silent (by simp [labels]) _)
  have top : m.top = .run (BitVec.allOnes 32) (.turn 0 3) := rfl
  have passed : twoTasks.Passed 0 0 m 1 _ := .turn .refl top (by decide) rfl (by decide)
  exact ⟨m, _, reaches, passed, passed_over_at_most passed⟩

end Application

end Baelux.Seq

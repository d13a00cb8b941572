import Baelux.Library.Table
import Mathlib.Data.BitVec

/-! The static variables of `stm32_seq.c`, and what its calls do to them. -/

namespace Baelux.Seq

abbrev Bm := BitVec 32

def utilSeqAllBitSet : Bm := BitVec.allOnes 32
def utilSeqNoTaskRunning : Bm := 0xFFFFFFFF

abbrev utilSeqConfPrioNbr : Nat := 2

def cfgSchPrio0 : Fin utilSeqConfPrioNbr := 0
def cfgSchPrio1 : Fin utilSeqConfPrioNbr := 1

def bit (index : Nat) : Bm := 1#32 <<< index

@[simp] theorem getLsbD_bit (index i : Nat) :
    (bit index).getLsbD i = (decide (i < 32) && decide (i = index)) := by
  unfold bit
  by_cases inside : i < 32
  · by_cases same : i = index
    · simp [*]
    · simp [*]
      omega
  · simp [*]

/-- `SEQ_BitPosition`: the highest bit. -/
def seqBitPosition (value : Bm) : BitVec 8 := (31 - value.clz).setWidth 8

theorem seqBitPosition_set {value : Bm} (set : value ≠ 0) :
    (seqBitPosition value).toNat < 32 ∧ value.getLsbD (seqBitPosition value).toNat = true := by
  have few : value.clz < 32 := BitVec.clz_lt_iff_ne_zero.mpr set
  have here := BitVec.getLsbD_true_clz_of_ne_zero (by decide) set
  have position : (seqBitPosition value).toNat = 32 - 1 - value.clz.toNat := by
    have small : value.clz.toNat < 32 := by simpa [BitVec.lt_def] using few
    have last : (31 : Bm).toNat = 31 := rfl
    unfold seqBitPosition
    simp only [BitVec.toNat_setWidth, BitVec.toNat_sub]
    omega
  rw [position]
  exact ⟨by omega, here⟩

/-- The tasks whose turn it is: all of them again, where each pending one has had its turn. -/
def allowed (roundRobin currentTaskSet : Bm) : Bm :=
  if roundRobin &&& currentTaskSet = 0 then utilSeqAllBitSet else roundRobin

def nextTask (roundRobin currentTaskSet : Bm) : Bm :=
  (seqBitPosition (currentTaskSet &&& allowed roundRobin currentTaskSet)).setWidth 32

theorem nextTask_set {currentTaskSet : Bm} (roundRobin : Bm) (set : currentTaskSet ≠ 0) :
    currentTaskSet.getLsbD (nextTask roundRobin currentTaskSet).toNat = true ∧
      (allowed roundRobin currentTaskSet).getLsbD (nextTask roundRobin currentTaskSet).toNat =
        true := by
  have turns : currentTaskSet &&& allowed roundRobin currentTaskSet ≠ 0 := by
    unfold allowed
    split
    · rw [utilSeqAllBitSet, BitVec.and_allOnes]
      exact set
    · rename_i common
      rwa [BitVec.and_comm]
  have position := (seqBitPosition_set turns).2
  rw [BitVec.getLsbD_and, Bool.and_eq_true] at position
  rw [nextTask, BitVec.toNat_setWidth_of_le (by decide)]
  exact position

structure Priority where
  priority : Bm
  roundRobin : Bm

inductive Ask (E T : Type) where
  | setTask (task : T) (taskPrio : Fin utilSeqConfPrioNbr)
  | setEvt (event : E)
  | pauseTask (task : T)
  | resumeTask (task : T)

structure Registers where
  taskSet : Bm
  taskMask : Bm
  superMask : Bm
  evtSet : Bm
  evtWaited : Bm
  currentTaskIdx : Bm
  taskPrio : Table Priority utilSeqConfPrioNbr

namespace Registers

def utilSeqInit : Registers where
  taskSet := 0
  taskMask := utilSeqAllBitSet
  superMask := utilSeqAllBitSet
  evtSet := 0
  evtWaited := 0
  currentTaskIdx := 0
  taskPrio := fun _ => ⟨0, 0⟩

variable (r : Registers)

def utilSeqSetTask (taskIdBm : Bm) (taskPrio : Fin utilSeqConfPrioNbr) : Registers :=
  { r with
    taskSet := r.taskSet ||| taskIdBm
    taskPrio := Function.update r.taskPrio taskPrio
      { r.taskPrio taskPrio with priority := (r.taskPrio taskPrio).priority ||| taskIdBm } }

def utilSeqPauseTask (taskIdBm : Bm) : Registers :=
  { r with taskMask := r.taskMask &&& ~~~taskIdBm }

def utilSeqResumeTask (taskIdBm : Bm) : Registers :=
  { r with taskMask := r.taskMask ||| taskIdBm }

def utilSeqSetEvt (evtIdBm : Bm) : Registers :=
  { r with evtSet := r.evtSet ||| evtIdBm }

def utilSeqClrEvt (evtIdBm : Bm) : Registers :=
  { r with evtSet := r.evtSet &&& ~~~evtIdBm }

/-- The critical section of `UTIL_SEQ_Run`: the selected task is no longer pending. -/
def takeTask (index : Nat) : Registers :=
  { r with
    taskSet := r.taskSet &&& ~~~bit index
    taskPrio := fun i =>
      { r.taskPrio i with priority := (r.taskPrio i).priority &&& ~~~bit index } }

def eligible (localTaskMask : Bm) (counter : Nat) : Option Bm :=
  (r.taskPrio.load counter).map fun prio => prio.priority &&& localTaskMask &&& r.superMask

/-- The choice among `currentTaskSet`, in turns. -/
def chooseTask (counter : Nat) (currentTaskSet : Bm) : Option Registers := do
  let prio ← r.taskPrio.load counter
  let index := nextTask prio.roundRobin currentTaskSet
  let taskPrio ← r.taskPrio.store counter
    { prio with roundRobin := allowed prio.roundRobin currentTaskSet &&& ~~~bit index.toNat }
  some { r with currentTaskIdx := index, taskPrio := taskPrio }

theorem chooseTask_eq {counter : Nat} (inside : counter < utilSeqConfPrioNbr)
    (currentTaskSet : Bm) :
    r.chooseTask counter currentTaskSet =
      let prio := r.taskPrio ⟨counter, inside⟩
      let index := nextTask prio.roundRobin currentTaskSet
      some { r with
        currentTaskIdx := index
        taskPrio := Function.update r.taskPrio ⟨counter, inside⟩
          { prio with
            roundRobin := allowed prio.roundRobin currentTaskSet &&& ~~~bit index.toNat } } := by
  simp only [chooseTask, Table.load_of_lt inside, Table.store, dif_pos inside, Option.bind_eq_bind,
    Option.bind_some]

end Registers

end Baelux.Seq

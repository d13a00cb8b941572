import Baelux.Sequencer.Machine

/-! What holds of the sequencer in every run: its variables agree with each other, the mask is
that of all waits in progress, and a selected task is pending and admitted. -/

namespace Baelux.Seq

open Effect Nesting Simulation

def Within (few many : Bm) : Prop := ∀ i, few.getLsbD i = true → many.getLsbD i = true

namespace Within

variable {few some_bits many : Bm}

theorem refl (b : Bm) : Within b b := fun _ set => set

theorem trans (first : Within few some_bits) (second : Within some_bits many) : Within few many :=
  fun i set => second i (first i set)

theorem or_left (b c : Bm) : Within b (b ||| c) := by
  intro i set
  rw [BitVec.getLsbD_or, set, Bool.true_or]

theorem and_left (b c : Bm) : Within (b &&& c) b := by
  intro i set
  rw [BitVec.getLsbD_and, Bool.and_eq_true] at set
  exact set.1

theorem and_right (b c : Bm) : Within (b &&& c) c := by
  intro i set
  rw [BitVec.getLsbD_and, Bool.and_eq_true] at set
  exact set.2

end Within

theorem ne_zero_iff {b : Bm} : b ≠ 0 ↔ ∃ i, b.getLsbD i = true := by
  constructor
  · intro set
    exact ⟨_, (seqBitPosition_set set).2⟩
  · rintro ⟨i, set⟩ rfl
    simp at set

theorem Within.common {b c b' c' : Bm} (first : Within b b') (second : Within c c')
    (common : b &&& c ≠ 0) : b' &&& c' ≠ 0 := by
  rcases ne_zero_iff.mp common with ⟨i, set⟩
  rw [BitVec.getLsbD_and, Bool.and_eq_true] at set
  refine ne_zero_iff.mpr ⟨i, ?_⟩
  rw [BitVec.getLsbD_and, first i set.1, second i set.2, Bool.and_true]

variable {S : Sig} {E T I O α : Type}

namespace Application

variable (app : Application S E T I O α)

structure Consistent (r : Registers) : Prop where
  listed : ∀ i, r.taskSet.getLsbD i = true ↔ ∃ p, (r.taskPrio p).priority.getLsbD i = true
  known : ∀ i, r.taskSet.getLsbD i = true → ∃ task, app.taskAt i = some task

def admitted : List (Layer S E) → Bm
  | [] => utilSeqAllBitSet
  | layer :: rest => admitted rest &&& app.evtIdleMask layer.event

def outside (layers : List (Layer S E)) : Bm := app.admitted layers.tail

def waited : List (Layer S E) → Bm
  | [] => 0
  | layer :: _ => app.evtBit layer.event

/-- The innermost `UTIL_SEQ_Run` is not run for an event that `UTIL_SEQ_EvtIdle` has set. -/
def Open (layers : List (Layer S E)) : Prop := ∀ layer ∈ layers.head?, app.bypass layer.event = false

def Bypassed (evtSet : Bm) (layers : List (Layer S E)) : Prop :=
  ∀ layer ∈ layers.head?, app.bypass layer.event = true → evtSet &&& app.evtBit layer.event ≠ 0

def Stacked : List (Layer S E) → Prop
  | [] => True
  | layer :: rest => layer.superMaskBackup = app.outside rest ∧
      layer.eventWaitedIdBackup = app.waited rest ∧ app.Open rest ∧ Stacked rest

def RunSound (r : Registers) (layers : List (Layer S E)) : RunPc → Prop
  | .readTaskSet => app.Bypassed r.evtSet layers
  | .readEvtSet localTaskSet => Within localTaskSet r.taskSet ∧ app.Bypassed r.evtSet layers
  | .readTaskMask localTaskSet localEvtSet =>
      Within localTaskSet r.taskSet ∧ app.Bypassed localEvtSet layers
  | .test localTaskSet localEvtSet _ =>
      Within localTaskSet r.taskSet ∧ app.Bypassed localEvtSet layers
  | .search localTaskMask counter => app.Open layers ∧ ∃ p : Fin utilSeqConfPrioNbr,
      counter ≤ p.val ∧ (r.taskPrio p).priority &&& (localTaskMask &&& r.superMask) ≠ 0
  | .choose localTaskMask counter => app.Open layers ∧ ∃ p : Fin utilSeqConfPrioNbr,
      counter = p.val ∧ (r.taskPrio p).priority &&& (localTaskMask &&& r.superMask) ≠ 0
  | .turn counter currentTaskSet => app.Open layers ∧ counter < utilSeqConfPrioNbr ∧
      currentTaskSet ≠ 0 ∧ Within currentTaskSet r.taskSet ∧ Within currentTaskSet r.superMask
  | .take => app.Open layers ∧ r.taskSet.getLsbD r.currentTaskIdx.toNat = true ∧
      r.superMask.getLsbD r.currentTaskIdx.toNat = true
  | .preIdle => True
  | .idle => True
  | .restore => True

def WaitSound (r : Registers) (event : E) : WaitPc → Prop
  | .test => True
  | .bypass => app.bypass event = true
  | .nest => app.bypass event = true → r.evtSet &&& app.evtBit event ≠ 0
  | .clear => r.evtSet &&& app.evtBit event ≠ 0

def TopSound (r : Registers) (layers : List (Layer S E)) : Top S E → Prop
  | .main => layers = [] ∧ r.evtWaited = 0
  | .run backup pc => backup = app.outside layers ∧ r.evtWaited = app.waited layers ∧
      app.RunSound r layers pc
  | .task backup _ => backup = app.outside layers ∧ r.evtWaited = app.waited layers ∧
      app.Open layers
  | .wait backup event _ _ eventWaitedIdBackup pc => backup = app.outside layers ∧
      eventWaitedIdBackup = app.waited layers ∧ r.evtWaited = app.evtBit event ∧
      app.Open layers ∧ app.WaitSound r event pc

structure Sound (m : Machine S E α) : Prop where
  consistent : app.Consistent m.regs
  mask : m.regs.superMask = app.admitted m.layers
  stacked : app.Stacked m.layers
  top : app.TopSound m.regs m.layers m.top

structure Grown (r s : Registers) : Prop where
  taskSet : Within r.taskSet s.taskSet
  evtSet : Within r.evtSet s.evtSet
  priority : ∀ p, Within (r.taskPrio p).priority (s.taskPrio p).priority
  superMask : s.superMask = r.superMask
  evtWaited : s.evtWaited = r.evtWaited
  currentTaskIdx : s.currentTaskIdx = r.currentTaskIdx

variable {app} {r s : Registers} {layers : List (Layer S E)}

theorem handleAll_grown (r : Registers) (ask : Option (Ask E T)) :
    Grown r (app.handleAll r ask) := by
  have same : Grown r r := ⟨Within.refl _, Within.refl _, fun _ => Within.refl _, rfl, rfl, rfl⟩
  cases ask with
  | none => exact same
  | some ask =>
    cases ask with
    | setTask task taskPrio =>
      refine ⟨Within.or_left _ _, Within.refl _, fun p => ?_, rfl, rfl, rfl⟩
      simp only [handleAll, Option.elim, handle, Registers.utilSeqSetTask, Function.update_apply]
      split
      · subst p
        exact Within.or_left _ _
      · exact Within.refl _
    | setEvt event =>
      exact ⟨Within.refl _, Within.or_left _ _, fun _ => Within.refl _, rfl, rfl, rfl⟩
    | pauseTask task => exact ⟨Within.refl _, Within.refl _, fun _ => Within.refl _, rfl, rfl, rfl⟩
    | resumeTask task => exact ⟨Within.refl _, Within.refl _, fun _ => Within.refl _, rfl, rfl, rfl⟩

theorem Consistent.handleAll (consistent : app.Consistent r) (ask : Option (Ask E T)) :
    app.Consistent (app.handleAll r ask) := by
  cases ask with
  | none => exact consistent
  | some ask =>
    cases ask with
    | setTask task taskPrio =>
      simp only [Application.handleAll, Option.elim, handle, Registers.utilSeqSetTask]
      constructor
      · intro i
        simp only [BitVec.getLsbD_or, Bool.or_eq_true, consistent.listed]
        constructor
        · rintro (⟨p, set⟩ | set)
          · refine ⟨p, ?_⟩
            rw [Function.update_apply]
            split
            · subst p
              simp [set]
            · exact set
          · exact ⟨taskPrio, by simp [set]⟩
        · rintro ⟨p, set⟩
          rw [Function.update_apply] at set
          split at set
          · simp only [BitVec.getLsbD_or, Bool.or_eq_true] at set
            exact set.imp_left fun set => ⟨taskPrio, set⟩
          · exact Or.inl ⟨p, set⟩
      · intro i set
        simp only [BitVec.getLsbD_or, Bool.or_eq_true, getLsbD_bit, Bool.and_eq_true,
          decide_eq_true_eq] at set
        rcases set with set | ⟨_, rfl⟩
        · exact consistent.known i set
        · exact ⟨task, app.taskAt_eq_some.mpr rfl⟩
    | _ => exact ⟨consistent.listed, consistent.known⟩

theorem Consistent.takeTask (consistent : app.Consistent r) (index : Nat) :
    app.Consistent (r.takeTask index) := by
  constructor
  · intro i
    simp only [Registers.takeTask, BitVec.getLsbD_and, Bool.and_eq_true, consistent.listed]
    exact ⟨fun ⟨⟨p, set⟩, other⟩ => ⟨p, set, other⟩, fun ⟨p, set, other⟩ => ⟨⟨p, set⟩, other⟩⟩
  · intro i set
    exact consistent.known i (Within.and_left _ _ i set)

theorem Bypassed.mono {b c : Bm} (within : Within b c) (bypassed : app.Bypassed b layers) :
    app.Bypassed c layers :=
  fun layer member sets => within.common (Within.refl _) (bypassed layer member sets)

theorem Open.bypassed (isOpen : app.Open layers) (b : Bm) : app.Bypassed b layers := by
  intro layer member sets
  rw [isOpen layer member] at sets
  cases sets

theorem RunSound.grow (grown : Grown r s) {pc : RunPc} (sound : app.RunSound r layers pc) :
    app.RunSound s layers pc := by
  cases pc with
  | readTaskSet => exact Bypassed.mono grown.evtSet sound
  | readEvtSet localTaskSet =>
    exact ⟨sound.1.trans grown.taskSet, Bypassed.mono grown.evtSet sound.2⟩
  | readTaskMask localTaskSet localEvtSet => exact ⟨sound.1.trans grown.taskSet, sound.2⟩
  | test localTaskSet localEvtSet localTaskMask => exact ⟨sound.1.trans grown.taskSet, sound.2⟩
  | search localTaskMask counter =>
    rcases sound with ⟨isOpen, p, ahead, some_task⟩
    refine ⟨isOpen, p, ahead, ?_⟩
    rw [grown.superMask]
    exact (grown.priority p).common (Within.refl _) some_task
  | choose localTaskMask counter =>
    rcases sound with ⟨isOpen, p, here, some_task⟩
    refine ⟨isOpen, p, here, ?_⟩
    rw [grown.superMask]
    exact (grown.priority p).common (Within.refl _) some_task
  | turn counter currentTaskSet =>
    rcases sound with ⟨isOpen, inside, some_task, pending, admitted⟩
    refine ⟨isOpen, inside, some_task, pending.trans grown.taskSet, ?_⟩
    rw [grown.superMask]
    exact admitted
  | take =>
    rcases sound with ⟨isOpen, pending, admitted⟩
    refine ⟨isOpen, ?_, ?_⟩
    · rw [grown.currentTaskIdx]
      exact grown.taskSet _ pending
    · rw [grown.currentTaskIdx, grown.superMask]
      exact admitted
  | preIdle => trivial
  | idle => trivial
  | restore => trivial

theorem WaitSound.grow (grown : Grown r s) {event : E} {pc : WaitPc}
    (sound : app.WaitSound r event pc) : app.WaitSound s event pc := by
  cases pc with
  | test => trivial
  | bypass => exact sound
  | nest => exact fun sets => grown.evtSet.common (Within.refl _) (sound sets)
  | clear => exact grown.evtSet.common (Within.refl _) sound

theorem TopSound.grow (grown : Grown r s) {top : Top S E} (sound : app.TopSound r layers top) :
    app.TopSound s layers top := by
  cases top with
  | main => exact ⟨sound.1, grown.evtWaited.trans sound.2⟩
  | run backup pc =>
    exact ⟨sound.1, grown.evtWaited.trans sound.2.1, RunSound.grow grown sound.2.2⟩
  | task backup program => exact ⟨sound.1, grown.evtWaited.trans sound.2.1, sound.2.2⟩
  | wait backup event next currentTaskIdx eventWaitedIdBackup pc =>
    rcases sound with ⟨backs, putAside, waits, isOpen, sound⟩
    exact ⟨backs, putAside, grown.evtWaited.trans waits, isOpen, WaitSound.grow grown sound⟩

structure Chosen (r s : Registers) (currentTaskSet : Bm) : Prop where
  index : currentTaskSet.getLsbD s.currentTaskIdx.toNat = true
  taskSet : s.taskSet = r.taskSet
  evtSet : s.evtSet = r.evtSet
  superMask : s.superMask = r.superMask
  evtWaited : s.evtWaited = r.evtWaited
  priority : ∀ p, (s.taskPrio p).priority = (r.taskPrio p).priority

theorem chooseTask_spec {counter : Nat} {currentTaskSet : Bm}
    (inside : counter < utilSeqConfPrioNbr) (set : currentTaskSet ≠ 0) :
    ∃ s, r.chooseTask counter currentTaskSet = some s ∧ Chosen r s currentTaskSet := by
  refine ⟨_, r.chooseTask_eq inside currentTaskSet, (nextTask_set _ set).1, rfl, rfl, rfl, rfl, ?_⟩
  intro p
  dsimp only
  rw [Function.update_apply]
  split
  · subst p
    rfl
  · rfl

theorem Chosen.consistent {currentTaskSet : Bm} (chosen : Chosen r s currentTaskSet)
    (consistent : app.Consistent r) : app.Consistent s := by
  refine ⟨?_, ?_⟩
  · intro i
    simp only [chosen.taskSet, chosen.priority]
    exact consistent.listed i
  · rw [chosen.taskSet]
    exact consistent.known

/-! ## The steps -/

variable {m : Machine S E α} {backup : Bm} {pc : RunPc}

theorem Sound.goto (sound : app.Sound m) {top : Top S E}
    (topSound : app.TopSound m.regs m.layers top) : app.Sound { m with top := top } :=
  ⟨sound.consistent, sound.mask, sound.stacked, topSound⟩

theorem Consistent.eligible_within (consistent : app.Consistent r) (p : Fin utilSeqConfPrioNbr)
    (localTaskMask : Bm) :
    Within ((r.taskPrio p).priority &&& localTaskMask &&& r.superMask) r.taskSet := by
  intro i set
  exact (consistent.listed i).mpr ⟨p, Within.and_left _ _ i (Within.and_left _ _ i set)⟩

/-- A `UTIL_SEQ_Run` reads no priority outside the table, and calls a registered task. -/
theorem runStep_sound (sound : app.Sound m) (top : m.top = .run backup pc) :
    ∃ n, app.runStep m backup pc = some n ∧ app.Sound n := by
  have topSound := sound.top
  rw [top] at topSound
  rcases topSound with ⟨backs, waits, here⟩
  cases pc with
  | readTaskSet => exact ⟨_, rfl, sound.goto ⟨backs, waits, Within.refl _, here⟩⟩
  | readEvtSet localTaskSet => exact ⟨_, rfl, sound.goto ⟨backs, waits, here.1, here.2⟩⟩
  | readTaskMask localTaskSet localEvtSet => exact ⟨_, rfl, sound.goto ⟨backs, waits, here⟩⟩
  | test localTaskSet localEvtSet localTaskMask =>
    rw [runStep]
    split
    · rename_i test
      refine ⟨_, rfl, sound.goto ⟨backs, waits, ?_, ?_⟩⟩
      · -- An event that is set ends the run.
        intro layer member
        rw [Bool.eq_false_iff]
        intro sets
        have set := here.2 layer member sets
        rw [waits] at test
        cases layers : m.layers with
        | nil => simp [layers] at member
        | cons first rest =>
          obtain rfl : first = layer := by simpa [layers] using member
          rw [layers] at test
          exact set test.2
      · rcases ne_zero_iff.mp test.1 with ⟨i, set⟩
        simp only [BitVec.getLsbD_and, Bool.and_eq_true] at set
        rcases (sound.consistent.listed i).mp (here.1 i set.1.1) with ⟨p, listed⟩
        refine ⟨p, Nat.zero_le _, ne_zero_iff.mpr ⟨i, ?_⟩⟩
        simp only [BitVec.getLsbD_and, listed, set.1.2, set.2, Bool.and_self]
    · exact ⟨_, rfl, sound.goto ⟨backs, waits, trivial⟩⟩
  | search localTaskMask counter =>
    rcases here with ⟨isOpen, p, ahead, set⟩
    have inside : counter < utilSeqConfPrioNbr := Nat.lt_of_le_of_lt ahead p.isLt
    refine ⟨_, by rw [runStep, Registers.eligible, Table.load_of_lt inside]; rfl, ?_⟩
    dsimp only
    split
    · rename_i none_here
      refine sound.goto ⟨backs, waits, isOpen, p, Nat.lt_of_le_of_ne ahead ?_, set⟩
      rintro rfl
      rw [BitVec.and_assoc] at none_here
      exact set none_here
    · rename_i some_here
      refine sound.goto ⟨backs, waits, isOpen, ⟨counter, inside⟩, rfl, ?_⟩
      rwa [BitVec.and_assoc] at some_here
  | choose localTaskMask counter =>
    rcases here with ⟨isOpen, p, rfl, set⟩
    refine ⟨_, by rw [runStep, Registers.eligible, Table.load_of_lt p.isLt]; rfl, ?_⟩
    dsimp only
    refine sound.goto ⟨backs, waits, isOpen, p.isLt, ?_, ?_, Within.and_right _ _⟩
    · rwa [BitVec.and_assoc]
    · exact sound.consistent.eligible_within p localTaskMask
  | turn counter currentTaskSet =>
    rcases here with ⟨isOpen, inside, set, pending, admits⟩
    rcases chooseTask_spec (r := m.regs) inside set with ⟨s, chooses, chosen⟩
    refine ⟨_, by rw [runStep, chooses]; rfl, ?_⟩
    refine ⟨chosen.consistent sound.consistent, chosen.superMask.trans sound.mask, sound.stacked,
      backs, chosen.evtWaited.trans waits, isOpen, ?_, ?_⟩
    · rw [chosen.taskSet]
      exact pending _ chosen.index
    · rw [chosen.superMask]
      exact admits _ chosen.index
  | take =>
    rcases here with ⟨isOpen, pending, admits⟩
    rcases sound.consistent.known _ pending with ⟨task, registered⟩
    refine ⟨_, by rw [runStep, registered]; rfl, ?_⟩
    exact ⟨sound.consistent.takeTask _, sound.mask, sound.stacked, backs, waits, isOpen⟩
  | preIdle =>
    refine ⟨_, rfl, ?_⟩
    exact ⟨⟨sound.consistent.listed, sound.consistent.known⟩, sound.mask, sound.stacked, backs,
      waits, trivial⟩
  | idle => exact ⟨_, rfl, sound.goto ⟨backs, waits, trivial⟩⟩
  | restore =>
    have stacked := sound.stacked
    rw [runStep]
    cases layers : m.layers with
    | nil =>
      rw [layers] at backs waits
      refine ⟨_, rfl, ?_⟩
      exact ⟨⟨sound.consistent.listed, sound.consistent.known⟩, backs, trivial, rfl, waits⟩
    | cons layer rest =>
      rw [layers] at backs waits stacked
      rcases stacked with ⟨outer, putAside, isOpen, stacked⟩
      refine ⟨_, rfl, ?_⟩
      exact ⟨⟨sound.consistent.listed, sound.consistent.known⟩, backs, stacked, outer, putAside,
        waits, isOpen, trivial⟩

theorem waitStep_sound {event : E} {next : Unit → Task S E Unit}
    {currentTaskIdx eventWaitedIdBackup : Bm} {pc : WaitPc} (sound : app.Sound m)
    (top : m.top = .wait backup event next currentTaskIdx eventWaitedIdBackup pc) :
    app.Sound (app.waitStep m backup event next currentTaskIdx eventWaitedIdBackup pc) := by
  have topSound := sound.top
  rw [top] at topSound
  rcases topSound with ⟨backs, putAside, waits, isOpen, here⟩
  cases pc with
  | test =>
    refine sound.goto ⟨backs, putAside, waits, isOpen, ?_⟩
    split
    · rename_i set
      exact set
    · split
      · rename_i bypassed
        exact bypassed
      · rename_i notBypassed
        exact fun bypassed => absurd bypassed notBypassed
  | bypass =>
    have set : (m.regs.evtSet ||| app.evtBit event) &&& app.evtBit event ≠ 0 :=
      ne_zero_iff.mpr ⟨app.evtId event, by simp [evtBit, app.evtId_lt]⟩
    exact ⟨sound.consistent.handleAll (some (.setEvt event)), sound.mask, sound.stacked, backs,
      putAside, waits, isOpen, fun _ => set⟩
  | nest =>
    refine ⟨⟨sound.consistent.listed, sound.consistent.known⟩, ?_, ⟨backs, putAside, isOpen,
      sound.stacked⟩, ?_, waits, ?_⟩
    · exact congrArg (· &&& app.evtIdleMask event) sound.mask
    · exact sound.mask
    · intro layer member bypassed
      obtain rfl := Option.some.inj member
      exact here bypassed
  | clear =>
    exact ⟨⟨sound.consistent.listed, sound.consistent.known⟩, sound.mask, sound.stacked, backs,
      putAside, isOpen⟩

theorem step_sound {n : Machine S E α} {a : Step I O} (sound : app.Sound m)
    (stepped : app.step m a = some n) : app.Sound n := by
  have topSound := sound.top
  cases a with
  | call choice =>
    simp only [step] at stepped
    split at stepped
    · rename_i backup call next top
      rw [top] at topSound
      rcases Option.map_eq_some_iff.mp stepped with ⟨⟨answer, a⟩, done, rfl⟩
      have grown : Grown m.regs (app.handleAll m.regs (app.asks call)) := handleAll_grown _ _
      exact ⟨sound.consistent.handleAll _, grown.superMask.trans sound.mask, sound.stacked,
        topSound.1, grown.evtWaited.trans topSound.2.1, topSound.2.2⟩
    · cases stepped
  | advance =>
    simp only [step] at stepped
    split at stepped
    · rename_i top
      rw [top] at topSound
      obtain rfl := Option.some.inj stepped
      refine ⟨⟨sound.consistent.listed, sound.consistent.known⟩, ?_, sound.stacked, ?_, ?_, ?_⟩
      · rw [utilSeqAllBitSet, BitVec.and_allOnes]
        exact sound.mask
      · rw [sound.mask, topSound.1]
        rfl
      · rw [topSound.1]
        exact topSound.2
      · rw [topSound.1]
        exact fun _ wrong => absurd wrong (Option.some_ne_none _).symm
    · rename_i backup pc top
      rcases runStep_sound sound top with ⟨n', ran, sound⟩
      obtain rfl := Option.some.inj (ran.symm.trans stepped)
      exact sound
    · rename_i backup value top
      rw [top] at topSound
      obtain rfl := Option.some.inj stepped
      exact sound.goto ⟨topSound.1, topSound.2.1, topSound.2.2.bypassed _⟩
    · rename_i backup event next top
      rw [top] at topSound
      obtain rfl := Option.some.inj stepped
      exact ⟨⟨sound.consistent.listed, sound.consistent.known⟩, sound.mask, sound.stacked,
        topSound.1, topSound.2.1, rfl, topSound.2.2, trivial⟩
    · cases stepped
    · rename_i backup event next currentTaskIdx eventWaitedIdBackup pc top
      obtain rfl := Option.some.inj stepped
      exact waitStep_sound sound top
  | interrupt source =>
    obtain rfl := Option.some.inj stepped
    have grown : Grown m.regs (app.handleAll m.regs (app.raises source m.app)) :=
      handleAll_grown _ _
    exact ⟨sound.consistent.handleAll _, grown.superMask.trans sound.mask, sound.stacked,
      topSound.grow grown⟩

theorem boot_sound (a : α) : app.Sound (boot a : Machine S E α) := by
  refine ⟨⟨?_, ?_⟩, rfl, trivial, rfl, rfl⟩
  · intro i
    simp [boot, Registers.utilSeqInit]
  · intro i set
    simp [boot, Registers.utilSeqInit] at set

theorem reaches_sound {C : (call : S.Call) → S.Answer call → Shared α → Prop} {a : α}
    (reaches : (app.system C).Reaches (boot a) m) : app.Sound m :=
  reaches.invariant (fun sound _ stepped => step_sound sound stepped) (boot_sound a)

theorem Sound.advances (sound : app.Sound m) :
    (∃ backup call next, m.top = .task backup (.ask (.own call) next)) ∨
      ∃ n, app.step m .advance = some n := by
  cases top : m.top with
  | main => exact Or.inr ⟨_, by rw [step, top]⟩
  | run backup pc =>
    rcases runStep_sound sound top with ⟨n, ran, _⟩
    exact Or.inr ⟨n, by rw [step, top]; exact ran⟩
  | task backup program =>
    cases program with
    | done value => exact Or.inr ⟨_, by rw [step, top]⟩
    | ask call next =>
      cases call with
      | own call => exact Or.inl ⟨backup, call, next, rfl⟩
      | wait event => exact Or.inr ⟨_, by rw [step, top]⟩
  | wait backup event next currentTaskIdx eventWaitedIdBackup pc =>
    exact Or.inr ⟨_, by rw [step, top]⟩

theorem admits_of_admitted {layers : List (Layer S E)} {i : Nat}
    (admits : (app.admitted layers).getLsbD i = true) {layer : Layer S E} (member : layer ∈ layers) :
    (app.evtIdleMask layer.event).getLsbD i = true := by
  induction layers with
  | nil => cases member
  | cons first rest ih =>
    rw [admitted, BitVec.getLsbD_and, Bool.and_eq_true] at admits
    cases member with
    | head => exact admits.2
    | tail _ member => exact ih admits.1 member

/-- In every run, with interrupts between any two accesses: the mask is that of all waits in
progress, each `UTIL_SEQ_Run` waits for the event of the innermost one and finds its next step (it
reads no priority outside the table and calls no task that is not registered), and a task that it
takes is pending and admitted by every wait below. -/
theorem reaches_disciplined {C : (call : S.Call) → S.Answer call → Shared α → Prop} {a : α}
    (reaches : (app.system C).Reaches (boot a) m) :
    m.regs.superMask = app.admitted m.layers ∧
      (∀ backup pc, m.top = .run backup pc → m.regs.evtWaited = app.waited m.layers ∧
        ∃ n, app.step m .advance = some n) ∧
      ∀ backup, m.top = .run backup .take →
        m.regs.taskSet.getLsbD m.regs.currentTaskIdx.toNat = true ∧
          ∀ layer ∈ m.layers,
            (app.evtIdleMask layer.event).getLsbD m.regs.currentTaskIdx.toNat = true := by
  have sound := reaches_sound reaches
  have here := sound.top
  refine ⟨sound.mask, fun backup pc top => ?_, fun backup top => ?_⟩
  · rw [top] at here
    rcases sound.advances with ⟨_, _, _, other⟩ | advances
    · rw [top] at other
      cases other
    · exact ⟨here.2.1, advances⟩
  · rw [top] at here
    rcases here with ⟨_, _, _, pending, admits⟩
    rw [sound.mask] at admits
    exact ⟨pending, fun layer member => admits_of_admitted admits member⟩

theorem reaches_disciplined_late : ∃ m : Machine noCalls Unit Unit,
    m.top = .task (BitVec.allOnes 32) (.done ()) ∧ m.layers.length = 1 ∧ m.regs.evtSet = bit 0 ∧
      m.regs.superMask = twoTasks.admitted m.layers := by
  have reaches : (twoTasks.system fun _ _ _ => True).Reaches (boot ()) _ :=
    .of_run nestedRun rfl (along_silent (by simp [nestedRun]) _)
  exact ⟨_, rfl, rfl, rfl, (reaches_disciplined reaches).1⟩

end Application

end Baelux.Seq

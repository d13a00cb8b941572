import Baelux.Nvm.Confinement
import Baelux.Nvm.Saving

/-! Runs of the persistence layer from power-up, and the addresses they touch. -/

namespace Baelux.Nvm

open Effect Flash Eeprom

inductive NvmOp where
  | init
  | read
  | write (record : Nat → Data)
  | erase

namespace NvmOp

def program : NvmOp → Storage Unit
  | init => do
      let _ ← appZigbeeNvmInit
      pure ()
  | read => do
      let _ ← appZigbeeNvmRead
      pure ()
  | write _ => do
      let _ ← appZigbeeNvmWrite
      pure ()
  | erase => appZigbeeNvmErase

def prepared : NvmOp → World → World
  | write record, w => { w with cache := record }
  | _, w => w

end NvmOp

def perform (env : Env) (op : NvmOp) (w : World) : World :=
  (run (handle env) op.program (op.prepared w)).2

def accesses (env : Env) : List NvmOp → World → List Call
  | [], _ => []
  | op :: rest, w =>
      calls (handle env) op.program (op.prepared w) ++ accesses env rest (perform env op w)

/-- `EEE_var` is zero until the first initialisation. -/
def PoweredUp (w : World) : Prop := w.var = ⟨0, 0, 0, 0, 0⟩

def MountsFirst : List NvmOp → Prop
  | [] => True
  | op :: _ => op = .init ∨ op = .erase

def InitsBelow (env : Env) : List NvmOp → World → Prop
  | [], _ => True
  | op :: rest, w => (op = .init → ¬ UpperInUse w.mem) ∧ InitsBelow env rest (perform env op w)

variable {env : Env} {w : World}

private theorem wp_writeLoop_inside {R : Status → World → Prop} (remaining local_ : Nat)
    (eeStatus : Status) (small : local_ + remaining ≤ 508) (room : HasRoom 0 w.var)
    (result : ∀ status t, HasRoom 0 t.var → R status t) :
    wp (handle env) Inside R (writeLoop remaining local_ eeStatus) w := by
  induction remaining generalizing w local_ eeStatus with
  | zero => exact result _ _ room
  | succ remaining ih =>
      rw [writeLoop, wp_bind, wp_getCache]
      refine ⟨trivial, ?_⟩
      rw [wp_bind]
      refine wp_eeeWrite_inside room (by rw [zigbeeDbStartAddr]; omega) ?_
      intro status t after
      split
      · exact ih _ _ (by omega) after
      split
      · rw [wp_bind]
        refine wp_eeeClean_inside after ?_
        intro _ u same
        exact ih _ _ (by omega) (same ▸ after)
      · exact result _ _ after

private theorem wp_readLoop_inside {R : Bool → World → Prop} (remaining local_ : Nat)
    (room : HasRoom 0 w.var) (result : ∀ value t, HasRoom 0 t.var → R value t) :
    wp (handle env) Inside R (readLoop remaining local_) w := by
  induction remaining generalizing w local_ with
  | zero => exact result _ _ room
  | succ remaining ih =>
      rw [readLoop, wp_bind]
      refine wp_eeeRead_inside room ?_
      intro found
      cases found with
      | none => exact result _ _ room
      | some data =>
          simp only [wp_bind, wp_setCache]
          refine ⟨trivial, ih _ ?_⟩
          exact room

theorem operation_inside (env : Env) (op : NvmOp) (mounted : op = .init ∨ op = .erase ∨ HasRoom 0 w.var)
    (short : ∀ record, op = .write record → (record 0).toNat ≤ capacityBytes)
    (below : op = .init → ¬ UpperInUse w.mem) :
    wp (handle env) Inside (fun _ t => HasRoom 0 t.var) op.program (op.prepared w) := by
  cases op with
  | init =>
      simp only [NvmOp.program, NvmOp.prepared, appZigbeeNvmInit, wp_bind]
      refine wp_recovery_inside (below rfl) ?_
      intro status t after
      split
      · exact wp_format_inside fun _ _ later => later
      · exact after
  | erase =>
      simp only [NvmOp.program, NvmOp.prepared, appZigbeeNvmErase, wp_bind]
      exact wp_format_inside fun _ _ after => after
  | read =>
      have room : HasRoom 0 w.var := by simpa using mounted
      simp only [NvmOp.program, NvmOp.prepared, appZigbeeNvmRead, wp_bind, wp_halFlashUnlock]
      refine ⟨trivial, wp_eeeRead_inside ?_ ?_⟩
      · exact room
      intro found
      cases found with
      | none => exact ⟨trivial, room⟩
      | some length =>
          simp only [wp_bind, wp_setCache]
          refine ⟨trivial, ?_⟩
          split
          · exact ⟨trivial, room⟩
          · rw [wp_bind]
            refine wp_readLoop_inside _ _ ?_ fun _ t after => ⟨trivial, after⟩
            exact room
  | write record =>
      have room : HasRoom 0 w.var := by simpa using mounted
      have words : numWords (record 0) ≤ 508 := (numWords_bounds (short record rfl)).2
      simp only [NvmOp.program, NvmOp.prepared, appZigbeeNvmWrite, wp_bind, wp_traced, wp_getCache]
      refine ⟨trivial, trivial, wp_writeLoop_inside _ 0 _ (by omega) ?_ ?_⟩
      · exact room
      · exact fun _ t after => ⟨trivial, after⟩

private theorem confined_iff {op : NvmOp} :
    (∀ c ∈ calls (handle env) op.program (op.prepared w), Confined c) ↔
      wp (handle env) Inside (fun _ _ => True) op.program (op.prepared w) :=
  wp_calls.symm

private theorem accesses_cons (op : NvmOp) (rest : List NvmOp) :
    (∀ c ∈ accesses env (op :: rest) w, Confined c) ↔
      wp (handle env) Inside (fun _ _ => True) op.program (op.prepared w) ∧
        ∀ c ∈ accesses env rest (perform env op w), Confined c := by
  rw [← confined_iff]
  simp only [accesses, List.mem_append]
  constructor
  · intro all
    exact ⟨fun c here => all c (Or.inl here), fun c later => all c (Or.inr later)⟩
  · rintro ⟨first, second⟩ c (here | later)
    · exact first c here
    · exact second c later

private theorem init_needs_below
    (confined : wp (handle env) Inside (fun _ _ => True) NvmOp.init.program (NvmOp.init.prepared w)) :
    ¬ UpperInUse w.mem := by
  intro used
  simp only [NvmOp.program, NvmOp.prepared, appZigbeeNvmInit] at confined
  rw [wp_bind, wp_bind] at confined
  exact recovery_leaves used confined

/-- Once the bank is mounted only the state of the upper page at an initialisation matters. -/
theorem mounted_confined (ops : List NvmOp)
    (short : ∀ record, .write record ∈ ops → (record 0).toNat ≤ capacityBytes)
    (room : HasRoom 0 w.var) :
    (∀ c ∈ accesses env ops w, Confined c) ↔ InitsBelow env ops w := by
  induction ops generalizing w with
  | nil => simp [accesses, InitsBelow]
  | cons op rest ih =>
      have small : ∀ record, op = .write record → (record 0).toNat ≤ capacityBytes :=
        fun record same => short record (same ▸ List.mem_cons_self ..)
      have later : ∀ record, .write record ∈ rest → (record 0).toNat ≤ capacityBytes :=
        fun record member => short record (List.mem_cons_of_mem _ member)
      rw [accesses_cons, InitsBelow]
      constructor
      · intro holds
        rcases holds with ⟨here, after⟩
        have below : op = .init → ¬ UpperInUse w.mem := by
          intro same
          subst same
          exact init_needs_below here
        have next := wp_run (operation_inside env op (Or.inr (Or.inr room)) small below)
        exact ⟨below, (ih later next).mp after⟩
      · intro holds
        rcases holds with ⟨below, after⟩
        have inside := operation_inside env op (Or.inr (Or.inr room)) small below
        exact ⟨wp_post inside fun _ _ _ => trivial, (ih later (wp_run inside)).mpr after⟩

/-- Before the first initialisation the store reads far below its bank. -/
private theorem unmounted_leaves (poweredUp : PoweredUp w) {op : NvmOp} (other : op ≠ .init)
    (other' : op ≠ .erase) (short : ∀ record, op = .write record → (record 0).toNat ≤ capacityBytes) :
    ¬ wp (handle env) Inside (fun _ _ => True) op.program (op.prepared w) := by
  unfold PoweredUp at poweredUp
  intro confined
  cases op with
  | init => exact other rfl
  | erase => exact other' rfl
  | read =>
      simp only [NvmOp.program, NvmOp.prepared, appZigbeeNvmRead] at confined
      rw [wp_bind, wp_bind, wp_halFlashUnlock] at confined
      have reads := confined.2
      rw [wp_bind, eeeRead, wp_bind, wp_getVar] at reads
      have page : w.var.currentWritePage = 0 := by rw [poweredUp]
      have first := reads.2
      rw [page, eeReadEl, wp_bind, wp_getVar, show eeNbMaxElt = 507 + 1 from rfl, readPageLoop,
        wp_bind, wp_readWord] at first
      have inside : InBank _ := first.2.1
      rw [InBank, base_eq, EeVar.flashAddr, poweredUp] at inside
      simp only [headerSize_eq, width_eq] at inside
      omega
  | write record =>
      obtain ⟨n, words⟩ : ∃ n, numWords (record 0) = n + 1 :=
        ⟨numWords (record 0) - 1, by have := (numWords_bounds (short record rfl)).1; omega⟩
      simp only [NvmOp.program, NvmOp.prepared, appZigbeeNvmWrite] at confined
      rw [wp_bind, wp_traced, wp_bind, wp_getCache, words, wp_bind, writeLoop, wp_bind, wp_getCache,
        wp_bind, eeeWrite, wp_traced, wp_bind, wp_getVar] at confined
      have writes := confined.2.2.2.2.2
      simp only [poweredUp, Nat.mul_zero, Nat.lt_irrefl, ↓reduceIte, changePool, wp_bind, wp_getVar,
        eeGetState, getStateLoop, wp_readWord] at writes
      have inside : InBank _ := writes.2.2.1
      rw [InBank, base_eq] at inside
      simp only [EeVar.flashAddr, EeVar.nextPool, headerSize_eq, width_eq, Nat.lt_irrefl,
        ↓reduceIte] at inside
      omega

/-- For records that fit the compiled bank, a run from power-up stays in the bank exactly
when it mounts the bank first and initialises it only while the upper page is not in use. -/
theorem bank_confinement (env : Env) (ops : List NvmOp) (w : World) (poweredUp : PoweredUp w)
    (short : ∀ record, .write record ∈ ops → (record 0).toNat ≤ capacityBytes) :
    (∀ c ∈ accesses env ops w, Confined c) ↔ MountsFirst ops ∧ InitsBelow env ops w := by
  cases ops with
  | nil => simp [accesses, MountsFirst, InitsBelow]
  | cons op rest =>
      have small : ∀ record, op = .write record → (record 0).toNat ≤ capacityBytes :=
        fun record same => short record (same ▸ List.mem_cons_self ..)
      have later : ∀ record, .write record ∈ rest → (record 0).toNat ≤ capacityBytes :=
        fun record member => short record (List.mem_cons_of_mem _ member)
      rw [accesses_cons, MountsFirst, InitsBelow]
      constructor
      · intro holds
        rcases holds with ⟨here, after⟩
        have mounts : op = .init ∨ op = .erase := by
          by_contra neither
          rcases not_or.mp neither with ⟨not_init, not_erase⟩
          exact unmounted_leaves poweredUp not_init not_erase small here
        have below : op = .init → ¬ UpperInUse w.mem := by
          intro same
          subst same
          exact init_needs_below here
        have mounted : op = .init ∨ op = .erase ∨ HasRoom 0 w.var := by
          rcases mounts with init | erase
          · exact Or.inl init
          · exact Or.inr (Or.inl erase)
        have next := wp_run (operation_inside env op mounted small below)
        exact ⟨mounts, below, (mounted_confined rest later next).mp after⟩
      · intro holds
        rcases holds with ⟨mounts, below, after⟩
        have mounted : op = .init ∨ op = .erase ∨ HasRoom 0 w.var := by
          rcases mounts with init | erase
          · exact Or.inl init
          · exact Or.inr (Or.inl erase)
        have inside := operation_inside env op mounted small below
        exact ⟨wp_post inside fun _ _ _ => trivial,
          (mounted_confined rest later (wp_run inside)).mpr after⟩

theorem bank_confinement_erased : PoweredUp (powerUp fun _ => eeErased) ∧
    ∀ c ∈ accesses quiet [.erase, .write fun _ => 4, .read] (powerUp fun _ => eeErased),
      Confined c := by
  have poweredUp : PoweredUp (powerUp fun _ => eeErased) := rfl
  have short : ∀ record, .write record ∈ [.erase, .write fun _ => 4, NvmOp.read] →
      (record 0).toNat ≤ capacityBytes := by
    intro record member
    simp only [List.mem_cons, reduceCtorEq, NvmOp.write.injEq, List.not_mem_nil, or_false,
      false_or] at member
    subst member
    decide
  exact ⟨poweredUp, (bank_confinement quiet _ _ poweredUp short).mpr
    ⟨Or.inr rfl, by simp, by simp, by simp, trivial⟩⟩

def upperActive : World :=
  powerUp fun a => if a = nvmBank.page 1 + 8 then eeProgrammed else eeErased

/-- Mounting such a flash reads the page behind the bank. -/
theorem upper_active_leaves_bank : ¬ ∀ c ∈ accesses quiet [.init] upperActive, Confined c := by
  intro confined
  have first := (accesses_cons .init []).mp confined
  exact init_needs_below first.1 (Or.inr (by decide))

end Baelux.Nvm

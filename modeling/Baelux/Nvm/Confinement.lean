import Baelux.Eeprom.Recovery
import Baelux.Nvm.Record

/-! Which flash addresses the store touches. Nothing is assumed about the flash
content or about the outcome of the flash operations: only the RAM of the store
decides where the next access goes. -/

namespace Baelux.Nvm

open Effect Flash Eeprom

def InBank (a : Nat) : Prop := nvmBank.base ≤ a ∧ a + 8 ≤ nvmBank.page (2 * nvmBank.nb)

def Confined : Call → Prop
  | .read a => InBank a
  | .halFlashProgram a _ => InBank a
  | .halFlashErase p => nvmBank.number 0 ≤ p ∧ p < nvmBank.number (2 * nvmBank.nb)
  | _ => True

def Inside : Call → World → Prop := fun c _ => Confined c

theorem base_eq : nvmBank.base = 0x08070000 := rfl
theorem nb_eq : nvmBank.nb = 1 := rfl

theorem confined_frame {α : Type} {env : Env} {program : Storage α} {w : World}
    (confined : ∀ c ∈ calls (handle env) program w, Confined c) {a : Nat}
    (outside : a < nvmBank.base ∨ nvmBank.page (2 * nvmBank.nb) ≤ a) :
    (run (handle env) program w).2.mem a = w.mem a := by
  have step : ∀ c w, Confined c → (handle env c w).2.mem a = w.mem a := by
    intro c w inside
    cases c with
    | halFlashProgram address data =>
        have apart : a ≠ address := by
          have bounds : InBank address := inside
          unfold InBank at bounds
          omega
        simp only [handle, World.operate]
        split
        · exact programmed_other apart
        · rfl
    | halFlashErase page =>
        have bounds : nvmBank.number 0 ≤ page ∧ page < nvmBank.number (2 * nvmBank.nb) := inside
        have first := nvmBank.number_address 0
        have last := nvmBank.number_address (2 * nvmBank.nb)
        simp only [handle, World.operate]
        split
        · refine pageErased_outside ?_
          simp only [Bank.page, pageSize_eq] at first last outside ⊢
          omega
        · rfl
    | _ => rfl
  induction program generalizing w with
  | done value => rfl
  | ask call next ih =>
      have here := step call w (confined call (List.mem_cons_self ..))
      exact (ih _ fun c member => confined c (List.mem_cons_of_mem _ member)).trans here

/-! ## The RAM of the store -/

structure Placed (v : EeVar) (k : Nat) : Prop where
  address : v.address = nvmBank.base
  nbPages : v.nbPages = 1
  page : v.currentWritePage ≤ 1
  offset : v.nextWriteOffset = 32 + 8 * k
  inPage : k ≤ 508

structure Ahead (n : Nat) (v : EeVar) (k : Nat) : Prop extends Placed v k where
  room : n + 508 * v.currentWritePage + k ≤ 1016
  counted : 508 * v.currentWritePage + k ≤ 508 + v.nbWrittenElements

def HasRoom (n : Nat) (v : EeVar) : Prop := ∃ k, Ahead n v k

theorem HasRoom.mono {n i : Nat} {v : EeVar} (room : HasRoom n v) (less : i ≤ n) : HasRoom i v := by
  rcases room with ⟨k, ahead⟩
  have enough := ahead.room
  exact ⟨k, ahead.toPlaced, by omega, ahead.counted⟩

theorem HasRoom.not_full {v : EeVar} (room : HasRoom 0 v) (free : v.nbWrittenElements < 508) :
    HasRoom 1 v := by
  rcases room with ⟨k, ahead⟩
  have counted := ahead.counted
  exact ⟨k, ahead.toPlaced, by omega, counted⟩

theorem inBank_page {v : EeVar} {k : Nat} (placed : Placed v k) {p o : Nat} (page : p ≤ 1)
    (offset : o + 8 ≤ 4096) : InBank (v.flashAddr p + o) := by
  rw [InBank, EeVar.flashAddr, placed.address, Bank.page_eq, nb_eq, pageSize_eq]
  omega

variable {env : Env} {w : World}

theorem idle_hasRoom {m : Store} (idle : Idle nvmBank m w) : HasRoom 0 w.var := by
  rcases idle with ⟨img, cur, c, ws, live, _⟩
  have inside := live.shape.inside
  have high := live.shape.high
  have pages : c < 1 := inside
  obtain rfl : c = 0 := by omega
  rw [live.var]
  refine ⟨ws.length, ⟨⟨rfl, rfl, ?_, rfl, high⟩, ?_, ?_⟩⟩ <;>
    cases cur <;> simp only [cursor, Bank.first, nb_eq] <;> omega

section Rules

theorem wp_fdWriteData_inside {R : Nat → World → Prop} (a : Nat) (data : Word) (inside : InBank a)
    (result : ∀ value t, t.var = w.var → R value t) :
    wp (handle env) Inside R (fdWriteData a [data]) w := by
  simp only [fdWriteData, Flash.writeLoop, fdWriteSingleData, processSingleFlashOperation, wp_bind,
    wp_hsemLock, wp_halFlashUnlock, wp_cpu1Status]
  refine ⟨trivial, trivial, trivial, ?_⟩
  split
  · simp only [wp_bind, wp_cpu2Lock]
    refine ⟨trivial, ?_⟩
    split
    · simp only [wp_bind, wp_halFlashProgram, wp_cpu2ReleaseLock, wp_pure, ↓reduceIte, ne_eq,
        not_true_eq_false, wp_halFlashLock, wp_hsemReleaseLock]
      refine ⟨inside, trivial, trivial, trivial, result _ _ ?_⟩
      simp only [World.operate]
      split <;> rfl
    · exact result _ _ rfl
  · exact result _ _ rfl

private theorem wp_eraseSector_inside {R : SingleFlashOperationStatus → World → Prop} (p : Nat)
    (inside : Confined (.halFlashErase p)) (result : ∀ status t, t.var = w.var → R status t) :
    wp (handle env) Inside R (fdEraseSingleSector p) w := by
  simp only [fdEraseSingleSector, processSingleFlashOperation, wp_bind, wp_cpu1Status]
  refine ⟨trivial, ?_⟩
  split
  · simp only [wp_bind, wp_cpu2Lock]
    refine ⟨trivial, ?_⟩
    split
    · simp only [wp_bind, wp_halFlashErase, wp_cpu2ReleaseLock, wp_pure]
      refine ⟨inside, trivial, result _ _ ?_⟩
      simp only [World.operate]
      split <;> rfl
    · exact result _ _ rfl
  · exact result _ _ rfl

private theorem wp_sectors_inside {R : SingleFlashOperationStatus × Nat → World → Prop}
    (first remaining loopFlash : Nat)
    (inside : ∀ i < remaining, Confined (.halFlashErase (first + (loopFlash + i))))
    (result : ∀ value t, t.var = w.var → R value t) :
    wp (handle env) Inside R (Flash.eraseLoop first remaining loopFlash) w := by
  induction remaining generalizing w loopFlash with
  | zero => exact result _ _ rfl
  | succ remaining ih =>
      rw [Flash.eraseLoop, wp_bind]
      refine wp_eraseSector_inside _ (inside 0 (Nat.succ_pos _)) ?_
      intro status t same
      split
      · refine ih (loopFlash + 1) (fun i before => ?_) (fun value u later =>
          result value u (later.trans same))
        rw [Nat.add_right_comm]
        exact inside (i + 1) (by omega)
      · exact result _ _ same

theorem wp_fdEraseSectors_inside {R : Nat → World → Prop} (first count : Nat)
    (inside : ∀ i < count, Confined (.halFlashErase (first + i)))
    (result : ∀ value t, t.var = w.var → R value t) :
    wp (handle env) Inside R (fdEraseSectors first count) w := by
  simp only [fdEraseSectors, wp_bind, wp_hsemLock, wp_halFlashUnlock, wp_eraseActivity]
  refine ⟨trivial, trivial, trivial, wp_sectors_inside first count 0 ?_ ?_⟩
  · intro i before
    rw [Nat.zero_add]
    exact inside i before
  · intro value t same
    split
    · exact result _ _ same
    · simp only [wp_bind, wp_eraseActivity, wp_halFlashLock, wp_hsemReleaseLock, wp_pure]
      exact ⟨trivial, trivial, trivial, result _ _ same⟩

variable {k : Nat}

theorem wp_eeGetState_inside {R : PageState → World → Prop} {p : Nat} (placed : Placed w.var k)
    (page : p ≤ 1) (result : R (pageState w.mem (nvmBank.page p)) w) :
    wp (handle env) Inside R (eeGetState p) w := by
  refine wp_eeGetState trivial ?_ ?_
  · intro i header
    exact inBank_page placed page (by omega)
  · rwa [EeVar.flashAddr, placed.address]

/-- For `EE_STATE_ERASED` the header word wraps to the end of the page before. -/
theorem wp_eeSetState_inside {R : Status → World → Prop} {p : Nat} (placed : Placed w.var k)
    (page : p ≤ 1) {state : PageState} (real : state ≠ .erased ∨ p = 1)
    (result : ∀ status t, t.var = w.var → R status t) :
    wp (handle env) Inside R (eeSetState p state) w := by
  have inside : InBank (w.var.flashAddr p + state.index * hwFlashWidth - hwFlashWidth) := by
    have bounds : state.index ≤ 4 ∧ (1 ≤ state.index ∨ p = 1) := by
      cases state <;> simp [PageState.index] at real ⊢
      exact real
    rw [InBank, EeVar.flashAddr, placed.address, Bank.page_eq, nb_eq, pageSize_eq, width_eq, base_eq]
    omega
  simp only [eeSetState, wp_bind, wp_getVar]
  refine ⟨trivial, wp_fdWriteData_inside _ _ inside ?_⟩
  intro value t same
  split <;> exact result _ _ same

theorem wp_eeReadEl_inside {R : Option Data → World → Prop} {addr p : Nat}
    (placed : Placed w.var k) (page : p ≤ 1) (result : ∀ found, R found w) :
    wp (handle env) Inside R (eeReadEl addr p) w := by
  refine wp_eeReadEl trivial ?_ (result _)
  intro q below i small
  rw [nbMaxElt_eq] at small
  refine inBank_page placed (Nat.le_trans below page) ?_
  rw [headerSize_eq, width_eq]
  omega

private theorem wp_storeElement_inside {n : Nat} {R : Status → World → Prop} {addr : Nat}
    {data : Data} (ahead : Ahead (n + 1) w.var k) (inPage : k < 508)
    (result : ∀ status t, HasRoom n t.var → R status t) :
    wp (handle env) Inside R (storeElement addr data) w := by
  have room := ahead.room
  have counted := ahead.counted
  have kept : HasRoom n w.var := HasRoom.mono ⟨k, ahead⟩ (Nat.le_succ n)
  simp only [storeElement, wp_bind, wp_getVar]
  refine ⟨trivial, wp_fdWriteData_inside _ _ ?_ ?_⟩
  · rw [ahead.offset]
    exact inBank_page ahead.toPlaced ahead.page (by omega)
  intro value t same
  split
  · exact result _ _ (same ▸ kept)
  · simp only [wp_bind, wp_setVar, wp_pure]
    refine ⟨trivial, result _ _ ⟨k + 1, ⟨ahead.address, ahead.nbPages, ahead.page, ?_, inPage⟩,
      ?_, ?_⟩⟩
    · simp only [ahead.offset, width_eq]
      omega
    · dsimp only
      omega
    · dsimp only
      omega

theorem wp_eeWriteEl_inside {n : Nat} {R : Status → World → Prop} {addr : Nat} {data : Data}
    (room : HasRoom (n + 1) w.var) (result : ∀ status t, HasRoom n t.var → R status t) :
    wp (handle env) Inside R (eeWriteEl addr data) w := by
  rcases room with ⟨k, ahead⟩
  have bound := ahead.room
  have inPage := ahead.inPage
  have kept : HasRoom n w.var := HasRoom.mono ⟨k, ahead⟩ (Nat.le_succ n)
  rw [eeWriteEl, wp_bind, wp_getVar]
  refine ⟨trivial, ?_⟩
  by_cases overflow : hwFlashPageSize ≤ w.var.nextWriteOffset
  · -- only the lower page can be full here
    have full : k = 508 := by
      rw [ahead.offset, pageSize_eq] at overflow
      omega
    have lower : w.var.currentWritePage = 0 := by omega
    rw [if_pos overflow, wp_bind, changePage, wp_bind, wp_getVar]
    refine ⟨trivial, ?_⟩
    rw [lower, wp_bind]
    refine wp_eeGetState_inside ahead.toPlaced (Nat.zero_le 1) ?_
    rw [wp_bind]
    refine wp_eeSetState_inside ahead.toPlaced (Nat.le_refl 1) (Or.inr rfl) ?_
    intro status t same
    split
    · simpa using result _ t (same ▸ kept)
    · rw [wp_bind]
      refine wp_eeSetState_inside (same ▸ ahead.toPlaced) (Nat.zero_le 1) (Or.inl (by decide)) ?_
      intro status u same'
      split
      · simpa using result _ u (same' ▸ same ▸ kept)
      · simp only [wp_bind, wp_setVar, wp_pure, ne_eq, not_true_eq_false, ↓reduceIte]
        refine ⟨trivial, wp_storeElement_inside (k := 0) ⟨⟨ahead.address, ahead.nbPages, ?_, rfl,
          Nat.zero_le _⟩, ?_, ?_⟩ (by omega) result⟩
        · exact Nat.le_refl 1
        · dsimp only
          omega
        · dsimp only
          omega
  · rw [if_neg overflow]
    refine wp_storeElement_inside ahead ?_ result
    rw [ahead.offset, pageSize_eq] at overflow
    omega

private theorem wp_markPage_inside {R : Status → World → Prop} {p : Nat} (placed : Placed w.var k)
    (page : p ≤ 1) (result : ∀ status t, t.var = w.var → R status t) :
    wp (handle env) Inside R (markPage p) w := by
  rw [markPage, wp_bind]
  refine wp_eeGetState_inside placed page ?_
  split
  · exact wp_eeSetState_inside placed page (Or.inl (by decide)) result
  · exact result _ _ rfl

private theorem wp_markLoop_inside {R : Status → World → Prop} {p : Nat} (placed : Placed w.var k)
    (page : p ≤ 1) (result : ∀ status t, t.var = w.var → R status t) :
    wp (handle env) Inside R (markLoop p) w := by
  induction p generalizing w with
  | zero => exact wp_markPage_inside placed page result
  | succ p ih =>
      rw [markLoop, wp_bind]
      refine wp_markPage_inside placed page ?_
      intro status t same
      split
      · exact result _ t same
      · rw [wp_bind, wp_getVar]
        refine ⟨trivial, ?_⟩
        split
        · exact result _ t same
        · exact ih (same ▸ placed) (by omega) fun status u later =>
            result status u (later.trans same)

private theorem wp_copyVar_inside {n : Nat} {R : Status → World → Prop} {addr lastPage v : Nat}
    (room : HasRoom (n + 1) w.var) (page : lastPage ≤ 1)
    (result : ∀ status t, HasRoom n t.var → R status t) :
    wp (handle env) Inside R (copyVar addr lastPage v) w := by
  have kept : HasRoom n w.var := room.mono (Nat.le_succ n)
  rcases room with ⟨k, ahead⟩
  have fetch : wp (handle env) Inside R (copyAbsent lastPage v) w := by
    rw [copyAbsent, wp_bind]
    refine wp_eeReadEl_inside ahead.toPlaced page ?_
    intro found
    cases found with
    | none => exact result _ _ kept
    | some data =>
        simp only [wp_bind]
        refine wp_eeWriteEl_inside ⟨k, ahead⟩ ?_
        intro status t after
        split <;> exact result _ _ after
  rw [copyVar_eq, wp_bind, wp_getVar]
  refine ⟨trivial, ?_⟩
  split
  · exact fetch
  · rw [wp_bind]
    refine wp_eeReadEl_inside ahead.toPlaced ahead.page ?_
    intro found
    cases found with
    | none => exact fetch
    | some data => exact result _ _ kept

/-- The variable that was written first is not copied again. -/
private theorem wp_copyLoop_inside {R : Status → World → Prop} {addr lastPage : Nat}
    (page : lastPage ≤ 1) (remaining var n : Nat)
    (enough : remaining ≤ n + if var ≤ addr ∧ addr < var + remaining then 1 else 0)
    (room : HasRoom n w.var) (result : ∀ status t, HasRoom 0 t.var → R status t) :
    wp (handle env) Inside R (copyLoop addr lastPage remaining var) w := by
  induction remaining generalizing w var n with
  | zero => exact result _ _ (room.mono (Nat.zero_le n))
  | succ remaining ih =>
      by_cases skipped : var = addr
      · have here : var ≤ addr ∧ addr < var + (remaining + 1) := by omega
        rw [if_pos here] at enough
        simp only [copyLoop, skipped, ne_eq, not_true_eq_false, ↓reduceIte, wp_bind, wp_pure]
        exact ih (addr + 1) n (by omega) room
      · obtain ⟨n, rfl⟩ : ∃ i, n = i + 1 := by
          refine ⟨n - 1, ?_⟩
          split at enough <;> omega
        rw [copyLoop, if_pos skipped, wp_bind]
        refine wp_copyVar_inside room page ?_
        intro status t after
        dsimp only
        split
        · exact result _ _ (after.mono (Nat.zero_le n))
        · refine ih (var + 1) n ?_ after
          split at enough <;> split <;> omega

theorem wp_eeTransfer_inside {n : Nat} {R : Status → World → Prop} {addr p : Nat}
    (enough : 508 ≤ n + if addr < 508 then 1 else 0) (room : HasRoom n w.var)
    (result : ∀ status t, HasRoom 0 t.var → R status t) :
    wp (handle env) Inside R (eeTransfer addr p) w := by
  rcases room with ⟨k, ahead⟩
  have copy : ∀ lastPage, lastPage ≤ 1 → ∀ t : World, t.var = w.var →
      wp (handle env) Inside R (do
        let status ← copyLoop addr lastPage (eeNbMaxElt * 1) 0
        if status ≠ .ok then pure .writeError
        else do
          let pv ← getVar
          eeSetState pv.currentWritePage .active) t := by
    intro lastPage page t same
    rw [wp_bind]
    refine wp_copyLoop_inside page _ 0 n ?_ (same ▸ ⟨k, ahead⟩) ?_
    · simpa [nbMaxElt_eq] using enough
    intro status u after
    split
    · exact result _ _ after
    · rcases after with ⟨k', ahead'⟩
      rw [wp_bind, wp_getVar]
      refine ⟨trivial, wp_eeSetState_inside ahead'.toPlaced ahead'.page (Or.inl (by decide)) ?_⟩
      intro status v same'
      exact result _ _ (same' ▸ ⟨k', ahead'⟩)
  rw [eeTransfer, wp_bind, wp_getVar, ahead.nbPages]
  refine ⟨trivial, ?_⟩
  have last : (if p < 1 then 2 * 1 - 1 else 1 - 1) ≤ 1 := by split <;> omega
  generalize (if p < 1 then 2 * 1 - 1 else 1 - 1) = lastPage at last ⊢
  dsimp only
  split
  · rw [wp_bind]
    refine wp_markLoop_inside ahead.toPlaced last ?_
    intro status t same
    split
    · exact result _ _ (same ▸ HasRoom.mono ⟨k, ahead⟩ (Nat.zero_le n))
    · exact copy _ last t same
  · exact copy _ last w rfl

theorem nextPool_le (v : EeVar) (pages : v.nbPages = 1) : v.nextPool ≤ 1 := by
  rw [EeVar.nextPool, pages]
  split <;> omega

/-- The pool change copies at most 508 variables behind the one that is written. -/
theorem wp_changePool_inside {R : Status → World → Prop} {addr : Nat} {data : Data}
    (room : HasRoom 0 w.var) (fits : addr < 508 ∨ w.var.nextPool = 0)
    (result : ∀ status t, HasRoom 0 t.var → R status t) :
    wp (handle env) Inside R (changePool addr data) w := by
  rcases room with ⟨k, ahead⟩
  have page := nextPool_le w.var ahead.nbPages
  have kept : HasRoom 0 w.var := ⟨k, ahead⟩
  simp only [changePool]
  rw [wp_bind, wp_getVar]
  refine ⟨trivial, ?_⟩
  rw [wp_bind]
  refine wp_eeGetState_inside ahead.toPlaced page ?_
  split
  · exact result _ _ kept
  rw [wp_bind]
  refine wp_eeSetState_inside ahead.toPlaced page (Or.inl (by decide)) ?_
  intro status t same
  split
  · exact result _ _ (same ▸ kept)
  simp only [wp_bind, wp_setVar]
  refine ⟨trivial, wp_eeWriteEl_inside (n := if addr < 508 then 507 else 508)
    ⟨0, ⟨ahead.address, ahead.nbPages, page, rfl, Nat.zero_le _⟩, ?_, ?_⟩ ?_⟩
  · dsimp only
    split <;> omega
  · dsimp only
    omega
  intro status u after
  split
  · exact result _ _ (after.mono (Nat.zero_le _))
  simp only [wp_bind]
  refine wp_eeTransfer_inside (by split <;> omega) after ?_
  intro status v final
  split <;> exact result _ _ final

theorem wp_eeeWrite_inside {R : Status → World → Prop} {addr : Nat} {data : Data}
    (room : HasRoom 0 w.var) (small : addr < 508)
    (result : ∀ status t, HasRoom 0 t.var → R status t) :
    wp (handle env) Inside R (eeeWrite addr data) w := by
  rcases room with ⟨k, ahead⟩
  have finish : ∀ status t, HasRoom 0 t.var → Inside (.leave (.eeeWrite addr data)) t ∧
      R status t := fun status t after => ⟨trivial, result status t after⟩
  rw [eeeWrite, wp_traced, wp_bind, wp_getVar]
  refine ⟨trivial, trivial, ?_⟩
  split
  · rename_i free
    rw [ahead.nbPages, nbMaxElt_eq] at free
    exact wp_eeWriteEl_inside (HasRoom.not_full ⟨k, ahead⟩ (by omega)) finish
  · exact wp_changePool_inside ⟨k, ahead⟩ (Or.inl small) finish

private theorem flashPage_inside {v : EeVar} (placed : Placed v k) {p : Nat} (page : p ≤ 1) :
    Confined (.halFlashErase (v.flashPage p)) := by
  simp only [Confined, EeVar.flashPage, placed.address, Bank.number, nb_eq]
  omega

private theorem wp_erasePage_inside {R : Nat → World → Prop} (placed : Placed w.var k) {p : Nat}
    (page : p ≤ 1) (result : ∀ value t, t.var = w.var → R value t) :
    wp (handle env) Inside R (fdEraseSectors (w.var.flashPage p) 1) w := by
  apply wp_fdEraseSectors_inside _ 1 _ result
  intro i before
  obtain rfl : i = 0 := by omega
  exact flashPage_inside placed page

theorem wp_eeeClean_inside {R : Status → World → Prop} (room : HasRoom 0 w.var)
    (result : ∀ status t, t.var = w.var → R status t) :
    wp (handle env) Inside R eeeClean w := by
  rcases room with ⟨k, ahead⟩
  have page := nextPool_le w.var ahead.nbPages
  simp only [eeeClean]
  rw [wp_traced, wp_bind, wp_getVar]
  refine ⟨trivial, trivial, ?_⟩
  rw [wp_bind]
  refine wp_eeGetState_inside ahead.toPlaced page ?_
  split
  · exact ⟨trivial, result _ _ rfl⟩
  rw [wp_bind, ahead.nbPages]
  apply wp_erasePage_inside ahead.toPlaced page
  intro value t same
  split <;> exact ⟨trivial, result _ _ same⟩

theorem wp_eeeRead_inside {R : Option Data → World → Prop} {addr : Nat} (room : HasRoom 0 w.var)
    (result : ∀ found, R found w) : wp (handle env) Inside R (eeeRead addr) w := by
  rcases room with ⟨k, ahead⟩
  rw [eeeRead, wp_bind, wp_getVar]
  exact ⟨trivial, wp_eeReadEl_inside ahead.toPlaced ahead.page result⟩

/-! ## Initialisation -/

theorem reset_ahead : Ahead 508 (eeReset (hwFlashAddress + cfgNvmBaseAddress) bank0Pages) 0 :=
  ⟨⟨rfl, rfl, by decide, rfl, by decide⟩, by decide, by decide⟩

theorem wp_format_inside {R : Status → World → Prop}
    (result : ∀ status t, HasRoom 0 t.var → R status t) :
    wp (handle env) Inside R
      (eeeInit bank0Pages true (hwFlashAddress + cfgNvmBaseAddress)) w := by
  rw [eeeInit, wp_bind, wp_setVar]
  refine ⟨trivial, ?_⟩
  rw [if_pos rfl, wp_bind, wp_getVar]
  refine ⟨trivial, ?_⟩
  have mounted : HasRoom 0 (eeReset (hwFlashAddress + cfgNvmBaseAddress) bank0Pages) :=
    HasRoom.mono ⟨0, reset_ahead⟩ (Nat.zero_le _)
  rw [wp_bind]
  refine wp_fdEraseSectors_inside _ _ ?_ ?_
  · intro i before
    have pages : i ≤ 1 := Nat.le_of_lt_succ before
    exact flashPage_inside reset_ahead.toPlaced pages
  intro value t same
  split
  · exact result _ _ (same ▸ mounted)
  · refine wp_eeSetState_inside (k := 0) (same ▸ reset_ahead.toPlaced) (Nat.zero_le 1)
      (Or.inl (by decide)) ?_
    intro status u same'
    exact result _ _ (same' ▸ same ▸ mounted)

/-- What the cursor can be while recovery counts the elements of the lower page. -/
private theorem wp_countElements_inside {R : Unit → World → Prop} (remaining : Nat)
    (reach : k + remaining = 508) (lower : w.var.currentWritePage = 0)
    (ahead : Ahead 508 w.var k)
    (result : ∀ t, t.var.currentWritePage = 0 → HasRoom 508 t.var → R () t) :
    wp (handle env) Inside R (countElements remaining (nvmBank.page 0 + (32 + 8 * k))) w := by
  induction remaining generalizing w k with
  | zero => exact result _ lower ⟨k, ahead⟩
  | succ remaining ih =>
      rw [countElements, wp_bind, wp_readWord]
      have here := inBank_page (o := 32 + 8 * k) ahead.toPlaced (Nat.zero_le 1) (by omega)
      rw [EeVar.flashAddr, ahead.address] at here
      refine ⟨here, ?_⟩
      split
      · exact result _ lower ⟨k, ahead⟩
      rw [wp_bind, wp_getVar]
      refine ⟨trivial, ?_⟩
      rw [wp_bind, wp_setVar]
      refine ⟨trivial, ?_⟩
      have counted := ahead.counted
      have next : nvmBank.page 0 + (32 + 8 * k) + hwFlashWidth =
          nvmBank.page 0 + (32 + 8 * (k + 1)) := by
        rw [width_eq]
        omega
      rw [next]
      have moved : Ahead 508 { w.var with
          nbWrittenElements := w.var.nbWrittenElements + 1
          nextWriteOffset := w.var.nextWriteOffset + hwFlashWidth } (k + 1) := by
        refine ⟨⟨ahead.address, ahead.nbPages, ahead.page, ?_, by omega⟩, ?_, ?_⟩
        · simp only [ahead.offset, width_eq]
          omega
        · dsimp only
          omega
        · dsimp only
          omega
      refine ih (k := k + 1) (by omega) ?_ ?_
      · exact lower
      · exact moved

private theorem wp_releaseOther_inside {R : Status → World → Prop} (room : HasRoom 0 w.var)
    (result : ∀ status t, HasRoom 0 t.var → R status t) :
    wp (handle env) Inside R releaseOther w := by
  rcases room with ⟨k, ahead⟩
  have page := nextPool_le w.var ahead.nbPages
  have kept : HasRoom 0 w.var := ⟨k, ahead⟩
  rw [releaseOther, wp_bind, wp_getVar, ahead.nbPages]
  refine ⟨trivial, ?_⟩
  rw [Eeprom.eraseLoop, wp_bind]
  refine wp_eeGetState_inside ahead.toPlaced page ?_
  split
  · rw [wp_bind, wp_getVar]
    refine ⟨trivial, ?_⟩
    rw [wp_bind]
    apply wp_erasePage_inside ahead.toPlaced page
    intro value t same
    split <;> exact result _ _ (same ▸ kept)
  · exact result _ _ kept

private theorem wp_adoptPage_inside {R : Status → World → Prop} (st : PageState)
    (var : w.var = eeReset (hwFlashAddress + cfgNvmBaseAddress) bank0Pages)
    (result : ∀ status t, HasRoom 0 t.var → R status t) :
    wp (handle env) Inside R (adoptPage st 0) w := by
  have ahead : Ahead 508 w.var 0 := var ▸ reset_ahead
  have lower : { w.var with currentWritePage := 0 } = w.var := by
    rw [var]
    rfl
  rw [adoptPage, wp_bind, mountPage, wp_bind, wp_getVar]
  refine ⟨trivial, ?_⟩
  rw [wp_bind, wp_setVar, lower]
  refine ⟨trivial, ?_⟩
  have first : w.var.flashAddr 0 + eeHeaderSize = nvmBank.page 0 + (32 + 8 * 0) := by
    rw [var]
    rfl
  rw [wp_bind, first]
  refine wp_countElements_inside 508 rfl ?_ ahead ?_
  · rw [var]
    rfl
  intro t _ room
  change wp _ _ _ (pure 0) t
  rw [wp_pure]
  split
  · rw [wp_bind]
    refine wp_eeTransfer_inside (by omega) room ?_
    intro status u after
    split
    · exact result _ _ after
    · exact wp_releaseOther_inside after result
  · exact wp_releaseOther_inside (room.mono (Nat.zero_le _)) result

private theorem wp_recoverLower_inside {R : Option Status → World → Prop} {st : PageState}
    (var : w.var = eeReset (hwFlashAddress + cfgNvmBaseAddress) bank0Pages)
    (skipped : R none w) (result : ∀ status t, HasRoom 0 t.var → R (some status) t) :
    wp (handle env) Inside R (recoverPage st 0) w := by
  have placed : Placed w.var 0 := var ▸ reset_ahead.toPlaced
  rw [recoverPage, wp_bind]
  refine wp_eeGetState_inside placed (Nat.zero_le 1) ?_
  split
  · exact skipped
  rw [wp_bind, reliable, wp_bind, wp_getVar]
  refine ⟨trivial, ?_⟩
  rw [if_pos (show poolStart w.var 0 from Or.inl rfl), wp_bind]
  refine wp_eeGetState_inside placed (Nat.le_refl 1) ?_
  split
  · exact skipped
  · simp only [wp_bind, wp_pure]
    exact wp_adoptPage_inside st var result

private theorem wp_recoverUpper_inside {R : Option Status → World → Prop} {st : PageState}
    (var : w.var = eeReset (hwFlashAddress + cfgNvmBaseAddress) bank0Pages)
    (other : st ≠ pageState w.mem (nvmBank.page 1)) (skipped : R none w) :
    wp (handle env) Inside R (recoverPage st 1) w := by
  rw [recoverPage, wp_bind]
  refine wp_eeGetState_inside (var ▸ reset_ahead.toPlaced) (Nat.le_refl 1) ?_
  rw [if_pos other]
  exact skipped

private theorem wp_scan_inside {R : Option Status → World → Prop} {st : PageState}
    (var : w.var = eeReset (hwFlashAddress + cfgNvmBaseAddress) bank0Pages)
    (other : st ≠ pageState w.mem (nvmBank.page 1)) (skipped : R none w)
    (result : ∀ status t, HasRoom 0 t.var → R (some status) t) :
    wp (handle env) Inside R (scanLoop st 2 0) w := by
  rw [scanLoop, wp_bind]
  refine wp_recoverLower_inside var ?_ result
  change wp _ _ _ (scanLoop st 1 1) w
  rw [scanLoop, wp_bind]
  exact wp_recoverUpper_inside var other skipped

/-- Recovery looks for its page in the upper one only in these two states. -/
def UpperInUse (mem : Memory) : Prop :=
  pageState mem (nvmBank.page 1) = .receive ∨ pageState mem (nvmBank.page 1) = .active

theorem wp_recovery_inside {R : Status → World → Prop} (unused : ¬ UpperInUse w.mem)
    (result : ∀ status t, HasRoom 0 t.var → R status t) :
    wp (handle env) Inside R
      (eeeInit bank0Pages false (hwFlashAddress + cfgNvmBaseAddress)) w := by
  rcases not_or.mp unused with ⟨receive, active⟩
  have mounted : HasRoom 0 (eeReset (hwFlashAddress + cfgNvmBaseAddress) bank0Pages) :=
    HasRoom.mono ⟨0, reset_ahead⟩ (Nat.zero_le _)
  rw [eeeInit, wp_bind, wp_setVar]
  refine ⟨trivial, ?_⟩
  rw [if_neg Bool.false_ne_true, eeRecovery, wp_bind, wp_getVar]
  refine ⟨trivial, ?_⟩
  rw [wp_bind]
  refine wp_scan_inside rfl (Ne.symm receive) ?_ result
  simp only [wp_bind]
  exact wp_scan_inside rfl (Ne.symm active) (result _ _ mounted) result

/-! ## Where recovery leaves the bank -/

private theorem run_eeGetState (p : Nat) :
    run (handle env) (eeGetState p) w = (pageState w.mem (w.var.flashAddr p), w) := by
  have read : wp (handle env) (fun _ _ => True)
      (fun state t => (state, t) = (pageState w.mem (w.var.flashAddr p), w)) (eeGetState p) w :=
    wp_eeGetState trivial (fun _ _ => trivial) rfl
  exact wp_run read

private theorem run_recoverPage_skips {st : PageState} {p : Nat} (mounted : Mounted nvmBank w.var)
    (skips : Skips nvmBank w.mem st p) : run (handle env) (recoverPage st p) w = (none, w) := by
  have skip : wp (handle env) (Crash fun _ => True) (fun outcome t => (outcome, t) = (none, w))
      (recoverPage st p) w := wp_recoverPage_skips mounted skips rfl
  exact wp_run skip

/-- In a pool of one page the page after the upper one lies behind the bank. -/
private theorem upper_leaves {st : PageState} {R : Option Status → World → Prop}
    (mounted : Mounted nvmBank w.var) (found : pageState w.mem (nvmBank.page 1) = st) :
    ¬ wp (handle env) Inside R (recoverPage st 1) w := by
  intro confined
  have rest := wp_rest confined
  rw [run_eeGetState, mounted.flashAddr, if_neg (not_not_intro found.symm)] at rest
  rw [wp_bind, reliable, wp_bind, wp_getVar] at rest
  have start : poolStart w.var 1 := (poolStart_iff mounted 1).mpr (Or.inr rfl)
  have reads := rest.2
  rw [if_pos start, wp_bind, eeGetState, wp_bind, wp_getVar, getStateLoop, wp_bind,
    wp_readWord] at reads
  have inside : InBank (w.var.flashAddr (1 + 1) + eeHeaderSize - hwFlashWidth) := reads.2.1
  rw [InBank, mounted.flashAddr, Bank.page_eq, Bank.page_eq, headerSize_eq, width_eq, nb_eq] at inside
  omega

private theorem eeRecovery_leaves {R : Status → World → Prop} (mounted : Mounted nvmBank w.var)
    (used : UpperInUse w.mem) : ¬ wp (handle env) Inside R eeRecovery w := by
  intro confined
  -- the lower page is never trusted, since the page after it is in use
  have lower : ∀ st, run (handle env) (recoverPage st 0) w = (none, w) := by
    intro st
    refine run_recoverPage_skips mounted (Or.inr ⟨Or.inl rfl, ?_⟩)
    rcases used with receive | active
    · rw [receive]
      decide
    · rw [active]
      decide
  have scan : ∀ {st R}, pageState w.mem (nvmBank.page 1) = st →
      ¬ wp (handle env) Inside R (scanLoop st 2 0) w := by
    intro st R found confined
    rw [scanLoop] at confined
    have second := wp_rest confined
    rw [lower] at second
    change wp (handle env) Inside R (scanLoop st 1 1) w at second
    rw [scanLoop, wp_bind] at second
    exact upper_leaves mounted found second
  rw [eeRecovery, wp_bind, wp_getVar, mounted.nbPages] at confined
  have first := confined.2
  by_cases receive : pageState w.mem (nvmBank.page 1) = .receive
  · rw [wp_bind] at first
    exact scan receive first
  · have nothing : run (handle env) (scanLoop .receive 2 0) w = (none, w) := by
      rw [scanLoop, run_bind, lower]
      change run (handle env) (scanLoop .receive 1 1) w = (none, w)
      rw [scanLoop, run_bind, run_recoverPage_skips mounted (Or.inl receive)]
      rfl
    have rest := wp_rest first
    rw [show 2 * nvmBank.nb = 2 from rfl, nothing] at rest
    rw [wp_bind] at rest
    exact scan (used.resolve_left receive) rest

theorem recovery_leaves {R : Status → World → Prop} (used : UpperInUse w.mem) :
    ¬ wp (handle env) Inside R
      (eeeInit bank0Pages false (hwFlashAddress + cfgNvmBaseAddress)) w := by
  intro confined
  rw [eeeInit, wp_bind, wp_setVar, if_neg Bool.false_ne_true] at confined
  refine eeRecovery_leaves ⟨?_, ?_⟩ ?_ confined.2
  · rfl
  · rfl
  · exact used

end Rules

end Baelux.Nvm

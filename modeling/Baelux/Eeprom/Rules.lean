import Baelux.Eeprom.Layout

/-! Rules for the functions of the store that read a bank or take one abstract
step on its image. `Q` is what a reset must find at every flash operation. -/

namespace Baelux.Eeprom

open Effect Flash AppendLog

variable {env : Env} {P : Call → World → Prop} {Q : Memory → Prop} {w : World}

/-! ## How a function of the store ends -/

def Refused (env : Env) (Q : Memory → Prop) (status : Status) (t : World) : Prop :=
  (status = .writeError ∨ status = .eraseError) ∧ ¬ Free env ∧ Q t.mem

def Ends (env : Env) (Q : Memory → Prop) (Good : World → Prop) (status : Status)
    (t : World) : Prop :=
  (status = .ok ∧ Good t) ∨ Refused env Q status t

theorem Ends.good {Good : World → Prop} {t : World} (good : Good t) : Ends env Q Good .ok t :=
  Or.inl ⟨rfl, good⟩

theorem Ends.write_error {Good : World → Prop} {t : World} (busy : ¬ Free env) (safe : Q t.mem) :
    Ends env Q Good .writeError t :=
  Or.inr ⟨Or.inl rfl, busy, safe⟩

theorem Ends.erase_error {Good : World → Prop} {t : World} (busy : ¬ Free env) (safe : Q t.mem) :
    Ends env Q Good .eraseError t :=
  Or.inr ⟨Or.inr rfl, busy, safe⟩

/-- The pattern `if ( f() != EEE_OK ) return EEE_WRITE_ERROR;`. -/
theorem wp_unless_failed {F R : Status → World → Prop} {first rest : Storage Status}
    (begins : wp (handle env) P F first w)
    (failed : ∀ status t, F status t → status ≠ .ok → R .writeError t)
    (next : ∀ t, F .ok t → wp (handle env) P R rest t) :
    wp (handle env) P R
      (first >>= fun status => if status ≠ .ok then pure .writeError else rest) w := by
  rw [wp_bind]
  apply wp_post begins
  intro status t ends
  by_cases ok : status = .ok
  · subst ok
    exact next t ends
  · rw [if_pos ok]
    exact failed status t ends ok

theorem wp_check {G : World → Prop} {R : Status → World → Prop} {first rest : Storage Status}
    (begins : wp (handle env) P (Ends env Q G) first w)
    (refused : ∀ t, ¬ Free env → Q t.mem → R .writeError t)
    (next : ∀ t, G t → wp (handle env) P R rest t) :
    wp (handle env) P R
      (first >>= fun status => if status ≠ .ok then pure .writeError else rest) w := by
  apply wp_unless_failed begins
  · intro status t ends failed
    rcases ends with ⟨ok, _⟩ | ⟨_, busy, safe⟩
    · exact absurd ok failed
    · exact refused t busy safe
  · intro t ends
    rcases ends with ⟨_, good⟩ | ⟨error, _⟩
    · exact next t good
    · exact absurd error (by decide)

/-! ## Reads -/

private theorem wp_getStateLoop {R : PageState → World → Prop} (state : PageState)
    (lower : List PageState) (a : Nat) :
    wp (handle env) P R (getStateLoop (state :: lower) (a + 8)) w ↔ P (.read a) w ∧
      if w.mem a ≠ eeErased then R state w
      else wp (handle env) P R (getStateLoop lower a) w := by
  simp only [getStateLoop, width_eq, Nat.add_sub_cancel, wp_bind, wp_readWord]
  split <;> simp

theorem wp_eeGetState {R : PageState → World → Prop} {page : Nat} (ram : P .getVar w)
    (reads : ∀ k < 4, P (.read (w.var.flashAddr page + k * 8)) w)
    (result : R (pageState w.mem (w.var.flashAddr page)) w) :
    wp (handle env) P R (eeGetState page) w := by
  rw [eeGetState, wp_bind, wp_getVar]
  refine ⟨ram, (wp_getStateLoop _ _ (w.var.flashAddr page + 24)).mpr ⟨reads 3 (by omega), ?_⟩⟩
  unfold pageState at result
  split
  · rwa [if_pos ‹_›] at result
  rw [if_neg ‹_›] at result
  refine (wp_getStateLoop _ _ (w.var.flashAddr page + 16)).mpr ⟨reads 2 (by omega), ?_⟩
  split
  · rwa [if_pos ‹_›] at result
  rw [if_neg ‹_›] at result
  refine (wp_getStateLoop _ _ (w.var.flashAddr page + 8)).mpr ⟨reads 1 (by omega), ?_⟩
  split
  · rwa [if_pos ‹_›] at result
  rw [if_neg ‹_›] at result
  have lowest := reads 0 (by omega)
  rw [Nat.zero_mul] at lowest
  refine (wp_getStateLoop _ _ (w.var.flashAddr page)).mpr ⟨lowest, ?_⟩
  split
  · rwa [if_pos ‹_›] at result
  · rwa [if_neg ‹_›] at result

def pageElements (mem : Memory) (page n : Nat) : List Word :=
  (List.range n).map fun i => mem (page + (eeHeaderSize + i * hwFlashWidth))

theorem wp_readPageLoop {R : Option Data → World → Prop} (flashAddr addr n : Nat)
    (reads : ∀ i < n, P (.read (flashAddr + (eeHeaderSize + i * hwFlashWidth))) w)
    (result : R (latest decode (pageElements w.mem flashAddr n) addr) w) :
    wp (handle env) P R (readPageLoop flashAddr addr n) w := by
  induction n with
  | zero => exact result
  | succ n ih =>
      simp only [readPageLoop, wp_bind, wp_readWord]
      refine ⟨reads n (by omega), ?_⟩
      simp only [pageElements, List.range_succ, List.map_append, List.map_cons, List.map_nil,
        latest_append, latest, Option.none_or] at result
      by_cases found : isElementOf (w.mem (flashAddr + (eeHeaderSize + n * hwFlashWidth))) addr = true
      · rw [if_pos found, wp_pure]
        simpa [binding_decoded ((isElementOf_iff _ _).mp found)] using result
      · rw [if_neg found]
        refine ih (fun i inside => reads i (by omega)) ?_
        have nothing : binding decode
            (w.mem (flashAddr + (eeHeaderSize + n * hwFlashWidth))) addr = none := by
          unfold binding
          split
          · rename_i k value decoded
            rw [if_neg]
            intro same
            subst same
            refine found ((isElementOf_iff _ _).mpr ?_)
            simp only [decode, Option.ite_none_right_eq_some, Option.some.injEq,
              Prod.mk.injEq] at decoded ⊢
            exact ⟨decoded.1, decoded.2.1, trivial⟩
          · rfl
        rwa [nothing, Option.none_or] at result

/-- What `EE_ReadEl` finds from `page` down to the start of its pool. -/
def elementAt (mem : Memory) (pv : EeVar) (addr : Nat) : Nat → Option Data
  | 0 => latest decode (pageElements mem (pv.flashAddr 0) eeNbMaxElt) addr
  | page + 1 =>
      (latest decode (pageElements mem (pv.flashAddr (page + 1)) eeNbMaxElt) addr).or
        (if poolStart pv (page + 1) then none else elementAt mem pv addr page)

theorem wp_eeReadEl {R : Option Data → World → Prop} {addr page : Nat} (ram : P .getVar w)
    (reads : ∀ p ≤ page, ∀ i < eeNbMaxElt,
      P (.read (w.var.flashAddr p + (eeHeaderSize + i * hwFlashWidth))) w)
    (result : R (elementAt w.mem w.var addr page) w) :
    wp (handle env) P R (eeReadEl addr page) w := by
  induction page with
  | zero =>
      simp only [eeReadEl, wp_bind, wp_getVar]
      exact ⟨ram, wp_readPageLoop _ _ _ (reads 0 (Nat.le_refl _)) result⟩
  | succ page ih =>
      simp only [eeReadEl, wp_bind, wp_getVar]
      refine ⟨ram, wp_readPageLoop _ _ _ (reads (page + 1) (Nat.le_refl _)) ?_⟩
      simp only [elementAt] at result
      cases found : latest decode
          (pageElements w.mem (w.var.flashAddr (page + 1)) eeNbMaxElt) addr with
      | some data => simpa [found] using result
      | none =>
          rw [found, Option.none_or] at result
          dsimp only
          split
          · simpa [*] using result
          · refine ih (fun p below => reads p (by omega)) ?_
            simpa [*] using result

/-- What `EEE_Read` answers for a variable. -/
def readBack (w : World) (addr : Nat) : Option Data :=
  elementAt w.mem w.var addr w.var.currentWritePage

theorem run_eeeRead (addr : Nat) : run (handle env) (eeeRead addr) w = (readBack w addr, w) := by
  have reads : wp (handle env) (fun _ _ => True) (fun found t => (found, t) = (readBack w addr, w))
      (eeeRead addr) w := by
    rw [eeeRead, wp_bind, wp_getVar]
    exact ⟨trivial, wp_eeReadEl trivial (fun _ _ _ _ => trivial) rfl⟩
  exact wp_run reads

theorem run_eeGetState (page : Nat) : run (handle env) (eeGetState page) w =
    (pageState w.mem (w.var.flashAddr page), w) := by
  have reads : wp (handle env) (fun _ _ => True) (fun state t => (state, t) = (_, w))
      (eeGetState page) w := wp_eeGetState trivial (fun _ _ => trivial) rfl
  exact wp_run reads

theorem run_eeeWrite {addr : Nat} {data : Data} : run (handle env) (eeeWrite addr data) w =
    if w.var.nbWrittenElements < eeNbMaxElt * w.var.nbPages then
      run (handle env) (eeWriteEl addr data) w
    else run (handle env) (changePool addr data) w := by
  rw [eeeWrite, run_traced, run_bind]
  exact apply_ite (fun program => run (handle env) program w) _ _ _

theorem run_changePool_refuses {addr : Nat} {data : Data}
    (used : pageState w.mem (w.var.flashAddr w.var.nextPool) ≠ .erased) :
    run (handle env) (changePool addr data) w = (.stateError, w) := by
  have reads : wp (handle env) (fun _ _ => True) (fun status t => (status, t) = (.stateError, w))
      (changePool addr data) w := by
    rw [changePool, wp_bind, wp_getVar]
    refine ⟨trivial, ?_⟩
    rw [wp_bind]
    apply wp_eeGetState trivial fun _ _ => trivial
    rw [if_pos used]
    exact rfl
  exact wp_run reads

def Full (w : World) : Prop := ¬ w.var.nbWrittenElements < eeNbMaxElt * w.var.nbPages

/-! ## Reads and steps on an image -/

structure Mounted (b : Bank) (pv : EeVar) : Prop where
  address : pv.address = b.base
  nbPages : pv.nbPages = b.nb

theorem Mounted.sameRam {b : Bank} {t : World} (mounted : Mounted b w.var) (same : SameRam w t) :
    Mounted b t.var :=
  ⟨by rw [same.var, mounted.address], by rw [same.var, mounted.nbPages]⟩

theorem Mounted.flashAddr {b : Bank} {pv : EeVar} (mounted : Mounted b pv) (p : Nat) :
    pv.flashAddr p = b.page p := by
  rw [EeVar.flashAddr, mounted.address, Bank.page]

theorem Mounted.flashPage {b : Bank} {pv : EeVar} (mounted : Mounted b pv) (p : Nat) :
    pv.flashPage p = b.number p := by
  rw [EeVar.flashPage, mounted.address, Bank.number]

def Safe (b : Bank) (Q : Memory → Prop) (img : Image) : Prop := ∀ mem, Holds b mem img → Q mem

section OnImages

variable {b : Bank} {img : Image} {pool : Pool} {i : Nat} {ws : List Word}

theorem wp_eeGetState_image {R : PageState → World → Prop} (mounted : Mounted b w.var)
    (holds : Holds b w.mem img) (inside : i < b.nb) (before : Q w.mem)
    (result : R (img.state pool i) w) :
    wp (handle env) (Crash Q) R (eeGetState (b.first pool + i)) w := by
  refine wp_eeGetState before (fun _ _ => before) ?_
  rwa [mounted.flashAddr, holds.state pool i inside]

theorem wp_eeSetState {G : World → Prop} (honest : Honest env) (mounted : Mounted b w.var)
    (holds : Holds b w.mem img) (inside : i < b.nb) {state : PageState} (real : state ≠ .erased)
    (order : (img.state pool i).index ≤ state.index)
    (before : Safe b Q img) (after : Safe b Q (img.setState pool i state))
    (good : ∀ t, Holds b t.mem (img.setState pool i state) → SameRam w t → G t) :
    wp (handle env) (Crash Q) (Ends env Q G) (eeSetState (b.first pool + i) state) w := by
  have step := holds.setState pool inside real order
  simp only [eeSetState, wp_bind, wp_getVar, mounted.flashAddr]
  refine ⟨before _ holds, wp_fdWriteData honest _ _ (before _ holds) (after _ step) ?_ ?_⟩
  · intro t written ram
    simp only [ne_eq, not_true_eq_false, ↓reduceIte, wp_pure]
    exact .good (good t (written ▸ step) ram)
  · intro busy t same _
    simp only [ne_eq, Nat.one_ne_zero, not_false_eq_true, ↓reduceIte, wp_pure]
    exact .write_error busy (same ▸ before _ holds)

private theorem pageElements_slots (mem : Memory) (k n : Nat) (small : n ≤ 508) :
    pageElements mem (b.page (b.first pool + k)) n =
      (List.range n).map (fun i => mem (b.slot pool (508 * k + i))) := by
  unfold pageElements
  refine List.map_congr_left ?_
  intro i member
  have inside : i < n := List.mem_range.mp member
  refine congrArg mem ?_
  simp only [Bank.slot_eq, Bank.page_eq, headerSize_eq, width_eq]
  omega

def poolElements (b : Bank) (mem : Memory) (pool : Pool) (n : Nat) : List Word :=
  (List.range n).map fun i => mem (b.slot pool i)

theorem poolElements_page (mem : Memory) (k : Nat) :
    poolElements b mem pool (508 * (k + 1)) = poolElements b mem pool (508 * k) ++
      pageElements mem (b.page (b.first pool + k)) eeNbMaxElt := by
  rw [pageElements_slots mem k eeNbMaxElt (Nat.le_refl 508), nbMaxElt_eq, Nat.mul_succ]
  simp only [poolElements, List.range_add, List.map_append, List.map_map]
  rfl

theorem elementAt_slots (mounted : Mounted b w.var) (addr k : Nat) (inside : k < b.nb) :
    elementAt w.mem w.var addr (b.first pool + k) =
      latest decode (poolElements b w.mem pool (508 * (k + 1))) addr := by
  rw [poolElements_page, latest_append, ← mounted.flashAddr]
  induction k with
  | zero =>
      have none_before : latest decode (poolElements b w.mem pool (508 * 0)) addr = none := rfl
      rw [none_before, Option.or_none, Nat.add_zero]
      cases start : b.first pool with
      | zero => rfl
      | succ p =>
          have last : p + 1 = b.nb := by
            cases pool <;> simp only [Bank.first] at start <;> omega
          have begins : poolStart w.var (p + 1) := Or.inr (by rw [mounted.nbPages, last])
          simp only [elementAt, begins, ↓reduceIte, Option.or_none]
  | succ k ih =>
      have inner : ¬ poolStart w.var (b.first pool + k + 1) := by
        unfold poolStart
        rw [mounted.nbPages]
        cases pool <;> simp only [Bank.first] <;> omega
      rw [poolElements_page, latest_append, ← mounted.flashAddr, ← ih (by omega), ← Nat.add_assoc]
      simp only [elementAt, inner, ↓reduceIte]

theorem elementAt_filled (mounted : Mounted b w.var) (filled : Filled b w.mem pool ws) (addr : Nat)
    {k : Nat} (inside : k < b.nb) (reach : ws.length ≤ 508 * (k + 1)) :
    elementAt w.mem w.var addr (b.first pool + k) = latest decode ws addr := by
  have content : poolElements b w.mem pool (508 * (k + 1)) =
      ws ++ List.replicate (508 * (k + 1) - ws.length) eeErased := by
    refine List.ext_getElem ?_ ?_
    · simp only [poolElements, List.length_map, List.length_range, List.length_append,
        List.length_replicate]
      omega
    intro i left right
    simp only [poolElements, List.length_map, List.length_range] at left
    simp only [poolElements, List.getElem_map, List.getElem_range, List.getElem_append]
    rw [filled.content i (by rw [Bank.capacity_eq]; omega)]
    split
    · simp [*]
    · simp [List.getElem?_eq_none (show ws.length ≤ i by omega)]
  rw [elementAt_slots mounted addr k inside, content, latest_append_undecoded]
  intro entry member
  rw [List.eq_of_mem_replicate member]
  exact decode_erased

theorem wp_eeReadEl_image {R : Option Data → World → Prop} {addr : Nat} (mounted : Mounted b w.var)
    (holds : Holds b w.mem img) (log : img.log pool = some ws) {k : Nat} (inside : k < b.nb)
    (reach : ws.length ≤ 508 * (k + 1)) (before : Q w.mem)
    (result : R (latest decode ws addr) w) :
    wp (handle env) (Crash Q) R (eeReadEl addr (b.first pool + k)) w := by
  refine wp_eeReadEl before (fun _ _ _ _ => before) ?_
  rwa [elementAt_filled mounted (holds.log pool ws log) addr inside reach]

theorem wp_erase {R : Status → World → Prop} (honest : Honest env) (mounted : Mounted b w.var)
    (holds : Holds b w.mem img) {from_ n : Nat} (inside : from_ + n ≤ b.nb)
    (crash_later : ∀ k, k ≤ n → Safe b Q (img.erase b.nb pool from_ (from_ + k)))
    (refused : ∀ t, ¬ Free env → Q t.mem → R .eraseError t) {rest : Storage Status}
    (next : ∀ t, Holds b t.mem (img.erase b.nb pool from_ (from_ + n)) → SameRam w t →
      wp (handle env) (Crash Q) R rest t) :
    wp (handle env) (Crash Q) R (do
      let failed ← fdEraseSectors (w.var.flashPage (b.first pool + from_)) n
      if failed ≠ 0 then pure .eraseError else rest) w := by
  have step : ∀ k, k ≤ n → Holds b (erasedPages w.mem (b.number (b.first pool + from_)) k)
      (img.erase b.nb pool from_ (from_ + k)) := fun k small => holds.erase (by omega)
  rw [wp_bind, mounted.flashPage]
  refine wp_fdEraseSectors honest _ _ (fun k small => crash_later k small _ (step k small)) ?_ ?_
  · intro t after ram
    simp only [ne_eq, not_true_eq_false, ↓reduceIte]
    exact next t (after ▸ step n (Nat.le_refl n)) ram
  · intro busy k small value failed t after _
    simp only [ne_eq, failed, not_false_eq_true, ↓reduceIte, wp_pure]
    exact refused t busy (after ▸ crash_later k (by omega) _ (step k (by omega)))

end OnImages

end Baelux.Eeprom

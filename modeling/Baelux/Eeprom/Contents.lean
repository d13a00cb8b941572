import Baelux.Eeprom.Update

/-! The words a formatted bank can hold: whatever the store does, each is erased, a mark of
a header, or an element of a variable that lies behind a header. -/

namespace Baelux.Eeprom

open Effect Flash

variable {env : Env} {b : Bank} {w : World}

inductive Written (b : Bank) (a : Nat) : Word → Prop where
  | erased : Written b a eeErased
  | mark : Written b a eeProgrammed
  | element {v : Nat} (small : v < 0x4000) (data : Data)
      (behind : eeHeaderSize ≤ (a - b.base) % hwFlashPageSize) : Written b a (element v data)

def Genuine (b : Bank) (mem : Memory) : Prop :=
  ∀ a, b.base ≤ a → a < b.page (2 * b.nb) → Written b a (mem a)

structure Sound (b : Bank) (w : World) : Prop where
  mounted : Mounted b w.var
  behind : eeHeaderSize ≤ w.var.nextWriteOffset
  genuine : Genuine b w.mem

abbrev KeepsSound (env : Env) (b : Bank) {α : Type} (program : Storage α) : Prop :=
  Moves (handle env) (fun w t => Sound b w → Sound b t) program

theorem Written.ne_zero {a : Nat} {word : Word} (written : Written b a word) : word ≠ 0 := by
  cases written with
  | erased => decide
  | mark => decide
  | element small data behind => exact element_ne_zero small

/-! ## One flash operation -/

theorem Genuine.programmed {mem : Memory} (genuine : Genuine b mem) {a : Nat} {word : Word}
    (written : Written b a word) : Genuine b (programmed mem a word) := by
  intro x low high
  by_cases here : x = a
  · subst here
    by_cases blank : mem x = eeErased
    · rwa [programmed_blank blank]
    · rw [programmed_written blank written.ne_zero]
      exact genuine x low high
  · rw [programmed_other here]
    exact genuine x low high

theorem Genuine.erased {mem : Memory} (genuine : Genuine b mem) (first count : Nat) :
    Genuine b (erasedPages mem first count) := by
  intro x low high
  unfold erasedPages
  split
  · exact .erased
  · exact genuine x low high

theorem Genuine.format (b : Bank) (mem : Memory) :
    Genuine b (erasedPages mem (b.number 0) (2 * b.nb)) := by
  intro x low high
  rw [erasedPages_inside]
  · exact .erased
  · rwa [Bank.page_eq, Nat.zero_mul]
  · rwa [Nat.zero_add]

/-- The RAM of the store is as it was, up to a cursor behind a header. -/
theorem Sound.of_mem {t : World} (sound : Sound b w) (genuine : Genuine b t.mem)
    (var : t.var = w.var) : Sound b t :=
  ⟨var ▸ sound.mounted, var ▸ sound.behind, genuine⟩

theorem sound_written (honest : Honest env) (sound : Sound b w) {a : Nat} {word : Word}
    (written : Written b a word) : Sound b (run (handle env) (fdWriteData a [word]) w).2 := by
  have ends : wp (handle env) (Crash fun _ => True) (fun _ t => Sound b t)
      (fdWriteData a [word]) w := by
    apply wp_fdWriteData honest _ _ trivial trivial
    · intro t mem ram
      exact sound.of_mem (mem ▸ sound.genuine.programmed written) ram.var
    · intro _ t mem ram
      exact sound.of_mem (mem ▸ sound.genuine) ram.var
  exact wp_run ends

theorem keeps_fdEraseSectors (honest : Honest env) (first count : Nat) :
    KeepsSound env b (fdEraseSectors first count) := by
  intro w sound
  have ends : wp (handle env) (Crash fun _ => True) (fun _ t => Sound b t)
      (fdEraseSectors first count) w := by
    apply wp_fdEraseSectors honest _ _ fun _ _ => trivial
    · intro t mem ram
      exact sound.of_mem (mem ▸ sound.genuine.erased first count) ram.var
    · intro _ k _ _ _ t mem ram
      exact sound.of_mem (mem ▸ sound.genuine.erased first k) ram.var
  exact wp_run ends

/-! ## The functions of the store -/

section Rules

variable {α : Type}

theorem keeps_getVar {rest : EeVar → Storage α}
    (next : ∀ pv, Mounted b pv → eeHeaderSize ≤ pv.nextWriteOffset → KeepsSound env b (rest pv)) :
    KeepsSound env b (getVar >>= rest) := by
  intro w sound
  rw [run_bind]
  exact next w.var sound.mounted sound.behind w sound

theorem keeps_setVar {var : EeVar} {rest : Unit → Storage α} (mounted : Mounted b var)
    (behind : eeHeaderSize ≤ var.nextWriteOffset) (next : KeepsSound env b (rest ())) :
    KeepsSound env b (setVar var >>= rest) := by
  intro w sound
  rw [run_bind]
  exact next _ ⟨mounted, behind, sound.genuine⟩

theorem keeps_eeGetState {rest : PageState → Storage α} (page : Nat)
    (next : ∀ state, KeepsSound env b (rest state)) :
    KeepsSound env b (eeGetState page >>= rest) :=
  Moves.read (fun _ => congrArg Prod.snd (run_eeGetState page)) next

theorem keeps_eeReadEl {rest : Option Data → Storage α} (v page : Nat)
    (next : ∀ found, KeepsSound env b (rest found)) :
    KeepsSound env b (eeReadEl v page >>= rest) := by
  apply Moves.read _ next
  intro w
  have reads : wp (handle env) (fun _ _ => True) (fun _ t => t = w) (eeReadEl v page) w :=
    wp_eeReadEl trivial (fun _ _ _ _ => trivial) rfl
  exact wp_run reads

theorem keeps_check {first rest : Storage Status} {status : Status}
    (begins : KeepsSound env b first) (next : KeepsSound env b rest) : KeepsSound env b
      (first >>= fun ended => if ended ≠ .ok then pure status else rest) :=
  begins.bind fun _ => (Moves.pure status).ite next

end Rules

theorem keeps_eeSetState (honest : Honest env) (page : Nat) (state : PageState) :
    KeepsSound env b (eeSetState page state) := by
  apply keeps_getVar
  intro pv _ _
  apply Moves.bind
  · intro w sound
    exact sound_written honest sound .mark
  · intro failed
    exact (Moves.pure _).ite (Moves.pure _)

theorem sound_storeElement (honest : Honest env) (sound : Sound b w) {v : Nat} (small : v < 0x4000)
    (data : Data) (inside : w.var.nextWriteOffset < hwFlashPageSize) :
    Sound b (run (handle env) (storeElement v data) w).2 := by
  have mounted := sound.mounted
  have offset := sound.behind
  have behind : eeHeaderSize ≤ (w.var.flashAddr w.var.currentWritePage + w.var.nextWriteOffset -
      b.base) % hwFlashPageSize := by
    rw [mounted.flashAddr, Bank.page_eq]
    simp only [headerSize_eq, pageSize_eq] at offset inside ⊢
    omega
  have stored := sound_written honest sound (.element small data behind)
  have counted : KeepsSound env b (setVar { w.var with
      nextWriteOffset := w.var.nextWriteOffset + hwFlashWidth
      nbWrittenElements := w.var.nbWrittenElements + 1 } >>= fun _ => pure Status.ok) :=
    keeps_setVar ⟨mounted.address, mounted.nbPages⟩ (Nat.le_add_right_of_le offset) (Moves.pure _)
  rw [storeElement, run_bind]
  change Sound b (run _ (fdWriteData _ _ >>= _) w).2
  rw [run_bind]
  exact (Moves.pure _).ite counted _ stored

theorem keeps_changePage (honest : Honest env) : KeepsSound env b changePage := by
  apply keeps_getVar
  intro pv mounted _
  apply keeps_eeGetState
  intro state
  apply keeps_check (keeps_eeSetState honest _ _)
  apply keeps_check (keeps_eeSetState honest _ _)
  exact keeps_setVar ⟨mounted.address, mounted.nbPages⟩ (Nat.le_refl _) (Moves.pure _)

theorem changePage_offset (ok : (run (handle env) changePage w).1 = .ok) :
    (run (handle env) changePage w).2.var.nextWriteOffset = eeHeaderSize := by
  simp only [changePage, run_bind] at ok ⊢
  split at ok
  · cases ok
  · rw [if_neg ‹_›]
    simp only [run_bind] at ok ⊢
    split at ok
    · cases ok
    · rw [if_neg ‹_›]
      rfl

theorem keeps_eeWriteEl (honest : Honest env) {v : Nat} (small : v < 0x4000) (data : Data) :
    KeepsSound env b (eeWriteEl v data) := by
  intro w sound
  rw [eeWriteEl, run_bind]
  change Sound b (run _ (if hwFlashPageSize ≤ w.var.nextWriteOffset then _ else _) w).2
  split
  · rw [run_bind]
    have changed := keeps_changePage honest w sound
    split
    · exact changed
    · rename_i ok
      apply sound_storeElement honest changed small data
      rw [changePage_offset (not_not.mp ok)]
      decide
  · rename_i inside
    exact sound_storeElement honest sound small data (Nat.lt_of_not_le inside)

theorem keeps_markPage (honest : Honest env) (page : Nat) : KeepsSound env b (markPage page) := by
  apply keeps_eeGetState
  intro state
  exact (keeps_eeSetState honest _ _).ite (Moves.pure _)

theorem keeps_markLoop (honest : Honest env) (page : Nat) : KeepsSound env b (markLoop page) := by
  induction page with
  | zero => exact keeps_markPage honest 0
  | succ page ih =>
    apply keeps_check (keeps_markPage honest _)
    apply keeps_getVar
    intro pv _ _
    exact (Moves.pure _).ite ih

theorem keeps_copyVar (honest : Honest env) (addr lastPage : Nat) {v : Nat} (small : v < 0x4000) :
    KeepsSound env b (copyVar addr lastPage v) := by
  rw [copyVar_eq]
  have copied : ∀ present : Option Data,
      KeepsSound env b (if present.isSome then pure .ok else copyAbsent lastPage v) := by
    intro present
    refine Moves.ite (Moves.pure _) ?_
    apply keeps_eeReadEl
    intro found
    cases found with
    | none => exact Moves.pure _
    | some data => exact keeps_check (keeps_eeWriteEl honest small data) (Moves.pure _)
  apply keeps_getVar
  intro pv _ _
  apply Moves.ite
  · exact copied none
  · exact keeps_eeReadEl _ _ copied

theorem keeps_copyLoop (honest : Honest env) (addr lastPage remaining : Nat) {v : Nat}
    (small : v + remaining ≤ 0x4000) :
    KeepsSound env b (copyLoop addr lastPage remaining v) := by
  induction remaining generalizing v with
  | zero => exact Moves.pure _
  | succ remaining ih =>
    have later := ih (show v + 1 + remaining ≤ 0x4000 by omega)
    apply Moves.ite
    · exact keeps_check (keeps_copyVar honest _ _ (by omega)) later
    · exact keeps_check (Moves.pure _) later

theorem keeps_eeTransfer (honest : Honest env) (addr page : Nat) :
    KeepsSound env b (eeTransfer addr page) := by
  apply keeps_getVar
  intro pv mounted _
  have copies : KeepsSound env b (do
      let status ← copyLoop addr (if page < pv.nbPages then 2 * pv.nbPages - 1
        else pv.nbPages - 1) (eeNbMaxElt * pv.nbPages) 0
      if status ≠ .ok then pure .writeError
      else
        let pv ← getVar
        eeSetState pv.currentWritePage .active) := by
    have bound := b.small
    apply keeps_check (keeps_copyLoop honest _ _ _ (by rw [mounted.nbPages]; omega))
    exact keeps_getVar fun pv _ _ => keeps_eeSetState honest _ _
  apply Moves.ite
  · exact keeps_check (keeps_markLoop honest _) copies
  · exact keeps_check (Moves.pure _) copies

theorem keeps_changePool (honest : Honest env) {addr : Nat} (small : addr < 0x4000)
    (data : Data) : KeepsSound env b (changePool addr data) := by
  apply keeps_getVar
  intro pv mounted _
  apply keeps_eeGetState
  intro state
  refine Moves.ite (Moves.pure _) ?_
  apply keeps_check (keeps_eeSetState honest _ _)
  refine keeps_setVar ⟨mounted.address, mounted.nbPages⟩ (Nat.le_refl _) ?_
  apply keeps_check (keeps_eeWriteEl honest small data)
  exact keeps_check (keeps_eeTransfer honest _ _) (Moves.pure _)

theorem keeps_traced {point : Traced} {body : Storage Status} (keeps : KeepsSound env b body) :
    KeepsSound env b (traced point body) := by
  intro w
  rw [run_traced]
  exact keeps w

theorem keeps_eeeWrite (honest : Honest env) {addr : Nat} (small : addr < 0x4000) (data : Data) :
    KeepsSound env b (eeeWrite addr data) := by
  apply keeps_traced
  apply keeps_getVar
  intro pv _ _
  exact (keeps_eeWriteEl honest small data).ite (keeps_changePool honest small data)

theorem keeps_eeeClean (honest : Honest env) : KeepsSound env b eeeClean := by
  apply keeps_traced
  apply keeps_getVar
  intro pv _ _
  apply keeps_eeGetState
  intro state
  refine Moves.ite (Moves.pure _) ?_
  exact (keeps_fdEraseSectors honest _ _).bind fun _ => (Moves.pure _).ite (Moves.pure _)

theorem format_sound (w : World) :
    Sound b (run (handle quiet) (eeeInit b.nb true b.base) w).2 := by
  have ends : wp (handle quiet) (Crash fun _ => True) (fun _ t => Sound b t)
      (eeeInit b.nb true b.base) w := by
    rw [eeeInit, wp_bind, wp_setVar, if_pos rfl, wp_bind, wp_getVar]
    refine ⟨trivial, trivial, ?_⟩
    rw [wp_bind]
    apply wp_fdEraseSectors quiet_honest _ _ fun _ _ => trivial
    · intro t mem ram
      have mounted : Mounted b t.var := ram.var ▸ ⟨rfl, rfl⟩
      have sound : Sound b t := ⟨mounted, ram.var ▸ Nat.le_refl _, mem ▸ Genuine.format b w.mem⟩
      rw [if_neg (not_not_intro rfl)]
      exact (Prog.only_anything _).allowed (keeps_eeSetState quiet_honest 0 .active t sound)
    · intro busy
      exact absurd quiet_free busy
  exact wp_run ends

end Baelux.Eeprom

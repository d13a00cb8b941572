import Baelux.Eeprom.Update

/-! `EEE_Init` without formatting: which page recovery adopts, and what the store
answers afterwards. -/

namespace Baelux.Eeprom

open Effect Flash AppendLog

variable {env : Env} {Q : Memory → Prop} {w : World}
variable {b : Bank} {img : Image} {m : Store} {cur : Pool} {c : Nat} {ws : List Word}

/-- The store answers as `m`; the page headers are no longer of interest. -/
def Serves (b : Bank) (m : Store) (w : World) : Prop :=
  ∃ img cur c ws, Holds b w.mem img ∧ img.log cur = some ws ∧ c < b.nb ∧
    ws.length ≤ 508 * (c + 1) ∧ w.var = cursor b cur c ws.length ∧ Answers b ws m

theorem Live.serves (live : Live b m w img cur c ws) : Serves b m w :=
  ⟨img, cur, c, ws, live.holds, live.shape.log, live.shape.inside, live.shape.high, live.var,
    live.answers⟩

theorem Serves.read {R : Option Data → World → Prop} (serves : Serves b m w) {addr : Nat}
    (inside : addr < b.capacity) (before : Q w.mem) (result : R (m addr) w) :
    wp (handle env) (Crash Q) R (eeeRead addr) w := by
  rcases serves with ⟨img, cur, c, ws, holds, log, small, high, var, answers⟩
  have page : w.var.currentWritePage = b.first cur + c := by
    rw [var]
    rfl
  rw [eeeRead, wp_bind, wp_getVar, page]
  refine ⟨before, wp_eeReadEl_image (var ▸ cursor_mounted b cur c ws.length) holds log small high
    before ?_⟩
  rwa [answers addr inside]

/-! ## Rebuilding the cursor -/

private theorem wp_countElements {R : Unit → World → Prop} (safe : ∀ mem, Q mem)
    (holds : Holds b w.mem img) (log : img.log cur = some ws) (inside : c < b.nb)
    (high : ws.length ≤ 508 * (c + 1)) (remaining k : Nat) (reach : k + remaining = 508)
    (counted : 508 * c + k ≤ ws.length)
    (result : ∀ t, t.mem = w.mem → t.cache = w.cache →
      t.var = ⟨w.var.address, w.var.nbPages, w.var.currentWritePage,
        w.var.nbWrittenElements + (ws.length - (508 * c + k)),
        w.var.nextWriteOffset + 8 * (ws.length - (508 * c + k))⟩ → R () t) :
    wp (handle env) (Crash Q) R
      (countElements remaining (b.page (b.first cur + c) + (32 + k * 8))) w := by
  induction remaining generalizing k w with
  | zero =>
      have last : ws.length - (508 * c + k) = 0 := by omega
      exact result w rfl rfl (by simp [last])
  | succ remaining ih =>
      have filled := holds.log cur ws log
      have address : b.page (b.first cur + c) + (32 + k * 8) = b.slot cur (508 * c + k) := by
        simp only [Bank.page_eq, Bank.slot_eq]
        omega
      have content := filled.content (508 * c + k) (by rw [Bank.capacity_eq]; omega)
      rw [countElements, wp_bind, wp_readWord, address, content]
      refine ⟨safe _, ?_⟩
      by_cases here : 508 * c + k < ws.length
      · have programmed : ws.getD (508 * c + k) eeErased ≠ eeErased := by
          rw [List.getD_eq_getElem?_getD, List.getElem?_eq_getElem here]
          exact filled.programmed _ (List.getElem_mem here)
        have next : b.slot cur (508 * c + k) + hwFlashWidth =
            b.page (b.first cur + c) + (32 + (k + 1) * 8) := by
          rw [← address, width_eq]
          omega
        rw [if_neg programmed, wp_bind, wp_getVar]
        refine ⟨safe _, ?_⟩
        rw [wp_bind, wp_setVar, next]
        refine ⟨safe _, ih ?_ (k + 1) (by omega) (by omega) ?_⟩
        · exact holds
        intro t mem cache var
        refine result t mem cache ?_
        rw [var]
        simp only [width_eq, EeVar.mk.injEq, true_and]
        omega
      · have last : ws.length - (508 * c + k) = 0 := by omega
        have blank : ws.getD (508 * c + k) eeErased = eeErased := by
          rw [List.getD_eq_getElem?_getD, List.getElem?_eq_none (by omega)]
          rfl
        rw [if_pos blank]
        exact result w rfl rfl (by simp [last])

private theorem wp_countPreviousPages {R : Nat → World → Prop} (safe : ∀ mem, Q mem)
    (mounted : Mounted b w.var) (inside : c < b.nb)
    (result : ∀ t, t.mem = w.mem → t.cache = w.cache →
      t.var = ⟨w.var.address, w.var.nbPages, w.var.currentWritePage,
        w.var.nbWrittenElements + 508 * c, w.var.nextWriteOffset⟩ → R (b.first cur) t) :
    wp (handle env) (Crash Q) R (countPreviousPages (b.first cur + c)) w := by
  induction c generalizing w with
  | zero =>
      have done : R (b.first cur) w := result w rfl rfl (by simp)
      rw [Nat.add_zero]
      cases start : b.first cur with
      | zero =>
          rw [start] at done
          exact done
      | succ p =>
          have begins : poolStart w.var (p + 1) := by
            refine Or.inr ?_
            rw [mounted.nbPages]
            cases cur <;> simp only [Bank.first] at start <;> omega
          rw [countPreviousPages, wp_bind, wp_getVar, if_pos begins]
          rw [start] at done
          exact ⟨safe _, done⟩
  | succ c ih =>
      have inner : ¬ poolStart w.var (b.first cur + c + 1) := by
        unfold poolStart
        rw [mounted.nbPages]
        cases cur <;> simp only [Bank.first] <;> omega
      rw [← Nat.add_assoc, countPreviousPages, wp_bind, wp_getVar, if_neg inner, wp_bind, wp_setVar]
      refine ⟨safe _, safe _, ih ?_ (by omega) ?_⟩
      · exact ⟨mounted.address, mounted.nbPages⟩
      intro t mem cache var
      refine result t mem cache ?_
      simp only [var, nbMaxElt_eq, EeVar.mk.injEq, true_and, and_true]
      omega

private theorem wp_eraseLoop {Good : World → Prop} (honest : Honest env) (safe : ∀ mem, Q mem)
    (mounted : Mounted b w.var) (holds : Holds b w.mem img) (log : img.log cur = some ws)
    (remaining i : Nat) (reach : i + remaining = b.nb)
    (good : ∀ t img', Holds b t.mem img' → img'.log cur = some ws → SameRam w t → Good t) :
    wp (handle env) (Crash Q) (Ends env Q Good) (eraseLoop remaining (b.first cur.other + i)) w := by
  induction remaining generalizing i w img with
  | zero => exact .good (good w img holds log ⟨rfl, rfl⟩)
  | succ remaining ih =>
      rw [eraseLoop, wp_bind]
      refine wp_eeGetState_image mounted holds (by omega) (safe _) ?_
      split
      · rw [wp_bind, wp_getVar]
        refine ⟨safe _, wp_erase honest mounted holds (by omega) (fun _ _ _ _ => safe _)
          (fun t busy safe => .erase_error busy safe) ?_⟩
        intro t after same
        refine ih (mounted.sameRam same) after (by simp [Image.erase, log]) (i + 1) (by omega) ?_
        intro u img' final log' same'
        exact good u img' final log' ⟨same'.var.trans same.var, same'.cache.trans same.cache⟩
      · exact ih mounted holds log (i + 1) (by omega) good

/-! ## Adopting a page -/

/-- No flash content matters for a reset during recovery itself. -/
private theorem anything (mem : Memory) : (fun _ : Memory => True) mem := trivial

theorem wp_mountPage {R : Nat → World → Prop} {st : PageState} (holds : Holds b w.mem img)
    (shape : Shape b img cur st c ws) (var : w.var = eeReset b.base b.nb)
    (result : ∀ t, t.mem = w.mem → t.var = cursor b cur c ws.length → R (b.first cur) t) :
    wp (handle env) (Crash fun _ => True) R (mountPage (b.first cur + c)) w := by
  have low := shape.low
  have start : w.var.flashAddr (b.first cur + c) + eeHeaderSize =
      b.page (b.first cur + c) + (32 + 0 * 8) := by
    rw [var]
    rfl
  rw [mountPage, wp_bind, wp_getVar]
  refine ⟨trivial, ?_⟩
  rw [wp_bind, wp_setVar, wp_bind, start]
  refine ⟨trivial, wp_countElements anything ?_ shape.log shape.inside shape.high eeNbMaxElt 0
    (Nat.zero_add _) low ?_⟩
  · exact holds
  intro t mem _ counted
  refine wp_countPreviousPages anything ⟨?_, ?_⟩ shape.inside ?_
  · rw [counted, var]
    rfl
  · rw [counted, var]
    rfl
  intro u mem' _ total
  refine result u (mem'.trans mem) ?_
  rw [total, counted, var]
  simp only [eeReset, cursor, headerSize_eq, EeVar.mk.injEq, true_and]
  omega

private theorem wp_releaseOther (honest : Honest env) (holds : Holds b w.mem img)
    (log : img.log cur = some ws) (inside : c < b.nb) (high : ws.length ≤ 508 * (c + 1))
    (var : w.var = cursor b cur c ws.length) (answers : Answers b ws m) :
    wp (handle env) (Crash fun _ => True) (Ends env (fun _ => True) (Serves b m))
      releaseOther w := by
  have other := cursor_nextPool inside var
  have pages : w.var.nbPages = b.nb := by
    rw [var]
    rfl
  rw [releaseOther, wp_bind, wp_getVar, other, pages]
  refine ⟨trivial, wp_eraseLoop honest anything (var ▸ cursor_mounted b cur c ws.length) holds log
    b.nb 0 (Nat.zero_add _) ?_⟩
  intro t img' final log' same
  exact ⟨img', cur, c, ws, final, log', inside, high, same.var.trans var, answers⟩

theorem wp_adopt_active (honest : Honest env) (holds : Holds b w.mem img)
    (shape : Shape b img cur .active c ws) (answers : Answers b ws m)
    (var : w.var = eeReset b.base b.nb) :
    wp (handle env) (Crash fun _ => True) (Ends env (fun _ => True) (Serves b m))
      (adoptPage .active (b.first cur + c)) w := by
  rw [adoptPage, wp_bind]
  refine wp_mountPage holds shape var ?_
  intro t mem ram
  rw [if_neg (by decide)]
  exact wp_releaseOther honest (mem ▸ holds) shape.log shape.inside shape.high ram answers

theorem wp_adopt_receive (honest : Honest env) {new : Pool} {ows : List Word}
    (holds : Holds b w.mem img) (old : img.log new.other = some ows)
    (copying : Copying b new img ows m img c ws) (var : w.var = eeReset b.base b.nb) :
    wp (handle env) (Crash fun _ => True) (Ends env (fun _ => True) (Serves b m))
      (adoptPage .receive (b.first new + c)) w := by
  rw [adoptPage, wp_bind]
  refine wp_mountPage holds copying.shape var ?_
  intro t mem ram
  rw [if_pos rfl]
  refine wp_check (wp_eeTransfer_resumed honest old (mem ▸ holds) copying ram
    (fun _ _ _ _ _ _ => trivial) (fun _ _ _ _ _ _ _ => trivial)
    fun u img' c' ws' a b_ c d e => (⟨img', c', ws', a, b_, c, d, e⟩ : ∃ img' c' ws',
      Holds b u.mem (img'.setState new c' .active) ∧ Copying b new img ows m img' c' ws' ∧
      u.var = cursor b new c' ws'.length ∧ u.cache = t.cache ∧ Answers b ws' m))
    (fun _ busy _ => .write_error busy trivial) ?_
  intro u holds
  rcases holds with ⟨img', c', ws', final, copied, ram', _, answers⟩
  exact wp_releaseOther honest final copied.shape.log copied.shape.inside copied.shape.high ram'
    answers

/-! ## The page scan -/

/-- The page after the first page of `pool`; in a pool of one page it lies in the
other pool, or behind the bank. -/
def Next (b : Bank) (mem : Memory) (pool : Pool) : Prop :=
  pageState mem (b.page (b.first pool + 1)) = .erased

def Skips (b : Bank) (mem : Memory) (st : PageState) (p : Nat) : Prop :=
  pageState mem (b.page p) ≠ st ∨
    ((p = 0 ∨ p = b.nb) ∧ pageState mem (b.page (p + 1)) ≠ .erased)

section Scan

variable {st : PageState} {R : Option Status → World → Prop}

private theorem wp_state {R : PageState → World → Prop} (mounted : Mounted b w.var) (p : Nat)
    (result : R (pageState w.mem (b.page p)) w) :
    wp (handle env) (Crash fun _ => True) R (eeGetState p) w := by
  refine wp_eeGetState trivial (fun _ _ => trivial) ?_
  rwa [mounted.flashAddr]

theorem poolStart_iff (mounted : Mounted b w.var) (p : Nat) :
    poolStart w.var p ↔ p = 0 ∨ p = b.nb := by
  rw [poolStart, mounted.nbPages]

theorem wp_recoverPage_skips {p : Nat} (mounted : Mounted b w.var)
    (skips : Skips b w.mem st p) (result : R none w) :
    wp (handle env) (Crash fun _ => True) R (recoverPage st p) w := by
  rw [recoverPage, wp_bind]
  refine wp_state mounted p ?_
  by_cases found : st = pageState w.mem (b.page p)
  · rcases skips with other | ⟨start, next⟩
    · exact absurd found.symm other
    · rw [if_neg (not_not_intro found), wp_bind, reliable, wp_bind, wp_getVar]
      refine ⟨trivial, ?_⟩
      rw [if_pos ((poolStart_iff mounted p).mpr start), wp_bind]
      refine wp_state mounted (p + 1) ?_
      rw [if_pos next]
      exact result
  · rw [if_pos found]
    exact result

private theorem wp_scanLoop_skips {p : Nat} (mounted : Mounted b w.var) (k rest : Nat)
    (skips : ∀ i < k, Skips b w.mem st (p + i))
    (result : wp (handle env) (Crash fun _ => True) R (scanLoop st rest (p + k)) w) :
    wp (handle env) (Crash fun _ => True) R (scanLoop st (k + rest) p) w := by
  induction k generalizing p with
  | zero => rwa [Nat.zero_add]
  | succ k ih =>
      rw [Nat.add_right_comm, scanLoop, wp_bind]
      refine wp_recoverPage_skips mounted (skips 0 (Nat.succ_pos k)) ?_
      refine ih (fun i before => ?_) ?_
      · have later := skips (i + 1) (Nat.succ_lt_succ before)
        rwa [show p + 1 + i = p + (i + 1) by omega]
      · rwa [show p + 1 + k = p + (k + 1) by omega]

theorem wp_scanLoop_none (mounted : Mounted b w.var)
    (skips : ∀ p < 2 * b.nb, Skips b w.mem st p) (result : R none w) :
    wp (handle env) (Crash fun _ => True) R (scanLoop st (2 * b.nb) 0) w := by
  refine wp_scanLoop_skips mounted (2 * b.nb) 0 ?_ result
  intro i before
  rw [Nat.zero_add]
  exact skips i before

def Decided (G : Status → World → Prop) (outcome : Option Status) (t : World) : Prop :=
  ∃ status, outcome = some status ∧ G status t

variable {G : Status → World → Prop}

theorem wp_scanLoop_at {p : Nat} (mounted : Mounted b w.var) (bound : p < 2 * b.nb)
    (skips : ∀ i < p, Skips b w.mem st i)
    (found : wp (handle env) (Crash fun _ => True) (Decided G) (recoverPage st p) w) :
    wp (handle env) (Crash fun _ => True) (Decided G) (scanLoop st (2 * b.nb) 0) w := by
  have split : 2 * b.nb = p + (2 * b.nb - p - 1 + 1) := by omega
  rw [split]
  refine wp_scanLoop_skips mounted p _ (fun i before => by rw [Nat.zero_add]; exact skips i before) ?_
  rw [Nat.zero_add, scanLoop, wp_bind]
  refine wp_post found ?_
  intro outcome t holds
  rcases holds with ⟨status, rfl, good⟩
  exact ⟨status, rfl, good⟩

theorem wp_recoverPage {p : Nat} (mounted : Mounted b w.var)
    (found : pageState w.mem (b.page p) = st)
    (trusted : wp (handle env) (Crash fun _ => True)
      (Decided fun verdict t =>
        (verdict = .ok ∧ wp (handle env) (Crash fun _ => True) G (adoptPage st p) t) ∨
          (verdict ≠ .ok ∧ G verdict t)) (reliable st p) w) :
    wp (handle env) (Crash fun _ => True) (Decided G) (recoverPage st p) w := by
  rw [recoverPage, wp_bind]
  refine wp_state mounted p ?_
  rw [if_neg (not_not_intro found.symm), wp_bind]
  refine wp_post trusted ?_
  rintro verdict t ⟨status, rfl, ⟨rfl, adopt⟩ | ⟨failed, good⟩⟩
  · simp only [wp_bind, wp_pure]
    exact wp_post adopt fun status u good => ⟨status, rfl, good⟩
  · have error : wp (handle env) (Crash fun _ => True) (Decided G) (pure (some status)) t :=
      ⟨status, rfl, good⟩
    cases status with
    | ok => exact absurd rfl failed
    | _ => exact error

theorem wp_reliable_start {R : Option Status → World → Prop} (mounted : Mounted b w.var)
    (next : Next b w.mem cur) (result : R (some .ok) w) :
    wp (handle env) (Crash fun _ => True) R (reliable st (b.first cur)) w := by
  have start : b.first cur = 0 ∨ b.first cur = b.nb := by
    cases cur
    · exact Or.inl rfl
    · exact Or.inr rfl
  rw [reliable, wp_bind, wp_getVar]
  refine ⟨trivial, ?_⟩
  rw [if_pos ((poolStart_iff mounted _).mpr start), wp_bind]
  refine wp_state mounted _ ?_
  unfold Next at next
  rw [if_neg (not_not_intro next)]
  exact result

private theorem inner_page (c : Nat) (inside : c + 1 < b.nb) (mounted : Mounted b w.var) :
    ¬ poolStart w.var (b.first cur + (c + 1)) := by
  rw [poolStart_iff mounted]
  cases cur <;> simp only [Bank.first] <;> omega

private theorem wp_reliable_full {R : Option Status → World → Prop} (mounted : Mounted b w.var)
    (holds : Holds b w.mem img) (inside : c + 1 < b.nb) (other : st ≠ .valid)
    (full : img.state cur c = .valid) (result : R (some .ok) w) :
    wp (handle env) (Crash fun _ => True) R (reliable st (b.first cur + (c + 1))) w := by
  rw [reliable, wp_bind, wp_getVar]
  refine ⟨trivial, ?_⟩
  rw [if_neg (inner_page c inside mounted), wp_bind, ← Nat.add_assoc, Nat.add_sub_cancel]
  refine wp_eeGetState_image mounted holds (by omega) trivial ?_
  rw [full, if_pos (Ne.symm other), if_neg (not_not_intro rfl)]
  exact result

/-- The second page of a half finished page change: the first one is closed. -/
private theorem wp_reliable_same {G : World → Prop} (honest : Honest env) (mounted : Mounted b w.var)
    (holds : Holds b w.mem img) (inside : c + 1 < b.nb) (order : st.index ≤ 3) (same : img.state cur c = st)
    (good : ∀ t, Holds b t.mem (img.setState cur c .valid) → SameRam w t → G t) :
    wp (handle env) (Crash fun _ => True) (Decided (Ends env (fun _ => True) G))
      (reliable st (b.first cur + (c + 1))) w := by
  rw [reliable, wp_bind, wp_getVar]
  refine ⟨trivial, ?_⟩
  rw [if_neg (inner_page c inside mounted), wp_bind, ← Nat.add_assoc, Nat.add_sub_cancel]
  refine wp_eeGetState_image mounted holds (by omega) trivial ?_
  rw [same, if_neg (not_not_intro rfl), wp_bind]
  refine wp_post (wp_eeSetState (G := G) honest mounted holds (by omega) (by decide)
    (by rw [same]; exact order) (fun _ _ => trivial) (fun _ _ => trivial) good) ?_
  intro status t ends
  rcases ends with ⟨rfl, closed⟩ | ⟨error, refused⟩
  · exact ⟨.ok, rfl, .good closed⟩
  · have failed : status ≠ .ok := by rcases error with rfl | rfl <;> decide
    rw [if_pos failed]
    exact ⟨.writeError, rfl, .write_error refused.1 trivial⟩

theorem wp_scanLoop_found (honest : Honest env) (mounted : Mounted b w.var)
    (holds : Holds b w.mem img) (shape : Shape b img cur st c ws)
    (kind : st = .receive ∨ st = .active)
    (others : ∀ i < b.nb, img.state cur.other i ≠ st)
    (next : 2 ≤ b.nb ∨ Next b w.mem cur) {G : World → Prop}
    (adopt : ∀ t img' c', Holds b t.mem img' → SameOther cur img img' →
      Shape b img' cur st c' ws → SameRam w t → (Tidy b img cur c → t = w ∧ c' = c) →
      wp (handle env) (Crash fun _ => True) (Ends env (fun _ => True) G)
        (adoptPage st (b.first cur + c')) t) :
    wp (handle env) (Crash fun _ => True) (Decided (Ends env (fun _ => True) G))
      (scanLoop st (2 * b.nb) 0) w := by
  have inside := shape.inside
  have real : st ≠ .erased := by rcases kind with rfl | rfl <;> decide
  have not_valid : st ≠ .valid := by rcases kind with rfl | rfl <;> decide
  have order : st.index ≤ 3 := by rcases kind with rfl | rfl <;> decide
  have page : ∀ i < b.nb, pageState w.mem (b.page (b.first cur + i)) = img.state cur i :=
    fun i small => holds.state cur i small
  -- no page below the pool in use is in state `st`
  have below : ∀ p < b.first cur, Skips b w.mem st p := by
    intro p before
    refine Or.inl ?_
    cases cur with
    | lower => exact absurd before (Nat.not_lt_zero p)
    | upper =>
        have state := holds.state .lower p before
        rw [show b.first .lower + p = p from Nat.zero_add p] at state
        rw [state]
        exact others p before
  have bound : ∀ i < b.nb, b.first cur + i < 2 * b.nb := by
    intro i small
    cases cur <;> simp only [Bank.first] <;> omega
  have adopt_here := adopt w img c holds (.refl cur img) shape ⟨rfl, rfl⟩ fun _ => ⟨rfl, rfl⟩
  have current := page c inside
  rw [shape.current] at current
  cases c with
  | zero =>
      by_cases half : 1 < b.nb ∧ img.state cur 1 = st
      · -- the page change stopped between its two halves
        rcases half with ⟨wide, announced⟩
        have full : ws.length = 508 * (0 + 1) := by
          rcases shape.beyond 1 Nat.one_pos wide with erased | ⟨_, full, _⟩
          · exact absurd (announced.symm.trans erased) real
          · exact full
        have state := page 1 wide
        rw [announced] at state
        refine wp_scanLoop_at mounted (bound 1 wide) ?_ (wp_recoverPage mounted state ?_)
        · intro p before
          by_cases first : p = b.first cur
          · refine Or.inr ⟨?_, ?_⟩
            · rw [first]
              cases cur
              · exact Or.inl rfl
              · exact Or.inr rfl
            · rw [first, state]
              exact real
          · exact below p (by omega)
        · refine wp_post (wp_reliable_same honest mounted holds wide order shape.current
            fun t after same => And.intro after same) ?_
          rintro verdict t ⟨status, rfl, ⟨rfl, after, same⟩ | refused⟩
          · exact ⟨.ok, rfl, Or.inl ⟨rfl, adopt t _ 1 after (SameOther.setState cur img 0 .valid)
              (shape.advance full wide announced) same fun tidy =>
                absurd (announced.symm.trans (tidy 1 Nat.one_pos wide)) real⟩⟩
          · refine ⟨status, rfl, Or.inr ⟨?_, Or.inr refused⟩⟩
            rcases refused.1 with rfl | rfl <;> decide
      · -- the page after the only written one is erased
        have trusted : Next b w.mem cur := by
          rcases next with wide | next
          · rcases shape.beyond 1 Nat.one_pos wide with erased | ⟨_, _, announced⟩
            · exact (page 1 wide).trans erased
            · exact absurd ⟨wide, announced⟩ half
          · exact next
        refine wp_scanLoop_at mounted (bound 0 inside) below (wp_recoverPage mounted current ?_)
        exact wp_reliable_start mounted trusted ⟨.ok, rfl, Or.inl ⟨rfl, adopt_here⟩⟩
  | succ c =>
      refine wp_scanLoop_at mounted (bound (c + 1) inside) ?_ (wp_recoverPage mounted current ?_)
      · intro p before
        by_cases low : p < b.first cur
        · exact below p low
        · refine Or.inl ?_
          obtain ⟨i, rfl⟩ : ∃ i, p = b.first cur + i := ⟨p - b.first cur, by omega⟩
          rw [page i (by omega), shape.full i (by omega)]
          exact Ne.symm not_valid
      · exact wp_reliable_full mounted holds inside not_valid (shape.full c (Nat.lt_succ_self c))
          ⟨.ok, rfl, Or.inl ⟨rfl, adopt_here⟩⟩

end Scan

/-! ## Initialisation -/

def reset (b : Bank) (w : World) : World := { w with var := eeReset b.base b.nb }

theorem wp_init {R : Status → World → Prop}
    (recovers : wp (handle env) (Crash fun _ => True) R eeRecovery (reset b w)) :
    wp (handle env) (Crash fun _ => True) R (eeeInit b.nb false b.base) w := by
  rw [eeeInit, wp_bind, wp_setVar]
  exact ⟨trivial, recovers⟩

theorem reset_mounted : Mounted b (reset b w).var := ⟨rfl, rfl⟩

theorem wp_recovery_receive {G : Status → World → Prop}
    (scan : wp (handle env) (Crash fun _ => True) (Decided G) (scanLoop .receive (2 * b.nb) 0)
      (reset b w)) :
    wp (handle env) (Crash fun _ => True) G eeRecovery (reset b w) := by
  rw [eeRecovery, wp_bind, wp_getVar]
  refine ⟨trivial, ?_⟩
  rw [wp_bind]
  refine wp_post scan ?_
  intro outcome t holds
  rcases holds with ⟨status, rfl, good⟩
  exact good

theorem wp_recovery_active {R : Status → World → Prop}
    (skips : ∀ p < 2 * b.nb, Skips b w.mem .receive p)
    (scan : wp (handle env) (Crash fun _ => True)
      (fun outcome t => R (outcome.getD .stateError) t) (scanLoop .active (2 * b.nb) 0)
      (reset b w)) :
    wp (handle env) (Crash fun _ => True) R eeRecovery (reset b w) := by
  rw [eeRecovery, wp_bind, wp_getVar]
  refine ⟨trivial, ?_⟩
  rw [wp_bind]
  refine wp_scanLoop_none reset_mounted skips ?_
  simp only [wp_bind]
  refine wp_post scan ?_
  intro outcome t good
  cases outcome <;> exact good

theorem page_of {p : Nat} (inside : p < 2 * b.nb) :
    ∃ pool i, i < b.nb ∧ p = b.first pool + i := by
  by_cases low : p < b.nb
  · exact ⟨.lower, p, low, (Nat.zero_add p).symm⟩
  · refine ⟨.upper, p - b.nb, by omega, ?_⟩
    simp only [Bank.first]
    omega

theorem Shape.states {st : PageState} (shape : Shape b img cur st c ws) {i : Nat}
    (inside : i < b.nb) : img.state cur i = .valid ∨ img.state cur i = st ∨
      img.state cur i = .erased := by
  rcases Nat.lt_trichotomy i c with before | here | after
  · exact Or.inl (shape.full i before)
  · exact Or.inr (Or.inl (here ▸ shape.current))
  · rcases shape.beyond i after inside with erased | ⟨_, _, same⟩
    · exact Or.inr (Or.inr erased)
    · exact Or.inr (Or.inl same)

theorem skips_receive {mem : Memory} (holds : Holds b mem img) (shape : Shape b img cur .active c ws)
    (others : ∀ i < b.nb, img.state cur.other i ≠ .receive) :
    ∀ p < 2 * b.nb, Skips b mem .receive p := by
  intro p inside
  rcases page_of inside with ⟨pool, i, small, rfl⟩
  refine Or.inl ?_
  rw [holds.state pool i small]
  by_cases here : pool = cur
  · subst here
    rcases shape.states small with valid | active | erased
    · rw [valid]
      decide
    · rw [active]
      decide
    · rw [erased]
      decide
  · obtain rfl : pool = cur.other := by
      cases pool <;> cases cur <;> first | rfl | exact absurd rfl here
    exact others i small

/-- A store comes back from an ACTIVE page that can be trusted, if nothing was received. -/
theorem wp_init_active (honest : Honest env) (holds : Holds b w.mem img)
    (shape : Shape b img cur .active c ws) (answers : Answers b ws m)
    (others : ∀ i < b.nb, img.state cur.other i ≠ .active)
    (skips : ∀ p < 2 * b.nb, Skips b w.mem .receive p)
    (next : 2 ≤ b.nb ∨ Next b w.mem cur) :
    wp (handle env) (Crash fun _ => True) (Ends env (fun _ => True) (Serves b m))
      (eeeInit b.nb false b.base) w := by
  refine wp_init (wp_recovery_active skips ?_)
  refine wp_post (wp_scanLoop_found (G := Serves b m) honest reset_mounted holds shape (Or.inr rfl)
    others next ?_) ?_
  · intro t img' c' after _ shape' same _
    exact wp_adopt_active honest after shape' answers (same.var.trans rfl)
  · intro outcome t holds
    rcases holds with ⟨status, rfl, ends⟩
    exact ends

private theorem wp_eraseLoop_vacant {R : Status → World → Prop} (mounted : Mounted b w.var)
    (holds : Holds b w.mem img) (vacant : Vacant b img cur.other) (remaining i : Nat)
    (reach : i + remaining = b.nb) (result : R .ok w) :
    wp (handle env) (Crash fun _ => True) R (eraseLoop remaining (b.first cur.other + i)) w := by
  induction remaining generalizing i with
  | zero => exact result
  | succ remaining ih =>
      rw [eraseLoop, wp_bind]
      refine wp_eeGetState_image mounted holds (by omega) trivial ?_
      rw [vacant.state i (by omega), if_neg (not_not_intro rfl)]
      exact ih (i + 1) (by omega)

/-- A store that was left between two operations is mounted again as it was. -/
theorem wp_init_idle (honest : Honest env) (holds : Holds b w.mem img)
    (shape : Shape b img cur .active c ws) (tidy : Tidy b img cur c)
    (vacant : Vacant b img cur.other) (next : 2 ≤ b.nb ∨ Next b w.mem cur) :
    wp (handle env) (Crash fun _ => True) (Ends env (fun _ => True) fun t =>
      t.mem = w.mem ∧ t.var = cursor b cur c ws.length) (eeeInit b.nb false b.base) w := by
  have others : ∀ i < b.nb, img.state cur.other i ≠ .receive ∧ img.state cur.other i ≠ .active := by
    intro i inside
    rw [vacant.state i inside]
    decide
  refine wp_init (wp_recovery_active
    (skips_receive holds shape fun i inside => (others i inside).1) ?_)
  refine wp_post (wp_scanLoop_found (G := fun t => t.mem = w.mem ∧ t.var = cursor b cur c ws.length)
    honest reset_mounted holds shape (Or.inr rfl) (fun i inside => (others i inside).2) next ?_) ?_
  · intro t img' c' _ _ _ _ unchanged
    rcases unchanged tidy with ⟨rfl, rfl⟩
    rw [adoptPage, wp_bind]
    refine wp_mountPage holds shape rfl ?_
    intro u mem ram
    have mounted : Mounted b u.var := ram ▸ cursor_mounted b cur c' ws.length
    rw [if_neg (by decide), releaseOther, wp_bind, wp_getVar, mounted.nbPages,
      cursor_nextPool shape.inside ram]
    refine ⟨trivial, wp_eraseLoop_vacant mounted (mem ▸ holds) vacant b.nb 0 (Nat.zero_add _)
      (.good ⟨mem, ram⟩)⟩
  · intro outcome t holds
    rcases holds with ⟨status, rfl, ends⟩
    exact ends

/-- An interrupted transfer is resumed when the first received page can be trusted. -/
theorem wp_init_receiving (honest : Honest env) {new : Pool} {ows : List Word}
    (holds : Holds b w.mem img) (old : img.log new.other = some ows)
    (copying : Copying b new img ows m img c ws)
    (others : ∀ i < b.nb, img.state new.other i ≠ .receive)
    (next : 2 ≤ b.nb ∨ Next b w.mem new) :
    wp (handle env) (Crash fun _ => True) (Ends env (fun _ => True) (Serves b m))
      (eeeInit b.nb false b.base) w := by
  refine wp_init (wp_recovery_receive ?_)
  refine wp_scanLoop_found honest reset_mounted holds copying.shape (Or.inl rfl) others next ?_
  intro t img' c' after same shape' ram _
  refine wp_adopt_receive honest after (same.log.trans old)
    ⟨.refl new img', shape', copying.distinct, copying.merged⟩ (ram.var.trans rfl)

/-- Without a page that can be trusted recovery gives up. -/
theorem wp_init_lost (receive : ∀ p < 2 * b.nb, Skips b w.mem .receive p)
    (active : ∀ p < 2 * b.nb, Skips b w.mem .active p) :
    wp (handle env) (Crash fun _ => True) (fun status _ => status = .stateError)
      (eeeInit b.nb false b.base) w :=
  wp_init (wp_recovery_active receive (wp_scanLoop_none reset_mounted active rfl))

end Baelux.Eeprom

import Baelux.Eeprom.Write

/-! The pool transfer: the live set is copied behind what the new pool already
holds, so that both pools together always answer for every variable. -/

namespace Baelux.Eeprom

open Effect Flash AppendLog

/-! ## Marking the old pool -/

structure Marked (pool : Pool) (img img' : Image) : Prop where
  log : img'.log = img.log
  kept : img'.state pool.other = img.state pool.other
  marked : ∀ i, img'.state pool i = img.state pool i ∨ img'.state pool i = .erasing

theorem Marked.refl (pool : Pool) (img : Image) : Marked pool img img :=
  ⟨rfl, rfl, fun _ => Or.inl rfl⟩

theorem Marked.trans {pool : Pool} {first second third : Image} (one : Marked pool first second)
    (two : Marked pool second third) : Marked pool first third := by
  refine ⟨two.log.trans one.log, two.kept.trans one.kept, fun i => ?_⟩
  rcases two.marked i with same | erasing
  · rw [same]
    exact one.marked i
  · exact Or.inr erasing

theorem Marked.mark (pool : Pool) (img : Image) (i : Nat) :
    Marked pool img (img.setState pool i .erasing) := by
  refine ⟨rfl, by funext j; simp [Image.setState], fun j => ?_⟩
  by_cases here : j = i
  · exact Or.inr (by simp [Image.setState, here])
  · exact Or.inl (by simp [Image.setState, here])

variable {env : Env} {Q : Memory → Prop} {w : World} {Good : World → Prop}
variable {b : Bank} {img : Image} {pool : Pool}

private theorem wp_markPage (honest : Honest env) (mounted : Mounted b w.var)
    (holds : Holds b w.mem img) {i : Nat} (inside : i < b.nb)
    (live : img.state pool i = .active ∨ img.state pool i = .valid)
    (before : Safe b Q img) (after : Safe b Q (img.setState pool i .erasing))
    (good : ∀ t, Holds b t.mem (img.setState pool i .erasing) → SameRam w t → Good t) :
    wp (handle env) (Crash Q) (Ends env Q Good) (markPage (b.first pool + i)) w := by
  rw [markPage, wp_bind]
  refine wp_eeGetState_image mounted holds inside (before _ holds) ?_
  rw [if_pos live]
  refine wp_eeSetState honest mounted holds inside (by decide) ?_ before after good
  rcases live with active | valid
  · rw [active]
    decide
  · rw [valid]
    decide

theorem wp_markLoop (honest : Honest env) (mounted : Mounted b w.var)
    (holds : Holds b w.mem img) {k : Nat} (inside : k < b.nb)
    (live : ∀ i ≤ k, img.state pool i = .active ∨ img.state pool i = .valid)
    (crash : ∀ img', Marked pool img img' → Safe b Q img')
    (good : ∀ t img', Holds b t.mem img' → Marked pool img img' →
      (∀ i ≤ k, img'.state pool i = .erasing) → SameRam w t → Good t) :
    wp (handle env) (Crash Q) (Ends env Q Good) (markLoop (b.first pool + k)) w := by
  induction k generalizing w img with
  | zero =>
      have marked := Marked.mark pool img 0
      have finish : ∀ t, Holds b t.mem (img.setState pool 0 .erasing) → SameRam w t → Good t := by
        intro t after ram
        refine good t _ after marked (fun i small => ?_) ram
        simp [Image.setState, Nat.le_zero.mp small]
      have mark {After : World → Prop} (after : ∀ t, Holds b t.mem (img.setState pool 0 .erasing) →
          SameRam w t → After t) := wp_markPage honest mounted holds inside
        (live 0 (Nat.le_refl 0)) (crash _ (.refl _ _)) (crash _ marked) after
      rw [Nat.add_zero] at mark ⊢
      cases start : b.first pool with
      | zero =>
          rw [start] at mark
          exact mark finish
      | succ p =>
          have last : p + 1 = b.nb := by
            cases pool <;> simp only [Bank.first] at start <;> omega
          rw [start] at mark
          refine wp_check (mark fun t after ram => And.intro after ram) (fun t => .write_error) ?_
          intro t holds
          rcases holds with ⟨after, ram⟩
          have begins : poolStart t.var (p + 1) :=
            Or.inr (by rw [(mounted.sameRam ram).nbPages, last])
          simp only [wp_bind, wp_getVar, begins, ↓reduceIte, wp_pure]
          exact ⟨crash _ marked _ after, .good (finish t after ram)⟩
  | succ k ih =>
      have marked := Marked.mark pool img (k + 1)
      rw [← Nat.add_assoc, markLoop, Nat.add_assoc]
      refine wp_check (wp_markPage honest mounted holds inside (live (k + 1) (Nat.le_refl _))
        (crash _ (.refl _ _)) (crash _ marked) fun t after ram => And.intro after ram)
        (fun t => .write_error) ?_
      intro t holds
      rcases holds with ⟨after, ram⟩
      have mounted' := mounted.sameRam ram
      have inner : ¬ poolStart t.var (b.first pool + (k + 1)) := by
        unfold poolStart
        rw [mounted'.nbPages]
        cases pool <;> simp only [Bank.first] <;> omega
      rw [wp_bind, wp_getVar]
      refine ⟨crash _ marked _ after, ?_⟩
      rw [if_neg inner]
      refine ih mounted' after (by omega) ?_ (fun img' more => crash img' (marked.trans more)) ?_
      · intro i small
        have same : (img.setState pool (k + 1) .erasing).state pool i = img.state pool i := by
          simp [Image.setState, show i ≠ k + 1 by omega]
        rw [same]
        exact live i (by omega)
      · intro u img' final more all ram'
        refine good u img' final (marked.trans more) (fun i small => ?_)
          ⟨ram'.var.trans ram.var, ram'.cache.trans ram.cache⟩
        by_cases here : i = k + 1
        · rcases more.marked i with same | erasing
          · simpa [Image.setState, here] using same
          · exact erasing
        · exact all i (by omega)

/-! ## Copying the live set -/

/-- The new pool holds part of the live set, each variable at most once, and with
the old log `ows` behind it answers as `m` does. -/
structure Copying (b : Bank) (new : Pool) (start : Image) (ows : List Word)
    (m : Nat → Option Data) (img : Image) (c : Nat) (ws : List Word) : Prop where
  other : SameOther new start img
  shape : Shape b img new .receive c ws
  distinct : Distinct decode (List.range b.capacity) ws
  merged : ∀ v < b.capacity, (latest decode ws v).or (latest decode ows v) = m v

namespace Copying

variable {new : Pool} {start : Image} {ows ws : List Word} {m : Nat → Option Data} {c : Nat}

theorem copy (copying : Copying b new start ows m img c ws) {v : Nat} (inside : v < b.capacity)
    (absent : latest decode ws v = none) {data : Data} (present : latest decode ows v = some data)
    {img' : Image} {c' : Nat} (same : SameOther new img img')
    (shape : Shape b img' new .receive c' (ws ++ [element v data])) :
    Copying b new start ows m img' c' (ws ++ [element v data]) := by
  have small : v < 0x4000 := Nat.lt_of_lt_of_le inside b.small
  refine ⟨copying.other.trans same, shape,
    copying.distinct.concat (decode_element small) (List.mem_range.mpr inside) absent, ?_⟩
  intro u bound
  rw [latest_concat ws (decode_element small)]
  have before := copying.merged u bound
  by_cases here : v = u
  · subst here
    rw [absent, present, Option.none_or] at before
    simpa using before
  · simpa [here] using before

theorem room (copying : Copying b new start ows m img c ws) {v : Nat} (inside : v < b.capacity)
    (absent : latest decode ws v = none) : ws.length < b.capacity := by
  have small : v < 0x4000 := Nat.lt_of_lt_of_le inside b.small
  simpa using copying.distinct.length_lt (@decode_element v 0 small)
    (List.mem_range.mpr inside) absent

theorem answered (copying : Copying b new start ows m img c ws) {v : Nat} (inside : v < b.capacity)
    (old : latest decode ows v = none) : latest decode ws v = m v := by
  have merged := copying.merged v inside
  rwa [old, Option.or_none] at merged

theorem held (copying : Copying b new start ows m img c ws) {v : Nat} (inside : v < b.capacity)
    (present : (latest decode ws v).isSome) : latest decode ws v = m v := by
  have merged := copying.merged v inside
  rcases Option.isSome_iff_exists.mp present with ⟨data, found⟩
  rw [found, Option.some_or] at merged
  rw [found, merged]

end Copying

section Copy

variable {new : Pool} {start : Image} {ows ws : List Word} {m : Nat → Option Data} {c : Nat}

theorem last_old_page : b.first new.other + (b.nb - 1) =
    if b.first new < b.nb then 2 * b.nb - 1 else b.nb - 1 := by
  have pos := b.pos
  cases new with
  | lower =>
      rw [if_pos (show b.first .lower < b.nb from pos)]
      simp only [Pool.other, Bank.first]
      omega
  | upper =>
      rw [if_neg (show ¬ b.first .upper < b.nb from Nat.lt_irrefl _)]
      exact Nat.zero_add _

theorem wp_copyVar (honest : Honest env) (old : start.log new.other = some ows)
    (holds : Holds b w.mem img) (copying : Copying b new start ows m img c ws)
    (var : w.var = cursor b new c ws.length) {addr v : Nat} (inside : v < b.capacity)
    (mode : addr ≠ eeTag → latest decode ws v = none)
    (crash : ∀ img' c' ws', Copying b new start ows m img' c' ws' → Safe b Q img')
    (good : ∀ t img' c' ws', Holds b t.mem img' → Copying b new start ows m img' c' ws' →
      t.var = cursor b new c' ws'.length → t.cache = w.cache →
      latest decode ws' v = m v → (∀ u, u ≠ v → latest decode ws' u = latest decode ws u) →
      (Tidy b img new c → Tidy b img' new c') → Good t) :
    wp (handle env) (Crash Q) (Ends env Q Good)
      (copyVar addr (b.first new.other + (b.nb - 1)) v) w := by
  have safe := crash img c ws copying _ holds
  have mounted : Mounted b w.var := var ▸ cursor_mounted b new c ws.length
  have log : img.log new.other = some ows := by rw [copying.other.log, old]
  have reach : ows.length ≤ 508 * (b.nb - 1 + 1) := by
    have length := (holds.log _ _ log).length
    rwa [Nat.sub_add_cancel b.pos]
  have page : w.var.currentWritePage = b.first new + c := by rw [var]; rfl
  have unchanged : latest decode ws v = m v → Ends env Q Good .ok w := fun done =>
    .good (good w img c ws holds copying var rfl done (fun _ _ => rfl) id)
  -- the variable is absent from the new pool: the old pool decides
  have fetch : latest decode ws v = none → wp (handle env) (Crash Q) (Ends env Q Good)
      (copyAbsent (b.first new.other + (b.nb - 1)) v) w := by
    intro absent
    rw [copyAbsent, wp_bind]
    refine wp_eeReadEl_image mounted holds log (Nat.sub_lt b.pos Nat.one_pos) reach safe ?_
    cases found : latest decode ows v with
    | none => exact unchanged (copying.answered inside found)
    | some data =>
        have small : v < 0x4000 := Nat.lt_of_lt_of_le inside b.small
        refine wp_check (G := Good) (wp_eeWriteEl honest small holds copying.shape (by decide)
          (by decide) var (copying.room inside absent) ?_ ?_ ?_) (fun t => .write_error)
          (fun t finished => .good finished)
        · intro img' holds
          rcases holds with ⟨same, c', shape⟩
          exact crash img' c' ws
            ⟨copying.other.trans same, shape, copying.distinct, copying.merged⟩
        · intro img' holds
          rcases holds with ⟨same, c', shape⟩
          exact crash img' c' _ (copying.copy inside absent found same shape)
        · intro t img' c' after same shape tidy var' cache
          have copied := copying.copy inside absent found same shape
          refine good t img' c' _ after copied var' cache ?_ ?_ (fun _ => tidy)
          · refine copied.held inside ?_
            rw [latest_concat ws (decode_element small), if_pos rfl]
            rfl
          · intro u other
            rw [latest_concat ws (decode_element small), if_neg (Ne.symm other)]
  rw [copyVar_eq, wp_bind, wp_getVar]
  refine ⟨safe, ?_⟩
  by_cases resumed : addr = eeTag
  · rw [if_neg (not_not_intro resumed), wp_bind, page]
    refine wp_eeReadEl_image mounted holds copying.shape.log copying.shape.inside
      copying.shape.high safe ?_
    cases present : latest decode ws v with
    | some data =>
        exact unchanged (copying.held inside (by rw [present]; rfl))
    | none => exact fetch present
  · rw [if_pos resumed, wp_bind, wp_pure]
    exact fetch (mode resumed)

theorem wp_copyLoop (honest : Honest env) (old : start.log new.other = some ows)
    {addr : Nat} (remaining var : Nat) (reach : var + remaining = b.capacity)
    (holds : Holds b w.mem img) (copying : Copying b new start ows m img c ws)
    (ram : w.var = cursor b new c ws.length)
    (done : ∀ v < b.capacity, v < var ∨ v = addr → latest decode ws v = m v)
    (mode : addr ≠ eeTag → ∀ v, var ≤ v → v ≠ addr → latest decode ws v = none)
    (crash : ∀ img' c' ws', Copying b new start ows m img' c' ws' → Safe b Q img')
    (good : ∀ t img' c' ws', Holds b t.mem img' → Copying b new start ows m img' c' ws' →
      t.var = cursor b new c' ws'.length → t.cache = w.cache →
      (∀ v < b.capacity, latest decode ws' v = m v) →
      (Tidy b img new c → Tidy b img' new c') → Good t) :
    wp (handle env) (Crash Q) (Ends env Q Good)
      (copyLoop addr (b.first new.other + (b.nb - 1)) remaining var) w := by
  induction remaining generalizing var w img c ws with
  | zero =>
      refine .good (good w img c ws holds copying ram rfl ?_ id)
      intro v inside
      exact done v inside (Or.inl (by omega))
  | succ remaining ih =>
      by_cases skipped : var = addr
      · simp only [copyLoop, skipped, ne_eq, not_true_eq_false, ↓reduceIte, wp_bind, wp_pure]
        refine ih (addr + 1) (by omega) holds copying ram ?_ ?_ good
        · intro v inside before
          exact done v inside (by omega)
        · intro transfer v after other
          exact mode transfer v (by omega) other
      · rw [copyLoop, if_pos skipped]
        refine wp_check (wp_copyVar (v := var) honest old holds copying ram (by omega)
          (fun transfer => mode transfer var (Nat.le_refl _) skipped) crash
          fun t img' c' ws' a b c d e f g => (⟨img', c', ws', a, b, c, d, e, f, g⟩ :
            ∃ img' c' ws', Holds _ t.mem img' ∧ Copying _ new start ows m img' c' ws' ∧
              t.var = cursor _ new c' ws'.length ∧ t.cache = w.cache ∧
              latest decode ws' var = m var ∧
              (∀ u, u ≠ var → latest decode ws' u = latest decode ws u) ∧
              (Tidy _ img new _ → Tidy _ img' new c'))) (fun t => .write_error) ?_
        intro t holds
        rcases holds with ⟨img', c', ws', after, copied, ram', cache, answered, kept, tidy⟩
        refine ih (var + 1) (by omega) after copied ram' ?_ ?_ ?_
        · intro v inside before
          by_cases here : v = var
          · exact here ▸ answered
          · rw [kept v here]
            exact done v inside (by omega)
        · intro transfer v later other
          rw [kept v (by omega)]
          exact mode transfer v (by omega) other
        · intro u img'' c'' ws'' final all ram'' cache' answers tidy'
          exact good u img'' c'' ws'' final all ram'' (cache'.trans cache) answers
            (fun start => tidy' (tidy start))

private theorem wp_finish (honest : Honest env) (old : start.log new.other = some ows)
    {addr : Nat} (holds : Holds b w.mem img) (copying : Copying b new start ows m img c ws)
    (ram : w.var = cursor b new c ws.length)
    (done : ∀ v < b.capacity, v = addr → latest decode ws v = m v)
    (mode : addr ≠ eeTag → ∀ v, v ≠ addr → latest decode ws v = none)
    (crash : ∀ img' c' ws', Copying b new start ows m img' c' ws' → Safe b Q img')
    (crash_after : ∀ img' c' ws', Copying b new start ows m img' c' ws' →
      (∀ v < b.capacity, latest decode ws' v = m v) →
      (Tidy b img new c → Tidy b img' new c') → Safe b Q (img'.setState new c' .active))
    (good : ∀ t img' c' ws', Holds b t.mem (img'.setState new c' .active) →
      Copying b new start ows m img' c' ws' → t.var = cursor b new c' ws'.length →
      t.cache = w.cache → (∀ v < b.capacity, latest decode ws' v = m v) →
      (Tidy b img new c → Tidy b img' new c') → Good t) :
    wp (handle env) (Crash Q) (Ends env Q Good)
      (copyLoop addr (b.first new.other + (b.nb - 1)) (eeNbMaxElt * b.nb) 0 >>= fun status =>
        if status ≠ .ok then pure .writeError
        else do
          let pv ← getVar
          eeSetState pv.currentWritePage .active) w := by
  refine wp_check (wp_copyLoop honest old (eeNbMaxElt * b.nb) 0
    (Nat.zero_add _) holds copying ram (fun v inside before => done v inside (by omega))
    (fun transfer v _ other => mode transfer v other) crash
    fun t img' c' ws' a b c d e f => (⟨img', c', ws', a, b, c, d, e, f⟩ :
      ∃ img' c' ws', Holds _ t.mem img' ∧ Copying _ new start ows m img' c' ws' ∧
        t.var = cursor _ new c' ws'.length ∧ t.cache = w.cache ∧
        (∀ v < Bank.capacity _, latest decode ws' v = m v) ∧
        (Tidy _ img new _ → Tidy _ img' new c'))) (fun t => .write_error) ?_
  intro t holds
  rcases holds with ⟨img', c', ws', after, copied, ram', cache, answers, tidy⟩
  have mounted : Mounted b t.var := ram' ▸ cursor_mounted b new c' ws'.length
  have page : t.var.currentWritePage = b.first new + c' := by rw [ram']; rfl
  rw [wp_bind, wp_getVar, page]
  refine ⟨crash _ _ _ copied _ after, ?_⟩
  refine wp_eeSetState honest mounted after copied.shape.inside (by decide)
    (by rw [copied.shape.current]; decide) (crash _ _ _ copied)
    (crash_after _ _ _ copied answers tidy) ?_
  intro u final same
  exact good u img' c' ws' final copied (same.var.trans ram') (same.cache.trans cache) answers tidy

/-- The transfer that recovery resumes: nothing is marked, what was already copied is kept. -/
theorem wp_eeTransfer_resumed (honest : Honest env) (old : start.log new.other = some ows)
    (holds : Holds b w.mem img) (copying : Copying b new start ows m img c ws)
    (ram : w.var = cursor b new c ws.length)
    (crash : ∀ img' c' ws', Copying b new start ows m img' c' ws' → Safe b Q img')
    (crash_after : ∀ img' c' ws', Copying b new start ows m img' c' ws' →
      (∀ v < b.capacity, latest decode ws' v = m v) → Safe b Q (img'.setState new c' .active))
    (good : ∀ t img' c' ws', Holds b t.mem (img'.setState new c' .active) →
      Copying b new start ows m img' c' ws' → t.var = cursor b new c' ws'.length →
      t.cache = w.cache → (∀ v < b.capacity, latest decode ws' v = m v) → Good t) :
    wp (handle env) (Crash Q) (Ends env Q Good) (eeTransfer eeTag (b.first new)) w := by
  have safe := crash _ _ _ copying _ holds
  have pages : w.var.nbPages = b.nb := by rw [ram]; rfl
  rw [eeTransfer, wp_bind, wp_getVar, pages]
  refine ⟨safe, ?_⟩
  simp only [← last_old_page]
  rw [if_neg (not_not_intro rfl), wp_bind, wp_pure, if_neg (not_not_intro rfl)]
  refine wp_finish honest old holds copying ram ?_ ?_ crash
    (fun img' c' ws' copied answers _ => crash_after img' c' ws' copied answers)
    (fun t img' c' ws' final copied ram' cache answers _ =>
      good t img' c' ws' final copied ram' cache answers)
  · intro v inside tag
    have small := b.small
    rw [Bank.capacity] at inside
    unfold eeTag at tag
    omega
  · exact fun transfer => absurd rfl transfer

theorem Copying.restart (copying : Copying b new start ows m img c ws) {img' : Image}
    (marked : Marked new.other img img') : Copying b new img' ows m img' c ws :=
  ⟨.refl new img', copying.shape.congr (by simpa using marked.kept) (by rw [marked.log]),
    copying.distinct, copying.merged⟩

/-- The transfer of a write: the pool in use before is marked, then its live set is copied. -/
theorem wp_eeTransfer (honest : Honest env) (old : start.log new.other = some ows)
    (holds : Holds b w.mem img) (copying : Copying b new start ows m img c ws)
    (ram : w.var = cursor b new c ws.length) (tidy : Tidy b img new c)
    {addr : Nat} (small : addr < b.capacity)
    (done : latest decode ws addr = m addr) (only : ∀ v, v ≠ addr → latest decode ws v = none)
    (live : ∀ i < b.nb, img.state new.other i = .active ∨ img.state new.other i = .valid)
    (crash : ∀ marked img' c' ws', Marked new.other img marked →
      Copying b new marked ows m img' c' ws' → Safe b Q img')
    (crash_after : ∀ img' c' ws', Shape b img' new .active c' ws' →
      (∀ v < b.capacity, latest decode ws' v = m v) →
      (∀ i < b.nb, img'.state new.other i = .erasing) → Safe b Q img')
    (good : ∀ t img' c' ws', Holds b t.mem img' → Shape b img' new .active c' ws' →
      (∀ v < b.capacity, latest decode ws' v = m v) →
      (∀ i < b.nb, img'.state new.other i = .erasing) →
      t.var = cursor b new c' ws'.length → t.cache = w.cache → Good t) :
    wp (handle env) (Crash Q) (Ends env Q Good) (eeTransfer addr (b.first new)) w := by
  have mounted : Mounted b w.var := ram ▸ cursor_mounted b new c ws.length
  have restart := crash img img c ws (.refl _ _) (copying.restart (.refl _ _))
  have pages : w.var.nbPages = b.nb := by rw [ram]; rfl
  have not_tag : addr ≠ eeTag := by
    have limit := b.small
    rw [Bank.capacity] at small
    unfold eeTag
    omega
  have pos := b.pos
  rw [eeTransfer, wp_bind, wp_getVar, pages]
  refine ⟨restart _ holds, ?_⟩
  simp only [← last_old_page]
  rw [if_pos not_tag]
  refine wp_check (wp_markLoop honest mounted holds (Nat.sub_lt pos Nat.one_pos)
    (fun i before => live i (by omega))
    (fun img' marked => crash img' img' c ws marked (copying.restart marked))
    fun t img' a b c d => (⟨img', a, b, c, d⟩ : ∃ img', Holds _ t.mem img' ∧
      Marked new.other img img' ∧ (∀ i ≤ Bank.nb _ - 1, img'.state new.other i = .erasing) ∧
      SameRam w t)) (fun t => .write_error) ?_
  intro t holds
  rcases holds with ⟨marked, after, mark, erasing, same⟩
  have copying' := copying.restart mark
  have erasing' : ∀ img', SameOther new marked img' →
      ∀ i < b.nb, img'.state new.other i = .erasing := by
    intro img' other i inside
    rw [other.state]
    exact erasing i (by omega)
  have finished : ∀ img' c' ws', Copying b new marked ows m img' c' ws' →
      (Tidy b marked new c → Tidy b img' new c') →
      Shape b (img'.setState new c' .active) new .active c' ws' ∧
      ∀ i < b.nb, (img'.setState new c' .active).state new.other i = .erasing := by
    intro img' c' ws' copied still
    refine ⟨copied.shape.restate (still ?_) .active, ?_⟩
    · intro i after small
      have kept := congrFun mark.kept i
      rw [Pool.other_other] at kept
      rw [kept]
      exact tidy i after small
    · exact erasing' _ (copied.other.trans (SameOther.setState new img' c' .active))
  refine wp_finish honest (by rw [mark.log]; exact copying.other.log.trans old) after copying'
    (same.var.trans ram) (fun v _ here => here ▸ done) (fun _ v other => only v other)
    (fun img' c' ws' copied => crash marked img' c' ws' mark copied) ?_ ?_
  · intro img' c' ws' copied answers still
    have shape := finished img' c' ws' copied still
    exact crash_after _ c' ws' shape.1 answers shape.2
  · intro u img' c' ws' final copied ram' cache answers still
    have shape := finished img' c' ws' copied still
    exact good u _ c' ws' final shape.1 answers shape.2 ram' (cache.trans same.cache)

end Copy

end Baelux.Eeprom

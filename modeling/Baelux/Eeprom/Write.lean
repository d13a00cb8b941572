import Baelux.Eeprom.Rules

/-! Storing one element: the pool in use keeps its shape, whatever page the
element lands on, and at every moment holds either the old or the new log. -/

namespace Baelux.Eeprom

open Effect Flash AppendLog

/-- The RAM of the store when page `c` of a pool is written and holds the last of
`n` elements. -/
def cursor (b : Bank) (cur : Pool) (c n : Nat) : EeVar where
  address := b.base
  nbPages := b.nb
  currentWritePage := b.first cur + c
  nbWrittenElements := n
  nextWriteOffset := 32 + 8 * (n - 508 * c)

theorem cursor_mounted (b : Bank) (cur : Pool) (c n : Nat) : Mounted b (cursor b cur c n) :=
  ⟨rfl, rfl⟩

/-- The pool `cur` is written at page `c`, which is in state `st`. A page change
that stopped half way leaves the next page in state `st` too. -/
structure Shape (b : Bank) (img : Image) (cur : Pool) (st : PageState) (c : Nat)
    (ws : List Word) : Prop where
  log : img.log cur = some ws
  inside : c < b.nb
  low : 508 * c ≤ ws.length
  high : ws.length ≤ 508 * (c + 1)
  full : ∀ i < c, img.state cur i = .valid
  current : img.state cur c = st
  beyond : ∀ i, c < i → i < b.nb → img.state cur i = .erased ∨
    (i = c + 1 ∧ ws.length = 508 * (c + 1) ∧ img.state cur i = st)

def Tidy (b : Bank) (img : Image) (cur : Pool) (c : Nat) : Prop :=
  ∀ i, c < i → i < b.nb → img.state cur i = .erased

structure SameOther (cur : Pool) (img img' : Image) : Prop where
  state : img'.state cur.other = img.state cur.other
  log : img'.log cur.other = img.log cur.other

def Stage (b : Bank) (cur : Pool) (st : PageState) (img : Image) (ws : List Word)
    (img' : Image) : Prop :=
  SameOther cur img img' ∧ ∃ c, Shape b img' cur st c ws

theorem SameOther.refl (cur : Pool) (img : Image) : SameOther cur img img := ⟨rfl, rfl⟩

theorem SameOther.trans {cur : Pool} {first second third : Image}
    (one : SameOther cur first second) (two : SameOther cur second third) :
    SameOther cur first third :=
  ⟨two.state.trans one.state, two.log.trans one.log⟩

theorem SameOther.setState (cur : Pool) (img : Image) (i : Nat) (state : PageState) :
    SameOther cur img (img.setState cur i state) :=
  ⟨by funext j; simp [Image.setState], rfl⟩

theorem SameOther.append (cur : Pool) (img : Image) (el : Word) :
    SameOther cur img (img.append cur el) :=
  ⟨rfl, by simp [Image.append]⟩

variable {b : Bank} {img : Image} {cur : Pool} {st : PageState} {c : Nat} {ws : List Word}

namespace Shape

theorem congr (shape : Shape b img cur st c ws) {img' : Image}
    (state : img'.state cur = img.state cur) (log : img'.log cur = img.log cur) :
    Shape b img' cur st c ws :=
  ⟨log.trans shape.log, shape.inside, shape.low, shape.high,
    fun i before => by rw [state]; exact shape.full i before, by rw [state]; exact shape.current,
    fun i after small => by rw [state]; exact shape.beyond i after small⟩

theorem append (shape : Shape b img cur st c ws) (room : ws.length < 508 * (c + 1)) (el : Word) :
    Shape b (img.append cur el) cur st c (ws ++ [el]) where
  log := by simp [Image.append, shape.log]
  inside := shape.inside
  low := by
    have low := shape.low
    rw [List.length_append]
    omega
  high := by rwa [List.length_append]
  full := shape.full
  current := shape.current
  beyond := by
    intro i after small
    rcases shape.beyond i after small with erased | ⟨_, full, _⟩
    · exact Or.inl erased
    · omega

theorem announce (shape : Shape b img cur st c ws) (full : ws.length = 508 * (c + 1)) :
    Shape b (img.setState cur (c + 1) st) cur st c ws where
  log := shape.log
  inside := shape.inside
  low := shape.low
  high := shape.high
  full := by
    intro i before
    simp [Image.setState, shape.full i before, show i ≠ c + 1 by omega]
  current := by simp [Image.setState, shape.current]
  beyond := by
    intro i after small
    by_cases next : i = c + 1
    · exact Or.inr ⟨next, full, by simp [Image.setState, next]⟩
    · rcases shape.beyond i after small with erased | ⟨same, _⟩
      · exact Or.inl (by simp [Image.setState, next, erased])
      · exact absurd same next

theorem advance (shape : Shape b img cur st c ws) (full : ws.length = 508 * (c + 1))
    (next : c + 1 < b.nb) (announced : img.state cur (c + 1) = st) :
    Shape b (img.setState cur c .valid) cur st (c + 1) ws where
  log := shape.log
  inside := next
  low := by omega
  high := by omega
  full := by
    intro i before
    by_cases last : i = c
    · simp [Image.setState, last]
    · simp [Image.setState, last, shape.full i (by omega)]
  current := by simp [Image.setState, announced]
  beyond := by
    intro i after small
    rcases shape.beyond i (by omega) small with erased | ⟨same, _⟩
    · exact Or.inl (by simp [Image.setState, erased, show i ≠ c by omega])
    · omega

theorem tidy (shape : Shape b img cur st c ws) (room : ws.length < 508 * (c + 1)) :
    Tidy b img cur c := by
  intro i after small
  rcases shape.beyond i after small with erased | ⟨_, full, _⟩
  · exact erased
  · omega

theorem restate (shape : Shape b img cur st c ws) (tidy : Tidy b img cur c) (st' : PageState) :
    Shape b (img.setState cur c st') cur st' c ws where
  log := shape.log
  inside := shape.inside
  low := shape.low
  high := shape.high
  full := by
    intro i before
    simp [Image.setState, shape.full i before, show i ≠ c by omega]
  current := by simp [Image.setState]
  beyond := by
    intro i after small
    exact Or.inl (by simp [Image.setState, tidy i after small, show i ≠ c by omega])

theorem next_index (shape : Shape b img cur st c ws) (next : c + 1 < b.nb) :
    (img.state cur (c + 1)).index ≤ st.index := by
  rcases shape.beyond (c + 1) (by omega) next with erased | ⟨_, _, same⟩
  · rw [erased]
    exact Nat.zero_le _
  · exact Nat.le_of_eq (congrArg PageState.index same)

end Shape

variable {env : Env} {Q : Memory → Prop} {w : World} {Good : World → Prop}

theorem wp_storeElement (honest : Honest env) {addr : Nat} {data : Data} (small : addr < 0x4000)
    (holds : Holds b w.mem img) (shape : Shape b img cur st c ws)
    (var : w.var = cursor b cur c ws.length) (room : ws.length < 508 * (c + 1))
    (before : Safe b Q img) (after : Safe b Q (img.append cur (element addr data)))
    (good : ∀ t, Holds b t.mem (img.append cur (element addr data)) →
      t.var = cursor b cur c (ws.length + 1) → t.cache = w.cache → Good t) :
    wp (handle env) (Crash Q) (Ends env Q Good) (storeElement addr data) w := by
  have inside := shape.inside
  have low := shape.low
  have capacity : ws.length < b.capacity := by
    rw [Bank.capacity_eq]
    omega
  have step := holds.append shape.log capacity (element_ne_erased small : element addr data ≠ _)
  have target : (cursor b cur c ws.length).flashAddr
      (cursor b cur c ws.length).currentWritePage + (cursor b cur c ws.length).nextWriteOffset =
      b.slot cur ws.length := by
    simp only [cursor, EeVar.flashAddr, Bank.slot_eq, pageSize_eq]
    omega
  simp only [storeElement, wp_bind, wp_getVar, var, target]
  refine ⟨before _ holds, wp_fdWriteData honest _ _ (before _ holds) (after _ step) ?_ ?_⟩
  · intro t written ram
    simp only [ne_eq, not_true_eq_false, ↓reduceIte, wp_bind, wp_setVar, wp_pure]
    refine ⟨after _ (written ▸ step), .good (good _ (written ▸ step) ?_ ram.cache)⟩
    simp only [cursor, width_eq, EeVar.mk.injEq, true_and]
    omega
  · intro busy t same _
    simp only [ne_eq, Nat.one_ne_zero, not_false_eq_true, ↓reduceIte, wp_pure]
    exact .write_error busy (same ▸ before _ holds)

theorem wp_changePage (honest : Honest env) (holds : Holds b w.mem img)
    (shape : Shape b img cur st c ws) (real : st ≠ .erased) (order : st.index ≤ 3)
    (var : w.var = cursor b cur c ws.length) (full : ws.length = 508 * (c + 1))
    (next : c + 1 < b.nb) (crash : ∀ img', Stage b cur st img ws img' → Safe b Q img')
    (good : ∀ t img', Holds b t.mem img' → SameOther cur img img' →
      Shape b img' cur st (c + 1) ws → t.var = cursor b cur (c + 1) ws.length →
      t.cache = w.cache → Good t) :
    wp (handle env) (Crash Q) (Ends env Q Good) changePage w := by
  have mounted : Mounted b w.var := var ▸ cursor_mounted b cur c ws.length
  have stage := crash img ⟨.refl cur img, c, shape⟩
  have announced := shape.announce full
  have same := SameOther.setState cur img (c + 1) st
  have stage' := crash _ ⟨same, c, announced⟩
  have reached : (img.setState cur (c + 1) st).state cur (c + 1) = st := by
    simp [Image.setState]
  have advanced := announced.advance full next reached
  have same' := same.trans (SameOther.setState cur (img.setState cur (c + 1) st) c .valid)
  have stage'' := crash _ ⟨same', c + 1, advanced⟩
  have page : w.var.currentWritePage = b.first cur + c := by rw [var]; rfl
  unfold changePage
  simp only [wp_bind, wp_getVar]
  refine ⟨stage _ holds, ?_⟩
  rw [page]
  refine wp_eeGetState_image mounted holds shape.inside (stage _ holds) ?_
  rw [shape.current, ← wp_bind]
  refine wp_check (wp_eeSetState honest mounted holds next real (shape.next_index next) stage stage'
    fun t after ram => And.intro after ram) (fun t => .write_error) ?_
  intro t holds
  rcases holds with ⟨after, ram⟩
  refine wp_check (wp_eeSetState honest (mounted.sameRam ram) after shape.inside (by decide)
    (by rw [announced.current]; exact order) stage' stage''
    fun u after' ram' => And.intro after' ram') (fun t => .write_error) ?_
  intro u holds
  rcases holds with ⟨after', ram'⟩
  simp only [wp_bind, wp_setVar, wp_pure]
  refine ⟨stage'' _ after', .good (good _ _ after' same' advanced ?_ ?_)⟩
  · simp only [var, cursor, full, headerSize_eq, EeVar.mk.injEq, true_and]
    omega
  · exact ram'.cache.trans ram.cache

/-- Storing an element in a pool with room moves it from the stages of the old log
to the stages of the new one. -/
theorem wp_eeWriteEl (honest : Honest env) {addr : Nat} {data : Data} (small : addr < 0x4000)
    (holds : Holds b w.mem img) (shape : Shape b img cur st c ws) (real : st ≠ .erased)
    (order : st.index ≤ 3) (var : w.var = cursor b cur c ws.length)
    (room : ws.length < b.capacity)
    (crash : ∀ img', Stage b cur st img ws img' → Safe b Q img')
    (crash_after : ∀ img', Stage b cur st img (ws ++ [element addr data]) img' → Safe b Q img')
    (good : ∀ t img' c', Holds b t.mem img' → SameOther cur img img' →
      Shape b img' cur st c' (ws ++ [element addr data]) → Tidy b img' cur c' →
      t.var = cursor b cur c' (ws ++ [element addr data]).length → t.cache = w.cache → Good t) :
    wp (handle env) (Crash Q) (Ends env Q Good) (eeWriteEl addr data) w := by
  have store : ∀ t img' c', Holds b t.mem img' → SameOther cur img img' →
      Shape b img' cur st c' ws → t.var = cursor b cur c' ws.length → t.cache = w.cache →
      ws.length < 508 * (c' + 1) →
      wp (handle env) (Crash Q) (Ends env Q Good) (storeElement addr data) t := by
    intro t img' c' holds' same shape' var' cache free
    have appended := shape'.append free (element addr data)
    have same' := same.trans (SameOther.append cur img' (element addr data))
    refine wp_storeElement honest small holds' shape' var' free (crash _ ⟨same, c', shape'⟩)
      (crash_after _ ⟨same', c', appended⟩) ?_
    intro u after var'' cache'
    exact good u _ c' after same' appended (shape'.tidy free) (by rw [var'', List.length_append]; rfl)
      (cache'.trans cache)
  have high := shape.high
  unfold eeWriteEl
  rw [wp_bind, wp_getVar]
  refine ⟨crash img ⟨.refl cur img, c, shape⟩ _ holds, ?_⟩
  split
  · rename_i overflow
    have full : ws.length = 508 * (c + 1) := by
      simp only [var, cursor, pageSize_eq] at overflow
      omega
    have next : c + 1 < b.nb := by
      rw [Bank.capacity_eq] at room
      omega
    refine wp_check (wp_changePage honest holds shape real order var full next crash
      fun t img' after same shape' var' cache =>
        (⟨img', after, same, shape', var', cache⟩ : ∃ img', Holds b t.mem img' ∧
          SameOther cur img img' ∧ Shape b img' cur st (c + 1) ws ∧
          t.var = cursor b cur (c + 1) ws.length ∧ t.cache = w.cache))
      (fun t => .write_error) ?_
    intro t holds
    rcases holds with ⟨img', after, same, shape', var', cache⟩
    exact store t img' (c + 1) after same shape' var' cache (by omega)
  · rename_i fits
    refine store w img c holds (.refl cur img) shape var rfl ?_
    simp only [var, cursor, pageSize_eq] at fits
    omega

end Baelux.Eeprom

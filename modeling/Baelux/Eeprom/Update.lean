import Baelux.Eeprom.Transfer

/-! What `EEE_Init`, `EEE_Read`, `EEE_Write` and `EEE_Clean` do to a store that
answers as a map from variables to data, and what a reset finds on the way. -/

namespace Baelux.Eeprom

open Effect Flash AppendLog

/-- The variables of the store; only those below the capacity of the bank matter. -/
abbrev Store := Nat → Option Data

variable {b : Bank} {img : Image} {m m' : Store}

/-! ## The states of a running store -/

def Answers (b : Bank) (ws : List Word) (m : Store) : Prop :=
  ∀ v < b.capacity, latest decode ws v = m v

structure Live (b : Bank) (m : Store) (w : World) (img : Image) (cur : Pool) (c : Nat)
    (ws : List Word) : Prop where
  holds : Holds b w.mem img
  shape : Shape b img cur .active c ws
  var : w.var = cursor b cur c ws.length
  answers : Answers b ws m

structure Vacant (b : Bank) (img : Image) (pool : Pool) : Prop where
  state : ∀ i < b.nb, img.state pool i = .erased
  log : img.log pool = some []

def Idle (b : Bank) (m : Store) (w : World) : Prop :=
  ∃ img cur c ws, Live b m w img cur c ws ∧ Vacant b img cur.other

/-- `EEE_CLEAN_NEEDED` was returned and the old pool waits to be erased. -/
def Pending (b : Bank) (m : Store) (w : World) : Prop :=
  ∃ img cur c ws, Live b m w img cur c ws ∧ ∀ i < b.nb, img.state cur.other i = .erasing

theorem Idle.congr {w t : World} (idle : Idle b m w) (mem : t.mem = w.mem) (var : t.var = w.var) :
    Idle b m t := by
  rcases idle with ⟨img, cur, c, ws, live, vacant⟩
  exact ⟨img, cur, c, ws, ⟨mem ▸ live.holds, live.shape, var.trans live.var, live.answers⟩, vacant⟩

theorem Pending.congr {w t : World} (pending : Pending b m w) (mem : t.mem = w.mem)
    (var : t.var = w.var) : Pending b m t := by
  rcases pending with ⟨img, cur, c, ws, live, erasing⟩
  exact ⟨img, cur, c, ws, ⟨mem ▸ live.holds, live.shape, var.trans live.var, live.answers⟩, erasing⟩

/-! ## What a reset finds -/

def Settled (b : Bank) (m : Store) (img : Image) : Prop :=
  ∃ cur c ws, Shape b img cur .active c ws ∧ Answers b ws m ∧
    ∀ i < b.nb, img.state cur.other i ≠ .receive ∧ img.state cur.other i ≠ .active

/-- A transfer is under way. Both pools together answer as `m'`, the old one alone
still answers as the store did before the write, which is `m`. -/
def Receiving (b : Bank) (m m' : Store) (img : Image) : Prop :=
  ∃ new c ws ows, img.log new.other = some ows ∧ Copying b new img ows m' img c ws ∧
    Answers b ows m ∧ ∀ i < b.nb, img.state new.other i ≠ .receive ∧ img.state new.other i ≠ .erased

/-- The flash during a write that takes the store from `m` to `m'`. -/
def Interrupted (b : Bank) (m m' : Store) (img : Image) : Prop :=
  Settled b m img ∨ Settled b m' img ∨ Receiving b m m img ∨ Receiving b m m' img

theorem Interrupted.settled (settled : Settled b m img) : Interrupted b m m' img :=
  Or.inl settled

def Content (b : Bank) (C : Image → Prop) (mem : Memory) : Prop := ∃ img, Holds b mem img ∧ C img

theorem Content.safe {C : Image → Prop} {img : Image} (kind : C img) : Safe b (Content b C) img :=
  fun _ holds => ⟨img, holds, kind⟩

theorem Vacant.settled {w : World} {cur : Pool} {c : Nat} {ws : List Word}
    (live : Live b m w img cur c ws) (vacant : Vacant b img cur.other) : Settled b m img :=
  ⟨cur, c, ws, live.shape, live.answers, fun i inside => by rw [vacant.state i inside]; decide⟩

/-! ## Reading -/

section Rules

variable {env : Env} {P : Call → World → Prop} {Q : Memory → Prop} {w : World}
variable {cur : Pool} {c : Nat} {ws : List Word} {addr : Nat}

theorem Live.mounted (live : Live b m w img cur c ws) : Mounted b w.var :=
  live.var ▸ cursor_mounted b cur c ws.length

theorem Live.page (live : Live b m w img cur c ws) :
    w.var.currentWritePage = b.first cur + c := by
  rw [live.var]
  rfl

theorem wp_eeeRead {R : Option Data → World → Prop} (live : Live b m w img cur c ws)
    (inside : addr < b.capacity) (before : Q w.mem) (result : R (m addr) w) :
    wp (handle env) (Crash Q) R (eeeRead addr) w := by
  rw [eeeRead, wp_bind, wp_getVar, live.page]
  refine ⟨before, wp_eeReadEl_image live.mounted live.holds live.shape.log live.shape.inside
    live.shape.high before ?_⟩
  rwa [live.answers addr inside]

/-! ## Writing -/

structure OneMore (b : Bank) (w t : World) : Prop where
  room : w.var.nbWrittenElements < b.capacity
  count : t.var.nbWrittenElements = w.var.nbWrittenElements + 1
  pool : t.var.currentWritePage < b.nb ↔ w.var.currentWritePage < b.nb

def Wrote (env : Env) (Q : Memory → Prop) (b : Bank) (m : Store) (w : World) (status : Status)
    (t : World) : Prop :=
  (status = .ok ∧ Idle b m t ∧ t.cache = w.cache ∧ OneMore b w t) ∨
    (status = .cleanNeeded ∧ Pending b m t ∧ t.cache = w.cache ∧
      w.var.nbWrittenElements = b.capacity) ∨
    Refused env Q status t

theorem cursor_pool (inside : c < b.nb) (n : Nat) :
    (cursor b cur c n).currentWritePage < b.nb ↔ cur = .lower := by
  cases cur <;> simp [cursor, Bank.first, inside]

theorem Answers.concat (answers : Answers b ws m) (small : addr < 0x4000) (data : Data) :
    Answers b (ws ++ [element addr data]) (Function.update m addr (some data)) := by
  intro v inside
  rw [latest_concat ws (decode_element small), Function.update_apply]
  by_cases here : v = addr
  · rw [if_pos here.symm, if_pos here]
  · rw [if_neg (Ne.symm here), if_neg here]
    exact answers v inside

/-- The pool in use takes one more element, whatever is left in the other one. -/
theorem Live.wp_write (honest : Honest env) (live : Live b m w img cur c ws) (data : Data)
    (inside : addr < b.capacity) (room : ws.length < b.capacity)
    (others : ∀ i < b.nb, img.state cur.other i ≠ .receive ∧ img.state cur.other i ≠ .active)
    (crash : ∀ img', Interrupted b m (Function.update m addr (some data)) img' → Safe b Q img') :
    wp (handle env) (Crash Q) (Ends env Q fun t => (∃ img' c', SameOther cur img img' ∧
        Live b (Function.update m addr (some data)) t img' cur c' (ws ++ [element addr data])) ∧
        t.cache = w.cache) (eeWriteEl addr data) w := by
  have small : addr < 0x4000 := Nat.lt_of_lt_of_le inside b.small
  have answers := live.answers.concat small data
  have settled : ∀ {img' c' ws' m'}, SameOther cur img img' → Shape b img' cur .active c' ws' →
      Answers b ws' m' → Settled b m' img' := by
    intro img' c' ws' m' same shape answers
    refine ⟨cur, c', ws', shape, answers, ?_⟩
    intro i bound
    rw [same.state]
    exact others i bound
  apply wp_eeWriteEl honest small live.holds live.shape (by decide) (by decide) live.var room
  · intro img' holds
    rcases holds with ⟨same, c', shape⟩
    exact crash img' (Or.inl (settled same shape live.answers))
  · intro img' holds
    rcases holds with ⟨same, c', shape⟩
    exact crash img' (Or.inr (Or.inl (settled same shape answers)))
  · intro t img' c' after same shape _ var cache
    exact ⟨⟨img', c', same, after, shape, var, answers⟩, cache⟩

private theorem wp_write_here (honest : Honest env) (live : Live b m w img cur c ws)
    (vacant : Vacant b img cur.other) (data : Data) (inside : addr < b.capacity)
    (room : ws.length < b.capacity)
    (crash : ∀ img', Interrupted b m (Function.update m addr (some data)) img' → Safe b Q img') :
    wp (handle env) (Crash Q) (Wrote env Q b (Function.update m addr (some data)) w)
      (eeWriteEl addr data) w := by
  have others : ∀ i < b.nb, img.state cur.other i ≠ .receive ∧ img.state cur.other i ≠ .active := by
    intro i bound
    rw [vacant.state i bound]
    decide
  apply wp_post (live.wp_write honest data inside room others crash)
  rintro status t (⟨rfl, ⟨img', c', same, after⟩, cache⟩ | refused)
  · have still : Vacant b img' cur.other :=
      ⟨fun i bound => by rw [same.state]; exact vacant.state i bound, by rw [same.log, vacant.log]⟩
    refine Or.inl ⟨rfl, ⟨img', cur, c', _, after, still⟩, cache, ?_, ?_, ?_⟩
    · rw [live.var]
      exact room
    · rw [after.var, live.var]
      simp [cursor]
    · rw [after.var, live.var, cursor_pool after.shape.inside, cursor_pool live.shape.inside]
  · exact Or.inr (Or.inr refused)

theorem Shape.last_page {st : PageState} (shape : Shape b img cur st c ws)
    (full : ws.length = b.capacity) : c = b.nb - 1 := by
  have inside := shape.inside
  have high := shape.high
  rw [Bank.capacity_eq] at full
  omega

theorem cursor_nextPool {n : Nat} (inside : c < b.nb) (var : w.var = cursor b cur c n) :
    w.var.nextPool = b.first cur.other := by
  rw [var]
  cases cur with
  | lower => exact if_pos (show 0 + c < b.nb by omega)
  | upper => exact if_neg (show ¬ b.nb + c < b.nb by omega)

theorem nextPool_other (live : Live b m w img cur c ws) :
    w.var.nextPool = b.first cur.other :=
  cursor_nextPool live.shape.inside live.var

private theorem receiving_shape {new : Pool} (vacant : Vacant b img new) :
    Shape b (img.setState new 0 .receive) new .receive 0 [] ∧
      Tidy b (img.setState new 0 .receive) new 0 := by
  have tidy : Tidy b (img.setState new 0 .receive) new 0 := by
    intro i after small
    simp [Image.setState, vacant.state i small, show i ≠ 0 by omega]
  refine ⟨⟨vacant.log, b.pos, by simp, by simp, ?_, by simp [Image.setState], ?_⟩, tidy⟩
  · intro i before
    omega
  · exact fun i after small => Or.inl (tidy i after small)

theorem Shape.full_pages (shape : Shape b img cur .active c ws) (full : ws.length = b.capacity) :
    ∀ i < b.nb, img.state cur i = .active ∨ img.state cur i = .valid := by
  intro i bound
  have last := shape.last_page full
  by_cases here : i = c
  · exact Or.inl (here ▸ shape.current)
  · exact Or.inr (shape.full i (by omega))

section Reception

variable {new : Pool} {start : Image} {ows : List Word}

/-- Whatever the new pool has received so far, the old one still answers as `m`. -/
theorem Copying.receiving (copying : Copying b new start ows m' img c ws)
    (answers : Answers b ows m) (log : start.log new.other = some ows)
    (states : ∀ i < b.nb, start.state new.other i ≠ .receive ∧ start.state new.other i ≠ .erased) :
    Receiving b m m' img := by
  refine ⟨new, c, ws, ows, ?_, ⟨.refl new img, copying.shape, copying.distinct, copying.merged⟩,
    answers, ?_⟩
  · rw [copying.other.log, log]
  · intro i bound
    rw [copying.other.state]
    exact states i bound

private theorem copying_nothing (answers : Answers b ows m) (same : SameOther new start img)
    (shape : Shape b img new .receive c []) : Copying b new start ows m img c [] := by
  refine ⟨same, shape, .nil _, ?_⟩
  intro v bound
  rw [latest_nil, Option.none_or]
  exact answers v bound

private theorem copying_first (answers : Answers b ows m) (inside : addr < b.capacity)
    (data : Data) (same : SameOther new start img)
    (shape : Shape b img new .receive c ([] ++ [element addr data])) :
    Copying b new start ows (Function.update m addr (some data)) img c
      ([] ++ [element addr data]) := by
  have small : addr < 0x4000 := Nat.lt_of_lt_of_le inside b.small
  refine ⟨same, shape, Distinct.concat (.nil _) (decode_element small)
    (List.mem_range.mpr inside) rfl, ?_⟩
  intro v bound
  rw [latest_concat [] (decode_element small), Function.update_apply]
  by_cases here : addr = v
  · simp [here]
  · simpa [here, Ne.symm here] using answers v bound

private theorem full_states
    (old : ∀ i < b.nb, start.state new.other i = .active ∨ start.state new.other i = .valid) :
    ∀ i < b.nb, start.state new.other i ≠ .receive ∧ start.state new.other i ≠ .erased := by
  intro i bound
  rcases old i bound with active | valid
  · rw [active]
    decide
  · rw [valid]
    decide

/-- The transfer into the new pool, whose first word is the new value. -/
private theorem wp_fillPool {u : World} (honest : Honest env) (answers : Answers b ows m)
    (log : start.log new.other = some ows)
    (old : ∀ i < b.nb, start.state new.other i = .active ∨ start.state new.other i = .valid)
    (stored : Holds b u.mem img)
    (copying : Copying b new start ows (Function.update m addr (some data)) img c
      ([] ++ [element addr data]))
    (tidy : Tidy b img new c) (ram : u.var = cursor b new c ([] ++ [element addr data]).length)
    (inside : addr < b.capacity) (cache : u.cache = w.cache)
    (full : w.var.nbWrittenElements = b.capacity)
    (crash : ∀ img', Interrupted b m (Function.update m addr (some data)) img' → Safe b Q img') :
    wp (handle env) (Crash Q) (Wrote env Q b (Function.update m addr (some data)) w)
      (do
        let status ← eeTransfer addr (b.first new + 0)
        if status ≠ .ok then pure .writeError else pure .cleanNeeded) u := by
  have small : addr < 0x4000 := Nat.lt_of_lt_of_le inside b.small
  refine wp_check (wp_eeTransfer honest log stored copying ram tidy inside ?_ ?_ ?_ ?_ ?_
    fun v img' c' ws' a b_ c d e f => (⟨img', c', ws', a, b_, c, d, e, f⟩ :
      ∃ img' c' ws', Holds b v.mem img' ∧ Shape b img' new .active c' ws' ∧
        Answers b ws' (Function.update m addr (some data)) ∧
        (∀ i < b.nb, img'.state new.other i = .erasing) ∧
        v.var = cursor b new c' ws'.length ∧ v.cache = u.cache))
    (fun t busy safe => Or.inr (Or.inr ⟨Or.inl rfl, busy, safe⟩)) ?_
  · rw [latest_concat [] (decode_element small), if_pos rfl, Function.update_self]
  · intro v here
    rw [latest_concat [] (decode_element small), if_neg (Ne.symm here), latest_nil]
  · intro i bound
    rw [copying.other.state]
    exact old i bound
  · intro marked img' c' ws' mark copied
    refine crash img' (Or.inr (Or.inr (Or.inr (copied.receiving answers ?_ ?_))))
    · rw [mark.log, copying.other.log, log]
    · intro i bound
      rcases mark.marked i with kept | erasing
      · rw [kept, copying.other.state]
        exact full_states old i bound
      · rw [erasing]
        decide
  · intro img' c' ws' shape answers erasing
    exact crash img' (Or.inr (Or.inl ⟨new, c', ws', shape, answers,
      fun i bound => by rw [erasing i bound]; decide⟩))
  intro v holds
  rcases holds with ⟨img', c', ws', final, shape, answers, erasing, ram', cache'⟩
  rw [wp_pure]
  exact Or.inr (Or.inl ⟨rfl, ⟨img', new, c', ws', ⟨final, shape, ram', answers⟩, erasing⟩,
    cache'.trans cache, full⟩)

end Reception

private theorem wp_changePool {new : Pool} (honest : Honest env)
    (live : Live b m w img new.other c ws) (vacant : Vacant b img new) (data : Data)
    (inside : addr < b.capacity) (full : ws.length = b.capacity)
    (crash : ∀ img', Interrupted b m (Function.update m addr (some data)) img' → Safe b Q img') :
    wp (handle env) (Crash Q) (Wrote env Q b (Function.update m addr (some data)) w)
      (changePool addr data) w := by
  have small : addr < 0x4000 := Nat.lt_of_lt_of_le inside b.small
  have next : w.var.nextPool = b.first new := by
    rw [nextPool_other live, Pool.other_other]
  have settled : Settled b m img := ⟨new.other, c, ws, live.shape, live.answers, fun i bound => by
    rw [Pool.other_other, vacant.state i bound]
    decide⟩
  have before := crash img (.settled settled)
  rcases receiving_shape vacant with ⟨shape, tidy⟩
  have other := SameOther.setState new img 0 .receive
  have old : ∀ i < b.nb, (img.setState new 0 .receive).state new.other i = .active ∨
      (img.setState new 0 .receive).state new.other i = .valid := by
    intro i bound
    rw [other.state]
    exact live.shape.full_pages full i bound
  have states := full_states old
  have log : (img.setState new 0 .receive).log new.other = some ws := live.shape.log
  have empty : ∀ img' c', SameOther new (img.setState new 0 .receive) img' →
      Shape b img' new .receive c' [] → Receiving b m m img' := fun img' c' same shape' =>
    (copying_nothing live.answers same shape').receiving live.answers log states
  have start := crash _ (Or.inr (Or.inr (Or.inl (empty _ 0 (.refl _ _) shape))))
  rw [changePool, wp_bind, wp_getVar]
  refine ⟨before _ live.holds, ?_⟩
  simp only [next]
  rw [wp_bind, ← Nat.add_zero (b.first new)]
  refine wp_eeGetState_image live.mounted live.holds b.pos (before _ live.holds) ?_
  rw [vacant.state 0 b.pos, if_neg (not_not_intro rfl)]
  refine wp_check (wp_eeSetState honest live.mounted live.holds b.pos (by decide)
    (by rw [vacant.state 0 b.pos]; decide) before start fun t after same => And.intro after same)
    (fun t busy safe => Or.inr (Or.inr ⟨Or.inl rfl, busy, safe⟩)) ?_
  intro t holds
  rcases holds with ⟨after, same⟩
  rw [wp_bind, wp_setVar]
  refine ⟨start _ after, ?_⟩
  have ram : { w.var with
      currentWritePage := b.first new + 0
      nbWrittenElements := 0
      nextWriteOffset := eeHeaderSize } = cursor b new 0 ([] : List Word).length := by
    rw [live.var]
    rfl
  rw [ram]
  refine wp_check (wp_eeWriteEl honest small (w := { t with var := cursor b new 0 _ }) after shape
    (by decide) (by decide) rfl (Nat.lt_of_le_of_lt (Nat.zero_le _) inside) ?_ ?_
    fun u img' c' a b_ c d e f => (⟨img', c', a, b_, c, d, e, f⟩ : ∃ img' c',
      Holds b u.mem img' ∧ SameOther new (img.setState new 0 .receive) img' ∧
      Shape b img' new .receive c' ([] ++ [element addr data]) ∧ Tidy b img' new c' ∧
      u.var = cursor b new c' ([] ++ [element addr data]).length ∧ u.cache = t.cache))
    (fun t busy safe => Or.inr (Or.inr ⟨Or.inl rfl, busy, safe⟩)) ?_
  · intro img' holds
    rcases holds with ⟨same', c', shape'⟩
    exact crash img' (Or.inr (Or.inr (Or.inl (empty img' c' same' shape'))))
  · intro img' holds
    rcases holds with ⟨same', c', shape'⟩
    exact crash img' (Or.inr (Or.inr (Or.inr
      ((copying_first live.answers inside data same' shape').receiving live.answers log states))))
  intro u holds
  rcases holds with ⟨img', c', stored, same', shape', tidy', ram', cache⟩
  exact wp_fillPool honest live.answers log old stored
    (copying_first live.answers inside data same' shape') tidy' ram' inside
    (cache.trans same.cache) (by rw [live.var]; exact full) crash

/-- `EEE_Write` in an idle store: the variable takes the new value, and a reset on the way
finds one of the states of an interrupted write. -/
theorem wp_eeeWrite (honest : Honest env) (idle : Idle b m w) (data : Data)
    (inside : addr < b.capacity)
    (crash : ∀ img', Interrupted b m (Function.update m addr (some data)) img' → Safe b Q img') :
    wp (handle env) (Crash Q) (Wrote env Q b (Function.update m addr (some data)) w)
      (eeeWrite addr data) w := by
  rcases idle with ⟨img, cur, c, ws, live, vacant⟩
  have before : Q w.mem := crash img (.settled (vacant.settled live)) _ live.holds
  have length := (live.holds.log _ _ live.shape.log).length
  have counted : w.var.nbWrittenElements < eeNbMaxElt * w.var.nbPages ↔ ws.length < b.capacity := by
    rw [live.var]
    exact Iff.rfl
  have finish : ∀ status t, Wrote env Q b (Function.update m addr (some data)) w status t →
      Crash Q (.leave (.eeeWrite addr data)) t ∧
        Wrote env Q b (Function.update m addr (some data)) w status t := by
    intro status t wrote
    refine ⟨?_, wrote⟩
    rcases wrote with ⟨_, ⟨img', cur', c', ws', live', vacant'⟩, _⟩ |
      ⟨_, ⟨img', cur', c', ws', live', erasing⟩, _⟩ | ⟨_, _, safe⟩
    · exact crash img' (Or.inr (Or.inl (vacant'.settled live'))) _ live'.holds
    · exact crash img' (Or.inr (Or.inl ⟨cur', c', ws', live'.shape, live'.answers,
        fun i bound => by rw [erasing i bound]; decide⟩)) _ live'.holds
    · exact safe
  rw [eeeWrite, wp_traced, wp_bind, wp_getVar]
  refine ⟨before, before, ?_⟩
  by_cases room : ws.length < b.capacity
  · rw [if_pos (counted.mpr room)]
    exact wp_post (wp_write_here honest live vacant data inside room crash) finish
  · rw [if_neg (fun less => room (counted.mp less))]
    obtain ⟨new, rfl⟩ : ∃ new : Pool, cur = new.other := ⟨cur.other, (Pool.other_other cur).symm⟩
    rw [Pool.other_other] at vacant
    exact wp_post (wp_changePool honest live vacant data inside (by omega) crash) finish

theorem wp_eeeClean (honest : Honest env) (pending : Pending b m w)
    (crash : ∀ img', Settled b m img' → Safe b Q img') :
    wp (handle env) (Crash Q) (Ends env Q fun t => Idle b m t ∧ t.cache = w.cache) eeeClean w := by
  rcases pending with ⟨img, cur, c, ws, live, erasing⟩
  have settled : ∀ upTo, Settled b m (img.erase b.nb cur.other 0 upTo) := by
    intro upTo
    refine ⟨cur, c, ws, live.shape.congr ?_ ?_, live.answers, fun i bound => ?_⟩
    · funext i
      simp [Image.erase]
    · simp [Image.erase]
    · simp only [Image.erase, true_and, Nat.zero_le, erasing i bound]
      split <;> decide
  have before : Q w.mem := crash img ⟨cur, c, ws, live.shape, live.answers,
    fun i bound => by rw [erasing i bound]; decide⟩ _ live.holds
  have erased : ∀ img', img' = img.erase b.nb cur.other 0 (0 + b.nb) → ∀ t : World,
      Holds b t.mem img' → SameRam w t → Idle b m t := by
    rintro img' rfl t after same
    rcases settled (0 + b.nb) with ⟨cur', c', ws', shape, answers, _⟩
    refine ⟨_, cur, c, ws, ⟨after, live.shape.congr ?_ ?_, same.var.trans live.var, live.answers⟩,
      ⟨fun i bound => ?_, ?_⟩⟩
    · funext i
      simp [Image.erase]
    · simp [Image.erase]
    · simp [Image.erase, bound]
    · simp [Image.erase]
  rw [eeeClean, wp_traced, wp_bind, wp_getVar]
  refine ⟨before, before, ?_⟩
  simp only [nextPool_other live]
  rw [wp_bind, ← Nat.add_zero (b.first cur.other)]
  refine wp_eeGetState_image live.mounted live.holds b.pos before ?_
  rw [erasing 0 b.pos, if_neg (not_not_intro rfl), live.mounted.nbPages]
  refine wp_erase honest live.mounted live.holds (by omega)
    (fun k _ => crash _ (settled (0 + k)))
    (fun t busy safe => ⟨safe, .erase_error busy safe⟩) ?_
  intro t after same
  have safe := crash _ (settled (0 + b.nb)) _ after
  exact ⟨safe, .good ⟨erased _ rfl t after same, same.cache⟩⟩

theorem wp_format (honest : Honest env) (crash : ∀ mem, Q mem) :
    wp (handle env) (Crash Q)
      (Ends env Q fun t => Idle b (fun _ => none) t ∧ t.cache = w.cache ∧
        t.var = cursor b .lower 0 0)
      (eeeInit b.nb true b.base) w := by
  rw [eeeInit, wp_bind, wp_setVar]
  refine ⟨crash _, ?_⟩
  rw [if_pos rfl, wp_bind, wp_getVar]
  refine ⟨crash _, ?_⟩
  have number : (eeReset b.base b.nb).flashPage 0 = b.number 0 := rfl
  rw [wp_bind]
  refine wp_fdEraseSectors honest _ _ (fun _ _ => crash _) ?_ ?_
  · intro t after same
    have blank : Holds b t.mem Image.blank := by
      rw [after]
      exact Holds.blank w.mem
    have mounted : Mounted b t.var := by
      rw [same.var]
      exact ⟨rfl, rfl⟩
    have shape : Shape b (Image.blank.setState .lower 0 .active) .lower .active 0 [] := by
      refine ⟨rfl, b.pos, by simp, by simp, fun i before => by omega, by simp [Image.setState],
        fun i after small => Or.inl ?_⟩
      simp [Image.setState, Image.blank, show i ≠ 0 by omega]
    simp only [ne_eq, not_true_eq_false, ↓reduceIte]
    change wp _ _ _ (eeSetState (b.first .lower + 0) .active) t
    refine wp_eeSetState honest mounted blank b.pos (by decide)
      (by decide) (fun _ _ => crash _) (fun _ _ => crash _) ?_
    intro u final ram
    have start : u.var = cursor b .lower 0 0 := ram.var.trans same.var
    refine ⟨⟨_, .lower, 0, [], ⟨final, shape, start, fun v _ => rfl⟩, ⟨fun i _ => ?_, rfl⟩⟩,
      ram.cache.trans same.cache, start⟩
    simp [Image.setState, Image.blank, Pool.other]
  · intro busy k small value failed t after same
    simp only [ne_eq, failed, not_false_eq_true, ↓reduceIte, wp_pure]
    exact .erase_error busy (crash _)

end Rules

end Baelux.Eeprom

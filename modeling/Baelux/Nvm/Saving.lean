import Baelux.Eeprom.Recovery
import Baelux.Nvm.Record

/-! What saving and reading a record does to the store, word by word, when a core
may refuse a flash operation at any moment. -/

namespace Baelux.Nvm

open Effect Flash Eeprom AppendLog

def capacityBytes : Nat := 4 * (eeNbMaxElt * bank0Pages - 1)

def stored (m : Store) (record : Nat → Data) (k : Nat) : Store := fun v =>
  if v < k then some (record v) else m v

theorem stored_zero (m : Store) (record : Nat → Data) : stored m record 0 = m := by
  funext v
  simp [stored]

theorem stored_succ (m : Store) (record : Nat → Data) (k : Nat) :
    Function.update (stored m record k) k (some (record k)) = stored m record (k + 1) := by
  funext v
  rw [Function.update_apply]
  by_cases here : v = k
  · simp [stored, here]
  · simp only [stored, here, ↓reduceIte]
    split <;> split <;> first | rfl | omega

theorem numWords_bounds {length : Data} (short : length.toNat ≤ capacityBytes) :
    0 < numWords length ∧ numWords length ≤ nvmBank.capacity := by
  have bytes : capacityBytes = 2028 := rfl
  have words : nvmBank.capacity = 508 := rfl
  rw [words]
  unfold numWords
  split <;> omega

/-! ## A write while a clean is outstanding -/

section Outstanding

variable {env : Env} {Q : Memory → Prop} {w : World} {b : Bank} {m : Store} {addr : Nat}

theorem Pending.settled (pending : Pending b m w) : Content b (Settled b m) w.mem := by
  rcases pending with ⟨img, cur, c, ws, live, erasing⟩
  exact ⟨img, live.holds, cur, c, ws, live.shape, live.answers,
    fun i bound => by rw [erasing i bound]; decide⟩

theorem Idle.settled (idle : Idle b m w) : Content b (Settled b m) w.mem := by
  rcases idle with ⟨img, cur, c, ws, live, vacant⟩
  exact ⟨img, live.holds, vacant.settled live⟩

def WroteOutstanding (env : Env) (Q : Memory → Prop) (b : Bank) (m m' : Store) (w : World)
    (status : Status) (t : World) : Prop :=
  (status = .ok ∧ Pending b m' t ∧ t.cache = w.cache) ∨
    (status = .stateError ∧ Pending b m t) ∨ Refused env Q status t

theorem wp_eeeWrite_pending (honest : Honest env) (pending : Pending b m w) (data : Data)
    (inside : addr < b.capacity)
    (crash : ∀ img', Interrupted b m (Function.update m addr (some data)) img' → Safe b Q img') :
    wp (handle env) (Crash Q)
      (WroteOutstanding env Q b m (Function.update m addr (some data)) w)
      (eeeWrite addr data) w := by
  have whole := pending
  rcases pending with ⟨img, cur, c, ws, live, erasing⟩
  have before : Q w.mem := by
    rcases Pending.settled whole with ⟨img', holds, kind⟩
    exact crash img' (.settled kind) _ holds
  have others : ∀ i < b.nb, img.state cur.other i ≠ .receive ∧ img.state cur.other i ≠ .active := by
    intro i bound
    rw [erasing i bound]
    decide
  have counted : w.var.nbWrittenElements < eeNbMaxElt * w.var.nbPages ↔ ws.length < b.capacity := by
    rw [live.var]
    exact Iff.rfl
  rw [eeeWrite, wp_traced, wp_bind, wp_getVar]
  refine ⟨before, before, ?_⟩
  by_cases room : ws.length < b.capacity
  · rw [if_pos (counted.mpr room)]
    apply wp_post (live.wp_write honest data inside room others crash)
    rintro status t (⟨rfl, ⟨img', c', same, after⟩, cache⟩ | refused)
    · have waiting : Pending b (Function.update m addr (some data)) t :=
        ⟨img', cur, c', _, after, fun i bound => by rw [same.state]; exact erasing i bound⟩
      rcases Pending.settled waiting with ⟨img₁, holds, kind⟩
      exact ⟨crash img₁ (Or.inr (Or.inl kind)) _ holds, Or.inl ⟨rfl, waiting, cache⟩⟩
    · exact ⟨refused.2.2, Or.inr (Or.inr refused)⟩
  · rw [if_neg (fun less => room (counted.mp less)), changePool, wp_bind, wp_getVar]
    refine ⟨before, ?_⟩
    dsimp only
    rw [nextPool_other live, wp_bind, ← Nat.add_zero (b.first cur.other)]
    refine wp_eeGetState_image live.mounted live.holds b.pos before ?_
    rw [erasing 0 b.pos, if_pos (by decide)]
    exact ⟨before, Or.inr (Or.inl ⟨rfl, whole⟩)⟩

theorem wp_eeeClean_single (honest : Honest env) (single : b.nb = 1) (pending : Pending b m w)
    (crash : ∀ img', Settled b m img' → Safe b Q img') :
    wp (handle env) (Crash Q)
      (fun _ t => (Idle b m t ∨ (¬ Free env ∧ Pending b m t)) ∧ t.cache = w.cache) eeeClean w := by
  have whole := pending
  have kept : ∀ t : World, t.mem = w.mem → SameRam w t → Pending b m t := by
    intro t mem same
    rcases whole with ⟨img, cur, c, ws, live, erasing⟩
    exact ⟨img, cur, c, ws, ⟨mem ▸ live.holds, live.shape, same.var.trans live.var, live.answers⟩,
      erasing⟩
  rcases pending with ⟨img, cur, c, ws, live, erasing⟩
  rcases Pending.settled whole with ⟨img₀, holds₀, kind₀⟩
  have before : Q w.mem := crash img₀ kind₀ _ holds₀
  have erased : Holds b (erasedPages w.mem (b.number (b.first cur.other + 0)) 1)
      (img.erase b.nb cur.other 0 (0 + 1)) := live.holds.erase (by omega)
  have shape : Shape b (img.erase b.nb cur.other 0 (0 + 1)) cur .active c ws := by
    refine live.shape.congr ?_ ?_
    · funext i
      simp [Image.erase]
    · simp [Image.erase]
  have vacant : Vacant b (img.erase b.nb cur.other 0 (0 + 1)) cur.other := by
    refine ⟨fun i bound => ?_, ?_⟩
    · have only : i < 1 := by omega
      simp only [Image.erase, true_and, Nat.zero_le, Nat.zero_add, only, ↓reduceIte]
    · simp [Image.erase, single]
  have final : Q (erasedPages w.mem (b.number (b.first cur.other + 0)) 1) :=
    crash _ ⟨cur, c, ws, shape, live.answers, fun i bound => by rw [vacant.state i bound]; decide⟩
      _ erased
  rw [eeeClean, wp_traced, wp_bind, wp_getVar]
  refine ⟨before, before, ?_⟩
  simp only [nextPool_other live]
  rw [wp_bind, ← Nat.add_zero (b.first cur.other)]
  refine wp_eeGetState_image live.mounted live.holds b.pos before ?_
  rw [erasing 0 b.pos, if_neg (not_not_intro rfl), live.mounted.nbPages, single,
    live.mounted.flashPage, wp_bind]
  refine wp_fdEraseSectors honest _ _ (fun k small => ?_) ?_ ?_
  · obtain rfl | rfl : k = 0 ∨ k = 1 := by omega
    · rwa [erasedPages_zero]
    · exact final
  · intro t after same
    simp only [ne_eq, not_true_eq_false, ↓reduceIte, wp_pure]
    refine ⟨?_, Or.inl ⟨_, cur, c, ws, ⟨after ▸ erased, shape, same.var.trans live.var,
      live.answers⟩, vacant⟩, same.cache⟩
    rw [Crash, after]
    exact final
  · intro busy k small value failed t after same
    obtain rfl : k = 0 := by omega
    rw [erasedPages_zero] at after
    simp only [ne_eq, failed, not_false_eq_true, ↓reduceIte, wp_pure]
    refine ⟨?_, Or.inr ⟨busy, kept t after same⟩, same.cache⟩
    rw [Crash, after]
    exact before

end Outstanding

/-! ## Saving a record -/

section Saving

variable {env : Env} {waits : Prop} {w : World} {m : Store} {record : Nat → Data} {n k : Nat}

def Torn (m : Store) (record : Nat → Data) (n : Nat) (mem : Memory) : Prop :=
  ∃ k < n, Content nvmBank (Interrupted nvmBank (stored m record k) (stored m record (k + 1))) mem

/-- The first `k` words are written. A clean is outstanding only if it `waits`. -/
structure Going (waits : Prop) (m : Store) (record : Nat → Data) (k : Nat) (w : World) : Prop where
  cache : w.cache = record
  store : Idle nvmBank (stored m record k) w ∨
    (waits ∧ Pending nvmBank (stored m record k) w)

theorem Going.settled (going : Going waits m record k w) :
    Content nvmBank (Settled nvmBank (stored m record k)) w.mem := by
  rcases going.store with idle | ⟨_, pending⟩
  · exact Idle.settled idle
  · exact Pending.settled pending

theorem Going.torn (going : Going waits m record k w) (inside : k < n) : Torn m record n w.mem := by
  rcases going.settled with ⟨img, holds, kind⟩
  exact ⟨k, inside, img, holds, .settled kind⟩

theorem Going.torn_after (going : Going waits m record (k + 1) w) (inside : k < n) :
    Torn m record n w.mem := by
  rcases going.settled with ⟨img, holds, kind⟩
  exact ⟨k, inside, img, holds, Or.inr (Or.inl kind)⟩

private theorem wp_writeWord (honest : Honest env) (late : ¬ Free env → waits)
    (going : Going waits m record k w) (inside : k < n) (small : n ≤ nvmBank.capacity) :
    wp (handle env) (Crash (Torn m record n)) (fun status t =>
      (status = .ok ∧ Going waits m record (k + 1) t) ∨
      (status = .cleanNeeded ∧ Pending nvmBank (stored m record (k + 1)) t ∧ t.cache = record) ∨
      (status ≠ .ok ∧ status ≠ .cleanNeeded ∧ waits ∧ Torn m record n t.mem))
      (eeeWrite k (record k)) w := by
  have safe : ∀ img', Interrupted nvmBank (stored m record k)
      (Function.update (stored m record k) k (some (record k))) img' →
      Safe nvmBank (Torn m record n) img' := by
    intro img' kind mem holds
    rw [stored_succ] at kind
    exact ⟨k, inside, img', holds, kind⟩
  have bound : k < nvmBank.capacity := Nat.lt_of_lt_of_le inside small
  have error : ∀ {status t}, Refused env (Torn m record n) status t →
      status ≠ .ok ∧ status ≠ .cleanNeeded ∧ waits ∧ Torn m record n t.mem := by
    rintro status t ⟨rfl | rfl, busy, torn⟩
    · exact ⟨by decide, by decide, late busy, torn⟩
    · exact ⟨by decide, by decide, late busy, torn⟩
  rcases going.store with idle | ⟨busy, pending⟩
  · apply wp_post (wp_eeeWrite honest idle (record k) bound safe)
    rw [stored_succ]
    rintro status t (⟨ok, after, cache, _⟩ | ⟨needed, waiting, cache, _⟩ | refused)
    · exact Or.inl ⟨ok, cache.trans going.cache, Or.inl after⟩
    · exact Or.inr (Or.inl ⟨needed, waiting, cache.trans going.cache⟩)
    · exact Or.inr (Or.inr (error refused))
  · apply wp_post (wp_eeeWrite_pending honest pending (record k) bound safe)
    rw [stored_succ]
    rintro status t (⟨ok, waiting, cache⟩ | ⟨rfl, waiting⟩ | refused)
    · exact Or.inl ⟨ok, cache.trans going.cache, Or.inr ⟨busy, waiting⟩⟩
    · rcases Pending.settled waiting with ⟨img, holds, kind⟩
      exact Or.inr (Or.inr ⟨by decide, by decide, busy, k, inside, img, holds, .settled kind⟩)
    · exact Or.inr (Or.inr (error refused))

/-- The save loop writes word after word; unless a core refuses an operation all of them. -/
theorem wp_writeLoop (honest : Honest env) (late : ¬ Free env → waits)
    (small : n ≤ nvmBank.capacity) (pos : 0 < n) (remaining : Nat) (reach : k + remaining = n)
    (status : Status) (going : Going waits m record k w) :
    wp (handle env) (Crash (Torn m record n))
      (fun _ t => Torn m record n t.mem ∧ (¬ waits → Going waits m record n t))
      (writeLoop remaining k status) w := by
  induction remaining generalizing w k status with
  | zero =>
      obtain rfl : k = n := by omega
      obtain ⟨last, rfl⟩ : ∃ last, k = last + 1 := ⟨k - 1, by omega⟩
      exact ⟨going.torn_after (Nat.lt_succ_self last), fun _ => going⟩
  | succ remaining ih =>
      have inside : k < n := by omega
      have before := going.torn inside
      rw [writeLoop, wp_bind, wp_getCache, going.cache]
      refine ⟨before, ?_⟩
      rw [wp_bind, zigbeeDbStartAddr, Nat.add_zero]
      apply wp_post (wp_writeWord honest late going inside small)
      rintro status t (⟨rfl, next⟩ | ⟨rfl, waiting, cache⟩ | ⟨failed, clean, held, torn⟩)
      · rw [if_pos rfl]
        exact ih (by omega) _ next
      · rw [if_neg (by decide), if_pos rfl, wp_bind]
        have single : wp (handle env) (Crash (Torn m record n))
            (fun _ u => (Idle nvmBank (stored m record (k + 1)) u ∨
              (¬ Free env ∧ Pending nvmBank (stored m record (k + 1)) u)) ∧ u.cache = t.cache)
            eeeClean t := by
          apply wp_eeeClean_single honest rfl waiting
          intro img' kind mem holds
          exact ⟨k, inside, img', holds, Or.inr (Or.inl kind)⟩
        apply wp_post single
        intro _ u holds
        rcases holds with ⟨store, same⟩
        exact ih (by omega) _ ⟨same.trans cache, store.imp_right (And.imp_left late)⟩
      · rw [if_neg failed, if_neg clean]
        exact ⟨torn, fun free => absurd held free⟩

/-- `APP_ZIGBEE_NVM_Write` of a record that fits the bank. -/
theorem wp_appZigbeeNvmWrite (honest : Honest env) (late : ¬ Free env → waits)
    (start : Going waits m w.cache 0 w) (short : (w.cache 0).toNat ≤ capacityBytes) :
    wp (handle env) (Crash (Torn m w.cache (numWords (w.cache 0))))
      (fun _ t => Torn m w.cache (numWords (w.cache 0)) t.mem ∧
        (¬ waits → Going waits m w.cache (numWords (w.cache 0)) t)) appZigbeeNvmWrite w := by
  rcases numWords_bounds short with ⟨pos, small⟩
  have before := start.torn pos
  rw [appZigbeeNvmWrite, wp_traced, wp_bind, wp_getCache]
  refine ⟨before, before, ?_⟩
  rw [wp_bind]
  apply wp_post (wp_writeLoop honest late small pos _ (Nat.zero_add _) .ok start)
  intro status t holds
  rcases holds with ⟨torn, done⟩
  exact ⟨torn, torn, done⟩

theorem run_appZigbeeNvmWrite :
    (run (handle env) appZigbeeNvmWrite w).2 =
      (run (handle env) (writeLoop (numWords (w.cache 0)) 0 .ok) w).2 := by
  simp only [appZigbeeNvmWrite, traced, run_bind, run_pure]
  rfl

theorem visited_appZigbeeNvmWrite {t : World}
    (visit : t ∈ visited (handle env) (writeLoop (numWords (w.cache 0)) 0 .ok) w) :
    t ∈ visited (handle env) appZigbeeNvmWrite w := by
  rw [appZigbeeNvmWrite, traced]
  apply visited_bind_right
  apply visited_bind_left
  apply visited_bind_right
  apply visited_bind_left
  exact visit

structure Appended (n : Nat) (w t : World) : Prop where
  cache : t.cache = w.cache
  count : t.var.nbWrittenElements = w.var.nbWrittenElements + n
  pool : t.var.currentWritePage < nvmBank.nb ↔ w.var.currentWritePage < nvmBank.nb

theorem Appended.trans {t u : World} {i : Nat} (first : Appended i w t) (second : Appended k t u) :
    Appended (i + k) w u :=
  ⟨second.cache.trans first.cache, by rw [second.count, first.count, Nat.add_assoc],
    second.pool.trans first.pool⟩

theorem write_appends (idle : Idle nvmBank m w) (inside : k < nvmBank.capacity) (data : Data)
    (room : w.var.nbWrittenElements < nvmBank.capacity) :
    (run (handle quiet) (eeeWrite k data) w).1 = .ok ∧
      Idle nvmBank (Function.update m k (some data)) (run (handle quiet) (eeeWrite k data) w).2 ∧
      Appended 1 w (run (handle quiet) (eeeWrite k data) w).2 := by
  rcases write_cases idle inside data with ⟨ok, after, cache, more⟩ | ⟨_, _, _, full⟩ | refused
  · exact ⟨ok, after, cache, more.count, more.pool⟩
  · omega
  · exact absurd refused not_refused

theorem run_writeLoop_room (remaining rest k : Nat) (idle : Idle nvmBank (stored m record k) w)
    (cache : w.cache = record) (small : k + remaining ≤ nvmBank.capacity)
    (room : w.var.nbWrittenElements + remaining ≤ nvmBank.capacity) :
    ∃ t : World, Idle nvmBank (stored m record (k + remaining)) t ∧ Appended remaining w t ∧
      run (handle quiet) (writeLoop (remaining + rest) k .ok) w =
        run (handle quiet) (writeLoop rest (k + remaining) .ok) t ∧
      ∀ u ∈ visited (handle quiet) (writeLoop rest (k + remaining) .ok) t,
        u ∈ visited (handle quiet) (writeLoop (remaining + rest) k .ok) w := by
  induction remaining generalizing w k with
  | zero =>
      rw [Nat.zero_add, Nat.add_zero]
      exact ⟨w, idle, ⟨rfl, rfl, Iff.rfl⟩, rfl, fun _ present => present⟩
  | succ remaining ih =>
      obtain ⟨ok, next, appended⟩ := write_appends idle (k := k) (by omega) (record k) (by omega)
      rw [stored_succ] at next
      have count := appended.count
      obtain ⟨t, after, more, runs, visits⟩ := ih (k + 1) next (appended.cache.trans cache)
        (by omega) (by omega)
      have order : k + (remaining + 1) = k + 1 + remaining := by omega
      have length : remaining + 1 + rest = remaining + rest + 1 := by omega
      rw [order, length]
      refine ⟨t, after, ?_, ?_, ?_⟩
      · rw [Nat.add_comm remaining 1]
        exact appended.trans more
      · rw [← runs, writeLoop, run_bind]
        change run _ (eeeWrite (k + 0) (w.cache k) >>= _) w = _
        rw [run_bind, cache, Nat.add_zero, ok, if_pos rfl]
      · intro u present
        rw [writeLoop]
        apply visited_bind_right
        change u ∈ visited _ (eeeWrite (k + 0) (w.cache k) >>= _) w
        apply visited_bind_right
        rw [cache, Nat.add_zero, ok, if_pos rfl]
        exact visits u present

end Saving

/-! ## Reading a record -/

section Reading

variable {env : Env} {w : World} {m : Store} {n : Nat}

structure Delivers (m : Store) (cache : Nat → Data) : Prop where
  real : cache 0 ≠ 0
  fits : (cache 0).toNat ≤ stPersistMaxAllocSz
  words : ∀ i < numWords (cache 0), m i = some (cache i)

theorem Delivers.length {cache : Nat → Data} (delivers : Delivers m cache) :
    m 0 = some (cache 0) :=
  delivers.words 0 (numWords_pos delivers.fits)

theorem Delivers.unique {got record : Nat → Data} (delivers : Delivers m got)
    (holds : Delivers m record) : ∀ i < numWords (record 0), got i = record i := by
  intro i inside
  have head : got 0 = record 0 := Option.some.inj (delivers.length.symm.trans holds.length)
  have word := delivers.words i (by rwa [head])
  exact Option.some.inj (word.symm.trans (holds.words i inside))

def Answering (env : Env) (m : Store) (n : Nat) (w : World) : Prop :=
  ∀ t : World, t.mem = w.mem → t.var = w.var → ∀ v < n, ∀ R : Option Data → World → Prop,
    R (m v) t → wp (handle env) (Crash fun _ => True) R (eeeRead v) t

theorem Serves.answering (serves : Serves nvmBank m w) :
    Answering env m nvmBank.capacity w := by
  intro t mem var v inside R result
  rcases serves with ⟨img, cur, c, ws, holds, log, small, high, cursor, answers⟩
  have moved : Serves nvmBank m t :=
    ⟨img, cur, c, ws, mem ▸ holds, log, small, high, var.trans cursor, answers⟩
  exact moved.read inside trivial result

private theorem wp_readLoop {R : Bool → World → Prop} (remaining k : Nat)
    (answering : Answering env m n w) (small : k + remaining ≤ n)
    (read : ∀ i < k, m i = some (w.cache i))
    (whole : ∀ t : World, (∀ i < k, t.cache i = w.cache i) →
      (∀ i < k + remaining, m i = some (t.cache i)) → R true t)
    (missing : ∀ i t, i < k + remaining → m i = none → R false t) :
    wp (handle env) (Crash fun _ => True) R (readLoop remaining k) w := by
  induction remaining generalizing w k with
  | zero => exact whole w (fun _ _ => rfl) read
  | succ remaining ih =>
      rw [readLoop, wp_bind, zigbeeDbStartAddr, Nat.add_zero]
      apply answering w rfl rfl k (by omega)
      cases found : m k with
      | none => exact missing k w (by omega) found
      | some data =>
          simp only [wp_bind, wp_setCache]
          refine ⟨trivial, ih (k + 1) answering (by omega) ?_ ?_ ?_⟩
          · intro i before
            change m i = some (Function.update w.cache k data i)
            rw [Function.update_apply]
            by_cases here : i = k
            · rw [if_pos here, here, found]
            · rw [if_neg here]
              exact read i (by omega)
          · intro t kept all
            apply whole t
            · intro i before
              exact (kept i (by omega)).trans (Function.update_of_ne (by omega) _ _)
            · intro i bound
              exact all i (by omega)
          · intro i t bound
            exact missing i t (by omega)

/-- `APP_ZIGBEE_NVM_Read` returns true exactly when the store holds a record. -/
theorem wp_appZigbeeNvmRead (answering : Answering env m n w)
    (fits : ∀ length, m 0 = some length → length.toNat ≤ stPersistMaxAllocSz → numWords length ≤ n)
    (pos : 0 < n) :
    wp (handle env) (Crash fun _ => True) (fun found t =>
      (found = true → Delivers m t.cache) ∧
      (found = false → ∀ cache, ¬ Delivers m cache)) appZigbeeNvmRead w := by
  have nothing : ∀ t : World, (∀ cache, ¬ Delivers m cache) →
      (false = true → Delivers m t.cache) ∧ (false = false → ∀ cache, ¬ Delivers m cache) := by
    intro t absent
    exact ⟨fun wrong => absurd wrong Bool.false_ne_true, fun _ => absent⟩
  rw [appZigbeeNvmRead, wp_bind, wp_halFlashUnlock]
  refine ⟨trivial, ?_⟩
  rw [wp_bind]
  apply answering { w with unlocked := true } rfl rfl zigbeeDbStartAddr pos
  cases first : m zigbeeDbStartAddr with
  | none =>
      refine ⟨trivial, nothing _ ?_⟩
      intro cache delivers
      have word := delivers.length
      rw [zigbeeDbStartAddr] at first
      rw [first] at word
      cases word
  | some length =>
      have same : ∀ {cache}, Delivers m cache → cache 0 = length := by
        intro cache delivers
        exact (Option.some.inj (first.symm.trans delivers.length)).symm
      simp only [wp_bind, wp_setCache]
      refine ⟨trivial, ?_⟩
      by_cases rejected : length = 0 ∨ stPersistMaxAllocSz < length.toNat
      · rw [if_pos rejected]
        refine ⟨trivial, nothing _ ?_⟩
        intro cache delivers
        rcases rejected with zero | long
        · exact delivers.real ((same delivers).trans zero)
        · have short := delivers.fits
          rw [same delivers] at short
          omega
      · rw [if_neg rejected, wp_bind]
        rcases not_or.mp rejected with ⟨real, short⟩
        rw [Nat.not_lt] at short
        have some_words := numWords_pos short
        have small := fits length first short
        refine wp_readLoop (m := m) _ 1 answering (by omega) ?_ ?_ ?_
        · intro i before
          obtain rfl : i = 0 := by omega
          exact first
        · intro t kept words
          have head : t.cache 0 = length := kept 0 (by omega)
          refine ⟨trivial, fun _ => ⟨?_, ?_, ?_⟩, fun wrong => Bool.noConfusion wrong⟩
          · exact fun empty => real (head.symm.trans empty)
          · exact head ▸ short
          · intro i bound
            have inside : i < numWords (t.cache 0) := bound
            rw [head] at inside
            exact words i (by omega)
        · intro i t bound absent
          refine ⟨trivial, nothing _ ?_⟩
          intro cache delivers
          have word := delivers.words i (by rw [same delivers]; omega)
          rw [absent] at word
          cases word

end Reading

end Baelux.Nvm

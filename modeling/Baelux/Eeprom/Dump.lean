import Baelux.Eeprom.Contents
import Baelux.Eeprom.SequentialStore

/-! `EEE_Dump` reads the pool in use upwards, headers included and without a look at any CRC.
It agrees with `EEE_Read`, which searches one variable downwards behind the headers only. -/

namespace Baelux.Eeprom

open Effect Flash AppendLog

def dumpWord (addr size : Nat) (data : Nat → Data) (el : Word) : Nat → Data :=
  let word := el.setWidth 32
  if word >>> 30 = BitVec.ofNat 32 (eeTag >>> 14) then
    -- unsigned, so a variable below addr lands beyond every size
    let idx := ((word <<< 2) >>> 18) - BitVec.ofNat 32 addr
    if idx.toNat < size then Function.update data idx.toNat (elementData el) else data
  else data

def dumpLoop (addr size : Nat) : Nat → Nat → (Nat → Data) → Storage (Nat → Data)
  | 0, _, data => pure data
  | remaining + 1, flashAddr, data => do
      let el ← readWord flashAddr
      dumpLoop addr size remaining (flashAddr + hwFlashWidth) (dumpWord addr size data el)

/-- `data` is what the destination held before; the flash ends below the top of the address
space, so neither end of the scan wraps. -/
def eeeDump (addr size : Nat) (data : Nat → Data) : Storage (Nat → Data) := do
  let pv ← getVar
  let poolSize := pv.nbPages * hwFlashPageSize
  let flashAddr := if pv.nbPages ≤ pv.currentWritePage then pv.address + poolSize else pv.address
  dumpLoop addr size (poolSize / hwFlashWidth) flashAddr data

/-- The states that `EEE_Write` and `EEE_Clean` reach after a formatting `EEE_Init`, in any
order, when no flash operation fails. -/
inductive Reached (b : Bank) : World → Prop where
  | format (w : World) : Reached b (run (handle quiet) (eeeInit b.nb true b.base) w).2
  | write {w : World} (before : Reached b w) {addr : Nat} (inside : addr < b.capacity)
      (data : Data) : Reached b (run (handle quiet) (eeeWrite addr data) w).2
  | clean {w : World} (before : Reached b w) : Reached b (run (handle quiet) eeeClean w).2

variable {b : Bank} {w : World} {addr size : Nat}

/-! ## What every reached state answers -/

def Serving (b : Bank) (w : World) : Prop := ∃ m, Idle b m w ∨ Pending b m w

theorem Serving.live (serving : Serving b w) : ∃ m img cur c ws, Live b m w img cur c ws := by
  rcases serving with ⟨m, ⟨img, cur, c, ws, live, _⟩ | ⟨img, cur, c, ws, live, _⟩⟩
  · exact ⟨m, img, cur, c, ws, live⟩
  · exact ⟨m, img, cur, c, ws, live⟩

section OtherPool

variable {m : Store} {img : Image} {cur : Pool} {c : Nat} {ws : List Word}

theorem Live.other_state (live : Live b m w img cur c ws) :
    pageState w.mem (w.var.flashAddr w.var.nextPool) = img.state cur.other 0 := by
  rw [nextPool_other live, live.mounted.flashAddr]
  exact live.holds.state cur.other 0 b.pos

theorem Pending.write (pending : Pending b m w) (inside : addr < b.capacity) (data : Data) :
    Serving b (run (handle quiet) (eeeWrite addr data) w).2 := by
  rcases pending with ⟨img, cur, c, ws, live, erasing⟩
  have others : ∀ i < b.nb, img.state cur.other i ≠ .receive ∧ img.state cur.other i ≠ .active := by
    intro i bound
    rw [erasing i bound]
    decide
  have length := (live.holds.log _ _ live.shape.log).length
  rw [run_eeeWrite]
  split
  · rename_i room
    have free : ws.length < b.capacity := by rwa [live.var] at room
    have ends := wp_run (live.wp_write (Q := fun _ => True) quiet_honest data inside free others
      fun _ _ _ _ => trivial)
    rcases ends with ⟨_, ⟨img', c', same, after⟩, _⟩ | refused
    · refine ⟨_, Or.inr ⟨img', cur, c', _, after, ?_⟩⟩
      intro i bound
      rw [same.state]
      exact erasing i bound
    · exact absurd refused not_refused
  · rw [run_changePool_refuses]
    · exact ⟨m, Or.inr ⟨img, cur, c, ws, live, erasing⟩⟩
    · rw [live.other_state, erasing 0 b.pos]
      decide

theorem Idle.clean (idle : Idle b m w) : run (handle quiet) eeeClean w = (.stateError, w) := by
  rcases idle with ⟨img, cur, c, ws, live, vacant⟩
  rw [eeeClean, run_traced, run_bind]
  change run _ (eeGetState w.var.nextPool >>= _) w = _
  rw [run_bind, run_eeGetState, live.other_state, vacant.state 0 b.pos]
  rfl

end OtherPool

theorem Reached.serving (reached : Reached b w) : Serving b w := by
  induction reached with
  | format w => exact ⟨_, Or.inl (format_ready w).2.1⟩
  | write _ inside data ih =>
    rcases ih with ⟨m, idle | pending⟩
    · have ready := (write_ready idle inside data).2
      unfold Ready at ready
      split at ready
      · exact ⟨_, Or.inr ready⟩
      · exact ⟨_, Or.inl ready⟩
    · exact pending.write inside data
  | clean _ ih =>
    rcases ih with ⟨m, idle | pending⟩
    · rw [idle.clean]
      exact ⟨m, Or.inl idle⟩
    · exact ⟨m, Or.inl (clean_ready pending).2⟩

theorem Reached.sound (reached : Reached b w) : Sound b w := by
  induction reached with
  | format w => exact format_sound w
  | write _ inside data ih =>
    exact keeps_eeeWrite quiet_honest (Nat.lt_of_lt_of_le inside b.small) data _ ih
  | clean _ ih => exact keeps_eeeClean quiet_honest _ ih

/-! ## What the scan reads -/

def tagDecode (el : Word) : Option (Nat × Data) :=
  if el.setWidth 32 >>> 30 = BitVec.ofNat 32 (eeTag >>> 14) then
    some (((el.setWidth 32 <<< 2) >>> 18).toNat, elementData el)
  else none

theorem tagDecode_erased : tagDecode eeErased = none := by decide

theorem tagDecode_mark : tagDecode eeProgrammed = none := by decide

theorem decode_mark : decode eeProgrammed = none := by decide

private theorem index_iff (addr_small : addr ≤ 0x4000) (size_small : size ≤ 0x4000)
    (word : BitVec 32) {i : Nat} (inside : i < size) :
    ((word >>> 18) - BitVec.ofNat 32 addr).toNat = i ↔ (word >>> 18).toNat = addr + i := by
  have field : (word >>> 18).toNat < 0x4000 := by
    rw [BitVec.toNat_ushiftRight, Nat.shiftRight_eq_div_pow]
    omega
  rw [BitVec.toNat_sub, BitVec.toNat_ofNat]
  omega

theorem dumpWord_apply (addr_small : addr ≤ 0x4000) (size_small : size ≤ 0x4000)
    (data : Nat → Data) (el : Word) {i : Nat} (inside : i < size) :
    dumpWord addr size data el i = (binding tagDecode el (addr + i)).getD (data i) := by
  have index := index_iff addr_small size_small (el.setWidth 32 <<< 2) inside
  unfold dumpWord binding tagDecode
  split
  · dsimp only
    by_cases here : (((el.setWidth 32 <<< 2) >>> 18) - BitVec.ofNat 32 addr).toNat = i
    · rw [here, if_pos inside, if_pos (index.mp here), Function.update_self, Option.getD_some]
    · rw [if_neg fun same => here (index.mpr same), Option.getD_none]
      split
      · exact Function.update_of_ne (Ne.symm here) _ _
      · rfl
  · rfl

theorem dumpWord_outside (data : Nat → Data) (el : Word) {i : Nat} (outside : size ≤ i) :
    dumpWord addr size data el i = data i := by
  unfold dumpWord
  dsimp only
  split
  · split
    · rename_i requested
      exact Function.update_of_ne (show i ≠ _ by omega) _ _
    · rfl
  · rfl

def wordsFrom (mem : Memory) (start n : Nat) : List Word :=
  (List.range n).map fun i => mem (start + i * hwFlashWidth)

theorem wordsFrom_add (mem : Memory) (start n k : Nat) : wordsFrom mem start (n + k) =
    wordsFrom mem start n ++ wordsFrom mem (start + n * hwFlashWidth) k := by
  simp only [wordsFrom, List.range_add, List.map_append, List.map_map]
  congr 1
  apply List.map_congr_left
  intro i _
  simp only [Function.comp_apply, Nat.add_mul, Nat.add_assoc]

theorem run_dumpLoop (data : Nat → Data) (remaining flashAddr : Nat) :
    run (handle quiet) (dumpLoop addr size remaining flashAddr data) w =
      ((wordsFrom w.mem flashAddr remaining).foldl (dumpWord addr size) data, w) := by
  induction remaining generalizing flashAddr data with
  | zero => rfl
  | succ remaining ih =>
    have first : wordsFrom w.mem flashAddr 1 = [w.mem flashAddr] := by simp [wordsFrom]
    rw [Nat.add_comm remaining, wordsFrom_add, first, Nat.one_mul, List.singleton_append,
      List.foldl_cons, ← ih, Nat.add_comm 1]
    rfl

/-! ## The scan agrees with the search -/

section Agreement

variable {pool : Pool}

/-- What the store left in a page of a pool, header included. -/
theorem genuine_page (genuine : Genuine b w.mem) (pool : Pool) {k : Nat} (inside : k < b.nb)
    {o : Nat} (offset : o < hwFlashPageSize) : Written b (b.page (b.first pool + k) + o)
      (w.mem (b.page (b.first pool + k) + o)) := by
  have first : b.first pool ≤ b.nb := by cases pool <;> simp [Bank.first]
  rw [pageSize_eq] at offset
  apply genuine
  · rw [Bank.page_eq]
    omega
  · simp only [Bank.page_eq]
    omega

theorem header_silent (genuine : Genuine b w.mem) {k : Nat} (inside : k < b.nb) (v : Nat) :
    latest tagDecode (wordsFrom w.mem (b.page (b.first pool + k)) 4) v = none := by
  apply latest_undecoded
  intro entry member
  rcases List.mem_map.mp member with ⟨i, turn, rfl⟩
  have header : i < 4 := List.mem_range.mp turn
  have written := genuine_page genuine pool inside (o := i * hwFlashWidth)
    (by rw [width_eq, pageSize_eq]; omega)
  revert written
  generalize w.mem _ = word
  rintro (_ | _ | ⟨_, _, behind⟩)
  · exact tagDecode_erased
  · exact tagDecode_mark
  · rw [Bank.page_eq, headerSize_eq, pageSize_eq, width_eq] at behind
    omega

/-- Without the CRC the scan understands the words of the store as the search does. -/
theorem Written.tagDecode {a : Nat} {word : Word} (written : Written b a word) :
    tagDecode word = decode word := by
  cases written with
  | erased => exact tagDecode_erased.trans decode_erased.symm
  | mark => exact tagDecode_mark.trans decode_mark.symm
  | element small data behind =>
    rw [Eeprom.tagDecode, if_pos (tag_element small), elementAddr_low, elementAddr_element small,
      elementData_element small, decode_element small]

theorem page_scan (genuine : Genuine b w.mem) {k : Nat} (inside : k < b.nb) (v : Nat) :
    latest tagDecode (wordsFrom w.mem (b.page (b.first pool + k)) (4 + eeNbMaxElt)) v =
      latest decode (pageElements w.mem (b.page (b.first pool + k)) eeNbMaxElt) v := by
  have behind : wordsFrom w.mem (b.page (b.first pool + k) + 4 * hwFlashWidth) eeNbMaxElt =
      pageElements w.mem (b.page (b.first pool + k)) eeNbMaxElt := by
    simp only [wordsFrom, pageElements, eeHeaderSize, Nat.add_assoc]
  rw [wordsFrom_add, latest_append, header_silent genuine inside, Option.or_none, behind]
  apply latest_congr
  intro entry member
  rcases List.mem_map.mp member with ⟨i, turn, rfl⟩
  have element : i < eeNbMaxElt := List.mem_range.mp turn
  apply (genuine_page genuine pool inside _).tagDecode
  rw [nbMaxElt_eq] at element
  rw [headerSize_eq, width_eq, pageSize_eq]
  omega

/-- Upwards over `k` pages the scan finds what the search finds downwards. -/
theorem pool_scan (genuine : Genuine b w.mem) {k : Nat} (inside : k ≤ b.nb) (v : Nat) :
    latest tagDecode (wordsFrom w.mem (b.page (b.first pool)) (512 * k)) v =
      latest decode (poolElements b w.mem pool (508 * k)) v := by
  induction k with
  | zero => rfl
  | succ k ih =>
    have next : b.page (b.first pool) + 512 * k * hwFlashWidth = b.page (b.first pool + k) := by
      rw [Bank.page_eq, Bank.page_eq, width_eq]
      omega
    rw [poolElements_page, latest_append, ← page_scan genuine inside, ← ih (by omega),
      Nat.mul_succ, wordsFrom_add, latest_append, next]
    rfl

/-- The scan of the pool in use, and what it tells of a variable. -/
theorem live_scan (addr size : Nat) (reached : Reached b w) : ∃ words,
    (∀ data, run (handle quiet) (eeeDump addr size data) w =
      (words.foldl (dumpWord addr size) data, w)) ∧
    ∀ v, latest tagDecode words v = readBack w v := by
  rcases reached.serving.live with ⟨m, img, cur, c, ws, live⟩
  have mounted := live.mounted
  have inside := live.shape.inside
  have filled := live.holds.log _ _ live.shape.log
  have start : (if w.var.nbPages ≤ w.var.currentWritePage then
      w.var.address + w.var.nbPages * hwFlashPageSize else w.var.address) =
      b.page (b.first cur) := by
    rw [live.page, mounted.nbPages, mounted.address, Bank.page]
    cases cur with
    | lower => rw [if_neg (by simp only [Bank.first]; omega)]; simp [Bank.first]
    | upper => exact if_pos (Nat.le_add_right b.nb c)
  have turns : w.var.nbPages * hwFlashPageSize / hwFlashWidth = 512 * b.nb := by
    rw [mounted.nbPages, pageSize_eq, width_eq]
    omega
  refine ⟨wordsFrom w.mem (b.page (b.first cur)) (512 * b.nb), ?_, ?_⟩
  · intro data
    have ram : run (handle quiet) getVar w = (w.var, w) := rfl
    rw [eeeDump, run_bind, ram]
    dsimp only
    rw [turns, start, run_dumpLoop]
  · intro v
    have pos := b.pos
    have length := filled.length
    rw [Bank.capacity_eq] at length
    have last : b.nb - 1 + 1 = b.nb := by omega
    calc
      latest tagDecode (wordsFrom w.mem (b.page (b.first cur)) (512 * b.nb)) v
      _ = latest decode (poolElements b w.mem cur (508 * b.nb)) v :=
        pool_scan reached.sound.genuine (Nat.le_refl _) v
      _ = elementAt w.mem w.var v (b.first cur + (b.nb - 1)) := by
        rw [elementAt_slots mounted v (b.nb - 1) (by omega), last]
      _ = latest decode ws v := elementAt_filled mounted filled v (by omega) (by omega)
      _ = readBack w v := by
        rw [readBack, live.page, elementAt_filled mounted filled v inside live.shape.high]

end Agreement

/-- In every reached state a dump fills the requested part of the destination with what
`EEE_Read` returns, and nothing else changes. -/
theorem dump_agrees_with_reads (reached : Reached b w) (addr_small : addr ≤ 0x4000)
    (size_small : size ≤ 0x4000) (data : Nat → Data) :
    let dumped := (run (handle quiet) (eeeDump addr size data) w).1
    (∀ i < size, ∀ value, (run (handle quiet) (eeeRead (addr + i)) w).1 = some value →
      dumped i = value) ∧
    (∀ i < size, (run (handle quiet) (eeeRead (addr + i)) w).1 = none → dumped i = data i) ∧
    (∀ i, size ≤ i → dumped i = data i) ∧
    (run (handle quiet) (eeeDump addr size data) w).2 = w := by
  rcases live_scan addr size reached with ⟨words, scans, means⟩
  have filled : ∀ i < size, words.foldl (dumpWord addr size) data i =
      (readBack w (addr + i)).getD (data i) := by
    intro i inside
    rw [foldl_latest fun table entry => dumpWord_apply addr_small size_small table entry inside,
      means]
  simp only [scans, run_eeeRead]
  refine ⟨?_, ?_, ?_, trivial⟩
  · intro i inside value found
    rw [filled i inside, found, Option.getD_some]
  · intro i inside missing
    rw [filled i inside, missing, Option.getD_none]
  · intro i outside
    exact List.foldlRecOn (motive := fun table => table i = data i) words _ rfl
      fun table same entry _ => (dumpWord_outside table entry outside).trans same

theorem dump_agrees_with_reads_after_write :
    let w := (run (handle quiet) (eeeWrite 3 5)
      (run (handle quiet) (eeeInit twoPages.nb true twoPages.base)
        (powerUp fun _ => eeErased)).2).2
    let dumped := (run (handle quiet) (eeeDump 2 4 fun _ => 9) w).1
    dumped 1 = 5 ∧ dumped 4 = 9 := by
  have inside : 3 < twoPages.capacity := by decide
  have idle := (format_ready (b := twoPages) (powerUp fun _ => eeErased)).2.1
  have read := (read_ready (write_ready idle inside 5).2 inside).1
  rw [Function.update_self] at read
  have reached := (Reached.format (b := twoPages) (powerUp fun _ => eeErased)).write inside 5
  have agrees := @dump_agrees_with_reads twoPages _ 2 4 reached (by decide) (by decide) fun _ => 9
  exact ⟨agrees.1 1 (by decide) 5 read, agrees.2.2.1 4 (by decide)⟩

end Baelux.Eeprom

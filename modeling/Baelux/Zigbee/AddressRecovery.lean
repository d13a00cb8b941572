import Baelux.Library.Table
import Baelux.Nvm.Record

/-! Network addresses are recovered from the persistence cache: `azcl_restore_nwk_addr` looks
for the bytes `FE FF` and takes the two bytes before them. -/

namespace Baelux.Zigbee

open Flash Nvm

abbrev Cache := Table (BitVec 8) stPersistMaxAllocSz

/-- `U32_data[word]`, the first byte the lowest. -/
def Cache.u32 (cache : Cache) (word : Nat) : Option Data := do
  let b₀ ← cache.load (4 * word)
  let b₁ ← cache.load (4 * word + 1)
  let b₂ ← cache.load (4 * word + 2)
  let b₃ ← cache.load (4 * word + 3)
  some (b₃ ++ b₂ ++ b₁ ++ b₀)

def addrMaxSize : Nat := 30

structure AddrMap where
  ieeeAddr : BitVec 64
  nwkAddr : BitVec 16

structure AddrMaps where
  maps : Table AddrMap addrMaxSize
  count : Nat

/-- `azcl_addr_maps.maps[azcl_addr_maps.count++].nwk_addr = found`. -/
def AddrMaps.push (m : AddrMaps) (found : BitVec 16) : Option AddrMaps := do
  let entry ← m.maps.load m.count
  let maps ← m.maps.store m.count { entry with nwkAddr := found }
  some ⟨maps, m.count + 1⟩

def wordOf (high low : BitVec 8) : BitVec 16 := high.setWidth 16 <<< 8 ||| low.setWidth 16

def restoreStep (cache : Cache) (i : Nat) (isFe : Bool) (m : AddrMaps) :
    Option (Bool × AddrMaps) := do
  let byte ← cache.load i
  if isFe = false then some (decide (byte = 0xFE), m)
  else if byte = 0xFF ∧ 3 < i then
    let high ← cache.load (i - 2)
    let low ← cache.load (i - 3)
    let m ← m.push (wordOf high low)
    some (false, m)
  else some (false, m)

def restoreLoop (cache : Cache) : Nat → Nat → Bool → AddrMaps → Option AddrMaps
  | 0, _, _, m => some m
  | remaining + 1, i, isFe, m => do
      let (isFe, m) ← restoreStep cache i isFe m
      restoreLoop cache remaining (i + 1) isFe m

def cacheLength (cache : Cache) : Option Data := (cache.u32 0).map (· + 4)

/-- `azcl_restore_nwk_addr`; `none` stands for an access outside the cache or the table. -/
def azclRestoreNwkAddr (cache : Cache) (m : AddrMaps) : Option AddrMaps := do
  let len ← cacheLength cache
  restoreLoop cache len.toNat 0 false { m with count := 0 }

/-! ## What there is to recover -/

def Cache.bytes (cache : Cache) (i : Nat) : BitVec 8 := (cache.load i).getD 0

/-- `FE FF` ends at `i`, with room for an address before it. -/
def MarkerAt (b : Nat → BitVec 8) (i : Nat) : Prop := 3 < i ∧ b (i - 1) = 0xFE ∧ b i = 0xFF

instance (b : Nat → BitVec 8) : DecidablePred (MarkerAt b) := fun _ => inferInstanceAs (Decidable (_ ∧ _))

def addressBefore (b : Nat → BitVec 8) (i : Nat) : BitVec 16 := wordOf (b (i - 2)) (b (i - 3))

def markers (b : Nat → BitVec 8) (len : Nat) : List Nat := (List.range len).filter fun i => MarkerAt b i

def feRun (b : Nat → BitVec 8) : Nat → Nat
  | 0 => 0
  | i + 1 => if b i = 0xFE then feRun b i + 1 else 0

def oddMarkers (b : Nat → BitVec 8) (len : Nat) : List Nat :=
  (markers b len).filter fun i => feRun b i % 2 = 1

structure Holds (m : AddrMaps) (addresses : List (BitVec 16)) : Prop where
  count : m.count = min addresses.length addrMaxSize
  entries : ∀ k (inside : k < addrMaxSize), k < m.count →
    addresses[k]? = some (m.maps ⟨k, inside⟩).nwkAddr

variable {cache : Cache} {m t : AddrMaps} {b : Nat → BitVec 8} {i n len : Nat} {isFe : Bool}

theorem bytes_load (cache : Cache) (inside : i < stPersistMaxAllocSz) :
    cache.load i = some (cache.bytes i) := by
  rw [Cache.bytes, Table.load_of_lt inside]
  rfl

/-! ## Runs of `FE` -/

theorem feRun_pos (some_fe : 0 < feRun b i) : 0 < i ∧ b (i - 1) = 0xFE := by
  cases i with
  | zero => exact absurd some_fe (Nat.lt_irrefl 0)
  | succ i =>
    refine ⟨Nat.succ_pos i, ?_⟩
    by_contra other
    have no_run : feRun b (i + 1) = 0 := if_neg other
    exact absurd some_fe (no_run ▸ Nat.lt_irrefl 0)

def recovered (b : Nat → BitVec 8) (i : Nat) : List (BitVec 16) :=
  (oddMarkers b i).map (addressBefore b)

theorem recovered_hit (odd : feRun b i % 2 = 1) (last : b i = 0xFF) (room : 3 < i) :
    recovered b (i + 1) = recovered b i ++ [addressBefore b i] := by
  have fe : b (i - 1) = 0xFE := (feRun_pos (b := b) (i := i) (by omega)).2
  have marker : MarkerAt b i := ⟨room, fe, last⟩
  simp [recovered, oddMarkers, markers, List.range_succ, List.filter_append, marker, odd]

theorem recovered_miss (other : ¬ (feRun b i % 2 = 1 ∧ b i = 0xFF ∧ 3 < i)) :
    recovered b (i + 1) = recovered b i := by
  have no_marker : ¬ (feRun b i % 2 = 1 ∧ MarkerAt b i) := by
    intro both
    exact other ⟨both.1, both.2.2.2, both.2.1⟩
  simp only [recovered, oddMarkers, markers, List.range_succ, List.filter_append, List.map_append]
  by_cases marker : MarkerAt b i
  · have even : ¬ feRun b i % 2 = 1 := fun odd => no_marker ⟨odd, marker⟩
    simp [marker, even]
  · simp [marker]

theorem recovered_length_mono (b : Nat → BitVec 8) (i n : Nat) :
    (recovered b i).length ≤ (recovered b (i + n)).length := by
  induction n with
  | zero => exact Nat.le_refl _
  | succ n ih =>
    apply Nat.le_trans ih
    by_cases hit : feRun b (i + n) % 2 = 1 ∧ b (i + n) = 0xFF ∧ 3 < i + n
    · rw [← Nat.add_assoc, recovered_hit hit.1 hit.2.1 hit.2.2, List.length_append]
      exact Nat.le_add_right ..
    · rw [← Nat.add_assoc, recovered_miss hit]

/-! ## The loop -/

structure Scanned (m : AddrMaps) (addresses : List (BitVec 16)) : Prop where
  count : m.count = addresses.length
  fits : addresses.length ≤ addrMaxSize
  entries : ∀ k (inside : k < addrMaxSize), k < m.count →
    addresses[k]? = some (m.maps ⟨k, inside⟩).nwkAddr

variable {addresses : List (BitVec 16)} {found : BitVec 16}

theorem push_full (scanned : Scanned m addresses) (full : addresses.length = addrMaxSize) :
    m.push found = none := by
  have outside : ¬ m.count < addrMaxSize := by
    rw [scanned.count, full]
    exact Nat.lt_irrefl _
  rw [AddrMaps.push, Table.load, dif_neg outside]
  rfl

theorem push_scanned (scanned : Scanned m addresses) (room : addresses.length < addrMaxSize)
    (found : BitVec 16) : ∃ t, m.push found = some t ∧ Scanned t (addresses ++ [found]) := by
  have inside : m.count < addrMaxSize := scanned.count.symm ▸ room
  rcases Table.store_of_lt m.maps inside { m.maps ⟨m.count, inside⟩ with nwkAddr := found } with
    ⟨maps, stored⟩
  refine ⟨⟨maps, m.count + 1⟩, ?_, ?_, ?_, ?_⟩
  · simp only [AddrMaps.push, Table.load_of_lt inside, stored, Option.bind_eq_bind, Option.bind_some]
  · rw [List.length_append, List.length_singleton, scanned.count]
  · rw [List.length_append, List.length_singleton]
    exact room
  · intro k inside' before
    change (addresses ++ [found])[k]? = some (maps ⟨k, inside'⟩).nwkAddr
    by_cases last : k = m.count
    · subst last
      rw [Table.stored_eq stored]
      change (addresses ++ [found])[m.count]? = some found
      rw [scanned.count, List.getElem?_concat_length]
    · have earlier : k < m.count := Nat.lt_of_le_of_ne (Nat.le_of_lt_succ before) last
      rw [Table.stored_other stored (i := ⟨k, inside'⟩) last, List.getElem?_append_left (scanned.count ▸ earlier)]
      exact scanned.entries k inside' earlier

/-- One turn: `is_fe` says whether the run of `FE` is odd. -/
theorem restoreStep_scanned (inside : i < stPersistMaxAllocSz)
    (parity : isFe = decide (feRun cache.bytes i % 2 = 1))
    (scanned : Scanned m (recovered cache.bytes i)) :
    (restoreStep cache i isFe m = none ∧ addrMaxSize < (recovered cache.bytes (i + 1)).length) ∨
      ∃ t, restoreStep cache i isFe m =
          some (decide (feRun cache.bytes (i + 1) % 2 = 1), t) ∧
        Scanned t (recovered cache.bytes (i + 1)) := by
  have here := bytes_load cache inside
  by_cases odd : feRun cache.bytes i % 2 = 1
  · have is_fe : isFe = true := parity.trans (decide_eq_true odd)
    have next : decide (feRun cache.bytes (i + 1) % 2 = 1) = false := by
      rw [feRun]
      split
      · exact decide_eq_false (by omega)
      · rfl
    subst is_fe
    rw [next]
    by_cases marker : cache.bytes i = 0xFF ∧ 3 < i
    · have high := bytes_load cache (show i - 2 < stPersistMaxAllocSz by omega)
      have low := bytes_load cache (show i - 3 < stPersistMaxAllocSz by omega)
      have hit := recovered_hit odd marker.1 marker.2
      have turn : restoreStep cache i true m =
          (m.push (addressBefore cache.bytes i)).map fun m => (false, m) := by
        simp only [restoreStep, here, Option.bind_eq_bind, Option.bind_some, Bool.true_eq_false,
          ↓reduceIte, marker, and_self, high, low]
        rw [addressBefore, Option.map_eq_bind]
        rfl
      rw [turn, hit]
      rcases Nat.lt_or_ge (recovered cache.bytes i).length addrMaxSize with room | full
      · rcases push_scanned scanned room (addressBefore cache.bytes i) with ⟨t, pushes, after⟩
        exact Or.inr ⟨t, by rw [pushes, Option.map_some], after⟩
      · have full := Nat.le_antisymm scanned.fits full
        left
        rw [push_full scanned full, List.length_append, full]
        exact ⟨rfl, Nat.lt_succ_self _⟩
    · right
      refine ⟨m, ?_, ?_⟩
      · simp only [restoreStep, here, Option.bind_eq_bind, Option.bind_some, Bool.true_eq_false,
          ↓reduceIte, if_neg marker]
      · rw [recovered_miss fun hit => marker hit.2]
        exact scanned
  · have no_fe : isFe = false := parity.trans (decide_eq_false odd)
    subst no_fe
    right
    refine ⟨m, ?_, ?_⟩
    · simp only [restoreStep, here, Option.bind_eq_bind, Option.bind_some, ↓reduceIte]
      congr 2
      rw [feRun]
      by_cases fe : cache.bytes i = 0xFE
      · rw [if_pos fe, decide_eq_true fe]
        exact (decide_eq_true (by omega)).symm
      · rw [if_neg fe, decide_eq_false fe]
        rfl
    · rw [recovered_miss fun hit => odd hit.1]
      exact scanned

/-- By induction on the bytes still to be read. -/
theorem restoreLoop_scanned (inside : i + n ≤ stPersistMaxAllocSz)
    (scanned : Scanned m (recovered cache.bytes i)) :
    (restoreLoop cache n i (decide (feRun cache.bytes i % 2 = 1)) m = none ∧
        addrMaxSize < (recovered cache.bytes (i + n)).length) ∨
      ∃ t, restoreLoop cache n i (decide (feRun cache.bytes i % 2 = 1)) m = some t ∧
        Scanned t (recovered cache.bytes (i + n)) := by
  induction n generalizing i m with
  | zero => exact Or.inr ⟨m, rfl, scanned⟩
  | succ n ih =>
    have whole : i + (n + 1) = i + 1 + n := by omega
    rw [whole]
    rcases restoreStep_scanned (show i < stPersistMaxAllocSz by omega) rfl scanned with
      ⟨stops, many⟩ | ⟨t, turn, after⟩
    · left
      refine ⟨?_, Nat.lt_of_lt_of_le many (recovered_length_mono _ _ _)⟩
      simp only [restoreLoop, stops, Option.bind_eq_bind, Option.bind_none]
    · rcases ih (by omega) after with ⟨stops, many⟩ | ⟨u, rest, last⟩
      · refine Or.inl ⟨?_, many⟩
        simp only [restoreLoop, turn, Option.bind_eq_bind, Option.bind_some, stops]
      · refine Or.inr ⟨u, ?_, last⟩
        simp only [restoreLoop, turn, Option.bind_eq_bind, Option.bind_some, rest]

/-! ## The function -/

theorem Scanned.holds_iff {all : List (BitVec 16)} (scanned : Scanned m addresses) :
    Holds m all ↔ addresses = all.take addrMaxSize := by
  constructor
  · intro holds
    apply List.ext_getElem?
    intro k
    have count : addresses.length = min all.length addrMaxSize :=
      scanned.count.symm.trans holds.count
    rcases Nat.lt_or_ge k addresses.length with inside | outside
    · have inside' : k < addrMaxSize := by omega
      have before : k < m.count := scanned.count.symm ▸ inside
      rw [scanned.entries k inside' before, List.getElem?_take_of_lt inside']
      exact (holds.entries k inside' before).symm
    · rw [List.getElem?_eq_none outside, List.getElem?_eq_none]
      rw [List.length_take]
      omega
  · intro same
    subst same
    constructor
    · rw [scanned.count, List.length_take, Nat.min_comm]
    · intro k inside before
      rw [← scanned.entries k inside before, List.getElem?_take_of_lt inside]

/-- For every content of the cache with a length that fits: the addresses before all markers are
recovered, up to the size of the table and without an access outside, if and only if they are
those before the markers behind an odd number of bytes `FE`. -/
theorem addresses_recovered_iff (cache : Cache) (m : AddrMaps) (len : Data)
    (length : cacheLength cache = some len) (fits : len.toNat ≤ stPersistMaxAllocSz) :
    (∃ t, azclRestoreNwkAddr cache m = some t ∧
        Holds t ((markers cache.bytes len.toNat).map (addressBefore cache.bytes))) ↔
      (oddMarkers cache.bytes len.toNat).map (addressBefore cache.bytes) =
        ((markers cache.bytes len.toNat).map (addressBefore cache.bytes)).take addrMaxSize := by
  have start : Scanned { m with count := 0 } (recovered cache.bytes 0) :=
    ⟨rfl, Nat.zero_le _, fun k _ before => absurd before (Nat.not_lt_zero k)⟩
  have scans := restoreLoop_scanned (n := len.toNat) (by omega) start
  rw [Nat.zero_add] at scans
  have runs : azclRestoreNwkAddr cache m =
      restoreLoop cache len.toNat 0 (decide (feRun cache.bytes 0 % 2 = 1)) { m with count := 0 } := by
    rw [azclRestoreNwkAddr, length]
    rfl
  rw [runs]
  rcases scans with ⟨stops, many⟩ | ⟨t, ends, scanned⟩
  · rw [stops]
    constructor
    · intro holds
      rcases holds with ⟨t, wrong, _⟩
      cases wrong
    · intro same
      change recovered cache.bytes len.toNat = _ at same
      rw [same, List.length_take] at many
      omega
  · rw [ends]
    constructor
    · intro holds
      rcases holds with ⟨u, same, holds⟩
      obtain rfl := Option.some.inj same
      exact scanned.holds_iff.mp holds
    · intro same
      exact ⟨t, rfl, scanned.holds_iff.mpr same⟩

def addressEndsInFe : Cache := fun i =>
  match i.val with
  | 0 => 4
  | 4 => 0x34
  | 5 => 0xFE
  | 6 => 0xFE
  | 7 => 0xFF
  | _ => 0

def noAddresses : AddrMaps := ⟨fun _ => ⟨0, 0⟩, 0⟩

theorem addresses_recovered_iff_short : cacheLength addressEndsInFe = some 8 ∧
    ((∃ t, azclRestoreNwkAddr addressEndsInFe noAddresses = some t ∧
        Holds t ((markers addressEndsInFe.bytes 8).map (addressBefore addressEndsInFe.bytes))) ↔
      (oddMarkers addressEndsInFe.bytes 8).map (addressBefore addressEndsInFe.bytes) =
        ((markers addressEndsInFe.bytes 8).map (addressBefore addressEndsInFe.bytes)).take
          addrMaxSize) :=
  ⟨by decide, addresses_recovered_iff addressEndsInFe noAddresses 8 (by decide) (by decide)⟩

/-- The address `FE34` before the marker is missed. -/
theorem address_after_fe_missed : ∃ t, azclRestoreNwkAddr addressEndsInFe noAddresses = some t ∧
    t.count = 0 ∧
    (markers addressEndsInFe.bytes 8).map (addressBefore addressEndsInFe.bytes) = [0xFE34] := by
  have runs : (azclRestoreNwkAddr addressEndsInFe noAddresses).map (·.count) = some 0 := by decide
  rcases Option.map_eq_some_iff.mp runs with ⟨t, restored, none_found⟩
  exact ⟨t, restored, none_found, by decide⟩

end Baelux.Zigbee

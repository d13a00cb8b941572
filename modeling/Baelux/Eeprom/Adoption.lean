import Baelux.Eeprom.Recovery
import Baelux.Eeprom.SinglePage

/-! Which page `EE_Recovery` adopts in a bank of two pages, and the flash contents on which the
adopted page can be trusted. -/

namespace Baelux.Eeprom

open Effect Flash AppendLog

variable {env : Env} {w t : World} {b : Bank} {mem : Memory} {cur : Pool} {ws : List Word}
variable {st own beside : PageState} {old : Nat → Word}

/-! ## SoundFlash flash contents -/

/-- The page of `pool` has the state that the scan looks for, and the one behind it is blank. -/
def Candidate (b : Bank) (mem : Memory) (st : PageState) (pool : Pool) : Prop :=
  pageState mem (b.page (b.first pool)) = st ∧ Next b mem pool

instance : Decidable (Candidate b mem st cur) :=
  inferInstanceAs (Decidable (_ ∧ pageState mem (b.page (b.first cur + 1)) = .erased))

def scanned (b : Bank) (mem : Memory) (st : PageState) : Option Pool :=
  if Candidate b mem st .lower then some .lower
  else if Candidate b mem st .upper then some .upper
  else none

def adopted (b : Bank) (mem : Memory) : Option (PageState × Pool) :=
  match scanned b mem .receive with
  | some pool => some (.receive, pool)
  | none => (scanned b mem .active).map fun pool => (.active, pool)

def pageWords (b : Bank) (mem : Memory) (pool : Pool) : Nat → Word := fun i => mem (b.slot pool i)

def Unbroken (b : Bank) (mem : Memory) (pool : Pool) : Prop :=
  ∀ i < b.capacity, pageWords b mem pool i = eeErased →
    ∀ j < b.capacity, i ≤ j → pageWords b mem pool j = eeErased

def elementCount (b : Bank) (mem : Memory) (pool : Pool) : Nat :=
  (List.range b.capacity).countP fun i => pageWords b mem pool i ≠ eeErased

def elements (b : Bank) (mem : Memory) (pool : Pool) : List Word :=
  poolElements b mem pool (elementCount b mem pool)

/-- The adopted page has no stray elements, nor has the other one behind a blank header, and a
transfer that is resumed has room for the variables that it still copies. -/
structure Trustworthy (b : Bank) (mem : Memory) (st : PageState) (pool : Pool) : Prop where
  unbroken : Unbroken b mem pool
  blank : BlankWhenErased b (pageState mem (b.page (b.first pool.other))) (pageWords b mem pool.other)
  room : st = .receive → elementCount b mem pool + missingBelow (latest decode (elements b mem pool))
    (pageStore b.capacity (pageWords b mem pool.other)) b.capacity ≤ b.capacity

def SoundFlash (b : Bank) (mem : Memory) : Prop :=
  ∀ found, adopted b mem = some found → Trustworthy b mem found.1 found.2

/-! ## What an unbroken page holds -/

theorem elements_length : (elements b mem cur).length = elementCount b mem cur := by
  rw [elements, poolElements, List.length_map, List.length_range]

theorem Unbroken.filled (unbroken : Unbroken b mem cur) : Filled b mem cur (elements b mem cur) := by
  have few : elementCount b mem cur ≤ (List.range b.capacity).length := List.countP_le_length
  rw [List.length_range] at few
  have counts : ∀ i < b.capacity, pageWords b mem cur i ≠ eeErased ↔ i < elementCount b mem cur := by
    intro i inside
    have count := lt_countP_range b.capacity (p := fun i => decide (pageWords b mem cur i ≠ eeErased))
      ?_ i inside
    · rwa [decide_eq_true_eq] at count
    · intro i j order inside written
      rw [decide_eq_true_eq] at written ⊢
      exact fun blank => written (unbroken i (by omega) blank j inside order)
  refine ⟨elements_length ▸ few, ?_, ?_⟩
  · intro el member
    rcases List.mem_map.mp member with ⟨i, below, rfl⟩
    have inside := List.mem_range.mp below
    exact (counts i (by omega)).mpr inside
  · intro i inside
    by_cases below : i < elementCount b mem cur
    · simp [elements, poolElements, below]
    · have blank : pageWords b mem cur i = eeErased :=
        not_not.mp fun written => below ((counts i inside).mp written)
      have beyond : (elements b mem cur).length ≤ i := by
        rw [elements_length]
        omega
      rw [List.getD_eq_getElem?_getD, List.getElem?_eq_none beyond]
      exact blank

/-! ## Mounting the adopted page -/

theorem wp_mountPage_page {R : Nat → World → Prop} (single : b.nb = 1) (var : w.var = eeReset b.base b.nb)
    (filled : Filled b w.mem cur ws)
    (result : ∀ t, Stands b cur ws (pageState w.mem (b.page (b.first cur)))
      (pageState w.mem (b.page (b.first cur.other))) (pageWords b w.mem cur.other) t →
      R (b.first cur) t) :
    wp (handle env) (Crash fun _ => True) R (mountPage (b.first cur)) w := by
  have length := filled.length
  rw [single_capacity single] at length
  let img : Image := ⟨fun pool i => pageState w.mem (b.page (b.first pool + i)),
    fun pool => if pool = cur then some ws else none⟩
  have holds : Holds b w.mem img := by
    refine ⟨fun _ _ _ => rfl, fun pool log present => ?_⟩
    by_cases here : pool = cur
    · subst here
      obtain rfl : ws = log := by simpa [img] using present
      exact filled
    · simp [img, here] at present
  have shape : Shape b img cur (img.state cur 0) 0 ws :=
    ⟨by simp [img], b.pos, Nat.zero_le _, by omega, fun i before => absurd before (Nat.not_lt_zero i),
      rfl, fun i after inside => by omega⟩
  apply wp_mountPage holds shape var
  intro t mem cursor
  refine result t ⟨cursor, ?_, ?_, ?_, ?_⟩
  · rw [mem]
    exact filled
  · rw [mem]
  · rw [mem]
  · intro i _
    rw [mem]
    rfl

section Single

variable (single : b.nb = 1)
include single

/-- The other page is erased, unless it is blank. -/
theorem wp_releaseOther_page (honest : Honest env) (free : Free env)
    (stands : Stands b cur ws own beside old w) (blank : BlankWhenErased b beside old) :
    wp (handle env) (Crash fun _ => True)
      (fun status t => status = .ok ∧ Stands b cur ws own .erased (fun _ => eeErased) t)
      releaseOther w := by
  rw [releaseOther, wp_bind, wp_getVar, stands.nextPool, stands.mounted.nbPages, single]
  refine ⟨trivial, ?_⟩
  rw [eraseLoop, wp_bind]
  apply wp_eeGetState trivial fun _ _ => trivial
  rw [stands.mounted.flashAddr, stands.beside]
  by_cases used : beside ≠ .erased
  · rw [if_pos used, wp_bind, wp_getVar, stands.mounted.flashPage, wp_bind]
    refine ⟨trivial, wp_fdEraseSectors_timed honest _ ?_ ?_⟩
    · intro _ t erased ram _
      exact ⟨rfl, stands.erased single erased ram⟩
    · intro refused
      rw [executed_of_free free] at refused
      cases refused
  · rw [if_neg used]
    have erased := not_not.mp used
    exact ⟨rfl, stands.var, stands.filled, stands.own, stands.beside.trans erased,
      fun i inside => (stands.old i inside).trans (blank erased i inside)⟩

/-- A transfer that was interrupted is resumed. -/
theorem wp_eeTransfer_rest (honest : Honest env) (free : Free env)
    (stands : Stands b cur ws .receive beside old w)
    (room : ws.length + missingBelow (latest decode ws) (pageStore b.capacity old) b.capacity ≤
      b.capacity) :
    wp (handle env) (Crash fun _ => True)
      (fun status t => status = .ok ∧ ∃ more, Stands b cur more .active beside old t)
      (eeTransfer eeTag (b.first cur)) w := by
  have large : ¬ eeTag < b.capacity := by
    have limit := b.small
    rw [← Bank.capacity] at limit
    unfold eeTag
    omega
  have last : b.first cur.other + (b.nb - 1) = b.first cur.other := by
    rw [single, Nat.sub_self, Nat.add_zero]
  rw [eeTransfer, wp_bind, wp_getVar, stands.mounted.nbPages]
  refine ⟨trivial, ?_⟩
  simp only [← last_old_page, last]
  rw [if_neg (not_not_intro rfl), wp_bind]
  apply wp_post (wp_copies_page single honest (fun other => absurd rfl other)
    (fun inside => absurd inside large) stands (by decide) rfl room)
  rintro status t (⟨ok, _, _, _, more, stands', _⟩ | ⟨_, j, inside, stops, _⟩)
  · exact ⟨ok, more, stands'⟩
  · exact absurd stops ((Unrefused.of_free free _ _).not_stops inside)

theorem wp_adoptPage_page (honest : Honest env) (free : Free env)
    (found : pageState w.mem (b.page (b.first cur)) = st) (real : st = .receive ∨ st = .active)
    (trusted : Trustworthy b w.mem st cur) (var : w.var = eeReset b.base b.nb) :
    wp (handle env) (Crash fun _ => True)
      (fun status t => status = .ok ∧ ∃ ws, Stands b cur ws .active .erased (fun _ => eeErased) t)
      (adoptPage st (b.first cur)) w := by
  have filled := trusted.unbroken.filled
  rw [adoptPage, wp_bind]
  apply wp_mountPage_page single var filled
  intro t stands
  rw [found] at stands
  rcases real with rfl | rfl
  · rw [if_pos rfl]
    have room := trusted.room rfl
    rw [← elements_length] at room
    apply wp_unless_failed (wp_eeTransfer_rest single honest free stands room)
    · intro status u ended failed
      exact absurd ended.1 failed
    · rintro u ⟨_, more, resumed⟩
      apply wp_post (wp_releaseOther_page single honest free resumed trusted.blank)
      rintro status v ⟨ok, released⟩
      exact ⟨ok, more, released⟩
  · rw [if_neg (by decide)]
    apply wp_post (wp_releaseOther_page single honest free stands trusted.blank)
    rintro status u ⟨ok, released⟩
    exact ⟨ok, _, released⟩

end Single

/-! ## Initialisation -/

theorem Candidate.skips (not_candidate : ¬ Candidate b mem st cur) : Skips b mem st (b.first cur) := by
  by_cases state : pageState mem (b.page (b.first cur)) = st
  · refine Or.inr ⟨?_, fun next => not_candidate ⟨state, next⟩⟩
    cases cur
    · exact Or.inl rfl
    · exact Or.inr rfl
  · exact Or.inl state

section Single

variable (single : b.nb = 1)
include single

theorem scanned_none (nothing : scanned b mem st = none) : ∀ p < 2 * b.nb, Skips b mem st p := by
  intro p inside
  rcases page_of inside with ⟨pool, i, small, rfl⟩
  obtain rfl : i = 0 := by omega
  apply Candidate.skips
  intro candidate
  unfold scanned at nothing
  cases pool with
  | lower =>
    rw [if_pos candidate] at nothing
    cases nothing
  | upper =>
    rw [if_pos candidate] at nothing
    split at nothing <;> cases nothing

theorem wp_scanLoop_page (honest : Honest env) (free : Free env)
    (found : scanned b w.mem st = some cur) (real : st = .receive ∨ st = .active)
    (trusted : Trustworthy b w.mem st cur) (var : w.var = eeReset b.base b.nb) :
    wp (handle env) (Crash fun _ => True)
      (Decided fun status t => status = .ok ∧
        ∃ cur ws, Stands b cur ws .active .erased (fun _ => eeErased) t)
      (scanLoop st (2 * b.nb) 0) w := by
  have mounted : Mounted b w.var := var ▸ ⟨rfl, rfl⟩
  have candidate : Candidate b w.mem st cur ∧ ∀ i < b.first cur, Skips b w.mem st i := by
    unfold scanned at found
    split at found
    · rename_i lower
      obtain rfl := Option.some.inj found
      exact ⟨lower, fun i before => absurd before (Nat.not_lt_zero i)⟩
    · rename_i not_lower
      rcases Option.ite_none_right_eq_some.mp found with ⟨upper, same⟩
      obtain rfl := Option.some.inj same
      refine ⟨upper, fun i before => ?_⟩
      have first : i = b.first .lower := by
        simp only [Bank.first] at before ⊢
        omega
      rw [first]
      exact Candidate.skips not_lower
  rcases candidate with ⟨⟨state, next⟩, skips⟩
  have bound : b.first cur < 2 * b.nb := by
    cases cur <;> simp only [Bank.first] <;> omega
  apply wp_scanLoop_at mounted bound skips (wp_recoverPage mounted state ?_)
  apply wp_reliable_start mounted next
  refine ⟨.ok, rfl, Or.inl ⟨rfl, ?_⟩⟩
  apply wp_post (wp_adoptPage_page single honest free state real trusted var)
  rintro status t ⟨ok, ws, stands⟩
  exact ⟨ok, cur, ws, stands⟩

/-- A sound bank is mounted on one of its pages, or nothing in it is found. -/
theorem wp_init_sound (honest : Honest env) (free : Free env) (sound : SoundFlash b w.mem) :
    wp (handle env) (Crash fun _ => True)
      (fun status t => status = .stateError ∨ (status = .ok ∧
        ∃ cur ws, Stands b cur ws .active .erased (fun _ => eeErased) t))
      (eeeInit b.nb false b.base) w := by
  unfold SoundFlash adopted at sound
  apply wp_init
  cases receive : scanned b w.mem .receive with
  | some pool =>
    have trusted := sound (.receive, pool) (by rw [receive])
    apply wp_post (wp_recovery_receive
      (wp_scanLoop_page (w := reset b w) single honest free receive (Or.inl rfl) trusted rfl))
    exact fun status t mounted => Or.inr mounted
  | none =>
    rw [receive] at sound
    apply wp_recovery_active (scanned_none single receive)
    cases active : scanned b w.mem .active with
    | some pool =>
      have trusted := sound (.active, pool) (by rw [active]; rfl)
      apply wp_post (wp_scanLoop_page (w := reset b w) single honest free active (Or.inr rfl) trusted rfl)
      rintro outcome t ⟨status, rfl, mounted⟩
      exact Or.inr mounted
    | none =>
      apply wp_scanLoop_none reset_mounted (scanned_none single active)
      exact Or.inl rfl

end Single

/-! ## A bank that is ready -/

theorem Stands.idle (single : b.nb = 1)
    (stands : Stands b cur ws .active .erased (fun _ => eeErased) w) :
    Idle b (latest decode ws) w := by
  have length := stands.filled.length
  rw [single_capacity single] at length
  let img : Image := ⟨fun pool _ => if pool = cur then .active else .erased,
    fun pool => if pool = cur then some ws else some []⟩
  have pool_cases : ∀ pool, pool = cur ∨ pool = cur.other := by
    intro pool
    cases pool <;> cases cur <;> simp [Pool.other]
  have empty : Filled b w.mem cur.other [] :=
    ⟨Nat.zero_le _, by simp, fun i inside => stands.old i inside⟩
  have holds : Holds b w.mem img := by
    constructor
    · intro pool i inside
      obtain rfl : i = 0 := by omega
      rcases pool_cases pool with rfl | rfl
      · simpa [img] using stands.own
      · simpa [img] using stands.beside
    · intro pool log present
      rcases pool_cases pool with rfl | rfl
      · obtain rfl : ws = log := by simpa [img] using present
        exact stands.filled
      · obtain rfl : [] = log := by simpa [img] using present
        exact empty
  have shape : Shape b img cur .active 0 ws :=
    ⟨by simp [img], b.pos, Nat.zero_le _, by omega, fun i before => absurd before (Nat.not_lt_zero i),
      by simp [img], fun i after inside => by omega⟩
  exact ⟨img, cur, 0, ws, ⟨holds, shape, stands.var, fun _ _ => rfl⟩,
    ⟨fun i _ => by simp [img], by simp [img]⟩⟩

theorem Idle.stands {m : Store} (single : b.nb = 1) (idle : Idle b m w) :
    ∃ cur ws, Stands b cur ws .active .erased (fun _ => eeErased) w := by
  rcases idle with ⟨img, cur, c, ws, live, vacant⟩
  have inside := live.shape.inside
  obtain rfl : c = 0 := by omega
  refine ⟨cur, ws, live.var, live.holds.log cur ws live.shape.log, ?_, ?_, ?_⟩
  · have state := live.holds.state cur 0 b.pos
    rwa [Nat.add_zero, live.shape.current] at state
  · have state := live.holds.state cur.other 0 b.pos
    rwa [Nat.add_zero, vacant.state 0 b.pos] at state
  · intro i inside
    exact ((live.holds.log cur.other [] vacant.log).content i inside).trans rfl

theorem Idle.inOrder {m : Store} (single : b.nb = 1) (idle : Idle b m w) : InOrder b w := by
  rcases idle.stands single with ⟨cur, ws, stands⟩
  exact stands.inOrder (by decide) fun _ _ _ => rfl

end Baelux.Eeprom

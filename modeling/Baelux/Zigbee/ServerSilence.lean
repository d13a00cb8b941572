import Baelux.Zigbee.ServerListOrder
import Mathlib.Algebra.Group.Nat.Defs

/-! The clock is read as 32 bits: how the verdict on silent servers compares with
the true time of their announcements. -/

namespace Baelux.Zigbee

open Chain

abbrev Announcement := ServerlistAddr × Nat

/-- `HAL_GetTick`: the low 32 bits of the clock. -/
def tickOf (now : Nat) : ServerlistTime := BitVec.ofNat 32 now

def announced (A : Allocator Serverlist) : List Announcement → Option ServerListState
  | [] => some emptyServerList
  | (addr, now) :: earlier => do
      let s ← announced A earlier
      let (_, s) ← update A s addr (tickOf now)
      some s

def silence (history : List Announcement) (now : Nat) (addr : ServerlistAddr) : Option Nat :=
  (history.lookup addr).map fun time => now - time

def SilentServer (history : List Announcement) (now : Nat) (l : List ServerlistAddr) : Prop :=
  ∃ addr ∈ l, ∃ d ∈ silence history now addr, unrecognizableTimeout ≤ d

/-- No server is silent for a whole round of the tick, or some server is silent too long
whatever the number of rounds. -/
def SilenceReadable (history : List Announcement) (now : Nat) (l : List ServerlistAddr) : Prop :=
  (∀ addr ∈ l, ∀ d ∈ silence history now addr, d < 2 ^ 32) ∨
    ∃ addr ∈ l, ∃ d ∈ silence history now addr, unrecognizableTimeout ≤ d % 2 ^ 32

variable {A : Allocator Serverlist} {history : List Announcement} {addr : ServerlistAddr}
variable {now time : Nat} {nodes : List (Nat × Serverlist)} {s : ServerListState}

/-- Every node carries the tick of its server's last announcement. -/
def Timed (nodes : List (Nat × Serverlist)) (history : List Announcement) : Prop :=
  ∀ node ∈ nodes, ∃ time, history.lookup node.2.addr = some time ∧
    node.2.lastUpdatedTime = tickOf time

theorem Timed.announce (timed : Timed nodes history) (p : Nat) (addr : ServerlistAddr) (now : Nat) :
    Timed (announcedNodes nodes p addr (tickOf now)) ((addr, now) :: history) := by
  have fresh : ∃ time, List.lookup addr ((addr, now) :: history) = some time ∧
      tickOf now = tickOf time := ⟨now, List.lookup_cons_self, rfl⟩
  have old : ∀ node ∈ nodes, node.2.addr ≠ addr →
      ∃ time, List.lookup node.2.addr ((addr, now) :: history) = some time ∧
        node.2.lastUpdatedTime = tickOf time := by
    intro node member other
    rcases timed node member with ⟨time, last, same⟩
    refine ⟨time, ?_, same⟩
    rw [List.lookup_cons, beq_false_of_ne other]
    exact last
  intro node member
  unfold announcedNodes at member
  split at member
  · rcases List.mem_map.mp member with ⟨before, inside, rfl⟩
    split
    · exact fresh
    · exact old before inside ‹_›
  · rename_i absent
    rcases List.mem_append.mp member with inside | last
    · apply old node inside
      intro same
      exact absent (same ▸ List.mem_map_of_mem inside)
    · obtain rfl := List.mem_singleton.mp last
      exact fresh

theorem announced_timed (A : Allocator Serverlist) (history : List Announcement) :
    ∃ s nodes, announced A history = some s ∧ Linked s.heap s.head nodes ∧
      (nodes.map fun node => node.2.addr).Nodup ∧ s.mFilter = 0 ∧ Timed nodes history := by
  induction history with
  | nil =>
    exact ⟨emptyServerList, [], rfl, Linked.nil, List.nodup_nil, rfl, fun _ nothing => nomatch nothing⟩
  | cons first earlier ih =>
    rcases first with ⟨addr, now⟩
    rcases ih with ⟨s, nodes, reached, linked, nodup, noFilter, timed⟩
    rcases update_linked A addr noFilter (tickOf now) linked nodup with
      ⟨t, p, updated, after, noFilter'⟩
    refine ⟨t, _, ?_, after, announcedNodes_nodup p _ nodup, noFilter', timed.announce p addr now⟩
    simp only [announced, reached, updated, Option.bind_eq_bind, Option.bind_some]

theorem tick_difference (ordered : time ≤ now) :
    (tickOf now - tickOf time).toNat = (now - time) % 2 ^ 32 := by
  simp only [tickOf, BitVec.toNat_sub, BitVec.toNat_ofNat]
  omega

theorem silent_since (ordered : ∀ earlier ∈ history, earlier.2 ≤ now)
    (last : history.lookup addr = some time) : time ≤ now := by
  rcases List.lookup_eq_some_iff.mp last with ⟨newer, older, rfl, _⟩
  exact ordered (addr, time) (List.mem_append_right _ (List.mem_cons_self ..))

/-- The verdict is computed from the silences but for whole rounds of the tick. -/
theorem verdict_false_iff (timed : Timed nodes history)
    (ordered : ∀ earlier ∈ history, earlier.2 ≤ now) :
    decide (∀ node ∈ nodes,
        ¬ unrecognizableTimeout ≤ (tickOf now - node.2.lastUpdatedTime).toNat) = false ↔
      ∃ addr ∈ nodes.map (fun node => node.2.addr), ∃ d ∈ silence history now addr,
        unrecognizableTimeout ≤ d % 2 ^ 32 := by
  have seen : ∀ node ∈ nodes, ∃ time, history.lookup node.2.addr = some time ∧
      (tickOf now - node.2.lastUpdatedTime).toNat = (now - time) % 2 ^ 32 := by
    intro node member
    rcases timed node member with ⟨time, last, same⟩
    exact ⟨time, last, same ▸ tick_difference (silent_since ordered last)⟩
  rw [decide_eq_false_iff_not]
  constructor
  · intro some_silent
    simp only [not_forall, Classical.not_not] at some_silent
    rcases some_silent with ⟨node, member, silent⟩
    rcases seen node member with ⟨time, last, difference⟩
    refine ⟨node.2.addr, List.mem_map_of_mem member, now - time, ?_, difference ▸ silent⟩
    exact Option.map_eq_some_iff.mpr ⟨time, last, rfl⟩
  · rintro ⟨addr, listed, d, silent, long⟩ none_silent
    rcases List.mem_map.mp listed with ⟨node, member, rfl⟩
    rcases seen node member with ⟨time, last, difference⟩
    rcases Option.map_eq_some_iff.mp silent with ⟨time', last', rfl⟩
    obtain rfl := Option.some.inj (last.symm.trans last')
    exact none_silent node member (difference ▸ long)

theorem readable_iff {l : List ServerlistAddr} :
    ((∃ addr ∈ l, ∃ d ∈ silence history now addr, unrecognizableTimeout ≤ d % 2 ^ 32) ↔
      SilentServer history now l) ↔ SilenceReadable history now l := by
  constructor
  · intro right
    by_cases silent : ∃ addr ∈ l, ∃ d ∈ silence history now addr, unrecognizableTimeout ≤ d % 2 ^ 32
    · exact Or.inr silent
    · apply Or.inl
      intro addr listed d spent
      by_contra whole
      have long : unrecognizableTimeout ≤ d := by
        simp only [unrecognizableTimeout]
        omega
      exact silent (right.mpr ⟨addr, listed, d, spent, long⟩)
  · intro readable
    constructor
    · intro holds
      rcases holds with ⟨addr, listed, d, spent, long⟩
      exact ⟨addr, listed, d, spent, Nat.le_trans long (Nat.mod_le ..)⟩
    · intro holds
      rcases holds with ⟨addr, listed, d, spent, long⟩
      rcases readable with short | silent
      · have same : d % 2 ^ 32 = d := Nat.mod_eq_of_lt (short addr listed d spent)
        exact ⟨addr, listed, d, spent, same.symm ▸ long⟩
      · exact silent

/-- After any announcements in time order, at any true times: the verdict on the next one is
false exactly for a server that is silent too long, if and only if the silences are readable. -/
theorem staleness_verdict_iff (A : Allocator Serverlist) (history : List Announcement)
    (addr : ServerlistAddr) (now : Nat)
    (ordered : ((addr, now) :: history).Pairwise fun later earlier => earlier.2 ≤ later.2) :
    ∃ s verdict t l, announced A history = some s ∧
      update A s addr (tickOf now) = some (verdict, t) ∧ Lists t l ∧
      ((verdict = false ↔ SilentServer ((addr, now) :: history) now l) ↔
        SilenceReadable ((addr, now) :: history) now l) := by
  rcases announced_timed A history with ⟨s, nodes, reached, linked, nodup, noFilter, timed⟩
  rcases update_linked A addr noFilter (tickOf now) linked nodup with ⟨t, p, updated, after, _⟩
  have nodup' : ((announcedNodes nodes p addr (tickOf now)).map fun node => node.2.addr).Nodup :=
    announcedNodes_nodup p (tickOf now) nodup
  have ordered' : ∀ earlier ∈ (addr, now) :: history, earlier.2 ≤ now := by
    intro earlier member
    rcases List.mem_cons.mp member with rfl | older
    · exact Nat.le_refl now
    · exact (List.pairwise_cons.mp ordered).1 earlier older
  refine ⟨s, _, t, _, reached, updated, ⟨_, after, rfl, nodup'⟩, ?_⟩
  rw [verdict_false_iff (timed.announce p addr now) ordered']
  exact readable_iff

theorem staleness_verdict_ten_minutes : ∃ s verdict t l,
    announced (Allocator.upward _) [(1, 0)] = some s ∧
    update (Allocator.upward _) s 2 (tickOf 600000) = some (verdict, t) ∧ Lists t l ∧
    ((verdict = false ↔ SilentServer [(2, 600000), (1, 0)] 600000 l) ↔
      SilenceReadable [(2, 600000), (1, 0)] 600000 l) :=
  staleness_verdict_iff _ [(1, 0)] 2 600000 (by simp)

/-- After a silence of one whole round of the tick nobody is silent. -/
theorem whole_round_unnoticed : ∃ s t l, announced (Allocator.upward _) [(1, 0)] = some s ∧
    update (Allocator.upward _) s 2 (tickOf (2 ^ 32)) = some (true, t) ∧ Lists t l ∧
    SilentServer [(2, 2 ^ 32), (1, 0)] (2 ^ 32) l := by
  refine ⟨_, _, [1, 2], rfl, rfl, ?_, 1, ?_, 2 ^ 32, ?_, ?_⟩
  · exact ⟨[(0, ⟨1, tickOf 0⟩), (1, ⟨2, tickOf (2 ^ 32)⟩)],
      ⟨⟨some 1, rfl, some 1, rfl, rfl, none, rfl, rfl, rfl⟩, by simp⟩, rfl, by simp⟩
  · simp
  · rfl
  · decide

end Baelux.Zigbee

import Mathlib.Data.Nat.Dist
import Mathlib.Tactic.Linarith
import Mathlib.Tactic.Ring

/-! Lines and circles on a grid of pixels, drawn with additions and comparisons only. -/

namespace Baelux.Raster

/-! ## Lines -/

section Line

variable {major minor along across other numerator : Nat}

/-- So many pixels along the longer side of a line, the pixel nearest to it is so many pixels
across. Of two pixels at the same distance the farther one counts. -/
def Nearest (major minor along across : Nat) : Prop :=
  2 * (across * major) ≤ 2 * (along * minor) + major ∧
    2 * (along * minor) < 2 * (across * major) + major

/-- What a walk along a line keeps in its numerator. -/
def Walk (major minor along across numerator : Nat) : Prop :=
  numerator + across * major = along * minor + major / 2 ∧ numerator < major

theorem Walk.start (long : 0 < major) : Walk major minor 0 0 (major / 2) :=
  ⟨by omega, by omega⟩

theorem Walk.turn (walk : Walk major minor along across numerator) (flat : minor ≤ major)
    (full : major ≤ numerator + minor) :
    Walk major minor (along + 1) (across + 1) (numerator + minor - major) := by
  obtain ⟨sum, below⟩ := walk
  refine ⟨?_, by omega⟩
  rw [Nat.succ_mul, Nat.succ_mul]
  omega

theorem Walk.straight (walk : Walk major minor along across numerator)
    (low : numerator + minor < major) :
    Walk major minor (along + 1) across (numerator + minor) := by
  obtain ⟨sum, _⟩ := walk
  refine ⟨?_, low⟩
  rw [Nat.succ_mul]
  omega

theorem Walk.nearest (walk : Walk major minor along across numerator) :
    Nearest major minor along across := by
  obtain ⟨sum, below⟩ := walk
  constructor <;> omega

def acrossAt (major minor along : Nat) : Nat := (along * minor + major / 2) / major

theorem Walk.across_eq (walk : Walk major minor along across numerator) :
    across = acrossAt major minor along := by
  obtain ⟨sum, below⟩ := walk
  rw [acrossAt, ← sum, Nat.add_mul_div_right _ _ (Nat.zero_lt_of_lt below),
    Nat.div_eq_of_lt below, Nat.zero_add]

theorem walk_acrossAt (long : 0 < major) :
    Walk major minor along (acrossAt major minor along) ((along * minor + major / 2) % major) :=
  ⟨Nat.mod_add_div' .., Nat.mod_lt _ long⟩

theorem Nearest.unique (nearest : Nearest major minor along across)
    (same : Nearest major minor along other) : across = other := by
  obtain ⟨upper, lower⟩ := nearest
  obtain ⟨otherUpper, otherLower⟩ := same
  by_contra differ
  rcases Nat.lt_or_gt_of_ne differ with less | more
  · have step := Nat.mul_le_mul_right major (Nat.succ_le_of_lt less)
    rw [Nat.succ_mul] at step
    omega
  · have step := Nat.mul_le_mul_right major (Nat.succ_le_of_lt more)
    rw [Nat.succ_mul] at step
    omega

theorem Nearest.le (nearest : Nearest major minor along across) (inside : along ≤ major) :
    across ≤ minor := by
  obtain ⟨upper, lower⟩ := nearest
  by_contra beyond
  have step := Nat.mul_le_mul_right major (Nat.succ_le_of_lt (Nat.lt_of_not_le beyond))
  have side := Nat.mul_le_mul_right minor inside
  rw [Nat.succ_mul, Nat.mul_comm minor] at step
  omega

theorem nearest_acrossAt (long : 0 < major) :
    Nearest major minor along (acrossAt major minor along) :=
  (walk_acrossAt long).nearest

def toward (start stop steps : Nat) : Nat := if start ≤ stop then start + steps else start - steps

def Between (start value stop : Nat) : Prop := min start stop ≤ value ∧ value ≤ max start stop

theorem between_toward {start stop steps : Nat} (inside : steps ≤ Nat.dist start stop) :
    Between start (toward start stop steps) stop ∧
      Nat.dist start (toward start stop steps) = steps := by
  unfold Nat.dist at *
  unfold Between toward
  split <;> omega

theorem toward_dist {start value stop : Nat} (between : Between start value stop) :
    toward start stop (Nat.dist start value) = value ∧
      Nat.dist start value ≤ Nat.dist start stop := by
  unfold Nat.dist
  unfold Between at between
  unfold toward
  split <;> omega

variable {p q r : Nat × Nat}

/-- The pixels of a line that is at least as wide as high: in each column the nearest one. -/
def OnWide (p q r : Nat × Nat) : Prop :=
  Between p.1 r.1 q.1 ∧ Between p.2 r.2 q.2 ∧
    (p ≠ q → Nearest (Nat.dist p.1 q.1) (Nat.dist p.2 q.2) (Nat.dist p.1 r.1) (Nat.dist p.2 r.2))

/-- The pixels of the line between two pixels. -/
def OnLine (p q r : Nat × Nat) : Prop :=
  if Nat.dist p.2 q.2 ≤ Nat.dist p.1 q.1 then OnWide p q r else OnWide p.swap q.swap r.swap

theorem onWide_ends (wide : Nat.dist p.2 q.2 ≤ Nat.dist p.1 q.1) : OnWide p q p ∧ OnWide p q q := by
  have long : p ≠ q → 0 < Nat.dist p.1 q.1 := by
    intro differ
    refine Nat.pos_of_ne_zero fun none => differ ?_
    exact Prod.ext (Nat.eq_of_dist_eq_zero none)
      (Nat.eq_of_dist_eq_zero (Nat.le_zero.mp (none ▸ wide)))
  constructor
  · refine ⟨⟨by omega, by omega⟩, ⟨by omega, by omega⟩, fun differ => ?_⟩
    have positive := long differ
    rw [Nat.dist_self, Nat.dist_self]
    constructor <;> omega
  · refine ⟨⟨by omega, by omega⟩, ⟨by omega, by omega⟩, fun differ => ?_⟩
    have positive := long differ
    have same := Nat.mul_comm (Nat.dist p.2 q.2) (Nat.dist p.1 q.1)
    constructor <;> omega

theorem onLine_ends (p q : Nat × Nat) : OnLine p q p ∧ OnLine p q q := by
  unfold OnLine
  split
  · rename_i wide
    exact onWide_ends wide
  · rename_i high
    exact @onWide_ends p.swap q.swap (Nat.le_of_lt (Nat.lt_of_not_le high))

def wideAt (p q : Nat × Nat) (along : Nat) : Nat × Nat :=
  (toward p.1 q.1 along,
    toward p.2 q.2 (acrossAt (Nat.dist p.1 q.1) (Nat.dist p.2 q.2) along))

theorem acrossAt_le (inside : along ≤ major) : acrossAt major minor along ≤ minor := by
  rcases Nat.eq_zero_or_pos major with none | long
  · rw [acrossAt, none, Nat.div_zero]
    exact Nat.zero_le _
  · exact (nearest_acrossAt long).le inside

theorem wideAt_on (wide : Nat.dist p.2 q.2 ≤ Nat.dist p.1 q.1)
    (inside : along ≤ Nat.dist p.1 q.1) : OnWide p q (wideAt p q along) := by
  obtain ⟨columns, across⟩ := between_toward inside
  have within : acrossAt (Nat.dist p.1 q.1) (Nat.dist p.2 q.2) along ≤ Nat.dist p.2 q.2 :=
    acrossAt_le inside
  obtain ⟨rows, up⟩ := between_toward within
  refine ⟨columns, rows, fun differ => ?_⟩
  unfold wideAt
  rw [across, up]
  refine nearest_acrossAt (Nat.pos_of_ne_zero fun none => differ ?_)
  exact Prod.ext (Nat.eq_of_dist_eq_zero none)
    (Nat.eq_of_dist_eq_zero (Nat.le_zero.mp (none ▸ wide)))

theorem Nearest.long (nearest : Nearest major minor along across) : 0 < major := by
  obtain ⟨_, lower⟩ := nearest
  by_contra none
  rw [Nat.eq_zero_of_not_pos none, Nat.mul_zero] at lower
  exact Nat.not_lt_zero _ lower

theorem on_wideAt (on : OnWide p q r) : wideAt p q (Nat.dist p.1 r.1) = r := by
  obtain ⟨columns, rows, nearest⟩ := on
  obtain ⟨column, _⟩ := toward_dist columns
  obtain ⟨row, inside⟩ := toward_dist rows
  refine Prod.ext column ?_
  by_cases point : p = q
  · subst point
    rw [Nat.dist_self] at inside
    rw [wideAt, Nat.dist_self p.1, acrossAt, Nat.div_zero]
    rwa [Nat.le_zero.mp inside] at row
  · have near := nearest point
    rwa [near.unique (nearest_acrossAt near.long)] at row

def linePoints (p q : Nat × Nat) : List (Nat × Nat) :=
  if Nat.dist p.2 q.2 ≤ Nat.dist p.1 q.1 then
    (List.range (Nat.dist p.1 q.1 + 1)).map (wideAt p q)
  else (List.range (Nat.dist p.2 q.2 + 1)).map fun along => (wideAt p.swap q.swap along).swap

theorem mem_wide (wide : Nat.dist p.2 q.2 ≤ Nat.dist p.1 q.1) :
    (∃ along, along < Nat.dist p.1 q.1 + 1 ∧ wideAt p q along = r) ↔ OnWide p q r := by
  constructor
  · rintro ⟨along, inside, rfl⟩
    exact wideAt_on wide (Nat.le_of_lt_succ inside)
  · intro on
    exact ⟨_, Nat.lt_succ_of_le (toward_dist on.1).2, on_wideAt on⟩

theorem mem_linePoints : r ∈ linePoints p q ↔ OnLine p q r := by
  unfold linePoints OnLine
  split
  · rename_i wide
    simp only [List.mem_map, List.mem_range, mem_wide wide]
  · rename_i high
    have wide : Nat.dist p.swap.2 q.swap.2 ≤ Nat.dist p.swap.1 q.swap.1 :=
      Nat.le_of_lt (Nat.lt_of_not_le high)
    simp only [List.mem_map, List.mem_range, ← mem_wide wide, Prod.swap_eq_iff_eq_swap,
      Prod.fst_swap]

instance : Decidable (OnLine p q r) := decidable_of_iff _ mem_linePoints

theorem OnLine.between (on : OnLine p q r) : Between p.1 r.1 q.1 ∧ Between p.2 r.2 q.2 := by
  unfold OnLine at on
  split at on
  · exact ⟨on.1, on.2.1⟩
  · exact ⟨on.2.1, on.1⟩

end Line

/-! ## Circles -/

section Circle

variable {radius a b a' b' : Nat}

/-- So many columns from the centre, the pixel nearest to the circle is so many rows away. -/
def Near (radius a b : Nat) : Prop :=
  radius * radius ≤ a * a + b * b + b ∧ a * a + b * b < radius * radius + b

/-- The pixels of an eighth of the circle, from its highest one up to the diagonal. -/
def OnOctant (radius a b : Nat) : Prop := a ≤ b ∧ Near radius a b

/-- Twice the error halfway between the two pixels that may follow in the next column. -/
def decision (radius a b : Nat) : Int :=
  2 * (a + 1) * (a + 1) + b * b + (b - 1) * (b - 1) - 2 * radius * radius

theorem decision_start : decision radius 0 radius = 3 - 2 * radius := by
  unfold decision
  push_cast
  ring

theorem decision_beside : decision radius (a + 1) b = decision radius a b + (4 * a + 6) := by
  unfold decision
  push_cast
  ring

theorem decision_below (positive : 0 < b) :
    decision radius (a + 1) (b - 1) = decision radius a b + (4 * (a - b) + 10) := by
  obtain ⟨b, rfl⟩ := Nat.exists_eq_succ_of_ne_zero positive.ne'
  unfold decision
  push_cast [Nat.succ_eq_add_one, Nat.add_sub_cancel]
  ring

theorem Near.start (positive : 0 < radius) : Near radius 0 radius := by
  constructor <;> omega

theorem Near.antitone (near : Near radius a b) (later : Near radius a' b') (order : a ≤ a') :
    b' ≤ b := by
  by_contra higher
  have columns := Nat.mul_le_mul order order
  have rows := Nat.mul_le_mul (Nat.lt_of_not_le higher) (Nat.lt_of_not_le higher)
  obtain ⟨lower, _⟩ := near
  obtain ⟨_, upper⟩ := later
  obtain ⟨k, rfl⟩ := Nat.exists_eq_add_of_lt (Nat.lt_of_not_le higher)
  nlinarith

theorem Near.unique (near : Near radius a b) (same : Near radius a b') : b = b' :=
  Nat.le_antisymm (same.antitone near (Nat.le_refl a)) (near.antitone same (Nat.le_refl a))

theorem Near.beside (near : Near radius a b) (inside : decision radius a b < 0) :
    Near radius (a + 1) b := by
  obtain ⟨lower, upper⟩ := near
  unfold decision at inside
  constructor
  · nlinarith
  · zify
    nlinarith

theorem Near.below (near : Near radius a b) (outside : 0 ≤ decision radius a b)
    (room : a + 1 ≤ b - 1) : Near radius (a + 1) (b - 1) := by
  obtain ⟨b, rfl⟩ := Nat.exists_eq_succ_of_ne_zero (show b ≠ 0 by omega)
  obtain ⟨lower, upper⟩ := near
  unfold decision at outside
  rw [Nat.succ_sub_one] at *
  push_cast at outside
  constructor
  · zify
    nlinarith
  · nlinarith

/-- Where the walk goes down, the pixel beside it is not the nearest in any later column. -/
theorem not_near_of_outside (outside : 0 ≤ decision radius a b) (order : a + 1 ≤ a') :
    ¬ Near radius a' b := by
  rintro ⟨_, upper⟩
  have columns := Nat.mul_le_mul order order
  unfold decision at outside
  zify at columns upper
  nlinarith

theorem Near.le_radius (near : Near radius a b) : b ≤ radius := by
  obtain ⟨_, upper⟩ := near
  by_contra beyond
  have rows := Nat.mul_le_mul (Nat.lt_of_not_le beyond) (Nat.lt_of_not_le beyond)
  nlinarith

theorem Near.decision_bounds (near : Near radius a b) :
    -(4 * (b : Int)) ≤ decision radius a b ∧ decision radius a b ≤ 4 * a + 1 := by
  obtain ⟨lower, upper⟩ := near
  unfold decision
  zify at lower upper
  constructor <;> nlinarith

theorem Near.row_pos (near : Near radius a b) : 0 < b := by
  obtain ⟨lower, upper⟩ := near
  by_contra none
  rw [Nat.eq_zero_of_not_pos none] at lower upper
  omega

/-- What a walk along an eighth of the circle keeps: where it stands is on the circle, unless it
is done, and the rest of the circle is not above it. -/
structure Arc (radius a b : Nat) : Prop where
  near : a ≤ b → Near radius a b
  rest : ∀ {a' b'}, OnOctant radius a' b' → a ≤ a' → b' ≤ b

namespace Arc

theorem start (positive : 0 < radius) : Arc radius 0 radius where
  near _ := Near.start positive
  rest later order := (Near.start positive).antitone later.2 order

theorem beside (arc : Arc radius a b) (room : a ≤ b) (inside : decision radius a b < 0) :
    Arc radius (a + 1) b where
  near _ := (arc.near room).beside inside
  rest later order := arc.rest later (Nat.le_of_succ_le order)

theorem below (arc : Arc radius a b) (room : a ≤ b) (outside : 0 ≤ decision radius a b) :
    Arc radius (a + 1) (b - 1) where
  near next := (arc.near room).below outside next
  rest {a' b'} later order := by
    have bound := arc.rest later (Nat.le_of_succ_le order)
    have differ : b' ≠ b := by
      rintro rfl
      exact not_near_of_outside outside order later.2
    omega

theorem past (arc : Arc radius a b) (ends : b < a) (on : OnOctant radius a' b') : a' < a := by
  by_contra ahead
  have bound := arc.rest on (Nat.le_of_not_lt ahead)
  have order := on.1
  omega

theorem here (arc : Arc radius a b) (room : a ≤ b) : OnOctant radius a b' ↔ b' = b := by
  constructor
  · intro on
    exact on.2.unique (arc.near room)
  · rintro rfl
    exact ⟨room, arc.near room⟩

end Arc

end Circle

/-! ## Disks -/

section Disk

variable {radius a b x y : Nat}

/-- The pixels that a filled circle covers: half a pixel further in they are inside of the circle. -/
def InDisk (radius x y : Nat) : Prop := x * x + y * y < radius * radius + max x y

instance : Decidable (InDisk radius x y) := inferInstanceAs (Decidable (_ < _))

theorem InDisk.swap (inside : InDisk radius x y) : InDisk radius y x := by
  unfold InDisk at *
  rwa [Nat.add_comm, Nat.max_comm]

theorem OnOctant.inDisk (on : OnOctant radius a b) : InDisk radius a b := by
  unfold InDisk
  rw [Nat.max_eq_right on.1]
  exact on.2.2

theorem InDisk.inwards (inside : InDisk radius a y) (order : x ≤ a) : InDisk radius x y := by
  rcases Nat.eq_or_lt_of_le order with rfl | further
  · exact inside
  · have columns : x * x + a ≤ a * a := by nlinarith
    have outer : a ≤ max a y := Nat.le_max_left a y
    unfold InDisk at *
    rcases Nat.le_total a y with above | below
    · rw [Nat.max_eq_right above] at inside
      rw [Nat.max_eq_right (Nat.le_trans order above)]
      omega
    · rw [Nat.max_eq_left below] at inside
      omega

theorem exists_near {y : Nat} (inside : x * x + y * y < radius * radius + y) :
    ∃ b, y ≤ b ∧ Near radius x b := by
  by_cases last : radius * radius ≤ x * x + y * y + y
  · exact ⟨y, Nat.le_refl y, last, inside⟩
  · have rows : (y + 1) * (y + 1) = y * y + 2 * y + 1 := by ring
    obtain ⟨b, order, near⟩ := exists_near (show x * x + (y + 1) * (y + 1) <
      radius * radius + (y + 1) by omega)
    exact ⟨b, Nat.le_of_succ_le order, near⟩
termination_by radius * radius - y
decreasing_by omega

theorem exists_octant {x : Nat} (order : x ≤ y) (inside : InDisk radius x y) :
    (∃ a, x ≤ a ∧ OnOctant radius a y) ∨ InDisk radius y y := by
  by_cases next : x < y ∧ InDisk radius (x + 1) y
  · rcases exists_octant next.1 next.2 with ⟨a, later, on⟩ | diagonal
    · exact Or.inl ⟨a, Nat.le_of_succ_le later, on⟩
    · exact Or.inr diagonal
  · rcases Nat.eq_or_lt_of_le order with rfl | room
    · exact Or.inr inside
    · have columns : (x + 1) * (x + 1) = x * x + 2 * x + 1 := by ring
      have leaves : ¬ InDisk radius (x + 1) y := fun goes => next ⟨room, goes⟩
      unfold InDisk at leaves inside
      rw [Nat.max_eq_right order] at inside
      rw [Nat.max_eq_right room] at leaves
      exact Or.inl ⟨x, Nat.le_refl x, order, by omega, inside⟩
termination_by y - x

/-- A disk consists of the rows between the pixels of its circle. -/
theorem inDisk_iff : InDisk radius x y ↔
    ∃ a b, OnOctant radius a b ∧ ((y = a ∧ x ≤ b) ∨ (y = b ∧ x ≤ a)) := by
  constructor
  · intro inside
    have column : ∀ {x y}, y ≤ x → InDisk radius x y → ∃ b, x ≤ b ∧ OnOctant radius y b := by
      intro x y order inside
      unfold InDisk at inside
      rw [Nat.max_eq_left order, Nat.add_comm (x * x)] at inside
      obtain ⟨b, further, near⟩ := exists_near inside
      exact ⟨b, further, Nat.le_trans order further, near⟩
    rcases Nat.le_total x y with order | order
    · rcases exists_octant order inside with ⟨a, later, on⟩ | diagonal
      · exact ⟨a, y, on, Or.inr ⟨rfl, later⟩⟩
      · obtain ⟨b, further, on⟩ := column (Nat.le_refl y) diagonal
        exact ⟨y, b, on, Or.inl ⟨rfl, Nat.le_trans order further⟩⟩
    · obtain ⟨b, further, on⟩ := column order inside
      exact ⟨y, b, on, Or.inl ⟨rfl, further⟩⟩
  · rintro ⟨a, b, on, ⟨rfl, order⟩ | ⟨rfl, order⟩⟩
    · exact on.inDisk.swap.inwards order
    · exact on.inDisk.inwards order

end Disk

end Baelux.Raster

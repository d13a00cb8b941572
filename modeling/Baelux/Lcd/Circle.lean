import Baelux.Lcd.Line

/-! Circles: `UTIL_LCD_DrawCircle` colours the pixels nearest to the circle, as far as they are on
the screen. -/

namespace Baelux.Lcd

open Baelux.Painting Baelux.Raster

/-! ## The arithmetic of `decision` -/

theorem slt_ofInt {value : Int} (lower : -(2 ^ 31) ≤ value) (upper : value < 2 ^ 31) :
    (BitVec.ofInt 32 value).slt 0 = decide (value < 0) := by
  rw [BitVec.slt, BitVec.toInt_ofInt_eq_self (by decide) lower upper]
  rfl

theorem ofInt_difference (x y : Int) :
    BitVec.ofInt 32 (x - y) = BitVec.ofInt 32 x - BitVec.ofInt 32 y := by
  rw [Int.sub_eq_add_neg, BitVec.ofInt_add, BitVec.ofInt_neg, BitVec.sub_eq_add_neg]

theorem shiftLeft_one (value : UInt) : value <<< 1 = 2 * value := by
  rw [BitVec.shiftLeft_eq_mul_twoPow, mul_comm]
  rfl

theorem shiftLeft_two (value : UInt) : value <<< 2 = 4 * value := by
  rw [BitVec.shiftLeft_eq_mul_twoPow, mul_comm]
  rfl

variable {radius a b : Nat}

theorem ofInt_start : (3 : UInt) - BitVec.ofNat 32 radius <<< 1 =
    BitVec.ofInt 32 (decision radius 0 radius) := by
  rw [decision_start, ofInt_difference, BitVec.ofInt_mul, shiftLeft_one]
  rfl

theorem ofInt_beside : BitVec.ofInt 32 (decision radius a b) + (BitVec.ofNat 32 a <<< 2 + 6) =
    BitVec.ofInt 32 (decision radius (a + 1) b) := by
  rw [decision_beside, BitVec.ofInt_add, BitVec.ofInt_add, BitVec.ofInt_mul, shiftLeft_two]
  rfl

theorem ofInt_below (positive : 0 < b) : BitVec.ofInt 32 (decision radius a b) +
    ((BitVec.ofNat 32 a - BitVec.ofNat 32 b) <<< 2 + 10) =
      BitVec.ofInt 32 (decision radius (a + 1) (b - 1)) := by
  rw [decision_below positive, BitVec.ofInt_add, BitVec.ofInt_add, BitVec.ofInt_mul,
    ofInt_difference, shiftLeft_two]
  rfl

theorem ofNat_less (positive : 0 < b) : BitVec.ofNat 32 b - 1 = BitVec.ofNat 32 (b - 1) :=
  BitVec.ofNat_sub_ofNat_of_le b 1 (by decide) positive

/-! ## The loop -/

section Loop

variable {visit : UInt → UInt → Draw Unit} {strokes : Nat × Nat → Strokes}

theorem order_ofNat (columns : a < 2 ^ 32) (rows : b < 2 ^ 32) :
    BitVec.ofNat 32 a ≤ BitVec.ofNat 32 b ↔ a ≤ b := by
  rw [BitVec.le_def, BitVec.toNat_ofNat, BitVec.toNat_ofNat, Nat.mod_eq_of_lt columns,
    Nat.mod_eq_of_lt rows]

def DrawsEighth (code : Draw Unit) (strokes : Nat × Nat → Strokes) (radius a : Nat) : Prop :=
  ∃ points : List (Nat × Nat), Draws code () (points.flatMap strokes) ∧
    ∀ p, p ∈ points ↔ OnOctant radius p.1 p.2 ∧ a ≤ p.1

theorem draws_circleEnd (columns : a < 2 ^ 32) (rows : b < 2 ^ 32) (arc : Arc radius a b)
    (ends : b < a) (fuel : Nat) (error : UInt) :
    DrawsEighth (Util.circleLoop visit (fuel + 1) (BitVec.ofNat 32 a, BitVec.ofNat 32 b, error))
      strokes radius a := by
  refine ⟨[], ?_, fun p => ?_⟩
  · rw [Util.circleLoop, if_neg (mt (order_ofNat columns rows).mp (Nat.not_le_of_lt ends))]
    exact Draws.done ()
  · refine iff_of_false List.not_mem_nil ?_
    rintro ⟨on, later⟩
    exact Nat.not_le_of_lt (arc.past ends on) later

theorem DrawsEighth.turn {code rest : Draw Unit} (arc : Arc radius a b) (room : a ≤ b)
    (draws : Draws code () (strokes (a, b))) (later : DrawsEighth rest strokes radius (a + 1)) :
    DrawsEighth (do code; rest) strokes radius a := by
  obtain ⟨points, follows, member⟩ := later
  refine ⟨(a, b) :: points, ?_, fun p => ?_⟩
  · rw [List.flatMap_cons]
    exact draws.bind follows
  · rw [List.mem_cons, member]
    constructor
    · rintro (rfl | ⟨on, ahead⟩)
      · exact ⟨⟨room, arc.near room⟩, Nat.le_refl _⟩
      · exact ⟨on, Nat.le_of_succ_le ahead⟩
    · rintro ⟨on, ahead⟩
      rcases Nat.eq_or_lt_of_le ahead with same | further
      · exact Or.inl (Prod.ext same.symm ((arc.here room).mp (same ▸ on)))
      · exact Or.inr ⟨on, further⟩

theorem draws_circleLoop (small : radius < 2 ^ 28)
    (draws : ∀ p, OnOctant radius p.1 p.2 →
      Draws (visit (BitVec.ofNat 32 p.1) (BitVec.ofNat 32 p.2)) () (strokes p))
    {fuel : Nat} (arc : Arc radius a b) (columns : a ≤ radius + 1) (rows : b ≤ radius)
    (fueled : b < a + fuel) :
    DrawsEighth (Util.circleLoop visit (fuel + 1) (BitVec.ofNat 32 a, BitVec.ofNat 32 b,
      BitVec.ofInt 32 (decision radius a b))) strokes radius a := by
  induction fuel generalizing a b with
  | zero => exact draws_circleEnd (by omega) (by omega) arc fueled 0 _
  | succ fuel ih =>
      by_cases room : a ≤ b
      · have near := arc.near room
        have positive := near.row_pos
        obtain ⟨lower, upper⟩ := near.decision_bounds
        have sign : (BitVec.ofInt 32 (decision radius a b)).slt 0 = decide (decision radius a b < 0) :=
          slt_ofInt (by omega) (by omega)
        have column : BitVec.ofNat 32 a + 1 = BitVec.ofNat 32 (a + 1) := (BitVec.ofNat_add ..).symm
        have order := (order_ofNat (by omega) (by omega)).mpr room
        rw [Util.circleLoop, if_pos order, sign, column, ofInt_beside, ofInt_below positive,
          ofNat_less positive]
        refine DrawsEighth.turn arc room (draws (a, b) ⟨room, near⟩) ?_
        by_cases inside : decision radius a b < 0
        · rw [if_pos (decide_eq_true inside)]
          exact ih (arc.beside room inside) (by omega) rows (by omega)
        · rw [if_neg (by simpa using inside)]
          exact ih (arc.below room (Int.not_lt.mp inside)) (by omega) (by omega) (by omega)
      · exact draws_circleEnd (by omega) (by omega) arc (Nat.lt_of_not_le room) _ _

end Loop

/-! ## The eighths -/

section Eighths

variable (prop : DrawProp) (color : UInt)

def pointsAt (column row : UInt) : List (Nat × Nat) :=
  if column < 128 ∧ row < 64 then [(column.toNat, row.toNat)] else []

theorem mem_pointsAt {column row : UInt} {r : Nat × Nat} :
    r ∈ pointsAt column row ↔ (r.1 < 128 ∧ r.2 < 64) ∧ r.1 = column.toNat ∧ r.2 = row.toNat := by
  unfold pointsAt
  split
  · rename_i there
    have inside : column.toNat < 128 ∧ row.toNat < 64 := there
    rw [List.mem_singleton, Prod.ext_iff]
    constructor
    · rintro ⟨same, line⟩
      rw [same, line]
      exact ⟨inside, rfl, rfl⟩
    · rintro ⟨_, same, line⟩
      exact ⟨same, line⟩
  · rename_i outside
    refine iff_of_false List.not_mem_nil ?_
    rintro ⟨inside, same, line⟩
    rw [same, line] at inside
    exact outside inside

theorem draws_setInside {row : UInt} (inside : row < 64) (column : UInt) :
    Draws (Util.setInside prop.setFuncDriver color row column) ()
      (strokesAt (pointsAt column row) (lit (prop.setFuncDriver.driverColor color))) := by
  have small : row.toNat < 64 := inside
  unfold Util.setInside pointsAt
  change Draws (if column < 128 then _ else _) _ _
  by_cases there : column < 128
  · have narrow : column.toNat < 128 := there
    rw [if_pos there, if_pos ⟨there, inside⟩]
    have pixel := draws_utilSetPixel prop.setFuncDriver color (column.setWidth 16) (row.setWidth 16)
    have wide : ∀ value : UInt, value.toNat < 2 ^ 16 →
        (value.setWidth 16).setWidth 32 = BitVec.ofNat 32 value.toNat := by
      intro value below
      apply BitVec.eq_of_toNat_eq
      rw [BitVec.toNat_setWidth, BitVec.toNat_setWidth, BitVec.toNat_ofNat]
      omega
    rwa [wide column (by omega), wide row (by omega)] at pixel
  · rw [if_neg there, if_neg fun both => there both.1]
    exact Draws.done ()

def pairPoints (row right left : UInt) : List (Nat × Nat) := pointsAt right row ++ pointsAt left row

theorem draws_drawPair (row right left : UInt) :
    Draws (Util.drawPair prop.setFuncDriver color row right left) ()
      (strokesAt (pairPoints row right left) (lit (prop.setFuncDriver.driverColor color))) := by
  unfold Util.drawPair pairPoints
  change Draws (if row < 64 then _ else _) _ _
  by_cases inside : row < 64
  · rw [if_pos inside, strokesAt, List.map_append]
    exact (draws_setInside prop color inside right).bind (draws_setInside prop color inside left)
  · have outside : ∀ column, pointsAt column row = [] := fun column =>
      if_neg fun both => inside both.2
    rw [if_neg inside, outside, outside]
    exact Draws.done ()

def eighthPoints (xpos ypos x y : UInt) : List (Nat × Nat) :=
  pairPoints (ypos - y) (xpos + x) (xpos - x) ++ (pairPoints (ypos - x) (xpos + y) (xpos - y) ++
    (pairPoints (ypos + y) (xpos + x) (xpos - x) ++ pairPoints (ypos + x) (xpos + y) (xpos - y)))

theorem draws_drawEighths (xpos ypos x y : UInt) :
    Draws (Util.drawEighths prop.setFuncDriver xpos ypos color x y) ()
      (strokesAt (eighthPoints xpos ypos x y) (lit (prop.setFuncDriver.driverColor color))) := by
  rw [eighthPoints, strokesAt, List.map_append, List.map_append, List.map_append]
  exact (draws_drawPair prop color _ _ _).bind ((draws_drawPair prop color _ _ _).bind
    ((draws_drawPair prop color _ _ _).bind (draws_drawPair prop color _ _ _)))

theorem dist_iff {center away value : Nat} (near : center < 2 ^ 30) (small : away < 2 ^ 30)
    (inside : value < 128) :
    (value = (BitVec.ofNat 32 center + BitVec.ofNat 32 away).toNat ∨
      value = (BitVec.ofNat 32 center - BitVec.ofNat 32 away).toNat) ↔
      Nat.dist center value = away := by
  unfold Nat.dist
  rw [BitVec.toNat_add, BitVec.toNat_sub, BitVec.toNat_ofNat, BitVec.toNat_ofNat]
  omega

theorem mem_eighthPoints {center : Nat × Nat} (columns : center.1 < 2 ^ 30)
    (rows : center.2 < 2 ^ 30) (below : a < 2 ^ 30) (small : b < 2 ^ 30) {r : Nat × Nat} :
    r ∈ eighthPoints (xpos center) (ypos center) (BitVec.ofNat 32 a) (BitVec.ofNat 32 b) ↔
      (r.1 < 128 ∧ r.2 < 64) ∧
        ((Nat.dist center.1 r.1 = a ∧ Nat.dist center.2 r.2 = b) ∨
          (Nat.dist center.1 r.1 = b ∧ Nat.dist center.2 r.2 = a)) := by
  simp only [eighthPoints, pairPoints, List.mem_append, mem_pointsAt, xpos, ypos]
  by_cases inside : r.1 < 128 ∧ r.2 < 64
  · rw [← dist_iff columns below inside.1, ← dist_iff columns small inside.1,
      ← dist_iff rows below (Nat.lt_trans inside.2 (by decide)),
      ← dist_iff rows small (Nat.lt_trans inside.2 (by decide))]
    simp only [inside, true_and]
    grind
  · simp only [inside, false_and, or_self]

end Eighths

/-! ## The circle -/

def OnCircle (center : Nat × Nat) (radius : Nat) (r : Nat × Nat) : Prop :=
  OnOctant radius (Nat.dist center.1 r.1) (Nat.dist center.2 r.2) ∨
    OnOctant radius (Nat.dist center.2 r.2) (Nat.dist center.1 r.1)

instance {center r : Nat × Nat} : Decidable (OnCircle center radius r) :=
  inferInstanceAs (Decidable ((_ ∧ _ ∧ _) ∨ (_ ∧ _ ∧ _)))

theorem draws_drawCircle (prop : DrawProp) (color : UInt) {center : Nat × Nat} (positive : 0 < radius)
    (small : radius < 2 ^ 28) (columns : center.1 < 2 ^ 30) (rows : center.2 < 2 ^ 30) :
    ∃ points, Draws (Util.drawCircle prop.setFuncDriver (xpos center) (ypos center)
        (BitVec.ofNat 32 radius) color) ()
        (strokesAt points (lit (prop.setFuncDriver.driverColor color))) ∧
      ∀ r, r ∈ points ↔ (r.1 < 128 ∧ r.2 < 64) ∧ OnCircle center radius r := by
  obtain ⟨octant, draws, member⟩ := draws_circleLoop small (fun p _ =>
    draws_drawEighths prop color (xpos center) (ypos center) (BitVec.ofNat 32 p.1)
      (BitVec.ofNat 32 p.2)) (Arc.start positive) (Nat.zero_le _) (Nat.le_refl _)
    (show radius < 0 + 0xFFFFFFFF by omega)
  have eighth : ∀ p : Nat × Nat, OnOctant radius p.1 p.2 → ∀ r, (r ∈ eighthPoints (xpos center) (ypos center)
      (BitVec.ofNat 32 p.1) (BitVec.ofNat 32 p.2) ↔ (r.1 < 128 ∧ r.2 < 64) ∧
        ((Nat.dist center.1 r.1 = p.1 ∧ Nat.dist center.2 r.2 = p.2) ∨
          (Nat.dist center.1 r.1 = p.2 ∧ Nat.dist center.2 r.2 = p.1))) := by
    intro p on r
    have bound := on.2.le_radius
    have order := on.1
    exact mem_eighthPoints columns rows (by omega) (by omega)
  refine ⟨octant.flatMap fun p => eighthPoints (xpos center) (ypos center) (BitVec.ofNat 32 p.1)
    (BitVec.ofNat 32 p.2), ?_, fun r => ?_⟩
  · rw [Util.drawCircle, ofInt_start, strokesAt, List.map_flatMap]
    exact draws
  · rw [List.mem_flatMap]
    constructor
    · rintro ⟨p, there, on⟩
      have octant := ((member p).mp there).1
      obtain ⟨inside, ⟨column, row⟩ | ⟨column, row⟩⟩ := (eighth p octant r).mp on
      · exact ⟨inside, Or.inl (column ▸ row ▸ octant)⟩
      · exact ⟨inside, Or.inr (column ▸ row ▸ octant)⟩
    · rintro ⟨inside, on | on⟩
      · exact ⟨(Nat.dist center.1 r.1, Nat.dist center.2 r.2), (member _).mpr ⟨on, Nat.zero_le _⟩,
          (eighth _ on r).mpr ⟨inside, Or.inl ⟨rfl, rfl⟩⟩⟩
      · exact ⟨(Nat.dist center.2 r.2, Nat.dist center.1 r.1), (member _).mpr ⟨on, Nat.zero_le _⟩,
          (eighth _ on r).mpr ⟨inside, Or.inr ⟨rfl, rfl⟩⟩⟩

/-- `UTIL_LCD_DrawCircle` ends, stays in the frame buffer and colours the pixels of the screen that
are nearest to the circle, and no others. -/
theorem drawCircle_lights (prop : DrawProp) {center : Nat × Nat} (color : UInt)
    (frame : PhysFrameBuffer) (positive : 0 < radius) (small : radius < 2 ^ 28)
    (columns : center.1 < 2 ^ 30) (rows : center.2 < 2 ^ 30) :
    ∃ target, Util.drawCircle prop.setFuncDriver (xpos center) (ypos center)
        (BitVec.ofNat 32 radius) color frame = some ((), target) ∧
      ∀ r : Pixel, view target r = if OnCircle center radius r.point
        then lit (prop.setFuncDriver.driverColor color) else view frame r := by
  obtain ⟨points, draws, member⟩ := draws_drawCircle prop color positive small columns rows
  obtain ⟨target, reached, shows⟩ := draws.lights (fun r there => ((member r).mp there).1) frame
  refine ⟨target, reached, fun r => (shows r).trans (if_congr ?_ rfl rfl)⟩
  exact (member _).trans (and_iff_right ⟨r.1.isLt, r.2.isLt⟩)

theorem drawCircle_lights_five : 0 < 5 ∧ 5 < 2 ^ 28 ∧ 64 < 2 ^ 30 ∧ 3 < 2 ^ 30 ∧
    ∃ target, Util.drawCircle (DrawProp.mk 0 0 0 0 0).setFuncDriver (xpos (64, 3)) (ypos (64, 3))
        (BitVec.ofNat 32 5) ssd1315ColorWhite (fun _ => 0) = some ((), target) ∧
      view target (69, 3) = true ∧ view target (68, 6) = true ∧ view target (64, 3) = false := by
  obtain ⟨target, reached, shows⟩ := @drawCircle_lights 5 (DrawProp.mk 0 0 0 0 0) (64, 3)
    ssd1315ColorWhite (fun _ => 0) (by decide) (by decide) (by decide) (by decide)
  refine ⟨by decide, by decide, by decide, by decide, target, reached, ?_, ?_, ?_⟩ <;>
    (rw [shows]; decide)

end Baelux.Lcd

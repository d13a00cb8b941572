import Mathlib.Data.Nat.Dist
import Baelux.Library.Raster
import Baelux.Lcd.Utility

/-! Lines: `UTIL_LCD_DrawLine` lights the pixels nearest to the line. -/

namespace Baelux.Lcd

open Baelux.Painting Baelux.Raster

/-! ## The arithmetic of `int16_t` -/

theorem sle_ofNat {a b : Nat} (left : a < 2 ^ 15) (right : b < 2 ^ 15) :
    (BitVec.ofNat 16 a).sle (BitVec.ofNat 16 b) = decide (a ≤ b) := by
  have small : ∀ n, n < 2 ^ 15 → (BitVec.ofNat 16 n).toInt = n := by
    intro n below
    have value : (BitVec.ofNat 16 n).toNat = n := by
      rw [BitVec.toNat_ofNat]
      omega
    rw [BitVec.toInt_eq_toNat_of_lt (by omega), value]
  rw [BitVec.sle, small a left, small b right]
  simp

theorem abs_sub {a b : Nat} (left : a < 2 ^ 14) (right : b < 2 ^ 14) :
    (Util.abs (BitVec.ofNat 32 b - BitVec.ofNat 32 a)).setWidth 16 =
      BitVec.ofNat 16 (Nat.dist a b) := by
  have value : (BitVec.ofNat 32 b - BitVec.ofNat 32 a).toNat = (2 ^ 32 - a + b) % 2 ^ 32 := by
    rw [BitVec.toNat_sub, BitVec.toNat_ofNat, BitVec.toNat_ofNat]
    omega
  apply BitVec.eq_of_toNat_eq
  rw [BitVec.toNat_setWidth, BitVec.toNat_ofNat, Util.abs, BitVec.slt, BitVec.toInt, BitVec.toInt,
    value, Nat.dist]
  by_cases rising : a < b
  · rw [if_pos (by simp; omega), value]
    omega
  · rw [if_neg (by simp; omega), BitVec.toNat_neg, value]
    omega

theorem half_ofNat {a : Nat} (below : a < 2 ^ 14) :
    (BitVec.ofNat 16 a).sdiv 2 = BitVec.ofNat 16 (a / 2) := by
  have value : (BitVec.ofNat 16 a).toNat = a := by
    rw [BitVec.toNat_ofNat]
    omega
  have positive : (BitVec.ofNat 16 a).msb = false :=
    BitVec.msb_eq_false_iff_two_mul_lt.mpr (by omega)
  have two : (2 : Short).msb = false := by decide
  rw [BitVec.sdiv_eq, positive, two]
  apply BitVec.eq_of_toNat_eq
  simp only [BitVec.udiv_eq, BitVec.toNat_udiv, value, BitVec.toNat_ofNat]
  change a / 2 = _
  omega

/-! ## The loop -/

/-- A place for each pixel of a line, so many pixels along it and so many across, and the
variables that lead from one to the next. -/
structure Leads (setup : Util.LineSetup) (major minor : Nat) (place : Nat → Nat → Short × Short) :
    Prop where
  den : setup.den = BitVec.ofNat 16 major
  numadd : setup.numadd = BitVec.ofNat 16 minor
  numpixels : setup.numpixels = BitVec.ofNat 16 major
  num : setup.num = BitVec.ofNat 16 (major / 2)
  straight : ∀ j c, place (j + 1) c = ((place j c).1 + setup.xinc2, (place j c).2 + setup.yinc2)
  turn : ∀ j c, place (j + 1) (c + 1) =
    ((place j c).1 + setup.xinc1 + setup.xinc2, (place j c).2 + setup.yinc1 + setup.yinc2)

theorem draws_lineLoop {visit : Short → Short → Draw Unit} {setup : Util.LineSetup}
    {major minor : Nat} {place : Nat → Nat → Short × Short} {strokes : Nat → Strokes}
    (leads : Leads setup major minor place) (small : major < 2 ^ 14) (flat : minor ≤ major)
    (draws : ∀ j, j ≤ major → Draws (visit (place j (acrossAt major minor j)).1
      (place j (acrossAt major minor j)).2) () (strokes j))
    {remaining j across numerator fuel : Nat} (count : j + remaining = major + 1)
    (fueled : remaining < fuel) (walk : Walk major minor j across numerator) :
    Draws (Util.lineLoop visit setup fuel (BitVec.ofNat 16 j)
        ((place j across).1, (place j across).2, BitVec.ofNat 16 numerator)) ()
      ((List.range' j remaining).flatMap strokes) := by
  induction remaining generalizing j across numerator fuel with
  | zero =>
      obtain ⟨fuel, rfl⟩ := Nat.exists_eq_succ_of_ne_zero (Nat.ne_of_gt fueled)
      have past : (BitVec.ofNat 16 j).sle setup.numpixels = false := by
        rw [leads.numpixels, sle_ofNat (by omega) (by omega)]
        exact decide_eq_false (by omega)
      rw [Util.lineLoop, if_neg (Bool.eq_false_iff.mp past)]
      exact Draws.done ()
  | succ remaining ih =>
      obtain ⟨fuel, rfl⟩ := Nat.exists_eq_succ_of_ne_zero (Nat.ne_of_gt (Nat.zero_lt_of_lt fueled))
      have below := walk.2
      have more : (BitVec.ofNat 16 j).sle setup.numpixels = true := by
        rw [leads.numpixels, sle_ofNat (by omega) (by omega)]
        exact decide_eq_true (by omega)
      have visits := draws j (by omega)
      rw [← walk.across_eq] at visits
      have next : BitVec.ofNat 16 j + 1 = BitVec.ofNat 16 (j + 1) := (BitVec.ofNat_add ..).symm
      have sum : BitVec.ofNat 16 numerator + setup.numadd = BitVec.ofNat 16 (numerator + minor) := by
        rw [leads.numadd]
        exact (BitVec.ofNat_add ..).symm
      rw [Util.lineLoop, if_pos more, List.range'_succ, List.flatMap_cons]
      refine visits.bind ?_
      simp only [sum, next, leads.den]
      rw [sle_ofNat (by omega) (by omega)]
      by_cases full : major ≤ numerator + minor
      · have left : BitVec.ofNat 16 (numerator + minor) - BitVec.ofNat 16 major =
            BitVec.ofNat 16 (numerator + minor - major) := by
          apply BitVec.eq_of_toNat_eq
          rw [BitVec.toNat_sub, BitVec.toNat_ofNat, BitVec.toNat_ofNat, BitVec.toNat_ofNat]
          omega
        have rest := @ih (j + 1) (across + 1) _ fuel (by omega) (by omega) (walk.turn flat full)
        rw [if_pos (decide_eq_true full), left]
        rwa [leads.turn] at rest
      · have rest := @ih (j + 1) across _ fuel (by omega) (by omega)
          (walk.straight (Nat.lt_of_not_le full))
        rw [if_neg (by simpa using full)]
        rwa [leads.straight] at rest

/-- The whole loop, also over a line of one pixel, on which the numerator is never below the
denominator. -/
theorem draws_wholeLoop {visit : Short → Short → Draw Unit} {setup : Util.LineSetup}
    {major minor : Nat} {place : Nat → Nat → Short × Short} {strokes : Nat → Strokes}
    (leads : Leads setup major minor place) (small : major < 2 ^ 14) (flat : minor ≤ major)
    (draws : ∀ j, j ≤ major → Draws (visit (place j (acrossAt major minor j)).1
      (place j (acrossAt major minor j)).2) () (strokes j)) {fuel : Nat}
    (fueled : major + 1 < fuel) {x y : Short} (first : place 0 0 = (x, y)) :
    Draws (Util.lineLoop visit setup fuel 0 (x, y, setup.num)) ()
      ((List.range (major + 1)).flatMap strokes) := by
  obtain ⟨rfl, rfl⟩ := Prod.mk.inj first
  rw [List.range_eq_range', leads.num]
  rcases Nat.eq_zero_or_pos major with rfl | long
  · obtain ⟨fuel, rfl⟩ : ∃ less, fuel = less + 1 + 1 := ⟨fuel - 2, by omega⟩
    have visits := draws 0 (Nat.le_refl _)
    rw [acrossAt, Nat.div_zero] at visits
    have first : (0 : Short).sle setup.numpixels = true := by
      rw [leads.numpixels]
      decide
    have sum : BitVec.ofNat 16 (0 / 2) + setup.numadd = 0 := by
      rw [leads.numadd, Nat.le_zero.mp flat]
      decide
    have full : setup.den.sle 0 = true := by
      rw [leads.den]
      decide
    have past : (0 + 1 : Short).sle setup.numpixels = false := by
      rw [leads.numpixels]
      decide
    rw [Util.lineLoop, if_pos first, List.range'_succ, List.flatMap_cons]
    refine visits.bind ?_
    simp only [sum, full, if_true, Util.lineLoop, past]
    exact Draws.done ()
  · exact draws_lineLoop leads small flat draws (Nat.zero_add _) fueled (Walk.start long)

theorem toward_short {a b n : Nat} (left : a < 2 ^ 14) (right : b < 2 ^ 14)
    (inside : n ≤ Nat.dist a b) :
    BitVec.ofNat 16 a + BitVec.ofNat 16 n *
        (if BitVec.ofNat 32 a ≤ BitVec.ofNat 32 b then 1 else -1) =
      BitVec.ofNat 16 (toward a b n) := by
  have order : BitVec.ofNat 32 a ≤ BitVec.ofNat 32 b ↔ a ≤ b := by
    rw [BitVec.le_def, BitVec.toNat_ofNat, BitVec.toNat_ofNat]
    omega
  unfold Nat.dist at inside
  unfold toward
  by_cases rising : a ≤ b
  · rw [if_pos (order.mpr rising), if_pos rising, mul_one, BitVec.ofNat_add]
  · rw [if_neg (mt order.mp rising), if_neg rising, mul_neg, mul_one, ← sub_eq_add_neg]
    apply BitVec.eq_of_toNat_eq
    rw [BitVec.toNat_sub, BitVec.toNat_ofNat, BitVec.toNat_ofNat, BitVec.toNat_ofNat]
    omega

section Walk

variable {p q : Nat × Nat}

def Fits (p : Nat × Nat) : Prop := p.1 < 2 ^ 14 ∧ p.2 < 2 ^ 14

def xpos (p : Nat × Nat) : UInt := BitVec.ofNat 32 p.1
def ypos (p : Nat × Nat) : UInt := BitVec.ofNat 32 p.2

def increment (a b : Nat) : Short := if BitVec.ofNat 32 a ≤ BitVec.ofNat 32 b then 1 else -1

theorem ofNat_succ_mul (n : Nat) (step : Short) :
    BitVec.ofNat 16 (n + 1) * step = BitVec.ofNat 16 n * step + step := by
  rw [BitVec.ofNat_add]
  exact add_one_mul _ step

theorem dist_small {a b : Nat} (left : a < 2 ^ 14) (right : b < 2 ^ 14) :
    Nat.dist a b < 2 ^ 14 := by
  unfold Nat.dist
  omega

theorem lineSetup_wide (start : Fits p) (stop : Fits q)
    (wide : Nat.dist p.2 q.2 ≤ Nat.dist p.1 q.1) :
    Util.lineSetup (xpos p) (ypos p) (xpos q) (ypos q) =
      { xinc1 := 0, xinc2 := increment p.1 q.1, yinc1 := increment p.2 q.2, yinc2 := 0
        den := BitVec.ofNat 16 (Nat.dist p.1 q.1), num := BitVec.ofNat 16 (Nat.dist p.1 q.1 / 2)
        numadd := BitVec.ofNat 16 (Nat.dist p.2 q.2)
        numpixels := BitVec.ofNat 16 (Nat.dist p.1 q.1) } := by
  have columns := dist_small start.1 stop.1
  have rows := dist_small start.2 stop.2
  simp only [Util.lineSetup, xpos, ypos, abs_sub start.1 stop.1, abs_sub start.2 stop.2,
    sle_ofNat (Nat.lt_trans rows (by decide)) (Nat.lt_trans columns (by decide)), wide,
    half_ofNat columns, decide_true, if_true, increment]
  rfl

theorem lineSetup_high (start : Fits p) (stop : Fits q)
    (high : Nat.dist p.1 q.1 < Nat.dist p.2 q.2) :
    Util.lineSetup (xpos p) (ypos p) (xpos q) (ypos q) =
      { xinc1 := increment p.1 q.1, xinc2 := 0, yinc1 := 0, yinc2 := increment p.2 q.2
        den := BitVec.ofNat 16 (Nat.dist p.2 q.2), num := BitVec.ofNat 16 (Nat.dist p.2 q.2 / 2)
        numadd := BitVec.ofNat 16 (Nat.dist p.1 q.1)
        numpixels := BitVec.ofNat 16 (Nat.dist p.2 q.2) } := by
  have columns := dist_small start.1 stop.1
  have rows := dist_small start.2 stop.2
  simp only [Util.lineSetup, xpos, ypos, abs_sub start.1 stop.1, abs_sub start.2 stop.2,
    sle_ofNat (Nat.lt_trans rows (by decide)) (Nat.lt_trans columns (by decide)),
    Nat.not_le_of_lt high, half_ofNat rows, decide_false, increment]
  rfl

theorem increment_steps {a b n : Nat} (left : a < 2 ^ 14) (right : b < 2 ^ 14)
    (inside : n ≤ Nat.dist a b) :
    BitVec.ofNat 16 a + BitVec.ofNat 16 n * increment a b = BitVec.ofNat 16 (toward a b n) :=
  toward_short left right inside

theorem no_steps (value step : Short) : value + BitVec.ofNat 16 0 * step = value := by
  rw [show BitVec.ofNat 16 0 = 0 from rfl, zero_mul, add_zero]

def placeAt (p q : Nat × Nat) (columns rows : Nat) : Short × Short :=
  (BitVec.ofNat 16 p.1 + BitVec.ofNat 16 columns * increment p.1 q.1,
    BitVec.ofNat 16 p.2 + BitVec.ofNat 16 rows * increment p.2 q.2)

theorem placeAt_toward {columns rows : Nat} (start : Fits p) (stop : Fits q)
    (inside : columns ≤ Nat.dist p.1 q.1) (within : rows ≤ Nat.dist p.2 q.2) :
    placeAt p q columns rows =
      (BitVec.ofNat 16 (toward p.1 q.1 columns), BitVec.ofNat 16 (toward p.2 q.2 rows)) :=
  Prod.ext (increment_steps start.1 stop.1 inside) (increment_steps start.2 stop.2 within)

theorem placeAt_zero : placeAt p q 0 0 = (BitVec.ofNat 16 p.1, BitVec.ofNat 16 p.2) :=
  Prod.ext (no_steps ..) (no_steps ..)

theorem leads_wide (start : Fits p) (stop : Fits q)
    (wide : Nat.dist p.2 q.2 ≤ Nat.dist p.1 q.1) :
    Leads (Util.lineSetup (xpos p) (ypos p) (xpos q) (ypos q)) (Nat.dist p.1 q.1)
      (Nat.dist p.2 q.2) (placeAt p q) := by
  rw [lineSetup_wide start stop wide]
  refine ⟨rfl, rfl, rfl, rfl, fun j c => ?_, fun j c => ?_⟩ <;>
    simp only [placeAt, ofNat_succ_mul, add_zero, add_assoc]

theorem leads_high (start : Fits p) (stop : Fits q)
    (high : Nat.dist p.1 q.1 < Nat.dist p.2 q.2) :
    Leads (Util.lineSetup (xpos p) (ypos p) (xpos q) (ypos q)) (Nat.dist p.2 q.2)
      (Nat.dist p.1 q.1) fun rows columns => placeAt p q columns rows := by
  rw [lineSetup_high start stop high]
  refine ⟨rfl, rfl, rfl, rfl, fun j c => ?_, fun j c => ?_⟩ <;>
    simp only [placeAt, ofNat_succ_mul, add_zero, add_assoc]

theorem draws_walkLine {visit : Short → Short → Draw Unit} {strokes : Nat × Nat → Strokes}
    (start : Fits p) (stop : Fits q)
    (draws : ∀ r, OnLine p q r →
      Draws (visit (BitVec.ofNat 16 r.1) (BitVec.ofNat 16 r.2)) () (strokes r)) :
    Draws (Util.walkLine visit (xpos p) (ypos p) (xpos q) (ypos q)) ()
      ((linePoints p q).flatMap strokes) := by
  have columns := dist_small start.1 stop.1
  have rows := dist_small start.2 stop.2
  have first_x : (xpos p).setWidth 16 = BitVec.ofNat 16 p.1 :=
    BitVec.setWidth_ofNat_of_le (by decide) _
  have first_y : (ypos p).setWidth 16 = BitVec.ofNat 16 p.2 :=
    BitVec.setWidth_ofNat_of_le (by decide) _
  unfold OnLine at draws
  unfold Util.walkLine linePoints
  rw [first_x, first_y]
  by_cases wide : Nat.dist p.2 q.2 ≤ Nat.dist p.1 q.1
  · simp only [if_pos wide] at draws
    rw [if_pos wide, List.flatMap_map]
    refine draws_wholeLoop (leads_wide start stop wide) columns wide (fun j inside => ?_)
      (by omega) placeAt_zero
    have visits := draws _ (wideAt_on wide inside)
    rwa [placeAt_toward start stop inside (acrossAt_le inside)]
  · simp only [if_neg wide] at draws
    have high := Nat.lt_of_not_le wide
    rw [if_neg wide, List.flatMap_map]
    refine draws_wholeLoop (leads_high start stop high) rows (Nat.le_of_lt high)
      (fun j inside => ?_) (by omega) placeAt_zero
    have visits := draws (wideAt p.swap q.swap j).swap
      (wideAt_on (p := p.swap) (q := q.swap) (Nat.le_of_lt high) inside)
    rwa [placeAt_toward start stop (acrossAt_le inside) inside]

end Walk

/-! ## What is drawn -/

section Figures

variable (prop : DrawProp) (color : UInt) {p q : Nat × Nat}

theorem Fits.between {r : Nat × Nat} (start : Fits p) (stop : Fits q) (on : OnLine p q r) :
    Fits r := by
  obtain ⟨columns, rows⟩ := on.between
  unfold Fits Between at *
  omega

theorem draws_utilSetPixel (x y : Short) :
    Draws (Util.setPixel prop x y color) ()
      [stroke (x.setWidth 32) (y.setWidth 32) (lit (prop.driverColor color))] :=
  (draws_setPixel _ _ _).bind (Draws.done ())

def strokesAt (points : List (Nat × Nat)) (lit : Bool) : Strokes :=
  points.map fun r => stroke (xpos r) (ypos r) lit

theorem draws_drawLine (start : Fits p) (stop : Fits q) :
    Draws (Util.drawLine prop (xpos p) (ypos p) (xpos q) (ypos q) color) ()
      (strokesAt (linePoints p q) (lit (prop.driverColor color))) := by
  rw [strokesAt, List.map_eq_flatMap]
  refine draws_walkLine start stop fun r on => ?_
  have fits := start.between stop on
  have wider : ∀ n, n < 2 ^ 14 → (BitVec.ofNat 16 n).setWidth 32 = BitVec.ofNat 32 n :=
    fun n below => BitVec.setWidth_ofNat_of_le_of_lt (by decide) (by omega)
  have pixel := draws_utilSetPixel prop color (BitVec.ofNat 16 r.1) (BitVec.ofNat 16 r.2)
  rwa [wider _ fits.1, wider _ fits.2] at pixel

theorem stroke_screen {r : Nat × Nat} (column : r.1 < 128) (row : r.2 < 64) (lit : Bool) :
    stroke (xpos r) (ypos r) lit = (some (⟨r.1, column⟩, ⟨r.2, row⟩), lit) := by
  refine Prod.ext (home_screen (⟨r.1, column⟩, ⟨r.2, row⟩) ?_ ?_) rfl
  · rw [xpos, BitVec.toNat_ofNat]
    exact Nat.mod_eq_of_lt (by omega)
  · rw [ypos, BitVec.toNat_ofNat]
    exact Nat.mod_eq_of_lt (by omega)

theorem Draws.lights {code : Draw Unit} {points : List (Nat × Nat)} {lit : Bool}
    (draws : Draws code () (strokesAt points lit))
    (inside : ∀ r ∈ points, r.1 < 128 ∧ r.2 < 64) (frame : PhysFrameBuffer) :
    ∃ target, code frame = some ((), target) ∧ ∀ r : Pixel,
      view target r = if (r.1.val, r.2.val) ∈ points then lit else view frame r := by
  have maps := draws frame
  rw [paint_colours fun _ => lit] at maps
  · obtain ⟨⟨⟨⟩, target⟩, reached, same⟩ := Option.map_eq_some_iff.mp maps
    refine ⟨target, reached, fun r => ?_⟩
    have shows := congrFun (congrArg Prod.snd same) r
    have member : some r ∈ (strokesAt points lit).map Prod.fst ↔ (r.1.val, r.2.val) ∈ points := by
      simp only [strokesAt, List.map_map, List.mem_map, Function.comp_apply]
      constructor
      · rintro ⟨other, there, falls⟩
        obtain ⟨column, row⟩ := inside other there
        rw [stroke_screen column row] at falls
        cases falls
        exact there
      · intro there
        exact ⟨_, there, congrArg Prod.fst (stroke_screen r.1.isLt r.2.isLt lit)⟩
    refine shows.trans ?_
    dsimp only
    by_cases here : (r.1.val, r.2.val) ∈ points
    · rw [if_pos (member.mpr here), if_pos here]
    · rw [if_neg (mt member.mp here), if_neg here]
  · intro painted there
    obtain ⟨r, here, rfl⟩ := List.mem_map.mp there
    obtain ⟨column, row⟩ := inside r here
    exact ⟨_, stroke_screen column row lit⟩

def Pixel.point (p : Pixel) : Nat × Nat := (p.1, p.2)

theorem Pixel.fits (p : Pixel) : Fits p.point := by
  unfold Fits Pixel.point
  omega

theorem on_screen {p q : Pixel} {r : Nat × Nat} (on : OnLine p.point q.point r) :
    r.1 < 128 ∧ r.2 < 64 := by
  obtain ⟨columns, rows⟩ := on.between
  unfold Between Pixel.point at *
  omega

/-- A line between two pixels of the screen stays on the screen and colours the pixels nearest
to it, both ends among them, and no others. -/
theorem drawLine_lights (prop : DrawProp) (p q : Pixel) (color : UInt) (frame : PhysFrameBuffer) :
    ∃ target, Util.drawLine prop (xpos p.point) (ypos p.point) (xpos q.point) (ypos q.point) color
        frame = some ((), target) ∧
      ∀ r : Pixel, view target r =
        if OnLine p.point q.point r.point then lit (prop.driverColor color) else view frame r := by
  obtain ⟨target, reached, shows⟩ := (draws_drawLine prop color p.fits q.fits).lights
    (fun r on => on_screen (mem_linePoints.mp on)) frame
  exact ⟨target, reached, fun r => (shows r).trans (if_congr mem_linePoints rfl rfl)⟩

end Figures

end Baelux.Lcd

import Baelux.Lcd.Line

/-! Triangles and polygons: figures made of lines, which stay on the screen with their corners. -/

namespace Baelux.Lcd

open Baelux.Painting Baelux.Raster

variable (prop : DrawProp) (color : UInt) {p q r : Nat × Nat}

def Pixel.toPoint (p : Pixel) : Util.Point := ⟨BitVec.ofNat 16 p.1, BitVec.ofNat 16 p.2⟩

theorem signExtend_small {n : Nat} (below : n < 2 ^ 15) :
    (BitVec.ofNat 16 n).signExtend 32 = BitVec.ofNat 32 n := by
  have positive : (BitVec.ofNat 16 n).msb = false := by
    rw [BitVec.msb_eq_false_iff_two_mul_lt, BitVec.toNat_ofNat]
    omega
  rw [BitVec.signExtend_eq_setWidth_of_msb_false positive]
  exact BitVec.setWidth_ofNat_of_le_of_lt (by decide) (by omega)

theorem wideX_toPoint (p : Pixel) : p.toPoint.wideX = xpos p.point :=
  signExtend_small (by omega)

theorem wideY_toPoint (p : Pixel) : p.toPoint.wideY = ypos p.point :=
  signExtend_small (by omega)

def trianglePoints (p q r : Nat × Nat) : List (Nat × Nat) :=
  (linePoints p q).flatMap fun side => linePoints side r

/-- A pixel of a triangle as it is filled: on the line from a pixel of its first side to its
last corner. -/
def InTriangle (p q r pixel : Nat × Nat) : Prop := ∃ side, OnLine p q side ∧ OnLine side r pixel

theorem mem_trianglePoints {pixel : Nat × Nat} :
    pixel ∈ trianglePoints p q r ↔ InTriangle p q r pixel := by
  simp only [trianglePoints, InTriangle, List.mem_flatMap, mem_linePoints]

theorem inTriangle_iff {pixel : Nat × Nat} :
    (∃ side ∈ linePoints p q, OnLine side r pixel) ↔ InTriangle p q r pixel := by
  simp only [InTriangle, mem_linePoints]

instance {pixel : Nat × Nat} : Decidable (InTriangle p q r pixel) :=
  decidable_of_iff _ inTriangle_iff

theorem strokesAt_flatMap {α : Type} (items : List α) (points : α → List (Nat × Nat)) (lit : Bool) :
    strokesAt (items.flatMap points) lit = items.flatMap fun item => strokesAt (points item) lit :=
  List.map_flatMap ..

theorem draws_fillTriangle (first : Fits p) (second : Fits q) (third : Fits r) :
    Draws (Util.fillTriangle prop (xpos p) (ypos p) (xpos q) (ypos q) (xpos r) (ypos r) color) ()
      (strokesAt (trianglePoints p q r) (lit (prop.driverColor color))) := by
  rw [trianglePoints, strokesAt_flatMap]
  refine draws_walkLine first second fun side on => ?_
  have fits := first.between second on
  rw [signExtend_small (Nat.lt_trans fits.1 (by decide)),
    signExtend_small (Nat.lt_trans fits.2 (by decide))]
  exact draws_drawLine prop color fits third

/-! ## Sides -/

/-- The sides of a polygon, the closing one first. -/
def sides : List Pixel → List (Pixel × Pixel)
  | [] | [_] => []
  | first :: second :: rest =>
      (first, (second :: rest).getLast (List.cons_ne_nil _ _)) ::
        (first :: second :: rest).zip (second :: rest)

theorem draws_alongSides {side : Util.Point → Util.Point → Draw Unit}
    {points : Pixel → Pixel → List (Nat × Nat)} {lit : Bool}
    (draws : ∀ p q : Pixel, Draws (side p.toPoint q.toPoint) () (strokesAt (points p q) lit))
    (first : Pixel) (rest : List Pixel) :
    Draws (Util.alongSides side first.toPoint (rest.map Pixel.toPoint)) ()
      (strokesAt (((first :: rest).zip rest).flatMap fun s => points s.1 s.2) lit) := by
  induction rest generalizing first with
  | nil => exact Draws.done ()
  | cons next rest ih =>
      rw [List.zip_cons_cons, List.flatMap_cons, strokesAt, List.map_append]
      exact (draws first next).bind (ih next)

theorem draws_drawSide (p q : Pixel) :
    Draws (Util.drawSide prop color p.toPoint q.toPoint) ()
      (strokesAt (linePoints p.point q.point) (lit (prop.driverColor color))) := by
  rw [Util.drawSide, wideX_toPoint, wideY_toPoint, wideX_toPoint, wideY_toPoint]
  exact draws_drawLine prop color p.fits q.fits

theorem getLast_toPoint (second : Pixel) (rest : List Pixel) :
    ((second :: rest).map Pixel.toPoint).getLast (List.cons_ne_nil _ _) =
      ((second :: rest).getLast (List.cons_ne_nil _ _)).toPoint :=
  List.getLast_map ..

theorem draws_drawPolygon (points : List Pixel) :
    Draws (Util.drawPolygon prop (points.map Pixel.toPoint) color) ()
      (strokesAt ((sides points).flatMap fun s => linePoints s.1.point s.2.point)
        (lit (prop.driverColor color))) := by
  match points with
  | [] => exact Draws.done ()
  | [_] => exact Draws.done ()
  | first :: second :: rest =>
      rw [sides, List.flatMap_cons, strokesAt, List.map_append]
      have closing := draws_drawSide prop color first
        ((second :: rest).getLast (List.cons_ne_nil _ _))
      rw [← getLast_toPoint] at closing
      exact closing.bind (draws_alongSides (draws_drawSide prop color) first (second :: rest))

/-- A polygon on the screen colours the pixels of its sides and of the side that closes it. -/
theorem drawPolygon_lights (prop : DrawProp) (points : List Pixel) (color : UInt)
    (frame : PhysFrameBuffer) :
    ∃ target, Util.drawPolygon prop (points.map Pixel.toPoint) color frame = some ((), target) ∧
      ∀ r : Pixel, view target r =
        if ∃ side ∈ sides points, OnLine side.1.point side.2.point r.point
        then lit (prop.driverColor color) else view frame r := by
  have member : ∀ r, (r ∈ (sides points).flatMap fun s => linePoints s.1.point s.2.point) ↔
      ∃ side ∈ sides points, OnLine side.1.point side.2.point r := by
    intro r
    simp only [List.mem_flatMap, mem_linePoints]
  obtain ⟨target, reached, shows⟩ := (draws_drawPolygon prop color points).lights
    (fun r there => by
      obtain ⟨side, _, on⟩ := (member r).mp there
      exact on_screen on) frame
  exact ⟨target, reached, fun r => (shows r).trans (if_congr (member _) rfl rfl)⟩

/-! ## Filling -/

def middleOf (first : Nat) (rest : List Nat) : Nat := (rest.foldl min first + rest.foldl max first) / 2

theorem foldl_min_le (first : Nat) (rest : List Nat) : rest.foldl min first ≤ first := by
  induction rest generalizing first with
  | nil => exact Nat.le_refl _
  | cons next rest ih => exact Nat.le_trans (ih _) (Nat.min_le_left ..)

theorem foldl_max_lt {first bound : Nat} {rest : List Nat} (start : first < bound)
    (inside : ∀ value ∈ rest, value < bound) : rest.foldl max first < bound := by
  induction rest generalizing first with
  | nil => exact start
  | cons next rest ih =>
      refine ih (Nat.max_lt.mpr ⟨start, inside next List.mem_cons_self⟩) fun value member => ?_
      exact inside value (List.mem_cons_of_mem _ member)

theorem middleOf_lt {first bound : Nat} {rest : List Nat} (start : first < bound)
    (inside : ∀ value ∈ rest, value < bound) : middleOf first rest < bound := by
  have least := foldl_min_le first rest
  have greatest := foldl_max_lt start inside
  unfold middleOf
  omega

theorem column_lt (points : List Pixel) : ∀ value ∈ points.map (·.1.val), value < 128 := by
  intro value member
  obtain ⟨p, _, rfl⟩ := List.mem_map.mp member
  exact p.1.isLt

theorem row_lt (points : List Pixel) : ∀ value ∈ points.map (·.2.val), value < 64 := by
  intro value member
  obtain ⟨p, _, rfl⟩ := List.mem_map.mp member
  exact p.2.isLt

/-- The middle of the box around the first 32768 points of a polygon: the counter of the loop is an
`int16_t`, and the loop ends where it gets negative. -/
def middle (first : Pixel) (rest : List Pixel) : Pixel :=
  (⟨_, middleOf_lt first.1.isLt (column_lt (rest.take 32767))⟩,
    ⟨_, middleOf_lt first.2.isLt (row_lt (rest.take 32767))⟩)

def boxOf (left right top bottom : Nat) : Util.ImageBox :=
  ⟨BitVec.ofNat 32 left, BitVec.ofNat 32 right, BitVec.ofNat 32 top, BitVec.ofNat 32 bottom⟩

theorem lt_ofNat {a b : Nat} (left : a < 128) (right : b < 128) :
    BitVec.ofNat 32 a < BitVec.ofNat 32 b ↔ a < b := by
  rw [BitVec.lt_def, BitVec.toNat_ofNat, BitVec.toNat_ofNat]
  omega

theorem foldl_widen {left right top bottom : Nat} (points : List Pixel) (columns : left < 128)
    (further : right < 128) (rows : top < 128) (lower : bottom < 128) :
    (points.map Pixel.toPoint).foldl Util.ImageBox.widen (boxOf left right top bottom) =
      boxOf ((points.map (·.1.val)).foldl min left) ((points.map (·.1.val)).foldl max right)
        ((points.map (·.2.val)).foldl min top) ((points.map (·.2.val)).foldl max bottom) := by
  induction points generalizing left right top bottom with
  | nil => rfl
  | cons p points ih =>
      have column := p.1.isLt
      have row : p.2.val < 128 := Nat.lt_trans p.2.isLt (by decide)
      have step : (boxOf left right top bottom).widen p.toPoint =
          boxOf (min left p.1) (max right p.1) (min top p.2) (max bottom p.2) := by
        simp only [Util.ImageBox.widen, boxOf, wideX_toPoint, wideY_toPoint, xpos, ypos, Pixel.point,
          lt_ofNat column columns, lt_ofNat further column, lt_ofNat row rows, lt_ofNat lower row]
        congr 1 <;> split <;> congr 1 <;> omega
      rw [List.map_cons, List.foldl_cons, step]
      exact ih (by omega) (by omega) (by omega) (by omega)

theorem half_sum {a b : Nat} (left : a < 128) (right : b < 128) :
    ((BitVec.ofNat 32 a + BitVec.ofNat 32 b) / 2).setWidth 16 = BitVec.ofNat 16 ((a + b) / 2) := by
  have sum : (BitVec.ofNat 32 a + BitVec.ofNat 32 b).toNat = a + b := by
    rw [BitVec.toNat_add, BitVec.toNat_ofNat, BitVec.toNat_ofNat]
    omega
  apply BitVec.eq_of_toNat_eq
  rw [BitVec.toNat_setWidth, BitVec.toNat_udiv, sum, BitVec.toNat_ofNat]
  rfl

theorem center_imageBox (first : Pixel) (rest : List Pixel) :
    (Util.imageBox first.toPoint (rest.map Pixel.toPoint)).center =
      (middle first rest).toPoint := by
  have column := first.1.isLt
  have row : first.2.val < 128 := Nat.lt_trans first.2.isLt (by decide)
  have within : ∀ value ∈ (rest.take 32767).map (·.2.val), value < 128 := fun value member =>
    Nat.lt_trans (row_lt _ value member) (by decide)
  have box := foldl_widen (rest.take 32767) column column row row
  rw [Util.imageBox, wideX_toPoint, wideY_toPoint, ← List.map_take]
  refine (congrArg Util.ImageBox.center box).trans ?_
  have least := foldl_min_le first.1 ((rest.take 32767).map (·.1.val))
  have highest := foldl_min_le first.2 ((rest.take 32767).map (·.2.val))
  have greatest := foldl_max_lt column (column_lt (rest.take 32767))
  have lowest := foldl_max_lt row within
  rw [Util.ImageBox.center, boxOf, half_sum (by omega) greatest, half_sum lowest (by omega)]
  rw [Nat.add_comm (List.foldl max first.2.val _)]
  rfl

/-- What one side of a polygon adds when it is filled: its three triangles with the middle. -/
def InFan (center first second pixel : Nat × Nat) : Prop :=
  InTriangle first second center pixel ∨ InTriangle first center second pixel ∨
    InTriangle center second first pixel

def fanPoints (center first second : Nat × Nat) : List (Nat × Nat) :=
  trianglePoints first second center ++ trianglePoints first center second ++
    trianglePoints center second first

theorem mem_fanPoints {center first second pixel : Nat × Nat} :
    pixel ∈ fanPoints center first second ↔ InFan center first second pixel := by
  simp only [fanPoints, InFan, List.mem_append, mem_trianglePoints, or_assoc]

instance {center first second pixel : Nat × Nat} : Decidable (InFan center first second pixel) :=
  inferInstanceAs (Decidable (_ ∨ _ ∨ _))

theorem draws_fillPoints (p q r : Pixel) :
    Draws (Util.fillPoints prop color p.toPoint q.toPoint r.toPoint) ()
      (strokesAt (trianglePoints p.point q.point r.point) (lit (prop.driverColor color))) := by
  rw [Util.fillPoints, wideX_toPoint, wideY_toPoint, wideX_toPoint, wideY_toPoint, wideX_toPoint,
    wideY_toPoint]
  exact draws_fillTriangle prop color p.fits q.fits r.fits

theorem draws_fillSide (center p q : Pixel) :
    Draws (Util.fillSide prop color center.toPoint p.toPoint q.toPoint) ()
      (strokesAt (fanPoints center.point p.point q.point) (lit (prop.driverColor color))) := by
  rw [fanPoints, List.append_assoc, strokesAt, List.map_append, List.map_append]
  exact (draws_fillPoints prop color p q center).bind
    ((draws_fillPoints prop color p center q).bind (draws_fillPoints prop color center q p))

theorem inTriangle_screen {p q r : Pixel} {pixel : Nat × Nat}
    (inside : InTriangle p.point q.point r.point pixel) : pixel.1 < 128 ∧ pixel.2 < 64 := by
  obtain ⟨side, first, last⟩ := inside
  obtain ⟨column, row⟩ := on_screen first
  exact on_screen (p := (⟨_, column⟩, ⟨_, row⟩)) last

theorem inFan_screen {center p q : Pixel} {pixel : Nat × Nat}
    (inside : InFan center.point p.point q.point pixel) : pixel.1 < 128 ∧ pixel.2 < 64 := by
  rcases inside with first | second | third
  · exact inTriangle_screen first
  · exact inTriangle_screen second
  · exact inTriangle_screen third

theorem draws_fillPolygon (first : Pixel) (rest : List Pixel) :
    ∃ points, Draws (Util.fillPolygon prop ((first :: rest).map Pixel.toPoint) color) ()
        (strokesAt points (lit (prop.driverColor color))) ∧
      ∀ pixel, pixel ∈ points ↔ ∃ side ∈ sides (first :: rest),
        InFan (middle first rest).point side.1.point side.2.point pixel := by
  match rest with
  | [] => exact ⟨[], Draws.done (), fun pixel => by simp [sides]⟩
  | second :: rest =>
      have along := draws_alongSides (draws_fillSide prop color
        (middle first (second :: rest))) first (second :: rest)
      have closing := draws_fillSide prop color (middle first (second :: rest))
        first ((second :: rest).getLast (List.cons_ne_nil _ _))
      rw [← getLast_toPoint] at closing
      rw [← center_imageBox] at along closing
      refine ⟨((first :: second :: rest).zip (second :: rest)).flatMap (fun s =>
          fanPoints (middle first (second :: rest)).point s.1.point s.2.point) ++
        fanPoints (middle first (second :: rest)).point first.point
          ((second :: rest).getLast (List.cons_ne_nil _ _)).point, ?_, fun pixel => ?_⟩
      · rw [strokesAt, List.map_append]
        exact along.bind closing
      · simp only [sides, List.mem_append, List.mem_flatMap, mem_fanPoints, List.mem_cons,
          exists_eq_or_imp]
        exact or_comm

/-- A polygon on the screen is filled with the triangles between its sides and the middle of
its box, and nothing else is coloured. -/
theorem fillPolygon_lights (prop : DrawProp) (first : Pixel) (rest : List Pixel) (color : UInt)
    (frame : PhysFrameBuffer) :
    ∃ target, Util.fillPolygon prop ((first :: rest).map Pixel.toPoint) color frame =
        some ((), target) ∧
      ∀ r : Pixel, view target r =
        if ∃ side ∈ sides (first :: rest),
          InFan (middle first rest).point side.1.point side.2.point r.point
        then lit (prop.driverColor color) else view frame r := by
  obtain ⟨points, draws, member⟩ := draws_fillPolygon prop color first rest
  obtain ⟨target, reached, shows⟩ := draws.lights (fun r there => by
      obtain ⟨side, _, inside⟩ := (member r).mp there
      exact inFan_screen inside) frame
  exact ⟨target, reached, fun r => (shows r).trans (if_congr (member _) rfl rfl)⟩

end Baelux.Lcd

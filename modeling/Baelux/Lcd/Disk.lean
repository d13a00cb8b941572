import Baelux.Lcd.Circle
import Baelux.Lcd.Rectangle

/-! Filled circles: `UTIL_LCD_FillCircle` colours the pixels of a disk. -/

namespace Baelux.Lcd

open Baelux.Painting Baelux.Raster

/-- A disk whose rows are on the screen and end there. It may reach over the left edge, where the
code cuts it. -/
structure Disk where
  center : Nat × Nat
  radius : Nat
  positive : 0 < radius
  right : center.1 + radius ≤ 128
  top : radius ≤ center.2
  bottom : center.2 + radius < 64

namespace Disk

variable {disk : Disk} {p r : Nat × Nat}

def Inside (disk : Disk) (r : Nat × Nat) : Prop :=
  InDisk disk.radius (Nat.dist disk.center.1 r.1) (Nat.dist disk.center.2 r.2)

instance : Decidable (disk.Inside r) := inferInstanceAs (Decidable (InDisk _ _ _))

theorem narrow (disk : Disk) : disk.radius ≤ 128 :=
  Nat.le_trans (Nat.le_add_left _ _) disk.right

def rowAt (disk : Disk) (half row : Nat) : List (Nat × Nat) :=
  rowPoints (disk.center.1 - half) row (min disk.center.1 half + half)

theorem mem_rowAt {half row : Nat} : r ∈ disk.rowAt half row ↔
    (disk.center.1 ≤ r.1 + half ∧ r.1 < disk.center.1 + half) ∧ r.2 = row := by
  rw [rowAt, mem_rowPoints]
  omega

def rowsAt (disk : Disk) (p : Nat × Nat) : List (Nat × Nat) :=
  (disk.rowAt p.2 (disk.center.2 + p.1) ++ disk.rowAt p.2 (disk.center.2 - p.1)) ++
    (disk.rowAt p.1 (disk.center.2 - p.2) ++ disk.rowAt p.1 (disk.center.2 + p.2))

theorem mem_rowsAt (on : OnOctant disk.radius p.1 p.2) : r ∈ disk.rowsAt p ↔
    ((disk.center.1 ≤ r.1 + p.2 ∧ r.1 < disk.center.1 + p.2) ∧ Nat.dist disk.center.2 r.2 = p.1) ∨
      ((disk.center.1 ≤ r.1 + p.1 ∧ r.1 < disk.center.1 + p.1) ∧
        Nat.dist disk.center.2 r.2 = p.2) := by
  have order := on.1
  have bound := on.2.le_radius
  have top := disk.top
  simp only [rowsAt, List.mem_append, mem_rowAt, Nat.dist]
  omega

theorem mem_rowsAt_inside (on : OnOctant disk.radius p.1 p.2) (there : r ∈ disk.rowsAt p) :
    (r.1 < 128 ∧ r.2 < 64) ∧ disk.Inside r := by
  have order := on.1
  have bound := on.2.le_radius
  have right := disk.right
  have bottom := disk.bottom
  unfold Inside
  rw [inDisk_iff]
  rcases (mem_rowsAt on).mp there with ⟨column, row⟩ | ⟨column, row⟩
  · refine ⟨?_, p.1, p.2, on, Or.inl ⟨row, ?_⟩⟩ <;> unfold Nat.dist at * <;> omega
  · refine ⟨?_, p.1, p.2, on, Or.inr ⟨row, ?_⟩⟩ <;> unfold Nat.dist at * <;> omega

theorem inside_iff : disk.Inside r ↔
    (∃ p : Nat × Nat, OnOctant disk.radius p.1 p.2 ∧ r ∈ disk.rowsAt p) ∨
      OnCircle disk.center disk.radius r := by
  constructor
  · intro inside
    obtain ⟨a, b, on, ⟨row, column⟩ | ⟨row, column⟩⟩ := inDisk_iff.mp inside
    · rcases Nat.eq_or_lt_of_le column with ends | before
      · exact Or.inr (Or.inr (row ▸ ends ▸ on))
      · refine Or.inl ⟨(a, b), on, (mem_rowsAt (p := (a, b)) on).mpr (Or.inl ⟨?_, row⟩)⟩
        unfold Nat.dist at before
        dsimp only
        omega
    · rcases Nat.eq_or_lt_of_le column with ends | before
      · exact Or.inr (Or.inl (row ▸ ends ▸ on))
      · refine Or.inl ⟨(a, b), on, (mem_rowsAt (p := (a, b)) on).mpr (Or.inr ⟨?_, row⟩)⟩
        unfold Nat.dist at before
        dsimp only
        omega
  · rintro (⟨p, on, there⟩ | on | on)
    · exact (mem_rowsAt_inside on there).2
    · exact on.inDisk
    · exact on.inDisk.swap

end Disk

/-! ## The rows -/

section Rows

variable (prop : DrawProp) (color : UInt) (disk : Disk) {half : Nat}

theorem draws_fillRow (bound : half ≤ disk.radius) (row : Nat) :
    Draws (Util.fillRow prop (xpos disk.center) color (BitVec.ofNat 32 half) (BitVec.ofNat 32 row)) ()
      (strokesAt (disk.rowAt half row) (lit (prop.driverColor color))) := by
  have right := disk.right
  have order : xpos disk.center ≤ BitVec.ofNat 32 half ↔ disk.center.1 ≤ half :=
    order_ofNat (by omega) (by omega)
  unfold Util.fillRow Disk.rowAt
  by_cases cut : disk.center.1 ≤ half
  · have start : (0 : UInt) = BitVec.ofNat 32 (disk.center.1 - half) := by
      rw [Nat.sub_eq_zero_of_le cut]
      rfl
    have length : 2 * BitVec.ofNat 32 half - (BitVec.ofNat 32 half - xpos disk.center) =
        BitVec.ofNat 32 (min disk.center.1 half + half) := by
      rw [Nat.min_eq_left cut, BitVec.ofNat_add, xpos]
      ring
    rw [if_pos (order.mpr cut), start, length]
    exact draws_utilDrawHLine prop color (by omega)
  · have start : xpos disk.center - BitVec.ofNat 32 half =
        BitVec.ofNat 32 (disk.center.1 - half) :=
      BitVec.ofNat_sub_ofNat_of_le _ _ (by omega) (Nat.le_of_not_le cut)
    have length : 2 * BitVec.ofNat 32 half = BitVec.ofNat 32 (min disk.center.1 half + half) := by
      rw [Nat.min_eq_right (Nat.le_of_not_le cut), BitVec.ofNat_add]
      ring
    rw [if_neg (mt order.mp cut), start, length]
    exact draws_utilDrawHLine prop color (by omega)

theorem draws_fillPair (bound : half ≤ disk.radius) (first second : Nat) :
    Draws (Util.fillPair prop (xpos disk.center) color (BitVec.ofNat 32 half)
        (BitVec.ofNat 32 first) (BitVec.ofNat 32 second)) ()
      (strokesAt (disk.rowAt half first ++ disk.rowAt half second)
        (lit (prop.driverColor color))) := by
  have narrow := disk.narrow
  have sign : (0 : UInt) < BitVec.ofNat 32 half ↔ 0 < half := by
    rw [BitVec.lt_def, BitVec.toNat_ofNat, Nat.mod_eq_of_lt (by omega)]
    rfl
  unfold Util.fillPair
  by_cases positive : 0 < half
  · rw [if_pos (sign.mpr positive), strokesAt, List.map_append]
    exact (draws_fillRow prop color disk bound first).bind
      (draws_fillRow prop color disk bound second)
  · -- The code skips two rows that have no pixel.
    have empty : ∀ row, disk.rowAt half row = [] := by
      intro row
      rw [Disk.rowAt, Nat.eq_zero_of_not_pos positive, Nat.min_zero]
      rfl
    rw [if_neg (mt sign.mp positive), empty, empty]
    exact Draws.done ()

theorem draws_fillRows {p : Nat × Nat} (on : OnOctant disk.radius p.1 p.2) :
    Draws (Util.fillRows prop (xpos disk.center) (ypos disk.center) color (BitVec.ofNat 32 p.1)
        (BitVec.ofNat 32 p.2)) ()
      (strokesAt (disk.rowsAt p) (lit (prop.driverColor color))) := by
  have order := on.1
  have bound := on.2.le_radius
  have top := disk.top
  have bottom := disk.bottom
  have below : ∀ away, ypos disk.center + BitVec.ofNat 32 away =
      BitVec.ofNat 32 (disk.center.2 + away) := fun away => (BitVec.ofNat_add ..).symm
  have above : ∀ away, away ≤ disk.center.2 → ypos disk.center - BitVec.ofNat 32 away =
      BitVec.ofNat 32 (disk.center.2 - away) := fun away room =>
    BitVec.ofNat_sub_ofNat_of_le _ _ (by omega) room
  rw [Util.fillRows, below, below, above p.1 (by omega), above p.2 (by omega), Disk.rowsAt,
    strokesAt, List.map_append]
  exact (draws_fillPair prop color disk bound _ _).bind
    (draws_fillPair prop color disk (Nat.le_trans order bound) _ _)

end Rows

/-! ## The disk -/

theorem draws_fillCircle (prop : DrawProp) (color : UInt) (disk : Disk) :
    ∃ points, Draws (Util.fillCircle prop.setFuncDriver (xpos disk.center) (ypos disk.center)
        (BitVec.ofNat 32 disk.radius) color) ()
        (strokesAt points (lit (prop.setFuncDriver.driverColor color))) ∧
      ∀ r, r ∈ points ↔ (r.1 < 128 ∧ r.2 < 64) ∧ disk.Inside r := by
  have narrow := disk.narrow
  have right := disk.right
  have bottom := disk.bottom
  obtain ⟨octant, rows, member⟩ := draws_circleLoop (show disk.radius < 2 ^ 28 by omega)
    (fun p on => draws_fillRows prop.setFuncDriver color disk on) (Arc.start disk.positive)
    (Nat.zero_le _) (Nat.le_refl _) (show disk.radius < 0 + 0xFFFFFFFF by omega)
  obtain ⟨outline, circle, edge⟩ := draws_drawCircle prop color disk.positive
    (show disk.radius < 2 ^ 28 by omega) (show disk.center.1 < 2 ^ 30 by omega)
    (show disk.center.2 < 2 ^ 30 by omega)
  refine ⟨octant.flatMap disk.rowsAt ++ outline, ?_, fun r => ?_⟩
  · rw [Util.fillCircle, ofInt_start, strokesAt, List.map_append, List.map_flatMap]
    exact rows.bind circle
  · rw [List.mem_append, List.mem_flatMap, edge, Disk.inside_iff]
    constructor
    · rintro (⟨p, there, on⟩ | ⟨screen, on⟩)
      · have octant := ((member p).mp there).1
        exact ⟨(Disk.mem_rowsAt_inside octant on).1, Or.inl ⟨p, octant, on⟩⟩
      · exact ⟨screen, Or.inr on⟩
    · rintro ⟨screen, ⟨p, octant, on⟩ | on⟩
      · exact Or.inl ⟨p, (member p).mpr ⟨octant, Nat.zero_le _⟩, on⟩
      · exact Or.inr ⟨screen, on⟩

/-- `UTIL_LCD_FillCircle` ends, stays in the frame buffer and colours the pixels of the disk that
are on the screen, and no others. -/
theorem fillCircle_lights (prop : DrawProp) (disk : Disk) (color : UInt) (frame : PhysFrameBuffer) :
    ∃ target, Util.fillCircle prop.setFuncDriver (xpos disk.center) (ypos disk.center)
        (BitVec.ofNat 32 disk.radius) color frame = some ((), target) ∧
      ∀ r : Pixel, view target r = if disk.Inside r.point
        then lit (prop.setFuncDriver.driverColor color) else view frame r := by
  obtain ⟨points, draws, member⟩ := draws_fillCircle prop color disk
  obtain ⟨target, reached, shows⟩ := draws.lights (fun r there => ((member r).mp there).1) frame
  refine ⟨target, reached, fun r => (shows r).trans (if_congr ?_ rfl rfl)⟩
  exact (member _).trans (and_iff_right ⟨r.1.isLt, r.2.isLt⟩)

/-- The left edge cuts a disk. -/
theorem fillCircle_lights_cut : ∃ target, Util.fillCircle (DrawProp.mk 0 0 0 0 0).setFuncDriver
      (xpos (2, 20)) (ypos (2, 20)) (BitVec.ofNat 32 5) ssd1315ColorWhite (fun _ => 0) =
        some ((), target) ∧
    view target (0, 24) = true ∧ view target (7, 20) = true ∧ view target (6, 24) = false := by
  obtain ⟨target, reached, shows⟩ := fillCircle_lights (DrawProp.mk 0 0 0 0 0)
    ⟨(2, 20), 5, by decide, by decide, by decide, by decide⟩ ssd1315ColorWhite (fun _ => 0)
  refine ⟨target, reached, ?_, ?_, ?_⟩ <;>
    (rw [shows]; decide)

end Baelux.Lcd

import Baelux.Lcd.Line

/-! Rectangles: what they cover on the screen, and when they leave the frame buffer. -/

namespace Baelux.Lcd

open Baelux.Painting

/-! ## On the screen -/

structure Box where
  left : Nat
  top : Nat
  width : Nat
  height : Nat
  wide : 0 < width
  high : 0 < height
  right : left + width ≤ 128
  bottom : top + height ≤ 64

namespace Box

variable {box : Box} {r : Nat × Nat}

def Inside (box : Box) (r : Nat × Nat) : Prop :=
  (box.left ≤ r.1 ∧ r.1 < box.left + box.width) ∧ box.top ≤ r.2 ∧ r.2 < box.top + box.height

def OnBorder (box : Box) (r : Nat × Nat) : Prop :=
  box.Inside r ∧ (r.1 = box.left ∨ r.1 + 1 = box.left + box.width ∨
    r.2 = box.top ∨ r.2 + 1 = box.top + box.height)

instance : Decidable (box.Inside r) := inferInstanceAs (Decidable (_ ∧ _))

instance : Decidable (box.OnBorder r) := inferInstanceAs (Decidable (_ ∧ _))

theorem Inside.screen (inside : box.Inside r) : r.1 < 128 ∧ r.2 < 64 := by
  obtain ⟨⟨_, column⟩, _, row⟩ := inside
  exact ⟨Nat.lt_of_lt_of_le column box.right, Nat.lt_of_lt_of_le row box.bottom⟩

def screen : Box := ⟨0, 0, 128, 64, by decide, by decide, by decide, by decide⟩

end Box

def rowPoints (column row count : Nat) : List (Nat × Nat) :=
  (List.range' column count).map fun i => (i, row)

def columnPoints (column row count : Nat) : List (Nat × Nat) :=
  (List.range' row count).map fun i => (column, i)

theorem mem_rowPoints {column row count : Nat} {r : Nat × Nat} :
    r ∈ rowPoints column row count ↔ (column ≤ r.1 ∧ r.1 < column + count) ∧ r.2 = row := by
  simp only [rowPoints, List.mem_map, List.mem_range'_1, Prod.ext_iff]
  constructor
  · rintro ⟨i, inside, rfl, rfl⟩
    exact ⟨inside, rfl⟩
  · rintro ⟨inside, same⟩
    exact ⟨r.1, inside, rfl, same.symm⟩

theorem mem_columnPoints {column row count : Nat} {r : Nat × Nat} :
    r ∈ columnPoints column row count ↔ (row ≤ r.2 ∧ r.2 < row + count) ∧ r.1 = column := by
  simp only [columnPoints, List.mem_map, List.mem_range'_1, Prod.ext_iff]
  constructor
  · rintro ⟨i, inside, rfl, rfl⟩
    exact ⟨inside, rfl⟩
  · rintro ⟨inside, same⟩
    exact ⟨r.2, inside, same.symm, rfl⟩

theorem between_ofNat {start count : Nat} (fits : start + count < 2 ^ 32) :
    between (BitVec.ofNat 32 start) (BitVec.ofNat 32 start + BitVec.ofNat 32 count) =
      (List.range' start count).map (BitVec.ofNat 32) := by
  have first : (BitVec.ofNat 32 start).toNat = start := by
    rw [BitVec.toNat_ofNat, Nat.mod_eq_of_lt (by omega)]
  have last : (BitVec.ofNat 32 start + BitVec.ofNat 32 count).toNat = start + count := by
    rw [← BitVec.ofNat_add, BitVec.toNat_ofNat, Nat.mod_eq_of_lt fits]
  rw [between, first, last, Nat.add_sub_cancel_left]

variable (prop : DrawProp) (color : UInt)

theorem strokes_row {column row count : Nat} (fits : column + count < 2 ^ 32) (lit : Bool) :
    ((between (BitVec.ofNat 32 column) (BitVec.ofNat 32 column + BitVec.ofNat 32 count)).map
      fun i => stroke i (BitVec.ofNat 32 row) lit) = strokesAt (rowPoints column row count) lit := by
  rw [between_ofNat fits, strokesAt, rowPoints, List.map_map, List.map_map]
  rfl

theorem strokes_column {column row count : Nat} (fits : row + count < 2 ^ 32) (lit : Bool) :
    ((between (BitVec.ofNat 32 row) (BitVec.ofNat 32 row + BitVec.ofNat 32 count)).map
      fun i => stroke (BitVec.ofNat 32 column) i lit) =
      strokesAt (columnPoints column row count) lit := by
  rw [between_ofNat fits, strokesAt, columnPoints, List.map_map, List.map_map]
  rfl

theorem draws_utilDrawHLine {column row count : Nat} (fits : column + count < 2 ^ 32) :
    Draws (Util.drawHLine prop (BitVec.ofNat 32 column) (BitVec.ofNat 32 row)
        (BitVec.ofNat 32 count) color) ()
      (strokesAt (rowPoints column row count) (lit (prop.driverColor color))) := by
  rw [← strokes_row fits, ← List.append_nil (List.map ..)]
  exact (draws_drawHLine _ _ _ _).bind (Draws.done ())

theorem draws_utilDrawVLine {column row count : Nat} (fits : row + count < 2 ^ 32) :
    Draws (Util.drawVLine prop (BitVec.ofNat 32 column) (BitVec.ofNat 32 row)
        (BitVec.ofNat 32 count) color) ()
      (strokesAt (columnPoints column row count) (lit (prop.driverColor color))) := by
  rw [← strokes_column fits, ← List.append_nil (List.map ..)]
  exact (draws_drawVLine _ _ _ _).bind (Draws.done ())

def Box.borderPoints (box : Box) : List (Nat × Nat) :=
  rowPoints box.left box.top box.width ++
    (rowPoints box.left (box.top + box.height - 1) box.width ++
      (columnPoints box.left box.top box.height ++
        columnPoints (box.left + box.width - 1) box.top box.height))

theorem Box.mem_borderPoints {box : Box} {r : Nat × Nat} :
    r ∈ box.borderPoints ↔ box.OnBorder r := by
  have wide := box.wide
  have high := box.high
  simp only [borderPoints, List.mem_append, mem_rowPoints, mem_columnPoints, OnBorder, Inside]
  omega

theorem ofNat_last {start count : Nat} (positive : 0 < count) :
    BitVec.ofNat 32 start + BitVec.ofNat 32 count - 1 = BitVec.ofNat 32 (start + count - 1) := by
  rw [← BitVec.ofNat_add]
  exact BitVec.ofNat_sub_ofNat_of_le _ 1 (by decide) (Nat.add_pos_right start positive)

theorem draws_drawRect (box : Box) :
    Draws (Util.drawRect prop (BitVec.ofNat 32 box.left) (BitVec.ofNat 32 box.top)
        (BitVec.ofNat 32 box.width) (BitVec.ofNat 32 box.height) color) ()
      (strokesAt box.borderPoints (lit (prop.driverColor color))) := by
  have columns : box.left + box.width < 2 ^ 32 := Nat.lt_of_le_of_lt box.right (by decide)
  have rows : box.top + box.height < 2 ^ 32 := Nat.lt_of_le_of_lt box.bottom (by decide)
  rw [Util.drawRect, ofNat_last box.wide, ofNat_last box.high, Box.borderPoints, strokesAt,
    List.map_append, List.map_append, List.map_append]
  exact (draws_utilDrawHLine prop color columns).bind
    ((draws_utilDrawHLine prop color columns).bind
      ((draws_utilDrawVLine prop color rows).bind (draws_utilDrawVLine prop color rows)))

/-- `UTIL_LCD_DrawRect` colours the border of a rectangle on the screen. -/
theorem drawRect_lights (prop : DrawProp) (box : Box) (color : UInt) (frame : PhysFrameBuffer) :
    ∃ target, Util.drawRect prop (BitVec.ofNat 32 box.left) (BitVec.ofNat 32 box.top)
        (BitVec.ofNat 32 box.width) (BitVec.ofNat 32 box.height) color frame = some ((), target) ∧
      ∀ r : Pixel, view target r =
        if box.OnBorder r.point then lit (prop.driverColor color) else view frame r := by
  obtain ⟨target, reached, shows⟩ := (draws_drawRect prop color box).lights
    (fun r there => (Box.mem_borderPoints.mp there).1.screen) frame
  exact ⟨target, reached, fun r => (shows r).trans (if_congr Box.mem_borderPoints rfl rfl)⟩

def Box.points (box : Box) : List (Nat × Nat) :=
  (List.range' 0 box.height).flatMap fun i => rowPoints box.left (i + box.top) box.width

theorem Box.mem_points {box : Box} {r : Nat × Nat} : r ∈ box.points ↔ box.Inside r := by
  simp only [points, List.mem_flatMap, List.mem_range'_1, mem_rowPoints, Inside]
  constructor
  · rintro ⟨i, rows, columns, row⟩
    exact ⟨columns, by omega, by omega⟩
  · rintro ⟨columns, above, below⟩
    exact ⟨r.2 - box.top, by omega, columns, by omega⟩

theorem draws_utilFillRect (box : Box) :
    Draws (Util.fillRect prop (BitVec.ofNat 32 box.left) (BitVec.ofNat 32 box.top)
        (BitVec.ofNat 32 box.width) (BitVec.ofNat 32 box.height) color) ()
      (strokesAt box.points (lit (prop.driverColor color))) := by
  have columns : box.left + box.width < 2 ^ 32 := Nat.lt_of_le_of_lt box.right (by decide)
  have rows : 0 + box.height < 2 ^ 32 := by
    have := box.bottom
    omega
  have lines := between_ofNat rows
  rw [show BitVec.ofNat 32 0 = 0 from rfl, zero_add] at lines
  have points : strokesAt box.points (lit (prop.driverColor color)) =
      (between 0 (BitVec.ofNat 32 box.height)).flatMap fun i =>
        (between (BitVec.ofNat 32 box.left) (BitVec.ofNat 32 box.left + BitVec.ofNat 32 box.width)).map
          fun j => stroke j (i + BitVec.ofNat 32 box.top) (lit (prop.driverColor color)) := by
    rw [lines, List.flatMap_map, strokesAt, Box.points, List.map_flatMap]
    refine List.flatMap_congr fun i _ => ?_
    rw [← BitVec.ofNat_add, strokes_row columns, strokesAt]
  rw [points, ← List.append_nil (List.flatMap ..)]
  exact (draws_fillRect _ _ _ _ _).bind (Draws.done ())

/-- `UTIL_LCD_FillRect` colours the pixels of a rectangle on the screen. -/
theorem fillRect_lights (prop : DrawProp) (box : Box) (color : UInt) (frame : PhysFrameBuffer) :
    ∃ target, Util.fillRect prop (BitVec.ofNat 32 box.left) (BitVec.ofNat 32 box.top)
        (BitVec.ofNat 32 box.width) (BitVec.ofNat 32 box.height) color frame = some ((), target) ∧
      ∀ r : Pixel, view target r =
        if box.Inside r.point then lit (prop.driverColor color) else view frame r := by
  obtain ⟨target, reached, shows⟩ := (draws_utilFillRect prop color box).lights
    (fun r there => (Box.mem_points.mp there).screen) frame
  exact ⟨target, reached, fun r => (shows r).trans (if_congr Box.mem_points rfl rfl)⟩

/-- `UTIL_LCD_Clear` colours the whole screen. -/
theorem clear_lights (prop : DrawProp) (color : UInt) (frame : PhysFrameBuffer) :
    ∃ target, Util.clear prop.setFuncDriver color frame = some ((), target) ∧
      ∀ r : Pixel, view target r = lit (prop.setFuncDriver.driverColor color) := by
  obtain ⟨target, reached, shows⟩ := fillRect_lights prop.setFuncDriver Box.screen color frame
  refine ⟨target, reached, fun r => (shows r).trans (if_pos ?_)⟩
  have column := r.1.isLt
  have row := r.2.isLt
  simp only [Box.Inside, Box.screen, Pixel.point]
  omega

/-! ## Past the screen -/

theorem home_eq_none {xpos ypos : UInt} :
    home xpos ypos = none ↔ 1024 ≤ (byteIndex xpos ypos).toNat := by
  unfold home
  split
  · rename_i inside
    exact iff_of_false (Option.some_ne_none _) (Nat.not_le_of_lt inside)
  · rename_i outside
    exact iff_of_true rfl (Nat.le_of_not_lt outside)

section Misses

variable {xpos ypos width height : UInt}

theorem rectangle_misses (right : xpos.toNat + width.toNat ≤ 2 ^ 27)
    (below : ypos.toNat + height.toNat ≤ 2 ^ 27) (lit : Bool) :
    (∃ colour, (none, colour) ∈ (between 0 height).flatMap fun i =>
        (between xpos (xpos + width)).map fun j => stroke j (i + ypos) lit) ↔
      0 < width.toNat ∧ 0 < height.toNat ∧ 1024 ≤ xpos.toNat + width.toNat - 1 +
        (ypos.toNat + height.toNat - 1) / 8 * 128 := by
  have stop : (xpos + width).toNat = xpos.toNat + width.toNat := by bv_omega
  constructor
  · rintro ⟨colour, member⟩
    obtain ⟨i, rows, member⟩ := List.mem_flatMap.mp member
    obtain ⟨j, columns, misses⟩ := List.mem_map.mp member
    obtain ⟨_, row⟩ := mem_between.mp rows
    obtain ⟨left, column⟩ := mem_between.mp columns
    have off := home_eq_none.mp (congrArg Prod.fst misses)
    have line : (i + ypos).toNat = i.toNat + ypos.toNat := by bv_omega
    rw [byteIndex_toNat, line] at off
    rw [BitVec.lt_def] at row column
    rw [BitVec.le_def] at left
    omega
  · rintro ⟨wide, high, past⟩
    have row : (height - 1).toNat = height.toNat - 1 := by bv_omega
    have line : (height - 1 + ypos).toNat = ypos.toNat + height.toNat - 1 := by bv_omega
    have column : (xpos + width - 1).toNat = xpos.toNat + width.toNat - 1 := by bv_omega
    have off : home (xpos + width - 1) (height - 1 + ypos) = none := by
      rw [home_eq_none, byteIndex_toNat, line, column]
      omega
    refine ⟨lit, List.mem_flatMap.mpr ⟨height - 1, mem_between.mpr ⟨Nat.zero_le _, ?_⟩,
      List.mem_map.mpr ⟨xpos + width - 1, mem_between.mpr ⟨?_, ?_⟩, Prod.ext off rfl⟩⟩⟩
    · rw [BitVec.lt_def]
      omega
    · rw [BitVec.le_def]
      omega
    · rw [BitVec.lt_def]
      omega

/-- `SSD1315_FillRect` leaves the frame buffer when its last pixel has no byte in it. The bounds
keep the indices of all its pixels below 2^32. -/
theorem fillRect_leaves (right : xpos.toNat + width.toNat ≤ 2 ^ 27)
    (below : ypos.toNat + height.toNat ≤ 2 ^ 27) (color : UInt) (frame : PhysFrameBuffer) :
    fillRect xpos ypos width height color frame = none ↔
      0 < width.toNat ∧ 0 < height.toNat ∧ 1024 ≤ xpos.toNat + width.toNat - 1 +
        (ypos.toNat + height.toNat - 1) / 8 * 128 :=
  ((draws_fillRect xpos ypos width height color).leaves frame).trans
    (rectangle_misses right below _)

theorem fillRect_leaves_last_page :
    (1 : UInt).toNat + (128 : UInt).toNat ≤ 2 ^ 27 ∧ (0 : UInt).toNat + (64 : UInt).toNat ≤ 2 ^ 27 ∧
      fillRect 1 0 128 64 ssd1315ColorBlack (fun _ => 0) = none :=
  ⟨by decide, by decide, (fillRect_leaves (by decide) (by decide) _ _).mpr (by decide)⟩

/-- `user_lcd_Clear` clears a rectangle as wide as the screen from the second column on: in either
orientation, whatever the colour and the picture, it writes behind the frame buffer. -/
theorem userLcdClear_overruns (orientation color : UInt) (frame : PhysFrameBuffer) :
    userLcdClear (userLcdInit orientation) color frame = none := by
  have leaves : ∀ lcd : UserLcd, lcd = ⟨128, 64⟩ ∨ lcd = ⟨64, 128⟩ →
      userLcdClear lcd color frame = none := by
    intro lcd known
    have overruns : fillRect 1 0 lcd.width lcd.height color frame = none := by
      refine ((draws_fillRect 1 0 _ _ color).leaves frame).mpr ((rectangle_misses ?_ ?_ _).mpr ?_)
      all_goals rcases known with rfl | rfl <;> decide
    change (fillRect 1 0 lcd.width lcd.height color frame).bind _ = none
    rw [overruns]
    rfl
  unfold userLcdInit
  split
  · exact leaves _ (Or.inl rfl)
  · exact leaves _ (Or.inr rfl)

end Misses

end Baelux.Lcd

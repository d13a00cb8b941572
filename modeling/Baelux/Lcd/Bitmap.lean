import Baelux.Lcd.Picture

/-! `SSD1315_DrawBitmap`, which copies whole bytes where the bitmap lies on the pages of the
screen, and draws the same picture as it would pixel by pixel. -/

namespace Baelux.Lcd

open Baelux.Painting

/-- What `SSD1315_DrawBitmap` reads from the header of a bitmap. -/
structure BitmapHeader where
  size : UInt
  index : UInt
  width : UInt
  height : UInt
  deriving DecidableEq, Repr

def readHeader (pBmp : List Byte) : Option BitmapHeader := do
  let size ← loadWord (pBmp.drop 2)
  let index ← loadWord (pBmp.drop 10)
  let width ← loadWord (pBmp.drop 18)
  let height ← loadWord (pBmp.drop 22)
  return ⟨size, index, width, height⟩

def dataIndex (width xposBMP yposBMP : UInt) : UInt := xposBMP + yposBMP / 8 * width

section Rows

variable (data : List Byte) (width : UInt)

def drawPixel (xpos ypos xposBMP yposBMP : UInt) : Draw Ssd1315Status :=
  Draw.reading data[(dataIndex width xposBMP yposBMP).toNat]? fun byte =>
    if byte &&& 1#8 <<< (yposBMP % 8) ≠ 0 then setPixel xpos ypos ssd1315ColorWhite
    else setPixel xpos ypos ssd1315ColorBlack

/-- The loop over `Ypos`, which ends at `y`. -/
def drawRows (xpos xposBMP y ypos yposBMP : UInt) : Draw Ssd1315Status :=
  if below : ypos < y then
    if aligned : ypos % 8 = 0 ∧ 8 ≤ y - ypos ∧ yposBMP % 8 = 0 then
      Draw.reading data[(dataIndex width xposBMP yposBMP).toNat]? fun byte => do
        changeByte (byteIndex xpos ypos) fun _ => byte
        drawRows xpos xposBMP y (ypos + 7 + 1) (yposBMP + 7 + 1)
    else do
      if (← drawPixel data width xpos ypos xposBMP yposBMP) ≠ .ok then return .error
      drawRows xpos xposBMP y (ypos + 1) (yposBMP + 1)
  else return .ok
termination_by y.toNat - ypos.toNat
decreasing_by
  all_goals bv_omega

/-- The loop over `Xpos`. An error ends the rows of its column only. -/
def drawColumns (y y0 : UInt) :
    Nat → UInt → UInt × Ssd1315Status → Draw Ssd1315Status
  | 0, _, (_, ret) => pure ret
  | remaining + 1, xpos, (xposBMP, ret) => do
      let status ← drawRows data width xpos xposBMP y y0 0
      drawColumns y y0 remaining (xpos + 1) (xposBMP + 1, if status ≠ .ok then .error else ret)

end Rows

def copyFrame (data : List Byte) (size : UInt) : Draw Unit := fun frame =>
  (frame.copy 0 data size.toNat).map ((), ·)

def drawBitmap (xpos ypos : UInt) (pBmp : List Byte) : Draw Ssd1315Status :=
  Draw.reading (readHeader pBmp) fun header => do
    let size := (header.size - header.index) / 2
    let data := pBmp.drop header.index.toNat
    if xpos = 0 ∧ size = 1024 then
      copyFrame data size
      return .ok
    else
      let x := xpos + header.width
      let y := ypos + header.height
      drawColumns data header.width y ypos (x.toNat - xpos.toNat) xpos (0, .ok)

/-! ## A page at a time -/

section Rows

variable {data : List Byte} {width : UInt}

def pixelColor (data : List Byte) (width xposBMP yposBMP : UInt) : Option UInt :=
  data[(dataIndex width xposBMP yposBMP).toNat]?.map fun byte =>
    if byte.getLsbD (yposBMP.toNat % 8) then ssd1315ColorWhite else ssd1315ColorBlack

theorem testBit_iff (byte : Byte) (ypos : UInt) :
    byte &&& 1#8 <<< (ypos % 8) ≠ 0 ↔ byte.getLsbD (ypos.toNat % 8) := by
  have bit : (ypos % 8).toNat = ypos.toNat % 8 := BitVec.toNat_umod ..
  have below : ypos.toNat % 8 < 8 := Nat.mod_lt _ (by decide)
  have mask : BitVec.twoPow 8 (ypos.toNat % 8) ≠ 0#8 := by
    intro zero
    have set := BitVec.getLsbD_twoPow (w := 8) (ypos.toNat % 8) (ypos.toNat % 8)
    simp [zero, below] at set
  rw [BitVec.shiftLeft_eq', bit, ← BitVec.twoPow_eq, BitVec.and_twoPow]
  cases byte.getLsbD (ypos.toNat % 8) <;> simp [mask]

theorem draws_drawPixel (xpos ypos xposBMP yposBMP : UInt) :
    Draws (drawPixel data width xpos ypos xposBMP yposBMP) .ok
      [strokeRead xpos ypos (pixelColor data width xposBMP yposBMP)] := by
  unfold drawPixel pixelColor
  intro frame
  cases data[(dataIndex width xposBMP yposBMP).toNat]? with
  | none => rfl
  | some byte =>
      have tests := testBit_iff byte yposBMP
      simp only [Draw.reading, Option.bind_some, Option.map_some]
      by_cases bit : byte.getLsbD (yposBMP.toNat % 8)
      · rw [if_pos (tests.mpr bit), if_pos bit]
        exact draws_setPixel xpos ypos ssd1315ColorWhite frame
      · rw [if_neg (mt tests.mp bit), if_neg bit]
        exact draws_setPixel xpos ypos ssd1315ColorBlack frame

theorem between_append {start middle stop : UInt} (first : start ≤ middle)
    (second : middle ≤ stop) :
    between start stop = between start middle ++ between middle stop := by
  have total : stop.toNat - start.toNat =
      (middle.toNat - start.toNat) + (stop.toNat - middle.toNat) := by bv_omega
  have from_middle : start.toNat + (middle.toNat - start.toNat) = middle.toNat := by bv_omega
  rw [between, total, ← List.range'_append_1, from_middle, List.map_append]
  rfl

theorem mem_page {ypos i : UInt} (aligned : ypos.toNat % 8 = 0) (fits : ypos.toNat + 8 < 2 ^ 32) :
    i ∈ between ypos (ypos + 8) ↔ i.toNat / 8 = ypos.toNat / 8 := by
  rw [mem_between]
  bv_omega

theorem draws_page {xpos ypos : UInt} (aligned : ypos.toNat % 8 = 0)
    (fits : ypos.toNat + 8 < 2 ^ 32) (byte : Byte) :
    Draws (changeByte (byteIndex xpos ypos) fun _ => byte) ()
      ((between ypos (ypos + 8)).map fun i => stroke xpos i (byte.getLsbD (i.toNat % 8))) := by
  have same_index : ∀ i ∈ between ypos (ypos + 8), byteIndex xpos i = byteIndex xpos ypos := by
    intro i member
    have page := (mem_page aligned fits).mp member
    apply BitVec.eq_of_toNat_eq
    rw [byteIndex_toNat, byteIndex_toNat, page]
  intro frame
  unfold changeByte
  by_cases inside : (byteIndex xpos ypos).toNat < 1024
  · have homes : ∀ i ∈ between ypos (ypos + 8),
        home xpos i = some (pixelOf ⟨_, inside⟩ i.toNat) := by
      intro i member
      simp [home, same_index i member, inside]
    rw [paint_colours fun q => byte.getLsbD q.bit]
    · simp only [Buffer.load_of_lt inside, Buffer.store, dif_pos inside, Option.bind_eq_bind,
        Option.bind_some]
      refine congrArg some (Prod.ext rfl (funext fun q => ?_))
      have bit_below : q.bit < 8 := Nat.mod_lt _ (by decide)
      simp only [List.map_map, List.mem_map, Function.comp_apply, stroke,
        Prod.map_snd, view]
      by_cases same : q.byte = ⟨_, inside⟩
      · -- the stroke on `q` is the one of the row that has its bit
        have row : (ypos + BitVec.ofNat 32 q.bit).toNat = ypos.toNat + q.bit := by bv_omega
        have member : ypos + BitVec.ofNat 32 q.bit ∈ between ypos (ypos + 8) :=
          (mem_page aligned fits).mpr (by omega)
        have pixel : pixelOf ⟨_, inside⟩ (ypos.toNat + q.bit) = q :=
          pixel_ext (by rw [byte_pixelOf, same]) (by rw [bit_pixelOf]; omega)
        rw [same, Function.update_self, if_pos ⟨_, member, by rw [homes _ member, row, pixel]⟩]
      · rw [Function.update_of_ne same, if_neg]
        rintro ⟨i, member, falls⟩
        rw [homes i member] at falls
        exact same (Option.some.inj falls ▸ byte_pixelOf ..)
    · intro painted member
      obtain ⟨i, inside_page, rfl⟩ := List.mem_map.mp member
      exact ⟨_, Prod.ext (homes i inside_page) (by rw [stroke, bit_pixelOf])⟩
  · have first : (none, byte.getLsbD (ypos.toNat % 8)) ∈ (between ypos (ypos + 8)).map fun i =>
        stroke xpos i (byte.getLsbD (i.toNat % 8)) := by
      refine List.mem_map.mpr ⟨ypos, (mem_page aligned fits).mpr rfl, ?_⟩
      rw [stroke, home, dif_neg inside]
    rw [paint_missed first, Buffer.load, dif_neg inside]
    rfl

theorem reading_bind {α β γ : Type} (value : Option α) (first : α → Draw β) (next : β → Draw γ) :
    (Draw.reading value fun read => first read >>= next) = Draw.reading value first >>= next := by
  cases value <;> rfl

def rowStrokes (data : List Byte) (width xpos xposBMP y ypos yposBMP : UInt) : Strokes :=
  (between ypos y).map fun i =>
    strokeRead xpos i (pixelColor data width xposBMP (yposBMP + (i - ypos)))

theorem rowStrokes_step (count : UInt) {xpos xposBMP y ypos yposBMP : UInt}
    (first : ypos ≤ ypos + count) (second : ypos + count ≤ y) :
    rowStrokes data width xpos xposBMP y ypos yposBMP =
      rowStrokes data width xpos xposBMP (ypos + count) ypos yposBMP ++
        rowStrokes data width xpos xposBMP y (ypos + count) (yposBMP + count) := by
  have shifted : ∀ i, yposBMP + count + (i - (ypos + count)) = yposBMP + (i - ypos) := by
    intro i
    bv_omega
  simp only [rowStrokes, between_append first second, List.map_append, shifted]

theorem strokeRead_some (xpos ypos color : UInt) :
    strokeRead xpos ypos (some color) = stroke xpos ypos (lit color) := rfl

theorem lit_bit (bit : Bool) : lit (if bit then ssd1315ColorWhite else ssd1315ColorBlack) = bit := by
  cases bit <;> decide

theorem rowStrokes_page {xpos xposBMP ypos yposBMP : UInt} (fits : ypos.toNat + 8 < 2 ^ 32)
    (aligned : ypos.toNat % 8 = 0) (alignedBMP : yposBMP.toNat % 8 = 0) :
    rowStrokes data width xpos xposBMP (ypos + 8) ypos yposBMP =
      (between ypos (ypos + 8)).map fun i =>
        strokeRead xpos i (data[(dataIndex width xposBMP yposBMP).toNat]?.map fun byte =>
          if byte.getLsbD (i.toNat % 8) then ssd1315ColorWhite else ssd1315ColorBlack) := by
  refine List.map_congr_left fun i member => ?_
  have page := (mem_page aligned fits).mp member
  have row : (yposBMP + (i - ypos)).toNat = yposBMP.toNat + (i.toNat - ypos.toNat) := by bv_omega
  have index : dataIndex width xposBMP (yposBMP + (i - ypos)) = dataIndex width xposBMP yposBMP := by
    have same : (yposBMP + (i - ypos)) / 8 = yposBMP / 8 := by
      apply BitVec.eq_of_toNat_eq
      rw [BitVec.toNat_udiv, BitVec.toNat_udiv, row]
      change _ / 8 = _ / 8
      omega
    rw [dataIndex, same, dataIndex]
  have bit : (yposBMP + (i - ypos)).toNat % 8 = i.toNat % 8 := by omega
  rw [pixelColor, index, bit]

theorem draws_copy {xpos xposBMP ypos yposBMP : UInt} (fits : ypos.toNat + 8 < 2 ^ 32)
    (aligned : ypos.toNat % 8 = 0) (alignedBMP : yposBMP.toNat % 8 = 0) :
    Draws (Draw.reading data[(dataIndex width xposBMP yposBMP).toNat]? fun byte =>
        changeByte (byteIndex xpos ypos) fun _ => byte) ()
      (rowStrokes data width xpos xposBMP (ypos + 8) ypos yposBMP) := by
  rw [rowStrokes_page fits aligned alignedBMP]
  intro frame
  cases data[(dataIndex width xposBMP yposBMP).toNat]? with
  | none =>
      have first : (none, false) ∈ (between ypos (ypos + 8)).map fun i =>
          strokeRead xpos i (none : Option UInt) :=
        List.mem_map.mpr ⟨ypos, (mem_page aligned fits).mpr rfl, rfl⟩
      simp only [Option.map_none, paint_missed first]
      rfl
  | some byte =>
      simp only [Option.map_some, strokeRead_some, lit_bit]
      exact draws_page aligned fits byte frame

theorem draws_drawRows (xpos xposBMP y ypos yposBMP : UInt) :
    Draws (drawRows data width xpos xposBMP y ypos yposBMP) .ok
      (rowStrokes data width xpos xposBMP y ypos yposBMP) := by
  fun_induction drawRows data width xpos xposBMP y ypos yposBMP with
  | case1 ypos yposBMP below aligned ih =>
      obtain ⟨aligned, room, alignedBMP⟩ := aligned
      have row : ypos.toNat % 8 = 0 := congrArg BitVec.toNat aligned
      have rowBMP : yposBMP.toNat % 8 = 0 := congrArg BitVec.toNat alignedBMP
      have fits : ypos.toNat + 8 < 2 ^ 32 := by bv_omega
      have next : ∀ i : UInt, i + 7 + 1 = i + 8 := fun i => BitVec.add_assoc i 7 1
      rw [rowStrokes_step 8 (by bv_omega) (by bv_omega), reading_bind, next, next]
      rw [next, next] at ih
      exact (draws_copy fits row rowBMP).bind ih
  | case2 ypos yposBMP below aligned ih =>
      have one : between ypos (ypos + 1) = [ypos] := by
        have single : (ypos + 1).toNat - ypos.toNat = 0 + 1 := by bv_omega
        rw [between_cons single, between_nil (by bv_omega)]
      have pixel : Draws (drawPixel data width xpos ypos xposBMP yposBMP) .ok
          (rowStrokes data width xpos xposBMP (ypos + 1) ypos yposBMP) := by
        rw [rowStrokes, one, List.map_singleton, BitVec.sub_self, BitVec.add_zero]
        exact draws_drawPixel xpos ypos xposBMP yposBMP
      rw [rowStrokes_step 1 (by bv_omega) (by bv_omega)]
      exact pixel.bind ih
  | case3 ypos yposBMP above =>
      rw [rowStrokes, between_nil (by bv_omega)]
      exact Draws.done _

def bitmapStrokes (data : List Byte) (width height xpos ypos : UInt) : Strokes :=
  (between xpos (xpos + width)).flatMap fun i =>
    rowStrokes data width i (i - xpos) (ypos + height) ypos 0

theorem draws_drawColumns (height xpos ypos : UInt) :
    Draws (drawColumns data width (ypos + height) ypos ((xpos + width).toNat - xpos.toNat) xpos
        (0, .ok)) .ok
      (bitmapStrokes data width height xpos ypos) := by
  have columns : Draws (drawColumns data width (ypos + height) ypos
      ((xpos + width).toNat - xpos.toNat) xpos (xpos - xpos, .ok)) .ok
      (bitmapStrokes data width height xpos ypos) := by
    refine draws_counted (fun remaining i =>
      drawColumns data width (ypos + height) ypos remaining i (i - xpos, .ok)) xpos (xpos + width)
      (fun _ _ => Draws.done _) ?_
    intro remaining i rest _ draws
    have next : i + 1 - xpos = i - xpos + 1 := by bv_omega
    rw [next] at draws
    exact (draws_drawRows i (i - xpos) (ypos + height) ypos 0).bind draws
  rwa [BitVec.sub_self] at columns

/-! ## A whole screen at once -/

def drawPlain (data : List Byte) (width height xpos ypos : UInt) : Draw Ssd1315Status := do
  forBelow xpos (xpos + width) fun i =>
    forBelow ypos (ypos + height) fun j => do
      let _ ← drawPixel data width i j (i - xpos) (j - ypos)
  return .ok

theorem draws_drawPlain (height xpos ypos : UInt) :
    Draws (drawPlain data width height xpos ypos) .ok
      (bitmapStrokes data width height xpos ypos) := by
  rw [← List.append_nil (bitmapStrokes ..)]
  refine (draws_forBelow (fun i => ?_) xpos (xpos + width)).bind (Draws.done _)
  rw [rowStrokes, List.map_eq_flatMap]
  refine draws_forBelow (fun j => ?_) ypos (ypos + height)
  rw [zero_add]
  exact (draws_drawPixel i j (i - xpos) (j - ypos)).bind (Draws.done ())

theorem drawColumns_plain (height xpos ypos : UInt) :
    drawColumns data width (ypos + height) ypos ((xpos + width).toNat - xpos.toNat) xpos (0, .ok) =
      drawPlain data width height xpos ypos :=
  (draws_drawColumns height xpos ypos).unique (draws_drawPlain height xpos ypos)

theorem strokeRead_screen {i j : UInt} (p : Pixel) (column : i.toNat = p.1) (row : j.toNat = p.2) :
    strokeRead i j (pixelColor data 128 i j) =
      (data[p.byte.val]?.map fun _ => p, data[p.byte.val]?.any (·.getLsbD p.bit)) := by
  have index : (dataIndex 128 i j).toNat = p.byte.val := by
    have sum := byteIndex_toNat i j
    simp only [Pixel.byte]
    rw [dataIndex, ← byteIndex, sum]
    omega
  have bit : j.toNat % 8 = p.bit := by rw [row, Pixel.bit]
  rw [strokeRead, pixelColor, index, bit, home_screen p column row]
  cases data[p.byte.val]? with
  | none => rfl
  | some byte => exact Prod.ext rfl (lit_bit _)

theorem mem_screenStrokes {stroke : Stroke Pixel Bool} :
    stroke ∈ bitmapStrokes data 128 64 0 0 ↔
      ∃ p : Pixel, stroke =
        (data[p.byte.val]?.map fun _ => p, data[p.byte.val]?.any (·.getLsbD p.bit)) := by
  simp only [bitmapStrokes, rowStrokes, List.mem_flatMap, List.mem_map, mem_between, zero_add,
    sub_zero]
  constructor
  · rintro ⟨i, ⟨_, column⟩, j, ⟨_, row⟩, rfl⟩
    exact ⟨(⟨i.toNat, column⟩, ⟨j.toNat, row⟩), strokeRead_screen _ rfl rfl⟩
  · rintro ⟨p, rfl⟩
    have column : (BitVec.ofNat 32 p.1.val).toNat = p.1 := by
      rw [BitVec.toNat_ofNat]
      omega
    have row : (BitVec.ofNat 32 p.2.val).toNat = p.2 := by
      rw [BitVec.toNat_ofNat]
      omega
    refine ⟨BitVec.ofNat 32 p.1, ⟨Nat.zero_le _, ?_⟩, BitVec.ofNat 32 p.2, ⟨Nat.zero_le _, ?_⟩,
      strokeRead_screen p column row⟩
    · rw [BitVec.lt_def, column]
      exact p.1.isLt
    · rw [BitVec.lt_def, row]
      exact p.2.isLt

theorem draws_copyFrame :
    Draws (copyFrame data 1024) () (bitmapStrokes data 128 64 0 0) := by
  intro frame
  change ((frame.copy 0 data 1024).map ((), ·)).map _ = _
  by_cases long : 1024 ≤ data.length
  · have present : ∀ p : Pixel, data[p.byte.val]? = some (data.getD p.byte.val 0) := by
      intro p
      rw [List.getD_eq_getElem?_getD, List.getElem?_eq_getElem (by omega), Option.getD_some]
    rw [paint_colours fun p => (data.getD p.byte.val 0).getLsbD p.bit]
    · rw [Buffer.copy, if_pos ⟨long, Nat.le_refl _⟩]
      refine congrArg some (Prod.ext rfl (funext fun p => ?_))
      have painted : some p ∈ (bitmapStrokes data 128 64 0 0).map Prod.fst :=
        List.mem_map.mpr ⟨_, mem_screenStrokes.mpr ⟨p, rfl⟩, by rw [present]; rfl⟩
      have inside : 0 ≤ p.byte.val ∧ p.byte.val < 0 + 1024 := by omega
      simp only [Prod.map_snd, view, if_pos painted, if_pos inside, Nat.sub_zero]
    · intro painted member
      obtain ⟨p, rfl⟩ := mem_screenStrokes.mp member
      exact ⟨p, by rw [present]; rfl⟩
  · have last : (pixelOf ⟨1023, by decide⟩ 0).byte.val = 1023 := by rw [byte_pixelOf]
    have missed : (none, false) ∈ bitmapStrokes data 128 64 0 0 := by
      refine mem_screenStrokes.mpr ⟨pixelOf ⟨1023, by decide⟩ 0, ?_⟩
      rw [last, List.getElem?_eq_none (by omega)]
      rfl
    rw [paint_missed missed, Buffer.copy_none (Or.inl (by omega))]
    rfl

end Rows

/-! ## The bitmap -/

/-- What a bitmap puts on the screen. A bitmap of a screen's size in the first column covers
the screen, whatever its header says of its width and height and wherever it should begin. -/
def drawBitmapPlain (xpos ypos : UInt) (pBmp : List Byte) : Draw Ssd1315Status :=
  Draw.reading (readHeader pBmp) fun header =>
    let data := pBmp.drop header.index.toNat
    if xpos = 0 ∧ (header.size - header.index) / 2 = 1024 then drawPlain data 128 64 0 0
    else drawPlain data header.width header.height xpos ypos

/-- The short cuts never show: a page copied as a byte and a screen copied by `memcpy` are the
picture that single pixels give, and they leave the same arrays. -/
theorem drawBitmap_plain (xpos ypos : UInt) (pBmp : List Byte) :
    drawBitmap xpos ypos pBmp = drawBitmapPlain xpos ypos pBmp := by
  unfold drawBitmap drawBitmapPlain
  refine congrArg _ (funext fun header => ?_)
  dsimp only
  by_cases whole : xpos = 0 ∧ (header.size - header.index) / 2 = 1024
  · rw [if_pos whole, if_pos whole, whole.2]
    have plain : Draws (drawPlain (pBmp.drop header.index.toNat) 128 64 0 0) .ok _ :=
      draws_drawPlain 64 0 0
    rw [← List.append_nil (bitmapStrokes ..)] at plain
    exact (draws_copyFrame.bind (Draws.done Ssd1315Status.ok)).unique plain
  · rw [if_neg whole, if_neg whole]
    exact drawColumns_plain header.height xpos ypos

def fileStrokes (xpos ypos : UInt) (pBmp : List Byte) : Strokes :=
  (readHeader pBmp).elim [(none, false)] fun header =>
    let data := pBmp.drop header.index.toNat
    if xpos = 0 ∧ (header.size - header.index) / 2 = 1024 then bitmapStrokes data 128 64 0 0
    else bitmapStrokes data header.width header.height xpos ypos

theorem draws_drawBitmap (xpos ypos : UInt) (pBmp : List Byte) :
    Draws (drawBitmap xpos ypos pBmp) .ok (fileStrokes xpos ypos pBmp) := by
  rw [drawBitmap_plain]
  unfold drawBitmapPlain fileStrokes
  intro frame
  cases readHeader pBmp with
  | none => rfl
  | some header =>
      dsimp only [Draw.reading, Option.bind_some, Option.elim_some]
      split
      · exact draws_drawPlain 64 0 0 frame
      · exact draws_drawPlain header.height xpos ypos frame

end Baelux.Lcd

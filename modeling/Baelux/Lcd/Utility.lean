import Baelux.Lcd.Picture

/-! `stm32_lcd.c`: the drawing functions that stand on the driver of the display. -/

namespace Baelux.Lcd

abbrev Short := BitVec 16

def lcdPixelFormatRGB565 : UInt := 2

/-- `DrawProp[0]`. The driver has no `SetLayer`, so no other layer is ever drawn. -/
structure DrawProp where
  textColor : UInt
  backColor : UInt
  lcdXsize : UInt
  lcdYsize : UInt
  lcdPixelFormat : UInt
  deriving DecidableEq, Repr

/-- `UTIL_LCD_SetFuncDriver` with the driver of the display: `user_lcd_GetPixelFormat` does not
write the format. -/
def DrawProp.setFuncDriver (prop : DrawProp) : DrawProp :=
  { prop with lcdXsize := 128, lcdYsize := 64 }

def convertARGB88882RGB565 (color : UInt) : UInt :=
  ((color &&& 0xFF) >>> 3 &&& 0x1F) |||
    (((color &&& 0xFF00) >>> 8 >>> 2 &&& 0x3F) <<< 5) |||
    (((color &&& 0xFF0000) >>> 16 >>> 3 &&& 0x1F) <<< 11)

def DrawProp.driverColor (prop : DrawProp) (color : UInt) : UInt :=
  if prop.lcdPixelFormat = lcdPixelFormatRGB565 then convertARGB88882RGB565 color else color

namespace Util

def setPixel (prop : DrawProp) (xpos ypos : Short) (color : UInt) : Draw Unit := do
  let _ ← Lcd.setPixel (xpos.setWidth 32) (ypos.setWidth 32) (prop.driverColor color)

def drawHLine (prop : DrawProp) (xpos ypos length color : UInt) : Draw Unit := do
  let _ ← Lcd.drawHLine xpos ypos length (prop.driverColor color)

def drawVLine (prop : DrawProp) (xpos ypos length color : UInt) : Draw Unit := do
  let _ ← Lcd.drawVLine xpos ypos length (prop.driverColor color)

def drawRect (prop : DrawProp) (xpos ypos width height color : UInt) : Draw Unit := do
  drawHLine prop xpos ypos width color
  drawHLine prop xpos (ypos + height - 1) width color
  drawVLine prop xpos ypos height color
  drawVLine prop (xpos + width - 1) ypos height color

def fillRect (prop : DrawProp) (xpos ypos width height color : UInt) : Draw Unit := do
  let _ ← Lcd.fillRect xpos ypos width height (prop.driverColor color)

def clear (prop : DrawProp) (color : UInt) : Draw Unit :=
  fillRect prop 0 0 prop.lcdXsize prop.lcdYsize color

structure LineSetup where
  xinc1 : Short
  xinc2 : Short
  yinc1 : Short
  yinc2 : Short
  den : Short
  num : Short
  numadd : Short
  numpixels : Short

def abs (value : UInt) : UInt := if (0 : UInt).slt value then value else -value

def lineSetup (xpos1 ypos1 xpos2 ypos2 : UInt) : LineSetup :=
  let deltax : Short := (abs (xpos2 - xpos1)).setWidth 16
  let deltay : Short := (abs (ypos2 - ypos1)).setWidth 16
  let xinc : Short := if xpos1 ≤ xpos2 then 1 else -1
  let yinc : Short := if ypos1 ≤ ypos2 then 1 else -1
  if deltay.sle deltax then
    { xinc1 := 0, xinc2 := xinc, yinc1 := yinc, yinc2 := 0,
      den := deltax, num := deltax.sdiv 2, numadd := deltay, numpixels := deltax }
  else
    { xinc1 := xinc, xinc2 := 0, yinc1 := 0, yinc2 := yinc,
      den := deltay, num := deltay.sdiv 2, numadd := deltax, numpixels := deltay }

/-- The loop over `curpixel`. It never ends when `curpixel` can not get past `numpixels`. -/
def lineLoop (visit : Short → Short → Draw Unit) (setup : LineSetup) :
    Nat → Short → Short × Short × Short → Draw Unit
  | 0, _, _ => fun _ => none
  | fuel + 1, curpixel, (x, y, num) =>
      if curpixel.sle setup.numpixels then do
        visit x y
        let num := num + setup.numadd
        if setup.den.sle num then
          lineLoop visit setup fuel (curpixel + 1)
            (x + setup.xinc1 + setup.xinc2, y + setup.yinc1 + setup.yinc2, num - setup.den)
        else
          lineLoop visit setup fuel (curpixel + 1) (x + setup.xinc2, y + setup.yinc2, num)
      else return ()

def walkLine (visit : Short → Short → Draw Unit) (xpos1 ypos1 xpos2 ypos2 : UInt) : Draw Unit :=
  let setup := lineSetup xpos1 ypos1 xpos2 ypos2
  lineLoop visit setup 0x10000 0 (xpos1.setWidth 16, ypos1.setWidth 16, setup.num)

def drawLine (prop : DrawProp) (xpos1 ypos1 xpos2 ypos2 color : UInt) : Draw Unit :=
  walkLine (fun x y => setPixel prop x y color) xpos1 ypos1 xpos2 ypos2

/-- `FillTriangle`: a line from each pixel of the first side to the third corner. -/
def fillTriangle (prop : DrawProp) (x1 y1 x2 y2 x3 y3 color : UInt) : Draw Unit :=
  walkLine (fun x y => drawLine prop (x.signExtend 32) (y.signExtend 32) x3 y3 color) x1 y1 x2 y2

def setInside (prop : DrawProp) (color row column : UInt) : Draw Unit :=
  if column < prop.lcdXsize then setPixel prop (column.setWidth 16) (row.setWidth 16) color
  else return ()

def drawPair (prop : DrawProp) (color row right left : UInt) : Draw Unit :=
  if row < prop.lcdYsize then do
    setInside prop color row right
    setInside prop color row left
  else return ()

def drawEighths (prop : DrawProp) (xpos ypos color currentX currentY : UInt) : Draw Unit := do
  drawPair prop color (ypos - currentY) (xpos + currentX) (xpos - currentX)
  drawPair prop color (ypos - currentX) (xpos + currentY) (xpos - currentY)
  drawPair prop color (ypos + currentY) (xpos + currentX) (xpos - currentX)
  drawPair prop color (ypos + currentX) (xpos + currentY) (xpos - currentY)

def circleLoop (visit : UInt → UInt → Draw Unit) : Nat → UInt × UInt × UInt → Draw Unit
  | 0, _ => fun _ => none
  | fuel + 1, (currentX, currentY, decision) =>
      if currentX ≤ currentY then do
        visit currentX currentY
        if decision.slt 0 then
          circleLoop visit fuel
            (currentX + 1, currentY, decision + (currentX <<< 2 + 6))
        else
          circleLoop visit fuel
            (currentX + 1, currentY - 1, decision + ((currentX - currentY) <<< 2 + 10))
      else return ()

def drawCircle (prop : DrawProp) (xpos ypos radius color : UInt) : Draw Unit :=
  circleLoop (drawEighths prop xpos ypos color) 0x100000000 (0, radius, (3 : UInt) - radius <<< 1)

def fillRow (prop : DrawProp) (xpos color half row : UInt) : Draw Unit :=
  if xpos ≤ half then drawHLine prop 0 row (2 * half - (half - xpos)) color
  else drawHLine prop (xpos - half) row (2 * half) color

def fillPair (prop : DrawProp) (xpos color half first second : UInt) : Draw Unit :=
  if 0 < half then do
    fillRow prop xpos color half first
    fillRow prop xpos color half second
  else return ()

def fillRows (prop : DrawProp) (xpos ypos color currentX currentY : UInt) : Draw Unit := do
  fillPair prop xpos color currentY (ypos + currentX) (ypos - currentX)
  fillPair prop xpos color currentX (ypos - currentY) (ypos + currentY)

def fillCircle (prop : DrawProp) (xpos ypos radius color : UInt) : Draw Unit := do
  circleLoop (fillRows prop xpos ypos color) 0x100000000 (0, radius, (3 : UInt) - radius <<< 1)
  drawCircle prop xpos ypos radius color

structure Point where
  x : Short
  y : Short
  deriving DecidableEq, Repr

def Point.wideX (point : Point) : UInt := point.x.signExtend 32
def Point.wideY (point : Point) : UInt := point.y.signExtend 32

def drawSide (prop : DrawProp) (color : UInt) (first second : Point) : Draw Unit :=
  drawLine prop first.wideX first.wideY second.wideX second.wideY color

def alongSides (side : Point → Point → Draw Unit) : Point → List Point → Draw Unit
  | _, [] => return ()
  | point, next :: points => do
      side point next
      alongSides side next points

/-- `UTIL_LCD_DrawPolygon`; the first side closes the polygon. -/
def drawPolygon (prop : DrawProp) (points : List Point) (color : UInt) : Draw Unit :=
  match points with
  | [] | [_] => return ()
  | first :: second :: rest => do
      drawSide prop color first ((second :: rest).getLast (List.cons_ne_nil _ _))
      alongSides (drawSide prop color) first (second :: rest)

structure ImageBox where
  left : UInt
  right : UInt
  top : UInt
  bottom : UInt
  deriving DecidableEq, Repr

def ImageBox.widen (box : ImageBox) (point : Point) : ImageBox where
  left := if point.wideX < box.left then point.wideX else box.left
  right := if box.right < point.wideX then point.wideX else box.right
  top := if point.wideY < box.top then point.wideY else box.top
  bottom := if box.bottom < point.wideY then point.wideY else box.bottom

/-- The box around the points. The counter of its loop has 16 bits and stops at its sign. -/
def imageBox (first : Point) (rest : List Point) : ImageBox :=
  (rest.take 32767).foldl ImageBox.widen ⟨first.wideX, first.wideX, first.wideY, first.wideY⟩

def ImageBox.center (box : ImageBox) : Point :=
  ⟨((box.left + box.right) / 2).setWidth 16, ((box.bottom + box.top) / 2).setWidth 16⟩

def fillPoints (prop : DrawProp) (color : UInt) (first second third : Point) : Draw Unit :=
  fillTriangle prop first.wideX first.wideY second.wideX second.wideY third.wideX third.wideY color

def fillSide (prop : DrawProp) (color : UInt) (center first second : Point) : Draw Unit := do
  fillPoints prop color first second center
  fillPoints prop color first center second
  fillPoints prop color center second first

/-- `UTIL_LCD_FillPolygon`, which reads its first point also when there is none. -/
def fillPolygon (prop : DrawProp) (points : List Point) (color : UInt) : Draw Unit :=
  match points with
  | [] => fun _ => none
  | [_] => return ()
  | first :: second :: rest => do
      let center := (imageBox first (second :: rest)).center
      alongSides (fillSide prop color center) first (second :: rest)
      fillSide prop color center first ((second :: rest).getLast (List.cons_ne_nil _ _))

end Util

end Baelux.Lcd

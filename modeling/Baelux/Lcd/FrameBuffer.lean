import Mathlib.Data.BitVec
import Mathlib.Tactic.Ring
import Baelux.Library.Buffer
import Baelux.Library.Painting

/-! `ssd1315.c`: the frame buffer of the display and the functions that draw into it. A byte of
the buffer is a column of eight pixels; a row of 128 such columns is a page. -/

namespace Baelux.Lcd

open Baelux.Painting

abbrev UInt := BitVec 32

def ssd1315ColorWhite : UInt := 0xFF
def ssd1315ColorBlack : UInt := 0x00

abbrev PhysFrameBuffer := Buffer 1024

inductive Ssd1315Status where
  | ok
  | error
  deriving DecidableEq, Repr

/-- A piece of drawing code. There is no result when it leaves an array or never ends. -/
abbrev Draw (α : Type) := PhysFrameBuffer → Option (α × PhysFrameBuffer)

namespace Draw

variable {α β : Type}

def done (result : α) : Draw α := fun frame => some (result, frame)

def andThen (first : Draw α) (next : α → Draw β) : Draw β := fun frame =>
  (first frame).bind fun (result, frame) => next result frame

instance : Monad Draw where
  pure := done
  bind := andThen

def reading (value : Option β) (next : β → Draw α) : Draw α := fun frame =>
  value.bind fun value => next value frame

end Draw

def changeByte (index : UInt) (change : Byte → Byte) : Draw Unit := fun frame => do
  let byte ← frame.load index.toNat
  let frame ← frame.store index.toNat (change byte)
  pure ((), frame)

/-- `for (i = first; i < stop; i++)`, with a body that does not write `i`. -/
def forBelow (first stop : UInt) (body : UInt → Draw Unit) : Draw Unit :=
  go (stop.toNat - first.toNat) first
where
  go : Nat → UInt → Draw Unit
    | 0, _ => Draw.done ()
    | remaining + 1, i => (body i).andThen fun _ => go remaining (i + 1)

def byteIndex (xpos ypos : UInt) : UInt := xpos + ypos / 8 * 128

def setPixel (xpos ypos color : UInt) : Draw Ssd1315Status := do
  if color = ssd1315ColorWhite then
    changeByte (byteIndex xpos ypos) fun byte => byte ||| 1#8 <<< (ypos % 8)
  else
    changeByte (byteIndex xpos ypos) fun byte => byte &&& ~~~(1#8 <<< (ypos % 8))
  return .ok

/-- `SSD1315_GetPixel`; the colour goes to `*Color`. -/
def getPixel (xpos ypos : UInt) : Draw (UInt × Ssd1315Status) := fun frame =>
  if 128 ≤ xpos ∨ 64 ≤ ypos then some ((0, .ok), frame)
  else do
    let byte ← frame.load (byteIndex xpos ypos).toNat
    pure ((if byte &&& 1#8 <<< (ypos % 8) ≠ 0 then 1 else 0, .ok), frame)

def drawHLine (xpos ypos length color : UInt) : Draw Ssd1315Status := do
  forBelow xpos (xpos + length) fun i => do
    let _ ← setPixel i ypos color
  return .ok

def drawVLine (xpos ypos length color : UInt) : Draw Ssd1315Status := do
  forBelow ypos (ypos + length) fun i => do
    let _ ← setPixel xpos i color
  return .ok

def fillRect (xpos ypos width height color : UInt) : Draw Ssd1315Status :=
  lines height.toNat 0
where
  lines : Nat → UInt → Draw Ssd1315Status
    | 0, _ => Draw.done .ok
    | remaining + 1, i => do
        if (← drawHLine xpos (i + ypos) width color) ≠ .ok then return .error
        lines remaining (i + 1)

/-- `*pData | (*(pData + 1) << 8) | (*(pData + 2) << 16) | (*(pData + 3) << 24)`, if the bytes
are there. -/
def loadWord : List Byte → Option UInt
  | b₀ :: b₁ :: b₂ :: b₃ :: _ => some (b₃ ++ b₂ ++ b₁ ++ b₀)
  | _ => none

/-- `SSD1315_FillRGBRect`; `pData` is the rest of its object. -/
def fillRGBRect (xpos ypos : UInt) (pData : List Byte) (width height : UInt) :
    Draw Ssd1315Status := do
  let (_, ret) ← rows height.toNat 0 (pData, .ok)
  return ret
where
  columns (i : UInt) : Nat → UInt → List Byte × Ssd1315Status → Draw (List Byte × Ssd1315Status)
    | 0, _, (pData, ret) => Draw.done (pData, ret)
    | remaining + 1, j, (pData, ret) => Draw.reading (loadWord pData) fun color => do
        let status ← setPixel (xpos + j) (ypos + i) color
        columns i remaining (j + 1) (pData.drop 4, if status ≠ .ok then .error else ret)
  rows : Nat → UInt → List Byte × Ssd1315Status → Draw (List Byte × Ssd1315Status)
    | 0, _, state => Draw.done state
    | remaining + 1, i, state => do
        let state ← columns i width.toNat 0 state
        rows remaining (i + 1) state

def clearByte (colorCode : BitVec 16) : Byte := if colorCode = 0xFF then 0xFF else 0x00

def clearFrame (colorCode : BitVec 16) : Draw Unit := fun _ =>
  some ((), fun _ => clearByte colorCode)

/-- The statics of `user_lcd.c` that its functions read. -/
structure UserLcd where
  width : UInt
  height : UInt

def lcdOrientationLandscape : UInt := 0
def lcdDefaultWidth : UInt := 128
def lcdDefaultHeight : UInt := 64

inductive UserLcdStatus where
  | errorNone
  | errorComponentFailure
  deriving DecidableEq, Repr

/-- What `user_lcd_Init` sets the statics to, also where it does not find the display. -/
def userLcdInit (orientation : UInt) : UserLcd :=
  if orientation = lcdOrientationLandscape then ⟨lcdDefaultWidth, lcdDefaultHeight⟩
  else ⟨lcdDefaultHeight, lcdDefaultWidth⟩

/-- `user_lcd_Clear`; of the driver's results only `SSD1315_ERROR` is negative. -/
def userLcdClear (lcd : UserLcd) (color : UInt) : Draw UserLcdStatus := do
  if (← fillRect 1 0 lcd.width lcd.height color) = .error then return .errorComponentFailure
  return .errorNone

end Baelux.Lcd

import Baelux.Lcd.Bitmap

/-! Any sequence of drawing calls, and what the screen shows after it. -/

namespace Baelux.Lcd

open Baelux.Painting

inductive DrawCall where
  | setPixel (xpos ypos color : UInt)
  | drawHLine (xpos ypos length color : UInt)
  | drawVLine (xpos ypos length color : UInt)
  | fillRect (xpos ypos width height color : UInt)
  | fillRGBRect (xpos ypos : UInt) (pData : List Byte) (width height : UInt)
  | drawBitmap (xpos ypos : UInt) (pBmp : List Byte)
  | clear (colorCode : BitVec 16)

namespace DrawCall

def perform : DrawCall → Draw Unit
  | setPixel xpos ypos color => do let _ ← Lcd.setPixel xpos ypos color
  | drawHLine xpos ypos length color => do let _ ← Lcd.drawHLine xpos ypos length color
  | drawVLine xpos ypos length color => do let _ ← Lcd.drawVLine xpos ypos length color
  | fillRect xpos ypos width height color => do let _ ← Lcd.fillRect xpos ypos width height color
  | fillRGBRect xpos ypos pData width height => do
      let _ ← Lcd.fillRGBRect xpos ypos pData width height
  | drawBitmap xpos ypos pBmp => do let _ ← Lcd.drawBitmap xpos ypos pBmp
  | clear colorCode => clearFrame colorCode

def strokes : DrawCall → Strokes
  | setPixel xpos ypos color => [stroke xpos ypos (lit color)]
  | drawHLine xpos ypos length color =>
      (between xpos (xpos + length)).map fun i => stroke i ypos (lit color)
  | drawVLine xpos ypos length color =>
      (between ypos (ypos + length)).map fun i => stroke xpos i (lit color)
  | fillRect xpos ypos width height color =>
      (between 0 height).flatMap fun i =>
        (between xpos (xpos + width)).map fun j => stroke j (i + ypos) (lit color)
  | fillRGBRect xpos ypos pData width height =>
      (between 0 height).flatMap fun i => (between 0 width).map fun j =>
        strokeRead (xpos + j) (ypos + i) (colorAt pData (i.toNat * width.toNat + j.toNat))
  | drawBitmap xpos ypos pBmp => fileStrokes xpos ypos pBmp
  | clear colorCode => bitmapStrokes (List.replicate 1024 (clearByte colorCode)) 128 64 0 0

end DrawCall

theorem draws_clearFrame (colorCode : BitVec 16) :
    Draws (clearFrame colorCode) () (DrawCall.clear colorCode).strokes := by
  have copies : clearFrame colorCode = copyFrame (List.replicate 1024 (clearByte colorCode)) 1024 := by
    funext frame
    have long : 1024 ≤ (List.replicate 1024 (clearByte colorCode)).length :=
      Nat.le_of_eq List.length_replicate.symm
    rw [copyFrame, Buffer.copy, if_pos ⟨long, Nat.le_refl _⟩]
    refine congrArg some (Prod.ext rfl (funext fun i => ?_))
    have inside : 0 ≤ i.val ∧ i.val < 0 + (1024 : UInt).toNat := ⟨Nat.zero_le _, by
      change i.val < 0 + 1024
      omega⟩
    dsimp only
    rw [if_pos inside, List.getD_eq_getElem?_getD, List.getElem?_replicate, if_pos (by omega)]
    rfl
  rw [copies]
  exact draws_copyFrame

theorem draws_perform (call : DrawCall) : Draws call.perform () call.strokes := by
  rw [← List.append_nil call.strokes]
  cases call with
  | setPixel xpos ypos color => exact (draws_setPixel xpos ypos color).bind (Draws.done ())
  | drawHLine xpos ypos length color =>
      exact (draws_drawHLine xpos ypos length color).bind (Draws.done ())
  | drawVLine xpos ypos length color =>
      exact (draws_drawVLine xpos ypos length color).bind (Draws.done ())
  | fillRect xpos ypos width height color =>
      exact (draws_fillRect xpos ypos width height color).bind (Draws.done ())
  | fillRGBRect xpos ypos pData width height =>
      exact (draws_fillRGBRect xpos ypos pData width height).bind (Draws.done ())
  | drawBitmap xpos ypos pBmp => exact (draws_drawBitmap xpos ypos pBmp).bind (Draws.done ())
  | clear colorCode =>
      rw [List.append_nil]
      exact draws_clearFrame colorCode

def performAll : List DrawCall → Draw Unit
  | [] => pure ()
  | call :: calls => do
      call.perform
      performAll calls

theorem draws_performAll (calls : List DrawCall) :
    Draws (performAll calls) () (calls.flatMap DrawCall.strokes) := by
  induction calls with
  | nil => exact Draws.done ()
  | cons call calls ih =>
      rw [List.flatMap_cons]
      exact (draws_perform call).bind ih

/-- The colour that `SSD1315_GetPixel` gives for a position of a picture. -/
def readback (picture : Picture) (xpos ypos : UInt) : UInt :=
  if inside : xpos.toNat < 128 ∧ ypos.toNat < 64 then
    if picture (⟨_, inside.1⟩, ⟨_, inside.2⟩) then 1 else 0
  else 0

theorem getPixel_readback (xpos ypos : UInt) (frame : PhysFrameBuffer) :
    getPixel xpos ypos frame = some ((readback (view frame) xpos ypos, .ok), frame) := by
  unfold getPixel readback
  by_cases inside : xpos.toNat < 128 ∧ ypos.toNat < 64
  · obtain ⟨column, row⟩ := inside
    have index := byteIndex_toNat xpos ypos
    have loads : (byteIndex xpos ypos).toNat < 1024 := by omega
    have byte : Pixel.byte (⟨_, column⟩, ⟨_, row⟩) = ⟨_, loads⟩ := by
      apply Fin.ext
      simp only [Pixel.byte]
      omega
    rw [if_neg (by bv_omega), dif_pos ⟨column, row⟩, Buffer.load_of_lt loads]
    have tests := testBit_iff (frame ⟨_, loads⟩) ypos
    simp only [view, byte, Pixel.bit, Option.bind_eq_bind, Option.bind_some, ← tests]
    rfl
  · rw [if_pos (by bv_omega), dif_neg inside]

/-- Every sequence of drawing calls is a sequence of strokes: it leaves the frame buffer when one
of them misses, and otherwise every pixel reads back as its last stroke left it. -/
theorem session_shows (calls : List DrawCall) (frame : PhysFrameBuffer) :
    (performAll calls frame = none ↔
      ∃ colour, (none, colour) ∈ calls.flatMap DrawCall.strokes) ∧
    ∀ target, performAll calls frame = some ((), target) → ∀ xpos ypos,
      getPixel xpos ypos target = some ((readback
        (shown (calls.flatMap DrawCall.strokes) (view frame)) xpos ypos, .ok), target) := by
  refine ⟨(draws_performAll calls).leaves frame, ?_⟩
  intro target reached xpos ypos
  have draws := draws_performAll calls frame
  rw [reached] at draws
  have hits : ∀ stroke ∈ calls.flatMap DrawCall.strokes, stroke.1 ≠ none := by
    rintro ⟨place, colour⟩ member rfl
    rw [paint_missed member] at draws
    cases draws
  rw [paint_eq_shown hits] at draws
  have pictures : view target = shown (calls.flatMap DrawCall.strokes) (view frame) :=
    congrArg Prod.snd (Option.some.inj draws)
  rw [getPixel_readback, pictures]

end Baelux.Lcd

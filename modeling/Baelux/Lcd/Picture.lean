import Baelux.Lcd.FrameBuffer

/-! What the frame buffer shows: a picture of 128 by 64 pixels, onto which a drawing function
puts its strokes. -/

namespace Baelux.Lcd

open Baelux.Painting

abbrev Pixel := Fin 128 × Fin 64

abbrev Picture := Pixel → Bool

theorem byte_of_pixel (p : Pixel) : p.1.val + p.2.val / 8 * 128 < 1024 := by
  omega

def Pixel.byte (p : Pixel) : Fin 1024 := ⟨_, byte_of_pixel p⟩

def Pixel.bit (p : Pixel) : Nat := p.2.val % 8

theorem pixel_column (index : Fin 1024) : index.val % 128 < 128 := Nat.mod_lt _ (by decide)

theorem pixel_row (index : Fin 1024) (bit : Nat) : index.val / 128 * 8 + bit % 8 < 64 := by
  omega

def pixelOf (byte : Fin 1024) (bit : Nat) : Pixel := (⟨_, pixel_column byte⟩, ⟨_, pixel_row byte bit⟩)

@[simp] theorem byte_pixelOf (byte : Fin 1024) (bit : Nat) : (pixelOf byte bit).byte = byte := by
  apply Fin.ext
  simp only [Pixel.byte, pixelOf]
  omega

@[simp] theorem bit_pixelOf (byte : Fin 1024) (bit : Nat) : (pixelOf byte bit).bit = bit % 8 := by
  simp only [Pixel.bit, pixelOf]
  omega

theorem pixel_ext {p q : Pixel} (byte : p.byte = q.byte) (bit : p.bit = q.bit) : p = q := by
  have byte := congrArg Fin.val byte
  simp only [Pixel.byte, Pixel.bit] at byte bit
  apply Prod.ext <;> apply Fin.ext <;> omega

/-- The pixel a position falls on. A position right of the screen falls on a page below, and
one past the last page on none. -/
def home (xpos ypos : UInt) : Option Pixel :=
  if inside : (byteIndex xpos ypos).toNat < 1024 then some (pixelOf ⟨_, inside⟩ ypos.toNat)
  else none

def view (frame : PhysFrameBuffer) : Picture := fun p => (frame p.byte).getLsbD p.bit

theorem byteIndex_toNat (xpos ypos : UInt) :
    (byteIndex xpos ypos).toNat = (xpos.toNat + ypos.toNat / 8 * 128) % 2 ^ 32 := by
  simp [byteIndex]

theorem home_screen {xpos ypos : UInt} (p : Pixel) (column : xpos.toNat = p.1)
    (row : ypos.toNat = p.2) : home xpos ypos = some p := by
  have index := byteIndex_toNat xpos ypos
  have inside : (byteIndex xpos ypos).toNat < 1024 := by omega
  rw [home, dif_pos inside]
  refine congrArg some (pixel_ext ?_ ?_)
  · apply Fin.ext
    rw [byte_pixelOf]
    simp only [Pixel.byte]
    omega
  · rw [bit_pixelOf, Pixel.bit, row]

theorem view_injective : Function.Injective view := by
  intro left right same
  funext byte
  apply BitVec.eq_of_getLsbD_eq
  intro bit inside
  have here := congrFun same (pixelOf byte bit)
  rwa [view, view, byte_pixelOf, bit_pixelOf, Nat.mod_eq_of_lt inside] at here

/-! ## Strokes -/

abbrev Strokes := List (Stroke Pixel Bool)

def stroke (xpos ypos : UInt) (lit : Bool) : Stroke Pixel Bool := (home xpos ypos, lit)

def lit (color : UInt) : Bool := color = ssd1315ColorWhite

/-- The code returns the result and puts the strokes on the picture, one after the other. It
leaves the frame buffer when one of them misses the picture. -/
def Draws {α : Type} (code : Draw α) (result : α) (strokes : Strokes) : Prop :=
  ∀ frame, (code frame).map (Prod.map id view) = (paint strokes (view frame)).map (result, ·)

namespace Draws

variable {α β : Type} {code : Draw α} {result : α} {first second strokes : Strokes}

theorem done (result : α) : Draws (pure result) result [] := fun _ => rfl

theorem bind {next : α → Draw β} {final : β} (draws : Draws code result first)
    (follows : Draws (next result) final second) :
    Draws (code >>= next) final (first ++ second) := by
  intro frame
  have here := draws frame
  rw [paint_append]
  change (code.andThen next frame).map _ = _
  unfold Draw.andThen
  cases reached : code frame with
  | none =>
      rw [reached] at here
      rw [(Option.map_eq_none_iff.mp here.symm)]
      rfl
  | some state =>
      obtain ⟨value, next⟩ := state
      rw [reached] at here
      obtain ⟨picture, painted, same⟩ := Option.map_eq_some_iff.mp here.symm
      cases same
      rw [painted]
      exact follows next

/-- Code leaves the frame buffer when a stroke misses the picture, and only then. -/
theorem leaves (draws : Draws code result strokes) (frame : PhysFrameBuffer) :
    code frame = none ↔ ∃ colour, (none, colour) ∈ strokes := by
  rw [← paint_eq_none (view frame), ← Option.map_eq_none_iff, draws frame, Option.map_eq_none_iff]

theorem unique {other : Draw α} (draws : Draws code result strokes)
    (same : Draws other result strokes) : code = other := by
  funext frame
  have maps := (draws frame).trans (same frame).symm
  exact Option.map_injective (Function.injective_id.prodMap view_injective) maps

end Draws

def between (start stop : UInt) : List UInt :=
  (List.range' start.toNat (stop.toNat - start.toNat)).map (BitVec.ofNat 32)

theorem mem_between {start stop i : UInt} : i ∈ between start stop ↔ start ≤ i ∧ i < stop := by
  simp only [between, List.mem_map, List.mem_range'_1, BitVec.le_def, BitVec.lt_def]
  constructor
  · rintro ⟨n, ⟨above, below⟩, rfl⟩
    have := stop.isLt
    rw [BitVec.toNat_ofNat, Nat.mod_eq_of_lt (by omega)]
    omega
  · rintro ⟨above, below⟩
    exact ⟨i.toNat, ⟨above, by omega⟩, BitVec.ofNat_toNat ..⟩

theorem between_nil {start stop : UInt} (empty : stop.toNat - start.toNat = 0) :
    between start stop = [] := by
  rw [between, empty]
  rfl

theorem between_cons {start stop : UInt} {remaining : Nat}
    (count : stop.toNat - start.toNat = remaining + 1) :
    between start stop = start :: between (start + 1) stop := by
  have := stop.isLt
  have next : (start + 1).toNat = start.toNat + 1 := by bv_omega
  rw [between, count, List.range'_succ, List.map_cons, BitVec.ofNat_toNat, BitVec.setWidth_eq]
  rw [between, next]
  congr 3
  omega

theorem draws_counted {α : Type} (go : Nat → UInt → Draw α) {result : α}
    {strokes : UInt → Strokes} (start stop : UInt)
    (ends : ∀ i, (start ≤ stop → i = stop) → Draws (go 0 i) result [])
    (step : ∀ remaining i rest, i < stop → Draws (go remaining (i + 1)) result rest →
      Draws (go (remaining + 1) i) result (strokes i ++ rest)) :
    Draws (go (stop.toNat - start.toNat) start) result ((between start stop).flatMap strokes) := by
  generalize count : stop.toNat - start.toNat = remaining
  induction remaining generalizing start with
  | zero =>
      rw [between_nil count]
      exact ends start (by bv_omega)
  | succ remaining ih =>
      have := stop.isLt
      rw [between_cons count, List.flatMap_cons]
      have last : ∀ i, (start + 1 ≤ stop → i = stop) → Draws (go 0 i) result [] :=
        fun i last => ends i fun _ => last (by bv_omega)
      exact step _ _ _ (by bv_omega) (ih (start + 1) last (by bv_omega))

theorem draws_upTo {α : Type} (go : Nat → UInt → Draw α) {result : α} {strokes : UInt → Strokes}
    {stop : UInt} (ends : Draws (go 0 stop) result [])
    (step : ∀ remaining i rest, i < stop → Draws (go remaining (i + 1)) result rest →
      Draws (go (remaining + 1) i) result (strokes i ++ rest)) :
    Draws (go stop.toNat 0) result ((between 0 stop).flatMap strokes) :=
  draws_counted go 0 stop (fun _ last => last (Nat.zero_le _) ▸ ends) step

theorem draws_forBelow {body : UInt → Draw Unit} {strokes : UInt → Strokes}
    (draws : ∀ i, Draws (body i) () (strokes i)) (start stop : UInt) :
    Draws (forBelow start stop body) () ((between start stop).flatMap strokes) :=
  draws_counted (forBelow.go body) start stop (fun _ _ => Draws.done ()) fun _ i _ _ rest =>
    (draws i).bind rest

/-! ## The driver -/

theorem view_update (frame : PhysFrameBuffer) (byte : Fin 1024) {bit : Nat} {changed : Byte}
    {lit : Bool} (changes : ∀ i, i < 8 →
      changed.getLsbD i = if i = bit % 8 then lit else (frame byte).getLsbD i) :
    view (Function.update frame byte changed) =
      Function.update (view frame) (pixelOf byte bit) lit := by
  funext q
  by_cases same : q.byte = byte
  · have below : q.bit < 8 := Nat.mod_lt _ (by decide)
    rw [view, same, Function.update_self, changes _ below]
    by_cases here : q.bit = bit % 8
    · have pixel : q = pixelOf byte bit := pixel_ext (by simp [same]) (by simp [here])
      rw [if_pos here, pixel, Function.update_self]
    · have other : q ≠ pixelOf byte bit := fun pixel => here (pixel ▸ bit_pixelOf ..)
      rw [if_neg here, Function.update_of_ne other, view, same]
  · have other : q ≠ pixelOf byte bit := fun pixel => same (pixel ▸ byte_pixelOf ..)
    rw [view, Function.update_of_ne same, Function.update_of_ne other, view]

theorem draws_changeByte {xpos ypos : UInt} {change : Byte → Byte} {lit : Bool}
    (changes : ∀ byte bit, bit < 8 →
      (change byte).getLsbD bit = if bit = ypos.toNat % 8 then lit else byte.getLsbD bit) :
    Draws (changeByte (byteIndex xpos ypos) change) () [stroke xpos ypos lit] := by
  intro frame
  unfold changeByte stroke home paint
  split
  · rename_i inside
    rw [Buffer.load_of_lt inside]
    simp only [Option.bind_eq_bind, Option.bind_some, Buffer.store, dif_pos inside, paint]
    refine congrArg some (Prod.ext rfl ?_)
    exact view_update frame ⟨_, inside⟩ (changes _)
  · rename_i outside
    rw [Buffer.load, dif_neg outside]
    rfl

theorem getLsbD_mask {bit i : Nat} (inside : i < 8) :
    (1#8 <<< bit).getLsbD i = decide (i = bit) := by
  rw [BitVec.getLsbD_shiftLeft, BitVec.getLsbD_one]
  have := Nat.sub_eq_zero_iff_le (m := i) (n := bit)
  by_cases below : i < bit
  · simp [below, Nat.ne_of_lt below]
  · simp [below, inside]
    omega

theorem draws_setPixel (xpos ypos color : UInt) :
    Draws (setPixel xpos ypos color) .ok [stroke xpos ypos (lit color)] := by
  have bit : (ypos % 8).toNat = ypos.toNat % 8 := BitVec.toNat_umod ..
  unfold setPixel
  by_cases white : color = ssd1315ColorWhite
  · rw [if_pos white, lit, decide_eq_true white]
    refine (draws_changeByte fun byte i inside => ?_).bind (Draws.done _)
    rw [BitVec.getLsbD_or, BitVec.shiftLeft_eq', bit, getLsbD_mask inside]
    split <;> simp [*]
  · rw [if_neg white, lit, decide_eq_false white]
    refine (draws_changeByte fun byte i inside => ?_).bind (Draws.done _)
    rw [BitVec.getLsbD_and, BitVec.getLsbD_not, BitVec.shiftLeft_eq', bit, getLsbD_mask inside]
    split <;> simp [*]

theorem draws_pixels (xpos ypos : UInt → UInt) (start stop color : UInt) :
    Draws (do
      forBelow start stop fun i => do
        let _ ← setPixel (xpos i) (ypos i) color
      return Ssd1315Status.ok) .ok
      ((between start stop).map fun i => stroke (xpos i) (ypos i) (lit color)) := by
  rw [List.map_eq_flatMap, ← List.append_nil (List.flatMap ..)]
  refine (draws_forBelow (fun i => ?_) start stop).bind (Draws.done _)
  exact (draws_setPixel (xpos i) (ypos i) color).bind (Draws.done ())

theorem draws_drawHLine (xpos ypos length color : UInt) :
    Draws (drawHLine xpos ypos length color) .ok
      ((between xpos (xpos + length)).map fun i => stroke i ypos (lit color)) :=
  draws_pixels id (fun _ => ypos) xpos (xpos + length) color

theorem draws_drawVLine (xpos ypos length color : UInt) :
    Draws (drawVLine xpos ypos length color) .ok
      ((between ypos (ypos + length)).map fun i => stroke xpos i (lit color)) :=
  draws_pixels (fun _ => xpos) id ypos (ypos + length) color

theorem draws_fillRect (xpos ypos width height color : UInt) :
    Draws (fillRect xpos ypos width height color) .ok
      ((between 0 height).flatMap fun i =>
        (between xpos (xpos + width)).map fun j => stroke j (i + ypos) (lit color)) := by
  refine draws_upTo (fillRect.lines xpos ypos width color) (Draws.done _) ?_
  intro remaining i rest _ draws
  exact (draws_drawHLine xpos (i + ypos) width color).bind draws

/-- The colour of a pixel of a rectangle, which has four bytes of the data. -/
def colorAt (pData : List Byte) (index : Nat) : Option UInt := loadWord (pData.drop (4 * index))

def strokeRead (xpos ypos : UInt) (color : Option UInt) : Stroke Pixel Bool :=
  (color.bind fun _ => home xpos ypos, (color.map lit).getD false)

theorem draws_reading {α : Type} {next : UInt → Draw α} {color : Option UInt} {result : α}
    {xpos ypos : UInt} {rest : Strokes}
    (draws : ∀ c, color = some c → Draws (next c) result (stroke xpos ypos (lit c) :: rest)) :
    Draws (Draw.reading color next) result (strokeRead xpos ypos color :: rest) := by
  intro frame
  cases color with
  | none => rfl
  | some c => exact draws c rfl frame

private theorem draws_columns (xpos ypos : UInt) (pData : List Byte) (width i : UInt)
    (before : Nat) :
    Draws (fillRGBRect.columns xpos ypos i width.toNat 0 (pData.drop (4 * before), .ok))
      (pData.drop (4 * (before + width.toNat)), .ok)
      ((between 0 width).map fun j =>
        strokeRead (xpos + j) (ypos + i) (colorAt pData (before + j.toNat))) := by
  rw [List.map_eq_flatMap]
  refine draws_upTo (fun remaining j => fillRGBRect.columns xpos ypos i remaining j
    (pData.drop (4 * (before + j.toNat)), .ok)) (Draws.done _) ?_
  intro remaining j rest below draws
  refine draws_reading fun color _ => ?_
  refine (draws_setPixel _ _ color).bind ?_
  have := width.isLt
  have next : (j + 1).toNat = j.toNat + 1 := by bv_omega
  simp only [List.drop_drop, ne_eq, not_true_eq_false, if_false]
  rw [next, ← Nat.add_assoc, Nat.mul_add] at draws
  exact draws

private theorem draws_rows (xpos ypos : UInt) (pData : List Byte) (width height : UInt) :
    Draws (fillRGBRect.rows xpos ypos width height.toNat 0
        (pData.drop (4 * ((0 : UInt).toNat * width.toNat)), .ok))
      (pData.drop (4 * (height.toNat * width.toNat)), .ok)
      ((between 0 height).flatMap fun i => (between 0 width).map fun j =>
        strokeRead (xpos + j) (ypos + i) (colorAt pData (i.toNat * width.toNat + j.toNat))) := by
  refine draws_upTo (fun remaining i => fillRGBRect.rows xpos ypos width remaining i
    (pData.drop (4 * (i.toNat * width.toNat)), .ok)) (Draws.done _) ?_
  intro remaining i rest below draws
  have := height.isLt
  have next : (i + 1).toNat = i.toNat + 1 := by bv_omega
  refine (draws_columns xpos ypos pData width i (i.toNat * width.toNat)).bind ?_
  rw [next, Nat.succ_mul i.toNat] at draws
  exact draws

theorem draws_fillRGBRect (xpos ypos : UInt) (pData : List Byte) (width height : UInt) :
    Draws (fillRGBRect xpos ypos pData width height) .ok
      ((between 0 height).flatMap fun i => (between 0 width).map fun j =>
        strokeRead (xpos + j) (ypos + i) (colorAt pData (i.toNat * width.toNat + j.toNat))) := by
  have rows := draws_rows xpos ypos pData width height
  have start : (0 : UInt).toNat = 0 := rfl
  rw [start, Nat.zero_mul, Nat.mul_zero, List.drop_zero] at rows
  rw [← List.append_nil (List.flatMap ..)]
  exact rows.bind (Draws.done _)

end Baelux.Lcd

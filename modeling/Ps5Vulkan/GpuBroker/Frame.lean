import Mathlib.Data.Fintype.Prod
import Mathlib.Tactic.IntervalCases
import Ps5Vulkan.GpuBroker.Display
import Ps5Vulkan.Image.TiledMap
import Ps5Vulkan.Library.LittleEndian

/-!
# The broker's tiled frame

A present scales its picture to the screen, nearest neighbour, and writes it into the next buffer tile by tile in the
order of memory (`tooling/gpu-broker/display.cpp`). Which pixel a word of a tile holds is looked up in a table made from
the tiling; `read_last` finds the pixels by the tiling itself.

## Implementation notes

The picture is written by the loop over the tiles, with no panel, HUD or pointer over it. The copies of whole lines,
captures and cache flushes are left out. No product of the screen's sizes passes 32 bits.
-/

namespace Ps5Vulkan.GpuBroker

open LittleEndian (Bytes read writeEach)
open Image (TiledTerm swizzle)

/-- `blocks`, the tiles in a row. -/
def frameBlocks : Nat := 15

/-- The terms of the tiling. -/
def displayTerms : List TiledTerm :=
  [⟨.y, 4, 0x70⟩, ⟨.y, 5, 0xf00⟩, ⟨.y, 9, 0x1000⟩, ⟨.y, 8, 0x4000⟩, ⟨.x, 2, 0xc⟩, ⟨.x, 5, 0x380⟩, ⟨.x, 4, 0x400⟩,
    ⟨.x, 6, 0x800⟩, ⟨.x, 9, 0xa000⟩]

/-- `tiled`. -/
def tiled (x y : Nat) : Nat :=
  ((y >>> 7) * frameBlocks + (x >>> 7)) <<< 16 + swizzle displayTerms x y

/-- `TileOrder`: the pixel each word of a tile holds. -/
def tileOrder : Bytes :=
  writeEach (fun pixel : Fin 128 × Fin 128 => tiled pixel.2 pixel.1 >>> 2) 2
    (fun pixel => (pixel.1 : Nat) <<< 7 ||| pixel.2) (List.finRange 128 ×ˢ List.finRange 128) fun _ => 0

def orderPixel (k : Nat) : Nat :=
  read tileOrder (k * 2) 2

/-- A turn of the frame's loops: a tile's row, of `block_rows`, and column, and a word of it. -/
abbrev FrameWord := Fin 9 × Fin 15 × Fin 16384

namespace FrameWord

variable (word : FrameWord)

/-- The word's place in the buffer. -/
def index : Nat :=
  (word.1 * frameBlocks + word.2.1) * 16384 + word.2.2

def x : Nat :=
  word.2.1 * 128 + (orderPixel word.2.2 &&& 127)

def y : Nat :=
  word.1 * 128 + (orderPixel word.2.2 >>> 7)

end FrameWord

/-- The turns that write: the last row of tiles reaches below the screen. -/
def frameWords : List FrameWord :=
  (List.finRange 9 ×ˢ List.finRange 15 ×ˢ List.finRange 16384).filter fun word => word.y < displayHeight

namespace Display.Picture

variable (picture : Picture)

/-- `source_x` and `source_y`. -/
def sourceX (x : Nat) : Nat :=
  x * picture.width / displayWidth % 2 ^ 16

@[inherit_doc sourceX]
def sourceY (y : Nat) : Nat :=
  y * picture.height / displayHeight % 2 ^ 16

/-- Where the pixel of a screen position is read. -/
def source (x y : Nat) : Nat :=
  picture.sourceY y * picture.pitch + picture.sourceX x * 4

end Display.Picture

/-- The word stored for a pixel. -/
def stored (bgra : Bool) (rgba : Nat) : Nat :=
  if bgra then rgba else (rgba &&& 0xff00ff00) ||| (rgba &&& 0xff) <<< 16 ||| (rgba >>> 16) &&& 0xff

/-- The frame written into a tiled buffer. -/
def frame (picture : Display.Picture) (pixels : Bytes) (bgra : Bool) (target : Bytes) : Bytes :=
  writeEach FrameWord.index 4 (fun word => stored bgra (read pixels (picture.source word.x word.y) 4)) frameWords target

/-- The display with what its buffers hold. -/
structure Screen where
  display : Display
  buffers : Nat → Bytes

namespace Screen

/-- `Ps5GpuDisplay::present`. -/
def present (screen : Screen) (picture : Display.Picture) (pixels : Bytes) (bgra : Bool) (looks : Nat → Look)
    (accepted : Bool) : Screen × DisplayResult :=
  if !picture.valid then (screen, .invalid)
  else
    match screen.display.prepare looks with
    | (display, some result) => ({ screen with display }, result)
    | (display, none) =>
      let (flipped, result) := display.flip accepted
      (⟨flipped, Function.update screen.buffers display.back
        (frame picture pixels bgra (screen.buffers display.back))⟩, result)

/-- The display does what it does without its buffers. -/
theorem display_present (screen : Screen) (picture : Display.Picture) (pixels : Bytes) (bgra : Bool)
    (looks : Nat → Look) (accepted : Bool) : (screen.present picture pixels bgra looks accepted).1.display =
      (screen.display.present picture looks accepted).1 := by
  unfold present Display.present
  generalize screen.display.prepare looks = prepared
  obtain ⟨display, result⟩ := prepared
  cases picture.valid <;> cases result <;> rfl

/-- `Ps5GpuDisplay::read_last`: the pixel at each position. -/
def readLast (screen : Screen) : Option (Nat → Nat → Nat) :=
  if screen.display.flips = 0 then none
  else
    let buffer := screen.buffers ((screen.display.back + displayBuffers - 1) % displayBuffers)
    some fun x y => read buffer (tiled x y) 4

end Screen

/-! ### The tiling -/

theorem swizzle_displayTerms {x y : Nat} (hx : x < 2 ^ 11) (hy : y < 2 ^ 11) :
    swizzle displayTerms x y = swizzle Image.tiled4bTerms (x % 2 ^ 7) (y % 2 ^ 7) := by
  have hlinear : XorMap.XorLinear₂ fun x y => swizzle Image.tiled4bTerms (x % 2 ^ 7) (y % 2 ^ 7) := fun a b c d => by
    dsimp only
    rw [Nat.xor_mod_two_pow, Nat.xor_mod_two_pow, Image.xorLinear₂_swizzle]
  exact (Image.xorLinear₂_swizzle displayTerms).eq_of_agree₂ hlinear (by decide) hx hy

/-- A tile's words lie as those of the driver's images of four-byte texels. -/
theorem tiled_eq {x y : Nat} (hx : x < 2 ^ 11) (hy : y < 2 ^ 11) :
    tiled x y = (y / 128 * frameBlocks + x / 128) * 65536 + Image.tile4b.place 0 0 (x % 128) (y % 128) := by
  have hplace : Image.tile4b.place 0 0 (x % 2 ^ 7) (y % 2 ^ 7) = swizzle Image.tiled4bTerms (x % 2 ^ 7) (y % 2 ^ 7) := by
    simp [XorTile.place, Image.tile4b, Image.swizzleTile, Image.parity]
  rw [tiled, swizzle_displayTerms hx hy, ← hplace, Nat.shiftLeft_eq, Nat.shiftRight_eq_div_pow, Nat.shiftRight_eq_div_pow]
  rfl

theorem tiled_pixel (pixel : Fin 128 × Fin 128) : tiled pixel.2 pixel.1 = Image.tile4b.place 0 0 pixel.2 pixel.1 := by
  have hlt : ∀ n : Fin 128, (n : Nat) < 2 ^ 11 := fun n => n.isLt.trans (by decide)
  rw [tiled_eq (hlt _) (hlt _), Nat.div_eq_of_lt pixel.1.isLt, Nat.div_eq_of_lt pixel.2.isLt,
    Nat.mod_eq_of_lt pixel.1.isLt, Nat.mod_eq_of_lt pixel.2.isLt]
  simp

/-- The word of a tile that holds a pixel. -/
def wordOf (pixel : Fin 128 × Fin 128) : Fin 16384 :=
  ⟨tiled pixel.2 pixel.1 >>> 2, by
    have hlt := @XorTile.place_lt Image.tile4b _ _ 0 0 pixel.2.isLt pixel.1.isLt
    rw [tiled_pixel, Nat.shiftRight_eq_div_pow]
    exact Nat.div_lt_of_lt_mul hlt⟩

theorem wordOf_mul (pixel : Fin 128 × Fin 128) : (wordOf pixel : Nat) * 4 = Image.tile4b.place 0 0 pixel.2 pixel.1 := by
  have hmod : Image.tile4b.place 0 0 pixel.2 pixel.1 % 2 ^ 2 = 0 := XorTile.place_mod 0 0 pixel.2.isLt pixel.1.isLt
  show tiled pixel.2 pixel.1 >>> 2 * 4 = _
  rw [Nat.shiftRight_eq_div_pow, tiled_pixel]
  omega

theorem wordOf_injective : Function.Injective wordOf := by
  intro pixel pixel' h
  have hplace : Image.tile4b.place 0 0 pixel.2 pixel.1 = Image.tile4b.place 0 0 pixel'.2 pixel'.1 := by
    rw [← wordOf_mul, ← wordOf_mul, h]
  obtain ⟨hx, hy, -⟩ := @TileLayout.place_inj Image.tile4b.layout 0 0 _ _ 0 _ _ 0 pixel.2.isLt pixel.1.isLt Nat.one_pos
    pixel'.2.isLt pixel'.1.isLt Nat.one_pos hplace
  exact Prod.ext (Fin.ext hy) (Fin.ext hx)

/-- Every word of a tile holds one pixel. -/
theorem wordOf_surjective : Function.Surjective wordOf :=
  ((Fintype.bijective_iff_injective_and_card wordOf).mpr ⟨wordOf_injective, by simp⟩).2

theorem orderPixel_wordOf (pixel : Fin 128 × Fin 128) : orderPixel (wordOf pixel) = pixel.1 * 128 + pixel.2 := by
  have hmem : pixel ∈ List.finRange 128 ×ˢ List.finRange 128 :=
    List.mem_product.mpr ⟨List.mem_finRange _, List.mem_finRange _⟩
  refine (LittleEndian.read_writeEach (fun _ _ h => wordOf_injective (Fin.ext h))
    ((List.nodup_finRange 128).product (List.nodup_finRange 128)) hmem fun _ => 0).trans ?_
  rw [← Nat.shiftLeft_add_eq_or_of_lt pixel.2.isLt, Nat.shiftLeft_eq]
  exact Nat.mod_eq_of_lt (by omega)

/-! ### The frame -/

namespace FrameWord

variable (row : Fin 9) (column : Fin 15) (pixel : Fin 128 × Fin 128)

theorem x_wordOf : x (row, column, wordOf pixel) = column * 128 + pixel.2 := by
  rw [x, orderPixel_wordOf, Nat.and_two_pow_sub_one_eq_mod _ 7]
  dsimp only
  omega

theorem y_wordOf : y (row, column, wordOf pixel) = row * 128 + pixel.1 := by
  rw [y, orderPixel_wordOf, Nat.shiftRight_eq_div_pow]
  dsimp only
  omega

theorem index_injective : Function.Injective index := by
  rintro ⟨row, column, k⟩ ⟨row', column', k'⟩ h
  unfold index frameBlocks at h
  dsimp only at h
  refine Prod.ext (Fin.ext ?_) (Prod.ext (Fin.ext ?_) (Fin.ext ?_)) <;> dsimp only <;> omega

/-- The turn that writes a pixel of the screen. -/
def turnOf (x y : Nat) (hx : x < displayWidth) (hy : y < displayHeight) : FrameWord :=
  (⟨y / 128, Nat.div_lt_of_lt_mul (hy.trans (by decide))⟩, ⟨x / 128, Nat.div_lt_of_lt_mul hx⟩,
    wordOf (⟨y % 128, Nat.mod_lt _ (by decide)⟩, ⟨x % 128, Nat.mod_lt _ (by decide)⟩))

variable {x y : Nat} (hx : x < displayWidth) (hy : y < displayHeight)

theorem x_turnOf : (turnOf x y hx hy).x = x :=
  (x_wordOf ..).trans (Nat.div_add_mod' x 128)

theorem y_turnOf : (turnOf x y hx hy).y = y :=
  (y_wordOf ..).trans (Nat.div_add_mod' y 128)

theorem turnOf_mem : turnOf x y hx hy ∈ frameWords := by
  refine List.mem_filter.mpr ⟨?_, decide_eq_true ((y_turnOf hx hy).trans_lt hy)⟩
  simp [turnOf, List.mem_product]

theorem index_turnOf : (turnOf x y hx hy).index * 4 = tiled x y := by
  rw [tiled_eq (hx.trans (by decide)) (hy.trans (by decide)), index, Nat.add_mul]
  refine congrArg₂ _ ?_ (wordOf_mul _)
  rw [Nat.mul_assoc]
  rfl

/-- No other turn writes it. -/
theorem eq_of_position {word word' : FrameWord} (h : (word.x, word.y) = (word'.x, word'.y)) : word = word' := by
  obtain ⟨row, column, k⟩ := word
  obtain ⟨row', column', k'⟩ := word'
  obtain ⟨pixel, rfl⟩ := wordOf_surjective k
  obtain ⟨pixel', rfl⟩ := wordOf_surjective k'
  simp only [x_wordOf, y_wordOf, Prod.mk.injEq] at h
  obtain ⟨hx, hy⟩ := h
  have hpixel : pixel = pixel' := Prod.ext (Fin.ext (by omega)) (Fin.ext (by omega))
  rw [hpixel, show row = row' from Fin.ext (by omega), show column = column' from Fin.ext (by omega)]

end FrameWord

/-- A channel of a pixel. -/
def channelOf (pixel channel : Nat) : Nat :=
  pixel >>> (8 * channel) % 256

/-- Red and blue, which are the channels 0 and 2, are exchanged. -/
def exchanged : Nat → Nat
  | 0 => 2
  | 2 => 0
  | channel => channel

theorem channelOf_stored (bgra : Bool) (rgba : Nat) {channel : Nat} (h : channel < 4) :
    channelOf (stored bgra rgba) channel = channelOf rgba (if bgra then channel else exchanged channel) := by
  cases bgra with
  | true => rfl
  | false =>
    have hbit : ∀ value bit, (value % 256).testBit bit = (decide (bit < 8) && value.testBit bit) := fun value bit =>
      Nat.testBit_mod_two_pow value 8 bit
    have hgreen : ∀ bit < 32, Nat.testBit 0xff00ff00 bit = decide (bit / 8 % 2 = 1) := by decide
    have hlow : ∀ bit < 32, Nat.testBit 0xff bit = decide (bit < 8) := by decide
    refine Nat.eq_of_testBit_eq fun bit => ?_
    rw [channelOf, channelOf, hbit, hbit]
    by_cases hlt : bit < 8
    · interval_cases channel <;> interval_cases bit <;>
        simp [stored, exchanged, Nat.testBit_shiftRight, Nat.testBit_shiftLeft, hgreen, hlow]
    · simp [hlt]

/-! ### What is read back -/

/-- A position scaled to a count no larger than the screen's is one of the count's. -/
theorem scaled_lt {position count screen : Nat} (hposition : position < screen) (hpos : 0 < count) (hle : count ≤ screen)
    (hscreen : screen ≤ 2 ^ 16) : position * count / screen < count ∧
      position * count / screen % 2 ^ 16 = position * count / screen := by
  have hlt : position * count / screen < count := Nat.div_lt_of_lt_mul (Nat.mul_lt_mul_of_pos_right hposition hpos)
  exact ⟨hlt, Nat.mod_eq_of_lt (hlt.trans_le (hle.trans hscreen))⟩

/-- What a present has written is read back, each pixel of the screen was written once, and every pixel that was read is
one of the picture's. -/
structure Shown (picture : Display.Picture) (pixels : Bytes) (bgra : Bool) (screen : Screen) : Prop where
  readBack : ∃ image, screen.readLast = some image ∧ ∀ x < displayWidth, ∀ y < displayHeight, ∀ channel < 4,
    channelOf (image x y) channel =
      channelOf (read pixels (y * picture.height / displayHeight * picture.pitch + x * picture.width / displayWidth * 4) 4)
        (if bgra then channel else exchanged channel)
  once : ∀ x < displayWidth, ∀ y < displayHeight, (frameWords.map fun word => (word.x, word.y)).count (x, y) = 1
  within : ∀ word ∈ frameWords, picture.sourceY word.y < picture.height ∧
    picture.source word.x word.y + 4 ≤ picture.sourceY word.y * picture.pitch + picture.width * 4

namespace FrameWord

theorem x_lt (word : FrameWord) : word.x < displayWidth := by
  obtain ⟨row, column, k⟩ := word
  obtain ⟨pixel, rfl⟩ := wordOf_surjective k
  rw [x_wordOf]
  unfold displayWidth
  omega

theorem y_lt {word : FrameWord} (h : word ∈ frameWords) : word.y < displayHeight :=
  of_decide_eq_true (List.mem_filter.mp h).2

end FrameWord

theorem nodup_frameWords : frameWords.Nodup :=
  ((List.nodup_finRange 9).product ((List.nodup_finRange 15).product (List.nodup_finRange 16384))).filter _

theorem stored_lt (bgra : Bool) {rgba : Nat} (h : rgba < 2 ^ 32) : stored bgra rgba < 2 ^ 32 := by
  cases bgra with
  | true => exact h
  | false =>
    have hred : (rgba &&& 0xff) <<< 16 < 2 ^ 32 := by
      have : rgba &&& 0xff ≤ 0xff := Nat.and_le_right
      rw [Nat.shiftLeft_eq]
      omega
    refine Nat.or_lt_two_pow (Nat.or_lt_two_pow ?_ hred) ?_
    · exact Nat.and_le_right.trans_lt (by decide)
    · exact Nat.and_le_right.trans_lt (by decide)

/-- The frame holds at each position the pixel of the picture that is scaled to it. -/
theorem read_frame (picture : Display.Picture) (pixels : Bytes) (bgra : Bool) (target : Bytes) {x y : Nat}
    (hx : x < displayWidth) (hy : y < displayHeight) :
    read (frame picture pixels bgra target) (tiled x y) 4 = stored bgra (read pixels (picture.source x y) 4) := by
  rw [← FrameWord.index_turnOf hx hy, frame, LittleEndian.read_writeEach FrameWord.index_injective nodup_frameWords
    (FrameWord.turnOf_mem hx hy), FrameWord.x_turnOf, FrameWord.y_turnOf]
  exact Nat.mod_eq_of_lt (stored_lt bgra (LittleEndian.read_lt ..))

/-- Each pixel of the screen is written in one turn. -/
theorem count_position {x y : Nat} (hx : x < displayWidth) (hy : y < displayHeight) :
    (frameWords.map fun word => (word.x, word.y)).count (x, y) = 1 := by
  refine List.count_eq_one_of_mem (nodup_frameWords.map_on fun word _ word' _ => FrameWord.eq_of_position) ?_
  refine List.mem_map.mpr ⟨_, FrameWord.turnOf_mem hx hy, ?_⟩
  rw [FrameWord.x_turnOf, FrameWord.y_turnOf]

namespace Display.Picture

variable {picture : Picture} (hvalid : picture.valid = true) {x y : Nat}

include hvalid

theorem sourceX_spec (hx : x < displayWidth) :
    picture.sourceX x = x * picture.width / displayWidth ∧ picture.sourceX x < picture.width := by
  obtain ⟨hwidth, hwidth', -⟩ := of_decide_eq_true hvalid
  obtain ⟨hlt, heq⟩ := scaled_lt hx hwidth hwidth' (by decide)
  exact ⟨heq, heq.trans_lt hlt⟩

theorem sourceY_spec (hy : y < displayHeight) :
    picture.sourceY y = y * picture.height / displayHeight ∧ picture.sourceY y < picture.height := by
  obtain ⟨-, -, hheight, hheight', -⟩ := of_decide_eq_true hvalid
  obtain ⟨hlt, heq⟩ := scaled_lt hy hheight hheight' (by decide)
  exact ⟨heq, heq.trans_lt hlt⟩

end Display.Picture

/-- The buffer that is read back after a present is the one that was written. -/
theorem Screen.readLast_present (events : List DisplayEvent) (buffers : Nat → Bytes) {picture : Display.Picture}
    (pixels : Bytes) (bgra : Bool) {looks : Nat → Look} (accepted : Bool) (hvalid : picture.valid = true)
    (hfree : ((Display.run events).prepare looks).2 = none) :
    ∃ target, (present ⟨Display.run events, buffers⟩ picture pixels bgra looks accepted).1.readLast =
      some fun x y => read (frame picture pixels bgra target) (tiled x y) 4 := by
  have hwf := (Display.run_wf events).prepare looks
  obtain ⟨display, hprepare⟩ : ∃ display, (Display.run events).prepare looks = (display, none) := ⟨_, Prod.ext rfl hfree⟩
  rw [hprepare] at hwf
  have hlast : ((display.back + 1) % displayBuffers + displayBuffers - 1) % displayBuffers = display.back := by
    have hback : display.back < displayBuffers := hwf.back ▸ Nat.mod_lt _ (by decide)
    unfold displayBuffers at hback ⊢
    omega
  exact ⟨buffers display.back, by simp [present, hvalid, hprepare, readLast, Display.flip, hlast]⟩

theorem present_shown (events : List DisplayEvent) (buffers : Nat → Bytes) {picture : Display.Picture} (pixels : Bytes)
    (bgra : Bool) {looks : Nat → Look} (accepted : Bool) (hvalid : picture.valid = true)
    (hfree : ((Display.run events).prepare looks).2 = none) :
    Shown picture pixels bgra (Screen.present ⟨Display.run events, buffers⟩ picture pixels bgra looks accepted).1 := by
  refine ⟨?_, fun x hx y hy => count_position hx hy, fun word hword => ?_⟩
  · obtain ⟨target, hlast⟩ := Screen.readLast_present events buffers pixels bgra accepted hvalid hfree
    refine ⟨_, hlast, fun x hx y hy channel hchannel => ?_⟩
    rw [read_frame _ _ _ _ hx hy, channelOf_stored _ _ hchannel, Display.Picture.source,
      (Display.Picture.sourceX_spec hvalid hx).1, (Display.Picture.sourceY_spec hvalid hy).1]
  · have hx := (Display.Picture.sourceX_spec hvalid word.x_lt).2
    refine ⟨(Display.Picture.sourceY_spec hvalid (FrameWord.y_lt hword)).2, ?_⟩
    unfold Display.Picture.source
    omega

/-- Of a picture of two by two pixels in RGBA, the red last one fills the last quarter of the screen. -/
theorem red_shown : ∃ image, (Screen.present ⟨Display.run [], fun _ _ => 0⟩ ⟨2, 2, 8⟩
    (fun i => if i = 12 then 255 else 0) false Display.quiet true).1.readLast = some image ∧
      channelOf (image 960 540) 2 = 255 ∧ channelOf (image 959 540) 2 = 0 ∧ channelOf (image 960 539) 2 = 0 := by
  obtain ⟨image, himage, hshown⟩ := (@present_shown [] (fun _ _ => 0) ⟨2, 2, 8⟩
    (fun i => if i = 12 then 255 else 0) false Display.quiet true (by decide) rfl).readBack
  refine ⟨image, himage, ?_, ?_, ?_⟩
  · exact (hshown 960 (by decide) 540 (by decide) 2 (by decide)).trans (by decide)
  · exact (hshown 959 (by decide) 540 (by decide) 2 (by decide)).trans (by decide)
  · exact (hshown 960 (by decide) 539 (by decide) 2 (by decide)).trans (by decide)

end Ps5Vulkan.GpuBroker

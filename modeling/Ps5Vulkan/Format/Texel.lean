import Mathlib.Data.Fin.VecNotation
import Ps5Vulkan.Format.Arithmetic
import Ps5Vulkan.Library.LittleEndian

/-!
# The texels of the formats

`ps5vk_texel_to_rgba8`, the decode a blit does of one source texel, over any float arithmetic, beside
the layout of the formats: which bits of a texel a channel is stored in and what its bits stand for.
A normalised channel should become the byte nearest to 255 times its value; the 16-bit unsigned ones
are truncated instead, and one signed format's alpha is not read at all.
-/

namespace Ps5Vulkan.Format

open LittleEndian (Bytes read)
open BitFields (Field)

/-- The formats the texel conversions tell apart, and a depth one that has no decode. -/
inductive VkFormat
  | r8Unorm | r8g8Unorm | r8g8b8a8Unorm | b8g8r8a8Unorm | a8b8g8r8UnormPack32
  | r8Snorm | r8g8Snorm | r8g8b8a8Snorm | a8b8g8r8SnormPack32
  | r8g8b8a8Srgb | b8g8r8a8Srgb | a8b8g8r8SrgbPack32
  | r16Unorm | r16g16Unorm | r16g16b16a16Unorm
  | r16Sfloat | r16g16Sfloat | r16g16b16a16Sfloat
  | r32Sfloat | r32g32Sfloat | r32g32b32a32Sfloat
  | r5g6b5UnormPack16 | a1r5g5b5UnormPack16 | b4g4r4a4UnormPack16 | a2b10g10r10UnormPack32
  | e5b9g9r9UfloatPack32 | b10g11r11UfloatPack32
  | r8Uint | r8g8Uint | r8g8b8a8Uint | a8b8g8r8UintPack32
  | r8Sint | r8g8Sint | r8g8b8a8Sint | a8b8g8r8SintPack32
  | r16Uint | r16g16Uint | r16g16b16a16Uint
  | r16Sint | r16g16Sint | r16g16b16a16Sint
  | r32Uint | r32g32Uint | r32g32b32a32Uint
  | r32Sint | r32g32Sint | r32g32b32a32Sint
  | a2b10g10r10UintPack32
  | d32Sfloat
  deriving DecidableEq, Repr

/-- The four bytes of a colour, red first. -/
abbrev Rgba8 := Fin 4 → BitVec 8

/-- A texel has channels. -/
scoped instance channels_neZero : NeZero 4 :=
  ⟨by decide⟩

/-- What a channel the format does not have reads. -/
def fill (channel : Fin 4) : BitVec 8 := if channel = 3 then 255 else 0

/-! ## The decode -/

section Decode

variable (A : Arithmetic)

/-- `ps5vk_half_to_float`, as the bits of the float. The bias is changed modulo 2³². -/
def halfToFloat (half : BitVec 16) : BitVec 32 :=
  let sign := (half.toNat >>> 15) <<< 31
  let exponent := (half.toNat >>> 10) &&& 0x1f
  let mantissa := half.toNat &&& 0x3ff
  BitVec.ofNat 32 <|
    if exponent = 0 then sign
    else if exponent = 31 then sign ||| 0x7f800000
    else sign ||| (exponent + 127 - 15) <<< 23 ||| mantissa <<< 13

/-- The value `CLAMP` sees of a float: one that is not a number compares false, so that it is clamped to
the lower bound. -/
def clampedValue (bits : BitVec 32) : ℚ := if IsNaN32 bits then 0 else value32 bits

variable (texel : Bytes)

/-- `ps5vk_packed_word`. -/
def packedWord (bytes : Nat) : Nat := read texel 0 bytes

/-- `ps5vk_float_channel_to_float`. -/
def floatChannelToFloat (raw mantissaBits : Nat) : ℚ :=
  let exponent := raw >>> mantissaBits
  let mantissa := raw &&& (2 ^ mantissaBits - 1)
  if exponent = 0 then 0
  else A.round (A.round (1 + A.round (mantissa / 2 ^ mantissaBits)) * 2 ^ ((exponent : Int) - 15))

/-- `ps5vk_sfloat32` of a channel. -/
def sfloat32 (channel : Nat) : BitVec 32 := BitVec.ofNat 32 (read texel (channel * 4) 4)

/-- A 16-bit channel. -/
def word16 (channel : Nat) : Nat := read texel (channel * 2) 2

/-- `ps5vk_integer8`. -/
def integer8 (raw bits : Nat) (isSigned : Bool) : BitVec 8 :=
  if isSigned then
    let value := ((BitVec.ofNat 32 raw <<< (32 - bits)).sshiftRight (32 - bits)).toInt
    if value ≤ 0 then 0
    else A.unorm8 (A.round (A.round value / A.round ((2 ^ (bits - 1) - 1 : Nat) : ℚ)))
  else
    let max := if bits = 32 then 2 ^ 32 - 1 else 2 ^ bits - 1
    A.unorm8 (A.round (A.round raw / A.round (max : Nat)))

/-- `ps5vk_integer_to_rgba8`. -/
def integerToRgba8 (bits channels : Nat) (isSigned : Bool) : Rgba8 := fun channel =>
  if channel.val < channels then
    integer8 A (read texel (channel * (bits / 8)) (bits / 8)) bits isSigned
  else fill channel

/-- A channel of a packed normalised format. -/
def packedUnorm8 (word low width : Nat) : BitVec 8 :=
  A.unorm8 (A.round (((word >>> low &&& (2 ^ width - 1) : Nat) : ℚ) / ((2 ^ width - 1 : Nat) : ℚ)))

/-- A channel of a signed normalised format. -/
def snorm8 (stored : BitVec 8) : BitVec 8 := A.unorm8 (A.round (stored.toInt / 127))

/-- The linear value of a stored sRGB byte. -/
def srgbToLinear (stored : BitVec 8) : ℚ :=
  let value := A.round (stored.toNat / 255)
  if value ≤ 0.04045 then A.round (value / 12.92)
  else A.powf (A.round (A.round (value + 0.055) / 1.055)) 2.4

/-- A channel of the 16-bit float formats. -/
def sfloat16ToUnorm8 (channel : Fin 4) : BitVec 8 :=
  A.unorm8 (clampedValue (halfToFloat (BitVec.ofNat 16 (word16 texel channel))))

/-- A channel of the 32-bit float formats. -/
def sfloat32ToUnorm8 (channel : Fin 4) : BitVec 8 :=
  A.unorm8 (clampedValue (sfloat32 texel channel))

/-- A loop over the channels a format has, the others filled in. -/
def firstChannels (channels : Nat) (convert : Fin 4 → BitVec 8) : Rgba8 := fun channel =>
  if channel.val < channels then convert channel else fill channel

/-- The three sRGB formats, alpha being linear. -/
def srgbToRgba8 (blueFirst : Bool) : Rgba8 := fun channel =>
  if channel.val < 3 then
    A.unorm8 (srgbToLinear A (texel (if blueFirst then 2 - channel else channel)))
  else texel 3

/-- `ps5vk_texel_to_rgba8`: the colour of a texel, or nothing for a format with no decode. -/
def texelToRgba8 (format : VkFormat) (texel : Bytes) : Option Rgba8 :=
  match format with
  | .r8g8b8a8Unorm => some ![texel 0, texel 1, texel 2, texel 3]
  | .a8b8g8r8UnormPack32 => some ![texel 3, texel 2, texel 1, texel 0]
  | .r8g8b8a8Srgb | .a8b8g8r8SrgbPack32 => some (srgbToRgba8 A texel false)
  | .b8g8r8a8Srgb => some (srgbToRgba8 A texel true)
  | .r8g8b8a8Snorm => some ![snorm8 A (texel 0), snorm8 A (texel 1), snorm8 A (texel 2), 255]
  | .a8b8g8r8SnormPack32 =>
    some ![snorm8 A (texel 3), snorm8 A (texel 2), snorm8 A (texel 1), snorm8 A (texel 0)]
  | .r8Unorm => some ![texel 0, 0, 0, 255]
  | .r8g8Unorm => some ![texel 0, texel 1, 0, 255]
  | .r16Unorm => some (firstChannels 1 fun channel => BitVec.ofNat 8 (word16 texel channel / 257))
  | .r16g16Unorm => some (firstChannels 2 fun channel => BitVec.ofNat 8 (word16 texel channel / 257))
  | .r16g16b16a16Unorm => some (firstChannels 4 fun channel => BitVec.ofNat 8 (word16 texel channel / 257))
  | .r16Sfloat => some (firstChannels 1 (sfloat16ToUnorm8 A texel))
  | .r16g16Sfloat => some (firstChannels 2 (sfloat16ToUnorm8 A texel))
  | .r16g16b16a16Sfloat => some (firstChannels 4 (sfloat16ToUnorm8 A texel))
  | .r32Sfloat => some (firstChannels 1 (sfloat32ToUnorm8 A texel))
  | .r32g32Sfloat => some (firstChannels 2 (sfloat32ToUnorm8 A texel))
  | .r32g32b32a32Sfloat => some (firstChannels 4 (sfloat32ToUnorm8 A texel))
  | .r5g6b5UnormPack16 =>
    let word := packedWord texel 2
    some ![packedUnorm8 A word 11 5, packedUnorm8 A word 5 6, packedUnorm8 A word 0 5, 255]
  | .a1r5g5b5UnormPack16 =>
    let word := packedWord texel 2
    some ![packedUnorm8 A word 10 5, packedUnorm8 A word 5 5, packedUnorm8 A word 0 5,
      if word &&& 0x8000 ≠ 0 then 255 else 0]
  | .b4g4r4a4UnormPack16 =>
    let word := packedWord texel 2
    some ![packedUnorm8 A word 4 4, packedUnorm8 A word 8 4, packedUnorm8 A word 12 4,
      packedUnorm8 A word 0 4]
  | .a2b10g10r10UnormPack32 =>
    let word := packedWord texel 4
    some ![packedUnorm8 A word 0 10, packedUnorm8 A word 10 10, packedUnorm8 A word 20 10,
      packedUnorm8 A word 30 2]
  | .e5b9g9r9UfloatPack32 =>
    let word := packedWord texel 4
    let scale := A.round (2 ^ (((word >>> 27 &&& 0x1f : Nat) : Int) - 15) / 512)
    some ![A.unorm8 (A.round ((word &&& 0x1ff : Nat) * scale)),
      A.unorm8 (A.round ((word >>> 9 &&& 0x1ff : Nat) * scale)),
      A.unorm8 (A.round ((word >>> 18 &&& 0x1ff : Nat) * scale)), 255]
  | .b10g11r11UfloatPack32 =>
    let word := packedWord texel 4
    some ![A.unorm8 (floatChannelToFloat A (word &&& 0x7ff) 6),
      A.unorm8 (floatChannelToFloat A (word >>> 11 &&& 0x7ff) 6),
      A.unorm8 (floatChannelToFloat A (word >>> 22 &&& 0x3ff) 5), 255]
  | .r8Uint => some (integerToRgba8 A texel 8 1 false)
  | .r8Sint => some (integerToRgba8 A texel 8 1 true)
  | .r8g8Uint => some (integerToRgba8 A texel 8 2 false)
  | .r8g8Sint => some (integerToRgba8 A texel 8 2 true)
  | .r8g8b8a8Uint => some (integerToRgba8 A texel 8 4 false)
  | .r8g8b8a8Sint => some (integerToRgba8 A texel 8 4 true)
  | .a8b8g8r8UintPack32 => some (integerToRgba8 A texel 8 4 false)
  | .a8b8g8r8SintPack32 => some (integerToRgba8 A texel 8 4 true)
  | .r16Uint => some (integerToRgba8 A texel 16 1 false)
  | .r16Sint => some (integerToRgba8 A texel 16 1 true)
  | .r16g16Uint => some (integerToRgba8 A texel 16 2 false)
  | .r16g16Sint => some (integerToRgba8 A texel 16 2 true)
  | .r16g16b16a16Uint => some (integerToRgba8 A texel 16 4 false)
  | .r16g16b16a16Sint => some (integerToRgba8 A texel 16 4 true)
  | .r32Uint => some (integerToRgba8 A texel 32 1 false)
  | .r32Sint => some (integerToRgba8 A texel 32 1 true)
  | .r32g32Uint => some (integerToRgba8 A texel 32 2 false)
  | .r32g32Sint => some (integerToRgba8 A texel 32 2 true)
  | .r32g32b32a32Uint => some (integerToRgba8 A texel 32 4 false)
  | .r32g32b32a32Sint => some (integerToRgba8 A texel 32 4 true)
  | .a2b10g10r10UintPack32 =>
    let word := packedWord texel 4
    some ![integer8 A (word &&& 0x3ff) 10 false, integer8 A (word >>> 10 &&& 0x3ff) 10 false,
      integer8 A (word >>> 20 &&& 0x3ff) 10 false, integer8 A (word >>> 30) 2 false]
  | .r8Snorm => some ![snorm8 A (texel 0), 0, 0, 255]
  | .r8g8Snorm => some ![snorm8 A (texel 0), snorm8 A (texel 1), 0, 255]
  | .b8g8r8a8Unorm => some ![texel 2, texel 1, texel 0, texel 3]
  | .d32Sfloat => none

end Decode

/-! ## The layouts -/

/-- What the bits of a format's channels stand for. -/
inductive ChannelType
  | unorm | snorm | srgb | uint | sint | sfloat | ufloat
  deriving DecidableEq, Repr

def VkFormat.channelType : VkFormat → ChannelType
  | r8Unorm | r8g8Unorm | r8g8b8a8Unorm | b8g8r8a8Unorm | a8b8g8r8UnormPack32 | r16Unorm | r16g16Unorm
  | r16g16b16a16Unorm | r5g6b5UnormPack16 | a1r5g5b5UnormPack16 | b4g4r4a4UnormPack16
  | a2b10g10r10UnormPack32 => .unorm
  | r8Snorm | r8g8Snorm | r8g8b8a8Snorm | a8b8g8r8SnormPack32 => .snorm
  | r8g8b8a8Srgb | b8g8r8a8Srgb | a8b8g8r8SrgbPack32 => .srgb
  | r8Uint | r8g8Uint | r8g8b8a8Uint | a8b8g8r8UintPack32 | r16Uint | r16g16Uint | r16g16b16a16Uint
  | r32Uint | r32g32Uint | r32g32b32a32Uint | a2b10g10r10UintPack32 => .uint
  | r8Sint | r8g8Sint | r8g8b8a8Sint | a8b8g8r8SintPack32 | r16Sint | r16g16Sint | r16g16b16a16Sint
  | r32Sint | r32g32Sint | r32g32b32a32Sint => .sint
  | r16Sfloat | r16g16Sfloat | r16g16b16a16Sfloat | r32Sfloat | r32g32Sfloat | r32g32b32a32Sfloat
  | d32Sfloat => .sfloat
  | e5b9g9r9UfloatPack32 | b10g11r11UfloatPack32 => .ufloat

/-- Channels of one width after another, red first. -/
def inOrder (width channels : Nat) (channel : Fin 4) : Option Field :=
  if channel.val < channels then some ⟨channel * width, width⟩ else none

/-- Where a channel of a format is in its texel. The packed four-byte forms of the normalised formats
are in the driver's image memory with red last; those of the integer and sRGB ones with red first. -/
def VkFormat.stored : VkFormat → Fin 4 → Option Field
  | r8Unorm | r8Snorm | r8Uint | r8Sint => inOrder 8 1
  | r8g8Unorm | r8g8Snorm | r8g8Uint | r8g8Sint => inOrder 8 2
  | r8g8b8a8Unorm | r8g8b8a8Snorm | r8g8b8a8Srgb | r8g8b8a8Uint | r8g8b8a8Sint | a8b8g8r8SrgbPack32
  | a8b8g8r8UintPack32 | a8b8g8r8SintPack32 => inOrder 8 4
  | b8g8r8a8Unorm | b8g8r8a8Srgb => ![some ⟨16, 8⟩, some ⟨8, 8⟩, some ⟨0, 8⟩, some ⟨24, 8⟩]
  | a8b8g8r8UnormPack32 | a8b8g8r8SnormPack32 => ![some ⟨24, 8⟩, some ⟨16, 8⟩, some ⟨8, 8⟩, some ⟨0, 8⟩]
  | r16Unorm | r16Sfloat | r16Uint | r16Sint => inOrder 16 1
  | r16g16Unorm | r16g16Sfloat | r16g16Uint | r16g16Sint => inOrder 16 2
  | r16g16b16a16Unorm | r16g16b16a16Sfloat | r16g16b16a16Uint | r16g16b16a16Sint => inOrder 16 4
  | r32Sfloat | r32Uint | r32Sint | d32Sfloat => inOrder 32 1
  | r32g32Sfloat | r32g32Uint | r32g32Sint => inOrder 32 2
  | r32g32b32a32Sfloat | r32g32b32a32Uint | r32g32b32a32Sint => inOrder 32 4
  | r5g6b5UnormPack16 => ![some ⟨11, 5⟩, some ⟨5, 6⟩, some ⟨0, 5⟩, none]
  | a1r5g5b5UnormPack16 => ![some ⟨10, 5⟩, some ⟨5, 5⟩, some ⟨0, 5⟩, some ⟨15, 1⟩]
  | b4g4r4a4UnormPack16 => ![some ⟨4, 4⟩, some ⟨8, 4⟩, some ⟨12, 4⟩, some ⟨0, 4⟩]
  | a2b10g10r10UnormPack32 | a2b10g10r10UintPack32 =>
    ![some ⟨0, 10⟩, some ⟨10, 10⟩, some ⟨20, 10⟩, some ⟨30, 2⟩]
  | e5b9g9r9UfloatPack32 => ![some ⟨0, 9⟩, some ⟨9, 9⟩, some ⟨18, 9⟩, none]
  | b10g11r11UfloatPack32 => ![some ⟨0, 11⟩, some ⟨11, 11⟩, some ⟨22, 10⟩, none]

/-- The bits a texel has at a channel's place. -/
def storedBits (place : Field) (texel : Bytes) : Nat := place.get (read texel 0 16)

/-- The value of a normalised channel. -/
def normalizedValue (isSigned : Bool) (width bits : Nat) : ℚ :=
  if isSigned then max (-1) ((BitVec.ofNat width bits).toInt / ((2 ^ (width - 1) - 1 : Nat) : ℚ))
  else bits / ((2 ^ width - 1 : Nat) : ℚ)

/-- A format of normalised channels. -/
def VkFormat.IsNormalized (format : VkFormat) : Prop :=
  format.channelType = .unorm ∨ format.channelType = .snorm

instance (format : VkFormat) : Decidable format.IsNormalized := inferInstanceAs (Decidable (_ ∨ _))

/-- The byte a channel of a normalised format should decode to. -/
def channelByte (isSigned : Bool) (texel : Bytes) (channel : Fin 4) : Option Field → Nat
  | none => (fill channel).toNat
  | some place => nearestByte (normalizedValue isSigned place.width (storedBits place texel))

/-- A texel of the format decodes to the nearest bytes. -/
def TexelNearest (A : Arithmetic) (format : VkFormat) (texel : Bytes) : Prop :=
  ∃ rgba, texelToRgba8 A format texel = some rgba ∧ ∀ channel,
    (rgba channel).toNat = channelByte (format.channelType = .snorm) texel channel (format.stored channel)

/-- Every texel of the format does. -/
def DecodesNearest (A : Arithmetic) (format : VkFormat) : Prop :=
  ∀ texel, TexelNearest A format texel

/-- The texels for which a decode that truncates, or leaves the stored alpha out, is right. -/
def VkFormat.Keeps (format : VkFormat) (texel : Bytes) : Prop :=
  match format with
  | r16Unorm => ∀ channel < 1, word16 texel channel % 257 ≤ 128
  | r16g16Unorm => ∀ channel < 2, word16 texel channel % 257 ≤ 128
  | r16g16b16a16Unorm => ∀ channel < 4, word16 texel channel % 257 ≤ 128
  | r8g8b8a8Snorm => texel 3 = 127
  | _ => True

/-! ## Channels in a texel -/

section Channels

variable {texel : Bytes}

theorem storedBits_bytes {low width offset n : Nat} (hlow : low = 8 * offset) (hwidth : width = 8 * n)
    (h : offset + n ≤ 16) : storedBits ⟨low, width⟩ texel = read texel offset n := by
  rw [hlow, hwidth]
  exact LittleEndian.get_read h

theorem storedBits_byte {i : Nat} (hi : i < 16) : storedBits ⟨8 * i, 8⟩ texel = (texel i).toNat := by
  rw [@storedBits_bytes _ _ _ i 1 rfl rfl (by omega), LittleEndian.read_one]

/-- A channel within the bytes of a packed word. -/
theorem storedBits_packed {place : Field} {bytes : Nat} (hplace : place.low + place.width ≤ 8 * bytes)
    (hbytes : bytes ≤ 16) : storedBits place texel = place.get (packedWord texel bytes) :=
  LittleEndian.get_read_of_le hplace hbytes

theorem shift_and_eq_get (word low width : Nat) : word >>> low &&& (2 ^ width - 1) = Field.get ⟨low, width⟩ word := by
  rw [Nat.and_two_pow_sub_one_eq_mod]
  rfl

theorem get_le (place : Field) (word : Nat) : place.get word ≤ 2 ^ place.width - 1 :=
  Nat.le_sub_one_of_lt (Nat.mod_lt _ (Nat.two_pow_pos _))

theorem forall_channel {P : Fin 4 → Prop} (h0 : P 0) (h1 : P 1) (h2 : P 2) (h3 : P 3) : ∀ channel, P channel := by
  simp only [Fin.forall_fin_succ, Fin.forall_fin_zero, and_true]
  exact ⟨h0, h1, h2, h3⟩

end Channels

/-! ## The nearest bytes -/

section Nearest

variable (A : Arithmetic) (texel : Bytes)

theorem byte_nearest {i : Nat} (hi : i < 16) :
    (texel i).toNat = nearestByte (normalizedValue false 8 (storedBits ⟨8 * i, 8⟩ texel)) := by
  rw [storedBits_byte hi]
  exact (nearestByte_byte (texel i).isLt).symm

theorem packedUnorm8_nearest (bytes low : Nat) {width : Nat} (hwidth : 0 < width) (hle : width ≤ 10)
    (hplace : low + width ≤ 8 * bytes) (hbytes : bytes ≤ 16) :
    (packedUnorm8 A (packedWord texel bytes) low width).toNat =
      nearestByte (normalizedValue false width (storedBits ⟨low, width⟩ texel)) := by
  have hodd : (2 ^ width - 1) % 2 = 1 := by
    have heven : 2 ^ width % 2 = 0 := Nat.mod_eq_zero_of_dvd (dvd_pow_self 2 hwidth.ne')
    have hpos := Nat.two_pow_pos width
    omega
  have hmax : 2 ^ width - 1 ≤ 1023 := by
    have := Nat.pow_le_pow_right Nat.two_pos hle
    omega
  rw [packedUnorm8, shift_and_eq_get, A.unorm8_ratio hodd hmax (get_le ⟨low, width⟩ _), BitVec.toNat_ofNat,
    Nat.mod_eq_of_lt (nearestByte_lt _), storedBits_packed hplace hbytes]
  rfl

variable {A texel} in
/-- A negative value is below every byte, as is the one below -1. -/
theorem nearestByte_signed (byte : BitVec 8) :
    byte.toInt < 0 ∧ nearestByte (normalizedValue true 8 byte.toNat) = 0 ∨ ∃ j ≤ 127, byte.toInt = (j : Nat) ∧
        nearestByte (normalizedValue true 8 byte.toNat) = nearestByte ((j : ℚ) / (127 : Nat)) := by
  rw [normalizedValue, if_pos rfl, BitVec.ofNat_toNat, BitVec.setWidth_eq]
  have hupper := BitVec.toInt_lt (x := byte)
  rcases lt_or_ge byte.toInt 0 with hneg | hpos
  · have hneg' : (byte.toInt : ℚ) ≤ -1 := by exact_mod_cast Int.le_sub_one_of_lt hneg
    exact .inl ⟨hneg, nearestByte_of_nonpos (max_le (by norm_num) (by norm_num; linarith))⟩
  · obtain ⟨j, hj⟩ := Int.eq_ofNat_of_zero_le hpos
    have hvalue : (-1 : ℚ) ≤ j / 127 := (show (-1 : ℚ) ≤ 0 by norm_num).trans (by positivity)
    exact .inr ⟨j, by omega, hj, by norm_num [hj, max_eq_right hvalue]⟩

theorem snorm8_nearest {i : Nat} (hi : i < 16) :
    (snorm8 A (texel i)).toNat = nearestByte (normalizedValue true 8 (storedBits ⟨8 * i, 8⟩ texel)) := by
  rw [storedBits_byte hi, snorm8]
  rcases nearestByte_signed (texel i) with ⟨hneg, hbyte⟩ | ⟨j, hj, hvalue, hbyte⟩ <;> rw [hbyte]
  · have hlower : (-128 : ℚ) ≤ (texel i).toInt := by exact_mod_cast BitVec.le_toInt (x := texel i)
    have hneg' : ((texel i).toInt : ℚ) ≤ -1 := by exact_mod_cast Int.le_sub_one_of_lt hneg
    rw [A.unorm8_of_nonpos (A.round_nonpos (by norm_num; linarith) (by norm_num; linarith))]
    rfl
  · have hratio := A.unorm8_ratio (j := j) (n := 127) rfl (by decide) hj
    push_cast at hratio ⊢
    norm_num [hvalue, hratio, Nat.mod_eq_of_lt (nearestByte_lt _)]

variable {A texel} in
theorem and_alphaBit (word : Nat) : word &&& 0x8000 = 2 ^ 15 * Field.get ⟨15, 1⟩ word := by
  rw [show 0x8000 = 2 ^ 15 from rfl, Nat.and_two_pow, Nat.toNat_testBit, Nat.mul_comm, Field.get,
    Nat.shiftRight_eq_div_pow, pow_one]

theorem alphaBit_nearest : (if packedWord texel 2 &&& 0x8000 ≠ 0 then (255 : BitVec 8) else 0).toNat =
      nearestByte (normalizedValue false 1 (storedBits ⟨15, 1⟩ texel)) := by
  have hle := get_le ⟨15, 1⟩ (packedWord texel 2)
  rw [@storedBits_packed _ _ 2 (by decide) (by decide), and_alphaBit]
  generalize Field.get ⟨15, 1⟩ (packedWord texel 2) = bit at hle ⊢
  have hcases : bit = 0 ∨ bit = 1 := by
    simp only [pow_one] at hle
    omega
  rcases hcases with rfl | rfl
  · exact (nearestByte_ratio (j := 0) (n := 1) one_pos (by decide)).symm
  · exact (nearestByte_ratio (j := 1) (n := 1) one_pos le_rfl).symm

/-- A word in the upper half of the 257 of its byte is nearer to the next. -/
theorem word16_nearest_iff {channel : Nat} (h : channel < 4) : (BitVec.ofNat 8 (word16 texel channel / 257)).toNat =
        nearestByte (normalizedValue false 16 (storedBits ⟨channel * 16, 16⟩ texel)) ↔
      word16 texel channel % 257 ≤ 128 := by
  have hlt : word16 texel channel < 2 ^ 16 := LittleEndian.read_lt ..
  rw [@storedBits_bytes _ _ _ (channel * 2) 2 (by omega) rfl (by omega), ← word16]
  refine (Eq.congr_right (nearestByte_ratio (j := word16 texel channel) (n := 65535) (by decide) (by omega))).trans ?_
  rw [BitVec.toNat_ofNat]
  omega

variable {A texel} in
theorem texelNearest_word16_iff {format : VkFormat} {channels : Nat} (hchannels : channels ≤ 4)
    (hdecode : texelToRgba8 A format texel =
      some (firstChannels channels fun channel => BitVec.ofNat 8 (word16 texel channel / 257)))
    (hstored : format.stored = inOrder 16 channels) (hunsigned : format.channelType ≠ .snorm) :
    TexelNearest A format texel ↔ ∀ channel < channels, word16 texel channel % 257 ≤ 128 := by
  simp only [TexelNearest, hdecode, hstored, decide_eq_false hunsigned, Option.some.injEq, exists_eq_left',
    firstChannels, inOrder]
  constructor
  · intro h channel hlt
    have hbyte := h ⟨channel, by omega⟩
    rw [if_pos hlt, if_pos hlt] at hbyte
    exact (word16_nearest_iff texel (by omega)).mp hbyte
  · intro h channel
    split
    · exact (word16_nearest_iff texel channel.isLt).mpr (h channel ‹_›)
    · rfl

/-- Only a stored one is opaque. -/
theorem alpha_nearest_iff :
    (255 : BitVec 8).toNat = nearestByte (normalizedValue true 8 (storedBits ⟨8 * 3, 8⟩ texel)) ↔ texel 3 = 127 := by
  rw [storedBits_byte (by decide), ← BitVec.toInt_inj]
  change 255 = _ ↔ _ = 127
  rcases nearestByte_signed (texel 3) with ⟨hneg, hbyte⟩ | ⟨j, hj, hvalue, hbyte⟩
  · omega
  · rw [hbyte, hvalue, nearestByte_ratio (by decide) hj]
    omega

/-- Which texels of a normalised format decode to the nearest bytes. -/
theorem texelNearest_iff {format : VkFormat} (hnormalized : format.IsNormalized) :
    TexelNearest A format texel ↔ format.Keeps texel := by
  by_cases hmem : format ∈ [.r16Unorm, .r16g16Unorm, .r16g16b16a16Unorm, .r8g8b8a8Snorm]
  · simp only [List.mem_cons, List.not_mem_nil, or_false] at hmem
    rcases hmem with rfl | rfl | rfl | rfl
    · exact texelNearest_word16_iff (by decide) rfl rfl (by decide)
    · exact texelNearest_word16_iff (by decide) rfl rfl (by decide)
    · exact texelNearest_word16_iff (by decide) rfl rfl (by decide)
    · refine .trans ⟨?_, fun halpha => ?_⟩ (alpha_nearest_iff texel)
      · rintro ⟨_, ⟨⟩, h⟩
        exact h 3
      · exact ⟨_, rfl, forall_channel (snorm8_nearest A texel (by decide)) (snorm8_nearest A texel (by decide))
          (snorm8_nearest A texel (by decide)) halpha⟩
  · refine iff_of_true ?_ (by cases format <;> trivial)
    have hbyte : ∀ i : Fin 16, (texel i).toNat = _ := fun i => byte_nearest texel i.isLt
    have hsnorm : ∀ i : Fin 16, (snorm8 A (texel i)).toNat = _ := fun i => snorm8_nearest A texel i.isLt
    have hpacked : ∀ bytes low width (_ : 0 < width ∧ width ≤ 10 ∧ low + width ≤ 8 * bytes ∧ bytes ≤ 16),
        (packedUnorm8 A (packedWord texel bytes) low width).toNat = _ :=
      fun bytes low width h => packedUnorm8_nearest A texel bytes low h.1 h.2.1 h.2.2.1 h.2.2.2
    cases format
    case r8Unorm => exact ⟨_, rfl, forall_channel (hbyte 0) rfl rfl rfl⟩
    case r8g8Unorm => exact ⟨_, rfl, forall_channel (hbyte 0) (hbyte 1) rfl rfl⟩
    case r8g8b8a8Unorm => exact ⟨_, rfl, forall_channel (hbyte 0) (hbyte 1) (hbyte 2) (hbyte 3)⟩
    case b8g8r8a8Unorm => exact ⟨_, rfl, forall_channel (hbyte 2) (hbyte 1) (hbyte 0) (hbyte 3)⟩
    case a8b8g8r8UnormPack32 => exact ⟨_, rfl, forall_channel (hbyte 3) (hbyte 2) (hbyte 1) (hbyte 0)⟩
    case r8Snorm => exact ⟨_, rfl, forall_channel (hsnorm 0) rfl rfl rfl⟩
    case r8g8Snorm => exact ⟨_, rfl, forall_channel (hsnorm 0) (hsnorm 1) rfl rfl⟩
    case a8b8g8r8SnormPack32 => exact ⟨_, rfl, forall_channel (hsnorm 3) (hsnorm 2) (hsnorm 1) (hsnorm 0)⟩
    case r5g6b5UnormPack16 =>
      exact ⟨_, rfl, forall_channel (hpacked 2 11 5 (by decide)) (hpacked 2 5 6 (by decide))
        (hpacked 2 0 5 (by decide)) rfl⟩
    case a1r5g5b5UnormPack16 =>
      exact ⟨_, rfl, forall_channel (hpacked 2 10 5 (by decide)) (hpacked 2 5 5 (by decide))
        (hpacked 2 0 5 (by decide)) (alphaBit_nearest texel)⟩
    case b4g4r4a4UnormPack16 =>
      exact ⟨_, rfl, forall_channel (hpacked 2 4 4 (by decide)) (hpacked 2 8 4 (by decide))
        (hpacked 2 12 4 (by decide)) (hpacked 2 0 4 (by decide))⟩
    case a2b10g10r10UnormPack32 =>
      exact ⟨_, rfl, forall_channel (hpacked 4 0 10 (by decide)) (hpacked 4 10 10 (by decide))
        (hpacked 4 20 10 (by decide)) (hpacked 4 30 2 (by decide))⟩
    all_goals first | exact absurd hnormalized (by decide) | exact absurd (by decide) hmem

/-- The nearest bytes for the texels a normalised format keeps and no others: for every texel, but in
the four formats whose decode truncates or leaves the stored alpha out. -/
theorem texelToRgba8_nearest_iff {format : VkFormat} (hnormalized : format.IsNormalized) :
    (∀ texel, TexelNearest A format texel ↔ format.Keeps texel) ∧ (DecodesNearest A format ↔
      format ∉ [.r16Unorm, .r16g16Unorm, .r16g16b16a16Unorm, .r8g8b8a8Snorm]) := by
  have hiff := fun texel => texelNearest_iff A texel hnormalized
  refine ⟨hiff, fun h hmem => ?_, fun hmem texel => (hiff texel).mpr ?_⟩
  · have hword := (hiff _).mp (h (LittleEndian.write (fun _ => 0) 0 2 256))
    simp only [List.mem_cons, List.not_mem_nil, or_false] at hmem
    rcases hmem with rfl | rfl | rfl | rfl
    · exact absurd (hword 0 (by decide)) (by decide)
    · exact absurd (hword 0 (by decide)) (by decide)
    · exact absurd (hword 0 (by decide)) (by decide)
    · exact absurd (show (_ : BitVec 8) = 127 from hword) (by decide)
  · cases format <;> trivial

end Nearest

theorem texelToRgba8_nearest_packed :
    VkFormat.r5g6b5UnormPack16.IsNormalized ∧
      DecodesNearest (.binary32 fun _ _ => 0) .r5g6b5UnormPack16 :=
  ⟨by decide, (texelToRgba8_nearest_iff _ (by decide)).2.2 (by decide)⟩

theorem r16Unorm_truncated : ¬ DecodesNearest (.binary32 fun _ _ => 0) .r16Unorm := fun h =>
  absurd ((texelNearest_iff _ _ (by decide)).mp (h (LittleEndian.write (fun _ => 0) 0 2 256)) 0 (by decide))
    (by decide)

end Ps5Vulkan.Format

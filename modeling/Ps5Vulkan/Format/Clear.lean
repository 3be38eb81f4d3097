import Mathlib.Analysis.SpecialFunctions.Pow.Real
import Ps5Vulkan.Format.Texel

/-!
# Clear values written as texels

`ps5vk_format_encode_clear` against the decode. A clear value should be stored as the nearest value the
format has, where the decode looks for it, so that a share of 255 decodes to that byte. That holds for
the unsigned normalised formats and the 32-bit floats, save the packed unsigned one, whose values are cut
off at 127. The signed and the sRGB formats have fewer values than the bytes they should give back, and
the halves come from a conversion that loses carries.
-/

namespace Ps5Vulkan.Format

open LittleEndian (Bytes read)
open BitFields (Field)

/-! ## The encode of clear values -/

section EncodeClear

variable (A : Arithmetic)

/-- The channels a loop over the first of them visits. -/
def loopChannels (channels : Nat) : List (Fin 4) := (List.finRange 4).filter (·.val < channels)

/-- A texel of channels of some bytes, one after another. -/
def channelsTexel (bytes channels : Nat) (value : Fin 4 → Nat) : Bytes :=
  LittleEndian.writeEach Fin.val bytes value (loopChannels channels) fun _ => 0

/-- Four bytes. -/
def bytesTexel (first second third fourth : BitVec 8) : Bytes :=
  fun i => if i = 0 then first else if i = 1 then second else if i = 2 then third
    else if i = 3 then fourth else 0

/-- The sRGB byte of a linear one. -/
def linearToSrgb (linear : ℚ) : ℚ :=
  if linear ≤ 0.0031308 then A.round (linear * 12.92)
  else A.round (A.round (1.055 * A.powf linear (A.round (1 / 2.4))) - 0.055)

/-- `CLAMP` of a float to an interval up to one; one that is not a number becomes the lower bound. -/
def clampFloat (low : ℚ) (f : BitVec 32) : ℚ := if IsNaN32 f then low else max low (min (value32 f) 1)

/-- `lroundf`, which rounds halves away from zero. -/
def lround (x : ℚ) : Int := if 0 ≤ x then ⌊x + 1 / 2⌋ else ⌈x - 1 / 2⌉

/-- A value of the unit interval scaled to whole numbers. -/
def scaledFloor (value : ℚ) (max : Nat) : Nat := ⌊A.round (A.round (value * max) + 1 / 2)⌋.toNat

/-- A byte of the unsigned normalised formats. -/
def clearByte (f : BitVec 32) : BitVec 8 := BitVec.ofNat 8 (scaledFloor A (clampFloat 0 f) 255)

/-- A byte of the sRGB formats. -/
def clearSrgb (f : BitVec 32) : BitVec 8 :=
  BitVec.ofNat 8 (scaledFloor A (clamp01 (linearToSrgb A (clampFloat 0 f))) 255)

/-- A byte of the packed and the signed formats. -/
def clearSigned (isSigned : Bool) (f : BitVec 32) : BitVec 8 :=
  BitVec.ofInt 8 (max (if isSigned then -128 else 0) (min
    (lround (A.round (clampFloat (if isSigned then -1 else 0) f * (if isSigned then 127 else 255)))) 127))

/-- `ps5vk_format_encode_clear`: the bytes of the texel and the texel, or nothing for a format it does
not know. -/
def encodeClear (format : VkFormat) (f : Fin 4 → BitVec 32) : Option (Nat × Bytes) :=
  match format with
  | .d32Sfloat => some (4, channelsTexel 4 1 fun channel => (f channel).toNat)
  | .r8g8b8a8Unorm =>
    some (4, bytesTexel (clearByte A (f 0)) (clearByte A (f 1)) (clearByte A (f 2)) (clearByte A (f 3)))
  | .b8g8r8a8Unorm =>
    some (4, bytesTexel (clearByte A (f 2)) (clearByte A (f 1)) (clearByte A (f 0)) (clearByte A (f 3)))
  | .r8g8b8a8Srgb | .a8b8g8r8SrgbPack32 =>
    some (4, bytesTexel (clearSrgb A (f 0)) (clearSrgb A (f 1)) (clearSrgb A (f 2)) (clearByte A (f 3)))
  | .b8g8r8a8Srgb =>
    some (4, bytesTexel (clearSrgb A (f 2)) (clearSrgb A (f 1)) (clearSrgb A (f 0)) (clearByte A (f 3)))
  | .a8b8g8r8UnormPack32 =>
    some (4, bytesTexel (clearSigned A false (f 3)) (clearSigned A false (f 2)) (clearSigned A false (f 1))
      (clearSigned A false (f 0)))
  | .a8b8g8r8SnormPack32 =>
    some (4, bytesTexel (clearSigned A true (f 3)) (clearSigned A true (f 2)) (clearSigned A true (f 1))
      (clearSigned A true (f 0)))
  | .r8g8b8a8Snorm =>
    some (4, bytesTexel (clearSigned A true (f 0)) (clearSigned A true (f 1)) (clearSigned A true (f 2))
      (clearSigned A true (f 3)))
  | .r8Unorm => some (1, bytesTexel (clearByte A (f 0)) 0 0 0)
  | .r8g8Unorm => some (2, bytesTexel (clearByte A (f 0)) (clearByte A (f 1)) 0 0)
  | .r16Unorm => some (1 * 2, channelsTexel 2 1 fun channel => scaledFloor A (clampFloat 0 (f channel)) 65535)
  | .r16g16Unorm => some (2 * 2, channelsTexel 2 2 fun channel => scaledFloor A (clampFloat 0 (f channel)) 65535)
  | .r16g16b16a16Unorm =>
    some (4 * 2, channelsTexel 2 4 fun channel => scaledFloor A (clampFloat 0 (f channel)) 65535)
  | .r16Sfloat => some (1 * 2, channelsTexel 2 1 fun channel => (halfFromFloat (f channel)).toNat)
  | .r16g16Sfloat => some (2 * 2, channelsTexel 2 2 fun channel => (halfFromFloat (f channel)).toNat)
  | .r16g16b16a16Sfloat => some (4 * 2, channelsTexel 2 4 fun channel => (halfFromFloat (f channel)).toNat)
  | .r32Sfloat => some (1 * 4, channelsTexel 4 1 fun channel => (f channel).toNat)
  | .r32g32Sfloat => some (2 * 4, channelsTexel 4 2 fun channel => (f channel).toNat)
  | .r32g32b32a32Sfloat => some (4 * 4, channelsTexel 4 4 fun channel => (f channel).toNat)
  | _ => none

/-! ## What a clear should store -/

/-- What the bits of a channel stand for in the formats that are not floats. -/
def storedValue (type : ChannelType) (channel : Fin 4) (width bits : Nat) : ℚ :=
  if type = .snorm then normalizedValue true width bits
  else if type = .srgb ∧ channel ≠ 3 then srgbToLinear A (BitVec.ofNat 8 bits)
  else normalizedValue false width bits

/-- The bits are those of a value of the channel that no other is nearer to the clear value than. -/
def NearestStored (type : ChannelType) (channel : Fin 4) (width bits : Nat) (f : BitVec 32) : Prop :=
  if type = .sfloat then
    if width = 16 then IsNearestHalf f (BitVec.ofNat 16 bits) else BitVec.ofNat 32 bits = f
  else ∀ other < 2 ^ width,
    |storedValue A type channel width bits - clampFloat (if type = .snorm then -1 else 0) f| ≤
      |storedValue A type channel width other - clampFloat (if type = .snorm then -1 else 0) f|

/-- Clear values are stored as the nearest values of the format, and shares of 255 decode to the bytes
they are the shares of. -/
structure ClearsKept (format : VkFormat) : Prop where
  nearest : ∀ f : Fin 4 → BitVec 32, (∀ channel, magnitude32 (f channel) < 0x7f800000) →
    ∃ bytes texel, encodeClear A format f = some (bytes, texel) ∧ ∀ channel place,
      format.stored channel = some place →
        NearestStored A format.channelType channel place.width (storedBits place texel) (f channel)
  decoded : ∀ (rgba back : Rgba8) bytes texel,
    encodeClear A format (fun channel => A.bits ((rgba channel).toNat / 255)) = some (bytes, texel) →
      texelToRgba8 A format texel = some back → ∀ channel place, format.stored channel = some place →
        8 ≤ place.width → back channel = rgba channel

/-- The channels of a texel are read back. -/
theorem read_channelsTexel {bytes channels : Nat} {channel : Fin 4} (hchannel : channel.val < channels)
    (value : Fin 4 → Nat) :
    read (channelsTexel bytes channels value) (channel * bytes) bytes = value channel % 2 ^ (8 * bytes) :=
  LittleEndian.read_writeEach Fin.val_injective ((List.nodup_finRange 4).filter _)
    (List.mem_filter.mpr ⟨List.mem_finRange channel, decide_eq_true hchannel⟩) _

variable (v : BitVec 8)

/-- The float of a byte's share of 255. -/
theorem bits_error_byte : ¬ IsNaN32 (A.bits (A.round (v.toNat / 255))) ∧
      |value32 (A.bits (A.round (v.toNat / 255))) - v.toNat / 255| ≤ 1 / 2 ^ 22 := by
  have hv : (v.toNat : ℚ) / 255 ≤ 1 := by
    rw [div_le_one (by norm_num)]
    exact_mod_cast Nat.le_of_lt_succ v.isLt
  have hv0 : 0 ≤ (v.toNat : ℚ) / 255 := by positivity
  have hround := A.round_error (v.toNat / 255) (by rw [abs_of_nonneg hv0]; linarith)
  rw [abs_of_nonneg hv0, abs_le] at hround
  norm_num at hround
  have hsize : |A.round (v.toNat / 255)| ≤ 2 := by
    rw [abs_le]
    constructor <;> linarith
  have hbits := A.bits_error _ (hsize.trans (by norm_num))
  have hbits' : |value32 (A.bits (A.round (v.toNat / 255))) - A.round (v.toNat / 255)| ≤
      2 / 2 ^ 24 + 1 / 2 ^ 126 := hbits.trans (by gcongr)
  refine ⟨A.bits_finite _ (hsize.trans (by norm_num)), ?_⟩
  rw [abs_le] at hbits' ⊢
  norm_num at hbits' ⊢
  constructor <;> linarith

theorem unorm8_sfloat32 : A.unorm8 (clampedValue (A.bits (A.round (v.toNat / 255)))) = v := by
  obtain ⟨hnan, herror⟩ := bits_error_byte A v
  have hv := v.isLt
  rw [clampedValue, if_neg hnan, A.unorm8_eq_of_near (v := v.toNat) (by omega), BitVec.ofNat_toNat,
    BitVec.setWidth_eq]
  rw [abs_le] at herror ⊢
  norm_num at herror ⊢
  constructor <;> linarith

end EncodeClear

/-! ## Exact arithmetic -/

section Exact

variable (powf : ℚ → ℚ → ℚ)

theorem clampFloat_mem (f : BitVec 32) : 0 ≤ clampFloat 0 f ∧ clampFloat 0 f ≤ 1 := by
  unfold clampFloat
  split
  · exact ⟨le_rfl, zero_le_one⟩
  · exact ⟨clamp01_nonneg _, clamp01_le_one _⟩

theorem scaledFloor_exact {y : ℚ} (hy : 0 ≤ y) (max : Nat) :
    (scaledFloor (.exact powf) y max : Int) = round (y * max) := by
  have hnonneg : 0 ≤ round (y * max) := by
    rw [round_eq]
    positivity
  rw [scaledFloor, ← Int.toNat_of_nonneg hnonneg, round_eq]
  rfl

/-- The scaled value is the nearest, and at most the largest. -/
theorem scaledFloor_nearest {y : ℚ} (h0 : 0 ≤ y) (h1 : y ≤ 1) {max : Nat} (hmax : 0 < max) :
    scaledFloor (.exact powf) y max ≤ max ∧ ∀ other : Nat,
      |(scaledFloor (.exact powf) y max : ℚ) / max - y| ≤ |(other : ℚ) / max - y| := by
  have hpos : (0 : ℚ) < max := by exact_mod_cast hmax
  have hround := scaledFloor_exact powf h0 max
  have hcast : ((scaledFloor (.exact powf) y max : Nat) : ℚ) = round (y * max) := by exact_mod_cast hround
  constructor
  · have hle : round (y * max) ≤ (max : Int) := by
      rw [round_eq, ← Int.lt_add_one_iff, Int.floor_lt]
      push_cast
      nlinarith
    omega
  · intro other
    have hscale : ∀ n : ℚ, |n / max - y| = |y * max - n| / max := fun n => by
      rw [show n / max - y = -((y * max - n) / max) by field_simp; ring, abs_neg, abs_div, abs_of_pos hpos]
    rw [hscale, hscale, hcast]
    exact div_le_div_of_nonneg_right (by exact_mod_cast round_le (y * max) other) hpos.le

/-- The bits of a byte's share of 255, clamped and scaled, are that multiple of the byte. -/
theorem scaledFloor_byte (k : BitVec 8) {m : Nat} (hm : m ≤ 257) :
    scaledFloor (.exact powf) (clampFloat 0 (nearest32 (k.toNat / 255))) (255 * m) = k.toNat * m := by
  have hk : (k.toNat : ℚ) / 255 ≤ 1 := by
    rw [div_le_one (by norm_num)]
    exact_mod_cast Nat.le_of_lt_succ k.isLt
  have hk0 : 0 ≤ (k.toNat : ℚ) / 255 := by positivity
  obtain ⟨hnan, hnear⟩ := nearest32_spec (k.toNat / 255) (by rw [abs_of_nonneg hk0]; linarith)
  have hm' : (m : ℚ) ≤ 257 := by exact_mod_cast hm
  have hclamp : |clampFloat 0 (nearest32 (k.toNat / 255)) - k.toNat / 255| ≤ 1 / 2 ^ 23 := by
    rw [clampFloat, if_neg hnan]
    refine (abs_clamp01_sub_le hk0 hk).trans (hnear.trans ?_)
    rw [abs_of_nonneg hk0]
    norm_num
    linarith
  have hround : round (clampFloat 0 (nearest32 (k.toNat / 255)) * ((255 * m : Nat) : ℚ)) = (k.toNat * m : Nat) := by
    rw [round_eq_iff, Set.mem_Ico]
    rw [abs_le] at hclamp
    have hm0 : (0 : ℚ) ≤ m := Nat.cast_nonneg m
    push_cast
    norm_num at hclamp
    constructor <;> nlinarith
  have := scaledFloor_exact powf (clampFloat_mem (nearest32 (k.toNat / 255))).1 (255 * m)
  omega

end Exact

/-! ## The formats that keep clear values -/

section Kept

variable {powf : ℚ → ℚ → ℚ} {format : VkFormat} {channels : Nat}

theorem nearestStored_unorm (channel : Fin 4) {width : Nat} (hwidth : 0 < width) (f : BitVec 32) :
    NearestStored (.exact powf) .unorm channel width
      (scaledFloor (.exact powf) (clampFloat 0 f) (2 ^ width - 1)) f := by
  have hpos : 0 < 2 ^ width - 1 := Nat.sub_pos_of_lt (Nat.one_lt_two_pow hwidth.ne')
  obtain ⟨h0, h1⟩ := clampFloat_mem f
  unfold NearestStored
  rw [if_neg (by decide)]
  exact fun other _ => (scaledFloor_nearest powf h0 h1 hpos).2 other

theorem toNat_clearByte (f : BitVec 32) :
    (clearByte (.exact powf) f).toNat = scaledFloor (.exact powf) (clampFloat 0 f) 255 := by
  have hle := (scaledFloor_nearest powf (clampFloat_mem f).1 (clampFloat_mem f).2 (show 0 < 255 by decide)).1
  rw [clearByte, BitVec.toNat_ofNat, Nat.mod_eq_of_lt (by omega)]

/-- A format of unsigned bytes. -/
theorem clearsKept_bytes (index : Fin 4 → Nat) (htype : format.channelType = .unorm)
    (hstored : ∀ channel, format.stored channel = none ∨
      format.stored channel = some ⟨8 * index channel, 8⟩ ∧ index channel < 16)
    (hencode : ∀ f, ∃ bytes texel, encodeClear (.exact powf) format f = some (bytes, texel) ∧
      ∀ channel, format.stored channel ≠ none → texel (index channel) = clearByte (.exact powf) (f channel))
    (hdecode : ∀ texel, ∃ back, texelToRgba8 (.exact powf) format texel = some back ∧
      ∀ channel, format.stored channel ≠ none → back channel = texel (index channel)) :
    ClearsKept (.exact powf) format where
  nearest f _ := by
    obtain ⟨bytes, texel, hclear, hbyte⟩ := hencode f
    refine ⟨bytes, texel, hclear, fun channel place hplace => ?_⟩
    obtain ⟨hsome, hindex⟩ := (hstored channel).resolve_left (by simp [hplace])
    cases hplace.symm.trans hsome
    rw [storedBits_byte hindex, hbyte channel (by simp [hplace]), toNat_clearByte, htype]
    exact nearestStored_unorm channel (show 0 < 8 by decide) _
  decoded rgba back bytes texel hclear hback channel place hplace _ := by
    obtain ⟨bytes', texel', hclear', hbyte⟩ := hencode fun channel => nearest32 ((rgba channel).toNat / 255)
    cases hclear'.symm.trans hclear
    obtain ⟨back', hback', hread⟩ := hdecode texel
    cases hback'.symm.trans hback
    rw [hread channel (by simp [hplace]), hbyte channel (by simp [hplace])]
    apply BitVec.eq_of_toNat_eq
    rw [toNat_clearByte]
    exact (scaledFloor_byte powf (rgba channel) (m := 1) (by decide)).trans (Nat.mul_one _)

/-- The bits of a channel in a texel of equal channels. -/
theorem storedBits_channelsTexel {bytes : Nat} (hbytes : bytes ≤ 4) {channel : Fin 4} {place : Field}
    (hplace : inOrder (8 * bytes) channels channel = some place) (value : Fin 4 → Nat) :
    storedBits place (channelsTexel bytes channels value) = value channel % 2 ^ (8 * bytes) ∧
      place.width = 8 * bytes ∧ channel.val < channels := by
  unfold inOrder at hplace
  split at hplace
  · next hlt =>
      cases hplace
      have hle : channel.val * bytes + bytes ≤ 4 * 4 := by
        rw [← Nat.succ_mul]
        exact Nat.mul_le_mul channel.isLt hbytes
      exact ⟨(storedBits_bytes (by ring) rfl hle).trans (read_channelsTexel hlt value), rfl, hlt⟩
  · cases hplace

theorem clearsKept_unorm16 {bytes : Nat} (htype : format.channelType = .unorm)
    (hstored : format.stored = inOrder 16 channels)
    (hencode : ∀ f, encodeClear (.exact powf) format f = some (bytes, channelsTexel 2 channels fun channel =>
      scaledFloor (.exact powf) (clampFloat 0 (f channel)) 65535))
    (hdecode : ∀ texel, texelToRgba8 (.exact powf) format texel =
      some (firstChannels channels fun channel => BitVec.ofNat 8 (word16 texel channel / 257))) :
    ClearsKept (.exact powf) format where
  nearest f _ := by
    refine ⟨_, _, hencode f, fun channel place hplace => ?_⟩
    rw [hstored] at hplace
    obtain ⟨hbits, hwidth, -⟩ := storedBits_channelsTexel (show 2 ≤ 4 by decide) hplace fun channel =>
      scaledFloor (.exact powf) (clampFloat 0 (f channel)) 65535
    have hle := (scaledFloor_nearest powf (clampFloat_mem (f channel)).1 (clampFloat_mem (f channel)).2
      (show 0 < 65535 by decide)).1
    rw [hbits, hwidth, htype, Nat.mod_eq_of_lt (by omega)]
    exact nearestStored_unorm channel (show 0 < 16 by decide) _
  decoded rgba back _ texel hclear hback channel place hplace _ := by
    cases (hencode _).symm.trans hclear
    cases (hdecode _).symm.trans hback
    rw [hstored] at hplace
    obtain ⟨-, -, hlt⟩ := storedBits_channelsTexel (show 2 ≤ 4 by decide) hplace fun _ => 0
    have hword := scaledFloor_byte powf (rgba channel) (show 257 ≤ 257 from le_rfl)
    have hbyte := (rgba channel).isLt
    rw [firstChannels, if_pos hlt, word16, read_channelsTexel hlt]
    apply BitVec.eq_of_toNat_eq
    rw [BitVec.toNat_ofNat]
    change scaledFloor (.exact powf) (clampFloat 0 (nearest32 ((rgba channel).toNat / 255))) (255 * 257) %
      2 ^ 16 / 257 % 2 ^ 8 = _
    rw [hword, Nat.mod_eq_of_lt (show (rgba channel).toNat * 257 < 2 ^ 16 by omega),
      Nat.mul_div_cancel _ (by decide), Nat.mod_eq_of_lt hbyte]

/-- Floats are stored as they are. -/
theorem clearsKept_sfloat32 {bytes : Nat} (htype : format.channelType = .sfloat)
    (hstored : format.stored = inOrder 32 channels) (hencode : ∀ f, encodeClear (.exact powf) format f =
      some (bytes, channelsTexel 4 channels fun channel => (f channel).toNat))
    (hdecode : ∀ texel back, texelToRgba8 (.exact powf) format texel = some back →
      back = firstChannels channels (sfloat32ToUnorm8 (.exact powf) texel)) : ClearsKept (.exact powf) format where
  nearest f _ := by
    refine ⟨_, _, hencode f, fun channel place hplace => ?_⟩
    rw [hstored] at hplace
    obtain ⟨hbits, hwidth, -⟩ := storedBits_channelsTexel le_rfl hplace fun channel => (f channel).toNat
    unfold NearestStored
    rw [if_pos htype, hwidth, if_neg (by decide), hbits, Nat.mod_eq_of_lt (f channel).isLt, BitVec.ofNat_toNat,
      BitVec.setWidth_eq]
  decoded rgba back _ texel hclear hback channel place hplace _ := by
    cases (hencode _).symm.trans hclear
    cases hdecode _ _ hback
    rw [hstored] at hplace
    obtain ⟨-, -, hlt⟩ := storedBits_channelsTexel (show 4 ≤ 4 from le_rfl) hplace fun _ => 0
    rw [firstChannels, if_pos hlt, sfloat32ToUnorm8, sfloat32, read_channelsTexel hlt,
      Nat.mod_eq_of_lt (BitVec.isLt _), BitVec.ofNat_toNat, BitVec.setWidth_eq]
    exact unorm8_sfloat32 (.exact powf) (rgba channel)

end Kept

/-! ## The formats that do not -/

section Lost

/-- The packed unsigned bytes end at 127. -/
theorem clearSigned_le (A : Arithmetic) (f : BitVec 32) : (clearSigned A false f).toNat ≤ 127 := by
  unfold clearSigned
  simp only [Bool.false_eq_true, if_false]
  generalize lround _ = value
  have hrange : 0 ≤ max 0 (min value 127) ∧ max 0 (min value 127) ≤ 127 := by omega
  obtain ⟨n, hn⟩ := Int.eq_ofNat_of_zero_le hrange.1
  rw [hn, BitVec.ofInt_natCast, BitVec.toNat_ofNat]
  omega

/-- One of 255 is stored as zero. -/
theorem clearSigned_one (powf : ℚ → ℚ → ℚ) : clearSigned (.exact powf) true (nearest32 (1 / 255)) = 0 := by
  obtain ⟨hnan, hnear⟩ := nearest32_spec (1 / 255) (by norm_num)
  rw [abs_of_nonneg (show (0 : ℚ) ≤ 1 / 255 by norm_num), abs_le] at hnear
  norm_num at hnear
  have hvalue : clampFloat (-1) (nearest32 (1 / 255)) = value32 (nearest32 (1 / 255)) := by
    rw [clampFloat, if_neg hnan, min_eq_left (by linarith), max_eq_right (by linarith)]
  have hround : lround (value32 (nearest32 (1 / 255)) * 127) = 0 := by
    rw [lround, if_pos (by linarith), Int.floor_eq_zero_iff, Set.mem_Ico]
    constructor <;> linarith
  unfold clearSigned
  simp only [if_true, hvalue, Arithmetic.exact, id, hround]
  rfl

/-- `powf` of the unit interval, much worse than a float's result of it is. -/
def AccuratePow (powf : ℚ → ℚ → ℚ) : Prop :=
  ∀ x y : ℚ, 0 < x → x ≤ 1 → 0 ≤ y → |((powf x y : ℚ) : ℝ) - (x : ℝ) ^ (y : ℝ)| ≤ 1 / 2 ^ 13

theorem le_rpow {x : ℝ} (hx : 99607 / 100000 ≤ x) : 9983 / 10000 ≤ x ^ ((5 : ℝ) / 12) := by
  have hx0 : 0 ≤ x := by linarith
  by_contra hlt
  have hpow := pow_lt_pow_left₀ (not_le.mp hlt) (Real.rpow_nonneg hx0 _) (show 12 ≠ 0 by decide)
  have hfive : (x ^ ((5 : ℝ) / 12)) ^ 12 = x ^ 5 := by
    rw [← Real.rpow_natCast, ← Real.rpow_mul hx0, ← Real.rpow_natCast]
    norm_num
  have hlow := pow_le_pow_left₀ (by norm_num) hx 5
  rw [hfive] at hpow
  norm_num at hpow hlow
  linarith

/-- The brightest but one of the linear values is stored as the brightest. -/
theorem clearSrgb_bright {powf : ℚ → ℚ → ℚ} (hpow : AccuratePow powf) :
    clearSrgb (.exact powf) (nearest32 (254 / 255)) = 255 := by
  obtain ⟨hnan, hnear⟩ := nearest32_spec (254 / 255) (by norm_num)
  rw [abs_of_nonneg (show (0 : ℚ) ≤ 254 / 255 by norm_num), abs_le] at hnear
  norm_num at hnear
  have hvalue : clampFloat 0 (nearest32 (254 / 255)) = value32 (nearest32 (254 / 255)) := by
    rw [clampFloat, if_neg hnan, min_eq_left (by linarith), max_eq_right (by linarith)]
  generalize value32 (nearest32 (254 / 255)) = x at hvalue hnear
  have hlow : (99607 / 100000 : ℚ) ≤ x := by linarith
  have hroot := le_rpow (x := x) (by simpa using (Rat.cast_le (K := ℝ)).mpr hlow)
  have hclose := (abs_le.mp (hpow x (1 / 2.4) (by linarith) (by linarith) (by norm_num))).1
  rw [show ((1 / 2.4 : ℚ) : ℝ) = 5 / 12 by norm_num] at hclose
  have hroot' : (998177 / 1000000 : ℚ) ≤ powf x (1 / 2.4) := by
    refine (Rat.cast_le (K := ℝ)).mp ?_
    norm_num at hclose ⊢
    linarith
  have hencoded : linearToSrgb (.exact powf) x = 1.055 * powf x (1 / 2.4) - 0.055 := if_neg (by linarith)
  have hbright : (254.5 : ℚ) / 255 ≤ clamp01 (linearToSrgb (.exact powf) x) := by
    rw [hencoded, clamp01]
    refine le_max_of_le_right (le_min ?_ (by norm_num))
    norm_num
    linarith
  have hround := scaledFloor_exact powf (clamp01_nonneg (linearToSrgb (.exact powf) x)) 255
  have hfull : round (clamp01 (linearToSrgb (.exact powf) x) * (255 : Nat)) = 255 := by
    have hone := clamp01_le_one (linearToSrgb (.exact powf) x)
    rw [round_eq_iff, Set.mem_Ico]
    norm_num at hbright ⊢
    constructor <;> linarith
  rw [clearSrgb, hvalue, show scaledFloor (.exact powf) (clamp01 (linearToSrgb (.exact powf) x)) 255 = 255 by omega]
  rfl

variable {powf : ℚ → ℚ → ℚ} {format : VkFormat} {channels bytes : Nat}

theorem not_clearsKept_srgb (hpow : AccuratePow powf)
    (hred : ∀ f, ∃ bytes texel back, encodeClear (.exact powf) format f = some (bytes, texel) ∧
      texelToRgba8 (.exact powf) format texel = some back ∧
        back 0 = (Arithmetic.exact powf).unorm8 (srgbToLinear (.exact powf) (clearSrgb (.exact powf) (f 0))))
    (hstored : ∃ place, format.stored 0 = some place ∧ 8 ≤ place.width) : ¬ ClearsKept (.exact powf) format := by
  intro h
  obtain ⟨bytes, texel, back, hclear, hback, hbyte⟩ := hred fun _ => nearest32 ((254 : BitVec 8).toNat / 255)
  obtain ⟨place, hplace, hwidth⟩ := hstored
  have hkept := h.decoded (fun _ => 254) back bytes texel hclear hback 0 place hplace hwidth
  have hbright := clearSrgb_bright hpow
  have hlinear : srgbToLinear (.exact powf) 255 = powf 1 2.4 := by
    have hwhole : ((255 : BitVec 8).toNat : ℚ) = 255 := rfl
    norm_num [srgbToLinear, Arithmetic.exact, hwhole]
  have hclose := hpow 1 2.4 one_pos le_rfl (by norm_num)
  have hclose' : |powf 1 2.4 - 1| ≤ 1 / 2 ^ 13 := by
    refine (Rat.cast_le (K := ℝ)).mp ?_
    simpa using hclose
  have hone : (Arithmetic.exact powf).unorm8 (powf 1 2.4) = BitVec.ofNat 8 255 := by
    refine (Arithmetic.exact powf).unorm8_eq_of_near le_rfl ?_
    rw [abs_le] at hclose' ⊢
    norm_num at hclose' ⊢
    constructor <;> linarith
  rw [hbyte, show ((254 : BitVec 8).toNat : ℚ) = 254 from rfl, hbright, hlinear, hone] at hkept
  exact absurd hkept (by decide)

theorem not_clearsKept_sfloat16 (htype : format.channelType = .sfloat) (hstored : format.stored = inOrder 16 channels)
    (hchannels : 0 < channels) (hencode : ∀ f, encodeClear (.exact powf) format f =
      some (bytes, channelsTexel 2 channels fun channel => (halfFromFloat (f channel)).toNat)) :
    ¬ ClearsKept (.exact powf) format := by
  intro h
  obtain ⟨_, texel, hclear, hnearest⟩ := h.nearest (fun _ => 0x3effffff) fun _ => by decide
  cases (hencode _).symm.trans hclear
  have hplace : inOrder 16 channels 0 = some ⟨0, 16⟩ := if_pos hchannels
  have hhalf := hnearest 0 _ (hstored ▸ hplace)
  obtain ⟨hbits, -, -⟩ := storedBits_channelsTexel (show 2 ≤ 4 by decide) hplace fun _ =>
    (halfFromFloat 0x3effffff).toNat
  rw [NearestStored, if_pos htype, if_pos rfl, hbits, Nat.mod_eq_of_lt (BitVec.isLt _), BitVec.ofNat_toNat,
    BitVec.setWidth_eq] at hhalf
  exact not_isNearestHalf_carry hhalf

theorem not_clearsKept_snorm (hred : ∀ f, ∃ bytes texel back, encodeClear (.exact powf) format f = some (bytes, texel) ∧
      texelToRgba8 (.exact powf) format texel = some back ∧
        back 0 = snorm8 (.exact powf) (clearSigned (.exact powf) true (f 0)))
    (hstored : ∃ place, format.stored 0 = some place ∧ 8 ≤ place.width) : ¬ ClearsKept (.exact powf) format := by
  intro h
  obtain ⟨bytes, texel, back, hclear, hback, hbyte⟩ := hred fun _ => nearest32 ((1 : BitVec 8).toNat / 255)
  obtain ⟨place, hplace, hwidth⟩ := hstored
  have hkept := h.decoded (fun _ => 1) back bytes texel hclear hback 0 place hplace hwidth
  have hzero : snorm8 (.exact powf) 0 = 0 := (Arithmetic.exact powf).unorm8_of_nonpos (by simp [Arithmetic.exact])
  rw [hbyte, show ((1 : BitVec 8).toNat : ℚ) = 1 from rfl, clearSigned_one, hzero] at hkept
  exact absurd hkept (by decide)

variable (powf) in
theorem not_clearsKept_packed : ¬ ClearsKept (.exact powf) .a8b8g8r8UnormPack32 := by
  intro h
  have hred : clearSigned (.exact powf) false (nearest32 ((255 : BitVec 8).toNat / 255)) = 255 :=
    h.decoded (fun _ => 255) _ _ _ rfl rfl 0 _ rfl (by decide)
  have hle := clearSigned_le (.exact powf) (nearest32 ((255 : BitVec 8).toNat / 255))
  rw [hred] at hle
  exact absurd hle (by decide)

end Lost

/-- Clear values are kept by the unsigned normalised formats with bytes and 16-bit channels in memory
order and by the 32-bit floats, and by no other format that can be cleared. Which values an sRGB format
keeps depends on what `powf` answers, so the condition is on the format. -/
theorem encodeClear_kept_iff {powf : ℚ → ℚ → ℚ} (hpow : AccuratePow powf) {format : VkFormat}
    (hcleared : (encodeClear (.exact powf) format fun _ => 0).isSome = true) :
    ClearsKept (.exact powf) format ↔
      format ∈ [.d32Sfloat, .r8Unorm, .r8g8Unorm, .r8g8b8a8Unorm, .b8g8r8a8Unorm, .r16Unorm, .r16g16Unorm,
        .r16g16b16a16Unorm, .r32Sfloat, .r32g32Sfloat, .r32g32b32a32Sfloat] := by
  constructor
  · intro h
    cases format
    case a8b8g8r8UnormPack32 => exact absurd h (not_clearsKept_packed powf)
    case r8g8b8a8Srgb | a8b8g8r8SrgbPack32 | b8g8r8a8Srgb =>
      exact absurd h (not_clearsKept_srgb hpow (fun _ => ⟨_, _, _, rfl, rfl, rfl⟩) ⟨_, rfl, by decide⟩)
    case r8g8b8a8Snorm | a8b8g8r8SnormPack32 =>
      exact absurd h (not_clearsKept_snorm (fun _ => ⟨_, _, _, rfl, rfl, rfl⟩) ⟨_, rfl, by decide⟩)
    case r16Sfloat | r16g16Sfloat | r16g16b16a16Sfloat =>
      exact absurd h (not_clearsKept_sfloat16 rfl rfl (by decide) fun _ => rfl)
    all_goals first | decide | exact absurd hcleared Bool.false_ne_true
  · intro hmem
    simp only [List.mem_cons, List.not_mem_nil, or_false] at hmem
    rcases hmem with rfl | rfl | rfl | rfl | rfl | rfl | rfl | rfl | rfl | rfl | rfl
    · exact clearsKept_sfloat32 rfl rfl (fun _ => rfl) nofun
    · exact clearsKept_bytes Fin.val rfl (by decide)
        (fun _ => ⟨_, _, rfl, forall_channel (fun _ => rfl) (absurd rfl) (absurd rfl) (absurd rfl)⟩)
        fun _ => ⟨_, rfl, forall_channel (fun _ => rfl) (absurd rfl) (absurd rfl) (absurd rfl)⟩
    · exact clearsKept_bytes Fin.val rfl (by decide)
        (fun _ => ⟨_, _, rfl, forall_channel (fun _ => rfl) (fun _ => rfl) (absurd rfl) (absurd rfl)⟩)
        fun _ => ⟨_, rfl, forall_channel (fun _ => rfl) (fun _ => rfl) (absurd rfl) (absurd rfl)⟩
    · exact clearsKept_bytes Fin.val rfl (by decide)
        (fun _ => ⟨_, _, rfl, forall_channel (fun _ => rfl) (fun _ => rfl) (fun _ => rfl) fun _ => rfl⟩)
        fun _ => ⟨_, rfl, forall_channel (fun _ => rfl) (fun _ => rfl) (fun _ => rfl) fun _ => rfl⟩
    · exact clearsKept_bytes ![2, 1, 0, 3] rfl (by decide)
        (fun _ => ⟨_, _, rfl, forall_channel (fun _ => rfl) (fun _ => rfl) (fun _ => rfl) fun _ => rfl⟩)
        fun _ => ⟨_, rfl, forall_channel (fun _ => rfl) (fun _ => rfl) (fun _ => rfl) fun _ => rfl⟩
    · exact clearsKept_unorm16 rfl rfl (fun _ => rfl) fun _ => rfl
    · exact clearsKept_unorm16 rfl rfl (fun _ => rfl) fun _ => rfl
    · exact clearsKept_unorm16 rfl rfl (fun _ => rfl) fun _ => rfl
    · exact clearsKept_sfloat32 rfl rfl (fun _ => rfl) fun _ _ h => (Option.some.inj h).symm
    · exact clearsKept_sfloat32 rfl rfl (fun _ => rfl) fun _ _ h => (Option.some.inj h).symm
    · exact clearsKept_sfloat32 rfl rfl (fun _ => rfl) fun _ _ h => (Option.some.inj h).symm

/-- A power as good as a rational can be. -/
noncomputable def nearPow (x y : ℚ) : ℚ :=
  (exists_rat_btwn (show (x : ℝ) ^ (y : ℝ) < (x : ℝ) ^ (y : ℝ) + 1 / 2 ^ 13 by norm_num)).choose

theorem accuratePow_nearPow : AccuratePow nearPow := fun x y _ _ _ => by
  have hspec :=
    (exists_rat_btwn (show (x : ℝ) ^ (y : ℝ) < (x : ℝ) ^ (y : ℝ) + 1 / 2 ^ 13 by norm_num)).choose_spec
  unfold nearPow
  rw [abs_le]
  constructor <;> norm_num at hspec ⊢ <;> linarith

theorem encodeClear_kept_word :
    (encodeClear (.exact nearPow) .r16Unorm fun _ => 0).isSome = true ∧ ClearsKept (.exact nearPow) .r16Unorm :=
  ⟨rfl, (encodeClear_kept_iff accuratePow_nearPow rfl).2 (by decide)⟩

theorem a8b8g8r8Unorm_cut : ¬ ClearsKept (.exact nearPow) .a8b8g8r8UnormPack32 :=
  not_clearsKept_packed nearPow

end Ps5Vulkan.Format

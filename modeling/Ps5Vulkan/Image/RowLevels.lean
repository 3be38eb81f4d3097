import Ps5Vulkan.Image.Sides
import Ps5Vulkan.Library.Extents

/-!
# The levels of a row image

A slice of a row image holds its levels from the smallest to the largest, as
`ps5vk_image_level_layout` places them, and `ps5vk_image_storage` sizes it by a sum of its own.
-/

namespace Ps5Vulkan.Image

open Extents

namespace ImageInfo

variable (info : ImageInfo)

/-- The bytes a level is stored in, within its slice. -/
def rowInterval (level : Nat) : Extent :=
  ⟨info.rowLevelOffset level, info.rowPitch level * info.rowHeight level⟩

/-- The bytes of a level's texel, within its slice: a row image's case of
`ps5vk_image_copy_address`. -/
def rowTexel (level x y : Nat) : Extent :=
  ⟨info.rowLevelOffset level + y * info.rowPitch level + x * info.format.blockSize,
    info.format.blockSize⟩

variable {info} {level other byte : Nat}

theorem rowLevelOffset_last : info.rowLevelOffset (info.mipLevels - 1) = 0 := by
  have hpos := info.mipLevels_pos
  have hnone : info.mipLevels - (info.mipLevels - 1 + 1) = 0 := by omega
  rw [rowLevelOffset, hnone]
  rfl

/-- A level starts where the next smaller one stops. -/
theorem rowInterval_adjacent (hlevel : level + 1 < info.mipLevels) :
    (info.rowInterval level).start = (info.rowInterval (level + 1)).stop := by
  have hcount : info.mipLevels - (level + 1) = info.mipLevels - (level + 1 + 1) + 1 := by omega
  simp only [rowInterval, Extent.stop, rowLevelOffset]
  rw [hcount, List.range'_succ, List.map_cons, List.sum_cons, Nat.add_comm]

/-- The largest level stops where the slice does. -/
theorem rowInterval_zero_stop : (info.rowInterval 0).stop = info.rowLayerBytes := by
  obtain ⟨smaller, hcount⟩ := Nat.exists_eq_add_one.mpr info.mipLevels_pos
  simp only [rowInterval, Extent.stop, rowLevelOffset, rowLayerBytes, List.range_eq_range', hcount]
  rw [List.range'_succ, List.map_cons, List.sum_cons, Nat.add_comm]
  rfl

theorem rowInterval_stop_le (hlevel : level < other) (hother : other < info.mipLevels) :
    (info.rowInterval other).stop ≤ (info.rowInterval level).start := by
  induction other, hlevel using Nat.le_induction with
  | base => exact (rowInterval_adjacent hother).ge
  | succ other hle ih =>
    have hnext := rowInterval_adjacent hother
    have hstart : (info.rowInterval other).start ≤ (info.rowInterval other).stop := Nat.le_add_right _ _
    exact (hnext ▸ hstart).trans (ih (by omega))

theorem rowInterval_disjoint (hlevel : level < info.mipLevels) (hother : other < info.mipLevels)
    (hne : level ≠ other) : (info.rowInterval level).Disjoint (info.rowInterval other) := by
  rcases Nat.lt_or_gt_of_ne hne with hlt | hlt
  · exact .inr (rowInterval_stop_le hlt hother)
  · exact .inl (rowInterval_stop_le hlt hlevel)

theorem rowInterval_stop_le_layer (hlevel : level < info.mipLevels) :
    (info.rowInterval level).stop ≤ info.rowLayerBytes := by
  rw [← rowInterval_zero_stop]
  rcases Nat.eq_zero_or_pos level with rfl | hpos
  · exact Nat.le_refl _
  · exact (rowInterval_stop_le hpos hlevel).trans (Nat.le_add_right _ _)

/-- A byte below a level's end is in that level or a smaller one, by induction on the levels left. -/
theorem exists_rowInterval_has {level : Nat} (hlevel : level < info.mipLevels)
    (hbyte : byte < (info.rowInterval level).stop) : ∃ owner < info.mipLevels, (info.rowInterval owner).Has byte := by
  by_cases hstart : (info.rowInterval level).start ≤ byte
  · exact ⟨level, hlevel, hstart, hbyte⟩
  by_cases hnext : level + 1 < info.mipLevels
  · rw [rowInterval_adjacent hnext] at hstart
    exact exists_rowInterval_has hnext (Nat.lt_of_not_le hstart)
  · have hlast : level = info.mipLevels - 1 := by omega
    simp only [hlast, rowInterval, rowLevelOffset_last] at hstart
    exact absurd (Nat.zero_le byte) hstart
termination_by info.mipLevels - level

/-- The level's extent is no more than the extent it is stored with. -/
theorem shiftRight_le_ceilDiv (n level : Nat) : max (n >>> level) 1 ≤ max (ceilDiv n (2 ^ level)) 1 := by
  have hpow := Nat.two_pow_pos level
  have hle : n / 2 ^ level ≤ ceilDiv n (2 ^ level) := Nat.div_le_div_right (by omega)
  rw [Nat.shiftRight_eq_div_pow]
  omega

theorem rowTexel_within {x y : Nat} (hx : x < info.levelWidth level) (hy : y < info.levelHeight level) :
    (info.rowTexel level x y).Within (info.rowInterval level) := by
  have hcolumn : x + 1 ≤ info.rowWidth level := hx.trans_le (shiftRight_le_ceilDiv info.width level)
  have hrow : y + 1 ≤ info.rowHeight level := hy.trans_le (shiftRight_le_ceilDiv info.height level)
  have hpitch : info.rowWidth level * info.format.blockSize ≤ info.rowPitch level :=
    le_alignTo _ (by decide)
  have htexel : (x + 1) * info.format.blockSize ≤ info.rowPitch level :=
    (Nat.mul_le_mul_right _ hcolumn).trans hpitch
  have hrows : (y + 1) * info.rowPitch level ≤ info.rowHeight level * info.rowPitch level :=
    Nat.mul_le_mul_right _ hrow
  rw [Nat.add_mul, Nat.one_mul] at htexel hrows
  rw [Nat.mul_comm (info.rowHeight level)] at hrows
  constructor
  · change info.rowLevelOffset level ≤ _
    simp only [rowTexel]
    omega
  · simp only [rowTexel, rowInterval, Extent.stop]
    omega

theorem layerBytes_of_rows (hrows : info.tiled = false) : info.layerBytes = info.rowLayerBytes := by
  rw [layerBytes, if_neg (by simp [hrows])]

theorem layers_le_size_of_rows (hrows : info.tiled = false) : info.layerBytes * info.arrayLayers ≤ info.size := by
  have hsamples : 0 < info.samples := by
    have hmem := info.samples_mem
    simp only [List.mem_cons, List.not_mem_nil, or_false] at hmem
    omega
  rw [layerBytes_of_rows hrows, size, if_neg (by simp [hrows])]
  exact Nat.le_mul_of_pos_right _ hsamples

end ImageInfo

/-- The levels of a row image, smallest first, lie end to end from the start of a slice to its end, the
slices fit in the image, and every texel of a level lies in the level's own bytes. -/
theorem rowLevels_tile (info : ImageInfo) (hrows : info.tiled = false) :
    (∀ level < info.mipLevels, ∀ other < info.mipLevels, level ≠ other →
      (info.rowInterval level).Disjoint (info.rowInterval other)) ∧
    (info.rowInterval (info.mipLevels - 1)).start = 0 ∧
    (∀ level, level + 1 < info.mipLevels →
      (info.rowInterval level).start = (info.rowInterval (level + 1)).stop) ∧
    (info.rowInterval 0).stop = info.layerBytes ∧
    (∀ byte, byte < info.layerBytes ↔
      ∃ level < info.mipLevels, (info.rowInterval level).Has byte) ∧
    info.layerBytes * info.arrayLayers ≤ info.size ∧
    ∀ level < info.mipLevels, ∀ x < info.levelWidth level, ∀ y < info.levelHeight level,
      (info.rowTexel level x y).Within (info.rowInterval level) := by
  refine ⟨fun level hlevel other hother hne => ImageInfo.rowInterval_disjoint hlevel hother hne,
    ImageInfo.rowLevelOffset_last, fun level hlevel => ImageInfo.rowInterval_adjacent hlevel, ?_,
    fun byte => ?_, ImageInfo.layers_le_size_of_rows hrows,
    fun level _ x hx y hy => ImageInfo.rowTexel_within hx hy⟩
  · rw [ImageInfo.layerBytes_of_rows hrows]
    exact ImageInfo.rowInterval_zero_stop
  · rw [ImageInfo.layerBytes_of_rows hrows]
    constructor
    · intro hbyte
      rw [← ImageInfo.rowInterval_zero_stop] at hbyte
      exact ImageInfo.exists_rowInterval_has info.mipLevels_pos hbyte
    · rintro ⟨level, hlevel, -, hstop⟩
      exact hstop.trans_le (ImageInfo.rowInterval_stop_le_layer hlevel)

/-- A sampled array of two layers, nine by five texels in three levels. -/
def oddChain : ImageInfo :=
  .ofShape (.colour 37 4) 9 5 3 2 1 false false (by decide)

theorem rowLevels_tile_oddChain :
    oddChain.tiled = false ∧
      [0, 1, 2].map oddChain.rowInterval = [⟨1280, 1280⟩, ⟨512, 768⟩, ⟨0, 512⟩] ∧
      (oddChain.rowInterval 0).stop = oddChain.layerBytes :=
  ⟨rfl, by decide, (rowLevels_tile oddChain rfl).2.2.2.1⟩

end Ps5Vulkan.Image

import Mesa.Format.CopyRect
import Mesa.Format.TranslateLaws

/-! `util_format_translate_3d` between formats `util_is_format_compatible` accepts: each slice
is one `util_copy_rect` at its layer, the first `dst_z * dst_slice_stride` bytes in (an
`unsigned` product) and each next one a slice stride further. While the 32-bit arithmetic of
`util_copy_rect` does not wrap and one slice's box fits in the destination slice stride, the
boxes of the slices are apart, and every block of every slice is copied from its source slice. -/
namespace Mesa.Format

theorem runCopies_append (src : Int → UInt8) :
    ∀ (effects rest : List Effect) (dst : Int → UInt8),
      runCopies src dst (effects ++ rest) = runCopies src (runCopies src dst effects) rest
  | [], _, _ => rfl
  | _ :: effects, rest, _ => runCopies_append src effects rest _

theorem map_shift_copyRows (width dstStride : Nat) (srcStride dstLayer srcLayer : Int) :
    ∀ (rows : Nat) (d s : Int), (copyRows width dstStride srcStride rows d s).map (Effect.shift dstLayer srcLayer) =
      copyRows width dstStride srcStride rows (d + dstLayer) (s + srcLayer)
  | 0, _, _ => rfl
  | rows + 1, d, s => by
    rw [copyRows,List.map_cons,map_shift_copyRows width dstStride srcStride dstLayer srcLayer rows,copyRows,
      Int.add_right_comm d,Int.add_right_comm s]
    rfl

theorem runCopies_shift_utilCopyRect {desc : UtilFormatDescription} {dstStride dstX dstY width height : Nat}
    {srcStride : Int} {srcX srcY : Nat}
    (fits : CopyRectFits desc dstStride dstX dstY width height srcStride srcX srcY)
    (dstLayer srcLayer : Int) (src dst : Int → UInt8) :
    runCopies src dst ((utilCopyRect desc dstStride dstX dstY width height srcStride srcX srcY).map
        (Effect.shift dstLayer srcLayer)) =
      runCopies src dst (copyRows (rowBytes desc width) dstStride srcStride (blockRows desc height)
        (↑(dstX / desc.block.width * blocksize desc + dstY / desc.block.height * dstStride) + dstLayer)
        (↑(srcX / desc.block.width * blocksize desc + srcY / desc.block.height * srcStride.natAbs) + srcLayer)) := by
  rw [utilCopyRect_of_fits fits]
  split
  case isTrue packed =>
    obtain ⟨rfl,rfl⟩ := packed
    exact runCopies_memcpy_eq_copyRows src _ _ dst _ _
  case isFalse => rw [map_shift_copyRows]

section Slices

variable (table : FormatTable) (caps : Capabilities) (malloc : Nat → Nat → Bool)
  (dstFormat : PipeFormat) (dstStride dstSliceStride dstX dstY : Nat)
  (srcFormat : PipeFormat) (srcStride srcSliceStride srcX srcY width height : Nat)

/-- The slice loop between compatible formats, from layers `dstLayer` and `srcLayer`: it
succeeds, slice `k` copies its box `k` slice strides further, and no other byte is written. -/
theorem runCopies_translateSlices
    (compatible : utilIsFormatCompatible (table.description srcFormat) (table.description dstFormat) = true)
    (fits : CopyRectFits (table.description dstFormat) dstStride dstX dstY width height (int32 srcStride)
      srcX srcY)
    (apart : ∀ i < blockRows (table.description dstFormat) height,
      ∀ j < rowBytes (table.description dstFormat) width, i * dstStride + j < dstSliceStride)
    (src : Int → UInt8) :
    let desc := table.description dstFormat
    let dstBase : Int := ↑(dstX / desc.block.width * blocksize desc + dstY / desc.block.height * dstStride)
    let srcBase : Int :=
      ↑(srcX / desc.block.width * blocksize desc + srcY / desc.block.height * (int32 srcStride).natAbs)
    ∀ (depth z : Nat) (dstLayer srcLayer : Int) (dst : Int → UInt8),
      let result := translateSlices table caps malloc dstFormat dstStride dstSliceStride dstX dstY srcFormat
        srcStride srcSliceStride srcX srcY width height depth z dstLayer srcLayer
      result.1 = true ∧
      (∀ k < depth, ∀ i < blockRows desc height, ∀ j < rowBytes desc width,
        runCopies src dst result.2 (dstBase + dstLayer + ↑(k * dstSliceStride) + ↑(i * dstStride + j)) =
          src (srcBase + srcLayer + ↑(k * srcSliceStride) + i * int32 srcStride + j)) ∧
      ∀ p, (∀ k < depth, ∀ i < blockRows desc height, ∀ j < rowBytes desc width,
          p ≠ dstBase + dstLayer + ↑(k * dstSliceStride) + ↑(i * dstStride + j)) →
        runCopies src dst result.2 p = dst p := by
  intro desc dstBase srcBase depth
  induction depth with
  | zero => exact fun _ _ _ _ => ⟨rfl,fun _ none => absurd none (Nat.not_lt_zero _),fun _ _ => rfl⟩
  | succ depth ih =>
    intro z dstLayer srcLayer dst
    simp only [translateSlices,translate_compatible table caps (malloc z) compatible,↓reduceIte,
      runCopies_append,runCopies_shift_utilCopyRect fits]
    obtain ⟨written,kept⟩ := runCopies_copyRows src (int32 srcStride) fits.stride_ge (blockRows desc height) dst
      (dstBase + dstLayer) (srcBase + srcLayer)
    obtain ⟨ok,writtenRest,keptRest⟩ := ih (z + 1) (dstLayer + dstSliceStride) (srcLayer + srcSliceStride)
      (runCopies src dst (copyRows (rowBytes desc width) dstStride (int32 srcStride) (blockRows desc height)
        (dstBase + dstLayer) (srcBase + srcLayer)))
    refine ⟨ok,fun k below i row j inRow => ?_,fun p away => ?_⟩
    · cases k with
      | zero =>
        have := apart i row j inRow
        rw [keptRest _ fun k _ i' _ j' _ => by
          have := Int.natCast_nonneg (k * dstSliceStride); have := Int.natCast_nonneg (i' * dstStride + j')
          push_cast at *; omega]
        simpa only [Nat.zero_mul,Nat.cast_zero,Int.add_zero] using written i row j inRow
      | succ k =>
        rw [show dstBase + dstLayer + ↑((k + 1) * dstSliceStride) + ↑(i * dstStride + j) =
            dstBase + (dstLayer + ↑dstSliceStride) + ↑(k * dstSliceStride) + ↑(i * dstStride + j) by push_cast; ring,
          writtenRest k (by omega) i row j inRow]
        congr 1; push_cast; ring
    · rw [keptRest p fun k below i row j inRow => ?_]
      · exact kept p fun i row j inRow => by simpa using away 0 (by omega) i row j inRow
      · have := away (k + 1) (by omega) i row j inRow
        simp only [Nat.succ_mul,Nat.cast_add] at this
        omega

end Slices

/-- `util_format_translate_3d` between compatible formats returns true and copies block row
`i`, byte `j` of slice `k` of the box from the source slice `k`, the slices counted from the
layers `dst_z * dst_slice_stride` and `src_z * src_slice_stride` (`unsigned` products) a slice
stride apart, and writes no other destination byte; while the 32-bit arithmetic of
`util_copy_rect` does not wrap and one slice's box fits in the destination slice stride. -/
theorem translate_3d_copies_slices (table : FormatTable) (caps : Capabilities) (malloc : Nat → Nat → Bool)
    (dstFormat : PipeFormat) (dstStride dstSliceStride dstX dstY dstZ : Nat)
    (srcFormat : PipeFormat) (srcStride srcSliceStride srcX srcY srcZ width height depth : Nat)
    (compatible : utilIsFormatCompatible (table.description srcFormat) (table.description dstFormat) = true)
    (fits : CopyRectFits (table.description dstFormat) dstStride dstX dstY width height (int32 srcStride)
      srcX srcY)
    (apart : ∀ i < blockRows (table.description dstFormat) height,
      ∀ j < rowBytes (table.description dstFormat) width, i * dstStride + j < dstSliceStride)
    (src dst : Int → UInt8) :
    let desc := table.description dstFormat
    let result := utilFormatTranslate3d table caps malloc dstFormat dstStride dstSliceStride dstX dstY dstZ
      srcFormat srcStride srcSliceStride srcX srcY srcZ width height depth
    result.1 = true ∧
    (∀ k < depth, ∀ i < blockRows desc height, ∀ j < rowBytes desc width,
      runCopies src dst result.2
          ↑(u32 (dstZ * dstSliceStride) + k * dstSliceStride +
            ((dstY / desc.block.height + i) * dstStride + dstX / desc.block.width * blocksize desc + j)) =
        src (↑(u32 (srcZ * srcSliceStride) + k * srcSliceStride +
            srcY / desc.block.height * (int32 srcStride).natAbs) +
          i * int32 srcStride + ↑(srcX / desc.block.width * blocksize desc + j))) ∧
    ∀ p : Int, (∀ k < depth, ∀ i < blockRows desc height, ∀ j < rowBytes desc width,
        p ≠ ↑(u32 (dstZ * dstSliceStride) + k * dstSliceStride +
          ((dstY / desc.block.height + i) * dstStride + dstX / desc.block.width * blocksize desc + j))) →
      runCopies src dst result.2 p = dst p := by
  intro desc result
  obtain ⟨ok,written,kept⟩ := runCopies_translateSlices table caps malloc dstFormat dstStride dstSliceStride
    dstX dstY srcFormat srcStride srcSliceStride srcX srcY width height compatible fits apart src depth 0
    (u32 (dstZ * dstSliceStride)) (u32 (srcZ * srcSliceStride)) dst
  refine ⟨ok,fun k below i row j inRow => ?_,fun p away => kept p fun k below i row j inRow => ?_⟩
  · convert written k below i row j inRow using 2 <;> push_cast <;> ring
  · convert away k below i row j inRow using 2
    push_cast; ring

/-- Two 2×2 slices of R8G8B8A8 pixels, 8-byte rows, copied to slices 1 and 2 of a buffer of
16-byte slices: byte 3 of row 1 of the second slice lands at byte 43, from source byte 27. -/
theorem translate_3d_copies_slices_rgba :
    utilIsFormatCompatible (sampleTable.description .r8g8b8a8Unorm) (sampleTable.description .r8g8b8a8Unorm) = true ∧
    CopyRectFits (sampleTable.description .r8g8b8a8Unorm) 8 0 0 2 2 (int32 8) 0 0 ∧
    (∀ i < blockRows (sampleTable.description .r8g8b8a8Unorm) 2,
      ∀ j < rowBytes (sampleTable.description .r8g8b8a8Unorm) 2, i * 8 + j < 16) ∧
    (utilFormatTranslate3d sampleTable sampleCapabilities (fun _ _ => true) .r8g8b8a8Unorm 8 16 0 0 1
      .r8g8b8a8Unorm 8 16 0 0 0 2 2 2).1 = true ∧
    runCopies (Nat.toUInt8 ∘ Int.toNat) (fun _ => 0) (utilFormatTranslate3d sampleTable sampleCapabilities
      (fun _ _ => true) .r8g8b8a8Unorm 8 16 0 0 1 .r8g8b8a8Unorm 8 16 0 0 0 2 2 2).2 43 = 27 :=
  have compatible : utilIsFormatCompatible (sampleTable.description .r8g8b8a8Unorm)
      (sampleTable.description .r8g8b8a8Unorm) = true := by decide
  have fits : CopyRectFits (sampleTable.description .r8g8b8a8Unorm) 8 0 0 2 2 (int32 8) 0 0 :=
    ⟨by decide,by decide,by decide,by decide,by decide,by decide,by decide,by decide⟩
  have apart : ∀ i < blockRows (sampleTable.description .r8g8b8a8Unorm) 2,
      ∀ j < rowBytes (sampleTable.description .r8g8b8a8Unorm) 2, i * 8 + j < 16 := by decide
  have copied := translate_3d_copies_slices sampleTable sampleCapabilities (fun _ _ => true)
    .r8g8b8a8Unorm 8 16 0 0 1 .r8g8b8a8Unorm 8 16 0 0 0 2 2 2 compatible fits apart (Nat.toUInt8 ∘ Int.toNat)
    fun _ => 0
  ⟨compatible,fits,apart,copied.1,copied.2.1 1 (by decide) 1 (by decide) 3 (by decide)⟩

end Mesa.Format

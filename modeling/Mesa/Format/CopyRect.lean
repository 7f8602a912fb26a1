import Mathlib.Tactic.Ring
import Mesa.Format.Translate

/-! What the copies of `util_copy_rect` leave in the destination buffer. While its 32-bit
arithmetic does not wrap, the single `memcpy` of a packed rectangle writes what the row loop
writes, and both copy block row `i`, byte `j` of the rectangle from the source row `i`
strides away, flipped for a negative stride, and write nothing else. -/
namespace Mesa.Format

/-- The destination bytes after one effect: a copy writes `bytes` bytes from the source
buffer. The pack and unpack routines are external and are given no meaning here. -/
def Effect.copyInto (src dst : Int → UInt8) : Effect → Int → UInt8
  | .memcpy d s bytes => fun p => if d ≤ p ∧ p < d + bytes then src (s + (p - d)) else dst p
  | .call .. => dst

/-- The destination bytes after the copies of a trace, in order, from a source buffer none
of them writes. -/
def runCopies (src dst : Int → UInt8) : List Effect → Int → UInt8
  | [] => dst
  | e :: rest => runCopies src (e.copyInto src dst) rest

theorem copyInto_memcpy_add (src dst : Int → UInt8) (d s : Int) (a b : Nat) :
    (Effect.memcpy d s (a + b)).copyInto src dst =
      (Effect.memcpy (d + a) (s + a) b).copyInto src ((Effect.memcpy d s a).copyInto src dst) := by
  funext p
  simp only [Effect.copyInto]
  split_ifs <;> first | rfl | omega | (congr 1; omega)

theorem runCopies_memcpy_eq_copyRows (src : Int → UInt8) (width : Nat) :
    ∀ (height : Nat) (dst : Int → UInt8) (d s : Int),
      runCopies src dst [.memcpy d s (height * width)] =
        runCopies src dst (copyRows width width width height d s)
  | 0, dst, d, s => by
    funext p
    simp only [runCopies,copyRows,Effect.copyInto,Nat.zero_mul,Nat.cast_zero,Int.add_zero]
    exact if_neg (by omega)
  | height + 1, dst, d, s => by
    rw [Nat.succ_mul,Nat.add_comm,copyRows,runCopies,runCopies,copyInto_memcpy_add]
    exact runCopies_memcpy_eq_copyRows src width height _ (d + width) (s + width)

/-- The row loop of `util_copy_rect` on rows that do not overlap: byte `j` of row `i` holds
source byte `j` of the row `i` source strides away, and every other byte is kept. -/
theorem runCopies_copyRows (src : Int → UInt8) {width dstStride : Nat} (srcStride : Int)
    (apart : width ≤ dstStride) :
    ∀ (height : Nat) (dst : Int → UInt8) (d s : Int),
      (∀ i < height, ∀ j < width,
        runCopies src dst (copyRows width dstStride srcStride height d s) (d + ↑(i * dstStride + j)) =
          src (s + i * srcStride + j)) ∧
      ∀ p, (∀ i < height, ∀ j < width, p ≠ d + ↑(i * dstStride + j)) →
        runCopies src dst (copyRows width dstStride srcStride height d s) p = dst p
  | 0, dst, d, s => ⟨fun _ none => absurd none (Nat.not_lt_zero _),fun _ _ => rfl⟩
  | height + 1, dst, d, s => by
    obtain ⟨written,kept⟩ := runCopies_copyRows src srcStride apart height
      ((Effect.memcpy d s width).copyInto src dst) (d + dstStride) (s + srcStride)
    have shifted : ∀ i j : Nat, d + ↑((i + 1) * dstStride + j) = d + dstStride + ↑(i * dstStride + j) := by
      intro i j; rw [Nat.succ_mul]; push_cast; ring
    refine ⟨fun i below j inRow => ?_,fun p away => ?_⟩
    · cases i with
      | zero =>
        rw [copyRows,runCopies,kept _ fun i _ j' _ => by omega]
        simp only [Effect.copyInto,Nat.zero_mul,Nat.zero_add,Nat.cast_zero,Int.zero_mul,Int.add_zero]
        rw [if_pos (by omega)]
        congr 1; omega
      | succ i =>
        rw [copyRows,runCopies,shifted,written i (by omega) j inRow]
        congr 1; push_cast; ring
    · rw [copyRows,runCopies,kept p fun i below j inRow => shifted i j ▸ away (i + 1) (by omega) j inRow]
      simp only [Effect.copyInto]
      refine if_neg fun ⟨after,before⟩ => away 0 (by omega) (p - d).toNat (by omega) ?_
      simp only [Nat.zero_mul,Nat.zero_add]; omega

/-- Blocks across a rectangle `width` pixels wide. -/
def blockCols (desc : UtilFormatDescription) (width : Nat) : Nat :=
  (width + desc.block.width - 1) / desc.block.width

/-- Block rows of a rectangle `height` pixels high. -/
def blockRows (desc : UtilFormatDescription) (height : Nat) : Nat :=
  (height + desc.block.height - 1) / desc.block.height

/-- Bytes in one block row of a rectangle `width` pixels wide. -/
def rowBytes (desc : UtilFormatDescription) (width : Nat) : Nat :=
  blockCols desc width * blocksize desc

/-- A rectangle on which the 32-bit arithmetic of `util_copy_rect` does not wrap, with
destination rows that do not overlap. The source stride is an `int`, and a row shorter than
2^31 bytes equals `(unsigned)src_stride` only when it equals the stride. -/
structure CopyRectFits (desc : UtilFormatDescription) (dstStride dstX dstY width height : Nat)
    (srcStride : Int) (srcX srcY : Nat) : Prop where
  width_fits : width + desc.block.width - 1 < 2^32
  height_fits : height + desc.block.height - 1 < 2^32
  row_fits : rowBytes desc width < 2^31
  count_fits : blockRows desc height * rowBytes desc width < 2^32
  dst_fits : dstX / desc.block.width * blocksize desc < 2^32 ∧
    dstY / desc.block.height * dstStride < 2^32
  src_fits : srcX / desc.block.width * blocksize desc < 2^32 ∧
    srcY / desc.block.height * srcStride.natAbs < 2^32
  src_int : -2^31 ≤ srcStride ∧ srcStride < 2^31
  stride_ge : rowBytes desc width ≤ dstStride

theorem u32_of_lt {n : Nat} (fits : n < 2^32) : u32 n = n := Nat.mod_eq_of_lt fits

theorem utilCopyRect_of_fits {desc : UtilFormatDescription} {dstStride dstX dstY width height : Nat}
    {srcStride : Int} {srcX srcY : Nat}
    (fits : CopyRectFits desc dstStride dstX dstY width height srcStride srcX srcY) :
    utilCopyRect desc dstStride dstX dstY width height srcStride srcX srcY =
      let d : Int := ↑(dstX / desc.block.width * blocksize desc + dstY / desc.block.height * dstStride)
      let s : Int := ↑(srcX / desc.block.width * blocksize desc +
        srcY / desc.block.height * srcStride.natAbs)
      if rowBytes desc width = dstStride ∧ srcStride = rowBytes desc width then
        [.memcpy d s (blockRows desc height * rowBytes desc width)]
      else copyRows (rowBytes desc width) dstStride srcStride (blockRows desc height) d s := by
  have cols : u32 (width + desc.block.width - 1) / desc.block.width = blockCols desc width := by
    rw [u32_of_lt fits.width_fits]; rfl
  have rows : u32 (height + desc.block.height - 1) / desc.block.height = blockRows desc height := by
    rw [u32_of_lt fits.height_fits]; rfl
  have row : u32 (blockCols desc width * blocksize desc) = rowBytes desc width :=
    u32_of_lt (Nat.lt_trans fits.row_fits (by omega))
  have cast : ((rowBytes desc width : Nat) : Int) = srcStride % 2^32 ↔ srcStride = rowBytes desc width := by
    have := fits.row_fits; have := fits.src_int; omega
  simp only [utilCopyRect,cols,rows,row,cast,u32_of_lt fits.count_fits,u32_of_lt fits.dst_fits.1,
    u32_of_lt fits.dst_fits.2,u32_of_lt fits.src_fits.1,u32_of_lt fits.src_fits.2,Nat.cast_add]

/-- Without wrapping, both paths of `util_copy_rect` write what the row loop writes. -/
theorem runCopies_utilCopyRect {desc : UtilFormatDescription} {dstStride dstX dstY width height : Nat}
    {srcStride : Int} {srcX srcY : Nat}
    (fits : CopyRectFits desc dstStride dstX dstY width height srcStride srcX srcY)
    (src dst : Int → UInt8) :
    runCopies src dst (utilCopyRect desc dstStride dstX dstY width height srcStride srcX srcY) =
      runCopies src dst (copyRows (rowBytes desc width) dstStride srcStride (blockRows desc height)
        ↑(dstX / desc.block.width * blocksize desc + dstY / desc.block.height * dstStride)
        ↑(srcX / desc.block.width * blocksize desc + srcY / desc.block.height * srcStride.natAbs)) := by
  rw [utilCopyRect_of_fits fits]
  split
  case isTrue packed =>
    obtain ⟨rfl,rfl⟩ := packed
    exact runCopies_memcpy_eq_copyRows src _ _ dst _ _
  case isFalse => rfl

/-- `util_copy_rect` copies block row `i`, byte `j` of the rectangle from the source row
`i` strides from the first, the rows going up for a negative stride, and writes no other
destination byte, whichever of its two paths it takes, while its arithmetic does not
wrap. -/
theorem copy_rect_copies_blocks (desc : UtilFormatDescription)
    (dstStride dstX dstY width height : Nat) (srcStride : Int) (srcX srcY : Nat)
    (fits : CopyRectFits desc dstStride dstX dstY width height srcStride srcX srcY)
    (src dst : Int → UInt8) :
    (∀ i < blockRows desc height, ∀ j < rowBytes desc width,
      runCopies src dst (utilCopyRect desc dstStride dstX dstY width height srcStride srcX srcY)
          ↑((dstY / desc.block.height + i) * dstStride + dstX / desc.block.width * blocksize desc + j) =
        src (↑(srcY / desc.block.height * srcStride.natAbs) + i * srcStride +
          ↑(srcX / desc.block.width * blocksize desc + j))) ∧
    ∀ p : Int, (∀ i < blockRows desc height, ∀ j < rowBytes desc width,
        p ≠ ↑((dstY / desc.block.height + i) * dstStride + dstX / desc.block.width * blocksize desc + j)) →
      runCopies src dst (utilCopyRect desc dstStride dstX dstY width height srcStride srcX srcY) p =
        dst p := by
  obtain ⟨written,kept⟩ := runCopies_copyRows src srcStride fits.stride_ge (blockRows desc height) dst
    ↑(dstX / desc.block.width * blocksize desc + dstY / desc.block.height * dstStride)
    ↑(srcX / desc.block.width * blocksize desc + srcY / desc.block.height * srcStride.natAbs)
  have position : ∀ i j : Nat,
      ((dstY / desc.block.height + i) * dstStride + dstX / desc.block.width * blocksize desc + j : Nat) =
        ((dstX / desc.block.width * blocksize desc + dstY / desc.block.height * dstStride : Nat) : Int) +
          ↑(i * dstStride + j) := by
    intro i j; push_cast; ring
  rw [runCopies_utilCopyRect fits]
  refine ⟨fun i below j inRow => ?_,fun p away => kept p fun i below j inRow => ?_⟩
  · rw [position,written i below j inRow]
    congr 1; push_cast; ring
  · exact position i j ▸ away i below j inRow

theorem copy_rect_copies_blocks_flipped :
    CopyRectFits (sampleTable.description .r8g8b8a8Unorm) 8 0 0 2 2 (-8) 0 1 ∧
    runCopies (fun p => p.toNat.toUInt8) (fun _ => 0)
      (utilCopyRect (sampleTable.description .r8g8b8a8Unorm) 8 0 0 2 2 (-8) 0 1) 9 = 1 :=
  ⟨⟨by decide,by decide,by decide,by decide,by decide,by decide,by decide,by decide⟩,
    (copy_rect_copies_blocks (sampleTable.description .r8g8b8a8Unorm) 8 0 0 2 2 (-8) 0 1
      ⟨by decide,by decide,by decide,by decide,by decide,by decide,by decide,by decide⟩ _ _).1 1
      (by decide) 1 (by decide)⟩

/-- A plain format of one 128-bit pixel per block, the block of R32G32B32A32_FLOAT;
`util_copy_rect` reads nothing else of a descriptor. -/
def rgba32FloatBlock : UtilFormatDescription := plainDescription (.other 0) 128 [] [] .rgb

/-- A packed 16384×16384 rectangle of 16-byte pixels is 2^32 bytes: `height * width` wraps
to 0, and the single copy writes nothing. -/
theorem packed_copy_count_wraps :
    utilCopyRect rgba32FloatBlock 262144 0 0 16384 16384 262144 0 0 = [.memcpy 0 0 0] ∧
    runCopies (fun _ => 1) (fun _ => 0)
      (utilCopyRect rgba32FloatBlock 262144 0 0 16384 16384 262144 0 0) 0 = 0 := by
  decide

end Mesa.Format

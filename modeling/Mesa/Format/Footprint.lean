import Mesa.Format.TranslateLaws

/-! The bytes each effect of a translation touches, and the box of block rows that
`util_copy_rect` addresses in each slice. -/
namespace Mesa.Format

/-- `DIV_ROUND_UP`. -/
def divRoundUp (n d : Nat) : Nat := (n + d - 1) / d

/-- Modelled from the spec: the bytes a pack or unpack routine touches when given a row,
a stride, a width and a height in pixels are those of the blocks covering the rectangle,
one block row per stride (section 4.4, block granularity). -/
def BlockRows (desc : UtilFormatDescription) (row stride : Int) (width height : Nat)
    (byte : Int) : Prop :=
  ∃ r < divRoundUp height desc.block.height,
    ∃ j < divRoundUp width desc.block.width * blocksize desc, byte = row + r * stride + j

/-- The source bytes an effect reads. -/
def Effect.Reads (table : FormatTable) : Effect → Int → Prop
  | .memcpy _ src bytes, byte => src ≤ byte ∧ byte < src + bytes
  | .call c f row stride width height, byte =>
    c.isUnpack = true ∧ BlockRows (table.description f) row stride width height byte

/-- The destination bytes an effect writes. -/
def Effect.Writes (table : FormatTable) : Effect → Int → Prop
  | .memcpy dst _ bytes, byte => dst ≤ byte ∧ byte < dst + bytes
  | .call c f row stride width height, byte =>
    c.isUnpack = false ∧ BlockRows (table.description f) row stride width height byte

/-- The box `util_copy_rect` addresses, slice by slice: for slice `k < depth` and block
row `i`, the row bytes from `(z + k)*sliceStride + (y/bh + i)*stride + (x/bw)*bs`. -/
def CopyBox (desc : UtilFormatDescription) (stride sliceStride x y z width height depth : Nat)
    (byte : Int) : Prop :=
  ∃ k < depth, ∃ i < divRoundUp height desc.block.height,
    ∃ j < divRoundUp width desc.block.width * blocksize desc,
      byte = (z + k) * sliceStride + (y / desc.block.height + i) * stride +
        x / desc.block.width * blocksize desc + j

/-- The conversion paths start at `y*stride + x*(bits/8)`, which is the box's first byte
only for 1×1 blocks: DXT1 at the block-aligned `src_x = 4` is read from byte 32, while
the box `util_copy_rect` addresses is bytes 8 to 15. -/
theorem compressed_offset_read_outside_box :
    utilFormatTranslate3d sampleTable sampleCapabilities (fun _ _ => true) .r8g8b8a8Unorm 16 64 0 0 0
      .dxt1Rgb 16 16 4 0 0 4 4 1 =
      (true,[.call .unpackRgba8unorm .dxt1Rgb 32 16 4 4,.call .packRgba8unorm .r8g8b8a8Unorm 0 16 4 4]) ∧
    (Effect.call .unpackRgba8unorm .dxt1Rgb 32 16 4 4).Reads sampleTable 32 ∧
    ¬CopyBox (sampleTable.description .dxt1Rgb) 16 16 4 0 0 4 4 1 32 := by
  refine ⟨by decide,⟨rfl,0,by decide,0,by decide,by decide⟩,?_⟩
  rintro ⟨k,slice,i,row,j,column,at32⟩
  simp only [sampleTable,sampleDescription,divRoundUp,blocksize] at row column at32
  omega

end Mesa.Format

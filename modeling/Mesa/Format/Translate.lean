import Mathlib.Algebra.Group.Nat.Basic
import Mathlib.Algebra.Group.Int
import Mesa.Format.Description

/-! `util_copy_rect`, `util_format_translate` and `util_format_translate_3d` as the list of
memory copies and pack/unpack calls they make, with pointers as byte offsets from the
buffers they were given. The pack and unpack routines and `malloc` are external: a
capability table says which routines exist and an oracle says which allocations succeed. -/
namespace Mesa.Format

/-- An `unsigned` result of C arithmetic. -/
def u32 (n : Nat) : Nat := n % 2^32

/-- `(int)` of an `unsigned`. -/
def int32 (n : Nat) : Int := if u32 n < 2^31 then u32 n else (u32 n : Int) - 2^32

/-- `util_format_get_blocksize`. -/
def blocksize (desc : UtilFormatDescription) : Nat := desc.block.bits / 8

structure UtilFormatUnpackDescription where
  unpackRgba : Bool
  unpackRgba8unorm : Bool
  unpackZFloat : Bool
  unpackS8uint : Bool

structure UtilFormatPackDescription where
  packRgbaFloat : Bool
  packRgbaSint : Bool
  packRgbaUint : Bool
  packRgba8unorm : Bool
  packZFloat : Bool
  packS8uint : Bool

/-- The function-pointer tables `util_format_unpack_description` and
`util_format_pack_description`: a field is true when the pointer is not null. -/
structure Capabilities where
  unpack : PipeFormat → UtilFormatUnpackDescription
  pack : PipeFormat → UtilFormatPackDescription

inductive Capability
  | unpackRgba | unpackRgba8unorm | unpackZFloat | unpackS8uint
  | packRgbaFloat | packRgbaSint | packRgbaUint | packRgba8unorm | packZFloat | packS8uint
  deriving DecidableEq, Repr

def Capabilities.provides (caps : Capabilities) (format : PipeFormat) : Capability → Bool
  | .unpackRgba => (caps.unpack format).unpackRgba
  | .unpackRgba8unorm => (caps.unpack format).unpackRgba8unorm
  | .unpackZFloat => (caps.unpack format).unpackZFloat
  | .unpackS8uint => (caps.unpack format).unpackS8uint
  | .packRgbaFloat => (caps.pack format).packRgbaFloat
  | .packRgbaSint => (caps.pack format).packRgbaSint
  | .packRgbaUint => (caps.pack format).packRgbaUint
  | .packRgba8unorm => (caps.pack format).packRgba8unorm
  | .packZFloat => (caps.pack format).packZFloat
  | .packS8uint => (caps.pack format).packS8uint

/-- One thing the code does to memory: a `memcpy` from the source buffer to the
destination buffer, or a call of a pack (destination) or unpack (source) routine on the
rows that start at `row`. -/
inductive Effect
  | memcpy (dst src : Int) (bytes : Nat)
  | call (capability : Capability) (format : PipeFormat) (row : Int) (stride : Int)
      (width height : Nat)
  deriving DecidableEq, Repr

/-- Unpack routines read the source buffer, pack routines write the destination. -/
def Capability.isUnpack : Capability → Bool
  | .unpackRgba | .unpackRgba8unorm | .unpackZFloat | .unpackS8uint => true
  | _ => false

/-- The same effect on buffers whose bases moved by `dst` and `src` bytes. -/
def Effect.shift (dst src : Int) : Effect → Effect
  | .memcpy d s bytes => .memcpy (d + dst) (s + src) bytes
  | .call c f row stride width height =>
    .call c f (row + if c.isUnpack then src else dst) stride width height

/-- The row loop of `util_copy_rect`, for `height` block rows. -/
def copyRows (width dstStride : Nat) (srcStride : Int) : Nat → Int → Int → List Effect
  | 0, _, _ => []
  | rows + 1, dst, src =>
    .memcpy dst src width :: copyRows width dstStride srcStride rows (dst + dstStride) (src + srcStride)

/-- `util_copy_rect`. -/
def utilCopyRect (desc : UtilFormatDescription) (dstStride dstX dstY width height : Nat)
    (srcStride : Int) (srcX srcY : Nat) : List Effect :=
  let srcStridePos := srcStride.natAbs
  let bs := blocksize desc
  let bw := desc.block.width
  let bh := desc.block.height
  let width := u32 (width + bw - 1) / bw
  let height := u32 (height + bh - 1) / bh
  let dst : Int := u32 (dstX / bw * bs) + u32 (dstY / bh * dstStride)
  let src : Int := u32 (srcX / bw * bs) + u32 (srcY / bh * srcStridePos)
  let width := u32 (width * bs)
  if width = dstStride ∧ (width : Int) = srcStride % 2^32 then [.memcpy dst src (u32 (height * width))]
  else copyRows width dstStride srcStride height dst src

/-- The last call pair of a colour path, for the rows left after the full batches. -/
def batchTail (unpack pack : Capability) (srcFormat dstFormat : PipeFormat)
    (width srcStride dstStride height : Nat) (srcRow dstRow : Int) : List Effect :=
  if height ≠ 0 then
    [.call unpack srcFormat srcRow srcStride width height,
      .call pack dstFormat dstRow dstStride width height]
  else []

/-- The batch loop of the four colour paths: `while (height >= y_step)` one unpack and one
pack of `y_step` rows, then one of the remaining rows. `fuel` bounds the iterations. -/
def batchLoop (unpack pack : Capability) (srcFormat dstFormat : PipeFormat)
    (yStep width srcStride dstStride srcStep dstStep : Nat) :
    Nat → Nat → Int → Int → List Effect
  | fuel + 1, height, srcRow, dstRow =>
    if yStep ≤ height then
      .call unpack srcFormat srcRow srcStride width yStep ::
        .call pack dstFormat dstRow dstStride width yStep ::
        batchLoop unpack pack srcFormat dstFormat yStep width srcStride dstStride srcStep dstStep
          fuel (height - yStep) (srcRow + srcStep) (dstRow + dstStep)
    else batchTail unpack pack srcFormat dstFormat width srcStride dstStride height srcRow dstRow
  | 0, height, srcRow, dstRow =>
    batchTail unpack pack srcFormat dstFormat width srcStride dstStride height srcRow dstRow

/-- The `while (height--)` loop of the depth/stencil path: per row, the depth channel when
its scratch row was allocated, then the stencil channel when its was. -/
def depthStencilRows (depth stencil : Bool) (srcFormat dstFormat : PipeFormat)
    (width srcStep dstStep : Nat) : Nat → Int → Int → List Effect
  | 0, _, _ => []
  | rows + 1, srcRow, dstRow =>
    (if depth then [.call .unpackZFloat srcFormat srcRow 0 width 1,
      .call .packZFloat dstFormat dstRow 0 width 1] else []) ++
    (if stencil then [.call .unpackS8uint srcFormat srcRow 0 width 1,
      .call .packS8uint dstFormat dstRow 0 width 1] else []) ++
    depthStencilRows depth stencil srcFormat dstFormat width srcStep dstStep rows
      (srcRow + srcStep) (dstRow + dstStep)

/-- The geometry of one translation: the first rows and the per-batch steps. -/
structure Rows where
  srcRow : Int
  dstRow : Int
  xStep : Nat
  yStep : Nat
  srcStep : Nat
  dstStep : Nat

def rowsOf (srcDesc dstDesc : UtilFormatDescription)
    (dstStride dstX dstY srcStride srcX srcY : Nat) : Rows :=
  let yStep := max dstDesc.block.height srcDesc.block.height
  { dstRow := u32 (dstY * dstStride) + u32 (dstX * (dstDesc.block.bits / 8))
    srcRow := u32 (srcY * srcStride) + u32 (srcX * (srcDesc.block.bits / 8))
    xStep := max dstDesc.block.width srcDesc.block.width
    yStep := yStep
    dstStep := u32 (yStep / dstDesc.block.height * dstStride)
    srcStep := u32 (yStep / srcDesc.block.height * srcStride) }

/-- One colour path after its capability checks: allocate the scratch rows, then run the
batch loop. -/
def convertRows (unpack pack : Capability) (srcFormat dstFormat : PipeFormat)
    (malloc : Nat → Bool) (rows : Rows) (srcStride dstStride width height : Nat) :
    Bool × List Effect :=
  if malloc 0 then
    (true, batchLoop unpack pack srcFormat dstFormat rows.yStep width srcStride dstStride
      rows.srcStep rows.dstStep height height rows.srcRow rows.dstRow)
  else (false, [])

/-- The depth/stencil path: a channel is converted when both formats have its routines
and its scratch row was allocated. -/
def translateDepthStencil (caps : Capabilities) (malloc : Nat → Bool)
    (srcFormat dstFormat : PipeFormat) (rows : Rows) (width height : Nat) : Bool × List Effect :=
  let wantDepth := (caps.unpack srcFormat).unpackZFloat && (caps.pack dstFormat).packZFloat
  let wantStencil := (caps.unpack srcFormat).unpackS8uint && (caps.pack dstFormat).packS8uint
  let depth := wantDepth && malloc 0
  let stencil := wantStencil && malloc (if wantDepth then 1 else 0)
  (true, depthStencilRows depth stencil srcFormat dstFormat width rows.srcStep rows.dstStep height
    rows.srcRow rows.dstRow)

/-- `util_format_translate`. -/
def utilFormatTranslate (table : FormatTable) (caps : Capabilities) (malloc : Nat → Bool)
    (dstFormat : PipeFormat) (dstStride dstX dstY : Nat)
    (srcFormat : PipeFormat) (srcStride srcX srcY width height : Nat) : Bool × List Effect :=
  let dstDesc := table.description dstFormat
  let srcDesc := table.description srcFormat
  let unpack := caps.unpack srcFormat
  let pack := caps.pack dstFormat
  let rows := rowsOf srcDesc dstDesc dstStride dstX dstY srcStride srcX srcY
  if utilIsFormatCompatible srcDesc dstDesc then
    (true, utilCopyRect dstDesc dstStride dstX dstY width height (int32 srcStride) srcX srcY)
  else if srcDesc.colorspace = .zs ∨ dstDesc.colorspace = .zs then
    translateDepthStencil caps malloc srcFormat dstFormat rows width height
  else if utilFormatFits8unorm srcDesc || utilFormatFits8unorm dstDesc then
    if !unpack.unpackRgba8unorm || !pack.packRgba8unorm then (false, [])
    else convertRows .unpackRgba8unorm .packRgba8unorm srcFormat dstFormat malloc rows
      srcStride dstStride width height
  else if utilFormatIsPureSint table srcFormat || utilFormatIsPureSint table dstFormat then
    if utilFormatIsPureSint table srcFormat != utilFormatIsPureSint table dstFormat then (false, [])
    else convertRows .unpackRgba .packRgbaSint srcFormat dstFormat malloc rows
      srcStride dstStride width height
  else if utilFormatIsPureUint table srcFormat || utilFormatIsPureUint table dstFormat then
    if !unpack.unpackRgba || !pack.packRgbaUint then (false, [])
    else convertRows .unpackRgba .packRgbaUint srcFormat dstFormat malloc rows
      srcStride dstStride width height
  else
    if !unpack.unpackRgba || !pack.packRgbaFloat then (false, [])
    else convertRows .unpackRgba .packRgbaFloat srcFormat dstFormat malloc rows
      srcStride dstStride width height

/-- The slice loop of `util_format_translate_3d`: slice `z` allocates through
`malloc z`, and the first failing slice ends the loop. -/
def translateSlices (table : FormatTable) (caps : Capabilities) (malloc : Nat → Nat → Bool)
    (dstFormat : PipeFormat) (dstStride dstSliceStride dstX dstY : Nat)
    (srcFormat : PipeFormat) (srcStride srcSliceStride srcX srcY width height : Nat) :
    Nat → Nat → Int → Int → Bool × List Effect
  | 0, _, _, _ => (true, [])
  | slices + 1, z, dstLayer, srcLayer =>
    let slice := utilFormatTranslate table caps (malloc z) dstFormat dstStride dstX dstY srcFormat
      srcStride srcX srcY width height
    let effects := slice.2.map (Effect.shift dstLayer srcLayer)
    if slice.1 then
      let rest := translateSlices table caps malloc dstFormat dstStride dstSliceStride dstX dstY
        srcFormat srcStride srcSliceStride srcX srcY width height slices (z + 1)
        (dstLayer + dstSliceStride) (srcLayer + srcSliceStride)
      (rest.1, effects ++ rest.2)
    else (false, effects)

/-- `util_format_translate_3d`. -/
def utilFormatTranslate3d (table : FormatTable) (caps : Capabilities) (malloc : Nat → Nat → Bool)
    (dstFormat : PipeFormat) (dstStride dstSliceStride dstX dstY dstZ : Nat)
    (srcFormat : PipeFormat) (srcStride srcSliceStride srcX srcY srcZ width height depth : Nat) :
    Bool × List Effect :=
  translateSlices table caps malloc dstFormat dstStride dstSliceStride dstX dstY srcFormat
    srcStride srcSliceStride srcX srcY width height depth 0 (u32 (dstZ * dstSliceStride))
    (u32 (srcZ * srcSliceStride))

/-- Routines of the sample table's formats: colour routines for every colour format, depth and
stencil routines for the channels a depth/stencil format has. -/
def sampleCapabilities : Capabilities where
  unpack format := match format with
    | .z24UnormS8Uint => ⟨true,true,true,true⟩
    | .z32Float => ⟨true,true,true,false⟩
    | _ => ⟨true,true,false,false⟩
  pack format := match format with
    | .z24UnormS8Uint => ⟨true,true,true,true,true,true⟩
    | .z32Float => ⟨true,true,true,true,true,false⟩
    | _ => ⟨true,true,true,true,false,false⟩

end Mesa.Format

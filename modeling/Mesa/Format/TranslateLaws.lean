import Mesa.Format.Decode

/-! Which routines `util_format_translate` calls and what it returns, for every format
pair, capability table and allocation outcome; the scratch-row domains its colour paths
pass between unpacker and packer. Each law is followed by the case where the code departs
from it, on descriptors taken from the format table. -/
namespace Mesa.Format

/-- The path `util_format_translate` takes for a pair of formats. -/
inductive TranslatePath
  | copy | depthStencil | unorm8 | sint | uint | float
  deriving DecidableEq, Repr

def translatePath (table : FormatTable) (src dst : PipeFormat) : TranslatePath :=
  let srcDesc := table.description src
  let dstDesc := table.description dst
  if utilIsFormatCompatible srcDesc dstDesc then .copy
  else if srcDesc.colorspace = .zs ∨ dstDesc.colorspace = .zs then .depthStencil
  else if utilFormatFits8unorm srcDesc || utilFormatFits8unorm dstDesc then .unorm8
  else if utilFormatIsPureSint table src || utilFormatIsPureSint table dst then .sint
  else if utilFormatIsPureUint table src || utilFormatIsPureUint table dst then .uint
  else .float

/-- A call of a routine the table provides; copies need none. -/
def Effect.provided (caps : Capabilities) : Effect → Bool
  | .memcpy .. => true
  | .call c f .. => caps.provides f c

theorem mem_copyRows {width dstStride : Nat} {srcStride : Int} {e : Effect} :
    ∀ {rows : Nat} {dst src : Int}, e ∈ copyRows width dstStride srcStride rows dst src →
      ∃ d s n, e = .memcpy d s n
  | rows + 1, _, _, member => by
    rcases List.mem_cons.mp member with rfl | rest
    · exact ⟨_,_,_,rfl⟩
    · exact mem_copyRows rest

theorem mem_utilCopyRect {desc : UtilFormatDescription} {dstStride dstX dstY width height : Nat}
    {srcStride : Int} {srcX srcY : Nat} {e : Effect}
    (member : e ∈ utilCopyRect desc dstStride dstX dstY width height srcStride srcX srcY) :
    ∃ d s n, e = .memcpy d s n := by
  simp only [utilCopyRect] at member
  split at member
  · exact ⟨_,_,_,List.mem_singleton.mp member⟩
  · exact mem_copyRows member

theorem mem_batchLoop {unpack pack : Capability} {srcFormat dstFormat : PipeFormat}
    {yStep width srcStride dstStride srcStep dstStep : Nat} {e : Effect} :
    ∀ {fuel height : Nat} {srcRow dstRow : Int}, e ∈ batchLoop unpack pack srcFormat dstFormat
      yStep width srcStride dstStride srcStep dstStep fuel height srcRow dstRow →
      (∃ row stride rows, e = .call unpack srcFormat row stride width rows) ∨
        ∃ row stride rows, e = .call pack dstFormat row stride width rows := by
  have tail : ∀ {height : Nat} {srcRow dstRow : Int}, e ∈ batchTail unpack pack srcFormat dstFormat
      width srcStride dstStride height srcRow dstRow →
      (∃ row stride rows, e = .call unpack srcFormat row stride width rows) ∨
        ∃ row stride rows, e = .call pack dstFormat row stride width rows := by
    intro height srcRow dstRow member
    unfold batchTail at member
    split at member
    · simp only [List.mem_cons,List.mem_singleton,List.not_mem_nil,or_false] at member
      rcases member with rfl | rfl
      · exact .inl ⟨_,_,_,rfl⟩
      · exact .inr ⟨_,_,_,rfl⟩
    · simp at member
  intro fuel
  induction fuel with
  | zero => exact tail
  | succ fuel ih =>
    intro height srcRow dstRow member
    simp only [batchLoop] at member
    split at member
    · simp only [List.mem_cons] at member
      rcases member with rfl | rfl | rest
      · exact .inl ⟨_,_,_,rfl⟩
      · exact .inr ⟨_,_,_,rfl⟩
      · exact ih rest
    · exact tail member

theorem mem_depthStencilRows {depth stencil : Bool} {srcFormat dstFormat : PipeFormat}
    {width srcStep dstStep : Nat} {e : Effect} :
    ∀ {rows : Nat} {srcRow dstRow : Int},
      e ∈ depthStencilRows depth stencil srcFormat dstFormat width srcStep dstStep rows srcRow dstRow →
      (depth = true ∧ ((∃ row, e = .call .unpackZFloat srcFormat row 0 width 1) ∨
          ∃ row, e = .call .packZFloat dstFormat row 0 width 1)) ∨
        (stencil = true ∧ ((∃ row, e = .call .unpackS8uint srcFormat row 0 width 1) ∨
          ∃ row, e = .call .packS8uint dstFormat row 0 width 1))
  | rows + 1, srcRow, dstRow, member => by
    simp only [depthStencilRows,List.mem_append] at member
    rcases member with (member | member) | rest
    · cases depth <;> simp at member
      rcases member with rfl | rfl
      · exact .inl ⟨rfl,.inl ⟨_,rfl⟩⟩
      · exact .inl ⟨rfl,.inr ⟨_,rfl⟩⟩
    · cases stencil <;> simp at member
      rcases member with rfl | rfl
      · exact .inr ⟨rfl,.inl ⟨_,rfl⟩⟩
      · exact .inr ⟨rfl,.inr ⟨_,rfl⟩⟩
    · exact mem_depthStencilRows rest

/-- The capability pair of each colour path. -/
def TranslatePath.routines : TranslatePath → Capability × Capability
  | .sint => (.unpackRgba,.packRgbaSint)
  | .uint => (.unpackRgba,.packRgbaUint)
  | .float => (.unpackRgba,.packRgbaFloat)
  | _ => (.unpackRgba8unorm,.packRgba8unorm)

/-- When a colour path gives up before it allocates: the sint path when the two formats
differ in signedness, the others when a routine is missing. -/
def TranslatePath.rejects (path : TranslatePath) (table : FormatTable) (caps : Capabilities)
    (src dst : PipeFormat) : Bool :=
  match path with
  | .sint => utilFormatIsPureSint table src != utilFormatIsPureSint table dst
  | _ => !caps.provides src path.routines.1 || !caps.provides dst path.routines.2

/-- `util_format_translate` path by path. -/
theorem translate_eq_path (table : FormatTable) (caps : Capabilities) (malloc : Nat → Bool)
    (dst : PipeFormat) (dstStride dstX dstY : Nat) (src : PipeFormat)
    (srcStride srcX srcY width height : Nat) :
    utilFormatTranslate table caps malloc dst dstStride dstX dstY src srcStride srcX srcY width
        height =
      let rows := rowsOf (table.description src) (table.description dst) dstStride dstX dstY
        srcStride srcX srcY
      match translatePath table src dst with
      | .copy => (true, utilCopyRect (table.description dst) dstStride dstX dstY width height
          (int32 srcStride) srcX srcY)
      | .depthStencil => translateDepthStencil caps malloc src dst rows width height
      | path =>
        if path.rejects table caps src dst then (false, [])
        else convertRows path.routines.1 path.routines.2 src dst malloc rows srcStride dstStride
          width height := by
  unfold utilFormatTranslate translatePath
  by_cases compatible : utilIsFormatCompatible (table.description src) (table.description dst) <;>
    simp only [compatible,Bool.false_eq_true,↓reduceIte]
  by_cases zs : (table.description src).colorspace = .zs ∨ (table.description dst).colorspace = .zs <;>
    simp only [zs,Bool.false_eq_true,↓reduceIte]
  by_cases unorm8 : (utilFormatFits8unorm (table.description src) || utilFormatFits8unorm (table.description dst)) <;>
    simp only [unorm8,Bool.false_eq_true,↓reduceIte]
  · rfl
  by_cases sint : (utilFormatIsPureSint table src || utilFormatIsPureSint table dst) <;>
    simp only [sint,Bool.false_eq_true,↓reduceIte]
  · rfl
  by_cases uint : (utilFormatIsPureUint table src || utilFormatIsPureUint table dst) <;>
    simp only [uint,Bool.false_eq_true,↓reduceIte] <;> rfl

theorem mem_convertRows {unpack pack : Capability} {src dst : PipeFormat} {malloc : Nat → Bool}
    {rows : Rows} {srcStride dstStride width height : Nat} {e : Effect}
    (member : e ∈ (convertRows unpack pack src dst malloc rows srcStride dstStride width height).2) :
    (∃ row stride n, e = .call unpack src row stride width n) ∨
      ∃ row stride n, e = .call pack dst row stride width n := by
  unfold convertRows at member
  split at member
  · exact mem_batchLoop member
  · simp at member

/-- Outside the pure-sint path `util_format_translate` calls only routines the table
provides: each colour path checks its two routines first, and the depth/stencil path
converts a channel only when both of its routines exist. -/
theorem translate_calls_provided (table : FormatTable) (caps : Capabilities)
    (malloc : Nat → Bool) (dst : PipeFormat) (dstStride dstX dstY : Nat) (src : PipeFormat)
    (srcStride srcX srcY width height : Nat) (notSint : translatePath table src dst ≠ .sint) :
    ∀ e ∈ (utilFormatTranslate table caps malloc dst dstStride dstX dstY src srcStride srcX srcY
      width height).2, e.provided caps = true := by
  intro e member
  rw [translate_eq_path] at member
  have colour : ∀ path : TranslatePath, path ≠ .sint → path.rejects table caps src dst = false →
      e ∈ (convertRows path.routines.1 path.routines.2 src dst malloc
        (rowsOf (table.description src) (table.description dst) dstStride dstX dstY srcStride srcX
          srcY) srcStride dstStride width height).2 → e.provided caps = true := by
    intro path notSint kept member
    have checks : path.rejects table caps src dst = (!caps.provides src path.routines.1 ||
        !caps.provides dst path.routines.2) := by
      cases path <;> first | rfl | exact absurd rfl notSint
    have both : caps.provides src path.routines.1 = true ∧ caps.provides dst path.routines.2 = true := by
      simpa [checks] using kept
    rcases mem_convertRows member with ⟨_,_,_,rfl⟩ | ⟨_,_,_,rfl⟩
    · exact both.1
    · exact both.2
  cases path : translatePath table src dst <;> simp only [path] at member notSint
  case copy =>
    obtain ⟨_,_,_,rfl⟩ := mem_utilCopyRect member
    rfl
  case depthStencil =>
    simp only [translateDepthStencil] at member
    rcases mem_depthStencilRows member with ⟨depth,(⟨_,rfl⟩ | ⟨_,rfl⟩)⟩ | ⟨stencil,(⟨_,rfl⟩ | ⟨_,rfl⟩)⟩ <;>
      simp_all [Effect.provided,Capabilities.provides]
  case sint => exact absurd rfl notSint
  all_goals
    split at member
    · simp at member
    · rename_i kept
      exact colour _ notSint (by simpa using kept) member

/-- Z32_FLOAT to Z24_UNORM_S8_UINT, on the depth/stencil path, calls only routines the sample
table has. -/
theorem translate_calls_provided_zs :
    translatePath sampleTable .z32Float .z24UnormS8Uint ≠ .sint ∧
    ∀ e ∈ (utilFormatTranslate sampleTable sampleCapabilities (fun _ => true) .z24UnormS8Uint 4 0 0
      .z32Float 4 0 0 1 1).2, e.provided sampleCapabilities = true :=
  have notSint : translatePath sampleTable .z32Float .z24UnormS8Uint ≠ .sint := by decide
  ⟨notSint,translate_calls_provided sampleTable sampleCapabilities (fun _ => true) .z24UnormS8Uint 4 0 0
    .z32Float 4 0 0 1 1 notSint⟩

/-- The same routines without R16_SINT's `pack_rgba_sint`. -/
def withoutR16SintPack : Capabilities :=
  { sampleCapabilities with
    pack := fun format => { sampleCapabilities.pack format with packRgbaSint := format != .r16Sint } }

/-- The sint path checks no routine: R32_SINT to R16_SINT calls the missing
`pack_rgba_sint` and reports success. The depth/stencil path takes a failed allocation
for a missing channel: Z32_FLOAT to Z24_UNORM_S8_UINT converts no depth row, though both
formats have depth routines, and reports success. -/
theorem sint_path_calls_missing_routine :
    translatePath sampleTable .r32Sint .r16Sint = .sint ∧
    utilFormatTranslate sampleTable withoutR16SintPack (fun _ => true) .r16Sint 2 0 0 .r32Sint 4 0 0
      1 1 = (true,[.call .unpackRgba .r32Sint 0 4 1 1,.call .packRgbaSint .r16Sint 0 2 1 1]) ∧
    withoutR16SintPack.provides .r16Sint .packRgbaSint = false ∧
    utilFormatTranslate sampleTable sampleCapabilities (fun _ => false) .z24UnormS8Uint 4 0 0
      .z32Float 4 0 0 1 1 = (true,[]) ∧
    sampleCapabilities.provides .z32Float .unpackZFloat = true ∧
    sampleCapabilities.provides .z24UnormS8Uint .packZFloat = true := by
  decide

/-- A table without a single pack or unpack routine. -/
def noCapabilities : Capabilities :=
  ⟨fun _ => ⟨false,false,false,false⟩,fun _ => ⟨false,false,false,false,false,false⟩⟩

/-- The sint check comes after the depth/stencil and 8-bit unorm dispatches: R32_SINT to
Z32_FLOAT reports success with no routine at all and converts nothing, and R32_SINT to
R8G8B8A8_UNORM goes through the 8-bit unorm routines when they exist. -/
theorem sint_converted_before_sint_check :
    utilIsFormatCompatible (sampleTable.description .r32Sint) (sampleTable.description .z32Float) = false ∧
    utilFormatIsPureSint sampleTable .r32Sint = true ∧ utilFormatIsPureSint sampleTable .z32Float = false ∧
    utilFormatTranslate sampleTable noCapabilities (fun _ => true) .z32Float 4 0 0 .r32Sint 4 0 0 1 1 =
      (true,[]) ∧
    utilIsFormatCompatible (sampleTable.description .r32Sint)
      (sampleTable.description .r8g8b8a8Unorm) = false ∧
    utilFormatIsPureSint sampleTable .r8g8b8a8Unorm = false ∧
    utilFormatTranslate sampleTable sampleCapabilities (fun _ => true) .r8g8b8a8Unorm 4 0 0 .r32Sint 4 0 0
      1 1 = (true,[.call .unpackRgba8unorm .r32Sint 0 4 1 1,.call .packRgba8unorm .r8g8b8a8Unorm 0 4 1 1]) := by
  decide

theorem translatePath_eq_sint {table : FormatTable} {src dst : PipeFormat}
    (incompatible : utilIsFormatCompatible (table.description src) (table.description dst) = false)
    (notZs : (table.description src).colorspace ≠ .zs ∧ (table.description dst).colorspace ≠ .zs)
    (notUnorm8 : utilFormatFits8unorm (table.description src) = false ∧
      utilFormatFits8unorm (table.description dst) = false)
    (signed : utilFormatIsPureSint table src = true ∨ utilFormatIsPureSint table dst = true) :
    translatePath table src dst = .sint := by
  simp only [translatePath,incompatible,notZs,notUnorm8,Bool.or_false,Bool.false_eq_true,
    ↓reduceIte,or_self,Bool.or_eq_true,signed]

/-- Past the depth/stencil and 8-bit unorm dispatches, a pair with exactly one pure-sint
format is refused before any routine is looked up or any row allocated. -/
theorem one_sided_sint_refused (table : FormatTable) (caps : Capabilities) (malloc : Nat → Bool)
    (dst : PipeFormat) (dstStride dstX dstY : Nat) (src : PipeFormat)
    (srcStride srcX srcY width height : Nat)
    (incompatible : utilIsFormatCompatible (table.description src) (table.description dst) = false)
    (notZs : (table.description src).colorspace ≠ .zs ∧ (table.description dst).colorspace ≠ .zs)
    (notUnorm8 : utilFormatFits8unorm (table.description src) = false ∧
      utilFormatFits8unorm (table.description dst) = false)
    (oneSided : utilFormatIsPureSint table src ≠ utilFormatIsPureSint table dst) :
    utilFormatTranslate table caps malloc dst dstStride dstX dstY src srcStride srcX srcY width
      height = (false,[]) := by
  have path : translatePath table src dst = .sint :=
    translatePath_eq_sint incompatible notZs notUnorm8 (by cases h : utilFormatIsPureSint table src <;> simp_all)
  rw [translate_eq_path,path]
  simp [TranslatePath.rejects,oneSided]

theorem one_sided_sint_refused_r32 :
    utilIsFormatCompatible (sampleTable.description .r32Sint) (sampleTable.description .r32Float) = false ∧
    ((sampleTable.description .r32Sint).colorspace ≠ .zs ∧ (sampleTable.description .r32Float).colorspace ≠ .zs) ∧
    (utilFormatFits8unorm (sampleTable.description .r32Sint) = false ∧
      utilFormatFits8unorm (sampleTable.description .r32Float) = false) ∧
    utilFormatIsPureSint sampleTable .r32Sint ≠ utilFormatIsPureSint sampleTable .r32Float ∧
    utilFormatTranslate sampleTable sampleCapabilities (fun _ => true) .r32Float 4 0 0 .r32Sint 4 0 0 1 1 =
      (false,[]) :=
  ⟨by decide,by decide,by decide,by decide,
    one_sided_sint_refused sampleTable sampleCapabilities (fun _ => true) .r32Float 4 0 0 .r32Sint 4 0 0 1 1
      (by decide) (by decide) (by decide) (by decide)⟩

/-- How the numbers of a scratch row are stored. -/
inductive ScratchDomain
  | int32 | uint32 | float | unorm8 | uint8
  deriving DecidableEq, Repr

/-- The domain a routine writes into the scratch row (unpack) or reads from it (pack).
`unpack_rgba` writes the convention `util_format_write_4` dispatches on: uint32 for
pure-uint formats, int32 for pure-sint formats, float for the rest. -/
def Capability.domain (table : FormatTable) (format : PipeFormat) : Capability → ScratchDomain
  | .unpackRgba =>
    if utilFormatIsPureUint table format then .uint32
    else if utilFormatIsPureSint table format then .int32 else .float
  | .unpackRgba8unorm | .packRgba8unorm => .unorm8
  | .unpackZFloat | .packZFloat | .packRgbaFloat => .float
  | .unpackS8uint | .packS8uint => .uint8
  | .packRgbaSint => .int32
  | .packRgbaUint => .uint32

/-- Each unpack call of a trace and the pack call after it use one scratch domain. -/
def domainsAgree (table : FormatTable) : List Effect → Bool
  | .call u uf .. :: .call p pf .. :: rest => u.domain table uf == p.domain table pf && domainsAgree table rest
  | _ => true

theorem domainsAgree_batchLoop {table : FormatTable} {unpack pack : Capability}
    {src dst : PipeFormat} {yStep width srcStride dstStride srcStep dstStep : Nat} :
    ∀ {fuel height : Nat} {srcRow dstRow : Int},
      domainsAgree table (batchLoop unpack pack src dst yStep width srcStride dstStride srcStep
        dstStep fuel height srcRow dstRow) =
      (unpack.domain table src == pack.domain table dst ||
        batchLoop unpack pack src dst yStep width srcStride dstStride srcStep dstStep fuel height
          srcRow dstRow = [])
  | 0, height, _, _ | fuel + 1, height, _, _ => by
    simp only [batchLoop]
    try split
    all_goals first
      | (rw [domainsAgree,domainsAgree_batchLoop]; cases unpack.domain table src == pack.domain table dst <;> simp)
      | (unfold batchTail; split <;> simp [domainsAgree])

theorem translatePath_sint {table : FormatTable} {src dst : PipeFormat}
    (path : translatePath table src dst = .sint) :
    utilFormatIsPureSint table src = true ∨ utilFormatIsPureSint table dst = true := by
  simp only [translatePath] at path
  split_ifs at path with _ _ _ sint
  simpa using sint

theorem translatePath_float {table : FormatTable} {src dst : PipeFormat}
    (path : translatePath table src dst = .float) :
    utilFormatIsPureSint table src = false ∧ utilFormatIsPureUint table src = false := by
  simp only [translatePath] at path
  split_ifs at path with _ _ _ sint uint
  simp_all

theorem domainsAgree_depthStencilRows {table : FormatTable} {depth stencil : Bool}
    {src dst : PipeFormat} {width srcStep dstStep : Nat} :
    ∀ {rows : Nat} {srcRow dstRow : Int},
      domainsAgree table (depthStencilRows depth stencil src dst width srcStep dstStep rows srcRow
        dstRow) = true
  | 0, _, _ => rfl
  | rows + 1, _, _ => by
    cases depth <;> cases stencil <;>
      simp [depthStencilRows,domainsAgree,Capability.domain,domainsAgree_depthStencilRows]

/-- The scratch domains of a colour path agree unless it is the uint path with a source that
is not pure uint: there `unpack_rgba` writes floats that `pack_rgba_uint` reads as uint32. -/
theorem translate_domains_agree (table : FormatTable) (caps : Capabilities)
    (malloc : Nat → Bool) (dst : PipeFormat) (dstStride dstX dstY : Nat) (src : PipeFormat)
    (srcStride srcX srcY width height : Nat)
    (notUintFromOther : translatePath table src dst = .uint → utilFormatIsPureUint table src = true) :
    domainsAgree table (utilFormatTranslate table caps malloc dst dstStride dstX dstY src srcStride
      srcX srcY width height).2 = true := by
  rw [translate_eq_path]
  have colour : ∀ path : TranslatePath, (path.rejects table caps src dst = false →
      path.routines.1.domain table src = path.routines.2.domain table dst) →
      domainsAgree table (if path.rejects table caps src dst then (false, [])
        else convertRows path.routines.1 path.routines.2 src dst malloc
          (rowsOf (table.description src) (table.description dst) dstStride dstX dstY srcStride
            srcX srcY) srcStride dstStride width height).2 = true := by
    intro path same
    split
    · rfl
    · rename_i kept
      unfold convertRows
      split
      · simp [domainsAgree_batchLoop,same (by simpa using kept)]
      · rfl
  cases path : translatePath table src dst <;> simp only [path]
  case copy =>
    match copied : utilCopyRect (table.description dst) dstStride dstX dstY width height
        (int32 srcStride) srcX srcY with
    | [] => rfl
    | e :: _ =>
      obtain ⟨_,_,_,rfl⟩ := mem_utilCopyRect (copied ▸ List.mem_cons_self e _)
      rfl
  case depthStencil => exact domainsAgree_depthStencilRows
  case unorm8 => exact colour .unorm8 fun _ => rfl
  case sint =>
    refine colour .sint fun kept => ?_
    have signed : utilFormatIsPureSint table src = true := by
      simp only [TranslatePath.rejects,bne_eq_false_iff_eq] at kept
      rcases translatePath_sint path with signed | signed <;> simp_all
    have unsigned : utilFormatIsPureUint table src = false := by
      simpa [signed] using not_pure_sint_and_uint table src
    simp [TranslatePath.routines,Capability.domain,signed,unsigned]
  case uint =>
    exact colour .uint fun _ => by
      simp [TranslatePath.routines,Capability.domain,notUintFromOther path]
  case float =>
    exact colour .float fun _ => by
      simp [TranslatePath.routines,Capability.domain,translatePath_float path]

/-- R32_SINT to R16_SINT takes the sint path, whose two routines use int32. -/
theorem translate_domains_agree_sint :
    (translatePath sampleTable .r32Sint .r16Sint = .uint → utilFormatIsPureUint sampleTable .r32Sint = true) ∧
    domainsAgree sampleTable (utilFormatTranslate sampleTable sampleCapabilities (fun _ => true) .r16Sint 2 0 0
      .r32Sint 4 0 0 1 1).2 = true :=
  have notUint : translatePath sampleTable .r32Sint .r16Sint = .uint →
      utilFormatIsPureUint sampleTable .r32Sint = true := by decide
  ⟨notUint,translate_domains_agree sampleTable sampleCapabilities (fun _ => true) .r16Sint 2 0 0 .r32Sint 4 0 0 1 1
    notUint⟩

/-- On the uint path a source that is not pure uint reaches `pack_rgba_uint` as floats:
R32_FLOAT to R32_UINT is converted and reported as a success. -/
theorem float_source_packed_as_uint :
    translatePath sampleTable .r32Float .r32Uint = .uint ∧
    utilFormatTranslate sampleTable sampleCapabilities (fun _ => true) .r32Uint 4 0 0 .r32Float 4 0 0
      1 1 = (true,[.call .unpackRgba .r32Float 0 4 1 1,.call .packRgbaUint .r32Uint 0 4 1 1]) ∧
    Capability.unpackRgba.domain sampleTable .r32Float = .float ∧
    Capability.packRgbaUint.domain sampleTable .r32Uint = .uint32 := by
  decide

end Mesa.Format

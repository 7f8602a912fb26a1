import Mathlib.Tactic.SplitIfs
import Mathlib.Tactic.PushNeg

/-! Pixel-format descriptors as `u_format.c` reads them, and the predicates it derives
from them. The descriptor table is external: any table whose entry for a format
describes that format. -/
namespace Mesa.Format

/-- `enum pipe_format`: the formats the code names, the formats the worked cases below
use, and every other format by number. -/
inductive PipeFormat
  | rgtc1Snorm | rgtc2Snorm | latc1Snorm | latc2Snorm | bptcRgbaUnorm | etc1Rgb8
  | r1Unorm | uyvy | yuyv | r8g8B8g8Unorm | g8r8G8b8Unorm
  | r32Float | r32Uint | r32Sint | r16Sint | r8g8b8a8Unorm | r8g8b8x8Unorm | dxt1Rgb
  | z24UnormS8Uint | z32Float
  | other (id : Nat)
  deriving DecidableEq, Repr

inductive UtilFormatType
  | void | unsigned | signed | fixed | float
  deriving DecidableEq, Repr

inductive UtilFormatColorspace
  | rgb | srgb | yuv | zs
  deriving DecidableEq, Repr

inductive UtilFormatLayout
  | plain | subsampled | s3tc | rgtc | etc | bptc | astc | atc | fxt1 | other
  deriving DecidableEq, Repr

inductive PipeSwizzle
  | x | y | z | w | zero | one | none
  deriving DecidableEq, Repr

/-- The channel a swizzle entry names, when it names one (`swizzle < 4`). -/
def PipeSwizzle.channel? : PipeSwizzle → Option Nat
  | .x => some 0
  | .y => some 1
  | .z => some 2
  | .w => some 3
  | _ => .none

@[simp] theorem PipeSwizzle.channel?_lt {swizzle : PipeSwizzle} {chan : Nat}
    (named : swizzle.channel? = some chan) : chan < 4 := by
  cases swizzle <;> simp [PipeSwizzle.channel?] at named <;> omega

structure UtilFormatBlock where
  width : Nat
  height : Nat
  bits : Nat
  width_pos : 0 < width
  height_pos : 0 < height

structure UtilFormatChannelDescription where
  type : UtilFormatType
  normalized : Bool
  pureInteger : Bool
  size : Nat
  shift : Nat
  deriving DecidableEq, Repr

/-- The unused channel of a descriptor. -/
def voidChannel : UtilFormatChannelDescription := ⟨.void,false,false,0,0⟩

/-- `struct util_format_description`, with the fields the modelled functions read.
`channel` and `swizzle` are the code's four-entry arrays. -/
structure UtilFormatDescription where
  format : PipeFormat
  block : UtilFormatBlock
  layout : UtilFormatLayout
  nrChannels : Nat
  channel : Nat → UtilFormatChannelDescription
  swizzle : Nat → PipeSwizzle
  colorspace : UtilFormatColorspace

/-- `util_format_description` as a table: the entry for a format describes it. -/
structure FormatTable where
  description : PipeFormat → UtilFormatDescription
  description_format : ∀ format, (description format).format = format

/-- `util_format_get_first_non_void_channel`. -/
def utilFormatGetFirstNonVoidChannel (desc : UtilFormatDescription) : Option Nat :=
  [0,1,2,3].find? fun i => (desc.channel i).type != .void

/-- The pure-integer predicates test the first non-void channel; a format without one
carries no numeric data and satisfies none of them. -/
def firstChannelIs (test : UtilFormatChannelDescription → Bool)
    (desc : UtilFormatDescription) : Bool :=
  match utilFormatGetFirstNonVoidChannel desc with
  | none => false
  | some i => test (desc.channel i)

def utilFormatIsFloat (table : FormatTable) (format : PipeFormat) : Bool :=
  firstChannelIs (fun c => c.type == .float) (table.description format)

def utilFormatIsPureInteger (table : FormatTable) (format : PipeFormat) : Bool :=
  firstChannelIs (fun c => c.pureInteger) (table.description format)

def utilFormatIsPureSint (table : FormatTable) (format : PipeFormat) : Bool :=
  firstChannelIs (fun c => c.type == .signed && c.pureInteger) (table.description format)

def utilFormatIsPureUint (table : FormatTable) (format : PipeFormat) : Bool :=
  firstChannelIs (fun c => c.type == .unsigned && c.pureInteger) (table.description format)

theorem not_pure_sint_and_uint (table : FormatTable) (format : PipeFormat) :
    ¬(utilFormatIsPureSint table format = true ∧ utilFormatIsPureUint table format = true) := by
  simp only [utilFormatIsPureSint,utilFormatIsPureUint,firstChannelIs]
  split <;> simp_all

/-- The colour-space test shared by the swizzle predicates. -/
def isRgbLike (desc : UtilFormatDescription) : Bool :=
  desc.colorspace == .rgb || desc.colorspace == .srgb

/-- The luminance, alpha, intensity and luminance-alpha predicates: an RGB or sRGB format
whose four swizzle entries are the given ones. -/
def swizzleIs (desc : UtilFormatDescription) (s0 s1 s2 s3 : PipeSwizzle) : Bool :=
  isRgbLike desc && desc.swizzle 0 == s0 && desc.swizzle 1 == s1 &&
    desc.swizzle 2 == s2 && desc.swizzle 3 == s3

def utilFormatHasAlpha (table : FormatTable) (format : PipeFormat) : Bool :=
  isRgbLike (table.description format) && (table.description format).swizzle 3 != .one

def utilFormatIsLuminance (table : FormatTable) (format : PipeFormat) : Bool :=
  swizzleIs (table.description format) .x .x .x .one

def utilFormatIsAlpha (table : FormatTable) (format : PipeFormat) : Bool :=
  swizzleIs (table.description format) .zero .zero .zero .x

def utilFormatIsLuminanceAlpha (table : FormatTable) (format : PipeFormat) : Bool :=
  swizzleIs (table.description format) .x .x .x .y

def utilFormatIsIntensity (table : FormatTable) (format : PipeFormat) : Bool :=
  swizzleIs (table.description format) .x .x .x .x

/-- A plain channel fits 8-bit unorm when it is void, or unsigned normalised of at most
eight bits. -/
def channelFits8unorm (channel : UtilFormatChannelDescription) : Bool :=
  match channel.type with
  | .void => true
  | .unsigned => channel.normalized && channel.size ≤ 8
  | _ => false

/-- `util_format_fits_8unorm`. -/
def utilFormatFits8unorm (desc : UtilFormatDescription) : Bool :=
  if desc.colorspace = .srgb then false else
  match desc.layout with
  | .s3tc => true
  | .rgtc => !([PipeFormat.rgtc1Snorm,.rgtc2Snorm,.latc1Snorm,.latc2Snorm].contains desc.format)
  | .bptc => desc.format == .bptcRgbaUnorm
  | .etc => desc.format == .etc1Rgb8
  | .plain => (List.range desc.nrChannels).all fun chan => channelFits8unorm (desc.channel chan)
  | _ => [PipeFormat.r1Unorm,.uyvy,.yuyv,.r8g8B8g8Unorm,.g8r8G8b8Unorm].contains desc.format

/-- The last loop of `util_is_format_compatible`: a destination entry that names a
channel names the same one in the source, with equal type and normalisation. -/
def swizzleCompatible (srcDesc dstDesc : UtilFormatDescription) (chan : Nat) : Bool :=
  match (dstDesc.swizzle chan).channel? with
  | none => true
  | some s =>
    srcDesc.swizzle chan == dstDesc.swizzle chan &&
      (srcDesc.channel s).type == (dstDesc.channel s).type &&
      (srcDesc.channel s).normalized == (dstDesc.channel s).normalized

/-- `util_is_format_compatible`. -/
def utilIsFormatCompatible (srcDesc dstDesc : UtilFormatDescription) : Bool :=
  if srcDesc.format = dstDesc.format then true
  else if srcDesc.layout ≠ .plain ∨ dstDesc.layout ≠ .plain then false
  else if srcDesc.block.bits ≠ dstDesc.block.bits ∨ srcDesc.nrChannels ≠ dstDesc.nrChannels ∨
      srcDesc.colorspace ≠ dstDesc.colorspace then false
  else if (List.range 4).any fun chan => (srcDesc.channel chan).size ≠ (dstDesc.channel chan).size
    then false
  else (List.range 4).all (swizzleCompatible srcDesc dstDesc)

theorem compatible_cases {srcDesc dstDesc : UtilFormatDescription}
    (compatible : utilIsFormatCompatible srcDesc dstDesc = true) :
    srcDesc.format = dstDesc.format ∨
      (srcDesc.layout = .plain ∧ dstDesc.layout = .plain ∧
        srcDesc.block.bits = dstDesc.block.bits ∧ srcDesc.nrChannels = dstDesc.nrChannels ∧
        srcDesc.colorspace = dstDesc.colorspace ∧
        (∀ chan < 4, (srcDesc.channel chan).size = (dstDesc.channel chan).size) ∧
        ∀ chan < 4, swizzleCompatible srcDesc dstDesc chan = true) := by
  unfold utilIsFormatCompatible at compatible
  split_ifs at compatible with same plain shape sizes
  · exact .inl same
  · push_neg at plain shape
    simp only [List.any_eq_true,List.mem_range,not_exists,not_and,decide_eq_true_eq,
      not_not] at sizes
    simp only [List.all_eq_true,List.mem_range] at compatible
    exact .inr ⟨plain.1,plain.2,shape.1,shape.2.1,shape.2.2,sizes,compatible⟩

/-- A plain 1×1 descriptor from its channels and swizzle entries. -/
def plainDescription (format : PipeFormat) (bits : Nat)
    (channels : List UtilFormatChannelDescription) (swizzle : List PipeSwizzle)
    (colorspace : UtilFormatColorspace) : UtilFormatDescription where
  format := format
  block := ⟨1,1,bits,Nat.one_pos,Nat.one_pos⟩
  layout := .plain
  nrChannels := channels.length
  channel i := channels.getD i voidChannel
  swizzle i := swizzle.getD i .none
  colorspace := colorspace

/-- The table's descriptors of the formats the cases below use. -/
def sampleDescription : PipeFormat → UtilFormatDescription
  | .r32Float => plainDescription .r32Float 32 [⟨.float,false,false,32,0⟩] [.x,.zero,.zero,.one] .rgb
  | .r32Uint => plainDescription .r32Uint 32 [⟨.unsigned,false,true,32,0⟩] [.x,.zero,.zero,.one] .rgb
  | .r32Sint => plainDescription .r32Sint 32 [⟨.signed,false,true,32,0⟩] [.x,.zero,.zero,.one] .rgb
  | .r16Sint => plainDescription .r16Sint 16 [⟨.signed,false,true,16,0⟩] [.x,.zero,.zero,.one] .rgb
  | .r8g8b8a8Unorm => plainDescription .r8g8b8a8Unorm 32
      [⟨.unsigned,true,false,8,0⟩,⟨.unsigned,true,false,8,8⟩,⟨.unsigned,true,false,8,16⟩,
        ⟨.unsigned,true,false,8,24⟩] [.x,.y,.z,.w] .rgb
  | .r8g8b8x8Unorm => plainDescription .r8g8b8x8Unorm 32
      [⟨.unsigned,true,false,8,0⟩,⟨.unsigned,true,false,8,8⟩,⟨.unsigned,true,false,8,16⟩,
        ⟨.void,false,false,8,24⟩] [.x,.y,.z,.one] .rgb
  | .z24UnormS8Uint => plainDescription .z24UnormS8Uint 32
      [⟨.unsigned,true,false,24,0⟩,⟨.unsigned,false,true,8,24⟩] [.x,.y,.none,.none] .zs
  | .z32Float => plainDescription .z32Float 32 [⟨.float,false,false,32,0⟩] [.x,.none,.none,.none] .zs
  | .dxt1Rgb =>
    { plainDescription .dxt1Rgb 64 [⟨.void,false,false,64,0⟩] [.x,.y,.z,.one] .rgb with
      block := ⟨4,4,64,by decide,by decide⟩
      layout := .s3tc }
  | format => plainDescription format 32 [] [] .rgb

def sampleTable : FormatTable := ⟨sampleDescription,by intro format; cases format <;> rfl⟩

end Mesa.Format

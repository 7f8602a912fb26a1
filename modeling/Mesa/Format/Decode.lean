import Mathlib.Algebra.Order.Ring.Nat
import Mathlib.Algebra.Order.GroupWithZero.Canonical
import Mathlib.Algebra.Order.Ring.Unbundled.Rat
import Mesa.Format.CopyRect

/-! What a block's bits mean under a descriptor, and why the raw copy that
`util_format_translate` makes between compatible formats keeps every value the
destination format carries. -/
namespace Mesa.Format

/-- The value of one channel: a number, or the bits of a floating-point channel. -/
inductive ChannelValue
  | number (value : ℚ)
  | float (size bits : Nat)
  deriving DecidableEq

/-- Modelled from the spec: the numeric value of a channel's bits, by its type,
normalisation and size (section 3, per-channel bit size, numeric type and normalized
flag). Scaled and pure-integer channels carry the same number. -/
def decodeChannel (channel : UtilFormatChannelDescription) (block : Nat) : Option ChannelValue :=
  let raw := block / 2^channel.shift % 2^channel.size
  let signed : Int := if raw < 2^(channel.size - 1) then raw else (raw : Int) - 2^channel.size
  match channel.type with
  | .void => none
  | .unsigned =>
    some (.number (if channel.normalized then (raw : ℚ) / (2^channel.size - 1) else raw))
  | .signed =>
    some (.number (if channel.normalized then max (-1) ((signed : ℚ) / (2^(channel.size - 1) - 1))
      else signed))
  | .fixed => some (.number ((signed : ℚ) / 2^(channel.size / 2)))
  | .float => some (.float channel.size raw)

/-- Component `chan` of a block under a descriptor: the channel its swizzle entry names,
or the entry's constant. -/
def decodeComponent (desc : UtilFormatDescription) (block chan : Nat) : Option ChannelValue :=
  match (desc.swizzle chan).channel? with
  | some c => decodeChannel (desc.channel c) block
  | none =>
    match desc.swizzle chan with
    | .zero => some (.number 0)
    | .one => some (.number 1)
    | _ => none

/-- A plain descriptor whose `nr_channels` channels are packed from bit 0 in the order of
their sizes. -/
def PackedInOrder (desc : UtilFormatDescription) : Prop :=
  ∀ chan < desc.nrChannels, (desc.channel chan).shift = ((List.range chan).map fun j => (desc.channel j).size).sum

instance (desc : UtilFormatDescription) : Decidable (PackedInOrder desc) :=
  inferInstanceAs (Decidable (∀ chan < desc.nrChannels,
    (desc.channel chan).shift = ((List.range chan).map fun j => (desc.channel j).size).sum))

/-- Every swizzle entry that names a channel names one of the descriptor's `nr_channels`. -/
def NamesChannels (desc : UtilFormatDescription) : Prop :=
  ∀ chan < 4, ∀ c ∈ (desc.swizzle chan).channel?, c < desc.nrChannels

instance (desc : UtilFormatDescription) : Decidable (NamesChannels desc) :=
  inferInstanceAs (Decidable (∀ chan < 4, ∀ c ∈ (desc.swizzle chan).channel?, c < desc.nrChannels))

theorem decodeChannel_congr {a b : UtilFormatChannelDescription} (type : a.type = b.type)
    (normalized : a.normalized = b.normalized) (size : a.size = b.size) (shift : a.shift = b.shift)
    (block : Nat) : decodeChannel a block = decodeChannel b block := by
  simp only [decodeChannel,type,normalized,size,shift]

theorem shift_eq_of_sizes {srcDesc dstDesc : UtilFormatDescription}
    (srcPacked : PackedInOrder srcDesc) (dstPacked : PackedInOrder dstDesc)
    (channels : srcDesc.nrChannels = dstDesc.nrChannels)
    (sizes : ∀ chan < 4, (srcDesc.channel chan).size = (dstDesc.channel chan).size)
    {c : Nat} (bound : c < dstDesc.nrChannels) (four : c < 4) :
    (srcDesc.channel c).shift = (dstDesc.channel c).shift := by
  rw [srcPacked c (channels ▸ bound),dstPacked c bound]
  congr 1
  exact List.map_congr_left fun j member => sizes j (by simp at member; omega)

/-- Decoding a block with a compatible destination descriptor gives every component
whose swizzle names a channel the value the source descriptor gives it. -/
theorem compatible_decode_eq (table : FormatTable) {src dst : PipeFormat}
    (srcPacked : PackedInOrder (table.description src))
    (dstPacked : PackedInOrder (table.description dst))
    (channels : NamesChannels (table.description dst))
    (compatible : utilIsFormatCompatible (table.description src) (table.description dst) = true)
    (block : Nat) {chan c : Nat} (inRange : chan < 4)
    (named : ((table.description dst).swizzle chan).channel? = some c) :
    decodeComponent (table.description dst) block chan =
      decodeComponent (table.description src) block chan := by
  rcases compatible_cases compatible with same | ⟨-,-,-,count,-,sizes,swizzles⟩
  · rw [table.description_format,table.description_format] at same
    rw [same]
  · have entry := swizzles chan inRange
    simp only [swizzleCompatible,named,Bool.and_eq_true,beq_iff_eq] at entry
    obtain ⟨⟨sameEntry,type⟩,normalized⟩ := entry
    simp only [decodeComponent,sameEntry,named]
    exact decodeChannel_congr type.symm normalized.symm (sizes c (PipeSwizzle.channel?_lt named)).symm
      (shift_eq_of_sizes srcPacked dstPacked count sizes (channels chan inRange c named)
        (PipeSwizzle.channel?_lt named)).symm block

/-- The `size` bytes of a buffer from `p` as one number, the first byte lowest: a block's
bits as the descriptors' shifts count them. -/
def blockBits (bytes : Int → UInt8) (p : Int) : Nat → Nat
  | 0 => 0
  | size + 1 => (bytes p).toNat + 2^8 * blockBits bytes (p + 1) size

theorem blockBits_congr {bytes bytes' : Int → UInt8} : ∀ (p p' : Int) (size : Nat),
    (∀ b < size, bytes (p + b) = bytes' (p' + b)) → blockBits bytes p size = blockBits bytes' p' size
  | _, _, 0, _ => rfl
  | p, p', size + 1, same => by
    have first : bytes p = bytes' p' := by simpa using same 0 (by omega)
    have rest := blockBits_congr (p + 1) (p' + 1) size fun b below => by
      convert same (b + 1) (by omega) using 2 <;> omega
    simp only [blockBits,first,rest]

theorem translate_compatible (table : FormatTable) (caps : Capabilities) (malloc : Nat → Bool)
    {src dst : PipeFormat}
    (compatible : utilIsFormatCompatible (table.description src) (table.description dst) = true)
    (dstStride dstX dstY srcStride srcX srcY width height : Nat) :
    utilFormatTranslate table caps malloc dst dstStride dstX dstY src srcStride srcX srcY width height =
      (true, utilCopyRect (table.description dst) dstStride dstX dstY width height (int32 srcStride)
        srcX srcY) := by
  simp [utilFormatTranslate,compatible]

end Mesa.Format

import Mathlib.Algebra.Group.Nat.Basic
import Mathlib.Algebra.Group.Int
import Mathlib.Data.Nat.Bitwise
import Mesa.Nir.GlslType

/-! NIR shaders as the linking helpers see them: the variable list, the entry point's
instructions that load and store variables, and the slot masks of `shader_info`. Masks
are the code's `uint64_t` and `uint32_t`. -/
namespace Mesa.Nir

/-- `gl_varying_slot`: built-in slots below `VARYING_SLOT_VAR0 = 32`, then `MAX_VARYING = 32`
generic slots, then the same number of per-patch slots from `VARYING_SLOT_PATCH0`. -/
def varyingSlotVar0 : Nat := 32
def maxVarying : Nat := 32
def varyingSlotPatch0 : Nat := varyingSlotVar0 + maxVarying
def varyingSlotTessMax : Nat := varyingSlotPatch0 + maxVarying
def maxVaryingsInclPatch : Nat := varyingSlotTessMax - varyingSlotVar0

@[simp] theorem varyingSlotVar0_eq : varyingSlotVar0 = 32 := rfl
@[simp] theorem maxVarying_eq : maxVarying = 32 := rfl
@[simp] theorem varyingSlotPatch0_eq : varyingSlotPatch0 = 64 := rfl
@[simp] theorem varyingSlotTessMax_eq : varyingSlotTessMax = 96 := rfl
@[simp] theorem maxVaryingsInclPatch_eq : maxVaryingsInclPatch = 64 := rfl

inductive GlShaderStage
  | vertex | tessCtrl | tessEval | geometry | fragment | compute
  deriving DecidableEq, Repr

inductive NirVariableMode
  | shaderIn | shaderOut | systemValue | shaderTemp | other
  deriving DecidableEq, Repr

/-- `nir_variable` with the `data` fields the linking helpers read or write.
`location_frac` is a two-bit field and `index` a one-bit field. -/
structure NirVariable where
  type : GlslType
  mode : NirVariableMode
  location : Int
  locationFrac : Nat
  interpolation : Nat
  centroid : Bool
  sample : Bool
  patch : Bool
  perView : Bool
  alwaysActiveIo : Bool
  explicitXfbBuffer : Bool
  compact : Bool
  index : Fin 2
  locationFrac_lt : locationFrac < 4
  deriving DecidableEq

/-- A variable of a mode at a location and component, with every flag clear. -/
def NirVariable.plain (type : GlslType) (mode : NirVariableMode) (location : Int)
    (component : Fin 4) : NirVariable :=
  ⟨type,mode,location,component,0,false,false,false,false,false,false,false,0,component.isLt⟩

/-- What a `store_deref` writes: the value of a `load_const`, or another SSA definition. -/
inductive StoreValue
  | const (value : Nat)
  | ssa (definition : Nat)
  deriving DecidableEq, Repr

/-- The instructions the helpers look at; variables are named by their place in the
shader's variable list. `interpDeref` is any of the `interp_deref_at_*` intrinsics. -/
inductive NirInstr
  | loadDeref (dest var : Nat)
  | interpDeref (dest var : Nat)
  | storeDeref (var : Nat) (value : StoreValue)
  | other
  deriving DecidableEq, Repr

structure NirShader where
  stage : GlShaderStage
  vars : List NirVariable
  blocks : List (List NirInstr)
  inputsRead : BitVec 64
  outputsWritten : BitVec 64
  outputsRead : BitVec 64
  patchInputsRead : BitVec 32
  patchOutputsWritten : BitVec 32
  patchOutputsRead : BitVec 32

/-- A shader whose `shader_info` masks are clear. -/
def NirShader.ofVars (stage : GlShaderStage) (vars : List NirVariable) (blocks : List (List NirInstr)) :
    NirShader :=
  ⟨stage,vars,blocks,0,0,0,0,0,0⟩

/-- The entry point's instructions in `nir_foreach_block`/`nir_foreach_instr` order. -/
def NirShader.instrs (shader : NirShader) : List NirInstr := shader.blocks.flatten

/-- `nir_is_per_vertex_io`. -/
def nirIsPerVertexIo (var : NirVariable) (stage : GlShaderStage) : Bool :=
  if var.patch || !var.type.isArray then false
  else match var.mode with
    | .shaderIn => stage == .geometry || stage == .tessCtrl || stage == .tessEval
    | .shaderOut => stage == .tessCtrl
    | _ => false

/-- The type of one vertex's (or one view's) copy of an I/O variable. -/
def ioType (var : NirVariable) (stage : GlShaderStage) : GlslType :=
  if nirIsPerVertexIo var stage || var.perView then var.type.arrayElement else var.type

/-- The slots a variable takes: `glsl_count_attribute_slots` of its per-vertex type. -/
def slotCount (var : NirVariable) (stage : GlShaderStage) : Nat :=
  (ioType var stage).countAttributeSlots

/-- The variable's first bit in its stage's masks: patch slots count from
`VARYING_SLOT_PATCH0` (`location - loc_offset` in the code). -/
def maskIndex (var : NirVariable) : Int :=
  if var.patch then var.location - varyingSlotPatch0 else var.location

/-- An `int` converted to `unsigned`. -/
def unsignedOf (n : Int) : Nat := (n % 2^32).toNat

/-- C's `<<` on a `uint64_t`: the machine takes the count mod 64. -/
def shl64 (x : BitVec 64) (n : Nat) : BitVec 64 := x <<< (n % 64)

/-- `BITFIELD64_BIT`. -/
def bitfield64Bit (b : Nat) : BitVec 64 := shl64 1 b

/-- `BITFIELD64_MASK`. -/
def bitfield64Mask (b : Nat) : BitVec 64 := if b = 64 then BitVec.allOnes 64 else bitfield64Bit b - 1

/-- `BITFIELD64_RANGE`. -/
def bitfield64Range (b count : Nat) : BitVec 64 :=
  bitfield64Mask (unsignedOf (b + count)) &&& ~~~bitfield64Mask b

/-- One of the code's four-entry mask arrays, indexed by `location_frac`. -/
abbrev MaskArray := Nat → BitVec 64

/-- `array[i] |= mask`. -/
def MaskArray.orAt (masks : MaskArray) (i : Nat) (mask : BitVec 64) : MaskArray :=
  fun j => if j = i then masks j ||| mask else masks j

@[simp] theorem MaskArray.orAt_apply (masks : MaskArray) (i j : Nat) (mask : BitVec 64) :
    masks.orAt i mask j = if j = i then masks j ||| mask else masks j := rfl

theorem shl64_getLsbD (x : BitVec 64) (n i : Nat) :
    (shl64 x n).getLsbD i = (decide (i < 64) && !decide (i < n % 64) && x.getLsbD (i - n % 64)) :=
  BitVec.getLsbD_shiftLeft x (n % 64)

theorem shl64_one_toNat {n : Nat} (small : n < 64) : (shl64 1 n).toNat = 2^n := by
  rw [shl64,Nat.mod_eq_of_lt small,BitVec.toNat_shiftLeft]
  simpa [Nat.shiftLeft_eq] using Nat.pow_lt_pow_right (by omega) small

theorem shl64_one_sub_one_getLsbD {n : Nat} (small : n < 64) (i : Nat) :
    (shl64 1 n - 1).getLsbD i = decide (i < n) := by
  have below : 2^n < 2^64 := Nat.pow_lt_pow_right (by omega) small
  have toNat : (shl64 1 n - 1).toNat = 2^n - 1 := by
    have one : (1 : BitVec 64).toNat = 1 := rfl
    rw [BitVec.toNat_sub,shl64_one_toNat small,one]
    have := Nat.two_pow_pos n
    omega
  rw [← BitVec.testBit_toNat,toNat,Nat.testBit_two_pow_sub_one]

theorem bitfield64Mask_getLsbD {n : Nat} (bound : n ≤ 64) (i : Nat) :
    (bitfield64Mask n).getLsbD i = decide (i < n ∧ i < 64) := by
  unfold bitfield64Mask bitfield64Bit
  split
  · subst n; rw [BitVec.getLsbD_allOnes]; simp
  · rw [shl64_one_sub_one_getLsbD (by omega),decide_eq_decide]
    omega

theorem bitfield64Range_getLsbD {b count : Nat} (bound : b + count ≤ 64) (i : Nat) :
    (bitfield64Range b count).getLsbD i = decide (b ≤ i ∧ i < b + count) := by
  have wrap : unsignedOf (↑b + ↑count) = b + count := by unfold unsignedOf; omega
  rw [bitfield64Range,wrap]
  simp only [BitVec.getLsbD_and,BitVec.getLsbD_not,bitfield64Mask_getLsbD bound,
    bitfield64Mask_getLsbD (by omega : b ≤ 64),← decide_not,← Bool.decide_and,decide_eq_decide]
  omega

theorem bitfield64Bit_getLsbD {b : Nat} (small : b < 64) (i : Nat) :
    (bitfield64Bit b).getLsbD i = decide (i = b) := by
  simp only [bitfield64Bit,shl64,Nat.mod_eq_of_lt small,BitVec.getLsbD_shiftLeft,BitVec.getLsbD_one]
  by_cases eq : i = b
  · subst eq; simp [small]
  · simp [eq]; omega

end Mesa.Nir

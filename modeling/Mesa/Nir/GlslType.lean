import Mathlib.Logic.Basic

/-! GLSL types as the linking helpers query them through `glsl_*`. A struct or interface
block is kept as the number of slots its fields take, the only thing the helpers read
of it. -/
namespace Mesa.Nir

inductive GlslBaseType
  | float16 | float | double | int8 | uint8 | int16 | uint16 | int | uint | int64 | uint64 | bool
  deriving DecidableEq, Repr

def GlslBaseType.is32bit : GlslBaseType → Bool
  | .float | .int | .uint => true
  | _ => false

def GlslBaseType.is64bit : GlslBaseType → Bool
  | .double | .int64 | .uint64 => true
  | _ => false

def GlslBaseType.isInteger : GlslBaseType → Bool
  | .int8 | .uint8 | .int16 | .uint16 | .int | .uint | .int64 | .uint64 => true
  | _ => false

/-- `const struct glsl_type *`: a scalar is a vector of one element. -/
inductive GlslType
  | vector (base : GlslBaseType) (elements : Nat)
  | matrix (base : GlslBaseType) (columns rows : Nat)
  | array (element : GlslType) (length : Nat)
  | struct (slots : Nat)
  deriving DecidableEq, Repr

namespace GlslType

def isScalar : GlslType → Bool
  | vector _ 1 => true
  | _ => false

def isVectorOrScalar : GlslType → Bool
  | vector .. => true
  | _ => false

def isArray : GlslType → Bool
  | array .. => true
  | _ => false

def isMatrix : GlslType → Bool
  | matrix .. => true
  | _ => false

def isStructOrIfc : GlslType → Bool
  | struct _ => true
  | _ => false

def is32bit : GlslType → Bool
  | vector base _ | matrix base .. => base.is32bit
  | _ => false

def is64bit : GlslType → Bool
  | vector base _ | matrix base .. => base.is64bit
  | _ => false

def isInteger : GlslType → Bool
  | vector base _ => base.isInteger
  | _ => false

/-- `glsl_get_vector_elements`: the rows of a matrix, nothing for an aggregate. -/
def vectorElements : GlslType → Nat
  | vector _ elements => elements
  | matrix _ _ rows => rows
  | _ => 0

/-- `glsl_type_is_dual_slot`: a 64-bit vector or matrix column of more than two elements. -/
def isDualSlot (type : GlslType) : Bool := type.is64bit && 2 < type.vectorElements

def withoutArray : GlslType → GlslType
  | array element _ => withoutArray element
  | type => type

def arrayElement : GlslType → GlslType
  | array element _ => element
  | type => type

/-- `glsl_get_length` of an array. -/
def length : GlslType → Nat
  | array _ length => length
  | matrix _ columns _ => columns
  | _ => 0

/-- `glsl_count_attribute_slots(type, false)`: dual-slot columns take two slots. -/
def countAttributeSlots : GlslType → Nat
  | vector base elements => if base.is64bit && 2 < elements then 2 else 1
  | matrix base columns rows => if base.is64bit && 2 < rows then 2 * columns else columns
  | array element length => length * countAttributeSlots element
  | struct slots => slots

@[simp] theorem countAttributeSlots_scalar {type : GlslType} (scalar : type.isScalar = true) :
    type.countAttributeSlots = 1 := by
  cases type with
  | vector base elements =>
    cases elements with
    | zero => simp [isScalar] at scalar
    | succ n => cases n <;> simp_all [isScalar,countAttributeSlots]
  | _ => simp [isScalar] at scalar

end GlslType

end Mesa.Nir

import Mesa.Nir.RemoveUnused

/-! `remap_slots_and_components`: moving a stage's generic varyings to the places the
remap table gives, and recomputing the slot masks from the moved variables. -/
namespace Mesa.Nir

/-- `struct varying_loc`. -/
structure VaryingLoc where
  component : Nat
  location : Nat
  deriving DecidableEq, Repr

/-- `struct varying_loc remap[MAX_VARYINGS_INCL_PATCH][4]`, row by row. -/
def RemapTable := List VaryingLoc

/-- The zero-initialised table. -/
def RemapTable.zero : RemapTable := List.replicate (maxVaryingsInclPatch * 4) ⟨0,0⟩

/-- `remap[location][frac]`. -/
def RemapTable.get (remap : RemapTable) (location frac : Nat) : VaryingLoc :=
  List.getD remap (location * 4 + frac) ⟨0,0⟩

def RemapTable.set (remap : RemapTable) (location frac : Nat) (entry : VaryingLoc) : RemapTable :=
  List.set remap (location * 4 + frac) entry

/-- The test that skips built-ins: `location >= VARYING_SLOT_VAR0 &&
location - VARYING_SLOT_VAR0 < MAX_VARYINGS_INCL_PATCH`. -/
def isGenericLocation (location : Int) : Bool :=
  decide (varyingSlotVar0 ≤ location ∧ location - varyingSlotVar0 < maxVaryingsInclPatch)

/-- The `if (new_loc->location)` update; `location_frac` is a two-bit field. -/
def remapVariable (remap : RemapTable) (var : NirVariable) : NirVariable :=
  let newLoc := remap.get (var.location - varyingSlotVar0).toNat var.locationFrac
  if newLoc.location = 0 then var
  else
    { var with
      location := newLoc.location
      locationFrac := newLoc.component % 4
      locationFrac_lt := Nat.mod_lt _ (by decide) }

/-- One of the two-entry `uint64_t` arrays of `remap_slots_and_components`: entry 0 for
non-patch slots, entry 1 for patch slots. -/
structure SlotPair where
  nonPatch : BitVec 64
  patch : BitVec 64

def SlotPair.get (pair : SlotPair) (patch : Bool) : BitVec 64 :=
  if patch then pair.patch else pair.nonPatch

def SlotPair.orAt (pair : SlotPair) (patch : Bool) (mask : BitVec 64) : SlotPair :=
  if patch then { pair with patch := pair.patch ||| mask } else { pair with nonPatch := pair.nonPatch ||| mask }

/-- `mark_all_used_slots`. -/
def markAllUsedSlots (var : NirVariable) (slotsUsed : SlotPair) (slotsUsedMask : BitVec 64)
    (numSlots : Nat) : SlotPair :=
  slotsUsed.orAt var.patch (slotsUsedMask &&& bitfield64Range (unsignedOf (maskIndex var)) numSlots)

/-- `mark_used_slot`. -/
def markUsedSlot (var : NirVariable) (slotsUsed : SlotPair) (offset : Nat) : SlotPair :=
  slotsUsed.orAt var.patch (bitfield64Bit (unsignedOf (maskIndex var + offset)))

/-- The masks `remap_slots_and_components` reads and replaces: `slots_used`,
`out_slots_read`, `p_slots_used`, `p_out_slots_read`. -/
structure StageMasks where
  slotsUsed : BitVec 64
  outSlotsRead : BitVec 64
  pSlotsUsed : BitVec 32
  pOutSlotsRead : BitVec 32

/-- The mask the code reads for a variable of this patch-ness: `used` from `slots_used`,
`outs_used` from `out_slots_read`. -/
def StageMasks.used (masks : StageMasks) (patch : Bool) : BitVec 64 :=
  if patch then masks.pSlotsUsed.setWidth 64 else masks.slotsUsed

def StageMasks.outsUsed (masks : StageMasks) (patch : Bool) : BitVec 64 :=
  if patch then masks.pOutSlotsRead.setWidth 64 else masks.outSlotsRead

/-- What the loop body marks in one of the two arrays, from the old mask it tested: nothing
when the variable's old slots miss that mask; else the old mask over the new slots for an
always-active variable, and every new slot for the others. -/
def markSlots (stage : GlShaderStage) (remap : RemapTable) (var : NirVariable) (tmp : SlotPair)
    (mask : BitVec 64) : SlotPair :=
  let numSlots := slotCount var stage
  let newVar := remapVariable remap var
  if bitfield64Range (unsignedOf (maskIndex var)) numSlots &&& mask = 0 then tmp
  else if var.alwaysActiveIo then markAllUsedSlots newVar tmp mask numSlots
  else (List.range numSlots).foldl (markUsedSlot newVar) tmp

/-- The loop body of `remap_slots_and_components` on a generic variable, on
`slots_used_tmp` and `out_slots_read_tmp`. -/
def remapStep (stage : GlShaderStage) (remap : RemapTable) (masks : StageMasks)
    (tmp : SlotPair × SlotPair) (var : NirVariable) : SlotPair × SlotPair :=
  (markSlots stage remap var tmp.1 (masks.used var.patch),
    markSlots stage remap var tmp.2 (masks.outsUsed var.patch))

/-- The variables of the mode that the pass remaps. -/
def NirShader.genericVars (shader : NirShader) (mode : NirVariableMode) : List NirVariable :=
  shader.vars.filter fun var => var.mode == mode && isGenericLocation var.location

/-- `remap_slots_and_components`: the moved variables and the new masks. Built-in bits of
`slots_used` are copied; the other three masks start from zero. -/
def remapSlotsAndComponents (shader : NirShader) (mode : NirVariableMode) (remap : RemapTable)
    (masks : StageMasks) : NirShader × StageMasks :=
  let tmp := (shader.genericVars mode).foldl (remapStep shader.stage remap masks)
    (⟨masks.slotsUsed &&& bitfield64Range 0 varyingSlotVar0,0⟩,⟨0,0⟩)
  ({ shader with vars := shader.vars.map fun var =>
      if var.mode == mode && isGenericLocation var.location then remapVariable remap var else var },
    ⟨tmp.1.nonPatch,tmp.2.nonPatch,tmp.1.patch.setWidth 32,tmp.2.patch.setWidth 32⟩)

@[simp] theorem remapVariable_patch (remap : RemapTable) (var : NirVariable) :
    (remapVariable remap var).patch = var.patch := by
  unfold remapVariable; dsimp only; split <;> rfl

@[simp] theorem remapVariable_alwaysActiveIo (remap : RemapTable) (var : NirVariable) :
    (remapVariable remap var).alwaysActiveIo = var.alwaysActiveIo := by
  unfold remapVariable; dsimp only; split <;> rfl

@[simp] theorem remapVariable_type (remap : RemapTable) (var : NirVariable) :
    (remapVariable remap var).type = var.type := by
  unfold remapVariable; dsimp only; split <;> rfl

@[simp] theorem remapVariable_mode (remap : RemapTable) (var : NirVariable) :
    (remapVariable remap var).mode = var.mode := by
  unfold remapVariable; dsimp only; split <;> rfl

@[simp] theorem remapVariable_interpolation (remap : RemapTable) (var : NirVariable) :
    (remapVariable remap var).interpolation = var.interpolation := by
  unfold remapVariable; dsimp only; split <;> rfl

@[simp] theorem remapVariable_sample (remap : RemapTable) (var : NirVariable) :
    (remapVariable remap var).sample = var.sample := by
  unfold remapVariable; dsimp only; split <;> rfl

@[simp] theorem remapVariable_centroid (remap : RemapTable) (var : NirVariable) :
    (remapVariable remap var).centroid = var.centroid := by
  unfold remapVariable; dsimp only; split <;> rfl

@[simp] theorem remapVariable_perView (remap : RemapTable) (var : NirVariable) :
    (remapVariable remap var).perView = var.perView := by
  unfold remapVariable; dsimp only; split <;> rfl

end Mesa.Nir

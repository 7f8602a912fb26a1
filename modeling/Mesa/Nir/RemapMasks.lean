import Mesa.Nir.CompactMoves

/-! The masks `remap_slots_and_components` leaves, bit by bit, and what the two calls of
`compact_components` make of a stage's masks when one varying moves into another's slot. -/
namespace Mesa.Nir

theorem SlotPair.orAt_get (pair : SlotPair) (patch q : Bool) (mask : BitVec 64) (b : Nat) :
    ((pair.orAt patch mask).get q).getLsbD b = true ↔
      (pair.get q).getLsbD b = true ∨ (patch = q ∧ mask.getLsbD b = true) := by
  cases patch <;> cases q <;> simp [SlotPair.orAt,SlotPair.get]

/-- The bits of an index range, for a range inside the 64 bits. -/
def InRange (first : Int) (count b : Nat) : Prop := first ≤ b ∧ b < first + count

theorem range_getLsbD {first : Int} {count : Nat} (index : 0 ≤ first) (fits : first + count ≤ 64)
    (b : Nat) : (bitfield64Range (unsignedOf first) count).getLsbD b = true ↔ InRange first count b := by
  have unsigned : unsignedOf first = first.toNat := by unfold unsignedOf; omega
  rw [unsigned,bitfield64Range_getLsbD (by omega),decide_eq_true_iff]
  unfold InRange; omega

theorem range_and_ne_zero {first : Int} {count : Nat} (index : 0 ≤ first) (fits : first + count ≤ 64)
    (mask : BitVec 64) :
    ¬bitfield64Range (unsignedOf first) count &&& mask = 0 ↔
      ∃ c, InRange first count c ∧ mask.getLsbD c = true := by
  rw [and_eq_zero_iff]
  simp only [range_getLsbD index fits,not_forall,not_not]

theorem markAllUsedSlots_get {var : NirVariable} {count : Nat} (index : 0 ≤ maskIndex var)
    (fits : maskIndex var + count ≤ 64) (tmp : SlotPair) (mask : BitVec 64) (q : Bool) (b : Nat) :
    ((markAllUsedSlots var tmp mask count).get q).getLsbD b = true ↔ (tmp.get q).getLsbD b = true ∨
      (var.patch = q ∧ mask.getLsbD b = true ∧ InRange (maskIndex var) count b) := by
  rw [markAllUsedSlots,SlotPair.orAt_get,BitVec.getLsbD_and,Bool.and_eq_true,range_getLsbD index fits]

theorem markUsedSlot_foldl_get {var : NirVariable} (index : 0 ≤ maskIndex var) (count : Nat)
    (fits : maskIndex var + count ≤ 64) (tmp : SlotPair) (q : Bool) (b : Nat) :
    (((List.range count).foldl (markUsedSlot var) tmp).get q).getLsbD b = true ↔
      (tmp.get q).getLsbD b = true ∨ (var.patch = q ∧ InRange (maskIndex var) count b) := by
  induction count with
  | zero => exact ⟨Or.inl,fun held => held.elim id fun ⟨_,range⟩ => by unfold InRange at range; omega⟩
  | succ n ih =>
    have unsigned : unsignedOf (maskIndex var + n) = (maskIndex var).toNat + n := by
      unfold unsignedOf; omega
    rw [List.range_succ,List.foldl_append,List.foldl_cons,List.foldl_nil,markUsedSlot,
      SlotPair.orAt_get,ih (by omega),unsigned,bitfield64Bit_getLsbD (by omega),decide_eq_true_iff]
    unfold InRange
    have extend : (maskIndex var ≤ b ∧ b < maskIndex var + n) ∨ b = (maskIndex var).toNat + n ↔
        maskIndex var ≤ b ∧ b < maskIndex var + (n + 1 : Nat) := by omega
    rw [← extend,or_assoc,and_or_left]

/-- The slots of a generic variable, before and after the remap, lie in its index space. -/
def RemapFits (stage : GlShaderStage) (remap : RemapTable) (var : NirVariable) : Prop :=
  let bound : Int := if var.patch then 32 else 64
  0 ≤ maskIndex var ∧ maskIndex var + slotCount var stage ≤ bound ∧
    0 ≤ maskIndex (remapVariable remap var) ∧
      maskIndex (remapVariable remap var) + slotCount var stage ≤ bound

instance (stage : GlShaderStage) (remap : RemapTable) (var : NirVariable) :
    Decidable (RemapFits stage remap var) :=
  inferInstanceAs (Decidable (_ ∧ _ ∧ _ ∧ _))

/-- The marks a variable's loop body leaves from an old mask: its old slots meet the mask,
the bit is one of its new slots, and an always-active variable carries the old bit there. -/
def Marks (stage : GlShaderStage) (remap : RemapTable) (mask : BitVec 64) (var : NirVariable)
    (b : Nat) : Prop :=
  (∃ c, InRange (maskIndex var) (slotCount var stage) c ∧ mask.getLsbD c = true) ∧
    InRange (maskIndex (remapVariable remap var)) (slotCount var stage) b ∧
      (var.alwaysActiveIo = true → mask.getLsbD b = true)

theorem markSlots_get {stage : GlShaderStage} {remap : RemapTable} {var : NirVariable}
    (fits : RemapFits stage remap var) (tmp : SlotPair) (mask : BitVec 64) (q : Bool) (b : Nat) :
    ((markSlots stage remap var tmp mask).get q).getLsbD b = true ↔
      (tmp.get q).getLsbD b = true ∨ (var.patch = q ∧ Marks stage remap mask var b) := by
  obtain ⟨index,oldFits,newIndex,newFits⟩ := fits
  have old64 : maskIndex var + slotCount var stage ≤ 64 := by split at oldFits <;> omega
  have new64 : maskIndex (remapVariable remap var) + slotCount var stage ≤ 64 := by
    split at newFits <;> omega
  unfold markSlots Marks
  dsimp only
  split_ifs with zero active
  · have none : ¬∃ c, InRange (maskIndex var) (slotCount var stage) c ∧ mask.getLsbD c = true :=
      fun hit => (range_and_ne_zero index old64 mask).mpr hit zero
    simp only [none,false_and,and_false,or_false]
  · rw [markAllUsedSlots_get newIndex new64,remapVariable_patch]
    simp only [(range_and_ne_zero index old64 mask).mp zero,active,true_and,forall_const]
    exact or_congr_right (and_congr_right fun _ => and_comm)
  · rw [markUsedSlot_foldl_get newIndex _ new64,remapVariable_patch]
    simp [(range_and_ne_zero index old64 mask).mp zero,active]

/-- The loop of `remap_slots_and_components` sets exactly the marks of its variables. -/
theorem remapStep_foldl_get {stage : GlShaderStage} {remap : RemapTable} {masks : StageMasks}
    (vars : List NirVariable) (fits : ∀ var ∈ vars, RemapFits stage remap var)
    (tmp : SlotPair × SlotPair) (q : Bool) (b : Nat) :
    (((vars.foldl (remapStep stage remap masks) tmp).1.get q).getLsbD b = true ↔
      (tmp.1.get q).getLsbD b = true ∨ ∃ var ∈ vars, var.patch = q ∧ Marks stage remap (masks.used q) var b) ∧
    (((vars.foldl (remapStep stage remap masks) tmp).2.get q).getLsbD b = true ↔
      (tmp.2.get q).getLsbD b = true ∨ ∃ var ∈ vars, var.patch = q ∧ Marks stage remap (masks.outsUsed q) var b) := by
  induction vars generalizing tmp with
  | nil => simp
  | cons var vars ih =>
    have tail := ih fun var member => fits var (List.mem_cons_of_mem _ member)
    rw [List.foldl_cons,(tail _).1,(tail _).2]
    simp only [remapStep,markSlots_get (fits var (List.mem_cons_self _ _)),List.mem_cons,
      exists_eq_or_imp,or_assoc]
    constructor <;> constructor <;> rintro (h | ⟨same,marks⟩ | h) <;> first
      | exact .inl h | exact .inr (.inr h) | (subst same; exact .inr (.inl ⟨rfl,marks⟩))

/-- Some generic variable of the mode and of the patch-ness marks bit `b` from the old mask. -/
def MarkedBy (shader : NirShader) (mode : NirVariableMode) (remap : RemapTable) (patch : Bool)
    (mask : BitVec 64) (b : Nat) : Prop :=
  ∃ var ∈ shader.genericVars mode, var.patch = patch ∧ Marks shader.stage remap mask var b

theorem MarkedBy.lt_32 {shader : NirShader} {mode : NirVariableMode} {remap : RemapTable}
    (fits : ∀ var ∈ shader.genericVars mode, RemapFits shader.stage remap var) {mask : BitVec 64}
    {b : Nat} (marked : MarkedBy shader mode remap true mask b) : b < 32 := by
  obtain ⟨var,member,patch,-,range,-⟩ := marked
  have := (fits var member).2.2.2
  simp only [patch,if_true] at this
  unfold InRange at range
  omega

theorem remapSlotsAndComponents_outSlotsRead (shader : NirShader) (mode : NirVariableMode)
    (remap : RemapTable) (masks : StageMasks)
    (fits : ∀ var ∈ shader.genericVars mode, RemapFits shader.stage remap var) (b : Nat) :
    (remapSlotsAndComponents shader mode remap masks).2.outSlotsRead.getLsbD b = true ↔
      MarkedBy shader mode remap false masks.outSlotsRead b := by
  have nonPatch := (@remapStep_foldl_get _ _ masks _ fits
    (⟨masks.slotsUsed &&& bitfield64Range 0 varyingSlotVar0,0⟩,⟨0,0⟩) false b).2
  simpa [SlotPair.get,StageMasks.outsUsed] using nonPatch

/-- The slip in `remap_slots_and_components`: `slots_used_tmp` starts from the built-in bits
of `slots_used` ("We don't touch builtins so just copy the bitmask"), but `out_slots_read_tmp`
starts from zero and only generic variables mark it, so every built-in bit of `out_slots_read`
is cleared by a table that moves variables only to generic slots, as `compact_components`'s do. -/
theorem remapSlotsAndComponents_clears_builtin_reads (shader : NirShader) (mode : NirVariableMode)
    {remap : RemapTable} (table : remap.Generic) (masks : StageMasks)
    (fits : ∀ var ∈ shader.genericVars mode, RemapFits shader.stage remap var) {b : Nat}
    (builtin : b < varyingSlotVar0) :
    (remapSlotsAndComponents shader mode remap masks).2.outSlotsRead.getLsbD b = false := by
  refine Bool.eq_false_iff.mpr fun set => ?_
  obtain ⟨var,member,nonPatch,-,range,-⟩ :=
    (remapSlotsAndComponents_outSlotsRead shader mode remap masks fits b).mp set
  have moved := isGenericLocation_remapVariable table var
    (by simp only [NirShader.genericVars,List.mem_filter,Bool.and_eq_true] at member; exact member.2.2)
  simp only [isGenericLocation,decide_eq_true_eq] at moved
  simp only [InRange,maskIndex,remapVariable_patch,nonPatch,Bool.false_eq_true,if_false] at range
  omega

/-- The masks `remap_slots_and_components` leaves, bit by bit: a built-in bit of `slots_used`
keeps its value; every other bit of it, every generic bit of `out_slots_read` and every bit of
the two patch masks is set exactly when a generic variable of the mode and of the mask's
patch-ness marks it from the old mask. -/
theorem remap_slots_masks (shader : NirShader) (mode : NirVariableMode) (remap : RemapTable)
    (masks : StageMasks) (fits : ∀ var ∈ shader.genericVars mode, RemapFits shader.stage remap var)
    (b : Nat) :
    ((remapSlotsAndComponents shader mode remap masks).2.slotsUsed.getLsbD b = true ↔
      (b < varyingSlotVar0 ∧ masks.slotsUsed.getLsbD b = true) ∨
        MarkedBy shader mode remap false masks.slotsUsed b) ∧
    (varyingSlotVar0 ≤ b → ((remapSlotsAndComponents shader mode remap masks).2.outSlotsRead.getLsbD b = true ↔
      MarkedBy shader mode remap false masks.outSlotsRead b)) ∧
    ((remapSlotsAndComponents shader mode remap masks).2.pSlotsUsed.getLsbD b = true ↔
      MarkedBy shader mode remap true (masks.pSlotsUsed.setWidth 64) b) ∧
    ((remapSlotsAndComponents shader mode remap masks).2.pOutSlotsRead.getLsbD b = true ↔
      MarkedBy shader mode remap true (masks.pOutSlotsRead.setWidth 64) b) := by
  have nonPatch := @remapStep_foldl_get _ _ masks _ fits
    (⟨masks.slotsUsed &&& bitfield64Range 0 varyingSlotVar0,0⟩,⟨0,0⟩) false b
  have patch := @remapStep_foldl_get _ _ masks _ fits
    (⟨masks.slotsUsed &&& bitfield64Range 0 varyingSlotVar0,0⟩,⟨0,0⟩) true b
  have zero : ∀ i, (0 : BitVec 64).getLsbD i = false := fun i => by simp
  simp only [SlotPair.get,StageMasks.used,StageMasks.outsUsed,if_false,if_true,
    zero,Bool.false_eq_true,false_or] at nonPatch patch
  simp only [remapSlotsAndComponents,BitVec.getLsbD_setWidth,Bool.and_eq_true,decide_eq_true_eq,
    MarkedBy]
  refine ⟨?_,fun _ => remapSlotsAndComponents_outSlotsRead shader mode remap masks fits b,?_,?_⟩
  · rw [nonPatch.1,BitVec.getLsbD_and,Bool.and_eq_true,bitfield64Range_getLsbD (by simp),
      decide_eq_true_eq]
    simp only [varyingSlotVar0_eq]
    constructor <;> rintro (⟨bit,range⟩ | marked)
    exacts [.inl ⟨range.2,bit⟩,.inr marked,.inl ⟨range,by omega⟩,.inr marked]
  · rw [patch.1]
    exact ⟨And.right,fun marked => ⟨MarkedBy.lt_32 fits marked,marked⟩⟩
  · rw [patch.2]
    exact ⟨And.right,fun marked => ⟨MarkedBy.lt_32 fits marked,marked⟩⟩

/-- A fragment shader with float scalars at `VAR0.x` and `VAR1.x`, and a table moving the
second to `VAR0.y`. -/
def fsTwoScalars : NirShader :=
  .ofVars .fragment [.plain (.vector .float 1) .shaderIn 32 0,.plain (.vector .float 1) .shaderIn 33 0] []

def moveSecondScalar : RemapTable := RemapTable.zero.set 1 0 ⟨1,32⟩

theorem remap_two_scalars :
    (∀ var ∈ fsTwoScalars.genericVars .shaderIn, RemapFits fsTwoScalars.stage moveSecondScalar var) ∧
    ((remapSlotsAndComponents fsTwoScalars .shaderIn moveSecondScalar ⟨BitVec.ofNat 64 (2^32),0,0,0⟩).2.slotsUsed.getLsbD 32 = true ↔
      (32 < varyingSlotVar0 ∧ (BitVec.ofNat 64 (2^32)).getLsbD 32 = true) ∨
        MarkedBy fsTwoScalars .shaderIn moveSecondScalar false (BitVec.ofNat 64 (2^32)) 32) ∧
    (varyingSlotVar0 ≤ 32 → ((remapSlotsAndComponents fsTwoScalars .shaderIn moveSecondScalar
      ⟨BitVec.ofNat 64 (2^32),0,0,0⟩).2.outSlotsRead.getLsbD 32 = true ↔
        MarkedBy fsTwoScalars .shaderIn moveSecondScalar false 0 32)) ∧
    ((remapSlotsAndComponents fsTwoScalars .shaderIn moveSecondScalar ⟨BitVec.ofNat 64 (2^32),0,0,0⟩).2.pSlotsUsed.getLsbD 32 = true ↔
      MarkedBy fsTwoScalars .shaderIn moveSecondScalar true ((0 : BitVec 32).setWidth 64) 32) ∧
    ((remapSlotsAndComponents fsTwoScalars .shaderIn moveSecondScalar ⟨BitVec.ofNat 64 (2^32),0,0,0⟩).2.pOutSlotsRead.getLsbD 32 = true ↔
      MarkedBy fsTwoScalars .shaderIn moveSecondScalar true ((0 : BitVec 32).setWidth 64) 32) :=
  have fits : ∀ var ∈ fsTwoScalars.genericVars .shaderIn, RemapFits fsTwoScalars.stage moveSecondScalar var := by
    decide
  ⟨fits,remap_slots_masks fsTwoScalars .shaderIn moveSecondScalar ⟨BitVec.ofNat 64 (2^32),0,0,0⟩ fits 32⟩

/-- Float scalars at `VAR0.x` and `VAR1.x`; the vertex shader reads back `gl_Position`
(`outputs_read` bit 0), the fragment shader's `inputs_read` has only `VAR0`. -/
def vsReadBack : NirShader :=
  ⟨.vertex,[.plain (.vector .float 1) .shaderOut 32 0,.plain (.vector .float 1) .shaderOut 33 0],[],
    0,BitVec.ofNat 64 (2^33 + 2^32 + 1),1,0,0,0⟩

def fsFirstRead : NirShader :=
  ⟨.fragment,[.plain (.vector .float 1) .shaderIn 32 0,.plain (.vector .float 1) .shaderIn 33 0],
    [[.loadDeref 0 0,.loadDeref 1 1]],BitVec.ofNat 64 (2^32),0,0,0,0,0⟩

/-- The second scalar moves to `VAR0.y`: its new slot is set in `inputs_read` although its
old slot was not, and the built-in bit of `outputs_read` is dropped. -/
theorem remap_masks_not_per_variable :
    QsortOrder stableQsort ∧
    (nirCompactVaryings stableQsort vsReadBack fsFirstRead true).2.positions = [(32,0),(32,1)] ∧
    fsFirstRead.inputsRead.getLsbD 33 = false ∧
    (nirCompactVaryings stableQsort vsReadBack fsFirstRead true).2.inputsRead.getLsbD 32 = true ∧
    vsReadBack.outputsRead.getLsbD 0 = true ∧
    (nirCompactVaryings stableQsort vsReadBack fsFirstRead true).1.outputsRead = 0 :=
  ⟨stableQsort_order,by decide,by decide,by decide,by decide,by decide⟩

end Mesa.Nir

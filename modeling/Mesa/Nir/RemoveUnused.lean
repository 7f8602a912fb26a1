import Mathlib.Data.List.Forall2
import Mesa.Nir.Shader

/-! `nir_remove_unused_varyings`: the per-component slot masks each stage builds from its
interface, and the demotion of the varyings the other stage never uses. -/
namespace Mesa.Nir

/-- `get_variable_io_mask`. -/
def getVariableIoMask (var : NirVariable) (stage : GlShaderStage) : BitVec 64 :=
  if var.location < 0 then 0
  else shl64 (shl64 1 (slotCount var stage) - 1) (unsignedOf (maskIndex var))

/-- `get_num_components`. -/
def getNumComponents (var : NirVariable) : Nat :=
  if var.type.withoutArray.isStructOrIfc then 4 else var.type.withoutArray.vectorElements

/-- `for (i = 0; i < count; i++) masks[first + i] |= mask`. Entries from 4 up stand for the
writes past the code's four-entry arrays; nothing reads them. -/
def orComponents (masks : MaskArray) (first count : Nat) (mask : BitVec 64) : MaskArray :=
  (List.range count).foldl (fun masks i => masks.orAt (first + i) mask) masks

/-- A stage's pair of mask arrays: `read`/`patches_read`, or `written`/`patches_written`. -/
structure IoMasks where
  slots : MaskArray
  patches : MaskArray

def IoMasks.empty : IoMasks := ⟨fun _ => 0,fun _ => 0⟩

/-- The array a variable of this patch-ness uses. -/
def IoMasks.get (masks : IoMasks) (patch : Bool) : MaskArray :=
  if patch then masks.patches else masks.slots

/-- The loop body shared by `nir_remove_unused_varyings` and `tcs_add_output_reads`. -/
def IoMasks.addVariable (stage : GlShaderStage) (masks : IoMasks) (var : NirVariable) : IoMasks :=
  let mask := getVariableIoMask var stage
  if var.patch then
    { masks with patches := orComponents masks.patches var.locationFrac (getNumComponents var) mask }
  else { masks with slots := orComponents masks.slots var.locationFrac (getNumComponents var) mask }

/-- `nir_foreach_variable_with_modes`. -/
def NirShader.varsWithMode (shader : NirShader) (mode : NirVariableMode) : List NirVariable :=
  shader.vars.filter fun var => var.mode == mode

/-- The output a `load_deref` reads, if it reads one. -/
def NirShader.loadedOutput? (shader : NirShader) : NirInstr → Option NirVariable
  | .loadDeref _ k =>
    match shader.vars.get? k with
    | some var => if var.mode = .shaderOut then some var else none
    | none => none
  | _ => none

/-- `tcs_add_output_reads`: the loop body on every output a `load_deref` reads, in
instruction order. -/
def tcsAddOutputReads (shader : NirShader) (read : IoMasks) : IoMasks :=
  (shader.instrs.filterMap shader.loadedOutput?).foldl (IoMasks.addVariable shader.stage) read

/-- The loop body of `nir_remove_unused_io_vars` on a variable of the mode: whether it is
demoted. -/
def isUnusedIoVar (stage : GlShaderStage) (usedByOtherStage : IoMasks) (var : NirVariable) : Bool :=
  if var.location < varyingSlotVar0 ∧ 0 ≤ var.location then false
  else if var.alwaysActiveIo then false
  else if var.explicitXfbBuffer then false
  else (usedByOtherStage.get var.patch var.locationFrac &&& getVariableIoMask var stage) == 0

/-- A demoted variable: `location = 0`, `mode = nir_var_shader_temp`. -/
def demote (var : NirVariable) : NirVariable := { var with location := 0, mode := .shaderTemp }

/-- `nir_remove_unused_io_vars`: the shader and the progress flag. -/
def nirRemoveUnusedIoVars (shader : NirShader) (mode : NirVariableMode) (usedByOtherStage : IoMasks) :
    NirShader × Bool :=
  let unused := fun var => var.mode == mode && isUnusedIoVar shader.stage usedByOtherStage var
  ({ shader with vars := shader.vars.map fun var => if unused var then demote var else var },
    shader.vars.any unused)

/-- `written` and `patches_written` of `nir_remove_unused_varyings`. -/
def writtenMasks (producer : NirShader) : IoMasks :=
  (producer.varsWithMode .shaderOut).foldl (IoMasks.addVariable producer.stage) .empty

/-- `read` and `patches_read`, with the outputs a TCS reads itself. -/
def readMasks (producer consumer : NirShader) : IoMasks :=
  let read := (consumer.varsWithMode .shaderIn).foldl (IoMasks.addVariable consumer.stage) .empty
  if producer.stage = .tessCtrl then tcsAddOutputReads producer read else read

/-- `nir_remove_unused_varyings`: both shaders and the progress flag. -/
def nirRemoveUnusedVaryings (producer consumer : NirShader) : NirShader × NirShader × Bool :=
  let (producer', progress) := nirRemoveUnusedIoVars producer .shaderOut (readMasks producer consumer)
  let (consumer', progressIn) := nirRemoveUnusedIoVars consumer .shaderIn (writtenMasks producer)
  (producer', consumer', progressIn || progress)

/-! ### The masks -/

theorem orComponents_succ (masks : MaskArray) (first n : Nat) (mask : BitVec 64) :
    orComponents masks first (n + 1) mask = (orComponents masks first n mask).orAt (first + n) mask := by
  simp only [orComponents,List.range_succ,List.foldl_append,List.foldl_cons,List.foldl_nil]

theorem orComponents_getLsbD (masks : MaskArray) (first count : Nat) (mask : BitVec 64) (j b : Nat) :
    (orComponents masks first count mask j).getLsbD b = true ↔
      (masks j).getLsbD b = true ∨ (first ≤ j ∧ j < first + count ∧ mask.getLsbD b = true) := by
  induction count with
  | zero => exact ⟨Or.inl,fun held => held.elim id fun ⟨_,_,_⟩ => by omega⟩
  | succ n ih =>
    rw [orComponents_succ,MaskArray.orAt_apply,apply_ite (BitVec.getLsbD · b),BitVec.getLsbD_or]
    split_ifs with same
    · subst same
      simp [ih]
    · have extend : j < first + n ↔ j < first + (n + 1) := by omega
      rw [ih,extend]

/-- Bit `b` of entry `j` of the array variables of this patch-ness use. -/
def IoMasks.Has (masks : IoMasks) (patch : Bool) (j b : Nat) : Prop :=
  (masks.get patch j).getLsbD b = true

/-- A variable's loop body sets bit `b` of entry `j` of the array of this patch-ness. -/
def Contributes (stage : GlShaderStage) (var : NirVariable) (patch : Bool) (j b : Nat) : Prop :=
  var.patch = patch ∧ var.locationFrac ≤ j ∧ j < var.locationFrac + getNumComponents var ∧
    (getVariableIoMask var stage).getLsbD b = true

theorem IoMasks.addVariable_has (stage : GlShaderStage) (masks : IoMasks) (var : NirVariable)
    (patch : Bool) (j b : Nat) :
    (masks.addVariable stage var).Has patch j b ↔ masks.Has patch j b ∨ Contributes stage var patch j b := by
  unfold IoMasks.addVariable IoMasks.Has IoMasks.get Contributes
  cases var.patch <;> cases patch <;> simp [orComponents_getLsbD]

theorem IoMasks.foldl_addVariable_has (stage : GlShaderStage) (vars : List NirVariable)
    (masks : IoMasks) (patch : Bool) (j b : Nat) :
    (vars.foldl (IoMasks.addVariable stage) masks).Has patch j b ↔
      masks.Has patch j b ∨ ∃ var ∈ vars, Contributes stage var patch j b := by
  induction vars generalizing masks with
  | nil => simp
  | cons var vars ih => rw [List.foldl_cons,ih,IoMasks.addVariable_has]; simp [or_assoc]

theorem and_eq_zero_iff {x y : BitVec 64} :
    x &&& y = 0 ↔ ∀ b, ¬(x.getLsbD b = true ∧ y.getLsbD b = true) := by
  constructor
  · intro zero b both
    have := congrArg (BitVec.getLsbD · b) zero
    simp [both.1,both.2] at this
  · intro none
    apply BitVec.eq_of_getLsbD_eq
    intro b
    simpa using none b

theorem getVariableIoMask_getLsbD {stage : GlShaderStage} {var : NirVariable}
    (nonneg : 0 ≤ var.location) (index : 0 ≤ maskIndex var) (below : maskIndex var < 64)
    (fits : maskIndex var + slotCount var stage ≤ 64) (small : slotCount var stage < 64) (b : Nat) :
    (getVariableIoMask var stage).getLsbD b = true ↔
      maskIndex var ≤ b ∧ b < maskIndex var + slotCount var stage := by
  have unsigned : unsignedOf (maskIndex var) = (maskIndex var).toNat := by unfold unsignedOf; omega
  simp only [getVariableIoMask,if_neg (Int.not_lt.mpr nonneg),unsigned,shl64_getLsbD,
    shl64_one_sub_one_getLsbD small,Nat.mod_eq_of_lt (by omega : (maskIndex var).toNat < 64)]
  simp only [Bool.and_eq_true,Bool.not_eq_true',decide_eq_true_eq,decide_eq_false_iff_not]
  omega

/-! ### What the pass demotes -/

/-- The slots a variable takes, by absolute location. -/
def InSlots (stage : GlShaderStage) (var : NirVariable) (slot : Int) : Prop :=
  var.location ≤ slot ∧ slot < var.location + slotCount var stage

/-- A variable takes a slot and a component of it. -/
def Covers (stage : GlShaderStage) (var : NirVariable) (slot : Int) (comp : Nat) : Prop :=
  InSlots stage var slot ∧ var.locationFrac ≤ comp ∧ comp < var.locationFrac + getNumComponents var

/-- A variable at or above `VARYING_SLOT_VAR0` has its slots in its stage's index space:
bits 0 to 63 by absolute location, patch slots bits 0 to 31 from `VARYING_SLOT_PATCH0`. -/
def InIndexSpace (stage : GlShaderStage) (var : NirVariable) : Prop :=
  varyingSlotVar0 ≤ var.location →
    if var.patch then varyingSlotPatch0 ≤ var.location ∧ var.location + slotCount var stage ≤ varyingSlotTessMax
    else var.location + slotCount var stage ≤ varyingSlotPatch0

instance (stage : GlShaderStage) (var : NirVariable) (slot : Int) (comp : Nat) :
    Decidable (Covers stage var slot comp) :=
  inferInstanceAs (Decidable ((_ ∧ _) ∧ _))

instance (stage : GlShaderStage) (var : NirVariable) : Decidable (InIndexSpace stage var) :=
  inferInstanceAs (Decidable (_ → if var.patch then _ else _))

/-- An output and an input of the same patch-ness whose slots meet start at the same
component. -/
def Aligned (producer consumer : NirShader) : Prop :=
  ∀ out ∈ producer.vars, ∀ inp ∈ consumer.vars, out.mode = .shaderOut → inp.mode = .shaderIn →
    out.patch = inp.patch → out.location < inp.location + slotCount inp consumer.stage →
      inp.location < out.location + slotCount out producer.stage → out.locationFrac = inp.locationFrac

instance (producer consumer : NirShader) : Decidable (Aligned producer consumer) :=
  inferInstanceAs (Decidable (∀ out ∈ producer.vars, ∀ inp ∈ consumer.vars, _))

/-- No generic variable of `other`'s mode and of the same patch-ness shares a slot and a
component with `var`. -/
def Unshared (stage : GlShaderStage) (other : NirShader) (mode : NirVariableMode)
    (var : NirVariable) : Prop :=
  ∀ partner ∈ other.vars, partner.mode = mode → varyingSlotVar0 ≤ partner.location →
    partner.patch = var.patch → ∀ slot comp, ¬(Covers stage var slot comp ∧ Covers other.stage partner slot comp)

/-- No `load_deref` of the TCS reads a generic output of the same patch-ness covering the
variable's first component in one of its slots. -/
def UnreadByTcs (producer : NirShader) (var : NirVariable) : Prop :=
  producer.stage = .tessCtrl → ∀ u ∈ producer.instrs.filterMap producer.loadedOutput?,
    varyingSlotVar0 ≤ u.location → u.patch = var.patch →
      ∀ slot, ¬(Covers producer.stage u slot var.locationFrac ∧ InSlots producer.stage var slot)

/-- What the pass may do to a variable: keep it, or demote a generic variable of the mode
that is neither always active nor captured by transform feedback and that `unused` holds of. -/
def KeptOrDemoted (mode : NirVariableMode) (unused : NirVariable → Prop) (old new : NirVariable) : Prop :=
  new = old ∨ (new = demote old ∧ old.mode = mode ∧ varyingSlotVar0 ≤ old.location ∧
    old.alwaysActiveIo = false ∧ old.explicitXfbBuffer = false ∧ unused old)

theorem isUnusedIoVar_eq_true {stage : GlShaderStage} {used : IoMasks} {var : NirVariable}
    (nonneg : 0 ≤ var.location) (unused : isUnusedIoVar stage used var = true) :
    varyingSlotVar0 ≤ var.location ∧ var.alwaysActiveIo = false ∧ var.explicitXfbBuffer = false ∧
      ∀ b, ¬(used.Has var.patch var.locationFrac b ∧ (getVariableIoMask var stage).getLsbD b = true) := by
  unfold isUnusedIoVar at unused
  split_ifs at unused with builtin active xfb
  simp only [beq_iff_eq,and_eq_zero_iff] at unused
  exact ⟨by omega,by simpa using active,by simpa using xfb,unused⟩

/-- Every variable `nir_remove_unused_io_vars` demotes passes the tests of its loop body. -/
theorem nirRemoveUnusedIoVars_forall₂ (shader : NirShader) (mode : NirVariableMode)
    (used : IoMasks) (unused : NirVariable → Prop) (nonneg : ∀ var ∈ shader.vars, 0 ≤ var.location)
    (sound : ∀ var ∈ shader.vars, var.mode = mode → isUnusedIoVar shader.stage used var = true → unused var) :
    List.Forall₂ (KeptOrDemoted mode unused) shader.vars (nirRemoveUnusedIoVars shader mode used).1.vars := by
  simp only [nirRemoveUnusedIoVars,List.forall₂_map_right_iff,List.forall₂_same]
  intro var member
  split_ifs with demoted
  · simp only [Bool.and_eq_true,beq_iff_eq] at demoted
    obtain ⟨generic,active,xfb,-⟩ := isUnusedIoVar_eq_true (nonneg var member) demoted.2
    exact .inr ⟨rfl,demoted.1,generic,active,xfb,sound var member demoted.1 demoted.2⟩
  · exact .inl rfl

theorem location_sub_maskIndex (var : NirVariable) :
    var.location - maskIndex var = if var.patch then (varyingSlotPatch0 : Int) else 0 := by
  unfold maskIndex; split <;> omega

theorem getVariableIoMask_slot {stage : GlShaderStage} {var : NirVariable}
    (generic : varyingSlotVar0 ≤ var.location) (space : InIndexSpace stage var) {slot : Int}
    (inSlots : InSlots stage var slot) :
    (getVariableIoMask var stage).getLsbD (slot - (var.location - maskIndex var)).toNat = true := by
  have offset := location_sub_maskIndex var
  have fits := space generic
  unfold InSlots at inSlots
  simp only [varyingSlotVar0_eq,varyingSlotPatch0_eq,varyingSlotTessMax_eq] at generic fits offset
  have bounds : 0 ≤ maskIndex var ∧ maskIndex var < 64 ∧ maskIndex var + slotCount var stage ≤ 64 ∧
      slotCount var stage < 64 := by
    cases patch : var.patch <;> simp only [patch,↓reduceIte,Bool.false_eq_true] at fits offset <;> omega
  rw [getVariableIoMask_getLsbD (by omega) bounds.1 bounds.2.1 bounds.2.2.1 bounds.2.2.2]
  omega

theorem masks_share_bit {vs ws : GlShaderStage} {v w : NirVariable} (samePatch : w.patch = v.patch)
    (vGeneric : varyingSlotVar0 ≤ v.location) (wGeneric : varyingSlotVar0 ≤ w.location)
    (vSpace : InIndexSpace vs v) (wSpace : InIndexSpace ws w) {slot : Int}
    (vSlot : InSlots vs v slot) (wSlot : InSlots ws w slot) :
    ∃ b, (getVariableIoMask v vs).getLsbD b = true ∧ (getVariableIoMask w ws).getLsbD b = true := by
  have sameOffset : w.location - maskIndex w = v.location - maskIndex v := by
    rw [location_sub_maskIndex,location_sub_maskIndex,samePatch]
  exact ⟨_,getVariableIoMask_slot vGeneric vSpace vSlot,
    sameOffset ▸ getVariableIoMask_slot wGeneric wSpace wSlot⟩

theorem loadedOutput?_mem {shader : NirShader} {u : NirVariable}
    (loaded : u ∈ shader.instrs.filterMap shader.loadedOutput?) : u ∈ shader.vars := by
  obtain ⟨instr,-,read⟩ := List.mem_filterMap.mp loaded
  unfold NirShader.loadedOutput? at read
  split at read
  · split at read
    · split at read
      · cases read; exact List.get?_mem ‹_›
      · cases read
    · cases read
  · cases read

theorem tcsAddOutputReads_has (shader : NirShader) (read : IoMasks) (patch : Bool) (j b : Nat) :
    (tcsAddOutputReads shader read).Has patch j b ↔ read.Has patch j b ∨
      ∃ u ∈ shader.instrs.filterMap shader.loadedOutput?, Contributes shader.stage u patch j b :=
  IoMasks.foldl_addVariable_has _ _ _ _ _ _

/-- Hypotheses of the law for `nir_remove_unused_varyings`: no negative location, generic
slots in their index space, and aligned components across the interface. -/
structure RemoveUnusedPreconditions (producer consumer : NirShader) : Prop where
  nonneg : ∀ var ∈ producer.vars ++ consumer.vars, 0 ≤ var.location
  producerSpace : ∀ var ∈ producer.vars, InIndexSpace producer.stage var
  consumerSpace : ∀ var ∈ consumer.vars, InIndexSpace consumer.stage var
  aligned : Aligned producer consumer

section Demotion

variable {producer consumer : NirShader} (pre : RemoveUnusedPreconditions producer consumer)
include pre

/-- An output the pass demotes shares no slot and component with a generic input, nor
with a generic output a TCS reads. -/
theorem unused_output_unshared {var : NirVariable} (member : var ∈ producer.vars)
    (output : var.mode = .shaderOut)
    (unused : isUnusedIoVar producer.stage (readMasks producer consumer) var = true) :
    Unshared producer.stage consumer .shaderIn var ∧ UnreadByTcs producer var := by
  have nonneg := pre.nonneg var (List.mem_append_left _ member)
  obtain ⟨generic,-,-,clear⟩ := isUnusedIoVar_eq_true nonneg unused
  have space := pre.producerSpace var member
  constructor
  · intro partner partnerMember input partnerGeneric samePatch slot comp ⟨vCovers,pCovers⟩
    have frac := pre.aligned var member partner partnerMember output input samePatch.symm
      (by have := vCovers.1.1; have := pCovers.1.2; omega)
      (by have := pCovers.1.1; have := vCovers.1.2; omega)
    obtain ⟨b,vBit,pBit⟩ := masks_share_bit samePatch generic partnerGeneric space
      (pre.consumerSpace partner partnerMember) vCovers.1 pCovers.1
    apply clear b ⟨?_,vBit⟩
    have read : ((consumer.varsWithMode .shaderIn).foldl (IoMasks.addVariable consumer.stage)
        .empty).Has var.patch var.locationFrac b :=
      (IoMasks.foldl_addVariable_has _ _ _ _ _ _).mpr (.inr ⟨partner,
        List.mem_filter.mpr ⟨partnerMember,by simp [input]⟩,samePatch,by omega,
        by have := pCovers.2; omega,pBit⟩)
    unfold readMasks
    split
    · exact (tcsAddOutputReads_has _ _ _ _ _).mpr (.inl read)
    · exact read
  · intro tcs u loaded uGeneric samePatch slot ⟨uCovers,vSlot⟩
    have uMember := loadedOutput?_mem loaded
    obtain ⟨b,vBit,uBit⟩ := masks_share_bit samePatch generic uGeneric space
      (pre.producerSpace u uMember) vSlot uCovers.1
    apply clear b ⟨?_,vBit⟩
    unfold readMasks
    rw [if_pos tcs]
    exact (tcsAddOutputReads_has _ _ _ _ _).mpr (.inr ⟨u,loaded,samePatch,uCovers.2.1,uCovers.2.2,uBit⟩)

theorem unused_input_unshared {var : NirVariable} (member : var ∈ consumer.vars)
    (input : var.mode = .shaderIn)
    (unused : isUnusedIoVar consumer.stage (writtenMasks producer) var = true) :
    Unshared consumer.stage producer .shaderOut var := by
  have nonneg := pre.nonneg var (List.mem_append_right _ member)
  obtain ⟨generic,-,-,clear⟩ := isUnusedIoVar_eq_true nonneg unused
  intro partner partnerMember output partnerGeneric samePatch slot comp ⟨vCovers,pCovers⟩
  have frac := pre.aligned partner partnerMember var member output input samePatch
    (by have := pCovers.1.1; have := vCovers.1.2; omega)
    (by have := vCovers.1.1; have := pCovers.1.2; omega)
  obtain ⟨b,vBit,pBit⟩ := masks_share_bit samePatch generic partnerGeneric
    (pre.consumerSpace var member) (pre.producerSpace partner partnerMember) vCovers.1 pCovers.1
  exact clear b ⟨(IoMasks.foldl_addVariable_has _ _ _ _ _ _).mpr (.inr ⟨partner,
    List.mem_filter.mpr ⟨partnerMember,by simp [output]⟩,samePatch,by omega,
    by have := pCovers.2; omega,pBit⟩),vBit⟩

end Demotion

/-- `nir_remove_unused_varyings` demotes only generic varyings that are not always active
and not captured by transform feedback: an output only when no generic input of its
patch-ness shares a slot and a component with it and, in a TCS, no generic output a
`load_deref` reads covers its first component in one of its slots; an input only when no
generic output of its patch-ness shares a slot and a component with it. Every other
variable is kept as it was. -/
theorem remove_unused_varyings_demotes_unshared (producer consumer : NirShader)
    (pre : RemoveUnusedPreconditions producer consumer) :
    List.Forall₂ (KeptOrDemoted .shaderOut fun var =>
        Unshared producer.stage consumer .shaderIn var ∧ UnreadByTcs producer var)
      producer.vars (nirRemoveUnusedVaryings producer consumer).1.vars ∧
    List.Forall₂ (KeptOrDemoted .shaderIn (Unshared consumer.stage producer .shaderOut))
      consumer.vars (nirRemoveUnusedVaryings producer consumer).2.1.vars :=
  ⟨nirRemoveUnusedIoVars_forall₂ _ _ _ _ (fun var member => pre.nonneg var (List.mem_append_left _ member))
      fun _ member output unused => unused_output_unshared pre member output unused,
    nirRemoveUnusedIoVars_forall₂ _ _ _ _ (fun var member => pre.nonneg var (List.mem_append_right _ member))
      fun _ member input unused => unused_input_unshared pre member input unused⟩

/-- A vertex shader with two generic outputs, and a fragment shader reading the first. -/
def vsTwoOutputs : NirShader :=
  .ofVars .vertex [.plain (.vector .float 1) .shaderOut 32 0,.plain (.vector .float 1) .shaderOut 33 0] []

def fsOneInput : NirShader :=
  .ofVars .fragment [.plain (.vector .float 1) .shaderIn 32 0] [[.loadDeref 0 0]]

theorem remove_unused_vs_fs :
    RemoveUnusedPreconditions vsTwoOutputs fsOneInput ∧
    List.Forall₂ (KeptOrDemoted .shaderOut fun var =>
        Unshared vsTwoOutputs.stage fsOneInput .shaderIn var ∧ UnreadByTcs vsTwoOutputs var)
      vsTwoOutputs.vars (nirRemoveUnusedVaryings vsTwoOutputs fsOneInput).1.vars ∧
    List.Forall₂ (KeptOrDemoted .shaderIn (Unshared fsOneInput.stage vsTwoOutputs .shaderOut))
      fsOneInput.vars (nirRemoveUnusedVaryings vsTwoOutputs fsOneInput).2.1.vars :=
  have pre : RemoveUnusedPreconditions vsTwoOutputs fsOneInput := ⟨by decide,by decide,by decide,by decide⟩
  ⟨pre,remove_unused_varyings_demotes_unshared vsTwoOutputs fsOneInput pre⟩

/-- A TCS that reads back a per-vertex scalar at component 2 of the slot a per-vertex
`vec4` output starts at, for an evaluation shader with no inputs. -/
def tcsOverlappingRead : NirShader :=
  .ofVars .tessCtrl [.plain (.array (.vector .float 1) 32) .shaderOut 32 2,
    .plain (.array (.vector .float 4) 32) .shaderOut 32 0] [[.loadDeref 0 0]]

def tesNoInputs : NirShader := .ofVars .tessEval [] []

/-- A TCS with a generic patch output, and an evaluation shader with a 39-slot patch input at
the built-in slot 26, which reaches slot 64. -/
def tcsPatchOutput : NirShader :=
  .ofVars .tessCtrl [{ NirVariable.plain (.vector .float 1) .shaderOut 64 0 with patch := true }] []

def tesLongPatchInput : NirShader :=
  .ofVars .tessEval [{ NirVariable.plain (.array (.vector .float 1) 39) .shaderIn 26 0 with patch := true }] []

/-- The `vec4` output is demoted although the TCS reads component 2 of its slot: the reads
are recorded at the reading variable's own first component only. The generic patch output is
demoted although the patch input's slots reach it: the input's mask is shifted by
`26 - VARYING_SLOT_PATCH0` taken as unsigned, which the machine reduces to 26. -/
theorem remove_unused_demotes_shared :
    RemoveUnusedPreconditions tcsOverlappingRead tesNoInputs ∧
    (nirRemoveUnusedVaryings tcsOverlappingRead tesNoInputs).1.vars =
      [.plain (.array (.vector .float 1) 32) .shaderOut 32 2,
        demote (.plain (.array (.vector .float 4) 32) .shaderOut 32 0)] ∧
    .plain (.array (.vector .float 1) 32) .shaderOut 32 2 ∈
      tcsOverlappingRead.instrs.filterMap tcsOverlappingRead.loadedOutput? ∧
    Covers .tessCtrl (.plain (.array (.vector .float 1) 32) .shaderOut 32 2) 32 2 ∧
    Covers .tessCtrl (.plain (.array (.vector .float 4) 32) .shaderOut 32 0) 32 2 ∧
    RemoveUnusedPreconditions tcsPatchOutput tesLongPatchInput ∧
    (nirRemoveUnusedVaryings tcsPatchOutput tesLongPatchInput).1.vars =
      tcsPatchOutput.vars.map demote ∧
    (∀ out ∈ tcsPatchOutput.vars, ∀ inp ∈ tesLongPatchInput.vars, out.patch = inp.patch ∧
      Covers .tessCtrl out 64 0 ∧ Covers .tessEval inp 64 0) :=
  ⟨⟨by decide,by decide,by decide,by decide⟩,by decide,by decide,by decide,by decide,
    ⟨by decide,by decide,by decide,by decide⟩,by decide,by decide⟩

end Mesa.Nir

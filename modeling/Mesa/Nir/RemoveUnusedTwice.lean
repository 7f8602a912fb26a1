import Mesa.Nir.RemoveUnused

/-! Running `nir_remove_unused_varyings` again on what it returned. A variable the first run
keeps passes its loop body's test either without the masks or through a bit some variable of
the other stage (or, in a TCS, an output it reads) put in the mask it is tested against, and
each such contributor is kept by the first run as well; so the second run builds the bits
again and demotes nothing. The components of an output and an input that share a slot must
start together: the loop body looks up only a variable's first component in the other stage's
masks, so a `vec2` output at `.x` beside a `float` input at `.y` keeps the input alone, and a
second run then demotes it. -/
namespace Mesa.Nir

/-- The tests of the loop body that do not read the masks: a built-in slot, always active, or
captured by transform feedback. -/
def Exempt (var : NirVariable) : Prop :=
  (var.location < varyingSlotVar0 ∧ 0 ≤ var.location) ∨ var.alwaysActiveIo = true ∨ var.explicitXfbBuffer = true

theorem isUnusedIoVar_eq_false_iff {stage : GlShaderStage} {used : IoMasks} {var : NirVariable} :
    isUnusedIoVar stage used var = false ↔ Exempt var ∨
      ∃ b, used.Has var.patch var.locationFrac b ∧ (getVariableIoMask var stage).getLsbD b = true := by
  unfold isUnusedIoVar Exempt IoMasks.Has
  split_ifs with builtin active xfb
  · exact iff_of_true rfl (.inl (.inl builtin))
  · exact iff_of_true rfl (.inl (.inr (.inl active)))
  · exact iff_of_true rfl (.inl (.inr (.inr xfb)))
  · simp only [beq_eq_false_iff_ne,ne_eq,and_eq_zero_iff,not_forall,not_not]
    simp_all

theorem mem_varsWithMode {shader : NirShader} {mode : NirVariableMode} {var : NirVariable} :
    var ∈ shader.varsWithMode mode ↔ var ∈ shader.vars ∧ var.mode = mode := by
  simp [NirShader.varsWithMode]

theorem IoMasks.empty_has (patch : Bool) (j b : Nat) : ¬IoMasks.empty.Has patch j b := by
  unfold IoMasks.Has IoMasks.get IoMasks.empty
  split <;> simp

theorem writtenMasks_has (producer : NirShader) (patch : Bool) (j b : Nat) :
    (writtenMasks producer).Has patch j b ↔
      ∃ o ∈ producer.varsWithMode .shaderOut, Contributes producer.stage o patch j b := by
  simp only [writtenMasks,IoMasks.foldl_addVariable_has,IoMasks.empty_has,false_or]

theorem readMasks_has (producer consumer : NirShader) (patch : Bool) (j b : Nat) :
    (readMasks producer consumer).Has patch j b ↔
      (∃ i ∈ consumer.varsWithMode .shaderIn, Contributes consumer.stage i patch j b) ∨
        producer.stage = .tessCtrl ∧
          ∃ u ∈ producer.instrs.filterMap producer.loadedOutput?, Contributes producer.stage u patch j b := by
  unfold readMasks
  split
  case isTrue tcs => simp only [tcsAddOutputReads_has,IoMasks.foldl_addVariable_has,IoMasks.empty_has,false_or,tcs,true_and]
  case isFalse notTcs => simp only [IoMasks.foldl_addVariable_has,IoMasks.empty_has,false_or,notTcs,false_and,or_false]

/-- The mask of a generic variable in its index space holds exactly the bits of its slots. -/
theorem getVariableIoMask_generic {stage : GlShaderStage} {var : NirVariable}
    (generic : varyingSlotVar0 ≤ var.location) (space : InIndexSpace stage var) (b : Nat) :
    (getVariableIoMask var stage).getLsbD b = true ↔ maskIndex var ≤ b ∧ b < maskIndex var + slotCount var stage := by
  by_cases empty : slotCount var stage = 0
  · have zero : getVariableIoMask var stage = 0 := by simp [getVariableIoMask,empty,shl64]
    rw [zero,empty]
    exact iff_of_false (by simp) (by omega)
  have offset := location_sub_maskIndex var
  have fits := space generic
  simp only [varyingSlotVar0_eq,varyingSlotPatch0_eq,varyingSlotTessMax_eq] at generic fits offset
  have bounds : 0 ≤ maskIndex var ∧ maskIndex var < 64 ∧ maskIndex var + slotCount var stage ≤ 64 ∧
      slotCount var stage < 64 := by
    cases patch : var.patch <;> simp only [patch,↓reduceIte,Bool.false_eq_true] at fits offset <;> omega
  exact getVariableIoMask_getLsbD (by omega) bounds.1 bounds.2.1 bounds.2.2.1 bounds.2.2.2 b

theorem slots_meet_of_shared_bit {vs ws : GlShaderStage} {v w : NirVariable} (samePatch : w.patch = v.patch)
    (vGeneric : varyingSlotVar0 ≤ v.location) (wGeneric : varyingSlotVar0 ≤ w.location)
    (vSpace : InIndexSpace vs v) (wSpace : InIndexSpace ws w) {b : Nat}
    (vBit : (getVariableIoMask v vs).getLsbD b = true) (wBit : (getVariableIoMask w ws).getLsbD b = true) :
    v.location < w.location + slotCount w ws ∧ w.location < v.location + slotCount v vs := by
  have sameOffset : w.location - maskIndex w = v.location - maskIndex v := by
    rw [location_sub_maskIndex,location_sub_maskIndex,samePatch]
  rw [getVariableIoMask_generic vGeneric vSpace] at vBit
  rw [getVariableIoMask_generic wGeneric wSpace] at wBit
  omega

/-! ### What the first run keeps -/

theorem mem_nirRemoveUnusedIoVars {shader : NirShader} {mode : NirVariableMode} {used : IoMasks}
    {var : NirVariable} (member : var ∈ shader.vars) (kept : isUnusedIoVar shader.stage used var = false) :
    var ∈ (nirRemoveUnusedIoVars shader mode used).1.vars :=
  List.mem_map.mpr ⟨var,member,by simp [kept]⟩

theorem of_mem_nirRemoveUnusedIoVars {shader : NirShader} {mode : NirVariableMode} {used : IoMasks}
    (notTemp : mode ≠ .shaderTemp) {var : NirVariable} (member : var ∈ (nirRemoveUnusedIoVars shader mode used).1.vars)
    (ofMode : var.mode = mode) : var ∈ shader.vars ∧ isUnusedIoVar shader.stage used var = false := by
  obtain ⟨old,oldMember,rfl⟩ := List.mem_map.mp member
  split_ifs at ofMode ⊢ with demoted
  · exact absurd ofMode.symm notTemp
  · simp only [ofMode,beq_self_eq_true,Bool.true_and,Bool.not_eq_true] at demoted
    exact ⟨oldMember,demoted⟩

theorem loadedOutput?_nirRemoveUnusedIoVars {shader : NirShader} {mode : NirVariableMode} {used : IoMasks}
    {instr : NirInstr} {u : NirVariable} (loaded : shader.loadedOutput? instr = some u)
    (kept : isUnusedIoVar shader.stage used u = false) :
    (nirRemoveUnusedIoVars shader mode used).1.loadedOutput? instr = some u := by
  unfold NirShader.loadedOutput? at loaded ⊢
  split at loaded
  case h_1 k =>
    split at loaded
    case h_1 var found =>
      split at loaded
      case isTrue output =>
        cases loaded
        simp only [nirRemoveUnusedIoVars,List.get?_eq_getElem?,List.getElem?_map]
        rw [List.get?_eq_getElem?] at found
        simp [found,kept,output]
      case isFalse => cases loaded
    case h_2 => cases loaded
  case h_2 => cases loaded

theorem nirRemoveUnusedIoVars_of_forall {shader : NirShader} {mode : NirVariableMode} {used : IoMasks}
    (kept : ∀ var ∈ shader.vars, var.mode = mode → isUnusedIoVar shader.stage used var = false) :
    nirRemoveUnusedIoVars shader mode used = (shader,false) := by
  have unused : ∀ var ∈ shader.vars, (var.mode == mode && isUnusedIoVar shader.stage used var) = false :=
    fun var member => by
      by_cases ofMode : var.mode = mode
      · simp [kept var member ofMode]
      · simp [ofMode]
  have same : ∀ var ∈ shader.vars,
      (if (var.mode == mode && isUnusedIoVar shader.stage used var) = true then demote var else var) = var :=
    fun var member => by simp [unused var member]
  simp only [nirRemoveUnusedIoVars,List.map_congr_left same,List.map_id']
  rw [List.any_eq_false.mpr fun var member => by simp [unused var member]]

/-! ### The contributors of a kept variable -/

theorem tcsRead_kept {producer consumer : NirShader} (tcs : producer.stage = .tessCtrl) {u : NirVariable}
    (loaded : u ∈ producer.instrs.filterMap producer.loadedOutput?) {patch : Bool} {j b : Nat}
    (contributes : Contributes producer.stage u patch j b) :
    isUnusedIoVar producer.stage (readMasks producer consumer) u = false := by
  obtain ⟨samePatch,low,high,uBit⟩ := contributes
  rw [isUnusedIoVar_eq_false_iff]
  exact .inr ⟨b,(readMasks_has _ _ _ _ _).mpr (.inr ⟨tcs,u,loaded,rfl,le_rfl,by omega,uBit⟩),uBit⟩

section Contributors

variable {producer consumer : NirShader} (pre : RemoveUnusedPreconditions producer consumer)
  (components : ∀ var ∈ producer.vars ++ consumer.vars, 0 < getNumComponents var)

include pre components in
theorem input_kept {o i : NirVariable} (oMember : o ∈ producer.vars) (output : o.mode = .shaderOut)
    (oGeneric : varyingSlotVar0 ≤ o.location) (iMember : i ∈ consumer.vars) (input : i.mode = .shaderIn)
    {b : Nat} (contributes : Contributes consumer.stage i o.patch o.locationFrac b)
    (oBit : (getVariableIoMask o producer.stage).getLsbD b = true) :
    isUnusedIoVar consumer.stage (writtenMasks producer) i = false := by
  obtain ⟨samePatch,-,-,iBit⟩ := contributes
  rw [isUnusedIoVar_eq_false_iff]
  by_cases builtin : i.location < varyingSlotVar0
  · exact .inl (.inl ⟨builtin,pre.nonneg i (List.mem_append_right _ iMember)⟩)
  have meet := slots_meet_of_shared_bit samePatch oGeneric (by omega) (pre.producerSpace o oMember)
    (pre.consumerSpace i iMember) oBit iBit
  have frac := pre.aligned o oMember i iMember output input samePatch.symm meet.1 meet.2
  have count := components o (List.mem_append_left _ oMember)
  exact .inr ⟨b,(writtenMasks_has _ _ _ _).mpr
    ⟨o,mem_varsWithMode.mpr ⟨oMember,output⟩,samePatch.symm,by omega,by omega,oBit⟩,iBit⟩

include pre components in
theorem output_kept {i o : NirVariable} (iMember : i ∈ consumer.vars) (input : i.mode = .shaderIn)
    (iGeneric : varyingSlotVar0 ≤ i.location) (oMember : o ∈ producer.vars) (output : o.mode = .shaderOut)
    {b : Nat} (contributes : Contributes producer.stage o i.patch i.locationFrac b)
    (iBit : (getVariableIoMask i consumer.stage).getLsbD b = true) :
    isUnusedIoVar producer.stage (readMasks producer consumer) o = false := by
  obtain ⟨samePatch,-,-,oBit⟩ := contributes
  rw [isUnusedIoVar_eq_false_iff]
  by_cases builtin : o.location < varyingSlotVar0
  · exact .inl (.inl ⟨builtin,pre.nonneg o (List.mem_append_left _ oMember)⟩)
  have meet := slots_meet_of_shared_bit samePatch iGeneric (by omega) (pre.consumerSpace i iMember)
    (pre.producerSpace o oMember) iBit oBit
  have frac := pre.aligned o oMember i iMember output input samePatch meet.2 meet.1
  have count := components i (List.mem_append_right _ iMember)
  exact .inr ⟨b,(readMasks_has _ _ _ _ _).mpr
    (.inl ⟨i,mem_varsWithMode.mpr ⟨iMember,input⟩,samePatch.symm,by omega,by omega,iBit⟩),oBit⟩

include pre components in
theorem output_kept_twice {v : NirVariable}
    (member : v ∈ (nirRemoveUnusedIoVars producer .shaderOut (readMasks producer consumer)).1.vars)
    (output : v.mode = .shaderOut) :
    isUnusedIoVar (nirRemoveUnusedIoVars producer .shaderOut (readMasks producer consumer)).1.stage
      (readMasks (nirRemoveUnusedIoVars producer .shaderOut (readMasks producer consumer)).1
        (nirRemoveUnusedIoVars consumer .shaderIn (writtenMasks producer)).1) v = false := by
  obtain ⟨vMember,kept⟩ := of_mem_nirRemoveUnusedIoVars (by decide) member output
  rw [isUnusedIoVar_eq_false_iff] at kept ⊢
  rcases kept with exempt | ⟨b,has,vBit⟩
  · exact .inl exempt
  by_cases builtin : v.location < varyingSlotVar0
  · exact .inl (.inl ⟨builtin,pre.nonneg v (List.mem_append_left _ vMember)⟩)
  refine .inr ⟨b,(readMasks_has _ _ _ _ _).mpr ?_,vBit⟩
  rcases (readMasks_has _ _ _ _ _).mp has with ⟨i,iMember,contributes⟩ | ⟨tcs,u,loaded,contributes⟩
  · obtain ⟨iMember,input⟩ := mem_varsWithMode.mp iMember
    exact .inl ⟨i,mem_varsWithMode.mpr ⟨mem_nirRemoveUnusedIoVars iMember
      (input_kept pre components vMember output (by omega) iMember input contributes vBit),input⟩,contributes⟩
  · obtain ⟨instr,instrMember,found⟩ := List.mem_filterMap.mp loaded
    exact .inr ⟨tcs,u,List.mem_filterMap.mpr ⟨instr,instrMember,
      loadedOutput?_nirRemoveUnusedIoVars found (tcsRead_kept tcs loaded contributes)⟩,contributes⟩

include pre components in
theorem input_kept_twice {w : NirVariable}
    (member : w ∈ (nirRemoveUnusedIoVars consumer .shaderIn (writtenMasks producer)).1.vars)
    (input : w.mode = .shaderIn) :
    isUnusedIoVar (nirRemoveUnusedIoVars consumer .shaderIn (writtenMasks producer)).1.stage
      (writtenMasks (nirRemoveUnusedIoVars producer .shaderOut (readMasks producer consumer)).1) w = false := by
  obtain ⟨wMember,kept⟩ := of_mem_nirRemoveUnusedIoVars (by decide) member input
  rw [isUnusedIoVar_eq_false_iff] at kept ⊢
  rcases kept with exempt | ⟨b,has,wBit⟩
  · exact .inl exempt
  by_cases builtin : w.location < varyingSlotVar0
  · exact .inl (.inl ⟨builtin,pre.nonneg w (List.mem_append_right _ wMember)⟩)
  obtain ⟨o,oMember,contributes⟩ := (writtenMasks_has _ _ _ _).mp has
  obtain ⟨oMember,output⟩ := mem_varsWithMode.mp oMember
  exact .inr ⟨b,(writtenMasks_has _ _ _ _).mpr ⟨o,mem_varsWithMode.mpr ⟨mem_nirRemoveUnusedIoVars oMember
    (output_kept pre components wMember input (by omega) oMember output contributes wBit),output⟩,contributes⟩,wBit⟩

end Contributors

/-- Under the hypotheses of the law for one run, and with every variable of at least one
component, running `nir_remove_unused_varyings` again on the two shaders it returned demotes
nothing and reports no progress. -/
theorem remove_unused_varyings_idempotent (producer consumer : NirShader)
    (pre : RemoveUnusedPreconditions producer consumer)
    (components : ∀ var ∈ producer.vars ++ consumer.vars, 0 < getNumComponents var) :
    let once := nirRemoveUnusedVaryings producer consumer
    nirRemoveUnusedVaryings once.1 once.2.1 = (once.1,once.2.1,false) := by
  show nirRemoveUnusedVaryings (nirRemoveUnusedIoVars producer .shaderOut (readMasks producer consumer)).1
    (nirRemoveUnusedIoVars consumer .shaderIn (writtenMasks producer)).1 = _
  unfold nirRemoveUnusedVaryings
  rw [nirRemoveUnusedIoVars_of_forall fun _ member output => output_kept_twice pre components member output,
    nirRemoveUnusedIoVars_of_forall fun _ member input => input_kept_twice pre components member input]
  rfl

/-- A TCS with three per-vertex outputs at `VAR0` to `VAR2`, the second of which it reads back,
and an evaluation shader reading `VAR0` and `VAR3`. -/
def tcsThreeOutputs : NirShader :=
  .ofVars .tessCtrl [.plain (.array (.vector .float 1) 3) .shaderOut 32 0,
    .plain (.array (.vector .float 1) 3) .shaderOut 33 0,.plain (.array (.vector .float 1) 3) .shaderOut 34 0]
    [[.loadDeref 0 1]]

def tesTwoInputs : NirShader :=
  .ofVars .tessEval [.plain (.array (.vector .float 1) 32) .shaderIn 32 0,
    .plain (.array (.vector .float 1) 32) .shaderIn 35 0] []

/-- The first run demotes the output at `VAR2` and the input at `VAR3`. -/
example : (nirRemoveUnusedVaryings tcsThreeOutputs tesTwoInputs).1.vars.map (·.mode) =
      [.shaderOut,.shaderOut,.shaderTemp] ∧
    (nirRemoveUnusedVaryings tcsThreeOutputs tesTwoInputs).2.1.vars.map (·.mode) = [.shaderIn,.shaderTemp] ∧
    (nirRemoveUnusedVaryings tcsThreeOutputs tesTwoInputs).2.2 = true := by
  decide

theorem remove_unused_varyings_idempotent_tcs :
    RemoveUnusedPreconditions tcsThreeOutputs tesTwoInputs ∧
    (∀ var ∈ tcsThreeOutputs.vars ++ tesTwoInputs.vars, 0 < getNumComponents var) ∧
    nirRemoveUnusedVaryings (nirRemoveUnusedVaryings tcsThreeOutputs tesTwoInputs).1
        (nirRemoveUnusedVaryings tcsThreeOutputs tesTwoInputs).2.1 =
      ((nirRemoveUnusedVaryings tcsThreeOutputs tesTwoInputs).1,
        (nirRemoveUnusedVaryings tcsThreeOutputs tesTwoInputs).2.1,false) :=
  have pre : RemoveUnusedPreconditions tcsThreeOutputs tesTwoInputs := ⟨by decide,by decide,by decide,by decide⟩
  have components : ∀ var ∈ tcsThreeOutputs.vars ++ tesTwoInputs.vars, 0 < getNumComponents var := by decide
  ⟨pre,components,remove_unused_varyings_idempotent tcsThreeOutputs tesTwoInputs pre components⟩

/-- A `vec2` output at `VAR0.x` and a `float` input at `VAR0.y`: their slots meet but their
components do not start together. -/
def vsVec2Output : NirShader := .ofVars .vertex [.plain (.vector .float 2) .shaderOut 32 0] []

def fsFloatInputY : NirShader := .ofVars .fragment [.plain (.vector .float 1) .shaderIn 32 1] []

/-- The first run keeps the input alone; the second demotes it. -/
example : (nirRemoveUnusedVaryings vsVec2Output fsFloatInputY).2.1.vars.map (·.mode) = [.shaderIn] ∧
    (nirRemoveUnusedVaryings (nirRemoveUnusedVaryings vsVec2Output fsFloatInputY).1
      (nirRemoveUnusedVaryings vsVec2Output fsFloatInputY).2.1).2.2 = true := by
  decide

end Mesa.Nir

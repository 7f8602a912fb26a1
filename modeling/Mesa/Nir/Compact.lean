import Mathlib.Data.List.Pairwise
import Mathlib.Data.List.Sort
import Mesa.Nir.Remap

/-! `nir_compact_varyings`: the components unmoveable varyings take, the records of the
scalar varyings that can move, their greedy placement, and the remap of both stages. -/
namespace Mesa.Nir

def interpModeNone : Nat := 0
def interpModeSmooth : Nat := 1
def interpModeFlat : Nat := 2

def interpolateLocSample : Nat := 0
def interpolateLocCentroid : Nat := 1
def interpolateLocCenter : Nat := 2

/-- `get_interp_type`. -/
def getInterpType (var : NirVariable) (type : GlslType) (defaultToSmoothInterp : Bool) : Nat :=
  if type.isInteger then interpModeFlat
  else if var.interpolation ≠ interpModeNone then var.interpolation
  else if defaultToSmoothInterp then interpModeSmooth
  else interpModeNone

/-- `get_interp_loc`. -/
def getInterpLoc (var : NirVariable) : Nat :=
  if var.sample then interpolateLocSample
  else if var.centroid then interpolateLocCentroid
  else interpolateLocCenter

/-- `is_packing_supported_for_type`. -/
def isPackingSupportedForType (type : GlslType) : Bool := type.isScalar && type.is32bit

/-- `struct assigned_comps`; `comps` is a `uint8_t`. -/
structure AssignedComps where
  comps : BitVec 8
  interpType : Nat
  interpLoc : Nat
  is32bit : Bool
  deriving DecidableEq

/-- `struct assigned_comps assigned_comps[MAX_VARYINGS_INCL_PATCH]`. A write past the end,
which an unmoveable array reaching beyond the last generic slot makes, is dropped. -/
def AssignedTable := List AssignedComps

def AssignedComps.zero : AssignedComps := ⟨0,0,0,false⟩

def AssignedTable.zero : AssignedTable := List.replicate maxVaryingsInclPatch .zero

def AssignedTable.get (table : AssignedTable) (slot : Nat) : AssignedComps := List.getD table slot .zero

def AssignedTable.set (table : AssignedTable) (slot : Nat) (entry : AssignedComps) : AssignedTable :=
  List.set table slot entry

/-- `((1 << count) - 1) << shift`, stored in a `uint8_t`. -/
def compsMask (count shift : Nat) : BitVec 8 := BitVec.ofNat 8 ((2^count - 1) * 2^shift)

/-- The components an unmoveable variable takes in its `i`-th slot. A dual-slot type fills
its first slot from `location_frac` and puts the rest, `comps_slot2`, in the second
(never negative: a dual-slot type has at least three 64-bit elements). -/
def unmoveableSlotComps (frac elements dmul : Nat) (dualSlot : Bool) (i : Nat) : BitVec 8 :=
  if dualSlot then
    if i % 2 = 1 then compsMask (elements * dmul - (4 - frac)) 0 else compsMask (4 - frac) frac
  else compsMask (elements * dmul) frac

/-- The loop body of `get_unmoveable_components_masks` on an unmoveable generic variable
of per-vertex type `type`. -/
def markUnmoveable (defaultToSmoothInterp : Bool) (table : AssignedTable) (var : NirVariable)
    (type : GlslType) : AssignedTable :=
  let location := (var.location - varyingSlotVar0).toNat
  let elements := if type.withoutArray.isVectorOrScalar then type.withoutArray.vectorElements else 4
  let dmul := if type.withoutArray.is64bit then 2 else 1
  (List.range type.countAttributeSlots).foldl (fun table i =>
    table.set (location + i)
      ⟨(table.get (location + i)).comps |||
          unmoveableSlotComps var.locationFrac elements dmul type.withoutArray.isDualSlot i,
        getInterpType var type defaultToSmoothInterp,getInterpLoc var,type.withoutArray.is32bit⟩)
    table

/-- The variables `get_unmoveable_components_masks` marks: generic, of a type that cannot
be packed. -/
def isUnmoveable (stage : GlShaderStage) (var : NirVariable) : Bool :=
  isGenericLocation var.location && !isPackingSupportedForType (ioType var stage)

/-- `get_unmoveable_components_masks`. -/
def getUnmoveableComponentsMasks (shader : NirShader) (mode : NirVariableMode) (table : AssignedTable)
    (stage : GlShaderStage) (defaultToSmoothInterp : Bool) : AssignedTable :=
  (shader.varsWithMode mode).foldl (fun table var =>
    if isUnmoveable stage var then markUnmoveable defaultToSmoothInterp table var (ioType var stage)
    else table) table

/-- `struct varying_component`; `var` is the variable whose load first initialised it. -/
structure VaryingComponent where
  var : NirVariable
  interpType : Nat
  interpLoc : Nat
  is32bit : Bool
  isPatch : Bool
  isIntraStageOnly : Bool
  deriving DecidableEq

/-- `cmp_varying_component`. -/
def cmpVaryingComponent (comp1 comp2 : VaryingComponent) : Int :=
  if comp1.isPatch ≠ comp2.isPatch then (if comp1.isPatch then 1 else -1)
  else if comp1.isIntraStageOnly ≠ comp2.isIntraStageOnly then (if comp1.isIntraStageOnly then 1 else -1)
  else if comp1.interpType ≠ comp2.interpType then (comp1.interpType : Int) - comp2.interpType
  else if comp1.interpLoc ≠ comp2.interpLoc then (comp1.interpLoc : Int) - comp2.interpLoc
  else comp1.var.location - comp2.var.location

/-- What `qsort` may return: a permutation ordered by `cmp_varying_component`; records the
comparison ranks equal come in any order. -/
def QsortOrder (sort : List VaryingComponent → List VaryingComponent) : Prop :=
  ∀ records, (sort records).Perm records ∧ (sort records).Pairwise fun a b => cmpVaryingComponent a b ≤ 0

/-- One level of `cmp_varying_component`: the difference of the first field that differs. -/
def cmpStep (x y rest : Int) : Int := if x ≠ y then x - y else rest

/-- A flag as the key the comparison orders by: set flags last. -/
def flagKey (flag : Bool) : Int := if flag then 1 else 0

theorem flag_cmpStep (a b : Bool) (rest : Int) :
    (if a ≠ b then (if a then 1 else -1) else rest) = cmpStep (flagKey a) (flagKey b) rest := by
  cases a <;> cases b <;> rfl

theorem nat_cmpStep (a b : Nat) (rest : Int) :
    (if a ≠ b then (a : Int) - b else rest) = cmpStep a b rest := by
  simp only [cmpStep,ne_eq,Int.ofNat_inj]

theorem cmpVaryingComponent_eq (a b : VaryingComponent) :
    cmpVaryingComponent a b =
      cmpStep (flagKey a.isPatch) (flagKey b.isPatch) (cmpStep (flagKey a.isIntraStageOnly)
        (flagKey b.isIntraStageOnly) (cmpStep a.interpType b.interpType
          (cmpStep a.interpLoc b.interpLoc (a.var.location - b.var.location)))) := by
  rw [cmpVaryingComponent,flag_cmpStep,flag_cmpStep,nat_cmpStep,nat_cmpStep]

theorem cmpStep_swap (x y rest : Int) : cmpStep y x (-rest) = -cmpStep x y rest := by
  unfold cmpStep; split_ifs <;> omega

theorem cmpStep_trans {x y z r₁ r₂ r₃ : Int} (first : cmpStep x y r₁ ≤ 0) (second : cmpStep y z r₂ ≤ 0)
    (rest : r₁ ≤ 0 → r₂ ≤ 0 → r₃ ≤ 0) : cmpStep x z r₃ ≤ 0 := by
  unfold cmpStep at *; split_ifs at * <;> omega

theorem cmpVaryingComponent_swap (a b : VaryingComponent) :
    cmpVaryingComponent b a = -cmpVaryingComponent a b := by
  simp only [cmpVaryingComponent_eq,← cmpStep_swap,Int.neg_sub]

theorem cmpVaryingComponent_trans {a b c : VaryingComponent} (ab : cmpVaryingComponent a b ≤ 0)
    (bc : cmpVaryingComponent b c ≤ 0) : cmpVaryingComponent a c ≤ 0 := by
  rw [cmpVaryingComponent_eq] at *
  exact cmpStep_trans ab bc fun ab bc => cmpStep_trans ab bc fun ab bc => cmpStep_trans ab bc
    fun ab bc => cmpStep_trans ab bc fun _ _ => by omega

instance : IsTotal VaryingComponent fun a b => cmpVaryingComponent a b ≤ 0 :=
  ⟨fun a b => by rw [cmpVaryingComponent_swap b a]; omega⟩

instance : IsTrans VaryingComponent fun a b => cmpVaryingComponent a b ≤ 0 :=
  ⟨fun _ _ _ => cmpVaryingComponent_trans⟩

/-- A `qsort` that keeps records the comparison ranks equal in their array order, as a
merge sort does. -/
def stableQsort : List VaryingComponent → List VaryingComponent :=
  List.insertionSort fun a b => cmpVaryingComponent a b ≤ 0

theorem stableQsort_order : QsortOrder stableQsort := fun _ =>
  ⟨List.perm_insertionSort _ _,List.sorted_insertionSort _ _⟩

theorem sort_eq_self_of_strict {sort : List VaryingComponent → List VaryingComponent}
    (qsort : QsortOrder sort) {records : List VaryingComponent}
    (strict : records.Pairwise fun a b => cmpVaryingComponent a b < 0) : sort records = records := by
  have antisymm : IsAntisymm VaryingComponent fun a b => cmpVaryingComponent a b < 0 :=
    ⟨fun a b ab ba => by rw [cmpVaryingComponent_swap] at ba; omega⟩
  obtain ⟨perm,sorted⟩ := qsort records
  have distinct : ∀ a ∈ records, ∀ b ∈ records, a ≠ b → cmpVaryingComponent a b ≠ 0 :=
    (strict.imp fun lt => show cmpVaryingComponent _ _ ≠ 0 by omega).forall
      fun a b ne => by rw [cmpVaryingComponent_swap]; omega
  have nodup : (sort records).Nodup :=
    perm.nodup_iff.mpr (strict.imp fun lt ne => by subst ne; simp [cmpVaryingComponent] at lt)
  refine List.eq_of_perm_of_sorted perm ((sorted.and nodup).imp_of_mem ?_) strict
  intro a b aMember bMember ⟨le,ne⟩
  have := distinct a (perm.subset aMember) b (perm.subset bMember) ne
  omega

/-- `store_varying_info_idx[MAX_VARYINGS_INCL_PATCH][4]`, row by row: the 1-based record of
each packable output's position, 0 for none. -/
def InfoIdx := List Nat

def InfoIdx.get (idx : InfoIdx) (location frac : Nat) : Nat := List.getD idx (location * 4 + frac) 0

/-- The table and the number of records. -/
def storeVaryingInfoIdx (producer : NirShader) : InfoIdx × Nat :=
  (producer.varsWithMode .shaderOut).foldl (fun (idx, count) var =>
    if isGenericLocation var.location && !var.alwaysActiveIo &&
        isPackingSupportedForType (ioType var producer.stage) then
      (List.set idx ((var.location - varyingSlotVar0).toNat * 4 + var.locationFrac) (count + 1),count + 1)
    else (idx,count)) (List.replicate (maxVaryingsInclPatch * 4) 0,0)

/-- The variable an instruction of the shader reads through a deref of the mode:
`load_deref` (and, when `interp` holds, the `interp_deref_at_*` intrinsics). -/
def NirShader.derefVar? (shader : NirShader) (mode : NirVariableMode) (interp : Bool) :
    NirInstr → Option NirVariable
  | .loadDeref _ k => (shader.vars.get? k).filter fun var => var.mode == mode
  | .interpDeref _ k => if interp then (shader.vars.get? k).filter fun var => var.mode == mode else none
  | _ => none

/-- The record a variable's load initialises. -/
def VaryingComponent.ofVar (var : NirVariable) (type : GlslType) (defaultToSmoothInterp : Bool)
    (intraStageOnly : Bool) : VaryingComponent :=
  ⟨var,getInterpType var type defaultToSmoothInterp,getInterpLoc var,type.is32bit,var.patch,intraStageOnly⟩

/-- The record number a read of a generic variable looks up (`0` for a built-in). -/
def infoIdx (idx : InfoIdx) (var : NirVariable) : Option Nat :=
  if var.location < varyingSlotVar0 then none
  else if maxVaryingsInclPatch ≤ (var.location - varyingSlotVar0).toNat then none
  else some (idx.get (var.location - varyingSlotVar0).toNat var.locationFrac)

/-- `if (!vc_info->initialised)`: the record of a 1-based number, set once. -/
def initRecord (records : List (Option VaryingComponent)) (number : Nat) (record : VaryingComponent) :
    List (Option VaryingComponent) :=
  match records[number - 1]? with
  | some none => records.set (number - 1) (some record)
  | _ => records

/-- The walk over the consumer's loads and interpolations. -/
def gatherConsumerReads (consumer : NirShader) (idx : InfoIdx) (defaultToSmoothInterp : Bool)
    (records : List (Option VaryingComponent)) : List (Option VaryingComponent) :=
  (consumer.instrs.filterMap (consumer.derefVar? .shaderIn true)).foldl (fun records inVar =>
    match infoIdx idx inVar with
    | some number =>
      if number = 0 then records
      else initRecord records number (.ofVar inVar (ioType inVar consumer.stage) defaultToSmoothInterp false)
    | none => records) records

/-- The walk over one block of a TCS's output loads: `none` when a read output has no
record, which abandons packing and leaves the block (`break`). -/
def gatherTcsBlock (producer : NirShader) (idx : InfoIdx) (defaultToSmoothInterp : Bool) :
    List NirInstr → List (Option VaryingComponent) → Option (List (Option VaryingComponent))
  | [], records => some records
  | instr :: rest, records =>
    match producer.derefVar? .shaderOut false instr with
    | none => gatherTcsBlock producer idx defaultToSmoothInterp rest records
    | some outVar =>
      match infoIdx idx outVar with
      | none => gatherTcsBlock producer idx defaultToSmoothInterp rest records
      | some 0 => none
      | some number =>
        let type := if nirIsPerVertexIo outVar producer.stage then outVar.type.arrayElement else outVar.type
        gatherTcsBlock producer idx defaultToSmoothInterp rest
          (initRecord records number (.ofVar outVar type defaultToSmoothInterp true))

/-- The TCS walk over every block: after an abandonment the remaining blocks only touch
records that are dropped, so the walk stops there. -/
def gatherTcsReads (producer : NirShader) (idx : InfoIdx) (defaultToSmoothInterp : Bool) :
    List (List NirInstr) → List (Option VaryingComponent) → Option (List (Option VaryingComponent))
  | [], records => some records
  | block :: blocks, records =>
    (gatherTcsBlock producer idx defaultToSmoothInterp block records).bind
      (gatherTcsReads producer idx defaultToSmoothInterp blocks)

/-- `gather_varying_component_info`: the records, or none at all when packing is abandoned
(a read TCS output without a record, or a record no read initialised). -/
def gatherVaryingComponentInfo (producer consumer : NirShader) (defaultToSmoothInterp : Bool) :
    List VaryingComponent :=
  let (idx,count) := storeVaryingInfoIdx producer
  let records := gatherConsumerReads consumer idx defaultToSmoothInterp (List.replicate count none)
  let records := if producer.stage = .tessCtrl then
      gatherTcsReads producer idx defaultToSmoothInterp producer.blocks records
    else some records
  match records with
  | none => []
  | some records => (records.mapM id).getD []

/-- The state `compact_components` threads through `assign_remap_locations`: the components
taken so far, and the slot and component the scan resumes from. -/
structure PackState where
  assigned : AssignedTable
  cursor : Nat
  comp : Nat

/-- The `while` loop of `assign_remap_locations`: the first free component from `comp`. -/
def skipTaken (comps : BitVec 8) : Nat → Nat → Nat
  | 0, comp => comp
  | fuel + 1, comp => if comp < 4 ∧ comps.getLsbD comp then skipTaken comps fuel (comp + 1) else comp

/-- The `for` loop of `assign_remap_locations` from `cursor`, for `fuel` slots: the slot
and component it places the record at, or the cursor and component it ends with. -/
def scanSlots (assigned : AssignedTable) (interpType interpLoc : Nat) :
    Nat → Nat → Nat → Nat × Nat × Bool
  | 0, cursor, comp => (cursor,comp,false)
  | fuel + 1, cursor, comp =>
    let slot := assigned.get cursor
    if slot.comps ≠ 0 ∧ (slot.interpType ≠ interpType ∨ slot.interpLoc ≠ interpLoc) then
      scanSlots assigned interpType interpLoc fuel (cursor + 1) 0
    else if slot.comps ≠ 0 ∧ !slot.is32bit then scanSlots assigned interpType interpLoc fuel (cursor + 1) 0
    else
      let comp := if slot.comps ≠ 0 then skipTaken slot.comps 4 comp else comp
      if comp = 4 then scanSlots assigned interpType interpLoc fuel (cursor + 1) 0
      else (cursor,comp,true)

/-- `assign_remap_locations`: the new state, and the slot and component the record is
given, if any. The write of that place to `remap` is `writeRemap`. -/
def assignRemapLocations (state : PackState) (info : VaryingComponent) (maxLocation : Nat) :
    PackState × Option (Nat × Nat) :=
  match scanSlots state.assigned info.interpType info.interpLoc (maxLocation - state.cursor)
      state.cursor state.comp with
  | (cursor,comp,true) =>
    let entry := state.assigned.get cursor
    (⟨state.assigned.set cursor
        ⟨entry.comps ||| BitVec.ofNat 8 (2^comp),info.interpType,info.interpLoc,info.is32bit⟩,
      cursor,comp + 1⟩,some (cursor,comp))
  | (cursor,comp,false) => (⟨state.assigned,cursor,comp⟩,none)

/-- `remap[location][location_frac] = (comp, cursor + VARYING_SLOT_VAR0)` for a placed record. -/
def writeRemap (remap : RemapTable) (info : VaryingComponent) : Option (Nat × Nat) → RemapTable
  | some (slot,comp) =>
    remap.set (info.var.location - varyingSlotVar0).toNat info.var.locationFrac ⟨comp,slot + varyingSlotVar0⟩
  | none => remap

/-- The loop body of `compact_components` on one sorted record: patches from slot
`MAX_VARYING`; a non-patch record that reaches `MAX_VARYING` unplaced is tried once more
from 0. -/
def placeRecord (state : PackState) (info : VaryingComponent) : PackState × Option (Nat × Nat) :=
  if info.isPatch then
    let state := if state.cursor < maxVarying then { state with cursor := maxVarying, comp := 0 } else state
    assignRemapLocations state info maxVaryingsInclPatch
  else
    let first := assignRemapLocations state info maxVarying
    if first.1.cursor = maxVarying then
      assignRemapLocations { first.1 with cursor := 0, comp := 0 } info maxVarying
    else first

/-- One turn of the loop with the write to `remap`. -/
def packStep (acc : PackState × RemapTable) (info : VaryingComponent) : PackState × RemapTable :=
  let placed := placeRecord acc.1 info
  (placed.1,writeRemap acc.2 info placed.2)

/-- The remap table `compact_components` builds with a given `qsort`. -/
def compactRemap (sort : List VaryingComponent → List VaryingComponent) (producer consumer : NirShader)
    (assigned : AssignedTable) (defaultToSmoothInterp : Bool) : RemapTable :=
  ((sort (gatherVaryingComponentInfo producer consumer defaultToSmoothInterp)).foldl packStep
    (⟨assigned,0,0⟩,.zero)).2

/-- `compact_components`: both stages remapped; the consumer's `out_slots_read` masks are
the code's discarded zeros. -/
def compactComponents (sort : List VaryingComponent → List VaryingComponent) (producer consumer : NirShader)
    (assigned : AssignedTable) (defaultToSmoothInterp : Bool) : NirShader × NirShader :=
  let remap := compactRemap sort producer consumer assigned defaultToSmoothInterp
  let (consumer',consumerMasks) := remapSlotsAndComponents consumer .shaderIn remap
    ⟨consumer.inputsRead,0,consumer.patchInputsRead,0⟩
  let (producer',producerMasks) := remapSlotsAndComponents producer .shaderOut remap
    ⟨producer.outputsWritten,producer.outputsRead,producer.patchOutputsWritten,producer.patchOutputsRead⟩
  ({ producer' with
      outputsWritten := producerMasks.slotsUsed
      outputsRead := producerMasks.outSlotsRead
      patchOutputsWritten := producerMasks.pSlotsUsed
      patchOutputsRead := producerMasks.pOutSlotsRead },
    { consumer' with inputsRead := consumerMasks.slotsUsed, patchInputsRead := consumerMasks.pSlotsUsed })

/-- The components both stages' unmoveable varyings take. -/
def unmoveableComps (producer consumer : NirShader) (defaultToSmoothInterp : Bool) : AssignedTable :=
  getUnmoveableComponentsMasks consumer .shaderIn
    (getUnmoveableComponentsMasks producer .shaderOut .zero producer.stage defaultToSmoothInterp)
    consumer.stage defaultToSmoothInterp

/-- `nir_compact_varyings`. -/
def nirCompactVaryings (sort : List VaryingComponent → List VaryingComponent) (producer consumer : NirShader)
    (defaultToSmoothInterp : Bool) : NirShader × NirShader :=
  compactComponents sort producer consumer (unmoveableComps producer consumer defaultToSmoothInterp)
    defaultToSmoothInterp

/-! ### Runs on small interfaces -/

/-- Where each variable of a shader sits: `(location, location_frac)`. -/
def NirShader.positions (shader : NirShader) : List (Int × Nat) :=
  shader.vars.map fun var => (var.location, var.locationFrac)

theorem nirCompactVaryings_qsort {sort : List VaryingComponent → List VaryingComponent}
    (qsort : QsortOrder sort) {producer consumer : NirShader} {smooth : Bool}
    (strict : (gatherVaryingComponentInfo producer consumer smooth).Pairwise
      fun a b => cmpVaryingComponent a b < 0) :
    nirCompactVaryings sort producer consumer smooth = nirCompactVaryings id producer consumer smooth := by
  simp only [nirCompactVaryings,compactComponents,compactRemap,sort_eq_self_of_strict qsort strict,id]

/-- A float scalar `x` captured by transform feedback at `VAR0.x`, and a float scalar `y`
at `VAR1.x`, written by a vertex shader and read by a fragment shader. -/
def vsXfbScalar : NirShader :=
  .ofVars .vertex [{ NirVariable.plain (.vector .float 1) .shaderOut 32 0 with alwaysActiveIo := true },
    .plain (.vector .float 1) .shaderOut 33 0] []

def fsXfbScalar : NirShader :=
  .ofVars .fragment [{ NirVariable.plain (.vector .float 1) .shaderIn 32 0 with alwaysActiveIo := true },
    .plain (.vector .float 1) .shaderIn 33 0] [[.loadDeref 0 0,.loadDeref 1 1]]

/-- The always-active scalar is packable, so `get_unmoveable_components_masks` skips it, and
always active, so it is no record either: nothing reserves `VAR0.x`, and `y` is moved onto
it in both stages, whatever order `qsort` gives. -/
theorem xfb_scalar_overwritten {sort : List VaryingComponent → List VaryingComponent}
    (qsort : QsortOrder sort) :
    (nirCompactVaryings sort vsXfbScalar fsXfbScalar true).1.positions = [(32,0),(32,0)] ∧
    (nirCompactVaryings sort vsXfbScalar fsXfbScalar true).2.positions = [(32,0),(32,0)] := by
  rw [nirCompactVaryings_qsort qsort (by decide)]
  decide

theorem xfb_scalar_overwritten_stable :
    QsortOrder stableQsort ∧
    (nirCompactVaryings stableQsort vsXfbScalar fsXfbScalar true).1.positions = [(32,0),(32,0)] ∧
    (nirCompactVaryings stableQsort vsXfbScalar fsXfbScalar true).2.positions = [(32,0),(32,0)] :=
  ⟨stableQsort_order,xfb_scalar_overwritten stableQsort_order⟩

/-- A smooth float scalar captured by transform feedback at `VAR0.y`, and a flat integer
scalar at `VAR1.x`. -/
def vsXfbSmooth : NirShader :=
  .ofVars .vertex [{ NirVariable.plain (.vector .float 1) .shaderOut 32 1 with alwaysActiveIo := true },
    .plain (.vector .int 1) .shaderOut 33 0] []

def fsXfbSmooth : NirShader :=
  .ofVars .fragment [{ NirVariable.plain (.vector .float 1) .shaderIn 32 1 with alwaysActiveIo := true },
    .plain (.vector .int 1) .shaderIn 33 0] [[.loadDeref 0 0,.loadDeref 1 1]]

/-- The integer scalar is moved into `VAR0`, whose other component holds the smooth
always-active scalar: one slot, two interpolation types. -/
theorem flat_joins_smooth_slot {sort : List VaryingComponent → List VaryingComponent}
    (qsort : QsortOrder sort) :
    (nirCompactVaryings sort vsXfbSmooth fsXfbSmooth true).2.positions = [(32,1),(32,0)] ∧
    (nirCompactVaryings sort vsXfbSmooth fsXfbSmooth true).2.vars.map
      (fun var => getInterpType var (ioType var .fragment) true) = [interpModeSmooth,interpModeFlat] := by
  rw [nirCompactVaryings_qsort qsort (by decide)]
  decide

theorem flat_joins_smooth_slot_stable :
    QsortOrder stableQsort ∧
    (nirCompactVaryings stableQsort vsXfbSmooth fsXfbSmooth true).2.positions = [(32,1),(32,0)] ∧
    (nirCompactVaryings stableQsort vsXfbSmooth fsXfbSmooth true).2.vars.map
      (fun var => getInterpType var (ioType var .fragment) true) = [interpModeSmooth,interpModeFlat] :=
  ⟨stableQsort_order,flat_joins_smooth_slot stableQsort_order⟩

end Mesa.Nir

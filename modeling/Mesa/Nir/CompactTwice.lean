import Mesa.Nir.CompactMoves

/-! `nir_compact_varyings` run on its own output. When the first run places every record,
each at a slot no lower than the record sorted before it, the second run gathers the same
records from the moved inputs (and a TCS's moved outputs), sorts them into the first run's
slot order, and gives each the slot it already has: no variable changes its location. -/
namespace Mesa.Nir

/-! ### The law's preconditions -/

/-- A variable's place: `(location, location_frac)`. -/
def NirVariable.place (var : NirVariable) : Int × Nat := (var.location,var.locationFrac)

/-- The interfaces the relocation law speaks of, as far as a second run needs them: the
generic outputs at pairwise distinct places, none always active, each taking a slot and a
component; every generic input at the place of a generic output of the same per-vertex type. -/
structure CompactPreconditions (producer consumer : NirShader) : Prop where
  outputsApart : ((producer.genericVars .shaderOut).map NirVariable.place).Nodup
  notAlwaysActive : ∀ u ∈ producer.genericVars .shaderOut, u.alwaysActiveIo = false
  takesComponent : ∀ u ∈ producer.genericVars .shaderOut, 0 < slotCount u producer.stage ∧ 0 < getNumComponents u
  inputsWritten : ∀ v ∈ consumer.genericVars .shaderIn, ∃ u ∈ producer.genericVars .shaderOut,
    u.place = v.place ∧ ioType u producer.stage = ioType v consumer.stage

theorem tableIndex_eq_iff {a b : NirVariable} (generic : isGenericLocation a.location = true)
    (generic' : isGenericLocation b.location = true) : tableIndex a = tableIndex b ↔ a.place = b.place := by
  have := a.locationFrac_lt
  have := b.locationFrac_lt
  simp only [isGenericLocation,decide_eq_true_eq,varyingSlotVar0_eq,maxVaryingsInclPatch_eq] at generic generic'
  simp only [tableIndex,NirVariable.place,Prod.mk.injEq,varyingSlotVar0_eq]
  omega

theorem mem_genericVars {shader : NirShader} {mode : NirVariableMode} {var : NirVariable} :
    var ∈ shader.genericVars mode ↔ var ∈ shader.vars ∧ var.mode = mode ∧ isGenericLocation var.location = true := by
  simp [NirShader.genericVars,and_assoc]

theorem mem_packableOutputs {producer : NirShader} {var : NirVariable} :
    var ∈ producer.packableOutputs ↔ var ∈ producer.genericVars .shaderOut ∧ var.alwaysActiveIo = false ∧
      isPackingSupportedForType (ioType var producer.stage) = true := by
  simp only [NirShader.packableOutputs,NirShader.varsWithMode,mem_genericVars,List.mem_filter,
    Bool.and_eq_true,beq_iff_eq,Bool.not_eq_true']
  tauto

theorem mem_of_derefVar? {shader : NirShader} {mode : NirVariableMode} {interp : Bool} {instr : NirInstr}
    {var : NirVariable} (read : shader.derefVar? mode interp instr = some var) : var ∈ shader.vars ∧ var.mode = mode := by
  have fromVars : ∀ k, (shader.vars.get? k).filter (fun var => var.mode == mode) = some var →
      var ∈ shader.vars ∧ var.mode = mode := fun k found => by
    rw [Option.filter_eq_some] at found
    exact ⟨List.get?_mem found.1,by simpa using found.2⟩
  cases instr with
  | loadDeref _ k => exact fromVars k read
  | interpDeref _ k => cases interp <;> first | cases read | exact fromVars k read
  | _ => cases read

theorem mem_inputReads {consumer : NirShader} {var : NirVariable} (member : var ∈ consumer.inputReads) :
    var ∈ consumer.vars ∧ var.mode = .shaderIn :=
  have ⟨_,_,read⟩ := List.mem_filterMap.mp member
  mem_of_derefVar? read

theorem mem_outputLoads {producer : NirShader} {var : NirVariable} (member : var ∈ producer.outputLoads) :
    var ∈ producer.vars ∧ var.mode = .shaderOut :=
  have ⟨_,_,read⟩ := List.mem_filterMap.mp member
  mem_of_derefVar? read

/-- A variable `get_unmoveable_components_masks` marks in either stage. -/
def UnmoveableIn (producer consumer : NirShader) (var : NirVariable) : Prop :=
  var ∈ producer.varsWithMode .shaderOut ∧ isUnmoveable producer.stage var = true ∨
    var ∈ consumer.varsWithMode .shaderIn ∧ isUnmoveable consumer.stage var = true

theorem mem_genericVars_of_unmoveable {shader : NirShader} {mode : NirVariableMode} {stage : GlShaderStage}
    {var : NirVariable} (member : var ∈ shader.varsWithMode mode) (unmoveable : isUnmoveable stage var = true) :
    var ∈ shader.genericVars mode := by
  simp only [NirShader.varsWithMode,List.mem_filter,beq_iff_eq] at member
  simp only [isUnmoveable,Bool.and_eq_true] at unmoveable
  exact mem_genericVars.mpr ⟨member.1,member.2,unmoveable.1⟩

theorem unmoveableComps_length (producer consumer : NirShader) (defaultToSmoothInterp : Bool) :
    (unmoveableComps producer consumer defaultToSmoothInterp).length = maxVaryingsInclPatch := by
  unfold unmoveableComps
  rw [getUnmoveableComponentsMasks_eq,getUnmoveableComponentsMasks_eq,foldl_markIfUnmoveable_length,
    foldl_markIfUnmoveable_length]
  rfl

/-- The run of `compact_components` that `nir_compact_varyings` makes gives each record it
places a component of the generic slots that no unmoveable varying of either stage takes,
and gives no component to two records; the table it returns holds these places. -/
theorem compaction_places_free_components (sort : List VaryingComponent → List VaryingComponent)
    (producer consumer : NirShader) (defaultToSmoothInterp : Bool) :
    let assigned := unmoveableComps producer consumer defaultToSmoothInterp
    let records := sort (gatherVaryingComponentInfo producer consumer defaultToSmoothInterp)
    compactRemap sort producer consumer assigned defaultToSmoothInterp =
        writeRemaps .zero (records.zip (placements ⟨assigned,0,0⟩ records)) ∧
      (∀ slot comp, some (slot,comp) ∈ placements ⟨assigned,0,0⟩ records →
        slot < maxVaryingsInclPatch ∧ comp < 4 ∧ ¬assigned.Taken slot comp) ∧
      (placements ⟨assigned,0,0⟩ records).Pairwise fun p q => ∀ x ∈ p, x ∉ q :=
  ⟨compactRemap_eq _ _ _ _ _,
    placements_fresh ⟨unmoveableComps_length producer consumer defaultToSmoothInterp,Nat.zero_le 4⟩ _⟩

theorem UnmoveableIn.of_moved {producer consumer producer' consumer' : NirShader} {remap : RemapTable}
    (table : remap.Generic) (stages : producer'.stage = producer.stage ∧ consumer'.stage = consumer.stage)
    (outputs : producer'.vars = producer.vars.map (remapIfGeneric .shaderOut remap))
    (inputs : consumer'.vars = consumer.vars.map (remapIfGeneric .shaderIn remap))
    (fixed : ∀ w, UnmoveableIn producer consumer w → (List.getD remap (tableIndex w) ⟨0,0⟩).location = 0)
    {w : NirVariable} (unmoveable : UnmoveableIn producer' consumer' w) : UnmoveableIn producer consumer w := by
  rcases unmoveable with ⟨member,marked⟩ | ⟨member,marked⟩
  · rw [varsWithMode_moved (remapIfGeneric_mode _ _) outputs] at member
    obtain ⟨v,inVars,rfl⟩ := List.mem_map.mp member
    rw [stages.1,isUnmoveable_remapIfGeneric table] at marked
    rw [remapIfGeneric_of_empty _ (fixed v (Or.inl ⟨inVars,marked⟩))]
    exact Or.inl ⟨inVars,marked⟩
  · rw [varsWithMode_moved (remapIfGeneric_mode _ _) inputs] at member
    obtain ⟨v,inVars,rfl⟩ := List.mem_map.mp member
    rw [stages.2,isUnmoveable_remapIfGeneric table] at marked
    rw [remapIfGeneric_of_empty _ (fixed v (Or.inr ⟨inVars,marked⟩))]
    exact Or.inr ⟨inVars,marked⟩

/-- What the second run does to a variable: it keeps its location, and a variable whose type
cannot be packed is not touched at all. -/
def KeepsPlace (stage : GlShaderStage) (before after : NirVariable) : Prop :=
  after.location = before.location ∧ (isPackingSupportedForType (ioType before stage) = false → after = before)

theorem forall₂_keepsPlace {vars : List NirVariable} {mode : NirVariableMode} {stage : GlShaderStage}
    {remap : RemapTable} (keeps : remap.KeepsSlots)
    (fixed : ∀ var ∈ vars, var.mode = mode → isUnmoveable stage var = true →
      (List.getD remap (tableIndex var) ⟨0,0⟩).location = 0) :
    List.Forall₂ (KeepsPlace stage) vars (vars.map (remapIfGeneric mode remap)) := by
  rw [List.forall₂_map_right_iff,List.forall₂_same]
  intro var member
  unfold remapIfGeneric
  split
  next moved =>
    simp only [Bool.and_eq_true,beq_iff_eq] at moved
    refine ⟨remapVariable_location keeps moved.2,fun fixedType => remapVariable_of_empty ?_⟩
    exact fixed var member moved.1 (by simp [isUnmoveable,moved.2,fixedType])
  · exact ⟨rfl,fun _ => rfl⟩

theorem resorted_records {sort₁ sort₂ : List VaryingComponent → List VaryingComponent}
    (first : QsortOrder sort₁) (second : QsortOrder sort₂) {records : List VaryingComponent}
    {remap : RemapTable} {places : List (Nat × Nat)} (wide : ∀ r ∈ records, r.is32bit = true)
    (length : (sort₁ records).length = places.length) (slotsOrdered : places.Pairwise fun p q => p.1 ≤ q.1)
    (movedLocation : ∀ p ∈ (sort₁ records).zip places,
      (remapVariable remap p.1.var).location = p.2.1 + varyingSlotVar0) :
    (sort₂ (records.map fun r => { r with var := remapVariable remap r.var })).map VaryingComponent.attrs =
        (sort₁ records).map VaryingComponent.attrs ∧
      (sort₂ (records.map fun r => { r with var := remapVariable remap r.var })).map (fun a => a.var.location) =
        places.map fun q => (q.1 : Int) + varyingSlotVar0 := by
  have sortedMoved : ((sort₁ records).map fun r => { r with var := remapVariable remap r.var }).Pairwise
      fun a b => cmpVaryingComponent a b ≤ 0 := by
    rw [List.pairwise_map,← List.map_fst_zip (sort₁ records) places (Nat.le_of_eq length),List.pairwise_map]
    exact (pairwise_zip (first records).2 slotsOrdered).imp_of_mem fun member member' ordered =>
      cmp_nonpos_of_moved _ _ ordered.1 (by rw [movedLocation _ member,movedLocation _ member']; omega)
  have perm := (second _).1.trans (((first records).1.map fun r => { r with var := remapVariable remap r.var }).symm)
  have keys := sorted_perm_keys perm (second _).2 sortedMoved
  constructor
  · rw [map_eq_of_map_eq keys fun a member b member' same => ?_,List.map_map]
    · rfl
    obtain ⟨patch,_,interpType,interpLoc,_⟩ := sortKey_eq_iff.mp same
    obtain ⟨r,inRecords,rfl⟩ := List.mem_map.mp ((second _).1.subset member)
    obtain ⟨r',inSorted,rfl⟩ := List.mem_map.mp member'
    simp only [VaryingComponent.attrs] at patch interpType interpLoc ⊢
    rw [patch,interpType,interpLoc,wide r inRecords,wide r' ((first records).1.subset inSorted)]
  · rw [map_eq_of_map_eq keys fun a _ b _ same => (sortKey_eq_iff.mp same).2.2.2.2,List.map_map]
    exact map_eq_map_of_zip length fun p member => movedLocation p member

section Preconditions

variable {producer consumer : NirShader} (pre : CompactPreconditions producer consumer)
include pre

theorem CompactPreconditions.outputs_nodup : (producer.packableOutputs.map tableIndex).Nodup := by
  have sub : producer.packableOutputs.Sublist (producer.genericVars .shaderOut) := by
    unfold NirShader.packableOutputs NirShader.varsWithMode NirShader.genericVars
    rw [List.filter_filter]
    exact List.monotone_filter_right _ fun var keep => by
      simp only [Bool.and_eq_true] at keep ⊢
      exact ⟨keep.2,keep.1.1.1⟩
  refine List.Nodup.map_on (fun a member b member' same => ?_) ((pre.outputsApart.of_map _).sublist sub)
  have a_generic := (mem_genericVars.mp (sub.subset member)).2.2
  have b_generic := (mem_genericVars.mp (sub.subset member')).2.2
  exact List.inj_on_of_nodup_map pre.outputsApart (sub.subset member) (sub.subset member')
    ((tableIndex_eq_iff a_generic b_generic).mp same)

theorem CompactPreconditions.unnumbered_output {w : NirVariable} (member : w ∈ producer.genericVars .shaderOut)
    (unnumbered : w ∉ producer.packableOutputs) :
    isUnmoveable producer.stage w = true ∧ tableIndex w ∉ producer.packableOutputs.map tableIndex := by
  obtain ⟨_,_,generic⟩ := mem_genericVars.mp member
  have fixed : isPackingSupportedForType (ioType w producer.stage) = false := by
    by_contra packable
    exact unnumbered (mem_packableOutputs.mpr ⟨member,pre.notAlwaysActive w member,by simpa using packable⟩)
  refine ⟨by simp [isUnmoveable,generic,fixed],fun numbered => ?_⟩
  obtain ⟨u,numberedU,same⟩ := List.mem_map.mp numbered
  have uMember := (mem_packableOutputs.mp numberedU).1
  have := List.inj_on_of_nodup_map pre.outputsApart uMember member
    ((tableIndex_eq_iff (mem_genericVars.mp uMember).2.2 generic).mp same)
  exact unnumbered (this ▸ numberedU)

theorem CompactPreconditions.unmoveable_place (defaultToSmoothInterp : Bool) {w : NirVariable}
    (unmoveable : UnmoveableIn producer consumer w) :
    tableIndex w ∉ producer.packableOutputs.map tableIndex ∧
      (unmoveableComps producer consumer defaultToSmoothInterp).Taken (w.location - varyingSlotVar0).toNat
        w.locationFrac := by
  have marked : ∀ u ∈ producer.genericVars .shaderOut, isUnmoveable producer.stage u = true →
      (unmoveableComps producer consumer defaultToSmoothInterp).Taken (u.location - varyingSlotVar0).toNat
        u.locationFrac := fun u member fixed => by
    obtain ⟨inVars,mode,_⟩ := mem_genericVars.mp member
    unfold unmoveableComps
    rw [getUnmoveableComponentsMasks_eq,getUnmoveableComponentsMasks_eq]
    exact foldl_markIfUnmoveable_taken _ _ _ (foldl_markIfUnmoveable_taken_of_mem _
      (List.mem_filter.mpr ⟨inVars,by simp [mode]⟩) fixed (by simp [AssignedTable.zero])
      (pre.takesComponent u member).1 (pre.takesComponent u member).2)
  have unnumbered : ∀ u ∈ producer.genericVars .shaderOut, isUnmoveable producer.stage u = true →
      u ∉ producer.packableOutputs := fun u _ fixed numbered => by
    simp [isUnmoveable,(mem_packableOutputs.mp numbered).2.2] at fixed
  rcases unmoveable with ⟨member,fixed⟩ | ⟨member,fixed⟩
  · have generic := mem_genericVars_of_unmoveable member fixed
    exact ⟨(pre.unnumbered_output generic (unnumbered w generic fixed)).2,marked w generic fixed⟩
  · have generic := mem_genericVars_of_unmoveable member fixed
    obtain ⟨u,output,place,type⟩ := pre.inputsWritten w generic
    have uFixed : isUnmoveable producer.stage u = true := by
      simp only [isUnmoveable,type,(mem_genericVars.mp output).2.2,(mem_genericVars.mp generic).2.2] at fixed ⊢
      exact fixed
    obtain ⟨location,frac⟩ := Prod.mk.inj place
    have same : tableIndex w = tableIndex u := by simp only [tableIndex,location,frac]
    rw [same,← location,← frac]
    exact ⟨(pre.unnumbered_output output (unnumbered u output uFixed)).2,marked u output uFixed⟩

theorem CompactPreconditions.firstRun_movesApart {sort : List VaryingComponent → List VaryingComponent}
    (qsort : QsortOrder sort) (defaultToSmoothInterp : Bool) {places : List (Nat × Nat)}
    (placed : placements ⟨unmoveableComps producer consumer defaultToSmoothInterp,0,0⟩
      (sort (gatherVaryingComponentInfo producer consumer defaultToSmoothInterp)) = places.map some) :
    MovesApart (compactRemap sort producer consumer (unmoveableComps producer consumer defaultToSmoothInterp)
        defaultToSmoothInterp) (producer.packableOutputs.map tableIndex)
      (fun i => ∃ w, UnmoveableIn producer consumer w ∧ tableIndex w = i) := by
  rw [compactRemap_eq,placed]
  rcases gatherVaryingComponentInfo_spec producer consumer defaultToSmoothInterp pre.outputs_nodup with
    empty | ⟨sameIndices,records⟩
  · rw [empty,(qsort []).1.eq_nil,List.zip_nil_left]
    have zero : ∀ i, (List.getD (writeRemaps RemapTable.zero []) i ⟨0,0⟩).location = 0 := fun i => by
      rw [writeRemaps,List.foldl_nil,RemapTable.getD_zero]
    have stays : ∀ i, RemapTable.newPlace (writeRemaps RemapTable.zero []) i = i := fun i => if_pos (zero i)
    refine ⟨fun i => Or.inl (zero i),fun i _ => zero i,fun i _ j _ same => ?_,fun i member => ?_⟩
    · rwa [stays,stays] at same
    · rw [stays]
      rintro ⟨w,unmoveable,rfl⟩
      exact (pre.unmoveable_place defaultToSmoothInterp unmoveable).1 member
  · have perm := ((qsort (gatherVaryingComponentInfo producer consumer defaultToSmoothInterp)).1.map
      fun r => tableIndex r.var)
    rw [sameIndices] at perm
    refine MovesApart.perm (writeRemaps_movesApart (unmoveableComps_length _ _ _)
      (perm.nodup_iff.mpr pre.outputs_nodup) (fun r member => (records r ((qsort _).1.subset member)).1) placed ?_)
      perm
    · rintro slot comp small free ⟨w,unmoveable,place⟩
      have taken := (pre.unmoveable_place defaultToSmoothInterp unmoveable).2
      have := w.locationFrac_lt
      obtain ⟨rfl,rfl⟩ : (w.location - varyingSlotVar0).toNat = slot ∧ w.locationFrac = comp := by
        unfold tableIndex at place; omega
      exact free taken

theorem CompactPreconditions.numbered_or_unmoveable {v : NirVariable} (member : v ∈ consumer.genericVars .shaderIn) :
    tableIndex v ∈ producer.packableOutputs.map tableIndex ∨ UnmoveableIn producer consumer v := by
  obtain ⟨u,output,place,type⟩ := pre.inputsWritten v member
  obtain ⟨inVars,mode,generic⟩ := mem_genericVars.mp member
  have same : tableIndex v = tableIndex u := by simp only [tableIndex,(Prod.mk.inj place).1,(Prod.mk.inj place).2]
  by_cases packable : isPackingSupportedForType (ioType u producer.stage) = true
  · exact Or.inl (same ▸ List.mem_map_of_mem _
      (mem_packableOutputs.mpr ⟨output,pre.notAlwaysActive u output,packable⟩))
  · refine Or.inr (Or.inr ⟨List.mem_filter.mpr ⟨inVars,by simp [mode]⟩,?_⟩)
    simp only [isUnmoveable,generic,← type,Bool.not_eq_true] at packable ⊢
    simp [packable]

theorem CompactPreconditions.unmoveable_of_unnumbered {u : NirVariable} (output : u ∈ producer.genericVars .shaderOut)
    (unnumbered : tableIndex u ∉ producer.packableOutputs.map tableIndex) : UnmoveableIn producer consumer u := by
  obtain ⟨inVars,mode,generic⟩ := mem_genericVars.mp output
  have unpackable : isPackingSupportedForType (ioType u producer.stage) = false := by
    by_contra packable
    exact unnumbered (List.mem_map_of_mem _
      (mem_packableOutputs.mpr ⟨output,pre.notAlwaysActive u output,by simpa using packable⟩))
  exact .inl ⟨List.mem_filter.mpr ⟨inVars,by simp [mode]⟩,by simp [isUnmoveable,generic,unpackable]⟩

/-- The second run gathers the first run's records, read from the moved inputs and, for a
TCS, from the moved outputs it reads back. -/
theorem CompactPreconditions.second_gather {remap : RemapTable}
    (apart : MovesApart remap (producer.packableOutputs.map tableIndex)
      (fun i => ∃ w, UnmoveableIn producer consumer w ∧ tableIndex w = i))
    {producer' consumer' : NirShader} (stages : producer'.stage = producer.stage ∧ consumer'.stage = consumer.stage)
    (outputs : producer'.vars = producer.vars.map (remapIfGeneric .shaderOut remap))
    (inputs : consumer'.vars = consumer.vars.map (remapIfGeneric .shaderIn remap))
    (blocks : producer'.blocks = producer.blocks ∧ consumer'.blocks = consumer.blocks) (defaultToSmoothInterp : Bool) :
    gatherVaryingComponentInfo producer' consumer' defaultToSmoothInterp =
      (gatherVaryingComponentInfo producer consumer defaultToSmoothInterp).map
        fun r => { r with var := remapVariable remap r.var } := by
  have moved := packableOutputs_moved apart.generic stages.1 outputs
  have newPlace : ∀ u ∈ producer.packableOutputs,
      tableIndex (remapIfGeneric .shaderOut remap u) = remap.newPlace (tableIndex u) := fun u member => by
    obtain ⟨_,mode,generic⟩ := mem_genericVars.mp (mem_packableOutputs.mp member).1
    rw [remapIfGeneric_of_generic remap mode generic,tableIndex_remapVariable apart.generic]
  have places : producer'.packableOutputs.map tableIndex = (producer.packableOutputs.map tableIndex).map remap.newPlace := by
    rw [moved,List.map_map,List.map_map]
    exact List.map_congr_left fun u member => newPlace u member
  have distinct : (producer'.packableOutputs.map tableIndex).Nodup := by
    rw [places]
    exact pre.outputs_nodup.map_on fun i member j member' same => apart.injective i member j member' same
  obtain ⟨count,numbers,zeros⟩ := storeVaryingInfoIdx_spec producer pre.outputs_nodup
  obtain ⟨count',numbers',zeros'⟩ := storeVaryingInfoIdx_spec producer' distinct
  have lookup : ∀ (mode : NirVariableMode) (v : NirVariable), v.mode = mode → (isGenericLocation v.location = true →
      tableIndex v ∈ producer.packableOutputs.map tableIndex ∨ UnmoveableIn producer consumer v) →
      infoIdx (storeVaryingInfoIdx producer').1 (remapIfGeneric mode remap v) =
        infoIdx (storeVaryingInfoIdx producer).1 v := by
    intro mode v sameMode placed
    cases generic : isGenericLocation v.location
    · have same : remapIfGeneric mode remap v = v := by simp [remapIfGeneric,generic]
      rw [same,infoIdx_of_builtin _ generic,infoIdx_of_builtin _ generic]
    rw [remapIfGeneric_of_generic remap sameMode generic,
      infoIdx_of_generic _ (isGenericLocation_remapVariable apart.generic v generic),infoIdx_of_generic _ generic,
      tableIndex_remapVariable apart.generic]
    congr 1
    rcases placed generic with numbered | unmoveable
    · obtain ⟨u,numberedU,place⟩ := List.mem_map.mp numbered
      obtain ⟨n,bound,rfl⟩ := List.getElem_of_mem numberedU
      have bound' : n < producer'.packableOutputs.length := by rw [moved,List.length_map]; exact bound
      have place' : tableIndex producer'.packableOutputs[n] = remap.newPlace (tableIndex producer.packableOutputs[n]) := by
        simp only [moved,List.getElem_map]
        exact newPlace _ numberedU
      rw [← place,numbers n bound,← place',numbers' n bound']
    · have absent := (pre.unmoveable_place true unmoveable).1
      have stays : remap.newPlace (tableIndex v) = tableIndex v := if_pos (apart.outside _ absent)
      rw [stays,zeros _ absent,zeros' _ ?_]
      rw [places]
      intro moved'
      obtain ⟨j,member',same⟩ := List.mem_map.mp moved'
      exact apart.avoids j member' ⟨v,unmoveable,same.symm⟩
  refine gatherVaryingComponentInfo_move defaultToSmoothInterp (remapIfGeneric .shaderIn remap)
    (remapIfGeneric .shaderOut remap) _ stages.1 (by rw [count,count',moved,List.length_map])
    (inputReads_moved (remapIfGeneric_mode _ _) inputs blocks.2) (fun v member => ?_) (fun v member generic => ?_)
    (outputLoads_moved (remapIfGeneric_mode _ _) outputs blocks.1) (fun w member => ?_) (fun w member generic => ?_)
  · obtain ⟨inVars,mode⟩ := mem_inputReads member
    exact lookup _ v mode fun generic => pre.numbered_or_unmoveable (mem_genericVars.mpr ⟨inVars,mode,generic⟩)
  · obtain ⟨_,mode⟩ := mem_inputReads member
    rw [remapIfGeneric_of_generic remap mode generic]
    simp [VaryingComponent.ofVar,stages.2]
  · obtain ⟨inVars,mode⟩ := mem_outputLoads member
    refine lookup _ w mode fun generic => ?_
    by_cases numbered : tableIndex w ∈ producer.packableOutputs.map tableIndex
    · exact .inl numbered
    · exact .inr (pre.unmoveable_of_unnumbered (mem_genericVars.mpr ⟨inVars,mode,generic⟩) numbered)
  · obtain ⟨_,mode⟩ := mem_outputLoads member
    rw [remapIfGeneric_of_generic remap mode generic]
    simp [VaryingComponent.ofVar,stages.1]

theorem CompactPreconditions.records_is32bit
    (views : producer.stage = .tessCtrl → ∀ u ∈ producer.genericVars .shaderOut, u.perView = false)
    (defaultToSmoothInterp : Bool) :
    ∀ r ∈ gatherVaryingComponentInfo producer consumer defaultToSmoothInterp, r.is32bit = true := by
  intro r member
  rcases gatherVaryingComponentInfo_spec producer consumer defaultToSmoothInterp pre.outputs_nodup with
    empty | ⟨indices,records⟩
  · rw [empty] at member; cases member
  have numbered : tableIndex r.var ∈ producer.packableOutputs.map tableIndex :=
    indices ▸ List.mem_map_of_mem _ member
  obtain ⟨generic,⟨read,made⟩ | ⟨tcs,loaded,made⟩⟩ := records r member
  · obtain ⟨inVars,mode⟩ := mem_inputReads read
    rw [made]
    by_cases packable : isPackingSupportedForType (ioType r.var consumer.stage) = true
    · simp only [isPackingSupportedForType,Bool.and_eq_true] at packable
      exact packable.2
    · have unmoveable : UnmoveableIn producer consumer r.var :=
        Or.inr ⟨List.mem_filter.mpr ⟨inVars,by simp [mode]⟩,by simpa [isUnmoveable,generic] using packable⟩
      exact absurd numbered (pre.unmoveable_place defaultToSmoothInterp unmoveable).1
  · obtain ⟨inVars,mode⟩ := mem_outputLoads loaded
    have output : r.var ∈ producer.genericVars .shaderOut := mem_genericVars.mpr ⟨inVars,mode,generic⟩
    obtain ⟨u,numberedU,same⟩ := List.mem_map.mp numbered
    have uOutput := (mem_packableOutputs.mp numberedU).1
    obtain rfl : u = r.var := List.inj_on_of_nodup_map pre.outputsApart uOutput output
      ((tableIndex_eq_iff (mem_genericVars.mp uOutput).2.2 generic).mp same)
    have packable := (mem_packableOutputs.mp numberedU).2.2
    simp only [isPackingSupportedForType,ioType,views tcs _ output,Bool.or_false,Bool.and_eq_true] at packable
    rw [made]
    exact packable.2

/-- The second run's table keeps every slot, and leaves the places of the unmoveable
variables empty, when the first run places every record in slot order. -/
theorem CompactPreconditions.secondRun_table {sort₁ sort₂ : List VaryingComponent → List VaryingComponent}
    (first : QsortOrder sort₁) (second : QsortOrder sort₂)
    (views : producer.stage = .tessCtrl → ∀ u ∈ producer.genericVars .shaderOut, u.perView = false)
    (defaultToSmoothInterp : Bool)
    (inOrder : placedInOrder 0 (placements ⟨unmoveableComps producer consumer defaultToSmoothInterp,0,0⟩
      (sort₁ (gatherVaryingComponentInfo producer consumer defaultToSmoothInterp))) = true) :
    let once := nirCompactVaryings sort₁ producer consumer defaultToSmoothInterp
    let remap := compactRemap sort₂ once.1 once.2 (unmoveableComps once.1 once.2 defaultToSmoothInterp)
      defaultToSmoothInterp
    remap.KeepsSlots ∧
      ∀ w, UnmoveableIn producer consumer w → (List.getD remap (tableIndex w) ⟨0,0⟩).location = 0 := by
  obtain ⟨places,placed,slotsOrdered,_⟩ := placedInOrder_spec inOrder
  have apart := pre.firstRun_movesApart first defaultToSmoothInterp placed
  obtain ⟨stage₁,blocks₁,outputs⟩ := compactComponents_producer sort₁ producer consumer
    (unmoveableComps producer consumer defaultToSmoothInterp) defaultToSmoothInterp
  obtain ⟨stage₂,blocks₂,inputs⟩ := compactComponents_consumer sort₁ producer consumer
    (unmoveableComps producer consumer defaultToSmoothInterp) defaultToSmoothInterp
  have fixed : ∀ w, UnmoveableIn producer consumer w →
      (List.getD (compactRemap sort₁ producer consumer (unmoveableComps producer consumer defaultToSmoothInterp)
        defaultToSmoothInterp) (tableIndex w) ⟨0,0⟩).location = 0 := fun w unmoveable =>
    apart.outside _ (pre.unmoveable_place defaultToSmoothInterp unmoveable).1
  have sameMarks := unmoveableComps_moved apart.generic defaultToSmoothInterp ⟨stage₁,stage₂⟩ outputs inputs
    (fun w member unmoveable => fixed w (Or.inl ⟨member,unmoveable⟩))
    (fun w member unmoveable => fixed w (Or.inr ⟨member,unmoveable⟩))
  have sameRecords := pre.second_gather apart ⟨stage₁,stage₂⟩ outputs inputs ⟨blocks₁,blocks₂⟩ defaultToSmoothInterp
  dsimp only [nirCompactVaryings]
  rw [compactRemap_eq,sameMarks,sameRecords]
  have firstTable := compactRemap_eq sort₁ producer consumer (unmoveableComps producer consumer defaultToSmoothInterp)
    defaultToSmoothInterp
  rw [placed] at firstTable
  generalize compactRemap sort₁ producer consumer (unmoveableComps producer consumer defaultToSmoothInterp)
    defaultToSmoothInterp = remap₁ at apart firstTable ⊢
  have wide := pre.records_is32bit views defaultToSmoothInterp
  rcases gatherVaryingComponentInfo_spec producer consumer defaultToSmoothInterp pre.outputs_nodup with
    empty | ⟨indices,records⟩
  · rw [empty,List.map_nil,(second []).1.eq_nil,List.zip_nil_left]
    exact ⟨fun i => .inl (congrArg VaryingLoc.location (RemapTable.getD_zero i)),
      fun w _ => congrArg VaryingLoc.location (RemapTable.getD_zero _)⟩
  have generic := fun r member => (records r member).1
  clear records
  generalize gatherVaryingComponentInfo producer consumer defaultToSmoothInterp = records at *
  refine ⟨?_,fun w unmoveable => ?_⟩
  swap
  · rw [writeRemaps_getD_of_absent,RemapTable.getD_zero]
    intro p member _ same
    obtain ⟨r,inRecords,moved⟩ := List.mem_map.mp ((second _).1.subset (List.of_mem_zip member).1)
    rw [← moved] at same
    change tableIndex (remapVariable remap₁ r.var) = tableIndex w at same
    rw [tableIndex_remapVariable apart.generic] at same
    exact apart.avoids _ (indices ▸ List.mem_map_of_mem _ inRecords) ⟨w,unmoveable,same.symm⟩
  have distinct : ((sort₁ records).map fun r => tableIndex r.var).Nodup :=
    ((first records).1.map _).nodup_iff.mpr (indices ▸ pre.outputs_nodup)
  obtain ⟨entries,_,_,_⟩ := writeRemaps_placed (unmoveableComps_length producer consumer defaultToSmoothInterp)
    distinct (fun r member => generic r ((first records).1.subset member)) placed
  rw [← firstTable] at entries
  have length : (sort₁ records).length = places.length := by
    rw [← List.length_map places some,← placed,placements_length]
  have movedLocation : ∀ p ∈ (sort₁ records).zip places,
      (remapVariable remap₁ p.1.var).location = p.2.1 + varyingSlotVar0 := fun p member =>
    remapVariable_location_of_entry (entries p member)
  obtain ⟨attrs,locations⟩ := resorted_records first second wide length slotsOrdered movedLocation
  rw [placements_congr _ attrs,placed]
  refine writeRemaps_getD_invariant (fun i entry => entry.location = 0 ∨ entry.location = i / 4 + varyingSlotVar0)
    (fun i => Or.inl (by rw [RemapTable.getD_zero])) ?_
  intro p member slot comp placedHere
  rw [List.zip_map_right] at member
  obtain ⟨⟨a,q⟩,zipped,rfl⟩ := List.mem_map.mp member
  obtain rfl : q = (slot,comp) := Option.some_inj.mp placedHere
  have location := eq_of_mem_zip_of_map_eq locations _ zipped
  have := a.var.locationFrac_lt
  simp only [Prod.map_fst,id_eq,tableIndex,varyingSlotVar0_eq] at location ⊢
  right
  omega

end Preconditions

/-- A TCS writing float arrays at `VAR1.x` and `VAR3.x` and reading both back, and a TES
reading the first: the second array's record is the TCS's own. -/
def tcsTwoArrays : NirShader :=
  .ofVars .tessCtrl [.plain (.array (.vector .float 1) 3) .shaderOut 33 0,
    .plain (.array (.vector .float 1) 3) .shaderOut 35 0] [[.loadDeref 0 0,.loadDeref 1 1]]

def tesOneArray : NirShader :=
  .ofVars .tessEval [.plain (.array (.vector .float 1) 32) .shaderIn 33 0] [[.loadDeref 0 0]]

/-- `nir_compact_varyings` run a second time on its own output. -/
def compactTwice (sort : List VaryingComponent → List VaryingComponent) (producer consumer : NirShader)
    (defaultToSmoothInterp : Bool) : NirShader × NirShader :=
  let first := nirCompactVaryings sort producer consumer defaultToSmoothInterp
  nirCompactVaryings sort first.1 first.2 defaultToSmoothInterp

/-- Float scalars at `VAR1.x` and `VAR0.x`, in that order. -/
def vsSwapped : NirShader :=
  .ofVars .vertex [.plain (.vector .float 1) .shaderOut 33 0,.plain (.vector .float 1) .shaderOut 32 0] []

def fsSwapped : NirShader :=
  .ofVars .fragment [.plain (.vector .float 1) .shaderIn 33 0,.plain (.vector .float 1) .shaderIn 32 0]
    [[.loadDeref 0 0,.loadDeref 1 1]]

/-- A flat integer array on component w of `VAR0` to `VAR29`, a smooth float scalar at
`VAR30.x`, and flat integer scalars at `VAR0.x` to `VAR4.x`. -/
def vsRetry : NirShader :=
  .ofVars .vertex [{ NirVariable.plain (.array (.vector .int 1) 30) .shaderOut 32 3 with interpolation := 2 },
    .plain (.vector .float 1) .shaderOut 62 0,.plain (.vector .int 1) .shaderOut 32 0,
    .plain (.vector .int 1) .shaderOut 33 0,.plain (.vector .int 1) .shaderOut 34 0,
    .plain (.vector .int 1) .shaderOut 35 0,.plain (.vector .int 1) .shaderOut 36 0] []

def fsRetry : NirShader :=
  .ofVars .fragment [{ NirVariable.plain (.array (.vector .int 1) 30) .shaderIn 32 3 with interpolation := 2 },
    .plain (.vector .float 1) .shaderIn 62 0,.plain (.vector .int 1) .shaderIn 32 0,
    .plain (.vector .int 1) .shaderIn 33 0,.plain (.vector .int 1) .shaderIn 34 0,
    .plain (.vector .int 1) .shaderIn 35 0,.plain (.vector .int 1) .shaderIn 36 0]
    [[.loadDeref 0 0,.loadDeref 1 1,.loadDeref 2 2,.loadDeref 3 3,.loadDeref 4 4,.loadDeref 5 5,
      .loadDeref 6 6]]

/-- An always-active float scalar at `VAR0.x` ahead of smooth float scalars at `VAR1.x` and
`VAR2.x`; the fragment shader reads the always-active one first, and flat. -/
def vsXfbAhead : NirShader :=
  .ofVars .vertex [{ NirVariable.plain (.vector .float 1) .shaderOut 32 0 with alwaysActiveIo := true },
    .plain (.vector .float 1) .shaderOut 33 0,.plain (.vector .float 1) .shaderOut 34 0] []

def fsXfbFlat : NirShader :=
  .ofVars .fragment
    [{ NirVariable.plain (.vector .float 1) .shaderIn 32 0 with alwaysActiveIo := true, interpolation := 2 },
    .plain (.vector .float 1) .shaderIn 33 0,.plain (.vector .float 1) .shaderIn 34 0]
    [[.loadDeref 0 0,.loadDeref 1 1,.loadDeref 2 2]]

/-- Smooth float scalars at `VAR1.x` and `VAR2.x`, read by a fragment shader that first reads a
flat always-active input at `VAR0.x` no output writes. -/
def vsTwoScalars : NirShader :=
  .ofVars .vertex [.plain (.vector .float 1) .shaderOut 33 0,.plain (.vector .float 1) .shaderOut 34 0] []

def fsUnwritten : NirShader :=
  .ofVars .fragment
    [{ NirVariable.plain (.vector .float 1) .shaderIn 32 0 with alwaysActiveIo := true, interpolation := 2 },
    .plain (.vector .float 1) .shaderIn 33 0,.plain (.vector .float 1) .shaderIn 34 0]
    [[.loadDeref 0 0,.loadDeref 1 1,.loadDeref 2 2]]

/-- A TCS with a `per_view` patch array of two floats at `PATCH1.x` and a patch float at
`PATCH0.x`, reading both back; the TES reads neither. -/
def tcsPerViewPatch : NirShader :=
  .ofVars .tessCtrl
    [{ NirVariable.plain (.array (.vector .float 1) 2) .shaderOut 65 0 with patch := true, perView := true },
    { NirVariable.plain (.vector .float 1) .shaderOut 64 0 with patch := true }] [[.loadDeref 0 0,.loadDeref 1 1]]

end Mesa.Nir

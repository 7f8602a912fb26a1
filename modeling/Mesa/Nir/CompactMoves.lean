import Mesa.Nir.CompactRecords

/-! Moving variables by a remap table, place by place: what `remap_slots_and_components`
leaves of a shader that the next run reads, and what the table of a run that places every
record does to the places of its records. -/
namespace Mesa.Nir

/-! ### Lists taken apart -/

theorem pairwise_zip {α β : Type} {r₁ : α → α → Prop} {r₂ : β → β → Prop} :
    ∀ {l₁ : List α} {l₂ : List β}, l₁.Pairwise r₁ → l₂.Pairwise r₂ →
    (l₁.zip l₂).Pairwise fun a b => r₁ a.1 b.1 ∧ r₂ a.2 b.2
  | [], _, _, _ => List.Pairwise.nil
  | _ :: _, [], _, _ => List.Pairwise.nil
  | a :: l₁, b :: l₂, first, second => by
    rw [List.pairwise_cons] at first second
    refine List.pairwise_cons.mpr ⟨fun p member => ?_,pairwise_zip first.2 second.2⟩
    exact ⟨first.1 _ (List.of_mem_zip member).1,second.1 _ (List.of_mem_zip member).2⟩

theorem map_eq_of_map_eq {α β γ : Type} {f : α → β} {h : α → γ} :
    ∀ {l₁ l₂ : List α}, l₁.map f = l₂.map f → (∀ a ∈ l₁, ∀ b ∈ l₂, f a = f b → h a = h b) → l₁.map h = l₂.map h
  | [], [], _, _ => rfl
  | a :: l₁, b :: l₂, same, factor => by
    simp only [List.map_cons,List.cons.injEq] at same ⊢
    exact ⟨factor a (List.mem_cons_self _ _) b (List.mem_cons_self _ _) same.1,
      map_eq_of_map_eq same.2 fun x member y member' => factor x (List.mem_cons_of_mem _ member) y
        (List.mem_cons_of_mem _ member')⟩

theorem eq_of_mem_zip_of_map_eq {α β γ : Type} {f : α → γ} {g : β → γ} :
    ∀ {l₁ : List α} {l₂ : List β}, l₁.map f = l₂.map g → ∀ p ∈ l₁.zip l₂, f p.1 = g p.2
  | [], _, _, _, member => by simp at member
  | _ :: _, [], _, _, member => by simp at member
  | a :: l₁, b :: l₂, same, p, member => by
    simp only [List.map_cons,List.cons.injEq] at same
    rcases List.mem_cons.mp member with rfl | member
    · exact same.1
    · exact eq_of_mem_zip_of_map_eq same.2 p member

theorem map_eq_map_of_zip {α β γ : Type} {f : α → γ} {g : β → γ} :
    ∀ {l₁ : List α} {l₂ : List β}, l₁.length = l₂.length → (∀ p ∈ l₁.zip l₂, f p.1 = g p.2) → l₁.map f = l₂.map g
  | [], [], _, _ => rfl
  | a :: l₁, b :: l₂, length, same => by
    simp only [List.map_cons,List.cons.injEq]
    exact ⟨same (a,b) (List.mem_cons_self _ _),map_eq_map_of_zip (by simpa using length)
      fun p member => same p (List.mem_cons_of_mem _ member)⟩

/-! ### Moved variables -/

@[simp] theorem ioType_remapVariable (remap : RemapTable) (var : NirVariable) (stage : GlShaderStage) :
    ioType (remapVariable remap var) stage = ioType var stage := by
  simp only [ioType,nirIsPerVertexIo,remapVariable_patch,remapVariable_type,remapVariable_mode,
    remapVariable_perView]

@[simp] theorem tcsReadType_remapVariable (remap : RemapTable) (var : NirVariable) (stage : GlShaderStage) :
    tcsReadType (remapVariable remap var) stage = tcsReadType var stage := by
  simp only [tcsReadType,nirIsPerVertexIo,remapVariable_patch,remapVariable_type,remapVariable_mode]

@[simp] theorem getInterpType_remapVariable (remap : RemapTable) (var : NirVariable) (type : GlslType)
    (defaultToSmoothInterp : Bool) :
    getInterpType (remapVariable remap var) type defaultToSmoothInterp = getInterpType var type defaultToSmoothInterp := by
  simp only [getInterpType,remapVariable_interpolation]

@[simp] theorem getInterpLoc_remapVariable (remap : RemapTable) (var : NirVariable) :
    getInterpLoc (remapVariable remap var) = getInterpLoc var := by
  simp only [getInterpLoc,remapVariable_sample,remapVariable_centroid]

/-- What `remap_slots_and_components` does to each variable of the shader. -/
def remapIfGeneric (mode : NirVariableMode) (remap : RemapTable) (var : NirVariable) : NirVariable :=
  if var.mode == mode && isGenericLocation var.location then remapVariable remap var else var

@[simp] theorem remapIfGeneric_mode (mode : NirVariableMode) (remap : RemapTable) (var : NirVariable) :
    (remapIfGeneric mode remap var).mode = var.mode := by
  unfold remapIfGeneric; split <;> simp

@[simp] theorem ioType_remapIfGeneric (mode : NirVariableMode) (remap : RemapTable) (var : NirVariable)
    (stage : GlShaderStage) : ioType (remapIfGeneric mode remap var) stage = ioType var stage := by
  unfold remapIfGeneric; split <;> simp

@[simp] theorem remapIfGeneric_alwaysActiveIo (mode : NirVariableMode) (remap : RemapTable) (var : NirVariable) :
    (remapIfGeneric mode remap var).alwaysActiveIo = var.alwaysActiveIo := by
  unfold remapIfGeneric; split <;> simp

theorem compactComponents_producer (sort : List VaryingComponent → List VaryingComponent) (producer consumer : NirShader)
    (assigned : AssignedTable) (defaultToSmoothInterp : Bool) :
    let moved := (compactComponents sort producer consumer assigned defaultToSmoothInterp).1
    moved.stage = producer.stage ∧ moved.blocks = producer.blocks ∧ moved.vars = producer.vars.map
      (remapIfGeneric .shaderOut (compactRemap sort producer consumer assigned defaultToSmoothInterp)) :=
  ⟨rfl,rfl,rfl⟩

theorem compactComponents_consumer (sort : List VaryingComponent → List VaryingComponent) (producer consumer : NirShader)
    (assigned : AssignedTable) (defaultToSmoothInterp : Bool) :
    let moved := (compactComponents sort producer consumer assigned defaultToSmoothInterp).2
    moved.stage = consumer.stage ∧ moved.blocks = consumer.blocks ∧ moved.vars = consumer.vars.map
      (remapIfGeneric .shaderIn (compactRemap sort producer consumer assigned defaultToSmoothInterp)) :=
  ⟨rfl,rfl,rfl⟩

section Moved

variable {shader moved : NirShader} {move : NirVariable → NirVariable}

theorem varsWithMode_moved (keepsMode : ∀ var, (move var).mode = var.mode) (vars : moved.vars = shader.vars.map move)
    (mode : NirVariableMode) : moved.varsWithMode mode = (shader.varsWithMode mode).map move := by
  simp only [NirShader.varsWithMode,vars,List.filter_map]
  congr 1
  exact List.filter_congr fun var _ => by simp [keepsMode]

theorem derefVar?_moved (keepsMode : ∀ var, (move var).mode = var.mode) (vars : moved.vars = shader.vars.map move)
    (mode : NirVariableMode) (interp : Bool) (instr : NirInstr) :
    moved.derefVar? mode interp instr = (shader.derefVar? mode interp instr).map move := by
  have filtered : ∀ k, (moved.vars.get? k).filter (fun var => var.mode == mode) =
      ((shader.vars.get? k).filter fun var => var.mode == mode).map move := fun k => by
    simp only [vars,List.get?_eq_getElem?,List.getElem?_map]
    cases shader.vars[k]? <;> simp [Option.filter,keepsMode]
  cases instr with
  | loadDeref _ k => exact filtered k
  | interpDeref _ k =>
    cases interp
    · rfl
    · exact filtered k
  | _ => rfl

theorem inputReads_moved (keepsMode : ∀ var, (move var).mode = var.mode) (vars : moved.vars = shader.vars.map move)
    (blocks : moved.blocks = shader.blocks) : moved.inputReads = shader.inputReads.map move := by
  simp only [NirShader.inputReads,NirShader.instrs,blocks,List.map_filterMap]
  exact congrArg (List.filterMap · _) (funext (derefVar?_moved keepsMode vars _ _))

theorem outputLoads_moved (keepsMode : ∀ var, (move var).mode = var.mode) (vars : moved.vars = shader.vars.map move)
    (blocks : moved.blocks = shader.blocks) : moved.outputLoads = shader.outputLoads.map move := by
  simp only [NirShader.outputLoads,NirShader.instrs,blocks,List.map_filterMap]
  exact congrArg (List.filterMap · _) (funext (derefVar?_moved keepsMode vars _ _))

end Moved

/-! ### Remap tables, place by place -/

/-- Every entry of the table is empty or a generic place. -/
def RemapTable.Generic (remap : RemapTable) : Prop :=
  ∀ i, (List.getD remap i ⟨0,0⟩).location = 0 ∨
    varyingSlotVar0 ≤ (List.getD remap i ⟨0,0⟩).location ∧
      (List.getD remap i ⟨0,0⟩).location < varyingSlotVar0 + maxVaryingsInclPatch

/-- Every entry of the table is empty or in the slot of its own place. -/
def RemapTable.KeepsSlots (remap : RemapTable) : Prop :=
  ∀ i, (List.getD remap i ⟨0,0⟩).location = 0 ∨ (List.getD remap i ⟨0,0⟩).location = i / 4 + varyingSlotVar0

/-- Where the table sends a place: its entry's place, or the place itself for an empty entry. -/
def RemapTable.newPlace (remap : RemapTable) (i : Nat) : Nat :=
  if (List.getD remap i ⟨0,0⟩).location = 0 then i
  else ((List.getD remap i ⟨0,0⟩).location - varyingSlotVar0) * 4 + (List.getD remap i ⟨0,0⟩).component % 4

theorem remapVariable_of_empty {remap : RemapTable} {var : NirVariable}
    (empty : (List.getD remap (tableIndex var) ⟨0,0⟩).location = 0) : remapVariable remap var = var := by
  unfold remapVariable
  exact if_pos empty

theorem isGenericLocation_remapVariable {remap : RemapTable} (table : remap.Generic) (var : NirVariable)
    (generic : isGenericLocation var.location = true) :
    isGenericLocation (remapVariable remap var).location = true := by
  unfold remapVariable
  dsimp only [RemapTable.get]
  split
  · exact generic
  · have := (table (tableIndex var)).resolve_left (by assumption)
    unfold tableIndex at this
    simp only [isGenericLocation,decide_eq_true_eq,varyingSlotVar0_eq,maxVaryingsInclPatch_eq] at this ⊢
    omega

theorem tableIndex_remapVariable {remap : RemapTable} (table : remap.Generic) (var : NirVariable) :
    tableIndex (remapVariable remap var) = remap.newPlace (tableIndex var) := by
  unfold remapVariable RemapTable.newPlace
  dsimp only [RemapTable.get]
  split
  · rw [if_pos (by assumption)]
  · rw [if_neg (by assumption)]
    have := (table (tableIndex var)).resolve_left (by assumption)
    simp only [varyingSlotVar0_eq] at this
    simp only [tableIndex,varyingSlotVar0_eq]
    omega

theorem remapVariable_location_of_entry {remap : RemapTable} {var : NirVariable} {comp slot : Nat}
    (entry : List.getD remap (tableIndex var) ⟨0,0⟩ = ⟨comp,slot + varyingSlotVar0⟩) :
    (remapVariable remap var).location = slot + varyingSlotVar0 := by
  have read : remap.get (var.location - varyingSlotVar0).toNat var.locationFrac = ⟨comp,slot + varyingSlotVar0⟩ :=
    entry
  unfold remapVariable
  dsimp only
  split
  next empty => rw [read] at empty; simp at empty
  · simp only [read]; omega

theorem remapVariable_location {remap : RemapTable} (keeps : remap.KeepsSlots) {var : NirVariable}
    (generic : isGenericLocation var.location = true) : (remapVariable remap var).location = var.location := by
  unfold remapVariable
  dsimp only [RemapTable.get]
  split
  · rfl
  · have := (keeps (tableIndex var)).resolve_left (by assumption)
    have := var.locationFrac_lt
    simp only [isGenericLocation,decide_eq_true_eq,varyingSlotVar0_eq,maxVaryingsInclPatch_eq] at generic this
    simp only [tableIndex,varyingSlotVar0_eq] at *
    omega

theorem isGenericLocation_remapIfGeneric {remap : RemapTable} (table : remap.Generic) (mode : NirVariableMode)
    (var : NirVariable) : isGenericLocation (remapIfGeneric mode remap var).location = isGenericLocation var.location := by
  unfold remapIfGeneric
  split
  next moved =>
    simp only [Bool.and_eq_true] at moved
    rw [isGenericLocation_remapVariable table var moved.2,moved.2]
  · rfl

theorem isUnmoveable_remapIfGeneric {remap : RemapTable} (table : remap.Generic) (mode : NirVariableMode)
    (stage : GlShaderStage) (var : NirVariable) :
    isUnmoveable stage (remapIfGeneric mode remap var) = isUnmoveable stage var := by
  simp only [isUnmoveable,isGenericLocation_remapIfGeneric table,ioType_remapIfGeneric]

theorem remapIfGeneric_of_empty {remap : RemapTable} (mode : NirVariableMode) {var : NirVariable}
    (empty : (List.getD remap (tableIndex var) ⟨0,0⟩).location = 0) : remapIfGeneric mode remap var = var := by
  unfold remapIfGeneric
  split
  · exact remapVariable_of_empty empty
  · rfl

theorem remapIfGeneric_of_generic {mode : NirVariableMode} (remap : RemapTable) {var : NirVariable}
    (sameMode : var.mode = mode) (generic : isGenericLocation var.location = true) :
    remapIfGeneric mode remap var = remapVariable remap var := by
  simp [remapIfGeneric,sameMode,generic]

theorem packableOutputs_moved {producer moved : NirShader} {remap : RemapTable} (table : remap.Generic)
    (stage : moved.stage = producer.stage) (vars : moved.vars = producer.vars.map (remapIfGeneric .shaderOut remap)) :
    moved.packableOutputs = producer.packableOutputs.map (remapIfGeneric .shaderOut remap) := by
  unfold NirShader.packableOutputs
  rw [varsWithMode_moved (remapIfGeneric_mode _ _) vars,List.filter_map,stage]
  congr 1
  exact List.filter_congr fun var _ => by
    simp only [Function.comp,isGenericLocation_remapIfGeneric table,remapIfGeneric_alwaysActiveIo,
      ioType_remapIfGeneric]

theorem unmoveableComps_moved {producer consumer producer' consumer' : NirShader} {remap : RemapTable}
    (table : remap.Generic) (defaultToSmoothInterp : Bool)
    (stages : producer'.stage = producer.stage ∧ consumer'.stage = consumer.stage)
    (outputs : producer'.vars = producer.vars.map (remapIfGeneric .shaderOut remap))
    (inputs : consumer'.vars = consumer.vars.map (remapIfGeneric .shaderIn remap))
    (fixedOutputs : ∀ var ∈ producer.varsWithMode .shaderOut, isUnmoveable producer.stage var = true →
      (List.getD remap (tableIndex var) ⟨0,0⟩).location = 0)
    (fixedInputs : ∀ var ∈ consumer.varsWithMode .shaderIn, isUnmoveable consumer.stage var = true →
      (List.getD remap (tableIndex var) ⟨0,0⟩).location = 0) :
    unmoveableComps producer' consumer' defaultToSmoothInterp = unmoveableComps producer consumer defaultToSmoothInterp := by
  have step : ∀ (mode : NirVariableMode) (stage : GlShaderStage) (vars : List NirVariable),
      (∀ var ∈ vars, isUnmoveable stage var = true → (List.getD remap (tableIndex var) ⟨0,0⟩).location = 0) →
      ∀ start : AssignedTable,
      (vars.map (remapIfGeneric mode remap)).foldl (markIfUnmoveable stage defaultToSmoothInterp) start =
        vars.foldl (markIfUnmoveable stage defaultToSmoothInterp) start := by
    intro mode stage vars fixed start
    rw [List.foldl_map]
    refine List.foldl_ext _ _ _ fun acc var member => ?_
    unfold markIfUnmoveable
    rw [isUnmoveable_remapIfGeneric table]
    split
    next unmoveable => rw [remapIfGeneric_of_empty mode (fixed var member unmoveable)]
    · rfl
  unfold unmoveableComps
  simp only [getUnmoveableComponentsMasks_eq,stages,varsWithMode_moved (remapIfGeneric_mode _ _) outputs,
    varsWithMode_moved (remapIfGeneric_mode _ _) inputs]
  rw [step _ _ _ fixedOutputs,step _ _ _ fixedInputs]

theorem sortKey_eq_iff {a b : VaryingComponent} : sortKey a = sortKey b ↔ a.isPatch = b.isPatch ∧
    a.isIntraStageOnly = b.isIntraStageOnly ∧ a.interpType = b.interpType ∧ a.interpLoc = b.interpLoc ∧
    a.var.location = b.var.location := by
  simp only [sortKey,toLex_inj,Prod.mk.injEq,Int.ofNat_inj]
  constructor
  · rintro ⟨patch,intra,rest⟩
    exact ⟨flagKey_inj patch,flagKey_inj intra,rest⟩
  · rintro ⟨patch,intra,rest⟩
    exact ⟨patch ▸ rfl,intra ▸ rfl,rest⟩
/-! ### The table a run writes -/

theorem compactRemap_eq (sort : List VaryingComponent → List VaryingComponent) (producer consumer : NirShader)
    (assigned : AssignedTable) (defaultToSmoothInterp : Bool) :
    compactRemap sort producer consumer assigned defaultToSmoothInterp =
      writeRemaps .zero ((sort (gatherVaryingComponentInfo producer consumer defaultToSmoothInterp)).zip
        (placements ⟨assigned,0,0⟩ (sort (gatherVaryingComponentInfo producer consumer defaultToSmoothInterp)))) :=
  foldl_packStep _ _ _

theorem RemapTable.getD_zero (i : Nat) : List.getD RemapTable.zero i ⟨0,0⟩ = ⟨0,0⟩ := by
  simp only [RemapTable.zero,List.getD_eq_getElem?_getD,List.getElem?_replicate]
  split <;> rfl

/-- Every table `compact_components` builds sends a variable to a generic slot or leaves it
where it is, whichever records it places. -/
theorem compactRemap_generic (sort : List VaryingComponent → List VaryingComponent) (producer consumer : NirShader)
    {assigned : AssignedTable} (full : assigned.length = maxVaryingsInclPatch) (defaultToSmoothInterp : Bool) :
    (compactRemap sort producer consumer assigned defaultToSmoothInterp).Generic := by
  have fresh := (placements_fresh (⟨full,Nat.zero_le 4⟩ : PackState.Valid ⟨assigned,0,0⟩)
    (sort (gatherVaryingComponentInfo producer consumer defaultToSmoothInterp))).1
  unfold compactRemap RemapTable.Generic
  rw [foldl_packStep]
  refine writeRemaps_getD_invariant (fun _ entry => entry.location = 0 ∨ varyingSlotVar0 ≤ entry.location ∧
      entry.location < varyingSlotVar0 + maxVaryingsInclPatch)
    (fun i => by rw [RemapTable.getD_zero]; exact .inl rfl) fun p member slot comp placed => .inr ?_
  have := (fresh slot comp (placed ▸ (List.of_mem_zip member).2)).1
  dsimp only
  omega

/-- The table of a run that places every record: each record's place holds its slot and
component, every other entry is empty, and the places are distinct and were free. -/
theorem writeRemaps_placed {assigned : AssignedTable} (full : assigned.length = maxVaryingsInclPatch)
    {records : List VaryingComponent} (distinct : (records.map fun r => tableIndex r.var).Nodup)
    (generic : ∀ r ∈ records, isGenericLocation r.var.location = true) {places : List (Nat × Nat)}
    (placed : placements ⟨assigned,0,0⟩ records = places.map some) :
    (∀ p ∈ records.zip places, List.getD (writeRemaps .zero (records.zip (places.map some))) (tableIndex p.1.var)
      ⟨0,0⟩ = ⟨p.2.2,p.2.1 + varyingSlotVar0⟩) ∧
    (∀ i, i ∉ records.map (fun r => tableIndex r.var) →
      List.getD (writeRemaps .zero (records.zip (places.map some))) i ⟨0,0⟩ = ⟨0,0⟩) ∧
    places.Nodup ∧ ∀ q ∈ places, q.1 < maxVaryingsInclPatch ∧ q.2 < 4 ∧ ¬assigned.Taken q.1 q.2 := by
  have length : places.length = records.length := by
    rw [← List.length_map places some,← placed,placements_length]
  have valid : PackState.Valid ⟨assigned,0,0⟩ := ⟨full,Nat.zero_le 4⟩
  obtain ⟨fresh,apart⟩ := placements_fresh valid records
  rw [placed] at fresh apart
  have zipped : records.zip (places.map some) = (records.zip places).map fun p => (p.1,some p.2) := by
    rw [List.zip_map_right]; rfl
  refine ⟨fun p member => ?_,fun i absent => ?_,?_,fun q member => fresh q.1 q.2 (List.mem_map_of_mem _ member)⟩
  · have inside : tableIndex p.1.var < List.length RemapTable.zero := by
      rw [RemapTable.zero,List.length_replicate]
      exact tableIndex_lt (generic _ (List.of_mem_zip member).1)
    refine writeRemaps_getD_of_mem ?_ ?_ inside
    · rw [zipped,List.map_map]
      rwa [← List.map_fst_zip records places (Nat.le_of_eq length.symm),List.map_map] at distinct
    · rw [zipped]
      exact List.mem_map_of_mem (fun p => (p.1,some p.2)) member
  · rw [writeRemaps_getD_of_absent fun p member _ same => absent ?_,RemapTable.getD_zero]
    exact same ▸ List.mem_map_of_mem _ (List.of_mem_zip member).1
  · exact (List.pairwise_map.mp apart).imp fun outside same => by subst same; simp at outside

/-- What a table does to a list of places, as a second run needs it: generic entries, no
entry outside the places, distinct new places, none of them a place the predicate fixes. -/
structure MovesApart (remap : RemapTable) (places : List Nat) (fixed : Nat → Prop) : Prop where
  generic : remap.Generic
  outside : ∀ i, i ∉ places → (List.getD remap i ⟨0,0⟩).location = 0
  injective : ∀ i ∈ places, ∀ j ∈ places, remap.newPlace i = remap.newPlace j → i = j
  avoids : ∀ i ∈ places, ¬fixed (remap.newPlace i)

theorem MovesApart.perm {remap : RemapTable} {places places' : List Nat} {fixed : Nat → Prop}
    (apart : MovesApart remap places fixed) (perm : places.Perm places') : MovesApart remap places' fixed :=
  ⟨apart.generic,fun i absent => apart.outside i (perm.mem_iff.not.mpr absent),
    fun i member j member' => apart.injective i (perm.mem_iff.mpr member) j (perm.mem_iff.mpr member'),
    fun i member => apart.avoids i (perm.mem_iff.mpr member)⟩

theorem exists_mem_zip {α β : Type} {a : α} {l₁ : List α} {l₂ : List β} (member : a ∈ l₁)
    (length : l₁.length = l₂.length) : ∃ b, (a,b) ∈ l₁.zip l₂ := by
  obtain ⟨k,bound,rfl⟩ := List.getElem_of_mem member
  have inZip : k < (l₁.zip l₂).length := by simp [← length,bound]
  have inSecond : k < l₂.length := by omega
  exact ⟨l₂[k],by rw [← List.getElem_zip]; exact List.getElem_mem inZip⟩

theorem writeRemaps_movesApart {assigned : AssignedTable} (full : assigned.length = maxVaryingsInclPatch)
    {records : List VaryingComponent} (distinct : (records.map fun r => tableIndex r.var).Nodup)
    (generic : ∀ r ∈ records, isGenericLocation r.var.location = true) {places : List (Nat × Nat)}
    (placed : placements ⟨assigned,0,0⟩ records = places.map some) {fixed : Nat → Prop}
    (free : ∀ slot comp, comp < 4 → ¬assigned.Taken slot comp → ¬fixed (slot * 4 + comp)) :
    MovesApart (writeRemaps .zero (records.zip (places.map some))) (records.map fun r => tableIndex r.var) fixed := by
  obtain ⟨entries,outside,nodup,fresh⟩ := writeRemaps_placed full distinct generic placed
  have length : records.length = places.length := by
    rw [← List.length_map places some,← placed,placements_length]
  have found : ∀ i ∈ records.map (fun r => tableIndex r.var), ∃ p ∈ records.zip places, tableIndex p.1.var = i := by
    intro i member
    obtain ⟨r,inRecords,rfl⟩ := List.mem_map.mp member
    obtain ⟨q,zipped⟩ := exists_mem_zip inRecords length
    exact ⟨(r,q),zipped,rfl⟩
  have newPlace : ∀ p ∈ records.zip places,
      RemapTable.newPlace (writeRemaps .zero (records.zip (places.map some))) (tableIndex p.1.var) = p.2.1 * 4 + p.2.2 := by
    intro p member
    have := (fresh p.2 (List.of_mem_zip member).2).2.1
    simp only [RemapTable.newPlace,entries p member,varyingSlotVar0_eq]
    rw [if_neg (by omega)]
    omega
  refine ⟨fun i => ?_,fun i absent => by rw [outside i absent],fun i member j member' same => ?_,
    fun i member => ?_⟩
  · by_cases placedHere : i ∈ records.map (fun r => tableIndex r.var)
    · obtain ⟨p,zipped,rfl⟩ := found i placedHere
      have := (fresh p.2 (List.of_mem_zip zipped).2).1
      simp only [entries p zipped,varyingSlotVar0_eq,maxVaryingsInclPatch_eq] at this ⊢
      omega
    · exact Or.inl (by rw [outside i placedHere])
  · obtain ⟨p,zipped,rfl⟩ := found i member
    obtain ⟨p',zipped',rfl⟩ := found j member'
    rw [newPlace p zipped,newPlace p' zipped'] at same
    have small := (fresh p.2 (List.of_mem_zip zipped).2).2.1
    have small' := (fresh p'.2 (List.of_mem_zip zipped').2).2.1
    have : p.2 = p'.2 := Prod.ext (by omega) (by omega)
    have snd : (records.zip places).map Prod.snd = places := List.map_snd_zip _ _ (Nat.le_of_eq length.symm)
    rw [← snd] at nodup
    rw [List.inj_on_of_nodup_map nodup zipped zipped' this]
  · obtain ⟨p,zipped,rfl⟩ := found i member
    rw [newPlace p zipped]
    obtain ⟨_,small,notTaken⟩ := fresh p.2 (List.of_mem_zip zipped).2
    exact free _ _ small notTaken

end Mesa.Nir

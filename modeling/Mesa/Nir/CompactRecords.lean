import Mesa.Nir.CompactPlace

/-! What `nir_compact_varyings` gathers before it places anything: the components the
unmoveable varyings take, the record numbers of the packable outputs, and the records the
consumer's reads set, also for interfaces whose variables were moved. -/
namespace Mesa.Nir

/-! ### The components of unmoveable varyings -/

theorem AssignedTable.taken_set_or (table : AssignedTable) (slot : Nat) (mask : BitVec 8)
    (interpType interpLoc : Nat) (wide : Bool) (j b : Nat) :
    (table.set slot ⟨(table.get slot).comps ||| mask,interpType,interpLoc,wide⟩).Taken j b ↔
      table.Taken j b ∨ j = slot ∧ slot < table.length ∧ mask.getLsbD b := by
  unfold AssignedTable.Taken AssignedTable.get AssignedTable.set
  rw [getD_set]
  split_ifs with here
  · obtain ⟨rfl,inside⟩ := here
    simp [BitVec.getLsbD_or,inside,AssignedTable.get]
  · simp only [AssignedTable.get] at here ⊢
    constructor
    · exact Or.inl
    · rintro (taken | ⟨rfl,inside,_⟩)
      · exact taken
      · exact absurd ⟨rfl,inside⟩ here

theorem compsMask_getLsbD_shift {count shift : Nat} (some : 0 < count) (small : shift < 8) :
    (compsMask count shift).getLsbD shift = true := by
  simp [compsMask,BitVec.getLsbD_ofNat,small,Nat.mul_comm,Nat.testBit_mul_pow_two,
    Nat.testBit_two_pow_sub_one,some]

theorem markUnmoveable_taken (defaultToSmoothInterp : Bool) (table : AssignedTable) (var : NirVariable)
    (type : GlslType) (j b : Nat) (taken : table.Taken j b) :
    (markUnmoveable defaultToSmoothInterp table var type).Taken j b := by
  unfold markUnmoveable
  generalize List.range type.countAttributeSlots = slots
  induction slots generalizing table with
  | nil => exact taken
  | cons i rest ih => exact ih _ ((AssignedTable.taken_set_or ..).mpr (Or.inl taken))

theorem markUnmoveable_length (defaultToSmoothInterp : Bool) (table : AssignedTable) (var : NirVariable)
    (type : GlslType) : (markUnmoveable defaultToSmoothInterp table var type).length = table.length := by
  unfold markUnmoveable
  generalize List.range type.countAttributeSlots = slots
  induction slots generalizing table with
  | nil => rfl
  | cons i rest ih => exact (ih _).trans (by simp [AssignedTable.set])

theorem markUnmoveable_taken_start (defaultToSmoothInterp : Bool) (table : AssignedTable) (var : NirVariable)
    (type : GlslType) (inside : (var.location - varyingSlotVar0).toNat < table.length)
    (slots : 0 < type.countAttributeSlots)
    (components : 0 < if type.withoutArray.isVectorOrScalar then type.withoutArray.vectorElements else 4) :
    (markUnmoveable defaultToSmoothInterp table var type).Taken (var.location - varyingSlotVar0).toNat
      var.locationFrac := by
  have first : (unmoveableSlotComps var.locationFrac
      (if type.withoutArray.isVectorOrScalar then type.withoutArray.vectorElements else 4)
      (if type.withoutArray.is64bit then 2 else 1) type.withoutArray.isDualSlot 0).getLsbD var.locationFrac := by
    have := var.locationFrac_lt
    unfold unmoveableSlotComps
    by_cases dual : type.withoutArray.isDualSlot
    · rw [if_pos dual,if_neg (by decide)]
      exact compsMask_getLsbD_shift (by omega) (by omega)
    · rw [if_neg dual]
      exact compsMask_getLsbD_shift (Nat.mul_pos components (by split <;> omega)) (by omega)
  unfold markUnmoveable
  obtain ⟨n,count⟩ := Nat.exists_eq_succ_of_ne_zero (Nat.pos_iff_ne_zero.mp slots)
  rw [count,List.range_succ_eq_map,List.foldl_cons]
  generalize (List.range n).map Nat.succ = rest
  have start := (AssignedTable.taken_set_or table _ _ (getInterpType var type defaultToSmoothInterp)
    (getInterpLoc var) type.withoutArray.is32bit _ _).mpr (Or.inr ⟨rfl,inside,first⟩)
  simp only [Nat.add_zero] at start ⊢
  generalize table.set _ _ = marked at start
  induction rest generalizing marked with
  | nil => exact start
  | cons i rest ih => exact ih _ ((AssignedTable.taken_set_or ..).mpr (Or.inl start))

theorem GlslType.withoutArray_arrayElement (type : GlslType) :
    type.arrayElement.withoutArray = type.withoutArray := by
  cases type <;> rfl

theorem ioType_withoutArray (var : NirVariable) (stage : GlShaderStage) :
    (ioType var stage).withoutArray = var.type.withoutArray := by
  unfold ioType
  split <;> simp only [GlslType.withoutArray_arrayElement]

theorem GlslType.elements_pos (type : GlslType) (components : 0 < if type.isStructOrIfc then 4 else type.vectorElements) :
    0 < if type.isVectorOrScalar then type.vectorElements else 4 := by
  cases type <;> simp_all [isStructOrIfc,isVectorOrScalar,vectorElements]

/-- The loop body of `get_unmoveable_components_masks`. -/
def markIfUnmoveable (stage : GlShaderStage) (defaultToSmoothInterp : Bool) (table : AssignedTable)
    (var : NirVariable) : AssignedTable :=
  if isUnmoveable stage var then markUnmoveable defaultToSmoothInterp table var (ioType var stage) else table

theorem getUnmoveableComponentsMasks_eq (shader : NirShader) (mode : NirVariableMode) (table : AssignedTable)
    (stage : GlShaderStage) (defaultToSmoothInterp : Bool) :
    getUnmoveableComponentsMasks shader mode table stage defaultToSmoothInterp =
      (shader.varsWithMode mode).foldl (markIfUnmoveable stage defaultToSmoothInterp) table := rfl

theorem foldl_markIfUnmoveable_length (stage : GlShaderStage) (defaultToSmoothInterp : Bool) :
    ∀ (vars : List NirVariable) (table : AssignedTable),
    (vars.foldl (markIfUnmoveable stage defaultToSmoothInterp) table).length = table.length
  | [], _ => rfl
  | var :: rest, table => by
    rw [List.foldl_cons,foldl_markIfUnmoveable_length stage defaultToSmoothInterp rest,markIfUnmoveable]
    split
    · exact markUnmoveable_length ..
    · rfl

theorem foldl_markIfUnmoveable_taken (stage : GlShaderStage) (defaultToSmoothInterp : Bool) {j b : Nat} :
    ∀ (vars : List NirVariable) {table : AssignedTable}, table.Taken j b →
    (vars.foldl (markIfUnmoveable stage defaultToSmoothInterp) table).Taken j b
  | [], _, taken => taken
  | var :: rest, table, taken => by
    apply foldl_markIfUnmoveable_taken stage defaultToSmoothInterp rest
    unfold markIfUnmoveable
    split
    · exact markUnmoveable_taken _ _ _ _ _ _ taken
    · exact taken

theorem foldl_markIfUnmoveable_taken_of_mem {stage : GlShaderStage} (defaultToSmoothInterp : Bool)
    {vars : List NirVariable} {table : AssignedTable} {var : NirVariable} (member : var ∈ vars)
    (unmoveable : isUnmoveable stage var = true) (full : table.length = maxVaryingsInclPatch)
    (slots : 0 < slotCount var stage) (components : 0 < getNumComponents var) :
    (vars.foldl (markIfUnmoveable stage defaultToSmoothInterp) table).Taken
      (var.location - varyingSlotVar0).toNat var.locationFrac := by
  obtain ⟨before,after,rfl⟩ := List.append_of_mem member
  have inside : (var.location - varyingSlotVar0).toNat < maxVaryingsInclPatch := by
    simp only [isUnmoveable,isGenericLocation,Bool.and_eq_true,decide_eq_true_eq] at unmoveable
    omega
  rw [List.foldl_append,List.foldl_cons]
  apply foldl_markIfUnmoveable_taken
  rw [markIfUnmoveable,if_pos unmoveable]
  refine markUnmoveable_taken_start _ _ _ _ ?_ slots ?_
  · rw [foldl_markIfUnmoveable_length,full]; exact inside
  · rw [ioType_withoutArray]
    exact GlslType.elements_pos _ components

/-! ### Record numbers -/

/-- The outputs `store_varying_info_idx` numbers, in order: generic, not always active, of
a packable type. -/
def NirShader.packableOutputs (producer : NirShader) : List NirVariable :=
  (producer.varsWithMode .shaderOut).filter fun var =>
    isGenericLocation var.location && !var.alwaysActiveIo && isPackingSupportedForType (ioType var producer.stage)

/-- The step of `store_varying_info_idx` on an output it numbers. -/
def numberOutput (acc : InfoIdx × Nat) (var : NirVariable) : InfoIdx × Nat :=
  (List.set acc.1 (tableIndex var) (acc.2 + 1),acc.2 + 1)

theorem storeVaryingInfoIdx_eq (producer : NirShader) :
    storeVaryingInfoIdx producer =
      producer.packableOutputs.foldl numberOutput (List.replicate (maxVaryingsInclPatch * 4) 0,0) := by
  unfold storeVaryingInfoIdx NirShader.packableOutputs
  generalize (List.replicate (maxVaryingsInclPatch * 4) 0,0) = start
  induction producer.varsWithMode .shaderOut generalizing start with
  | nil => rfl
  | cons var rest ih =>
    obtain ⟨idx,count⟩ := start
    by_cases keep : (isGenericLocation var.location && !var.alwaysActiveIo &&
        isPackingSupportedForType (ioType var producer.stage)) = true
    · simp only [List.foldl_cons,List.filter_cons,keep,if_true]
      exact ih _
    · simp only [List.foldl_cons,List.filter_cons,keep]
      exact ih _

theorem foldl_numberOutput (outputs : List NirVariable) (distinct : (outputs.map tableIndex).Nodup)
    (inside : ∀ var ∈ outputs, tableIndex var < maxVaryingsInclPatch * 4) :
    let numbered := outputs.foldl numberOutput (List.replicate (maxVaryingsInclPatch * 4) 0,0)
    numbered.1.length = maxVaryingsInclPatch * 4 ∧ numbered.2 = outputs.length ∧
      (∀ n (bound : n < outputs.length), numbered.1.getD (tableIndex outputs[n]) 0 = n + 1) ∧
      ∀ i, i ∉ outputs.map tableIndex → numbered.1.getD i 0 = 0 := by
  generalize maxVaryingsInclPatch * 4 = size at inside ⊢
  induction outputs using List.reverseRecOn with
  | nil =>
    refine ⟨List.length_replicate _ _,rfl,fun n bound => absurd bound (Nat.not_lt_zero n),fun i _ => ?_⟩
    simp only [List.foldl_nil,List.getD_eq_getElem?_getD,List.getElem?_replicate]
    split <;> rfl
  | append_singleton init last ih =>
    rw [List.map_append,List.nodup_append] at distinct
    obtain ⟨length,count,numbers,zeros⟩ :=
      ih distinct.1 fun var member => inside var (List.mem_append_left _ member)
    have fresh : tableIndex last ∉ init.map tableIndex := fun member =>
      distinct.2.2 member (List.mem_singleton_self _)
    have lastInside := inside last (List.mem_append_right _ (List.mem_singleton_self _))
    simp only [List.foldl_append,List.foldl_cons,List.foldl_nil,numberOutput,List.length_set]
    refine ⟨length,by rw [count,List.length_append,List.length_singleton],fun n bound => ?_,fun i absent => ?_⟩
    · rw [getD_set]
      by_cases old : n < init.length
      · have apart : tableIndex init[n] ≠ tableIndex last := fun same =>
          fresh (same ▸ List.mem_map_of_mem _ (List.getElem_mem old))
        rw [List.getElem_append_left old,if_neg (fun here => apart here.1)]
        exact numbers n old
      · obtain rfl : n = init.length := by simp only [List.length_append,List.length_singleton] at bound; omega
        rw [List.getElem_append_right (Nat.le_refl _)]
        simp [length,lastInside,count]
    · simp only [List.map_append,List.mem_append,List.mem_singleton,List.map_cons,List.map_nil,not_or] at absent
      rw [getD_set,if_neg (fun here => absent.2 here.1)]
      exact zeros i absent.1

theorem tableIndex_lt {var : NirVariable} (generic : isGenericLocation var.location = true) :
    tableIndex var < maxVaryingsInclPatch * 4 := by
  have := var.locationFrac_lt
  simp only [isGenericLocation,decide_eq_true_eq,maxVaryingsInclPatch_eq] at generic
  simp only [tableIndex,maxVaryingsInclPatch_eq]
  omega

theorem infoIdx_of_generic (idx : InfoIdx) {var : NirVariable} (generic : isGenericLocation var.location = true) :
    infoIdx idx var = some (List.getD idx (tableIndex var) 0) := by
  simp only [isGenericLocation,decide_eq_true_eq] at generic
  simp only [infoIdx,InfoIdx.get,tableIndex]
  split_ifs <;> first | rfl | omega

theorem infoIdx_of_builtin (idx : InfoIdx) {var : NirVariable} (builtin : isGenericLocation var.location = false) :
    infoIdx idx var = none := by
  simp only [isGenericLocation,decide_eq_false_iff_not] at builtin
  simp only [infoIdx]
  split_ifs <;> first | rfl | omega

/-! ### The records -/

/-- The reads `gather_varying_component_info` walks: the consumer's input loads and
interpolations, in instruction order. -/
def NirShader.inputReads (consumer : NirShader) : List NirVariable :=
  consumer.instrs.filterMap (consumer.derefVar? .shaderIn true)

/-- The loop body of the walk over the consumer's reads. -/
def readInput (consumer : NirShader) (idx : InfoIdx) (defaultToSmoothInterp : Bool)
    (records : List (Option VaryingComponent)) (inVar : NirVariable) : List (Option VaryingComponent) :=
  match infoIdx idx inVar with
  | some number =>
    if number = 0 then records
    else initRecord records number (.ofVar inVar (ioType inVar consumer.stage) defaultToSmoothInterp false)
  | none => records

theorem gatherConsumerReads_eq (consumer : NirShader) (idx : InfoIdx) (defaultToSmoothInterp : Bool)
    (records : List (Option VaryingComponent)) :
    gatherConsumerReads consumer idx defaultToSmoothInterp records =
      consumer.inputReads.foldl (readInput consumer idx defaultToSmoothInterp) records := rfl

theorem initRecord_length (records : List (Option VaryingComponent)) (number : Nat) (record : VaryingComponent) :
    (initRecord records number record).length = records.length := by
  unfold initRecord
  split <;> simp

/-- The outputs a TCS reads back, in instruction order. -/
def NirShader.outputLoads (producer : NirShader) : List NirVariable :=
  producer.instrs.filterMap (producer.derefVar? .shaderOut false)

/-- The type the TCS walk reads an output with: a per-vertex array by its element. Unlike
the other walks it does not look at `per_view`. -/
def tcsReadType (var : NirVariable) (stage : GlShaderStage) : GlslType :=
  if nirIsPerVertexIo var stage then var.type.arrayElement else var.type

/-- The loop body of the TCS walk on one read output; `none` abandons packing. -/
def readOutput (producer : NirShader) (idx : InfoIdx) (defaultToSmoothInterp : Bool)
    (records : List (Option VaryingComponent)) (outVar : NirVariable) : Option (List (Option VaryingComponent)) :=
  match infoIdx idx outVar with
  | none => some records
  | some 0 => none
  | some number =>
    some (initRecord records number (.ofVar outVar (tcsReadType outVar producer.stage) defaultToSmoothInterp true))

theorem gatherTcsBlock_eq (producer : NirShader) (idx : InfoIdx) (defaultToSmoothInterp : Bool) :
    ∀ (instrs : List NirInstr) (records : List (Option VaryingComponent)),
      gatherTcsBlock producer idx defaultToSmoothInterp instrs records =
        (instrs.filterMap (producer.derefVar? .shaderOut false)).foldlM
          (readOutput producer idx defaultToSmoothInterp) records
  | [], _ => rfl
  | instr :: instrs, records => by
    rw [gatherTcsBlock,List.filterMap_cons]
    cases producer.derefVar? .shaderOut false instr with
    | none => exact gatherTcsBlock_eq producer idx defaultToSmoothInterp instrs records
    | some outVar =>
      dsimp only
      rw [List.foldlM_cons]
      unfold readOutput
      rcases infoIdx idx outVar with _ | _ | number
      · exact gatherTcsBlock_eq producer idx defaultToSmoothInterp instrs records
      · rfl
      · exact gatherTcsBlock_eq producer idx defaultToSmoothInterp instrs _

theorem gatherTcsReads_eq (producer : NirShader) (idx : InfoIdx) (defaultToSmoothInterp : Bool)
    (records : List (Option VaryingComponent)) :
    gatherTcsReads producer idx defaultToSmoothInterp producer.blocks records =
      producer.outputLoads.foldlM (readOutput producer idx defaultToSmoothInterp) records := by
  unfold NirShader.outputLoads NirShader.instrs
  induction producer.blocks generalizing records with
  | nil => rfl
  | cons block blocks ih =>
    rw [gatherTcsReads,List.flatten_cons,List.filterMap_append,List.foldlM_append,gatherTcsBlock_eq]
    exact congrArg _ (funext ih)

/-- A walk's records, with their count: each record set sits at the place whose number is
its position, and was made by a read the walk may make. -/
def Recorded (idx : InfoIdx) (made : VaryingComponent → Prop) (count : Nat)
    (records : List (Option VaryingComponent)) : Prop :=
  records.length = count ∧ ∀ n r, records[n]? = some (some r) → infoIdx idx r.var = some (n + 1) ∧ made r

section Recorded

variable {idx : InfoIdx} {made : VaryingComponent → Prop} {count : Nat}

theorem Recorded.init {records : List (Option VaryingComponent)} (recorded : Recorded idx made count records)
    {number : Nat} {record : VaryingComponent} (found : infoIdx idx record.var = some number) (nonzero : number ≠ 0)
    (ok : made record) : Recorded idx made count (initRecord records number record) := by
  refine ⟨(initRecord_length ..).trans recorded.1,fun n r entry => ?_⟩
  unfold initRecord at entry
  split at entry
  · rw [List.getElem?_set] at entry
    split_ifs at entry with here
    · obtain rfl := here
      obtain rfl : record = r := by simpa using entry
      exact ⟨by rw [found]; congr 1; omega,ok⟩
    · exact recorded.2 n r entry
  · exact recorded.2 n r entry

theorem Recorded.foldl_readInput (consumer : NirShader) (defaultToSmoothInterp : Bool) :
    ∀ (reads : List NirVariable) {records : List (Option VaryingComponent)}, Recorded idx made count records →
      (∀ var ∈ reads, made (.ofVar var (ioType var consumer.stage) defaultToSmoothInterp false)) →
      Recorded idx made count (reads.foldl (readInput consumer idx defaultToSmoothInterp) records)
  | [], _, recorded, _ => recorded
  | var :: reads, records, recorded, ok => by
    refine Recorded.foldl_readInput consumer defaultToSmoothInterp reads ?_
      fun v member => ok v (List.mem_cons_of_mem _ member)
    unfold readInput
    split
    next number found =>
      split
      · exact recorded
      next nonzero => exact recorded.init found nonzero (ok var (List.mem_cons_self _ _))
    · exact recorded

theorem Recorded.foldlM_readOutput (producer : NirShader) (defaultToSmoothInterp : Bool) :
    ∀ (reads : List NirVariable) {records records' : List (Option VaryingComponent)},
      Recorded idx made count records →
      (∀ var ∈ reads, made (.ofVar var (tcsReadType var producer.stage) defaultToSmoothInterp true)) →
      reads.foldlM (readOutput producer idx defaultToSmoothInterp) records = some records' →
      Recorded idx made count records'
  | [], _, _, recorded, _, done => Option.some_inj.mp done ▸ recorded
  | var :: reads, records, _, recorded, ok, done => by
    rw [List.foldlM_cons] at done
    obtain ⟨mid,first,rest⟩ := Option.bind_eq_some.mp done
    refine Recorded.foldlM_readOutput producer defaultToSmoothInterp reads ?_
      (fun v member => ok v (List.mem_cons_of_mem _ member)) rest
    unfold readOutput at first
    split at first
    · exact Option.some_inj.mp first ▸ recorded
    · cases first
    next number nonzero found =>
      exact Option.some_inj.mp first ▸ recorded.init found nonzero (ok var (List.mem_cons_self _ _))

end Recorded

theorem mapM_id_eq_some {α : Type} : ∀ {l : List (Option α)} {rs : List α}, l.mapM id = some rs → l = rs.map some
  | [], _, h => by cases Option.some_inj.mp h; rfl
  | a :: l, _, h => by
    rw [List.mapM_cons] at h
    obtain ⟨a,rfl,rest⟩ := Option.bind_eq_some.mp h
    obtain ⟨rs,found,done⟩ := Option.bind_eq_some.mp rest
    cases Option.some_inj.mp done
    rw [List.map_cons,← mapM_id_eq_some found]

theorem mapM_id_map {α β : Type} (g : α → β) : ∀ (l : List (Option α)),
    (l.map (Option.map g)).mapM id = (l.mapM id).map (List.map g)
  | [] => rfl
  | none :: l => by rw [List.map_cons,List.mapM_cons,List.mapM_cons]; rfl
  | some a :: l => by
    rw [List.map_cons,List.mapM_cons,List.mapM_cons,mapM_id_map g l]
    cases l.mapM id <;> rfl

theorem infoIdx_isGeneric {idx : InfoIdx} {var : NirVariable} {number : Nat} (found : infoIdx idx var = some number) :
    isGenericLocation var.location = true := by
  cases generic : isGenericLocation var.location
  · rw [infoIdx_of_builtin idx generic] at found; cases found
  · rfl

/-- A record one of the reads of `gather_varying_component_info` makes: of a consumer input
it reads, or, for a TCS, of an output the TCS reads back itself. -/
def ReadRecord (producer consumer : NirShader) (defaultToSmoothInterp : Bool) (r : VaryingComponent) : Prop :=
  r.var ∈ consumer.inputReads ∧ r = .ofVar r.var (ioType r.var consumer.stage) defaultToSmoothInterp false ∨
    producer.stage = .tessCtrl ∧ r.var ∈ producer.outputLoads ∧
      r = .ofVar r.var (tcsReadType r.var producer.stage) defaultToSmoothInterp true

/-- What `gather_varying_component_info` returns: nothing, or one record for each number
`store_varying_info_idx` gives, each made by one of its reads of a variable with that number. -/
theorem gatherVaryingComponentInfo_recorded (producer consumer : NirShader) (defaultToSmoothInterp : Bool) :
    gatherVaryingComponentInfo producer consumer defaultToSmoothInterp = [] ∨
      Recorded (storeVaryingInfoIdx producer).1 (ReadRecord producer consumer defaultToSmoothInterp)
        (storeVaryingInfoIdx producer).2 ((gatherVaryingComponentInfo producer consumer defaultToSmoothInterp).map some) := by
  unfold gatherVaryingComponentInfo
  generalize storeVaryingInfoIdx producer = numbered
  obtain ⟨idx,count⟩ := numbered
  have empty : Recorded idx (ReadRecord producer consumer defaultToSmoothInterp) count (List.replicate count none) :=
    ⟨List.length_replicate _ _,fun n r entry => by rw [List.getElem?_replicate] at entry; split_ifs at entry; cases entry⟩
  have reads := empty.foldl_readInput consumer defaultToSmoothInterp consumer.inputReads
    fun var member => .inl ⟨member,rfl⟩
  have final : ∀ records, Recorded idx (ReadRecord producer consumer defaultToSmoothInterp) count records →
      (records.mapM id).getD [] = [] ∨
        Recorded idx (ReadRecord producer consumer defaultToSmoothInterp) count (((records.mapM id).getD []).map some) := by
    intro records recorded
    cases all : records.mapM id with
    | none => exact .inl rfl
    | some found => exact .inr (by rw [Option.getD_some,← mapM_id_eq_some all]; exact recorded)
  dsimp only
  rw [gatherConsumerReads_eq]
  generalize consumer.inputReads.foldl _ _ = records at reads
  split_ifs with tcs
  · rw [gatherTcsReads_eq]
    cases walk : producer.outputLoads.foldlM (readOutput producer idx defaultToSmoothInterp) records with
    | none => exact .inl rfl
    | some records' =>
      exact final records' (reads.foldlM_readOutput producer defaultToSmoothInterp _
        (fun var member => .inr ⟨tcs,member,rfl⟩) walk)
  · exact final records reads

theorem storeVaryingInfoIdx_spec (producer : NirShader) (distinct : (producer.packableOutputs.map tableIndex).Nodup) :
    (storeVaryingInfoIdx producer).2 = producer.packableOutputs.length ∧
      (∀ n (bound : n < producer.packableOutputs.length),
        List.getD (storeVaryingInfoIdx producer).1 (tableIndex producer.packableOutputs[n]) 0 = n + 1) ∧
      ∀ i, i ∉ producer.packableOutputs.map tableIndex → List.getD (storeVaryingInfoIdx producer).1 i 0 = 0 := by
  have inside : ∀ var ∈ producer.packableOutputs, tableIndex var < maxVaryingsInclPatch * 4 := by
    intro var member
    simp only [NirShader.packableOutputs,List.mem_filter,Bool.and_eq_true] at member
    exact tableIndex_lt member.2.1.1
  rw [storeVaryingInfoIdx_eq]
  exact (foldl_numberOutput _ distinct inside).2

/-- For outputs at distinct places, `gather_varying_component_info` returns nothing, or one
record at the place of each numbered output, in their order, each of a generic variable and
made by one of its reads. -/
theorem gatherVaryingComponentInfo_spec (producer consumer : NirShader) (defaultToSmoothInterp : Bool)
    (distinct : (producer.packableOutputs.map tableIndex).Nodup) :
    gatherVaryingComponentInfo producer consumer defaultToSmoothInterp = [] ∨
      (gatherVaryingComponentInfo producer consumer defaultToSmoothInterp).map (fun r => tableIndex r.var) =
          producer.packableOutputs.map tableIndex ∧
        ∀ r ∈ gatherVaryingComponentInfo producer consumer defaultToSmoothInterp,
          isGenericLocation r.var.location = true ∧ ReadRecord producer consumer defaultToSmoothInterp r := by
  obtain ⟨count,numbers,zeros⟩ := storeVaryingInfoIdx_spec producer distinct
  refine (gatherVaryingComponentInfo_recorded producer consumer defaultToSmoothInterp).imp_right
    fun ⟨length,recorded⟩ => ?_
  generalize gatherVaryingComponentInfo producer consumer defaultToSmoothInterp = records at length recorded ⊢
  rw [List.length_map,count] at length
  have place : ∀ n (bound : n < records.length), tableIndex records[n].var = tableIndex producer.packableOutputs[n] ∧
      isGenericLocation records[n].var.location = true ∧ ReadRecord producer consumer defaultToSmoothInterp records[n] := by
    intro n bound
    obtain ⟨number,made⟩ := recorded n records[n] (by simp [bound])
    have generic := infoIdx_isGeneric number
    rw [infoIdx_of_generic _ generic,Option.some_inj] at number
    have numbered : tableIndex records[n].var ∈ producer.packableOutputs.map tableIndex := by
      by_contra absent
      rw [zeros _ absent] at number
      cases number
    obtain ⟨m,within,same⟩ := List.getElem_of_mem numbered
    rw [List.getElem_map] at same
    obtain rfl : m = n := by
      have := numbers m (by simpa using within)
      rw [same] at this
      omega
    exact ⟨same.symm,generic,made⟩
  refine ⟨List.ext_getElem (by simp [length]) fun n bound _ => by simpa using (place n (by simpa using bound)).1,
    fun r member => ?_⟩
  obtain ⟨n,bound,rfl⟩ := List.getElem_of_mem member
  exact (place n bound).2

/-! ### Records of moved variables -/

theorem initRecord_map (g : VaryingComponent → VaryingComponent) (records : List (Option VaryingComponent))
    (number : Nat) (record : VaryingComponent) :
    initRecord (records.map (Option.map g)) number (g record) = (initRecord records number record).map (Option.map g) := by
  unfold initRecord
  rw [List.getElem?_map]
  cases records[number - 1]? with
  | none => rfl
  | some entry =>
    cases entry with
    | none => simp only [Option.map_some',Option.map_none',List.map_set]
    | some _ => rfl

theorem foldl_readInput_map (consumer consumer' : NirShader) (idx idx' : InfoIdx) (defaultToSmoothInterp : Bool)
    (move : NirVariable → NirVariable) (g : VaryingComponent → VaryingComponent)
    (lookup : ∀ var ∈ consumer.inputReads, infoIdx idx' (move var) = infoIdx idx var)
    (record : ∀ var ∈ consumer.inputReads, isGenericLocation var.location = true →
      VaryingComponent.ofVar (move var) (ioType (move var) consumer'.stage) defaultToSmoothInterp false =
        g (.ofVar var (ioType var consumer.stage) defaultToSmoothInterp false)) :
    ∀ (reads : List NirVariable) (records : List (Option VaryingComponent)), reads ⊆ consumer.inputReads →
    (reads.map move).foldl (readInput consumer' idx' defaultToSmoothInterp) (records.map (Option.map g)) =
      (reads.foldl (readInput consumer idx defaultToSmoothInterp) records).map (Option.map g)
  | [], _, _ => rfl
  | var :: rest, records, within => by
    have member := within (List.mem_cons_self _ _)
    rw [List.map_cons,List.foldl_cons,List.foldl_cons,← foldl_readInput_map consumer consumer' idx idx'
      defaultToSmoothInterp move g lookup record rest _ fun v inRest => within (List.mem_cons_of_mem _ inRest)]
    congr 1
    unfold readInput
    rw [lookup var member]
    cases found : infoIdx idx var with
    | none => rfl
    | some number =>
      dsimp only
      split
      · rfl
      · rw [record var member (infoIdx_isGeneric found),initRecord_map]

theorem foldlM_readOutput_map (producer producer' : NirShader) (idx idx' : InfoIdx) (defaultToSmoothInterp : Bool)
    (move : NirVariable → NirVariable) (g : VaryingComponent → VaryingComponent)
    (lookup : ∀ var ∈ producer.outputLoads, infoIdx idx' (move var) = infoIdx idx var)
    (record : ∀ var ∈ producer.outputLoads, isGenericLocation var.location = true →
      VaryingComponent.ofVar (move var) (tcsReadType (move var) producer'.stage) defaultToSmoothInterp true =
        g (.ofVar var (tcsReadType var producer.stage) defaultToSmoothInterp true)) :
    ∀ (reads : List NirVariable) (records : List (Option VaryingComponent)), reads ⊆ producer.outputLoads →
    (reads.map move).foldlM (readOutput producer' idx' defaultToSmoothInterp) (records.map (Option.map g)) =
      (reads.foldlM (readOutput producer idx defaultToSmoothInterp) records).map (List.map (Option.map g))
  | [], _, _ => rfl
  | var :: rest, records, within => by
    have member := within (List.mem_cons_self _ _)
    have tail := foldlM_readOutput_map producer producer' idx idx' defaultToSmoothInterp move g lookup record rest
    rw [List.map_cons,List.foldlM_cons,List.foldlM_cons]
    unfold readOutput
    rw [lookup var member]
    rcases found : infoIdx idx var with _ | _ | number
    · exact tail records fun v inRest => within (List.mem_cons_of_mem _ inRest)
    · rfl
    · simp only [record var member (infoIdx_isGeneric found),initRecord_map]
      exact tail _ fun v inRest => within (List.mem_cons_of_mem _ inRest)

/-- Gathering from moved interfaces that number as many outputs and look up the same
records, in the consumer's reads and in a TCS's own, gives the same records, read from the
moved variables. -/
theorem gatherVaryingComponentInfo_move {producer consumer producer' consumer' : NirShader}
    (defaultToSmoothInterp : Bool) (move moveOut : NirVariable → NirVariable) (g : VaryingComponent → VaryingComponent)
    (stage : producer'.stage = producer.stage)
    (count : (storeVaryingInfoIdx producer').2 = (storeVaryingInfoIdx producer).2)
    (reads : consumer'.inputReads = consumer.inputReads.map move)
    (lookup : ∀ var ∈ consumer.inputReads,
      infoIdx (storeVaryingInfoIdx producer').1 (move var) = infoIdx (storeVaryingInfoIdx producer).1 var)
    (record : ∀ var ∈ consumer.inputReads, isGenericLocation var.location = true →
      VaryingComponent.ofVar (move var) (ioType (move var) consumer'.stage) defaultToSmoothInterp false =
        g (.ofVar var (ioType var consumer.stage) defaultToSmoothInterp false))
    (loads : producer'.outputLoads = producer.outputLoads.map moveOut)
    (lookupOut : ∀ var ∈ producer.outputLoads,
      infoIdx (storeVaryingInfoIdx producer').1 (moveOut var) = infoIdx (storeVaryingInfoIdx producer).1 var)
    (recordOut : ∀ var ∈ producer.outputLoads, isGenericLocation var.location = true →
      VaryingComponent.ofVar (moveOut var) (tcsReadType (moveOut var) producer'.stage) defaultToSmoothInterp true =
        g (.ofVar var (tcsReadType var producer.stage) defaultToSmoothInterp true)) :
    gatherVaryingComponentInfo producer' consumer' defaultToSmoothInterp =
      (gatherVaryingComponentInfo producer consumer defaultToSmoothInterp).map g := by
  unfold gatherVaryingComponentInfo
  generalize storeVaryingInfoIdx producer = numbered at count lookup lookupOut
  generalize storeVaryingInfoIdx producer' = numbered' at count lookup lookupOut
  obtain ⟨idx,n⟩ := numbered
  obtain ⟨idx',n'⟩ := numbered'
  dsimp only at count lookup lookupOut ⊢
  subst count
  have start : List.replicate n' (none : Option VaryingComponent) = (List.replicate n' none).map (Option.map g) := by
    rw [List.map_replicate]; rfl
  have walk := foldl_readInput_map consumer consumer' idx idx' defaultToSmoothInterp move g lookup record
    consumer.inputReads (List.replicate n' none) (fun _ => id)
  rw [← start] at walk
  rw [gatherConsumerReads_eq,gatherConsumerReads_eq,reads,walk,stage]
  generalize consumer.inputReads.foldl _ _ = records
  split_ifs
  · rw [gatherTcsReads_eq,gatherTcsReads_eq,loads,foldlM_readOutput_map producer producer' idx idx'
      defaultToSmoothInterp moveOut g lookupOut recordOut _ records (fun _ => id)]
    rcases producer.outputLoads.foldlM (readOutput producer idx defaultToSmoothInterp) records with _ | records'
    · rfl
    · simp only [Option.map_some',mapM_id_map]
      cases records'.mapM id <;> rfl
  · simp only [mapM_id_map]
    cases records.mapM id <;> rfl

end Mesa.Nir

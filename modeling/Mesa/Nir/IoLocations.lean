import Mesa.Nir.Shader

/-! `nir_assign_io_var_locations`. The variables of one mode are taken out of the shader's
list and insertion-sorted by location, stably; they are then given driver locations in that
order, a variable whose slot was met before in its `data.index` reusing the driver location
recorded for its first slot, and appended to the shader's list again. -/
namespace Mesa.Nir

/-- `insert_sorted`: the new variable goes before the first variable of the list whose
location is greater, or at the tail. -/
def insertSorted (newVar : NirVariable) : List NirVariable → List NirVariable
  | [] => [newVar]
  | var :: rest =>
    if var.location > newVar.location then newVar :: var :: rest else var :: insertSorted newVar rest

/-- `sort_varyings`: the loop takes each variable of the mode out of the shader's list, in
list order, and inserts it in the sorted list. The shader's list and the sorted list. -/
def sortVaryings (vars : List NirVariable) (mode : NirVariableMode) :
    List NirVariable × List NirVariable :=
  vars.foldl (fun lists var =>
    if var.mode = mode then (lists.1,insertSorted var lists.2) else (lists.1 ++ [var],lists.2)) ([],[])

/-- `VERT_ATTRIB_GENERIC0`. -/
def vertAttribGeneric0 : Nat := 15

/-- `FRAG_RESULT_DATA0`. -/
def fragResultData0 : Nat := 4

/-- The first generic slot of the variable's kind: vertex inputs count from
`VERT_ATTRIB_GENERIC0`, fragment outputs from `FRAG_RESULT_DATA0`, the rest from
`VARYING_SLOT_VAR0`. -/
def ioVarBase (var : NirVariable) (stage : GlShaderStage) : Nat :=
  if var.mode = .shaderIn ∧ stage = .vertex then vertAttribGeneric0
  else if var.mode = .shaderOut ∧ stage = .fragment then fragResultData0
  else varyingSlotVar0

/-- The loop state of `nir_assign_io_var_locations`; `assignedLocations` starts as the
contents of the uninitialised array `assigned_locations`. -/
structure IoLocationState where
  location : Nat
  lastPartial : Bool
  processedLocs : Fin 2 → BitVec 64
  assignedLocations : Int → Nat

/-- The location the variable starts at, its `var_size` and `last_partial` after it. A
compact array packs `glsl_get_length` scalars from component `location_frac`, moving to the
next slot first when it starts at component 0 after a partial slot; any other variable
starts at the next slot after a partial one. -/
def ioVarSlots (var : NirVariable) (stage : GlShaderStage) (location : Nat) (lastPartial : Bool) :
    Nat × Nat × Bool :=
  if var.compact then
    let location := if lastPartial ∧ var.locationFrac = 0 then location + 1 else location
    let start := 4 * location + var.locationFrac
    let stop := start + (ioType var stage).length
    (location,stop / 4 - location,stop % 4 ≠ 0)
  else (if lastPartial then location + 1 else location,(ioType var stage).countAttributeSlots,false)

/-- The loop over the variable's slots in `processed_locs[data.index]`: a slot already marked
makes the variable processed, any other is marked. -/
def markProcessed (index : Fin 2) (glslLocation : Nat) :
    (Fin 2 → BitVec 64) → Bool → List Nat → Bool × (Fin 2 → BitVec 64)
  | masks, processed, [] => (processed,masks)
  | masks, processed, i :: rest =>
    if masks index &&& bitfield64Bit (glslLocation + i) ≠ 0 then
      markProcessed index glslLocation masks true rest
    else markProcessed index glslLocation
      (Function.update masks index (masks index ||| bitfield64Bit (glslLocation + i))) processed rest

/-- The two allocation loops: `assigned_locations[var_location + i]` is `slot + (i - first)`
for `first ≤ i < var_size`. -/
def assignSlots (assigned : Int → Nat) (varLocation : Int) (first varSize slot : Nat) : Int → Nat :=
  fun l => if varLocation + first ≤ l ∧ l < varLocation + varSize then slot + (l - varLocation - first).toNat
    else assigned l

/-- One iteration of the loop of `nir_assign_io_var_locations`: the state after the variable,
and its `driver_location`. A processed variable takes the driver location recorded for its
first slot and allocates the slots that run past `location`; `first_unallocated_slot` is an
`unsigned` difference. -/
def assignIoVarLocation (stage : GlShaderStage) (state : IoLocationState) (var : NirVariable) :
    IoLocationState × Nat :=
  let (location,varSize,lastPartial) := ioVarSlots var stage state.location state.lastPartial
  let base : Int := ioVarBase var stage
  let (processed,processedLocs) :=
    if var.location ≥ base then
      markProcessed var.index (var.location - base).toNat state.processedLocs false (List.range varSize)
    else (false,state.processedLocs)
  if processed then
    let driverLocation := state.assignedLocations var.location
    let lastSlotLocation := driverLocation + varSize
    if lastSlotLocation > location then
      let first := unsignedOf (varSize - (lastSlotLocation - location) : Int)
      (⟨location + (varSize - first),lastPartial,processedLocs,
        assignSlots state.assignedLocations var.location first varSize location⟩,driverLocation)
    else (⟨location,lastPartial,processedLocs,state.assignedLocations⟩,driverLocation)
  else
    (⟨location + varSize,lastPartial,processedLocs,
      assignSlots state.assignedLocations var.location 0 varSize location⟩,location)

/-- The loop over the sorted variables: the final state and the driver locations in order. -/
def assignIoVarLocations (stage : GlShaderStage) :
    IoLocationState → List NirVariable → IoLocationState × List Nat
  | state, [] => (state,[])
  | state, var :: rest =>
    let (state,driverLocation) := assignIoVarLocation stage state var
    let (final,driverLocations) := assignIoVarLocations stage state rest
    (final,driverLocation :: driverLocations)

/-- What `nir_assign_io_var_locations` leaves: the shader's variable list, the driver
locations of the sorted I/O variables at its end, in order, and `*size`. -/
structure IoVarLocations where
  vars : List NirVariable
  driverLocations : List Nat
  size : Nat
  deriving DecidableEq

/-- `nir_assign_io_var_locations`, with `assigned` the contents of the uninitialised array
`assigned_locations`. -/
def nirAssignIoVarLocations (shader : NirShader) (mode : NirVariableMode) (stage : GlShaderStage)
    (assigned : Int → Nat) : IoVarLocations :=
  let (kept,ioVars) := sortVaryings shader.vars mode
  let (final,driverLocations) := assignIoVarLocations stage ⟨0,false,fun _ => 0,assigned⟩ ioVars
  ⟨kept ++ ioVars,driverLocations,if final.lastPartial then final.location + 1 else final.location⟩

section Sorting

/-- Locations in non-decreasing order. -/
def LocationSorted (vars : List NirVariable) : Prop := vars.Pairwise (·.location ≤ ·.location)

theorem perm_insertSorted (newVar : NirVariable) :
    ∀ vars, List.Perm (insertSorted newVar vars) (newVar :: vars)
  | [] => List.Perm.refl _
  | var :: rest => by
    unfold insertSorted
    split
    · rfl
    · exact ((perm_insertSorted newVar rest).cons var).trans (List.Perm.swap newVar var rest)

theorem insertSorted_sorted (newVar : NirVariable) :
    ∀ {vars}, LocationSorted vars → LocationSorted (insertSorted newVar vars)
  | [], _ => List.pairwise_singleton _ _
  | var :: rest, sorted => by
    rw [LocationSorted,List.pairwise_cons] at sorted
    unfold insertSorted
    split
    case isTrue greater =>
      refine List.Pairwise.cons (fun x mem => ?_) (List.Pairwise.cons sorted.1 sorted.2)
      rcases List.mem_cons.mp mem with rfl | mem
      · exact Int.le_of_lt greater
      · exact Int.le_trans (Int.le_of_lt greater) (sorted.1 x mem)
    case isFalse notGreater =>
      refine List.Pairwise.cons (fun x mem => ?_) (insertSorted_sorted newVar sorted.2)
      rcases List.mem_cons.mp ((perm_insertSorted newVar rest).mem_iff.mp mem) with rfl | mem
      · exact Int.not_lt.mp notGreater
      · exact sorted.1 x mem

theorem filter_insertSorted (newVar : NirVariable) (location : Int) :
    ∀ {vars}, LocationSorted vars →
      (insertSorted newVar vars).filter (·.location = location) =
        vars.filter (·.location = location) ++ [newVar].filter (·.location = location)
  | [], _ => rfl
  | var :: rest, sorted => by
    rw [LocationSorted,List.pairwise_cons] at sorted
    unfold insertSorted
    split
    case isTrue greater =>
      by_cases here : newVar.location = location
      · have later : (var :: rest).filter (·.location = location) = [] :=
          List.filter_eq_nil_iff.mpr fun x mem => by
            rcases List.mem_cons.mp mem with rfl | mem
            · simp only [decide_eq_true_eq]; omega
            · have := sorted.1 x mem; simp only [decide_eq_true_eq]; omega
        simp [List.filter_cons,here,later]
      · simp [List.filter_cons,here]
    case isFalse =>
      simp only [List.filter_cons,filter_insertSorted newVar location sorted.2]
      split <;> rfl

variable (location : Int)

theorem foldl_insertSorted_perm : ∀ (vars acc : List NirVariable),
    List.Perm (vars.foldl (fun sorted var => insertSorted var sorted) acc) (acc ++ vars)
  | [], acc => by simp
  | var :: vars, acc =>
    (foldl_insertSorted_perm vars _).trans
      (((perm_insertSorted var acc).append_right vars).trans List.perm_middle.symm)

theorem foldl_insertSorted_sorted : ∀ (vars : List NirVariable) {acc}, LocationSorted acc →
    LocationSorted (vars.foldl (fun sorted var => insertSorted var sorted) acc)
  | [], _, sorted => sorted
  | var :: vars, _, sorted => foldl_insertSorted_sorted vars (insertSorted_sorted var sorted)

theorem foldl_insertSorted_filter : ∀ (vars : List NirVariable) {acc}, LocationSorted acc →
    (vars.foldl (fun sorted var => insertSorted var sorted) acc).filter (·.location = location) =
      acc.filter (·.location = location) ++ vars.filter (·.location = location)
  | [], _, _ => by simp
  | var :: vars, acc, sorted => by
    rw [List.foldl_cons,foldl_insertSorted_filter vars (insertSorted_sorted var sorted),
      filter_insertSorted var location sorted,List.append_assoc,← List.filter_append]
    rfl

/-- `sort_varyings` is a filter of the shader's list and a stable insertion sort of the rest. -/
theorem sortVaryings_eq (vars : List NirVariable) (mode : NirVariableMode) :
    sortVaryings vars mode = (vars.filter (·.mode ≠ mode),
      (vars.filter (·.mode = mode)).foldl (fun sorted var => insertSorted var sorted) []) := by
  suffices loop : ∀ (vars : List NirVariable) (acc : List NirVariable × List NirVariable),
      vars.foldl (fun lists var => if var.mode = mode then (lists.1,insertSorted var lists.2)
        else (lists.1 ++ [var],lists.2)) acc =
      (acc.1 ++ vars.filter (·.mode ≠ mode),
        (vars.filter (·.mode = mode)).foldl (fun sorted var => insertSorted var sorted) acc.2) from
    loop vars ([],[])
  intro vars
  induction vars with
  | nil => simp
  | cons var vars ih =>
    intro acc
    by_cases same : var.mode = mode <;> simp [same,ih]

theorem mem_sortVaryings {vars : List NirVariable} {mode : NirVariableMode} {var : NirVariable}
    (mem : var ∈ (sortVaryings vars mode).2) : var ∈ vars ∧ var.mode = mode := by
  rw [sortVaryings_eq] at mem
  simpa using (foldl_insertSorted_perm (vars.filter (·.mode = mode)) []).mem_iff.mp mem

theorem sortVaryings_sorted (vars : List NirVariable) (mode : NirVariableMode) :
    LocationSorted (sortVaryings vars mode).2 := by
  rw [sortVaryings_eq]
  exact foldl_insertSorted_sorted _ List.Pairwise.nil

theorem filter_nirAssignIoVarLocations_vars (shader : NirShader) (mode : NirVariableMode)
    (stage : GlShaderStage) (assigned : Int → Nat) :
    (nirAssignIoVarLocations shader mode stage assigned).vars.filter (·.mode = mode) =
      (sortVaryings shader.vars mode).2 := by
  have kept : (sortVaryings shader.vars mode).1.filter (·.mode = mode) = [] := by
    rw [sortVaryings_eq,List.filter_filter]
    simp
  have ofMode : (sortVaryings shader.vars mode).2.filter (·.mode = mode) = (sortVaryings shader.vars mode).2 :=
    List.filter_eq_self.mpr fun var mem => by simpa using (mem_sortVaryings mem).2
  show ((sortVaryings shader.vars mode).1 ++ (sortVaryings shader.vars mode).2).filter _ = _
  rw [List.filter_append,kept,ofMode,List.nil_append]

/-- After `nir_assign_io_var_locations` the shader's list is a permutation of what it was:
the variables of other modes first, in their order, then those of the mode by location,
each location's variables in their order. -/
theorem io_var_locations_sorted (shader : NirShader) (mode : NirVariableMode)
    (stage : GlShaderStage) (assigned : Int → Nat) :
    let vars := (nirAssignIoVarLocations shader mode stage assigned).vars
    let ioVars := vars.filter (·.mode = mode)
    List.Perm vars shader.vars ∧ vars = shader.vars.filter (·.mode ≠ mode) ++ ioVars ∧
      LocationSorted ioVars ∧
      ∀ location, ioVars.filter (·.location = location) =
        shader.vars.filter fun var => var.mode = mode ∧ var.location = location := by
  have vars : (nirAssignIoVarLocations shader mode stage assigned).vars =
      shader.vars.filter (·.mode ≠ mode) ++
        (shader.vars.filter (·.mode = mode)).foldl (fun sorted var => insertSorted var sorted) [] := by
    simp only [nirAssignIoVarLocations,sortVaryings_eq]
  have ioVars := filter_nirAssignIoVarLocations_vars shader mode stage assigned
  rw [sortVaryings_eq] at ioVars
  simp only [ioVars]
  refine ⟨?_,vars,foldl_insertSorted_sorted _ List.Pairwise.nil,fun location => ?_⟩
  · rw [vars]
    refine ((foldl_insertSorted_perm _ []).append_left _).trans ?_
    simpa using List.perm_append_comm.trans (List.filter_append_perm (·.mode = mode) shader.vars)
  · rw [foldl_insertSorted_filter location _ List.Pairwise.nil,List.filter_filter]
    simp [and_comm]

end Sorting

/-- A fragment shader with dual-source outputs at `FRAG_RESULT_DATA0`: the index-0 scalars
`a` (component 0) and `c` (component 1) packed in one slot, and between them in the list the
index-1 `vec4` `b`. -/
def fsDualSourceOutputs : NirShader :=
  .ofVars .fragment [.plain (.vector .float 1) .shaderOut fragResultData0 0,
    { NirVariable.plain (.vector .float 4) .shaderOut fragResultData0 0 with index := 1 },
    .plain (.vector .float 1) .shaderOut fragResultData0 1] []

/-- `processed_locs` is kept per `data.index` but `assigned_locations` is shared: `b`
overwrites the slot's entry, and `c` takes `b`'s driver location 1 instead of `a`'s 0,
whatever the array held at first. -/
theorem index_shares_assigned_locations (assigned : Int → Nat) :
    nirAssignIoVarLocations fsDualSourceOutputs .shaderOut .fragment assigned =
      ⟨fsDualSourceOutputs.vars,[0,1,1],2⟩ := by
  simp [fsDualSourceOutputs,nirAssignIoVarLocations,sortVaryings,insertSorted,assignIoVarLocations,
    assignIoVarLocation,ioVarSlots,ioVarBase,markProcessed,assignSlots,NirShader.ofVars,
    NirVariable.plain,fragResultData0,ioType,nirIsPerVertexIo,GlslType.countAttributeSlots,
    GlslBaseType.is64bit,GlslType.isArray,bitfield64Bit,shl64,unsignedOf,Function.update]

end Mesa.Nir

import Mesa.Nir.IoLocationsLaws

/-! `assigned_locations` is a stack array `nir_assign_io_var_locations` never initialises. The
loop reads it only for a processed variable, at the variable's first slot, which is marked;
while the variables share one `data.index`, the entry of a marked slot was written earlier in
the same call. Two runs from different contents of the array stay in step, so the result does
not depend on them. -/
namespace Mesa.Nir

/-- Two loop states that differ at most in entries of `assigned_locations` at unmarked slots. -/
structure AgreeOnMarked (index : Fin 2) (base : Nat) (state state' : IoLocationState) : Prop where
  location : state'.location = state.location
  lastPartial : state'.lastPartial = state.lastPartial
  processedLocs : state'.processedLocs = state.processedLocs
  assigned : ∀ slot, slotMarked state.processedLocs index base slot →
    state'.assignedLocations slot = state.assignedLocations slot

section Agree

variable {stage : GlShaderStage} {index : Fin 2} {base : Nat}

theorem ChainInv.marked_below {floor top : Int} {hist : List (NirVariable × Nat)} {state : IoLocationState}
    (inv : ChainInv stage index base floor top hist state) {var : NirVariable}
    (later : floor ≤ var.location) (inside : var.location ≤ top) {slot : Int} (low : var.location ≤ slot)
    (below : (state.assignedLocations var.location : Int) + (slot - var.location) < state.location) :
    slotMarked state.processedLocs index base slot :=
  (inv.marked_iff slot (by omega)).mpr (by have := inv.linear var.location later inside; omega)

theorem ChainInv.agree_step {floor top : Int} {hist : List (NirVariable × Nat)} {state state' : IoLocationState}
    (inv : ChainInv stage index base floor top hist state) (agree : AgreeOnMarked index base state state')
    {var : NirVariable} (later : floor ≤ var.location) (sameIndex : var.index = index)
    (sameBase : ioVarBase var stage = base) (compactBuiltin : var.compact = true → var.location < base)
    (fits : (base : Int) ≤ var.location → var.location - base + slotCount var stage ≤ 64) :
    (assignIoVarLocation stage state' var).2 = (assignIoVarLocation stage state var).2 ∧
      AgreeOnMarked index base (assignIoVarLocation stage state var).1 (assignIoVarLocation stage state' var).1 := by
  obtain ⟨location,lastPartial,masks,assigned⟩ := state
  obtain ⟨location',lastPartial',masks',assigned'⟩ := state'
  obtain ⟨sameLocation,samePartial,sameMasks,same⟩ := agree
  dsimp only at sameLocation samePartial sameMasks same
  subst location' lastPartial' masks'
  subst sameIndex sameBase
  by_cases builtin : var.location < ioVarBase var stage
  case pos =>
    rw [assignIoVarLocation_builtin _ builtin,assignIoVarLocation_builtin _ builtin]
    generalize ioVarSlots var stage location lastPartial = slots
    refine ⟨rfl,rfl,rfl,rfl,fun slot marked => ?_⟩
    simp only [assignSlots]
    split_ifs
    · rfl
    · exact same slot marked
  case neg =>
    have notCompact : var.compact = false := by
      cases compact : var.compact
      · rfl
      · exact absurd (compactBuiltin compact) builtin
    have generic : (ioVarBase var stage : Int) ≤ var.location := by omega
    obtain ⟨processedIff,marks⟩ := markProcessed_slots masks var generic (fits generic)
    rw [assignIoVarLocation_generic _ notCompact generic,assignIoVarLocation_generic _ notCompact generic]
    dsimp only
    by_cases processed : (markProcessed var.index (var.location - ioVarBase var stage).toNat masks false
        (List.range (slotCount var stage))).1 = true
    case pos =>
      obtain ⟨inside,setFirst,notPartial⟩ := inv.first_marked later (processedIff.mp processed)
      have below := inv.below _ setFirst
      dsimp only at notPartial below setFirst
      have fresh : ∀ slot, slotMarked masks var.index (ioVarBase var stage) slot ∨
          var.location ≤ slot ∧ slot < var.location + slotCount var stage →
          ¬slotMarked masks var.index (ioVarBase var stage) slot →
          var.location ≤ slot ∧ slot < var.location + slotCount var stage ∧
            (assigned var.location : Int) + (slot - var.location) ≥ location :=
        fun slot marked unmarked => by
          rcases marked with old | ⟨low,high⟩
          · exact absurd old unmarked
          · exact ⟨low,high,Int.not_lt.mp fun lt => unmarked (inv.marked_below later inside low lt)⟩
      rw [same _ setFirst]
      simp only [processed,notPartial,Bool.false_eq_true,↓reduceIte]
      split_ifs with extended
      · rw [unsignedOf_of_lt (by omega) (by omega)]
        refine ⟨rfl,rfl,rfl,rfl,fun slot marked => ?_⟩
        simp only [assignSlots]
        split_ifs with inRange
        · rfl
        · by_cases old : slotMarked masks var.index (ioVarBase var stage) slot
          · exact same slot old
          · have := fresh slot ((marks slot).mp marked) old
            omega
      · refine ⟨rfl,rfl,rfl,rfl,fun slot marked => ?_⟩
        by_cases old : slotMarked masks var.index (ioVarBase var stage) slot
        · exact same slot old
        · have := fresh slot ((marks slot).mp marked) old
          omega
    case neg =>
      rw [if_neg processed,if_neg processed]
      refine ⟨rfl,rfl,rfl,rfl,fun slot marked => ?_⟩
      simp only [assignSlots]
      split_ifs with inRange
      · rfl
      · rfl
      · rcases (marks slot).mp marked with old | ⟨low,high⟩
        · exact same slot old
        · exact absurd ⟨by omega,high⟩ inRange

/-- The loop over variables sorted by location, each of the index, at or after `floor`, from two
states that agree on marked slots: the same driver locations, and final states that agree. -/
theorem ChainInv.agree_run : ∀ (vars : List NirVariable) {floor top : Int} {hist : List (NirVariable × Nat)}
    {state state' : IoLocationState}, ChainInv stage index base floor top hist state →
    AgreeOnMarked index base state state' → LocationSorted vars →
    (∀ var ∈ vars, floor ≤ var.location ∧ var.index = index ∧ ioVarBase var stage = base ∧
      (var.compact = true → var.location < base) ∧
      ((base : Int) ≤ var.location → var.location - base + slotCount var stage ≤ 64)) →
    (assignIoVarLocations stage state' vars).2 = (assignIoVarLocations stage state vars).2 ∧
      AgreeOnMarked index base (assignIoVarLocations stage state vars).1 (assignIoVarLocations stage state' vars).1
  | [], _, _, _, _, _, _, agree, _, _ => ⟨rfl,agree⟩
  | var :: vars, _, _, _, _, _, inv, agree, sorted, fitting => by
    rw [LocationSorted,List.pairwise_cons] at sorted
    obtain ⟨later,sameIndex,sameBase,compactBuiltin,fits⟩ := fitting var (List.mem_cons_self var vars)
    obtain ⟨_,next⟩ := inv.step later sameIndex sameBase compactBuiltin fits
    obtain ⟨driver,agreeNext⟩ := inv.agree_step agree later sameIndex sameBase compactBuiltin fits
    obtain ⟨rest,final⟩ := ChainInv.agree_run vars next agreeNext sorted.2 fun other mem =>
      ⟨sorted.1 other mem,(fitting other (List.mem_cons_of_mem var mem)).2⟩
    simp only [assignIoVarLocations]
    exact ⟨by rw [driver,rest],final⟩

end Agree

/-- With one `data.index`, no compact array at a generic slot and every generic variable within
the 64 bits of `processed_locs`, what `nir_assign_io_var_locations` leaves (the variable list,
the driver locations and `*size`) does not depend on the first contents of the uninitialised
array `assigned_locations`. -/
theorem io_var_locations_ignore_uninitialised (shader : NirShader) (mode : NirVariableMode)
    (stage : GlShaderStage) (assigned assigned' : Int → Nat) (index : Fin 2)
    (oneIndex : ∀ var ∈ shader.vars, var.mode = mode → var.index = index)
    (compactBuiltin : ∀ var ∈ shader.vars, var.mode = mode → var.compact = true →
      var.location < ioVarBase var stage)
    (inBits : ∀ var ∈ shader.vars, var.mode = mode → (ioVarBase var stage : Int) ≤ var.location →
      var.location - ioVarBase var stage + slotCount var stage ≤ 64) :
    nirAssignIoVarLocations shader mode stage assigned' = nirAssignIoVarLocations shader mode stage assigned := by
  obtain ⟨floor,base,fitting⟩ := sortVaryings_fitting shader mode stage index oneIndex compactBuiltin inBits
  have init : AgreeOnMarked index base ⟨0,false,fun _ => 0,assigned⟩ ⟨0,false,fun _ => 0,assigned'⟩ :=
    ⟨rfl,rfl,rfl,fun _ marked => by simp [slotMarked] at marked⟩
  obtain ⟨driver,agree⟩ := ChainInv.agree_run _ (chainInv_init stage index base floor assigned) init
    (sortVaryings_sorted shader.vars mode) fitting
  have result : ∀ assigned, nirAssignIoVarLocations shader mode stage assigned =
      let final := assignIoVarLocations stage ⟨0,false,fun _ => 0,assigned⟩ (sortVaryings shader.vars mode).2
      ⟨(sortVaryings shader.vars mode).1 ++ (sortVaryings shader.vars mode).2,final.2,
        if final.1.lastPartial then final.1.location + 1 else final.1.location⟩ := fun _ => rfl
  rw [result,result]
  dsimp only
  rw [driver,agree.location,agree.lastPartial]

/-- The packed vertex shader's locations are the same whatever the array held. -/
theorem io_var_locations_ignore_uninitialised_packed :
    (∀ var ∈ vsPackedOutputs.vars, var.mode = .shaderOut → var.index = 0) ∧
    (∀ var ∈ vsPackedOutputs.vars, var.mode = .shaderOut → var.compact = true →
      var.location < ioVarBase var .vertex) ∧
    (∀ var ∈ vsPackedOutputs.vars, var.mode = .shaderOut → (ioVarBase var .vertex : Int) ≤ var.location →
      var.location - ioVarBase var .vertex + slotCount var .vertex ≤ 64) ∧
    nirAssignIoVarLocations vsPackedOutputs .shaderOut .vertex (fun _ => 7) =
      nirAssignIoVarLocations vsPackedOutputs .shaderOut .vertex fun _ => 0 :=
  have oneIndex : ∀ var ∈ vsPackedOutputs.vars, var.mode = .shaderOut → var.index = 0 := by decide
  have compactBuiltin : ∀ var ∈ vsPackedOutputs.vars, var.mode = .shaderOut → var.compact = true →
      var.location < ioVarBase var .vertex := by decide
  have inBits : ∀ var ∈ vsPackedOutputs.vars, var.mode = .shaderOut →
      (ioVarBase var .vertex : Int) ≤ var.location →
      var.location - ioVarBase var .vertex + slotCount var .vertex ≤ 64 := by decide
  ⟨oneIndex,compactBuiltin,inBits,
    io_var_locations_ignore_uninitialised vsPackedOutputs .shaderOut .vertex _ _ 0 oneIndex compactBuiltin inBits⟩

end Mesa.Nir

import Mesa.Nir.IoLocationsLaws

/-! The driver slots `nir_assign_io_var_locations` hands out leave no gap. Where the loop keeps
`ChainInv` and no compact array is empty, the slots below `*size` are exactly those some
variable occupies from its driver location. A slot a compact array leaves partial is counted
once, when the loop moves past it or at the end, and it is one of the array's slots. -/
namespace Mesa.Nir

/-- Slot `slot` is one the variable occupies from driver location `driver`: one of its
`slot_count` slots, or for a compact array one that its scalars, packed from component
`location_frac`, fall in. -/
def DriverSlot (stage : GlShaderStage) (var : NirVariable) (driver slot : Nat) : Prop :=
  if var.compact then ∃ i < (ioType var stage).length, (4 * driver + var.locationFrac + i) / 4 = slot
  else driver ≤ slot ∧ slot < driver + slotCount var stage

/-- The slots the loop has used up: those below `location`, and `location` itself while it is
partial. -/
def Covered (location : Nat) (lastPartial : Bool) (slot : Nat) : Prop :=
  slot < location ∨ lastPartial = true ∧ slot = location

theorem ioVarSlots_covered (var : NirVariable) (stage : GlShaderStage) (location : Nat)
    (lastPartial : Bool) (nonempty : var.compact = true → 0 < (ioType var stage).length) (slot : Nat) :
    let slots := ioVarSlots var stage location lastPartial
    Covered (slots.1 + slots.2.1) slots.2.2 slot ↔
      Covered location lastPartial slot ∨ DriverSlot stage var slots.1 slot := by
  cases compact : var.compact
  case false =>
    rw [ioVarSlots_of_not_compact compact]
    cases lastPartial <;>
      simp only [Covered,DriverSlot,compact,Bool.false_eq_true,↓reduceIte,false_and,or_false,true_and] <;> omega
  case true =>
    have scalars := nonempty compact
    have frac := var.locationFrac_lt
    simp only [ioVarSlots,Covered,DriverSlot,compact,↓reduceIte,decide_eq_true_eq]
    by_cases skip : lastPartial = true ∧ var.locationFrac = 0
    · obtain ⟨rfl,start⟩ := skip
      simp only [start,and_self,↓reduceIte,true_and,Nat.add_zero]
      constructor
      · intro used
        by_cases before : slot ≤ location
        · omega
        · exact .inr ⟨4 * slot - 4 * (location + 1),by omega,by omega⟩
      · rintro (before | ⟨i,lt,rfl⟩) <;> omega
    · rw [if_neg skip]
      constructor
      · intro used
        by_cases before : slot < location
        · exact .inl (.inl before)
        · exact .inr ⟨4 * slot - (4 * location + var.locationFrac),by omega,by omega⟩
      · rintro ((before | ⟨pending,rfl⟩) | ⟨i,lt,rfl⟩) <;> omega

/-- The used-up slots are exactly the driver slots of the variables done so far. -/
def DenseInv (stage : GlShaderStage) (hist : List (NirVariable × Nat)) (state : IoLocationState) : Prop :=
  ∀ slot, Covered state.location state.lastPartial slot ↔ ∃ e ∈ hist, DriverSlot stage e.1 e.2 slot

theorem denseInv_init (stage : GlShaderStage) (masks : Fin 2 → BitVec 64) (assigned : Int → Nat) :
    DenseInv stage [] ⟨0,false,masks,assigned⟩ := by
  simp [DenseInv,Covered]

theorem DenseInv.push {stage : GlShaderStage} {hist : List (NirVariable × Nat)} {state next : IoLocationState}
    (dense : DenseInv stage hist state) {var : NirVariable} {driver : Nat}
    (covered : ∀ slot, Covered next.location next.lastPartial slot ↔
      Covered state.location state.lastPartial slot ∨ DriverSlot stage var driver slot) :
    DenseInv stage ((var,driver) :: hist) next := fun slot => by
  rw [covered,dense]
  simp only [List.mem_cons,or_and_right,exists_or,exists_eq_left]
  exact or_comm

section Dense

variable {stage : GlShaderStage} {index : Fin 2} {base : Nat}

theorem ChainInv.covered {floor top : Int} {hist : List (NirVariable × Nat)} {state : IoLocationState}
    (inv : ChainInv stage index base floor top hist state) {var : NirVariable}
    (later : floor ≤ var.location) (sameIndex : var.index = index) (sameBase : ioVarBase var stage = base)
    (compactBuiltin : var.compact = true → var.location < base)
    (fits : (base : Int) ≤ var.location → var.location - base + slotCount var stage ≤ 64)
    (nonempty : var.compact = true → 0 < (ioType var stage).length) (slot : Nat) :
    Covered (assignIoVarLocation stage state var).1.location (assignIoVarLocation stage state var).1.lastPartial
        slot ↔
      Covered state.location state.lastPartial slot ∨
        DriverSlot stage var (assignIoVarLocation stage state var).2 slot := by
  subst sameIndex sameBase
  by_cases builtin : var.location < ioVarBase var stage
  · rw [assignIoVarLocation_builtin state builtin]
    have covered := ioVarSlots_covered var stage state.location state.lastPartial nonempty slot
    generalize ioVarSlots var stage state.location state.lastPartial = slots at covered
    exact covered
  · have notCompact : var.compact = false := by
      cases compact : var.compact
      · rfl
      · exact absurd (compactBuiltin compact) builtin
    have generic : (ioVarBase var stage : Int) ≤ var.location := by omega
    obtain ⟨processedIff,-⟩ := markProcessed_slots state.processedLocs var generic (fits generic)
    rw [assignIoVarLocation_generic state notCompact generic]
    simp only [Covered,DriverSlot,notCompact,Bool.false_eq_true,↓reduceIte]
    split
    next processed =>
      obtain ⟨-,setFirst,notPartial⟩ := inv.first_marked later (processedIff.mp processed)
      have below := inv.below _ setFirst
      simp only [notPartial,Bool.false_eq_true,↓reduceIte]
      split
      · rw [unsignedOf_of_lt (by omega) (by omega)]
        simp only [Bool.false_eq_true,false_and,or_false]
        omega
      · simp only [Bool.false_eq_true,false_and,or_false]
        omega
    next =>
      cases state.lastPartial <;> simp only [Bool.false_eq_true,↓reduceIte,false_and,or_false,true_and] <;> omega

theorem DenseInv.run : ∀ (vars : List NirVariable) {floor top : Int} {hist : List (NirVariable × Nat)}
    {state : IoLocationState}, ChainInv stage index base floor top hist state → DenseInv stage hist state →
    LocationSorted vars →
    (∀ var ∈ vars, floor ≤ var.location ∧ var.index = index ∧ ioVarBase var stage = base ∧
      (var.compact = true → var.location < base) ∧
      ((base : Int) ≤ var.location → var.location - base + slotCount var stage ≤ 64)) →
    (∀ var ∈ vars, var.compact = true → 0 < (ioType var stage).length) →
    DenseInv stage ((vars.zip (assignIoVarLocations stage state vars).2).reverse ++ hist)
      (assignIoVarLocations stage state vars).1
  | [], _, _, _, _, _, dense, _, _, _ => dense
  | var :: vars, _, _, hist, state, inv, dense, sorted, fitting, nonempty => by
    rw [LocationSorted,List.pairwise_cons] at sorted
    obtain ⟨later,sameIndex,sameBase,compactBuiltin,fits⟩ := fitting var (List.mem_cons_self var vars)
    obtain ⟨_,next⟩ := inv.step later sameIndex sameBase compactBuiltin fits
    have final := DenseInv.run vars next
      (dense.push (inv.covered later sameIndex sameBase compactBuiltin fits
        (nonempty var (List.mem_cons_self var vars))))
      sorted.2 (fun other mem => ⟨sorted.1 other mem,(fitting other (List.mem_cons_of_mem var mem)).2⟩)
      fun other mem => nonempty other (List.mem_cons_of_mem var mem)
    simpa only [assignIoVarLocations,List.zip_cons_cons,List.reverse_cons,List.append_assoc,
      List.singleton_append] using final

end Dense

/-- With one `data.index`, no compact array at a generic slot, every generic variable within the
64 bits of `processed_locs` and no empty compact array, the slots below `*size` are exactly the
slots the variables of the mode occupy from their driver locations: `*size` counts no slot
that no variable uses, and every slot a variable uses, a compact array's included, is below
it. -/
theorem io_var_driver_slots_fill_size (shader : NirShader) (mode : NirVariableMode)
    (stage : GlShaderStage) (assigned : Int → Nat) (index : Fin 2)
    (oneIndex : ∀ var ∈ shader.vars, var.mode = mode → var.index = index)
    (compactBuiltin : ∀ var ∈ shader.vars, var.mode = mode → var.compact = true →
      var.location < ioVarBase var stage)
    (inBits : ∀ var ∈ shader.vars, var.mode = mode → (ioVarBase var stage : Int) ≤ var.location →
      var.location - ioVarBase var stage + slotCount var stage ≤ 64)
    (nonempty : ∀ var ∈ shader.vars, var.mode = mode → var.compact = true → 0 < (ioType var stage).length) :
    let result := nirAssignIoVarLocations shader mode stage assigned
    ∀ slot, slot < result.size ↔
      ∃ e ∈ (result.vars.filter (·.mode = mode)).zip result.driverLocations, DriverSlot stage e.1 e.2 slot := by
  intro result slot
  rw [filter_nirAssignIoVarLocations_vars]
  obtain ⟨floor,base,fitting⟩ := sortVaryings_fitting shader mode stage index oneIndex compactBuiltin inBits
  have dense := DenseInv.run _ (chainInv_init stage index base floor assigned) (denseInv_init stage _ assigned)
    (sortVaryings_sorted shader.vars mode) fitting fun var mem =>
      nonempty var (mem_sortVaryings mem).1 (mem_sortVaryings mem).2
  let final := (assignIoVarLocations stage ⟨0,false,fun _ => 0,assigned⟩ (sortVaryings shader.vars mode).2).1
  have size : slot < result.size ↔ Covered final.location final.lastPartial slot := by
    show slot < (if final.lastPartial then final.location + 1 else final.location) ↔ _
    cases final.lastPartial <;> simp only [Covered,Bool.false_eq_true,↓reduceIte,false_and,or_false,true_and]
    omega
  rw [size,dense slot,List.append_nil]
  simp only [List.mem_reverse]
  rfl

/-- A vertex shader writing `gl_Position`, `gl_ClipDistance[5]` at `VARYING_SLOT_CLIP_DIST0`
(compact, so slot 2 is left partial), a `vec4[2]` from `VARYING_SLOT_VAR0` and two scalars
packed in the array's second slot. -/
def vsClipOutputs : NirShader :=
  .ofVars .vertex [.plain (.vector .float 1) .shaderOut 33 0,.plain (.vector .float 1) .shaderOut 33 1,
    .plain (.array (.vector .float 4) 2) .shaderOut 32 0,
    { NirVariable.plain (.array (.vector .float 1) 5) .shaderOut 17 0 with compact := true },
    .plain (.vector .float 4) .shaderOut 0 0] []

example : (nirAssignIoVarLocations vsClipOutputs .shaderOut .vertex fun _ => 0).driverLocations = [0,1,3,4,4] ∧
    (nirAssignIoVarLocations vsClipOutputs .shaderOut .vertex fun _ => 0).size = 5 := by
  decide

theorem io_var_driver_slots_fill_size_clip :
    (∀ var ∈ vsClipOutputs.vars, var.mode = .shaderOut → var.index = 0) ∧
    (∀ var ∈ vsClipOutputs.vars, var.mode = .shaderOut → var.compact = true →
      var.location < ioVarBase var .vertex) ∧
    (∀ var ∈ vsClipOutputs.vars, var.mode = .shaderOut → (ioVarBase var .vertex : Int) ≤ var.location →
      var.location - ioVarBase var .vertex + slotCount var .vertex ≤ 64) ∧
    (∀ var ∈ vsClipOutputs.vars, var.mode = .shaderOut → var.compact = true →
      0 < (ioType var .vertex).length) ∧
    let result := nirAssignIoVarLocations vsClipOutputs .shaderOut .vertex fun _ => 0
    ∀ slot, slot < result.size ↔
      ∃ e ∈ (result.vars.filter (·.mode = .shaderOut)).zip result.driverLocations, DriverSlot .vertex e.1 e.2 slot :=
  have oneIndex : ∀ var ∈ vsClipOutputs.vars, var.mode = .shaderOut → var.index = 0 := by decide
  have compactBuiltin : ∀ var ∈ vsClipOutputs.vars, var.mode = .shaderOut → var.compact = true →
      var.location < ioVarBase var .vertex := by decide
  have inBits : ∀ var ∈ vsClipOutputs.vars, var.mode = .shaderOut →
      (ioVarBase var .vertex : Int) ≤ var.location →
      var.location - ioVarBase var .vertex + slotCount var .vertex ≤ 64 := by decide
  have nonempty : ∀ var ∈ vsClipOutputs.vars, var.mode = .shaderOut → var.compact = true →
      0 < (ioType var .vertex).length := by decide
  ⟨oneIndex,compactBuiltin,inBits,nonempty,
    io_var_driver_slots_fill_size vsClipOutputs .shaderOut .vertex _ 0 oneIndex compactBuiltin inBits nonempty⟩

end Mesa.Nir

import Mesa.Nir.Shader

/-! `nir_assign_linked_io_var_locations`. The slots the producer writes and the consumer reads
are gathered in one mask, patch slots in another, and a variable's driver location is four
times the number of used slots below its own. While every variable's slots fit the 64-bit
masks this rank places the variables of one kind densely, in slot order, and the same on
both sides. -/
namespace Mesa.Nir

/-- `VARYING_SLOT_TESS_LEVEL_OUTER`. -/
def varyingSlotTessLevelOuter : Nat := 26

/-- `VARYING_SLOT_BOUNDING_BOX1`. -/
def varyingSlotBoundingBox1 : Nat := 29

/-- `get_linked_variable_location`: patch slots come after four reserved for the tess levels
and bounding boxes; `none` where the code reaches `unreachable`. -/
def getLinkedVariableLocation (location : Nat) (patch : Bool) : Option Nat :=
  if !patch then some location
  else if location ≥ varyingSlotPatch0 then some (location - varyingSlotPatch0 + 4)
  else if location ≥ varyingSlotTessLevelOuter ∧ location ≤ varyingSlotBoundingBox1 then
    some (location - varyingSlotTessLevelOuter)
  else none

/-- `u_bit_consecutive64`. -/
def uBitConsecutive64 (start count : Nat) : BitVec 64 :=
  if count = 64 then BitVec.allOnes 64 else shl64 (shl64 1 count - 1) start

/-- The slot count of `get_linked_variable_io_mask`: of a per-vertex variable's element type,
and for a compact array its components from `location_frac`, four to a slot. -/
def linkedVariableSlots (var : NirVariable) (stage : GlShaderStage) : Nat :=
  let type := if nirIsPerVertexIo var stage then var.type.arrayElement else var.type
  if var.compact then (var.locationFrac + type.length + 3) / 4 else type.countAttributeSlots

/-- `get_linked_variable_io_mask`. -/
def getLinkedVariableIoMask (var : NirVariable) (stage : GlShaderStage) : BitVec 64 :=
  uBitConsecutive64 0 (linkedVariableSlots var stage)

/-- `util_bitcount64`. -/
def utilBitcount64 (x : BitVec 64) : Nat := (List.range 64).countP x.getLsbD

/-- The first loop over one stage's variables: each variable's mask, shifted to its linked
location, goes into the patch or the non-patch mask. -/
def orLinkedMasks (stage : GlShaderStage) :
    BitVec 64 × BitVec 64 → List NirVariable → Option (BitVec 64 × BitVec 64)
  | masks, [] => some masks
  | (mask,patchMask), var :: rest => do
    let loc ← getLinkedVariableLocation (unsignedOf var.location) var.patch
    let bits := shl64 (getLinkedVariableIoMask var stage) loc
    if var.patch then orLinkedMasks stage (mask,patchMask ||| bits) rest
    else orLinkedMasks stage (mask ||| bits,patchMask) rest

/-- The driver location the second loops write: four times the set bits of the variable's
mask below its linked location. -/
def linkedDriverLocation (ioMask patchIoMask : BitVec 64) (var : NirVariable) : Option Nat := do
  let loc ← getLinkedVariableLocation (unsignedOf var.location) var.patch
  return utilBitcount64 ((if var.patch then patchIoMask else ioMask) &&& uBitConsecutive64 0 loc) * 4

/-- `nir_linked_io_var_info`. -/
structure NirLinkedIoVarInfo where
  numLinkedIoVars : Nat
  numLinkedPatchIoVars : Nat
  deriving DecidableEq, Repr

/-- The producer's outputs and the consumer's inputs with their stages, in the order of the
code's loops. -/
def linkedIoVars (producer consumer : NirShader) : List (NirVariable × GlShaderStage) :=
  (producer.vars.filter (·.mode = .shaderOut)).map (·,producer.stage) ++
    (consumer.vars.filter (·.mode = .shaderIn)).map (·,consumer.stage)

/-- `nir_assign_linked_io_var_locations`: the driver locations of `linkedIoVars` in order, and
the result; `none` where the code reaches `unreachable`. -/
def nirAssignLinkedIoVarLocations (producer consumer : NirShader) :
    Option (List Nat × NirLinkedIoVarInfo) := do
  let (producerOutputMask,producerPatchOutputMask) ←
    orLinkedMasks producer.stage (0,0) (producer.vars.filter (·.mode = .shaderOut))
  let (consumerInputMask,consumerPatchInputMask) ←
    orLinkedMasks consumer.stage (0,0) (consumer.vars.filter (·.mode = .shaderIn))
  let ioMask := producerOutputMask ||| consumerInputMask
  let patchIoMask := producerPatchOutputMask ||| consumerPatchInputMask
  let driverLocations ← (linkedIoVars producer consumer).mapM fun entry =>
    linkedDriverLocation ioMask patchIoMask entry.1
  return (driverLocations,⟨utilBitcount64 ioMask,utilBitcount64 patchIoMask⟩)

/-- A variable with a linked location whose slots fit the 64-bit masks. -/
def linkedFits (var : NirVariable) (stage : GlShaderStage) : Bool :=
  match getLinkedVariableLocation (unsignedOf var.location) var.patch with
  | some loc => loc + linkedVariableSlots var stage ≤ 64
  | none => false

theorem linkedFits_iff {var : NirVariable} {stage : GlShaderStage} :
    linkedFits var stage = true ↔ ∃ loc, getLinkedVariableLocation (unsignedOf var.location) var.patch =
      some loc ∧ loc + linkedVariableSlots var stage ≤ 64 := by
  unfold linkedFits
  split <;> simp_all

section Rank

/-- The set bits of a mask below a slot. -/
def linkedRank (mask : BitVec 64) (loc : Nat) : Nat := (List.range loc).countP mask.getLsbD

variable {mask : BitVec 64}

theorem uBitConsecutive64_getLsbD {count : Nat} (bound : count ≤ 64) (i : Nat) :
    (uBitConsecutive64 0 count).getLsbD i = decide (i < count ∧ i < 64) := by
  have zero : uBitConsecutive64 0 count = bitfield64Mask count := by
    simp [uBitConsecutive64,bitfield64Mask,bitfield64Bit,shl64]
  rw [zero,bitfield64Mask_getLsbD bound]

theorem shl64_uBitConsecutive64_getLsbD {loc count : Nat} (bound : loc + count ≤ 64) (i : Nat) :
    (shl64 (uBitConsecutive64 0 count) loc).getLsbD i = decide (loc ≤ i ∧ i < loc + count) := by
  rw [shl64_getLsbD,uBitConsecutive64_getLsbD (by omega),Bool.eq_iff_iff]
  by_cases full : loc = 64
  · subst full; simp; omega
  · rw [Nat.mod_eq_of_lt (by omega)]
    simp only [Bool.and_eq_true,decide_eq_true_eq,Bool.not_eq_true',decide_eq_false_iff_not]
    omega

theorem bitcount_below {loc : Nat} (bound : loc ≤ 64) :
    utilBitcount64 (mask &&& uBitConsecutive64 0 loc) = linkedRank mask loc := by
  have split : List.range 64 = List.range loc ++ (List.range (64 - loc)).map (loc + ·) := by
    rw [← List.range_add]; congr 1; omega
  rw [utilBitcount64,split,List.countP_append,List.countP_map,linkedRank]
  have above : (List.range (64 - loc)).countP
      ((fun i => (mask &&& uBitConsecutive64 0 loc).getLsbD i) ∘ (loc + ·)) = 0 :=
    List.countP_eq_zero.mpr fun j _ => by
      simp [BitVec.getLsbD_and,uBitConsecutive64_getLsbD bound]
  rw [above,Nat.add_zero]
  exact List.countP_congr fun i mem => by
    simp [BitVec.getLsbD_and,uBitConsecutive64_getLsbD bound,List.mem_range.mp mem,
      show i < 64 by have := List.mem_range.mp mem; omega]

theorem linkedRank_add {loc count : Nat}
    (set : ∀ i, loc ≤ i → i < loc + count → mask.getLsbD i = true) :
    linkedRank mask (loc + count) = linkedRank mask loc + count := by
  have own : (List.range count).countP (mask.getLsbD ∘ (loc + ·)) = count := by
    have all : ∀ j ∈ List.range count, (mask.getLsbD ∘ (loc + ·)) j = true := fun j mem =>
      set (loc + j) (Nat.le_add_right _ _) (by have := List.mem_range.mp mem; omega)
    rw [List.countP_eq_length.mpr all,List.length_range]
  rw [linkedRank,List.range_add,List.countP_append,List.countP_map,own,linkedRank]

theorem linkedRank_mono {a b : Nat} (le : a ≤ b) : linkedRank mask a ≤ linkedRank mask b := by
  obtain ⟨k,rfl⟩ := Nat.exists_eq_add_of_le le
  rw [linkedRank,linkedRank,List.range_add,List.countP_append]
  omega

/-- A driver location placed by rank: four times the rank of the linked location, with the
variable's own slots set in the mask and inside its 64 bits. -/
structure RankedAt (mask : BitVec 64) (loc slots driver : Nat) : Prop where
  fits : loc + slots ≤ 64
  driver_eq : driver = 4 * linkedRank mask loc
  set : ∀ i, loc ≤ i → i < loc + slots → mask.getLsbD i = true

variable {loc slots driver loc' slots' driver' : Nat}

theorem RankedAt.le_of_le (at₁ : RankedAt mask loc slots driver)
    (at₂ : RankedAt mask loc' slots' driver') (le : loc ≤ loc') : driver ≤ driver' := by
  rw [at₁.driver_eq,at₂.driver_eq]
  exact Nat.mul_le_mul_left 4 (linkedRank_mono le)

theorem RankedAt.add_le (at₁ : RankedAt mask loc slots driver)
    (at₂ : RankedAt mask loc' slots' driver') (before : loc + slots ≤ loc') :
    driver + 4 * slots ≤ driver' := by
  have below := @linkedRank_mono mask _ _ before
  rw [linkedRank_add at₁.set] at below
  rw [at₁.driver_eq,at₂.driver_eq]
  omega

theorem RankedAt.lt_of_lt (at₁ : RankedAt mask loc slots driver)
    (at₂ : RankedAt mask loc' slots' driver') (lt : loc < loc') (used : 0 < slots) :
    driver < driver' := by
  have first : RankedAt mask loc 1 driver :=
    ⟨by have := at₁.fits; omega,at₁.driver_eq,fun i low high => at₁.set i low (by omega)⟩
  have := first.add_le at₂ lt
  omega

theorem RankedAt.add_le_bitcount (at₁ : RankedAt mask loc slots driver) :
    driver + 4 * slots ≤ 4 * utilBitcount64 mask := by
  have below := @linkedRank_mono mask _ _ at₁.fits
  rw [linkedRank_add at₁.set] at below
  have total : utilBitcount64 mask = linkedRank mask 64 := rfl
  rw [at₁.driver_eq,total]
  omega

theorem RankedAt.disjoint (at₁ : RankedAt mask loc slots driver)
    (at₂ : RankedAt mask loc' slots' driver')
    (apart : ∀ s, ¬(loc ≤ s ∧ s < loc + slots ∧ loc' ≤ s ∧ s < loc' + slots')) :
    ∀ d, ¬(driver ≤ d ∧ d < driver + 4 * slots ∧ driver' ≤ d ∧ d < driver' + 4 * slots') := by
  rcases Nat.eq_zero_or_pos slots with none | used
  · intro d; omega
  rcases Nat.eq_zero_or_pos slots' with none' | used'
  · intro d; omega
  rcases Nat.le_total loc loc' with le | le
  · have := at₁.add_le at₂ (by have := apart loc'; omega)
    intro d; omega
  · have := at₂.add_le at₁ (by have := apart loc; omega)
    intro d; omega

end Rank

/-- The mask loop gives a result when every variable fits, keeps the bits it started with,
and sets every linked slot of every variable in the mask of its kind. -/
theorem orLinkedMasks_spec (stage : GlShaderStage) :
    ∀ (vars : List NirVariable) (mask patchMask : BitVec 64),
      (∀ var ∈ vars, linkedFits var stage = true) →
      ∃ mask' patchMask', orLinkedMasks stage (mask,patchMask) vars = some (mask',patchMask') ∧
        (∀ i, mask.getLsbD i = true → mask'.getLsbD i = true) ∧
        (∀ i, patchMask.getLsbD i = true → patchMask'.getLsbD i = true) ∧
        ∀ var ∈ vars, ∀ loc, getLinkedVariableLocation (unsignedOf var.location) var.patch = some loc →
          ∀ i, loc ≤ i → i < loc + linkedVariableSlots var stage →
            (if var.patch then patchMask' else mask').getLsbD i = true
  | [], mask, patchMask, _ => ⟨mask,patchMask,rfl,fun _ => id,fun _ => id,by simp⟩
  | var :: rest, mask, patchMask, fits => by
    obtain ⟨loc,located,fit⟩ := linkedFits_iff.mp (fits var (List.mem_cons_self var rest))
    let bits := shl64 (getLinkedVariableIoMask var stage) loc
    have step : orLinkedMasks stage (mask,patchMask) (var :: rest) = orLinkedMasks stage
        (if var.patch then mask else mask ||| bits,if var.patch then patchMask ||| bits else patchMask)
        rest := by
      simp only [orLinkedMasks,located,Option.bind_eq_bind,Option.some_bind]
      cases var.patch <;> rfl
    obtain ⟨mask',patchMask',run,keeps,keepsPatch,sets⟩ := orLinkedMasks_spec stage rest _ _
      fun v mem => fits v (List.mem_cons_of_mem var mem)
    refine ⟨mask',patchMask',step.trans run,fun i set => keeps i ?_,fun i set => keepsPatch i ?_,?_⟩
    · split <;> simp [set]
    · split <;> simp [set]
    intro v mem loc' located' i low high
    rcases List.mem_cons.mp mem with rfl | mem
    · obtain rfl : loc' = loc := Option.some.inj (located'.symm.trans located)
      have bit : bits.getLsbD i = true := by
        simp [bits,getLinkedVariableIoMask,shl64_uBitConsecutive64_getLsbD fit,low,high]
      cases patch : v.patch <;> simp only [patch,Bool.false_eq_true,↓reduceIte] at keeps keepsPatch ⊢
      · exact keeps i (by simp [bit])
      · exact keepsPatch i (by simp [bit])
    · exact sets v mem loc' located' i low high

theorem mapM_some_zip {α β : Type} (f : α → Option β) :
    ∀ l : List α, (∀ a ∈ l, (f a).isSome) →
      ∃ results, l.mapM f = some results ∧ results.length = l.length ∧
        ∀ p ∈ l.zip results, f p.1 = some p.2
  | [], _ => ⟨[],rfl,rfl,by simp⟩
  | a :: l, all => by
    obtain ⟨b,first⟩ := Option.isSome_iff_exists.mp (all a (List.mem_cons_self a l))
    obtain ⟨results,run,length,zipped⟩ := mapM_some_zip f l fun x mem => all x (List.mem_cons_of_mem a mem)
    refine ⟨b :: results,by rw [List.mapM_cons,first,run]; rfl,by simp [length],fun p mem => ?_⟩
    rcases List.mem_cons.mp mem with rfl | mem
    · exact first
    · exact zipped p mem

theorem linked_driver_locations_ranked (producer consumer : NirShader)
    (fits : ∀ entry ∈ linkedIoVars producer consumer, linkedFits entry.1 entry.2 = true) :
    ∃ driverLocations ioMask patchIoMask,
      nirAssignLinkedIoVarLocations producer consumer =
        some (driverLocations,⟨utilBitcount64 ioMask,utilBitcount64 patchIoMask⟩) ∧
      driverLocations.length = (linkedIoVars producer consumer).length ∧
      ∀ var stage driver, ((var,stage),driver) ∈ (linkedIoVars producer consumer).zip driverLocations →
        ∃ loc, getLinkedVariableLocation (unsignedOf var.location) var.patch = some loc ∧
          RankedAt (if var.patch then patchIoMask else ioMask) loc (linkedVariableSlots var stage) driver := by
  have outputs : ∀ var ∈ producer.vars.filter (·.mode = .shaderOut), linkedFits var producer.stage :=
    fun var mem => fits (var,producer.stage) (List.mem_append_left _ (List.mem_map_of_mem _ mem))
  have inputs : ∀ var ∈ consumer.vars.filter (·.mode = .shaderIn), linkedFits var consumer.stage :=
    fun var mem => fits (var,consumer.stage) (List.mem_append_right _ (List.mem_map_of_mem _ mem))
  obtain ⟨outMask,outPatchMask,outRun,-,-,outSets⟩ := orLinkedMasks_spec _ _ 0 0 outputs
  obtain ⟨inMask,inPatchMask,inRun,-,-,inSets⟩ := orLinkedMasks_spec _ _ 0 0 inputs
  let ioMask := outMask ||| inMask
  let patchIoMask := outPatchMask ||| inPatchMask
  have sets : ∀ entry ∈ linkedIoVars producer consumer, ∀ loc,
      getLinkedVariableLocation (unsignedOf entry.1.location) entry.1.patch = some loc →
      ∀ i, loc ≤ i → i < loc + linkedVariableSlots entry.1 entry.2 →
        (if entry.1.patch then patchIoMask else ioMask).getLsbD i = true := by
    have union : ∀ (patch : Bool) i, (if patch then outPatchMask else outMask).getLsbD i = true ∨
        (if patch then inPatchMask else inMask).getLsbD i = true →
        (if patch then patchIoMask else ioMask).getLsbD i = true := by
      intro patch i set
      cases patch <;> simpa [ioMask,patchIoMask,BitVec.getLsbD_or] using set
    intro entry mem loc located i low high
    simp only [linkedIoVars,List.mem_append,List.mem_map] at mem
    rcases mem with ⟨var,mem,rfl⟩ | ⟨var,mem,rfl⟩
    · exact union _ i (.inl (outSets var mem loc located i low high))
    · exact union _ i (.inr (inSets var mem loc located i low high))
  have driver : ∀ entry ∈ linkedIoVars producer consumer, ∃ loc,
      getLinkedVariableLocation (unsignedOf entry.1.location) entry.1.patch = some loc ∧
      loc + linkedVariableSlots entry.1 entry.2 ≤ 64 ∧
      linkedDriverLocation ioMask patchIoMask entry.1 =
        some (4 * linkedRank (if entry.1.patch then patchIoMask else ioMask) loc) := by
    intro entry mem
    obtain ⟨loc,located,fit⟩ := linkedFits_iff.mp (fits entry mem)
    refine ⟨loc,located,fit,?_⟩
    simp [linkedDriverLocation,located]
    rw [bitcount_below (by omega),Nat.mul_comm]
  obtain ⟨driverLocations,run,length,zipped⟩ := mapM_some_zip
    (fun entry : NirVariable × GlShaderStage => linkedDriverLocation ioMask patchIoMask entry.1) _
    fun entry mem => by
      obtain ⟨loc,-,-,located⟩ := driver entry mem
      simp [located]
  refine ⟨driverLocations,ioMask,patchIoMask,?_,length,fun var stage d mem => ?_⟩
  · simp only [ioMask,patchIoMask] at run
    simp only [nirAssignLinkedIoVarLocations,outRun,inRun,Option.bind_eq_bind,Option.some_bind,run]
    rfl
  · have inList := (List.of_mem_zip mem).1
    obtain ⟨loc,located,fit,value⟩ := driver _ inList
    refine ⟨loc,located,fit,?_,sets _ inList loc located⟩
    exact Option.some.inj ((zipped _ mem).symm.trans value)

/-- When every producer output and consumer input has a linked location whose slots fit the
64-bit masks, `nir_assign_linked_io_var_locations` gives each a driver location. Variables of
one kind at one location get the same one, whichever side they are on; variables of one kind
keep the order of their linked locations and get disjoint driver ranges for disjoint slot
ranges; and every range ends within four times the count of linked slots of its kind. -/
theorem linked_io_locations_dense (producer consumer : NirShader)
    (fits : ∀ entry ∈ linkedIoVars producer consumer, linkedFits entry.1 entry.2 = true) :
    ∃ driverLocations info,
      nirAssignLinkedIoVarLocations producer consumer = some (driverLocations,info) ∧
      driverLocations.length = (linkedIoVars producer consumer).length ∧
      ∀ var stage driver, ((var,stage),driver) ∈ (linkedIoVars producer consumer).zip driverLocations →
        driver + 4 * linkedVariableSlots var stage ≤
          4 * (if var.patch then info.numLinkedPatchIoVars else info.numLinkedIoVars) ∧
        ∀ var' stage' driver',
          ((var',stage'),driver') ∈ (linkedIoVars producer consumer).zip driverLocations →
          var.patch = var'.patch →
          (var.location = var'.location → driver = driver') ∧
          ∀ loc loc', getLinkedVariableLocation (unsignedOf var.location) var.patch = some loc →
            getLinkedVariableLocation (unsignedOf var'.location) var'.patch = some loc' →
            (loc ≤ loc' → driver ≤ driver') ∧
            (loc < loc' → 0 < linkedVariableSlots var stage → driver < driver') ∧
            ((∀ s, ¬(loc ≤ s ∧ s < loc + linkedVariableSlots var stage ∧
                loc' ≤ s ∧ s < loc' + linkedVariableSlots var' stage')) →
              ∀ d, ¬(driver ≤ d ∧ d < driver + 4 * linkedVariableSlots var stage ∧
                driver' ≤ d ∧ d < driver' + 4 * linkedVariableSlots var' stage')) := by
  obtain ⟨driverLocations,ioMask,patchIoMask,run,length,ranked⟩ :=
    linked_driver_locations_ranked producer consumer fits
  refine ⟨driverLocations,_,run,length,fun var stage driver mem => ?_⟩
  obtain ⟨loc,located,at₁⟩ := ranked var stage driver mem
  refine ⟨?_,fun var' stage' driver' mem' same => ?_⟩
  · have := at₁.add_le_bitcount
    by_cases patch : var.patch = true <;> simp only [patch,↓reduceIte] at this ⊢ <;> exact this
  obtain ⟨loc',located',at₂⟩ := ranked var' stage' driver' mem'
  rw [← same] at at₂ located'
  refine ⟨fun sameLocation => ?_,fun l l' hl hl' => ?_⟩
  · rw [sameLocation,located'] at located
    rw [at₁.driver_eq,at₂.driver_eq,Option.some.inj located]
  · rw [← same] at hl'
    obtain rfl := Option.some.inj (hl.symm.trans located)
    obtain rfl := Option.some.inj (hl'.symm.trans located')
    exact ⟨at₁.le_of_le at₂,at₁.lt_of_lt at₂,at₁.disjoint at₂⟩

/-- A tessellation control shader writing a per-vertex `vec4` at `VARYING_SLOT_VAR0 + 1`, a
patch `vec4` at `VARYING_SLOT_PATCH0` and the outer tess levels as a compact `float[4]`. -/
def tcsLinkedOutputs : NirShader :=
  .ofVars .tessCtrl [.plain (.array (.vector .float 4) 3) .shaderOut 33 0,
    { NirVariable.plain (.vector .float 4) .shaderOut 64 0 with patch := true },
    { NirVariable.plain (.array (.vector .float 1) 4) .shaderOut 26 0 with patch := true,compact := true }] []

/-- An evaluation shader reading the per-vertex and patch `vec4`s and a per-vertex `vec2` at
`VARYING_SLOT_VAR0 + 8`. -/
def tesLinkedInputs : NirShader :=
  .ofVars .tessEval [.plain (.array (.vector .float 4) 32) .shaderIn 33 0,
    { NirVariable.plain (.vector .float 4) .shaderIn 64 0 with patch := true },
    .plain (.array (.vector .float 2) 32) .shaderIn 40 0] []

theorem linked_io_locations_dense_tess :
    (∀ entry ∈ linkedIoVars tcsLinkedOutputs tesLinkedInputs, linkedFits entry.1 entry.2 = true) ∧
    ∃ driverLocations info,
      nirAssignLinkedIoVarLocations tcsLinkedOutputs tesLinkedInputs = some (driverLocations,info) ∧
      driverLocations.length = (linkedIoVars tcsLinkedOutputs tesLinkedInputs).length ∧
      ∀ var stage driver,
        ((var,stage),driver) ∈ (linkedIoVars tcsLinkedOutputs tesLinkedInputs).zip driverLocations →
        driver + 4 * linkedVariableSlots var stage ≤
          4 * (if var.patch then info.numLinkedPatchIoVars else info.numLinkedIoVars) ∧
        ∀ var' stage' driver',
          ((var',stage'),driver') ∈ (linkedIoVars tcsLinkedOutputs tesLinkedInputs).zip driverLocations →
          var.patch = var'.patch →
          (var.location = var'.location → driver = driver') ∧
          ∀ loc loc', getLinkedVariableLocation (unsignedOf var.location) var.patch = some loc →
            getLinkedVariableLocation (unsignedOf var'.location) var'.patch = some loc' →
            (loc ≤ loc' → driver ≤ driver') ∧
            (loc < loc' → 0 < linkedVariableSlots var stage → driver < driver') ∧
            ((∀ s, ¬(loc ≤ s ∧ s < loc + linkedVariableSlots var stage ∧
                loc' ≤ s ∧ s < loc' + linkedVariableSlots var' stage')) →
              ∀ d, ¬(driver ≤ d ∧ d < driver + 4 * linkedVariableSlots var stage ∧
                driver' ≤ d ∧ d < driver' + 4 * linkedVariableSlots var' stage')) :=
  have fits : ∀ entry ∈ linkedIoVars tcsLinkedOutputs tesLinkedInputs,
      linkedFits entry.1 entry.2 = true := by decide
  ⟨fits,linked_io_locations_dense tcsLinkedOutputs tesLinkedInputs fits⟩

example : nirAssignLinkedIoVarLocations tcsLinkedOutputs tesLinkedInputs = some ([0,4,0,0,4,4],⟨2,2⟩) := by
  decide

end Mesa.Nir

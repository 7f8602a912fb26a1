import Mesa.Nir.IoLocations

/-! The loop of `nir_assign_io_var_locations` over whole runs. When the variables of the mode
share one `data.index` and no compact array starts at a generic slot, the loop keeps the
invariant `ChainInv` over the sorted list: a variable meeting a slot marked before takes the
driver location recorded for it and allocates only the slots past the run. So two variables
sharing a slot agree on its driver location, two sharing none share no driver location, and
every driver location is below `*size`. -/
namespace Mesa.Nir

theorem and_bitfield64Bit_ne_zero {x : BitVec 64} {b : Nat} (small : b < 64) :
    x &&& bitfield64Bit b ≠ 0 ↔ x.getLsbD b = true := by
  constructor
  · intro nonzero
    by_contra unset
    refine nonzero (BitVec.eq_of_getLsbD_eq fun i => ?_)
    by_cases same : i.val = b
    · simp [same,unset]
    · simp [bitfield64Bit_getLsbD small,same]
  · intro set zero
    have := congrArg (BitVec.getLsbD · b) zero
    simp [bitfield64Bit_getLsbD small,set] at this

theorem update_or_bitfield64Bit_getLsbD (masks : Fin 2 → BitVec 64) (index j : Fin 2) {b : Nat}
    (small : b < 64) (k : Nat) :
    (Function.update masks index (masks index ||| bitfield64Bit b) j).getLsbD k = true ↔
      (masks j).getLsbD k = true ∨ j = index ∧ k = b := by
  by_cases same : j = index
  · subst same; simp [BitVec.getLsbD_or,bitfield64Bit_getLsbD small]
  · simp [Function.update_noteq same,same]

theorem markProcessed_spec (index : Fin 2) (glslLocation : Nat) :
    ∀ (offsets : List Nat) (masks : Fin 2 → BitVec 64) (processed : Bool), offsets.Nodup →
      (∀ i ∈ offsets, glslLocation + i < 64) →
      ((markProcessed index glslLocation masks processed offsets).1 = true ↔
          processed = true ∨ ∃ i ∈ offsets, (masks index).getLsbD (glslLocation + i) = true) ∧
        ∀ j k, ((markProcessed index glslLocation masks processed offsets).2 j).getLsbD k = true ↔
          (masks j).getLsbD k = true ∨ j = index ∧ ∃ i ∈ offsets, k = glslLocation + i
  | [], masks, processed, _, _ => by simp [markProcessed]
  | i :: rest, masks, processed, distinct, fits => by
    rw [List.nodup_cons] at distinct
    have small : glslLocation + i < 64 := fits i (List.mem_cons_self i rest)
    have restFits : ∀ i ∈ rest, glslLocation + i < 64 := fun i mem => fits i (List.mem_cons_of_mem _ mem)
    unfold markProcessed
    simp only [List.mem_cons,or_and_right,exists_or,exists_eq_left]
    split
    case isTrue marked =>
      rw [and_bitfield64Bit_ne_zero small] at marked
      obtain ⟨first,bits⟩ := markProcessed_spec index glslLocation rest masks true distinct.2 restFits
      refine ⟨by simp [first,marked],fun j k => (bits j k).trans ⟨?_,?_⟩⟩
      · rintro (set | ⟨rfl,later⟩)
        exacts [.inl set,.inr ⟨rfl,.inr later⟩]
      · rintro (set | ⟨rfl,rfl | later⟩)
        exacts [.inl set,.inl marked,.inr ⟨rfl,later⟩]
    case isFalse unmarked =>
      have unset : (masks index).getLsbD (glslLocation + i) ≠ true := fun set =>
        (and_bitfield64Bit_ne_zero small).mpr set (not_not.mp unmarked)
      obtain ⟨first,bits⟩ := markProcessed_spec index glslLocation rest _ processed distinct.2 restFits
      refine ⟨first.trans ?_,fun j k => (bits j k).trans ?_⟩
      · simp only [unset,Bool.false_eq_true,false_or]
        refine or_congr_right (exists_congr fun x => and_congr_right fun mem => ?_)
        rw [update_or_bitfield64Bit_getLsbD _ _ _ small]
        exact or_iff_left fun ⟨_,same⟩ => distinct.1 (Nat.add_left_cancel same ▸ mem)
      · rw [update_or_bitfield64Bit_getLsbD _ _ _ small]
        simp only [and_or_left,or_assoc]

/-- Slot `slot` is marked in `processed_locs[index]`: a generic slot whose bit is set. -/
def slotMarked (masks : Fin 2 → BitVec 64) (index : Fin 2) (base : Nat) (slot : Int) : Prop :=
  (base : Int) ≤ slot ∧ (masks index).getLsbD (slot - base).toNat = true

theorem markProcessed_slots (masks : Fin 2 → BitVec 64) (var : NirVariable) {base n : Nat}
    (generic : (base : Int) ≤ var.location) (fits : var.location - base + n ≤ 64) :
    ((markProcessed var.index (var.location - base).toNat masks false (List.range n)).1 = true ↔
        ∃ i < n, slotMarked masks var.index base (var.location + i)) ∧
      ∀ slot, slotMarked (markProcessed var.index (var.location - base).toNat masks false
          (List.range n)).2 var.index base slot ↔
        slotMarked masks var.index base slot ∨ var.location ≤ slot ∧ slot < var.location + n := by
  obtain ⟨first,bits⟩ := markProcessed_spec var.index (var.location - base).toNat (List.range n) masks
    false (List.nodup_range n) fun i mem => by rw [List.mem_range] at mem; omega
  refine ⟨first.trans ?_,fun slot => ?_⟩
  · simp only [Bool.false_eq_true,false_or,List.mem_range,slotMarked]
    refine exists_congr fun i => and_congr_right fun _ => ?_
    rw [show (var.location + i - base).toNat = (var.location - base).toNat + i by omega]
    exact ⟨fun set => ⟨by omega,set⟩,And.right⟩
  · simp only [slotMarked,bits,List.mem_range,true_and]
    constructor
    · rintro ⟨above,set | ⟨i,lt,offset⟩⟩
      exacts [.inl ⟨above,set⟩,.inr ⟨by omega,by omega⟩]
    · rintro (⟨above,set⟩ | ⟨low,high⟩)
      exacts [⟨above,.inl set⟩,⟨by omega,.inr ⟨(slot - var.location).toNat,by omega,by omega⟩⟩]

theorem assignIoVarLocation_builtin {stage : GlShaderStage} (state : IoLocationState) {var : NirVariable}
    (builtin : var.location < ioVarBase var stage) :
    assignIoVarLocation stage state var =
      let (location,varSize,lastPartial) := ioVarSlots var stage state.location state.lastPartial
      (⟨location + varSize,lastPartial,state.processedLocs,
        assignSlots state.assignedLocations var.location 0 varSize location⟩,location) := by
  simp only [assignIoVarLocation,ge_iff_le,Int.not_le.mpr builtin,↓reduceIte,Bool.false_eq_true]

theorem assignIoVarLocation_generic {stage : GlShaderStage} (state : IoLocationState) {var : NirVariable}
    (notCompact : var.compact = false) (generic : (ioVarBase var stage : Int) ≤ var.location) :
    assignIoVarLocation stage state var =
      let location := if state.lastPartial then state.location + 1 else state.location
      let marks := markProcessed var.index (var.location - ioVarBase var stage).toNat
        state.processedLocs false (List.range (slotCount var stage))
      let driverLocation := state.assignedLocations var.location
      if marks.1 then
        if driverLocation + slotCount var stage > location then
          let first :=
            unsignedOf (slotCount var stage - ((driverLocation + slotCount var stage : Nat) - location) : Int)
          (⟨location + (slotCount var stage - first),false,marks.2,
            assignSlots state.assignedLocations var.location first (slotCount var stage) location⟩,driverLocation)
        else (⟨location,false,marks.2,state.assignedLocations⟩,driverLocation)
      else (⟨location + slotCount var stage,false,marks.2,
        assignSlots state.assignedLocations var.location 0 (slotCount var stage) location⟩,location) := by
  simp only [assignIoVarLocation,ioVarSlots,notCompact,Bool.false_eq_true,↓reduceIte,ge_iff_le,generic,
    slotCount]

theorem ioVarSlots_location_le (var : NirVariable) (stage : GlShaderStage) (location : Nat)
    (lastPartial : Bool) : location ≤ (ioVarSlots var stage location lastPartial).1 := by
  unfold ioVarSlots
  split_ifs <;> simp

theorem ioVarSlots_of_not_compact {var : NirVariable} (notCompact : var.compact = false)
    (stage : GlShaderStage) (location : Nat) (lastPartial : Bool) :
    ioVarSlots var stage location lastPartial =
      (if lastPartial then location + 1 else location,slotCount var stage,false) := by
  simp [ioVarSlots,notCompact,slotCount]

section Chain

variable (stage : GlShaderStage) (index : Fin 2) (base : Nat)

/-- The invariant of the loop of `nir_assign_io_var_locations` over variables of one
`data.index` sorted by location, with `hist` the variables done so far, last first, and their
driver locations. The marked slots from `floor`, the last variable's location, on are those up
to `top`, allocated in one run that ends at `location`. -/
structure ChainInv (floor top : Int) (hist : List (NirVariable × Nat)) (state : IoLocationState) :
    Prop where
  marked_iff : ∀ slot, floor ≤ slot → (slotMarked state.processedLocs index base slot ↔ slot ≤ top)
  linear : ∀ slot, floor ≤ slot → slot ≤ top →
    (state.assignedLocations slot : Int) + (top - slot) + 1 = state.location
  marked_floor : ∀ slot, slotMarked state.processedLocs index base slot → (base : Int) ≤ floor
  partial_floor : state.lastPartial = true → floor < base
  slots : ∀ e ∈ hist, e.1.compact = false → (base : Int) ≤ e.1.location → ∀ i < slotCount e.1 stage,
    slotMarked state.processedLocs index base (e.1.location + i) ∧
      state.assignedLocations (e.1.location + i) = e.2 + i
  inj : ∀ slot slot', slotMarked state.processedLocs index base slot →
    slotMarked state.processedLocs index base slot' →
    state.assignedLocations slot = state.assignedLocations slot' → slot = slot'
  below : ∀ slot, slotMarked state.processedLocs index base slot →
    state.assignedLocations slot < state.location
  bound : ∀ e ∈ hist, e.1.compact = false → e.2 + slotCount e.1 stage ≤ state.location
  builtin_below : ∀ e ∈ hist, e.1.compact = false → e.1.location < base → ∀ slot,
    slotMarked state.processedLocs index base slot → e.2 + slotCount e.1 stage ≤ state.assignedLocations slot
  builtin_apart : hist.Pairwise fun e e' => e.1.compact = false → e'.1.compact = false →
    (e.1.location < (base : Int) ∨ e'.1.location < (base : Int)) →
      ∀ i < slotCount e.1 stage, ∀ j < slotCount e'.1 stage, e.2 + i ≠ e'.2 + j

theorem chainInv_init (floor : Int) (assigned : Int → Nat) :
    ChainInv stage index base floor (floor - 1) [] ⟨0,false,fun _ => 0,assigned⟩ where
  marked_iff slot above := by simp [slotMarked]; omega
  linear _ _ _ := by omega
  marked_floor _ marked := by simp [slotMarked] at marked
  partial_floor := by simp
  slots := by simp
  inj _ _ marked := by simp [slotMarked] at marked
  below _ marked := by simp [slotMarked] at marked
  bound := by simp
  builtin_below := by simp
  builtin_apart := .nil

variable {stage index base}

theorem ChainInv.builtin_step {floor top : Int} {hist : List (NirVariable × Nat)} {state : IoLocationState}
    (inv : ChainInv stage index base floor top hist state) {var : NirVariable}
    (later : floor ≤ var.location) (builtin : var.location < base) (sameBase : ioVarBase var stage = base) :
    ChainInv stage index base var.location (var.location - 1)
      ((var,(assignIoVarLocation stage state var).2) :: hist) (assignIoVarLocation stage state var).1 := by
  subst sameBase
  have unmarked : ∀ slot, ¬slotMarked state.processedLocs index (ioVarBase var stage) slot :=
    fun slot set => by have := inv.marked_floor slot set; omega
  have sized : var.compact = false → (ioVarSlots var stage state.location state.lastPartial).2.1 =
      slotCount var stage := fun notCompact => by rw [ioVarSlots_of_not_compact notCompact]
  have grows := ioVarSlots_location_le var stage state.location state.lastPartial
  rw [assignIoVarLocation_builtin state builtin]
  generalize ioVarSlots var stage state.location state.lastPartial = slots at sized grows
  obtain ⟨location,varSize,lastPartial⟩ := slots
  dsimp only at sized grows
  constructor <;> dsimp only
  case marked_iff => intro slot above; simp only [unmarked,false_iff]; omega
  case linear => intros; omega
  case marked_floor => exact fun slot set => absurd set (unmarked slot)
  case partial_floor => exact fun _ => builtin
  case slots =>
    rintro e (_ | ⟨_,mem⟩) notCompact generic i lt
    · dsimp only at generic; omega
    · exact absurd (inv.slots e mem notCompact generic i lt).1 (unmarked _)
  case inj => exact fun slot _ set => absurd set (unmarked slot)
  case below => exact fun slot set => absurd set (unmarked slot)
  case bound =>
    rintro e (_ | ⟨_,mem⟩) notCompact
    · simp [sized notCompact]
    · have := inv.bound e mem notCompact; omega
  case builtin_below => exact fun _ _ _ _ slot set => absurd set (unmarked slot)
  case builtin_apart =>
    refine List.Pairwise.cons (fun e mem _ notCompact _ i _ j lt => ?_) inv.builtin_apart
    have := inv.bound e mem notCompact; dsimp only; omega

theorem ChainInv.extend {floor top top' : Int} {hist : List (NirVariable × Nat)}
    {state state' : IoLocationState} (inv : ChainInv stage index base floor top hist state)
    {var : NirVariable} {driver : Nat} (later : floor ≤ var.location)
    (generic : (base : Int) ≤ var.location)
    (marks : ∀ slot, slotMarked state'.processedLocs index base slot ↔
      slotMarked state.processedLocs index base slot ∨
        var.location ≤ slot ∧ slot < var.location + slotCount var stage)
    (topEq : top' = max top (var.location + slotCount var stage - 1))
    (frame : ∀ slot, slotMarked state.processedLocs index base slot →
      state'.assignedLocations slot = state.assignedLocations slot)
    (driven : ∀ i < slotCount var stage, state'.assignedLocations (var.location + i) = driver + i)
    (fresh : ∀ i < slotCount var stage, ¬slotMarked state.processedLocs index base (var.location + i) →
      state.location ≤ driver + i)
    (grows : state.location ≤ state'.location) (ends : driver + slotCount var stage ≤ state'.location)
    (notPartial : state'.lastPartial = false)
    (shape : top' = var.location + slotCount var stage - 1 ∧ state'.location = driver + slotCount var stage ∨
      top' = top ∧ state'.location = state.location) :
    ChainInv stage index base var.location top' ((var,driver) :: hist) state' := by
  have drivenSlot : ∀ slot, var.location ≤ slot → slot < var.location + slotCount var stage →
      state'.assignedLocations slot = driver + (slot - var.location).toNat := fun slot low high => by
    have := driven (slot - var.location).toNat (by omega)
    rwa [show var.location + ((slot - var.location).toNat : Nat) = slot by omega] at this
  have classify : ∀ slot, slotMarked state'.processedLocs index base slot →
      slotMarked state.processedLocs index base slot ∧
          state'.assignedLocations slot = state.assignedLocations slot ∨
        var.location ≤ slot ∧ slot < var.location + slotCount var stage ∧
          state.location ≤ state'.assignedLocations slot := by
    intro slot set
    by_cases old : slotMarked state.processedLocs index base slot
    · exact .inl ⟨old,frame slot old⟩
    · obtain ⟨low,high⟩ := ((marks slot).mp set).resolve_left old
      have onSlot : var.location + ((slot - var.location).toNat : Nat) = slot := by omega
      exact .inr ⟨low,high,drivenSlot slot low high ▸ fresh _ (by omega) (by rwa [onSlot])⟩
  have builtinBelow : ∀ e ∈ hist, e.1.compact = false → e.1.location < base → ∀ slot,
      slotMarked state'.processedLocs index base slot →
        e.2 + slotCount e.1 stage ≤ state'.assignedLocations slot := by
    intro e mem notCompact builtin slot set
    rcases classify slot set with ⟨old,value⟩ | ⟨-,-,fresh⟩
    · exact value ▸ inv.builtin_below e mem notCompact builtin slot old
    · have := inv.bound e mem notCompact; omega
  constructor
  case marked_iff =>
    intro slot above
    rw [marks,inv.marked_iff slot (Int.le_trans later above)]
    omega
  case linear =>
    intro slot low high
    rcases shape with ⟨topEq,endsEq⟩ | ⟨topEq,same⟩
    · have := drivenSlot slot low (by omega); omega
    · have set := (inv.marked_iff slot (Int.le_trans later low)).mpr (by omega)
      have := inv.linear slot (Int.le_trans later low) (by omega)
      rw [frame slot set]; omega
  case marked_floor => exact fun _ _ => generic
  case partial_floor => simp [notPartial]
  case slots =>
    rintro e (_ | ⟨_,mem⟩) notCompact' generic' i lt
    · dsimp only at lt ⊢
      exact ⟨(marks _).mpr (.inr ⟨by omega,by omega⟩),driven i lt⟩
    · obtain ⟨set,value⟩ := inv.slots e mem notCompact' generic' i lt
      exact ⟨(marks _).mpr (.inl set),(frame _ set).trans value⟩
  case inj =>
    intro slot slot' set set' same
    rcases classify slot set with ⟨old,value⟩ | ⟨low,high,fresh⟩ <;>
      rcases classify slot' set' with ⟨old',value'⟩ | ⟨low',high',fresh'⟩
    · exact inv.inj slot slot' old old' (by rw [← value,← value',same])
    · have := inv.below slot old; omega
    · have := inv.below slot' old'; omega
    · have := drivenSlot slot low high; have := drivenSlot slot' low' high'; omega
  case below =>
    intro slot set
    rcases classify slot set with ⟨old,value⟩ | ⟨low,high,-⟩
    · have := inv.below slot old; omega
    · have := drivenSlot slot low high; omega
  case bound =>
    rintro e (_ | ⟨_,mem⟩) notCompact'
    · exact ends
    · have := inv.bound e mem notCompact'; omega
  case builtin_below =>
    rintro e (_ | ⟨_,mem⟩) notCompact' builtin
    · dsimp only at builtin; omega
    · exact builtinBelow e mem notCompact' builtin
  case builtin_apart =>
    refine List.Pairwise.cons (fun e mem _ notCompact' builtin i lt j _ => ?_) inv.builtin_apart
    dsimp only at builtin lt ⊢
    have builtin : e.1.location < base := builtin.resolve_left (by omega)
    have := builtinBelow e mem notCompact' builtin (var.location + i) ((marks _).mpr (.inr ⟨by omega,by omega⟩))
    rw [driven i lt] at this
    omega

theorem unsignedOf_of_lt {n : Int} (nonneg : 0 ≤ n) (small : n < 4294967296) : unsignedOf n = n.toNat := by
  have small : n < 2^32 := small
  rw [unsignedOf,Int.emod_eq_of_lt nonneg small]

theorem ChainInv.fresh_step {floor top : Int} {hist : List (NirVariable × Nat)} {state : IoLocationState}
    (inv : ChainInv stage index base floor top hist state) {var : NirVariable} {masks : Fin 2 → BitVec 64}
    (later : floor ≤ var.location) (generic : (base : Int) ≤ var.location)
    (marks : ∀ slot, slotMarked masks index base slot ↔ slotMarked state.processedLocs index base slot ∨
      var.location ≤ slot ∧ slot < var.location + slotCount var stage)
    (unmarked : ∀ i < slotCount var stage, ¬slotMarked state.processedLocs index base (var.location + i)) :
    let location := if state.lastPartial then state.location + 1 else state.location
    ChainInv stage index base var.location (max top (var.location + slotCount var stage - 1))
      ((var,location) :: hist) ⟨location + slotCount var stage,false,masks,
        assignSlots state.assignedLocations var.location 0 (slotCount var stage) location⟩ := by
  intro location
  have unmarkedSlot : ∀ slot, var.location ≤ slot → slot < var.location + slotCount var stage →
      ¬slotMarked state.processedLocs index base slot := fun slot low high => by
    have onSlot : var.location + ((slot - var.location).toNat : Nat) = slot := by omega
    exact onSlot ▸ unmarked _ (by omega)
  refine inv.extend later generic marks rfl (fun slot set => ?_) (fun i lt => ?_) (fun i _ _ => ?_)
    (by dsimp only [location]; split <;> omega) le_rfl rfl ?_
  · simp only [assignSlots]
    exact if_neg fun ⟨low,high⟩ => unmarkedSlot slot (by omega) high set
  · simp only [assignSlots]
    rw [if_pos (by omega)]
    omega
  · dsimp only [location]; split <;> omega
  · by_cases within : var.location + slotCount var stage - 1 < top
    · have set := (inv.marked_iff var.location later).mpr (by omega)
      have empty : slotCount var stage = 0 := by
        by_contra nonempty
        exact unmarked 0 (Nat.pos_of_ne_zero nonempty) (by simpa using set)
      have notPartial : state.lastPartial = false := by
        by_contra pending
        have := inv.partial_floor (by simpa using pending); have := inv.marked_floor _ set; omega
      exact .inr ⟨Int.max_eq_left (show var.location + slotCount var stage - 1 ≤ top by omega),
        by simp [location,notPartial,empty]⟩
    · exact .inl ⟨Int.max_eq_right (show top ≤ var.location + slotCount var stage - 1 by omega),rfl⟩

theorem ChainInv.first_marked {floor top : Int} {hist : List (NirVariable × Nat)} {state : IoLocationState}
    (inv : ChainInv stage index base floor top hist state) {var : NirVariable} {n : Nat}
    (later : floor ≤ var.location)
    (set : ∃ i < n, slotMarked state.processedLocs index base (var.location + i)) :
    var.location ≤ top ∧ slotMarked state.processedLocs index base var.location ∧ state.lastPartial = false := by
  obtain ⟨j,-,set⟩ := set
  have inside : var.location ≤ top := by have := (inv.marked_iff _ (by omega)).mp set; omega
  have setFirst := (inv.marked_iff var.location later).mpr inside
  refine ⟨inside,setFirst,?_⟩
  by_contra pending
  have := inv.partial_floor (by simpa using pending); have := inv.marked_floor _ setFirst; omega

theorem ChainInv.reuse_step {floor top : Int} {hist : List (NirVariable × Nat)} {state : IoLocationState}
    (inv : ChainInv stage index base floor top hist state) {var : NirVariable} {masks : Fin 2 → BitVec 64}
    (later : floor ≤ var.location) (generic : (base : Int) ≤ var.location)
    (marks : ∀ slot, slotMarked masks index base slot ↔ slotMarked state.processedLocs index base slot ∨
      var.location ≤ slot ∧ slot < var.location + slotCount var stage)
    (fits : slotCount var stage ≤ 64)
    (set : ∃ i < slotCount var stage, slotMarked state.processedLocs index base (var.location + i)) :
    let location := if state.lastPartial then state.location + 1 else state.location
    let driverLocation := state.assignedLocations var.location
    let result : IoLocationState × Nat :=
      if driverLocation + slotCount var stage > location then
        let first :=
          unsignedOf (slotCount var stage - ((driverLocation + slotCount var stage : Nat) - location) : Int)
        (⟨location + (slotCount var stage - first),false,masks,
          assignSlots state.assignedLocations var.location first (slotCount var stage) location⟩,driverLocation)
      else (⟨location,false,masks,state.assignedLocations⟩,driverLocation)
    ChainInv stage index base var.location (max top (var.location + slotCount var stage - 1))
      ((var,result.2) :: hist) result.1 := by
  obtain ⟨inside,-,notPartial⟩ := inv.first_marked later set
  have ends := inv.linear var.location later inside
  have chain : ∀ slot, var.location ≤ slot → slot ≤ top →
      (state.assignedLocations slot : Int) = state.assignedLocations var.location + (slot - var.location) :=
    fun slot low high => by have := inv.linear slot (by omega) high; omega
  have marked : ∀ slot, var.location ≤ slot → slot ≤ top →
      slotMarked state.processedLocs index base slot :=
    fun slot low high => (inv.marked_iff slot (by omega)).mpr high
  simp only [notPartial,Bool.false_eq_true,↓reduceIte]
  split
  case isTrue extended =>
    rw [unsignedOf_of_lt (by omega) (by omega)]
    refine inv.extend later generic marks rfl (fun slot set => ?_) (fun i lt => ?_)
      (fun i _ unmarked => ?_) (by dsimp only; omega) (by dsimp only; omega) rfl
      (.inl ⟨Int.max_eq_right (show top ≤ var.location + slotCount var stage - 1 by omega),
        by dsimp only; omega⟩)
    · simp only [assignSlots]
      exact if_neg fun ⟨low,high⟩ => by have := (inv.marked_iff slot (by omega)).mp set; omega
    · simp only [assignSlots]
      split_ifs
      · omega
      · have := chain (var.location + i) (by omega) (by omega); omega
    · by_contra below
      exact unmarked (marked _ (by omega) (by omega))
  case isFalse within =>
    refine inv.extend later generic marks rfl (fun _ _ => rfl) (fun i lt => ?_)
      (fun i lt unmarked => absurd (marked _ (by omega) (by omega)) unmarked) le_rfl
      (by dsimp only; omega) rfl
      (.inr ⟨Int.max_eq_left (show var.location + slotCount var stage - 1 ≤ top by omega),rfl⟩)
    have := chain (var.location + i) (by omega) (by omega); dsimp only; omega

theorem ChainInv.generic_step {floor top : Int} {hist : List (NirVariable × Nat)} {state : IoLocationState}
    (inv : ChainInv stage index base floor top hist state) {var : NirVariable}
    (later : floor ≤ var.location) (notCompact : var.compact = false) (sameIndex : var.index = index)
    (sameBase : ioVarBase var stage = base) (generic : (base : Int) ≤ var.location)
    (fits : var.location - base + slotCount var stage ≤ 64) :
    ChainInv stage index base var.location (max top (var.location + slotCount var stage - 1))
      ((var,(assignIoVarLocation stage state var).2) :: hist) (assignIoVarLocation stage state var).1 := by
  subst sameIndex sameBase
  obtain ⟨processedIff,marks⟩ := markProcessed_slots state.processedLocs var generic fits
  rw [assignIoVarLocation_generic state notCompact generic]
  dsimp only
  split
  case isTrue processed => exact inv.reuse_step later generic marks (by omega) (processedIff.mp processed)
  case isFalse unprocessed =>
    exact inv.fresh_step later generic marks fun i lt set => unprocessed (processedIff.mpr ⟨i,lt,set⟩)

theorem ChainInv.step {floor top : Int} {hist : List (NirVariable × Nat)} {state : IoLocationState}
    (inv : ChainInv stage index base floor top hist state) {var : NirVariable}
    (later : floor ≤ var.location) (sameIndex : var.index = index) (sameBase : ioVarBase var stage = base)
    (compactBuiltin : var.compact = true → var.location < base)
    (fits : (base : Int) ≤ var.location → var.location - base + slotCount var stage ≤ 64) :
    ∃ top', ChainInv stage index base var.location top'
      ((var,(assignIoVarLocation stage state var).2) :: hist) (assignIoVarLocation stage state var).1 := by
  by_cases builtin : var.location < base
  · exact ⟨_,inv.builtin_step later builtin sameBase⟩
  · have notCompact : var.compact = false := by
      cases compact : var.compact
      · rfl
      · exact absurd (compactBuiltin compact) builtin
    exact ⟨_,inv.generic_step later notCompact sameIndex sameBase (by omega) (fits (by omega))⟩

theorem ChainInv.run : ∀ (vars : List NirVariable) {floor top : Int} {hist : List (NirVariable × Nat)}
    {state : IoLocationState}, ChainInv stage index base floor top hist state → LocationSorted vars →
    (∀ var ∈ vars, floor ≤ var.location ∧ var.index = index ∧ ioVarBase var stage = base ∧
      (var.compact = true → var.location < base) ∧
      ((base : Int) ≤ var.location → var.location - base + slotCount var stage ≤ 64)) →
    ∃ floor' top', ChainInv stage index base floor' top'
      ((vars.zip (assignIoVarLocations stage state vars).2).reverse ++ hist)
      (assignIoVarLocations stage state vars).1
  | [], floor, top, _, _, inv, _, _ => ⟨floor,top,inv⟩
  | var :: vars, _, _, hist, state, inv, sorted, fitting => by
    rw [LocationSorted,List.pairwise_cons] at sorted
    obtain ⟨later,sameIndex,sameBase,compactBuiltin,fits⟩ := fitting var (List.mem_cons_self var vars)
    obtain ⟨top',next⟩ := inv.step later sameIndex sameBase compactBuiltin fits
    obtain ⟨floor'',top'',final⟩ := ChainInv.run vars next sorted.2 fun other mem =>
      ⟨sorted.1 other mem,(fitting other (List.mem_cons_of_mem var mem)).2⟩
    refine ⟨floor'',top'',?_⟩
    simpa only [assignIoVarLocations,List.zip_cons_cons,List.reverse_cons,List.append_assoc,
      List.singleton_append] using final

theorem ioVarBase_of_mode {var var' : NirVariable} (same : var.mode = var'.mode) (stage : GlShaderStage) :
    ioVarBase var stage = ioVarBase var' stage := by
  simp only [ioVarBase,same]

end Chain

theorem sortVaryings_fitting (shader : NirShader) (mode : NirVariableMode) (stage : GlShaderStage)
    (index : Fin 2) (oneIndex : ∀ var ∈ shader.vars, var.mode = mode → var.index = index)
    (compactBuiltin : ∀ var ∈ shader.vars, var.mode = mode → var.compact = true →
      var.location < ioVarBase var stage)
    (inBits : ∀ var ∈ shader.vars, var.mode = mode → (ioVarBase var stage : Int) ≤ var.location →
      var.location - ioVarBase var stage + slotCount var stage ≤ 64) :
    ∃ (floor : Int) (base : Nat), ∀ var ∈ (sortVaryings shader.vars mode).2,
      floor ≤ var.location ∧ var.index = index ∧ ioVarBase var stage = base ∧
        (var.compact = true → var.location < base) ∧
        ((base : Int) ≤ var.location → var.location - base + slotCount var stage ≤ 64) := by
  have sorted := sortVaryings_sorted shader.vars mode
  have members : ∀ var ∈ (sortVaryings shader.vars mode).2, var ∈ shader.vars ∧ var.mode = mode :=
    fun _ => mem_sortVaryings
  generalize (sortVaryings shader.vars mode).2 = ioVars at sorted members
  cases ioVars with
  | nil => exact ⟨0,0,by simp⟩
  | cons first rest =>
    refine ⟨first.location,ioVarBase first stage,fun var mem => ?_⟩
    obtain ⟨inShader,ofMode⟩ := members var mem
    have sameBase := ioVarBase_of_mode (ofMode.trans (members first (List.mem_cons_self _ _)).2.symm) stage
    refine ⟨?_,oneIndex var inShader ofMode,sameBase,
      fun compact => sameBase ▸ compactBuiltin var inShader ofMode compact,
      fun generic => sameBase ▸ inBits var inShader ofMode (sameBase ▸ generic)⟩
    rcases List.mem_cons.mp mem with rfl | later
    · exact Int.le_refl _
    · exact (List.pairwise_cons.mp sorted).1 var later

/-- The whole loop of `nir_assign_io_var_locations` keeps `ChainInv` over the sorted
variables, which share one first generic slot, and ends below `*size`. -/
theorem nirAssignIoVarLocations_chain (shader : NirShader) (mode : NirVariableMode)
    (stage : GlShaderStage) (assigned : Int → Nat) (index : Fin 2)
    (oneIndex : ∀ var ∈ shader.vars, var.mode = mode → var.index = index)
    (compactBuiltin : ∀ var ∈ shader.vars, var.mode = mode → var.compact = true →
      var.location < ioVarBase var stage)
    (inBits : ∀ var ∈ shader.vars, var.mode = mode → (ioVarBase var stage : Int) ≤ var.location →
      var.location - ioVarBase var stage + slotCount var stage ≤ 64) :
    let result := nirAssignIoVarLocations shader mode stage assigned
    let final := (assignIoVarLocations stage ⟨0,false,fun _ => 0,assigned⟩ (sortVaryings shader.vars mode).2).1
    ∃ (base : Nat) (floor top : Int),
      (∀ var ∈ (sortVaryings shader.vars mode).2, ioVarBase var stage = base) ∧
      ChainInv stage index base floor top ((sortVaryings shader.vars mode).2.zip result.driverLocations).reverse
        final ∧ final.location ≤ result.size := by
  intro result final
  have sizeEq : result.size = if final.lastPartial then final.location + 1 else final.location := rfl
  obtain ⟨floor,base,fitting⟩ := sortVaryings_fitting shader mode stage index oneIndex compactBuiltin inBits
  obtain ⟨_,top,inv⟩ :=
    ChainInv.run _ (chainInv_init stage index base floor assigned) (sortVaryings_sorted shader.vars mode) fitting
  refine ⟨base,_,top,fun var mem => (fitting var mem).2.2.1,by rwa [List.append_nil] at inv,?_⟩
  rw [sizeEq]
  split <;> omega

/-- With one `data.index` and no compact array at a generic slot, `nir_assign_io_var_locations`
gives every variable that is not a compact array driver locations within `*size`; two generic
ones share a driver location exactly where they share a slot, and any two that share no slot
share no driver location. -/
theorem io_var_driver_locations_mirror_slots (shader : NirShader) (mode : NirVariableMode)
    (stage : GlShaderStage) (assigned : Int → Nat) (index : Fin 2)
    (oneIndex : ∀ var ∈ shader.vars, var.mode = mode → var.index = index)
    (compactBuiltin : ∀ var ∈ shader.vars, var.mode = mode → var.compact = true →
      var.location < ioVarBase var stage)
    (inBits : ∀ var ∈ shader.vars, var.mode = mode → (ioVarBase var stage : Int) ≤ var.location →
      var.location - ioVarBase var stage + slotCount var stage ≤ 64) :
    let result := nirAssignIoVarLocations shader mode stage assigned
    let entries := (result.vars.filter (·.mode = mode)).zip result.driverLocations
    (∀ e ∈ entries, e.1.compact = false → e.2 + slotCount e.1 stage ≤ result.size) ∧
    (∀ e ∈ entries, ∀ e' ∈ entries, e.1.compact = false → e'.1.compact = false →
      (ioVarBase e.1 stage : Int) ≤ e.1.location → (ioVarBase e'.1 stage : Int) ≤ e'.1.location →
      ∀ i < slotCount e.1 stage, ∀ j < slotCount e'.1 stage,
        (e.1.location + i = e'.1.location + j ↔ e.2 + i = e'.2 + j)) ∧
    entries.Pairwise fun (e e' : NirVariable × Nat) => e.1.compact = false → e'.1.compact = false →
      (∀ i < slotCount e.1 stage, ∀ j < slotCount e'.1 stage, e.1.location + i ≠ e'.1.location + j) →
      ∀ i < slotCount e.1 stage, ∀ j < slotCount e'.1 stage, e.2 + i ≠ e'.2 + j := by
  dsimp only
  rw [filter_nirAssignIoVarLocations_vars]
  obtain ⟨base,_,_,baseOf,inv,size⟩ :=
    nirAssignIoVarLocations_chain shader mode stage assigned index oneIndex compactBuiltin inBits
  refine ⟨fun e mem notCompact => ?_,
    fun e mem e' mem' notCompact notCompact' generic generic' i lt j lt' => ?_,?_⟩
  · have := inv.bound e (List.mem_reverse.mpr mem) notCompact; omega
  · rw [baseOf e.1 (List.of_mem_zip mem).1] at generic; rw [baseOf e'.1 (List.of_mem_zip mem').1] at generic'
    obtain ⟨set,value⟩ := inv.slots e (List.mem_reverse.mpr mem) notCompact generic i lt
    obtain ⟨set',value'⟩ := inv.slots e' (List.mem_reverse.mpr mem') notCompact' generic' j lt'
    constructor
    · intro same; rw [← value,← value',same]
    · intro same; exact inv.inj _ _ set set' (by rw [value,value',same])
  · refine (List.pairwise_reverse.mp inv.builtin_apart).imp_of_mem
      fun {e e'} mem mem' apart notCompact notCompact' slotsApart i lt j lt' same => ?_
    by_cases builtin : e.1.location < base ∨ e'.1.location < base
    · exact apart notCompact' notCompact builtin.symm j lt' i lt same.symm
    · obtain ⟨set,value⟩ := inv.slots e (List.mem_reverse.mpr mem) notCompact (by omega) i lt
      obtain ⟨set',value'⟩ := inv.slots e' (List.mem_reverse.mpr mem') notCompact' (by omega) j lt'
      exact slotsApart i lt j lt' (inv.inj _ _ set set' (by rw [value,value',same]))

/-- A vertex shader writing `gl_Position`, a `vec4[2]` from `VARYING_SLOT_VAR0` and two scalars
packed in the array's second slot. -/
def vsPackedOutputs : NirShader :=
  .ofVars .vertex [.plain (.vector .float 1) .shaderOut 33 0,.plain (.vector .float 1) .shaderOut 33 1,
    .plain (.array (.vector .float 4) 2) .shaderOut 32 0,.plain (.vector .float 4) .shaderOut 0 0] []

example : (nirAssignIoVarLocations vsPackedOutputs .shaderOut .vertex fun _ => 0).driverLocations = [0,1,2,2] := by
  decide

theorem io_var_driver_locations_mirror_slots_packed :
    (∀ var ∈ vsPackedOutputs.vars, var.mode = .shaderOut → var.index = 0) ∧
    (∀ var ∈ vsPackedOutputs.vars, var.mode = .shaderOut → var.compact = true →
      var.location < ioVarBase var .vertex) ∧
    (∀ var ∈ vsPackedOutputs.vars, var.mode = .shaderOut → (ioVarBase var .vertex : Int) ≤ var.location →
      var.location - ioVarBase var .vertex + slotCount var .vertex ≤ 64) ∧
    let result := nirAssignIoVarLocations vsPackedOutputs .shaderOut .vertex fun _ => 0
    let entries := (result.vars.filter (·.mode = .shaderOut)).zip result.driverLocations
    (∀ e ∈ entries, e.1.compact = false → e.2 + slotCount e.1 .vertex ≤ result.size) ∧
    (∀ e ∈ entries, ∀ e' ∈ entries, e.1.compact = false → e'.1.compact = false →
      (ioVarBase e.1 .vertex : Int) ≤ e.1.location → (ioVarBase e'.1 .vertex : Int) ≤ e'.1.location →
      ∀ i < slotCount e.1 .vertex, ∀ j < slotCount e'.1 .vertex,
        (e.1.location + i = e'.1.location + j ↔ e.2 + i = e'.2 + j)) ∧
    entries.Pairwise fun (e e' : NirVariable × Nat) => e.1.compact = false → e'.1.compact = false →
      (∀ i < slotCount e.1 .vertex, ∀ j < slotCount e'.1 .vertex, e.1.location + i ≠ e'.1.location + j) →
      ∀ i < slotCount e.1 .vertex, ∀ j < slotCount e'.1 .vertex, e.2 + i ≠ e'.2 + j :=
  have oneIndex : ∀ var ∈ vsPackedOutputs.vars, var.mode = .shaderOut → var.index = 0 := by decide
  have compactBuiltin : ∀ var ∈ vsPackedOutputs.vars, var.mode = .shaderOut → var.compact = true →
      var.location < ioVarBase var .vertex := by decide
  have inBits : ∀ var ∈ vsPackedOutputs.vars, var.mode = .shaderOut →
      (ioVarBase var .vertex : Int) ≤ var.location →
      var.location - ioVarBase var .vertex + slotCount var .vertex ≤ 64 := by decide
  ⟨oneIndex,compactBuiltin,inBits,
    io_var_driver_locations_mirror_slots vsPackedOutputs .shaderOut .vertex _ 0 oneIndex compactBuiltin inBits⟩

end Mesa.Nir

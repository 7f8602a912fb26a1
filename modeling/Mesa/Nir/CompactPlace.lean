import Mathlib.Data.Prod.Lex
import Mesa.Nir.Compact

/-! The placement loop of `compact_components`, one record at a time: what a turn takes
from the assigned components, what it writes to the remap table, and the order the
records are sorted in. -/
namespace Mesa.Nir

theorem getD_set {α : Type} (l : List α) (i j : Nat) (e d : α) :
    (l.set j e).getD i d = if i = j ∧ j < l.length then e else l.getD i d := by
  simp only [List.getD_eq_getElem?_getD,List.getElem?_set]
  by_cases same : j = i
  · subst same
    by_cases inside : j < l.length
    · simp [inside]
    · simp [inside,List.getElem?_eq_none (Nat.le_of_not_lt inside)]
  · simp [same,Ne.symm same]

theorem getD_set_self {α : Type} (l : List α) {j : Nat} (inside : j < l.length) (e d : α) :
    (l.set j e).getD j d = e := by
  simp [List.getD_eq_getElem?_getD,inside]

theorem getD_set_of_ne {α : Type} (l : List α) {i j : Nat} (ne : i ≠ j) (e d : α) :
    (l.set j e).getD i d = l.getD i d := by
  simp [List.getD_eq_getElem?_getD,List.getElem?_set_ne (Ne.symm ne)]

/-! ### The order of the records -/

/-- The key `cmp_varying_component` orders records by. -/
def sortKey (r : VaryingComponent) : Int ×ₗ Int ×ₗ Int ×ₗ Int ×ₗ Int :=
  toLex (flagKey r.isPatch,toLex (flagKey r.isIntraStageOnly,toLex ((r.interpType : Int),
    toLex ((r.interpLoc : Int),r.var.location))))

theorem cmpStep_nonpos_iff (x y rest : Int) : cmpStep x y rest ≤ 0 ↔ x < y ∨ x = y ∧ rest ≤ 0 := by
  unfold cmpStep; split_ifs <;> omega

theorem cmp_nonpos_iff (a b : VaryingComponent) : cmpVaryingComponent a b ≤ 0 ↔ sortKey a ≤ sortKey b := by
  have last : a.var.location - b.var.location ≤ 0 ↔ a.var.location ≤ b.var.location := by omega
  simp only [cmpVaryingComponent_eq,sortKey,cmpStep_nonpos_iff,Prod.Lex.le_iff,last]

theorem flagKey_inj {a b : Bool} (same : flagKey a = flagKey b) : a = b := by
  cases a <;> cases b <;> simp_all [flagKey]

theorem sorted_perm_keys {l₁ l₂ : List VaryingComponent} (perm : l₁.Perm l₂)
    (sorted₁ : l₁.Pairwise fun a b => cmpVaryingComponent a b ≤ 0)
    (sorted₂ : l₂.Pairwise fun a b => cmpVaryingComponent a b ≤ 0) : l₁.map sortKey = l₂.map sortKey :=
  List.eq_of_perm_of_sorted (perm.map sortKey)
    (List.pairwise_map.mpr (sorted₁.imp (cmp_nonpos_iff _ _).mp))
    (List.pairwise_map.mpr (sorted₂.imp (cmp_nonpos_iff _ _).mp))

theorem cmp_nonpos_of_moved {a b : VaryingComponent} (va vb : NirVariable) (le : cmpVaryingComponent a b ≤ 0)
    (ordered : va.location ≤ vb.location) :
    cmpVaryingComponent { a with var := va } { b with var := vb } ≤ 0 := by
  simp only [cmp_nonpos_iff,sortKey,Prod.Lex.le_iff] at le ⊢
  omega

/-! ### One turn of the loop -/

/-- Component `comp` of slot `slot` is taken. -/
def AssignedTable.Taken (table : AssignedTable) (slot comp : Nat) : Prop :=
  (table.get slot).comps.getLsbD comp = true

/-- The states the loop runs through: the whole table, and a component no past 4. -/
structure PackState.Valid (state : PackState) : Prop where
  length : state.assigned.length = maxVaryingsInclPatch
  comp_le : state.comp ≤ 4

/-- What a turn of the loop does to the taken components: nothing, or it takes one free
component of a slot of the table. -/
def Places (before after : AssignedTable) : Option (Nat × Nat) → Prop
  | none => after = before
  | some (slot,comp) => slot < maxVaryingsInclPatch ∧ comp < 4 ∧ ¬before.Taken slot comp ∧
      ∀ j b, after.Taken j b ↔ before.Taken j b ∨ j = slot ∧ b = comp

theorem AssignedTable.get_set (table : AssignedTable) {slot : Nat} (inside : slot < table.length)
    (entry : AssignedComps) (j : Nat) :
    (table.set slot entry).get j = if j = slot then entry else table.get j := by
  simp only [AssignedTable.get,AssignedTable.set,getD_set,inside,and_true]

theorem le_skipTaken (comps : BitVec 8) : ∀ fuel comp, comp ≤ skipTaken comps fuel comp
  | 0, _ => Nat.le_refl _
  | fuel + 1, comp => by
    unfold skipTaken
    split_ifs
    · exact Nat.le_of_succ_le (le_skipTaken comps fuel (comp + 1))
    · exact Nat.le_refl _

theorem skipTaken_le (comps : BitVec 8) : ∀ fuel comp, comp ≤ 4 → skipTaken comps fuel comp ≤ 4
  | 0, _, bound => bound
  | fuel + 1, comp, bound => by
    unfold skipTaken
    split_ifs with taken
    · exact skipTaken_le comps fuel (comp + 1) (by omega)
    · exact bound

theorem skipTaken_free (comps : BitVec 8) : ∀ fuel comp, 4 ≤ comp + fuel →
    skipTaken comps fuel comp < 4 → comps.getLsbD (skipTaken comps fuel comp) = false
  | 0, comp, enough, below => by simp only [skipTaken] at below; omega
  | fuel + 1, comp, enough, below => by
    unfold skipTaken at below ⊢
    split_ifs at below ⊢ with taken
    · exact skipTaken_free comps fuel (comp + 1) (by omega) below
    · simpa [below] using taken

theorem scanSlots_placed (assigned : AssignedTable) (interpType interpLoc : Nat) :
    ∀ {fuel cursor comp slot c : Nat}, comp ≤ 4 →
      scanSlots assigned interpType interpLoc fuel cursor comp = (slot,c,true) →
      cursor ≤ slot ∧ slot < cursor + fuel ∧ c < 4 ∧ ¬assigned.Taken slot c
  | 0, _, _, _, _, _, scan => by simp [scanSlots] at scan
  | fuel + 1, cursor, comp, slot, c, bound, scan => by
    have next : scanSlots assigned interpType interpLoc fuel (cursor + 1) 0 = (slot,c,true) →
        cursor ≤ slot ∧ slot < cursor + (fuel + 1) ∧ c < 4 ∧ ¬assigned.Taken slot c := fun scan => by
      obtain ⟨after,before,below,free⟩ := scanSlots_placed assigned interpType interpLoc (Nat.zero_le 4) scan
      exact ⟨by omega,by omega,below,free⟩
    unfold scanSlots at scan
    dsimp only at scan
    unfold AssignedTable.Taken
    split_ifs at scan with mixed wide used full full
    · exact next scan
    · exact next scan
    · exact next scan
    · obtain ⟨rfl,rfl⟩ : cursor = slot ∧ _ = c := by simpa using scan
      have := skipTaken_le (assigned.get cursor).comps 4 comp bound
      have below : skipTaken (assigned.get cursor).comps 4 comp < 4 := by omega
      exact ⟨le_rfl,by omega,below,by simp [skipTaken_free _ 4 comp (by omega) below]⟩
    · exact next scan
    · obtain ⟨rfl,rfl⟩ : cursor = slot ∧ comp = c := by simpa using scan
      simp only [not_not] at used
      exact ⟨le_rfl,by omega,by omega,by simp [used]⟩

theorem scanSlots_comp_le (assigned : AssignedTable) (interpType interpLoc : Nat) :
    ∀ {fuel cursor comp : Nat}, comp ≤ 4 →
      (scanSlots assigned interpType interpLoc fuel cursor comp).2.1 ≤ 4
  | 0, _, _, bound => bound
  | fuel + 1, cursor, comp, bound => by
    unfold scanSlots
    dsimp only
    split_ifs with mixed wide used full <;>
      first
      | exact scanSlots_comp_le assigned interpType interpLoc (Nat.zero_le 4)
      | exact skipTaken_le _ 4 comp bound
      | exact bound

theorem AssignedTable.taken_set (table : AssignedTable) {slot comp : Nat} (inside : slot < table.length)
    (small : comp < 4) (interpType interpLoc : Nat) (wide : Bool) (j b : Nat) :
    (table.set slot ⟨(table.get slot).comps ||| BitVec.ofNat 8 (2^comp),interpType,interpLoc,wide⟩).Taken j b ↔
      table.Taken j b ∨ j = slot ∧ b = comp := by
  unfold AssignedTable.Taken
  rw [AssignedTable.get_set table inside]
  split_ifs with same
  · subst same
    by_cases low : b < 8
    · simp only [BitVec.getLsbD_or,BitVec.getLsbD_ofNat,Nat.testBit_two_pow,low,decide_True,Bool.true_and,
        Bool.or_eq_true,decide_eq_true_eq,true_and]
      exact or_congr_right ⟨Eq.symm,Eq.symm⟩
    · simp [BitVec.getLsbD_ge _ _ (Nat.le_of_not_lt low)]; omega
  · simp [same]

theorem assignRemapLocations_spec {state : PackState} (valid : state.Valid) (info : VaryingComponent)
    {maxLocation : Nat} (bound : maxLocation ≤ maxVaryingsInclPatch) :
    (assignRemapLocations state info maxLocation).1.Valid ∧
      Places state.assigned (assignRemapLocations state info maxLocation).1.assigned
        (assignRemapLocations state info maxLocation).2 ∧
      ((assignRemapLocations state info maxLocation).2.isSome →
        (assignRemapLocations state info maxLocation).1.cursor < maxLocation) := by
  unfold assignRemapLocations
  split
  next cursor comp scan =>
    obtain ⟨after,before,below,free⟩ := scanSlots_placed _ _ _ valid.comp_le scan
    have inside : cursor < state.assigned.length := by rw [valid.length]; omega
    exact ⟨⟨by simp [AssignedTable.set,valid.length],below⟩,
      ⟨by omega,below,free,AssignedTable.taken_set _ inside below _ _ _⟩,fun _ => show cursor < maxLocation by omega⟩
  next cursor comp scan =>
    have := @scanSlots_comp_le state.assigned info.interpType info.interpLoc (maxLocation - state.cursor)
      state.cursor state.comp valid.comp_le
    rw [scan] at this
    exact ⟨⟨valid.length,this⟩,rfl,by simp⟩

theorem placeRecord_spec {state : PackState} (valid : state.Valid) (info : VaryingComponent) :
    (placeRecord state info).1.Valid ∧
      Places state.assigned (placeRecord state info).1.assigned (placeRecord state info).2 := by
  unfold placeRecord
  split
  · have reset : PackState.Valid ⟨state.assigned,maxVarying,0⟩ := ⟨valid.length,Nat.zero_le 4⟩
    split
    · exact (assignRemapLocations_spec reset info le_rfl).imp_right And.left
    · exact (assignRemapLocations_spec valid info le_rfl).imp_right And.left
  · obtain ⟨firstValid,firstPlaces,firstCursor⟩ :=
      assignRemapLocations_spec valid info (show maxVarying ≤ maxVaryingsInclPatch by decide)
    dsimp only
    split
    next reached =>
      have unplaced : (assignRemapLocations state info maxVarying).2 = none := by
        cases placed : (assignRemapLocations state info maxVarying).2
        · rfl
        · have := firstCursor (by rw [placed]; rfl); omega
      rw [unplaced] at firstPlaces
      have reset : PackState.Valid ⟨(assignRemapLocations state info maxVarying).1.assigned,0,0⟩ :=
        ⟨firstValid.length,Nat.zero_le 4⟩
      have retry := assignRemapLocations_spec reset info (show maxVarying ≤ maxVaryingsInclPatch by decide)
      simp only [Places] at firstPlaces
      exact ⟨retry.1,by rw [← firstPlaces]; exact retry.2.1⟩
    · exact ⟨firstValid,firstPlaces⟩

/-- What placing a record reads of it: its interpolation, its bit size and its patch flag. -/
def VaryingComponent.attrs (info : VaryingComponent) : Nat × Nat × Bool × Bool :=
  (info.interpType,info.interpLoc,info.is32bit,info.isPatch)

theorem placeRecord_congr (state : PackState) {a b : VaryingComponent} (same : a.attrs = b.attrs) :
    placeRecord state a = placeRecord state b := by
  obtain ⟨interpType,interpLoc,wide,patch⟩ : a.interpType = b.interpType ∧ a.interpLoc = b.interpLoc ∧
      a.is32bit = b.is32bit ∧ a.isPatch = b.isPatch := by
    simpa [VaryingComponent.attrs] using same
  unfold placeRecord assignRemapLocations
  rw [interpType,interpLoc,wide,patch]

/-- The slot and component each record of a run is given, from a state on. -/
def placements (state : PackState) : List VaryingComponent → List (Option (Nat × Nat))
  | [] => []
  | info :: rest => (placeRecord state info).2 :: placements (placeRecord state info).1 rest

/-- The remap entries of a run, written in its order. -/
def writeRemaps (remap : RemapTable) (placed : List (VaryingComponent × Option (Nat × Nat))) : RemapTable :=
  placed.foldl (fun remap entry => writeRemap remap entry.1 entry.2) remap

theorem foldl_packStep (records : List VaryingComponent) (state : PackState) (remap : RemapTable) :
    (records.foldl packStep (state,remap)).2 = writeRemaps remap (records.zip (placements state records)) := by
  induction records generalizing state remap with
  | nil => rfl
  | cons info rest ih => exact ih _ _

theorem placements_length (state : PackState) (records : List VaryingComponent) :
    (placements state records).length = records.length := by
  induction records generalizing state with
  | nil => rfl
  | cons info rest ih => simp [placements,ih]

theorem placements_congr (state : PackState) {l₁ l₂ : List VaryingComponent}
    (same : l₁.map VaryingComponent.attrs = l₂.map VaryingComponent.attrs) :
    placements state l₁ = placements state l₂ := by
  induction l₁ generalizing l₂ state with
  | nil => cases l₂ <;> simp_all [placements]
  | cons a rest ih =>
    cases l₂ with
    | nil => simp at same
    | cons b rest' =>
      simp only [List.map_cons,List.cons.injEq] at same
      simp only [placements,placeRecord_congr state same.1,ih _ same.2]

/-- The places a run gives are free in the table it starts from, inside it, and pairwise
distinct. -/
theorem placements_fresh {state : PackState} (valid : state.Valid) (records : List VaryingComponent) :
    (∀ slot comp, some (slot,comp) ∈ placements state records →
      slot < maxVaryingsInclPatch ∧ comp < 4 ∧ ¬state.assigned.Taken slot comp) ∧
    (placements state records).Pairwise fun p q => ∀ x ∈ p, x ∉ q := by
  induction records generalizing state with
  | nil => simp [placements]
  | cons info rest ih =>
    obtain ⟨nextValid,places⟩ := placeRecord_spec valid info
    obtain ⟨fresh,distinct⟩ := ih nextValid
    simp only [placements,List.pairwise_cons,List.mem_cons]
    generalize (placeRecord state info).1 = next at places fresh distinct
    generalize (placeRecord state info).2 = placed at places
    refine ⟨?_,?_,distinct⟩
    · rintro slot comp (head | tail)
      · subst head
        exact ⟨places.1,places.2.1,places.2.2.1⟩
      · cases placed with
        | none =>
          simp only [Places] at places
          exact places ▸ fresh slot comp tail
        | some first =>
          obtain ⟨below,small,nowFree⟩ := fresh slot comp tail
          exact ⟨below,small,fun before => nowFree ((places.2.2.2 slot comp).mpr (Or.inl before))⟩
    · intro later member x head
      cases placed with
      | none => cases head
      | some first =>
        obtain rfl : first = x := Option.some_inj.mp head
        obtain ⟨s0,c0⟩ := first
        rintro rfl
        exact (fresh _ _ member).2.2 ((places.2.2.2 _ _).mpr (Or.inr ⟨rfl,rfl⟩))

/-- Every record of a run is placed, at a slot no lower than the one placed before it. -/
def placedInOrder : Nat → List (Option (Nat × Nat)) → Bool
  | _, [] => true
  | floor, some (slot,_) :: rest => decide (floor ≤ slot) && placedInOrder slot rest
  | _, none :: _ => false

theorem placedInOrder_spec : ∀ {floor : Nat} {placed : List (Option (Nat × Nat))},
    placedInOrder floor placed = true → ∃ places : List (Nat × Nat), placed = places.map some ∧
      places.Pairwise (fun p q => p.1 ≤ q.1) ∧ ∀ p ∈ places, floor ≤ p.1
  | _, [], _ => ⟨[],rfl,List.Pairwise.nil,by simp⟩
  | floor, some (slot,comp) :: rest, inOrder => by
    obtain ⟨above,inOrder⟩ : floor ≤ slot ∧ placedInOrder slot rest = true := by
      simpa [placedInOrder] using inOrder
    obtain ⟨places,rfl,sorted,floored⟩ := placedInOrder_spec inOrder
    exact ⟨(slot,comp) :: places,rfl,List.pairwise_cons.mpr ⟨floored,sorted⟩,
      by simpa [above] using fun p member => Nat.le_trans above (floored p member)⟩
  | _, none :: _, inOrder => by simp [placedInOrder] at inOrder

/-- The place of a variable in the remap and record tables: `[location - VAR0][location_frac]`. -/
def tableIndex (var : NirVariable) : Nat := (var.location - varyingSlotVar0).toNat * 4 + var.locationFrac

theorem writeRemap_length (remap : RemapTable) (info : VaryingComponent) (placed : Option (Nat × Nat)) :
    List.length (writeRemap remap info placed) = List.length remap := by
  cases placed <;> simp [writeRemap,RemapTable.set]

theorem writeRemaps_getD_of_absent {i : Nat} : ∀ {remap : RemapTable} {placed : List (VaryingComponent × Option (Nat × Nat))},
    (∀ p ∈ placed, p.2.isSome → tableIndex p.1.var ≠ i) →
    List.getD (writeRemaps remap placed) i ⟨0,0⟩ = List.getD remap i ⟨0,0⟩
  | _, [], _ => rfl
  | remap, (info,placed) :: rest, absent => by
    rw [writeRemaps,List.foldl_cons,← writeRemaps,writeRemaps_getD_of_absent fun p member => absent p (by simp [member])]
    cases placed with
    | none => rfl
    | some place => exact getD_set_of_ne remap (absent _ (List.mem_cons_self _ _) rfl).symm _ _

theorem writeRemaps_getD_of_mem {info : VaryingComponent} {slot comp : Nat} :
    ∀ {remap : RemapTable} {placed : List (VaryingComponent × Option (Nat × Nat))},
    (placed.map fun p => tableIndex p.1.var).Nodup → (info,some (slot,comp)) ∈ placed →
    tableIndex info.var < List.length remap →
    List.getD (writeRemaps remap placed) (tableIndex info.var) ⟨0,0⟩ = ⟨comp,slot + varyingSlotVar0⟩
  | _, [], _, member, _ => by simp at member
  | remap, (first,place) :: rest, distinct, member, inside => by
    rw [List.map_cons,List.nodup_cons] at distinct
    rw [writeRemaps,List.foldl_cons,← writeRemaps]
    rcases List.mem_cons.mp member with head | tail
    · obtain ⟨rfl,rfl⟩ := Prod.mk.inj head
      rw [writeRemaps_getD_of_absent fun p member _ same => distinct.1 (List.mem_map.mpr ⟨p,member,same⟩)]
      exact getD_set_self remap inside _ _
    · exact writeRemaps_getD_of_mem distinct.2 tail (by rw [writeRemap_length]; exact inside)

theorem writeRemaps_getD_invariant (good : Nat → VaryingLoc → Prop) :
    ∀ {remap : RemapTable} {placed : List (VaryingComponent × Option (Nat × Nat))},
    (∀ i, good i (List.getD remap i ⟨0,0⟩)) →
    (∀ p ∈ placed, ∀ slot comp, p.2 = some (slot,comp) →
      good (tableIndex p.1.var) ⟨comp,slot + varyingSlotVar0⟩) →
    ∀ i, good i (List.getD (writeRemaps remap placed) i ⟨0,0⟩)
  | _, [], start, _ => start
  | remap, (info,placed) :: rest, start, writes => by
    rw [writeRemaps,List.foldl_cons,← writeRemaps]
    refine writeRemaps_getD_invariant good ?_ fun p member => writes p (List.mem_cons_of_mem _ member)
    intro i
    cases placed with
    | none => exact start i
    | some place =>
      rw [writeRemap,RemapTable.set,← tableIndex,getD_set]
      split_ifs with here
      · exact here.1 ▸ writes _ (List.mem_cons_self _ _) _ _ rfl
      · exact start i

end Mesa.Nir

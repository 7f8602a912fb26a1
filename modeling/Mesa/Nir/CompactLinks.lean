import Mesa.Nir.CompactTwice

/-! `nir_compact_varyings` moves a producer output and the consumer inputs at its place by one
table, so they stay linked: when every record finds a place, an output and an input share a
place afterwards exactly when they did before. The numbered outputs' places go to distinct
places off every unmoveable variable's, and a generic input is at a numbered output's place or
is unmoveable itself.

The table has entries only at numbered outputs' places: every record the walks of
`gather_varying_component_info` set, the TCS walk included, is of a variable whose
`store_varying_info_idx` number is not zero. So nothing else moves, in any run. -/
namespace Mesa.Nir

theorem eq_map_some_of_isSome {α : Type} : ∀ {options : List (Option α)},
    (∀ p ∈ options, p.isSome = true) → ∃ values : List α, options = values.map some
  | [], _ => ⟨[],rfl⟩
  | p :: options, all => by
    obtain ⟨a,rfl⟩ := Option.isSome_iff_exists.mp (all p (List.mem_cons_self p options))
    obtain ⟨values,rfl⟩ := eq_map_some_of_isSome fun q member => all q (List.mem_cons_of_mem _ member)
    exact ⟨a :: values,rfl⟩

section Preconditions

variable {producer consumer : NirShader} (pre : CompactPreconditions producer consumer)
include pre

theorem CompactPreconditions.newPlace_eq_iff {remap : RemapTable}
    (apart : MovesApart remap (producer.packableOutputs.map tableIndex)
      (fun i => ∃ w, UnmoveableIn producer consumer w ∧ tableIndex w = i))
    {u v : NirVariable} (output : u ∈ producer.genericVars .shaderOut) (input : v ∈ consumer.genericVars .shaderIn) :
    remap.newPlace (tableIndex u) = remap.newPlace (tableIndex v) ↔ tableIndex u = tableIndex v := by
  have stays : ∀ i, i ∉ producer.packableOutputs.map tableIndex → remap.newPlace i = i :=
    fun i absent => if_pos (apart.outside i absent)
  refine ⟨fun same => ?_,fun same => by rw [same]⟩
  by_cases numbered : tableIndex u ∈ producer.packableOutputs.map tableIndex <;>
    by_cases numbered' : tableIndex v ∈ producer.packableOutputs.map tableIndex
  · exact apart.injective _ numbered _ numbered' same
  · rw [stays _ numbered'] at same
    exact absurd ⟨v,(pre.numbered_or_unmoveable input).resolve_left numbered',same.symm⟩ (apart.avoids _ numbered)
  · rw [stays _ numbered] at same
    exact absurd ⟨u,pre.unmoveable_of_unnumbered output numbered,same⟩ (apart.avoids _ numbered')
  · rwa [stays _ numbered,stays _ numbered'] at same

end Preconditions

theorem place_ne_of_generic {a b : NirVariable} (generic : isGenericLocation a.location = true)
    (builtin : isGenericLocation b.location = false) : a.place ≠ b.place := fun same => by
  have location : a.location = b.location := congrArg Prod.fst same
  rw [location,builtin] at generic
  cases generic

/-- When the preconditions of the relocation law hold and every record finds a place,
`nir_compact_varyings` leaves an output of the producer and an input of the consumer at one
place exactly when they were at one place before. -/
theorem compaction_keeps_links {sort : List VaryingComponent → List VaryingComponent} (qsort : QsortOrder sort)
    (producer consumer : NirShader) (defaultToSmoothInterp : Bool) (pre : CompactPreconditions producer consumer)
    (placed : ∀ p ∈ placements ⟨unmoveableComps producer consumer defaultToSmoothInterp,0,0⟩
      (sort (gatherVaryingComponentInfo producer consumer defaultToSmoothInterp)), p.isSome = true) :
    let moved := nirCompactVaryings sort producer consumer defaultToSmoothInterp
    ∀ (k k' : Nat) (u v u' v' : NirVariable), producer.vars[k]? = some u → moved.1.vars[k]? = some u' →
      consumer.vars[k']? = some v → moved.2.vars[k']? = some v' → u.mode = .shaderOut → v.mode = .shaderIn →
      (u'.place = v'.place ↔ u.place = v.place) := by
  intro moved k k' u v u' v' before after before' after' output input
  obtain ⟨places,placedEq⟩ := eq_map_some_of_isSome placed
  have apart := pre.firstRun_movesApart qsort defaultToSmoothInterp placedEq
  obtain ⟨-,-,outputs⟩ := compactComponents_producer sort producer consumer
    (unmoveableComps producer consumer defaultToSmoothInterp) defaultToSmoothInterp
  obtain ⟨-,-,inputs⟩ := compactComponents_consumer sort producer consumer
    (unmoveableComps producer consumer defaultToSmoothInterp) defaultToSmoothInterp
  have uMember := List.getElem?_mem before
  have vMember := List.getElem?_mem before'
  rw [show moved.1.vars = _ from outputs,List.getElem?_map,before,Option.map_some',Option.some_inj] at after
  rw [show moved.2.vars = _ from inputs,List.getElem?_map,before',Option.map_some',Option.some_inj] at after'
  subst after after'
  have keeps := isGenericLocation_remapIfGeneric apart.generic
  cases generic : isGenericLocation u.location <;> cases generic' : isGenericLocation v.location
  case true.true =>
    rw [remapIfGeneric_of_generic _ output generic,remapIfGeneric_of_generic _ input generic',
      ← tableIndex_eq_iff (isGenericLocation_remapVariable apart.generic u generic)
        (isGenericLocation_remapVariable apart.generic v generic'),← tableIndex_eq_iff generic generic',
      tableIndex_remapVariable apart.generic,tableIndex_remapVariable apart.generic]
    exact pre.newPlace_eq_iff apart (mem_genericVars.mpr ⟨uMember,output,generic⟩)
      (mem_genericVars.mpr ⟨vMember,input,generic'⟩)
  case true.false =>
    exact iff_of_false (place_ne_of_generic (by rw [keeps,generic]) (by rw [keeps,generic']))
      (place_ne_of_generic generic generic')
  case false.true =>
    exact iff_of_false (fun same => place_ne_of_generic (by rw [keeps,generic']) (by rw [keeps,generic]) same.symm)
      fun same => place_ne_of_generic generic' generic same.symm
  case false.false => simp [remapIfGeneric,generic,generic']

/-- A smooth `vec4` at `VAR0`, and float scalars at `VAR2.x` and `VAR1.x`, written by a vertex
shader and read by a fragment shader: every record finds a place. -/
def vsVec4Scalars : NirShader :=
  .ofVars .vertex [.plain (.vector .float 4) .shaderOut 32 0,.plain (.vector .float 1) .shaderOut 34 0,
    .plain (.vector .float 1) .shaderOut 33 0] []

def fsVec4Scalars : NirShader :=
  .ofVars .fragment [.plain (.vector .float 4) .shaderIn 32 0,.plain (.vector .float 1) .shaderIn 34 0,
    .plain (.vector .float 1) .shaderIn 33 0] [[.loadDeref 0 0,.loadDeref 1 1,.loadDeref 2 2]]

theorem compaction_keeps_links_vec4_scalars :
    QsortOrder stableQsort ∧ CompactPreconditions vsVec4Scalars fsVec4Scalars ∧
    (∀ p ∈ placements ⟨unmoveableComps vsVec4Scalars fsVec4Scalars true,0,0⟩
      (stableQsort (gatherVaryingComponentInfo vsVec4Scalars fsVec4Scalars true)), p.isSome = true) ∧
    let moved := nirCompactVaryings stableQsort vsVec4Scalars fsVec4Scalars true
    ∀ (k k' : Nat) (u v u' v' : NirVariable), vsVec4Scalars.vars[k]? = some u → moved.1.vars[k]? = some u' →
      fsVec4Scalars.vars[k']? = some v → moved.2.vars[k']? = some v' → u.mode = .shaderOut →
      v.mode = .shaderIn → (u'.place = v'.place ↔ u.place = v.place) :=
  have pre : CompactPreconditions vsVec4Scalars fsVec4Scalars :=
    ⟨by decide,by decide,by decide,by decide⟩
  have placed : ∀ p ∈ placements ⟨unmoveableComps vsVec4Scalars fsVec4Scalars true,0,0⟩
      (stableQsort (gatherVaryingComponentInfo vsVec4Scalars fsVec4Scalars true)), p.isSome = true := by decide
  ⟨stableQsort_order,pre,placed,compaction_keeps_links stableQsort_order vsVec4Scalars fsVec4Scalars true pre placed⟩

/-! ### What compaction leaves in place -/

theorem foldl_numberOutput_ne_zero {i : Nat} : ∀ (outputs : List NirVariable) (acc : InfoIdx × Nat),
    (outputs.foldl numberOutput acc).1.getD i 0 ≠ 0 → acc.1.getD i 0 ≠ 0 ∨ i ∈ outputs.map tableIndex
  | [], _, set => .inl set
  | var :: outputs, acc, set => by
    rw [List.map_cons,List.mem_cons]
    rcases foldl_numberOutput_ne_zero outputs (numberOutput acc var) set with old | later
    · by_cases here : tableIndex var = i
      · exact .inr (.inl here.symm)
      · rw [numberOutput,List.getD_eq_getElem?_getD,List.getElem?_set_ne here,← List.getD_eq_getElem?_getD] at old
        exact .inl old
    · exact .inr (.inr later)

theorem gatherVaryingComponentInfo_places (producer consumer : NirShader) (defaultToSmoothInterp : Bool) :
    ∀ r ∈ gatherVaryingComponentInfo producer consumer defaultToSmoothInterp,
      tableIndex r.var ∈ producer.packableOutputs.map tableIndex := by
  intro r member
  rcases gatherVaryingComponentInfo_recorded producer consumer defaultToSmoothInterp with empty | ⟨-,recorded⟩
  · rw [empty] at member; cases member
  obtain ⟨n,bound,rfl⟩ := List.getElem_of_mem member
  obtain ⟨number,-⟩ := recorded n (gatherVaryingComponentInfo producer consumer defaultToSmoothInterp)[n]
    (by simp [bound])
  rw [infoIdx_of_generic _ (infoIdx_isGeneric number),Option.some_inj,storeVaryingInfoIdx_eq] at number
  refine (foldl_numberOutput_ne_zero _ _ (by rw [number]; omega)).resolve_left fun zero => zero ?_
  simp only [List.getD_eq_getElem?_getD,List.getElem?_replicate]
  split <;> rfl

theorem compactRemap_getD_of_unnumbered {sort : List VaryingComponent → List VaryingComponent} (qsort : QsortOrder sort)
    (producer consumer : NirShader) (assigned : AssignedTable) (defaultToSmoothInterp : Bool) {i : Nat}
    (unnumbered : i ∉ producer.packableOutputs.map tableIndex) :
    List.getD (compactRemap sort producer consumer assigned defaultToSmoothInterp) i ⟨0,0⟩ = ⟨0,0⟩ := by
  rw [compactRemap_eq,writeRemaps_getD_of_absent,RemapTable.getD_zero]
  intro p member _ same
  have record := (qsort _).1.subset (List.of_mem_zip member).1
  exact unnumbered (same ▸ gatherVaryingComponentInfo_places producer consumer defaultToSmoothInterp _ record)

theorem remapIfGeneric_compactRemap {sort : List VaryingComponent → List VaryingComponent} (qsort : QsortOrder sort)
    {producer : NirShader} (consumer : NirShader) (assigned : AssignedTable) (defaultToSmoothInterp : Bool)
    (mode : NirVariableMode) {var : NirVariable} (apart : ∀ w ∈ producer.packableOutputs, w.place ≠ var.place) :
    remapIfGeneric mode (compactRemap sort producer consumer assigned defaultToSmoothInterp) var = var := by
  cases generic : isGenericLocation var.location
  · simp [remapIfGeneric,generic]
  · refine remapIfGeneric_of_empty mode ?_
    rw [compactRemap_getD_of_unnumbered qsort producer consumer assigned defaultToSmoothInterp fun numbered => ?_]
    obtain ⟨w,member,same⟩ := List.mem_map.mp numbered
    have output := (mem_genericVars.mp (mem_packableOutputs.mp member).1).2.2
    exact apart w member ((tableIndex_eq_iff output generic).mp same)

/-- `nir_compact_varyings` moves no variable at a place where no numbered output is (a
generic output, not always active, of a type packing supports): built-ins, always-active
outputs, outputs packing does not support and the inputs at their places stay as they are,
for a TCS producer too and whether or not every record finds a place. -/
theorem compaction_moves_only_packable_places {sort : List VaryingComponent → List VaryingComponent}
    (qsort : QsortOrder sort) (producer consumer : NirShader) (defaultToSmoothInterp : Bool) :
    let moved := nirCompactVaryings sort producer consumer defaultToSmoothInterp
    (∀ (k : Nat) (u : NirVariable), producer.vars[k]? = some u →
      (∀ w ∈ producer.packableOutputs, w.place ≠ u.place) → moved.1.vars[k]? = some u) ∧
    ∀ (k : Nat) (v : NirVariable), consumer.vars[k]? = some v →
      (∀ w ∈ producer.packableOutputs, w.place ≠ v.place) → moved.2.vars[k]? = some v := by
  intro moved
  obtain ⟨-,-,outputs⟩ := compactComponents_producer sort producer consumer
    (unmoveableComps producer consumer defaultToSmoothInterp) defaultToSmoothInterp
  obtain ⟨-,-,inputs⟩ := compactComponents_consumer sort producer consumer
    (unmoveableComps producer consumer defaultToSmoothInterp) defaultToSmoothInterp
  refine ⟨fun k u before apart => ?_,fun k v before apart => ?_⟩
  · rw [show moved.1.vars = _ from outputs,List.getElem?_map,before,Option.map_some',
      remapIfGeneric_compactRemap qsort consumer _ defaultToSmoothInterp .shaderOut apart]
  · rw [show moved.2.vars = _ from inputs,List.getElem?_map,before,Option.map_some',
      remapIfGeneric_compactRemap qsort consumer _ defaultToSmoothInterp .shaderIn apart]

/-- The transform feedback case: the always-active scalar at `VAR0.x` is at no numbered
output's place. -/
theorem compaction_moves_only_packable_places_xfb :
    QsortOrder stableQsort ∧
    let moved := nirCompactVaryings stableQsort vsXfbScalar fsXfbScalar true
    (∀ (k : Nat) (u : NirVariable), vsXfbScalar.vars[k]? = some u →
      (∀ w ∈ vsXfbScalar.packableOutputs, w.place ≠ u.place) → moved.1.vars[k]? = some u) ∧
    ∀ (k : Nat) (v : NirVariable), fsXfbScalar.vars[k]? = some v →
      (∀ w ∈ vsXfbScalar.packableOutputs, w.place ≠ v.place) → moved.2.vars[k]? = some v :=
  ⟨stableQsort_order,compaction_moves_only_packable_places stableQsort_order vsXfbScalar fsXfbScalar true⟩

end Mesa.Nir

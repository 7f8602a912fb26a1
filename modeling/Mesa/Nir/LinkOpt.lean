import Mesa.Nir.Compact

/-! `nir_link_opt_varyings`: the reverse walk over the producer's last block, and the
rewrites it makes to the consumer's input loads. A load's uses are tracked through the
`nir_ssa_def_rewrite_uses` calls, in the order the pass makes them. -/
namespace Mesa.Nir

/-- `does_varying_match`. -/
def doesVaryingMatch (outVar inVar : NirVariable) : Bool :=
  inVar.location == outVar.location && inVar.locationFrac == outVar.locationFrac

/-- `get_matching_input_var`: the first input that matches, by its place in the list. -/
def getMatchingInputVar (consumer : NirShader) (outVar : NirVariable) : Option Nat :=
  consumer.vars.findIdx? fun var => var.mode == .shaderIn && doesVaryingMatch outVar var

/-- `can_replace_varying`. -/
def canReplaceVarying (outVar : NirVariable) : Bool :=
  if outVar.type.isArray || outVar.type.isDualSlot || outVar.type.isMatrix || outVar.type.isStructOrIfc then
    false
  else if !outVar.type.isScalar then false
  else if outVar.location < varyingSlotVar0 ∨ maxVarying ≤ outVar.location - varyingSlotVar0 then false
  else true

/-- What `nir_ssa_def_rewrite_uses` moves a load's uses to: a new constant, or the SSA value
of a new load. -/
inductive Replacement
  | const (value : Nat)
  | ssa (definition : Nat)
  deriving DecidableEq, Repr

/-- The consumer as the pass leaves it: its instructions, with the loads `nir_load_var`
inserted, the rewrites made so far, and the next free SSA name. -/
structure ConsumerState where
  blocks : List (List NirInstr)
  rewrites : List (Nat × Replacement)
  nextSsa : Nat

/-- The input a consumer instruction loads, with the load's SSA name. -/
def NirShader.inputLoad? (consumer : NirShader) : NirInstr → Option (Nat × NirVariable)
  | .loadDeref dest k =>
    match consumer.vars.get? k with
    | some var => if var.mode = .shaderIn then some (dest,var) else none
    | none => none
  | _ => none

/-- The loop body of `replace_constant_input`: the uses of a load of an input matching the
output are rewritten to the stored constant, and `progress` is set. -/
def replaceConstantStep (consumer : NirShader) (outVar : NirVariable) (value : Nat)
    (acc : List (Nat × Replacement) × Bool) (instr : NirInstr) : List (Nat × Replacement) × Bool :=
  match consumer.inputLoad? instr with
  | some (dest,inVar) => if doesVaryingMatch outVar inVar then (acc.1 ++ [(dest,.const value)],true) else acc
  | none => acc

/-- `replace_constant_input`. -/
def replaceConstantInput (consumer : NirShader) (state : ConsumerState) (outVar : NirVariable)
    (value : Nat) : ConsumerState × Bool :=
  let walk := state.blocks.flatten.foldl (replaceConstantStep consumer outVar value) (state.rewrites,false)
  ({ state with rewrites := walk.1 },walk.2)

/-- The instruction walk of `replace_duplicate_input` over one block: a matching load gets a
new load of `input_var` before it, its uses move to the new load, and `progress` is set. -/
def replaceDuplicateBlock (consumer : NirShader) (inputVar : Nat) (dupOutVar : NirVariable) :
    List NirInstr → List (Nat × Replacement) → Nat → Bool → List NirInstr × List (Nat × Replacement) × Nat × Bool
  | [], rewrites, next, progress => ([],rewrites,next,progress)
  | instr :: rest, rewrites, next, progress =>
    let matched := match consumer.inputLoad? instr, consumer.vars.get? inputVar with
      | some (dest,inVar), some input =>
        if doesVaryingMatch dupOutVar inVar && inVar.interpolation == input.interpolation &&
            getInterpLoc inVar == getInterpLoc input then some dest else none
      | _, _ => none
    match matched with
    | some dest =>
      let (rest',rewrites',next',progress') := replaceDuplicateBlock consumer inputVar dupOutVar rest
        (rewrites ++ [(dest,.ssa next)]) (next + 1) true
      (.loadDeref next inputVar :: instr :: rest',rewrites',next',progress')
    | none =>
      let (rest,rewrites,next,progress) := replaceDuplicateBlock consumer inputVar dupOutVar rest rewrites next
        progress
      (instr :: rest,rewrites,next,progress)

/-- `replace_duplicate_input`. -/
def replaceDuplicateInput (consumer : NirShader) (state : ConsumerState) (inputVar : Nat)
    (dupOutVar : NirVariable) : ConsumerState × Bool :=
  let walk := state.blocks.foldl (fun (blocks,rewrites,next,progress) block =>
    let (block,rewrites,next,progress) := replaceDuplicateBlock consumer inputVar dupOutVar block rewrites next
      progress
    (blocks ++ [block],rewrites,next,progress)) ([],state.rewrites,state.nextSsa,false)
  (⟨walk.1,walk.2.1,walk.2.2.1⟩,walk.2.2.2)

/-- The loop body of the reverse walk on one instruction: the consumer, the hash table from
SSA values to the input first found for them, and the progress flag. -/
def linkOptStep (producer consumer : NirShader) (acc : ConsumerState × List (Nat × Nat) × Bool)
    (instr : NirInstr) : ConsumerState × List (Nat × Nat) × Bool :=
  let (state,varyingValues,progress) := acc
  match instr with
  | .storeDeref k value =>
    match producer.vars.get? k with
    | some outVar =>
      if outVar.mode ≠ .shaderOut ∨ !canReplaceVarying outVar then acc
      else match value with
        | .const c =>
          let (state,changed) := replaceConstantInput consumer state outVar c
          (state,varyingValues,progress || changed)
        | .ssa x =>
          match varyingValues.lookup x with
          | some inputVar =>
            let (state,changed) := replaceDuplicateInput consumer state inputVar outVar
            (state,varyingValues,progress || changed)
          | none =>
            match getMatchingInputVar consumer outVar with
            | some inVar => (state,varyingValues ++ [(x,inVar)],progress)
            | none => acc
    | none => acc
  | _ => acc

/-- `nir_link_opt_varyings`: the consumer and the progress flag; nothing for stage pairs the
pass does not handle. The SSA names the pass creates start past `firstFreeSsa`. -/
def nirLinkOptVaryings (producer consumer : NirShader) (firstFreeSsa : Nat) : ConsumerState × Bool :=
  if consumer.stage ≠ .fragment ∨ (producer.stage ≠ .vertex ∧ producer.stage ≠ .tessEval) then
    (⟨consumer.blocks,[],firstFreeSsa⟩,false)
  else
    let lastBlock := producer.blocks.getLastD []
    let (state,_,progress) := lastBlock.reverse.foldl (linkOptStep producer consumer)
      (⟨consumer.blocks,[],firstFreeSsa⟩,[],false)
    (state,progress)

/-- What the uses of an SSA value read once the rewrites are applied: the first rewrite of
a value moves its uses, a later one finds none to move. -/
def ConsumerState.resolve (state : ConsumerState) : Nat → Nat → Replacement
  | 0, ssa => .ssa ssa
  | fuel + 1, ssa =>
    match state.rewrites.lookup ssa with
    | some (.const value) => .const value
    | some (.ssa next) => state.resolve fuel next
    | none => .ssa ssa

/-- The value the last store to a variable in a block writes. -/
def lastStore (block : List NirInstr) (k : Nat) : Option StoreValue :=
  block.foldl (fun last instr =>
    match instr with
    | .storeDeref j value => if j = k then some value else last
    | _ => last) none

/-- A vertex shader whose last block stores a constant to `VAR0.x` and then a computed value,
and a fragment shader loading `VAR0.x` into SSA value 0. -/
def vsStoresTwice : NirShader :=
  .ofVars .vertex [.plain (.vector .float 1) .shaderOut 32 0] [[.storeDeref 0 (.const 1),.storeDeref 0 (.ssa 7)]]

def fsLoadsOnce : NirShader :=
  .ofVars .fragment [.plain (.vector .float 1) .shaderIn 32 0] [[.loadDeref 0 0]]

/-- The reverse walk meets the computed store first and only records it; it then meets the
constant store and rewrites the load to that constant, which the output no longer holds. -/
theorem earlier_constant_store_replaces_load :
    lastStore (vsStoresTwice.blocks.getLastD []) 0 = some (.ssa 7) ∧
    (nirLinkOptVaryings vsStoresTwice fsLoadsOnce 8).1.resolve 1 0 = .const 1 := by
  decide

end Mesa.Nir

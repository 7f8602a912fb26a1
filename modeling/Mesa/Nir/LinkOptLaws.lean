import Mesa.Nir.LinkOpt

/-! What `nir_link_opt_varyings` keeps. A varying carries the value the producer's last block
last stores to an output at its place. When that block stores each place at most once, which
is the code's own premise ("we can be sure this is the only possible value"), every rewrite
the pass makes moves a load's uses to the constant its varying carries, or to a new load of
an input whose varying carries the same SSA value. So once the rewrites are applied, every
load of the consumer still reads what its varying carries. -/
namespace Mesa.Nir

/-- The values the producer's last block stores to outputs at a place, in order. -/
def placeStores (producer : NirShader) (location : Int) (frac : Nat) : List StoreValue :=
  (producer.blocks.getLastD []).filterMap fun instr =>
    match instr with
    | .storeDeref k value =>
      match producer.vars.get? k with
      | some var =>
        if var.mode = .shaderOut ∧ var.location = location ∧ var.locationFrac = frac then some value
        else none
      | none => none
    | _ => none

/-- What the varying an input reads carries: the last store to its place in the last block. -/
def carried (producer : NirShader) (var : NirVariable) : Option StoreValue :=
  (placeStores producer var.location var.locationFrac).getLast?

/-- Two inputs read the same value: they share a place, or their varyings carry one SSA value. -/
def SameVarying (producer : NirShader) (var var' : NirVariable) : Prop :=
  var.location = var'.location ∧ var.locationFrac = var'.locationFrac ∨
    ∃ x, carried producer var = some (.ssa x) ∧ carried producer var' = some (.ssa x)

/-- A load of `var` whose uses read `r` reads what its varying carries: the constant it
carries, or the result of a load of an input reading the same value. -/
def Reads (producer consumer : NirShader) (blocks : List (List NirInstr)) (r : Replacement)
    (var : NirVariable) : Prop :=
  match r with
  | .const c => carried producer var = some (.const c)
  | .ssa d => ∃ k input, .loadDeref d k ∈ blocks.flatten ∧ consumer.vars.get? k = some input ∧
      input.mode = .shaderIn ∧ SameVarying producer var input

section Varyings

variable {producer : NirShader}

theorem carried_of_place {var var' : NirVariable} (location : var.location = var'.location)
    (frac : var.locationFrac = var'.locationFrac) : carried producer var = carried producer var' := by
  rw [carried,carried,location,frac]

theorem SameVarying.refl (var : NirVariable) : SameVarying producer var var := .inl ⟨rfl,rfl⟩

theorem SameVarying.trans {var var' var'' : NirVariable} :
    SameVarying producer var var' → SameVarying producer var' var'' → SameVarying producer var var''
  | .inl ⟨location,frac⟩, .inl ⟨location',frac'⟩ => .inl ⟨location.trans location',frac.trans frac'⟩
  | .inl ⟨location,frac⟩, .inr ⟨x,here,there⟩ => .inr ⟨x,(carried_of_place location frac).trans here,there⟩
  | .inr ⟨x,here,there⟩, .inl ⟨location,frac⟩ => .inr ⟨x,here,(carried_of_place location frac).symm.trans there⟩
  | .inr ⟨x,here,there⟩, .inr ⟨y,here',there'⟩ => by
    obtain rfl : x = y := by simpa [there] using here'
    exact .inr ⟨x,here,there'⟩

theorem carried_of_store (storedOnce : ∀ location frac, (placeStores producer location frac).length ≤ 1)
    {k : Nat} {value : StoreValue} (stored : .storeDeref k value ∈ producer.blocks.getLastD [])
    {outVar : NirVariable} (found : producer.vars.get? k = some outVar) (output : outVar.mode = .shaderOut)
    {var : NirVariable} (matching : doesVaryingMatch outVar var = true) :
    carried producer var = some value := by
  simp only [doesVaryingMatch,Bool.and_eq_true,beq_iff_eq] at matching
  have mem : value ∈ placeStores producer var.location var.locationFrac :=
    List.mem_filterMap.mpr ⟨_,stored,by simp only [found,output,matching.1,matching.2,and_self,↓reduceIte]⟩
  obtain ⟨before,after,split⟩ := List.append_of_mem mem
  have length := storedOnce var.location var.locationFrac
  rw [carried,split]
  rw [split] at length
  simp only [List.length_append,List.length_cons] at length
  obtain ⟨rfl,rfl⟩ : before = [] ∧ after = [] := by
    constructor <;> (apply List.eq_nil_of_length_eq_zero; omega)
  rfl

end Varyings

theorem inputLoad?_eq_some {consumer : NirShader} {instr : NirInstr} {dest : Nat} {var : NirVariable} :
    consumer.inputLoad? instr = some (dest,var) ↔
      ∃ k, instr = .loadDeref dest k ∧ consumer.vars.get? k = some var ∧ var.mode = .shaderIn := by
  cases instr with
  | loadDeref dest' k =>
    simp only [NirShader.inputLoad?,NirInstr.loadDeref.injEq]
    split
    case h_1 var' found =>
      constructor
      · intro loaded
        split at loaded
        case isTrue input => cases loaded; exact ⟨k,⟨rfl,rfl⟩,found,input⟩
        case isFalse => cases loaded
      · rintro ⟨_,⟨rfl,rfl⟩,get,input⟩
        rw [found,Option.some.injEq] at get
        subst get
        simp [input]
    case h_2 found =>
      simp only [reduceCtorEq,false_iff,not_exists,not_and]
      rintro _ ⟨rfl,rfl⟩ get
      rw [found] at get
      cases get
  | _ => simp [NirShader.inputLoad?]

/-- The loads `replace_constant_input` rewrites, in instruction order: loads of inputs at the
output's place. -/
def constantLoads (consumer : NirShader) (outVar : NirVariable) (instrs : List NirInstr) : List Nat :=
  instrs.filterMap fun instr =>
    match consumer.inputLoad? instr with
    | some (dest,inVar) => if doesVaryingMatch outVar inVar then some dest else none
    | none => none

theorem foldl_replaceConstantStep (consumer : NirShader) (outVar : NirVariable) (value : Nat) :
    ∀ (instrs : List NirInstr) (rewrites : List (Nat × Replacement)) (progress : Bool),
      instrs.foldl (replaceConstantStep consumer outVar value) (rewrites,progress) =
        (rewrites ++ (constantLoads consumer outVar instrs).map (·,.const value),
          progress || !(constantLoads consumer outVar instrs).isEmpty)
  | [], rewrites, progress => by simp [constantLoads]
  | instr :: instrs, rewrites, progress => by
    rw [List.foldl_cons]
    cases loaded : consumer.inputLoad? instr with
    | none => simp [replaceConstantStep,constantLoads,loaded,foldl_replaceConstantStep consumer outVar value instrs]
    | some load =>
      by_cases matching : doesVaryingMatch outVar load.2 = true <;>
        simp [replaceConstantStep,constantLoads,loaded,matching,foldl_replaceConstantStep consumer outVar value instrs]

theorem replaceConstantInput_eq (consumer : NirShader) (state : ConsumerState) (outVar : NirVariable)
    (value : Nat) :
    replaceConstantInput consumer state outVar value =
      ({ state with rewrites := state.rewrites ++
          (constantLoads consumer outVar state.blocks.flatten).map (·,.const value) },
        !(constantLoads consumer outVar state.blocks.flatten).isEmpty) := by
  simp only [replaceConstantInput,foldl_replaceConstantStep,Bool.false_or]

theorem mem_constantLoads {consumer : NirShader} {instrs : List NirInstr} {outVar : NirVariable}
    {dest : Nat} (mem : dest ∈ constantLoads consumer outVar instrs) :
    ∃ k var, .loadDeref dest k ∈ instrs ∧ consumer.vars.get? k = some var ∧
      var.mode = .shaderIn ∧ doesVaryingMatch outVar var = true := by
  obtain ⟨instr,member,found⟩ := List.mem_filterMap.mp mem
  split at found
  case h_1 dest' var loaded =>
    obtain ⟨k,rfl,get,input⟩ := inputLoad?_eq_some.mp loaded
    split at found
    case isTrue matching => cases found; exact ⟨k,var,member,get,input,matching⟩
    case isFalse => cases found
  case h_2 => cases found

/-- What a walk of `replace_duplicate_input` does, from the instructions `before` to `after`:
it keeps every instruction, adds only loads of `input_var` under fresh names from `next` on,
keeps every rewrite, adds only rewrites of a load of an input at the place of `dup_out_var` to
one of the new loads, and sets the progress flag exactly when it adds a rewrite. -/
structure DuplicateWalk (consumer : NirShader) (inputVar : Nat) (dupOutVar : NirVariable)
    (before after : List NirInstr) (rewrites rewrites' : List (Nat × Replacement)) (next next' : Nat)
    (progress progress' : Bool) : Prop where
  grows : next ≤ next'
  kept : ∀ instr ∈ before, instr ∈ after
  added : ∀ instr ∈ after, instr ∈ before ∨ ∃ n, next ≤ n ∧ n < next' ∧ instr = .loadDeref n inputVar
  keptRewrites : ∀ e ∈ rewrites, e ∈ rewrites'
  addedRewrites : ∀ e ∈ rewrites', e ∈ rewrites ∨ ∃ dest n, e = (dest,.ssa n) ∧
    .loadDeref n inputVar ∈ after ∧ ∃ k var, .loadDeref dest k ∈ before ∧
      consumer.vars.get? k = some var ∧ var.mode = .shaderIn ∧ doesVaryingMatch dupOutVar var = true
  longer : rewrites.length ≤ rewrites'.length
  flagged : progress' = true ↔ progress = true ∨ rewrites.length < rewrites'.length

section Walk

variable {consumer : NirShader} {inputVar : Nat} {dupOutVar : NirVariable}

theorem DuplicateWalk.refl (instrs : List NirInstr) (rewrites : List (Nat × Replacement)) (next : Nat)
    (progress : Bool) :
    DuplicateWalk consumer inputVar dupOutVar instrs instrs rewrites rewrites next next progress progress :=
  ⟨le_rfl,fun _ => id,fun _ mem => .inl mem,fun _ => id,fun _ mem => .inl mem,le_rfl,
    (or_iff_left (Nat.lt_irrefl _)).symm⟩

theorem DuplicateWalk.append {before₁ after₁ before₂ after₂ : List NirInstr}
    {rewrites₀ rewrites₁ rewrites₂ : List (Nat × Replacement)} {next₀ next₁ next₂ : Nat}
    {progress₀ progress₁ progress₂ : Bool}
    (first : DuplicateWalk consumer inputVar dupOutVar before₁ after₁ rewrites₀ rewrites₁ next₀ next₁
      progress₀ progress₁)
    (second : DuplicateWalk consumer inputVar dupOutVar before₂ after₂ rewrites₁ rewrites₂ next₁ next₂
      progress₁ progress₂) :
    DuplicateWalk consumer inputVar dupOutVar (before₁ ++ before₂) (after₁ ++ after₂) rewrites₀ rewrites₂
      next₀ next₂ progress₀ progress₂ where
  grows := first.grows.trans second.grows
  kept instr mem := by
    rcases List.mem_append.mp mem with mem | mem
    exacts [List.mem_append_left _ (first.kept instr mem),List.mem_append_right _ (second.kept instr mem)]
  added instr mem := by
    have := first.grows; have := second.grows
    rcases List.mem_append.mp mem with mem | mem
    · rcases first.added instr mem with old | ⟨n,low,high,rfl⟩
      exacts [.inl (List.mem_append_left _ old),.inr ⟨n,low,by omega,rfl⟩]
    · rcases second.added instr mem with old | ⟨n,low,high,rfl⟩
      exacts [.inl (List.mem_append_right _ old),.inr ⟨n,by omega,high,rfl⟩]
  keptRewrites e mem := second.keptRewrites e (first.keptRewrites e mem)
  addedRewrites e mem := by
    rcases second.addedRewrites e mem with mem | ⟨dest,n,rfl,load,k,var,loaded,found,input,matching⟩
    · rcases first.addedRewrites e mem with old | ⟨dest,n,rfl,load,k,var,loaded,found,input,matching⟩
      · exact .inl old
      · exact .inr ⟨dest,n,rfl,List.mem_append_left _ load,k,var,List.mem_append_left _ loaded,found,input,
          matching⟩
    · exact .inr ⟨dest,n,rfl,List.mem_append_right _ load,k,var,List.mem_append_right _ loaded,found,input,
        matching⟩
  longer := first.longer.trans second.longer
  flagged := by
    have := first.longer; have := second.longer
    rw [second.flagged,first.flagged,or_assoc]
    exact or_congr_right ⟨fun grew => by omega,fun grew => by omega⟩

theorem DuplicateWalk.load {dest k : Nat} {var : NirVariable} (found : consumer.vars.get? k = some var)
    (input : var.mode = .shaderIn) (matching : doesVaryingMatch dupOutVar var = true)
    (rewrites : List (Nat × Replacement)) (next : Nat) (progress : Bool) :
    DuplicateWalk consumer inputVar dupOutVar [.loadDeref dest k] [.loadDeref next inputVar,.loadDeref dest k]
      rewrites (rewrites ++ [(dest,.ssa next)]) next (next + 1) progress true where
  grows := by omega
  kept instr mem := List.mem_cons_of_mem _ mem
  added instr mem := by
    rcases List.mem_cons.mp mem with rfl | mem
    exacts [.inr ⟨next,le_rfl,by omega,rfl⟩,.inl mem]
  keptRewrites e mem := List.mem_append_left _ mem
  addedRewrites e mem := by
    rcases List.mem_append.mp mem with old | new
    · exact .inl old
    · obtain rfl := List.mem_singleton.mp new
      exact .inr ⟨dest,next,rfl,List.mem_cons_self _ _,k,var,List.mem_singleton_self _,found,input,matching⟩
  longer := by simp
  flagged := by simp

theorem replaceDuplicateBlock_walk (consumer : NirShader) (inputVar : Nat) (dupOutVar : NirVariable) :
    ∀ (block : List NirInstr) (rewrites : List (Nat × Replacement)) (next : Nat) (progress : Bool),
      DuplicateWalk consumer inputVar dupOutVar block
        (replaceDuplicateBlock consumer inputVar dupOutVar block rewrites next progress).1 rewrites
        (replaceDuplicateBlock consumer inputVar dupOutVar block rewrites next progress).2.1 next
        (replaceDuplicateBlock consumer inputVar dupOutVar block rewrites next progress).2.2.1 progress
        (replaceDuplicateBlock consumer inputVar dupOutVar block rewrites next progress).2.2.2
  | [], rewrites, next, progress => DuplicateWalk.refl [] rewrites next progress
  | instr :: rest, rewrites, next, progress => by
    simp only [replaceDuplicateBlock]
    split
    case h_1 dest matched =>
      obtain ⟨k,var,rfl,found,input,matching⟩ : ∃ k var, instr = .loadDeref dest k ∧
          consumer.vars.get? k = some var ∧ var.mode = .shaderIn ∧ doesVaryingMatch dupOutVar var = true := by
        split at matched
        case h_1 dest' var input load _ =>
          split at matched
          case isTrue condition =>
            cases matched
            obtain ⟨k,rfl,found,mode⟩ := inputLoad?_eq_some.mp load
            simp only [Bool.and_eq_true] at condition
            exact ⟨k,var,rfl,found,mode,condition.1.1⟩
          case isFalse => cases matched
        case h_2 => cases matched
      exact (DuplicateWalk.load found input matching rewrites next progress).append
        (replaceDuplicateBlock_walk consumer inputVar dupOutVar rest _ (next + 1) true)
    case h_2 =>
      exact (DuplicateWalk.refl [instr] rewrites next progress).append
        (replaceDuplicateBlock_walk consumer inputVar dupOutVar rest rewrites next progress)

theorem foldl_duplicateWalk
    {F : List (List NirInstr) × List (Nat × Replacement) × Nat × Bool → List NirInstr →
      List (List NirInstr) × List (Nat × Replacement) × Nat × Bool}
    (step : ∀ done rewrites next progress block, F (done,rewrites,next,progress) block =
      (done ++ [(replaceDuplicateBlock consumer inputVar dupOutVar block rewrites next progress).1],
        (replaceDuplicateBlock consumer inputVar dupOutVar block rewrites next progress).2.1,
        (replaceDuplicateBlock consumer inputVar dupOutVar block rewrites next progress).2.2.1,
        (replaceDuplicateBlock consumer inputVar dupOutVar block rewrites next progress).2.2.2)) :
    ∀ (blocks done : List (List NirInstr)) (rewrites : List (Nat × Replacement)) (next : Nat) (progress : Bool),
      ∃ walked, (blocks.foldl F (done,rewrites,next,progress)).1 = done ++ walked ∧
        DuplicateWalk consumer inputVar dupOutVar blocks.flatten walked.flatten rewrites
          (blocks.foldl F (done,rewrites,next,progress)).2.1 next (blocks.foldl F (done,rewrites,next,progress)).2.2.1
          progress (blocks.foldl F (done,rewrites,next,progress)).2.2.2
  | [], done, rewrites, next, progress => ⟨[],by simp,DuplicateWalk.refl [] rewrites next progress⟩
  | block :: blocks, done, rewrites, next, progress => by
    rw [List.foldl_cons,step]
    obtain ⟨walked,blocksEq,walk⟩ := foldl_duplicateWalk step blocks _ _ _ _
    refine ⟨_ :: walked,by rw [blocksEq,List.append_assoc,List.singleton_append],?_⟩
    simpa only [List.flatten_cons] using
      (replaceDuplicateBlock_walk consumer inputVar dupOutVar block rewrites next progress).append walk

theorem replaceDuplicateInput_walk (consumer : NirShader) (state : ConsumerState) (inputVar : Nat)
    (dupOutVar : NirVariable) :
    DuplicateWalk consumer inputVar dupOutVar state.blocks.flatten
      (replaceDuplicateInput consumer state inputVar dupOutVar).1.blocks.flatten state.rewrites
      (replaceDuplicateInput consumer state inputVar dupOutVar).1.rewrites state.nextSsa
      (replaceDuplicateInput consumer state inputVar dupOutVar).1.nextSsa false
      (replaceDuplicateInput consumer state inputVar dupOutVar).2 := by
  have fold : ∀ {F} (step : ∀ done rewrites next progress block, F (done,rewrites,next,progress) block =
      (done ++ [(replaceDuplicateBlock consumer inputVar dupOutVar block rewrites next progress).1],
        (replaceDuplicateBlock consumer inputVar dupOutVar block rewrites next progress).2.1,
        (replaceDuplicateBlock consumer inputVar dupOutVar block rewrites next progress).2.2.1,
        (replaceDuplicateBlock consumer inputVar dupOutVar block rewrites next progress).2.2.2)),
      DuplicateWalk consumer inputVar dupOutVar state.blocks.flatten
        (state.blocks.foldl F ([],state.rewrites,state.nextSsa,false)).1.flatten state.rewrites
        (state.blocks.foldl F ([],state.rewrites,state.nextSsa,false)).2.1 state.nextSsa
        (state.blocks.foldl F ([],state.rewrites,state.nextSsa,false)).2.2.1 false
        (state.blocks.foldl F ([],state.rewrites,state.nextSsa,false)).2.2.2 := fun step => by
    obtain ⟨walked,blocksEq,walk⟩ := foldl_duplicateWalk step state.blocks [] state.rewrites state.nextSsa false
    rwa [blocksEq,List.nil_append]
  unfold replaceDuplicateInput
  exact fold fun _ _ _ _ _ => rfl

end Walk

theorem Reads.mono {producer consumer : NirShader} {blocks blocks' : List (List NirInstr)}
    (kept : ∀ instr ∈ blocks.flatten, instr ∈ blocks'.flatten) {r : Replacement} {var : NirVariable} :
    Reads producer consumer blocks r var → Reads producer consumer blocks' r var := by
  cases r with
  | const c => exact id
  | ssa d => exact fun ⟨k,input,load,found,mode,same⟩ => ⟨k,input,kept _ load,found,mode,same⟩

theorem Reads.of_same {producer consumer : NirShader} {blocks : List (List NirInstr)} {r : Replacement}
    {var var' : NirVariable} (same : SameVarying producer var var') :
    Reads producer consumer blocks r var' → Reads producer consumer blocks r var := by
  cases r with
  | const c =>
    intro carries
    rcases same with ⟨location,frac⟩ | ⟨x,-,there⟩
    · exact (carried_of_place location frac).trans carries
    · cases carries.symm.trans there
  | ssa d => exact fun ⟨k,input,load,found,mode,same'⟩ => ⟨k,input,load,found,mode,same.trans same'⟩

/-- The invariant of the reverse walk of `nir_link_opt_varyings`: the consumer keeps its
instructions, its loads have distinct names below `nextSsa`, each load's name determines the
variable it loads, every rewrite is of such a load and faithful to the varying the load reads,
and every SSA value in the hash table is what the varying of its input carries. -/
structure LinkOptInv (producer consumer : NirShader) (state : ConsumerState)
    (varyingValues : List (Nat × Nat)) : Prop where
  kept : ∀ instr ∈ consumer.blocks.flatten, instr ∈ state.blocks.flatten
  fresh : ∀ d k, .loadDeref d k ∈ state.blocks.flatten → d < state.nextSsa
  determined : ∀ d k k', .loadDeref d k ∈ state.blocks.flatten → .loadDeref d k' ∈ state.blocks.flatten → k = k'
  rewritten : ∀ e ∈ state.rewrites, e.1 < state.nextSsa
  faithful : ∀ e ∈ state.rewrites, ∀ k var, .loadDeref e.1 k ∈ state.blocks.flatten →
    consumer.vars.get? k = some var → var.mode = .shaderIn → Reads producer consumer state.blocks e.2 var
  recorded : ∀ e ∈ varyingValues, ∃ input, consumer.vars.get? e.2 = some input ∧ input.mode = .shaderIn ∧
    carried producer input = some (.ssa e.1)

section Steps

variable {producer consumer : NirShader}
  (storedOnce : ∀ location frac, (placeStores producer location frac).length ≤ 1)
  {k : Nat} {value : StoreValue} (stored : .storeDeref k value ∈ producer.blocks.getLastD [])
  {outVar : NirVariable} (found : producer.vars.get? k = some outVar) (output : outVar.mode = .shaderOut)

include storedOnce stored found output in
theorem LinkOptInv.constant {state : ConsumerState} {varyingValues : List (Nat × Nat)}
    (inv : LinkOptInv producer consumer state varyingValues) {c : Nat} (constant : value = .const c) :
    LinkOptInv producer consumer (replaceConstantInput consumer state outVar c).1 varyingValues := by
  subst constant
  rw [replaceConstantInput_eq]
  refine ⟨inv.kept,inv.fresh,inv.determined,fun e mem => ?_,fun e mem => ?_,inv.recorded⟩
  all_goals
    rcases List.mem_append.mp mem with old | new
  · exact inv.rewritten e old
  · obtain ⟨dest,loaded,rfl⟩ := List.mem_map.mp new
    obtain ⟨k,_,load,_⟩ := mem_constantLoads loaded
    exact inv.fresh dest k load
  · exact inv.faithful e old
  · obtain ⟨dest,loaded,rfl⟩ := List.mem_map.mp new
    obtain ⟨k,var,load,get,_,matching⟩ := mem_constantLoads loaded
    intro k' var' load' get' _
    obtain rfl := inv.determined dest k' k load' load
    obtain rfl : var' = var := Option.some_inj.mp (get'.symm.trans get)
    exact carried_of_store storedOnce stored found output matching

include storedOnce stored found output in
theorem LinkOptInv.duplicate {state : ConsumerState} {varyingValues : List (Nat × Nat)}
    (inv : LinkOptInv producer consumer state varyingValues) {x inputVar : Nat} (computed : value = .ssa x)
    (first : (x,inputVar) ∈ varyingValues) :
    LinkOptInv producer consumer (replaceDuplicateInput consumer state inputVar outVar).1 varyingValues := by
  subst computed
  have walk := replaceDuplicateInput_walk consumer state inputVar outVar
  generalize (replaceDuplicateInput consumer state inputVar outVar).1 = state' at walk ⊢
  have := walk.grows
  have old : ∀ d k, .loadDeref d k ∈ state'.blocks.flatten → d < state.nextSsa →
      .loadDeref d k ∈ state.blocks.flatten := fun d k load below => by
    rcases walk.added _ load with old | ⟨n,low,_,same⟩
    · exact old
    · cases same; omega
  refine ⟨fun instr mem => walk.kept instr (inv.kept instr mem),fun d k load => ?_,fun d k k' load load' => ?_,
    fun e mem => ?_,fun e mem => ?_,inv.recorded⟩
  · rcases walk.added _ load with old | ⟨n,_,high,same⟩
    · have := inv.fresh d k old; omega
    · cases same; exact high
  · by_cases below : d < state.nextSsa
    · exact inv.determined d k k' (old d k load below) (old d k' load' below)
    · rcases walk.added _ load with loaded | ⟨n,_,_,same⟩
      · exact absurd (inv.fresh d k loaded) below
      rcases walk.added _ load' with loaded | ⟨n',_,_,same'⟩
      · exact absurd (inv.fresh d k' loaded) below
      cases same; cases same'; rfl
  · rcases walk.addedRewrites e mem with kept | ⟨dest,n,rfl,_,k,_,load,_⟩
    · have := inv.rewritten e kept; omega
    · have := inv.fresh dest k load; omega
  · rcases walk.addedRewrites e mem with kept | ⟨dest,n,rfl,newLoad,k,var,load,get,_,matching⟩
    · intro k var load get input
      have below := inv.rewritten e kept
      exact (inv.faithful e kept k var (old _ k load below) get input).mono walk.kept
    · intro k' var' load' get' _
      obtain rfl := inv.determined dest k' k (old dest k' load' (inv.fresh dest k load)) load
      obtain rfl : var' = var := Option.some_inj.mp (get'.symm.trans get)
      obtain ⟨input,getInput,inputMode,carries⟩ := inv.recorded _ first
      exact ⟨inputVar,input,newLoad,getInput,inputMode,
        .inr ⟨x,carried_of_store storedOnce stored found output matching,carries⟩⟩

theorem getMatchingInputVar_spec {consumer : NirShader} {outVar : NirVariable} {i : Nat}
    (matched : getMatchingInputVar consumer outVar = some i) :
    ∃ input, consumer.vars.get? i = some input ∧ input.mode = .shaderIn ∧ doesVaryingMatch outVar input = true := by
  obtain ⟨bound,holds,-⟩ := List.findIdx?_eq_some_iff_getElem.mp matched
  simp only [Bool.and_eq_true,beq_iff_eq] at holds
  exact ⟨_,by rw [List.get?_eq_getElem?,List.getElem?_eq_getElem bound],holds.1,holds.2⟩

include storedOnce stored found output in
theorem LinkOptInv.record {state : ConsumerState} {varyingValues : List (Nat × Nat)}
    (inv : LinkOptInv producer consumer state varyingValues) {x i : Nat} (computed : value = .ssa x)
    (matched : getMatchingInputVar consumer outVar = some i) :
    LinkOptInv producer consumer state (varyingValues ++ [(x,i)]) := by
  refine { inv with recorded := fun e mem => ?_ }
  rcases List.mem_append.mp mem with old | new
  · exact inv.recorded e old
  · obtain rfl := List.mem_singleton.mp new
    obtain ⟨input,get,mode,matching⟩ := getMatchingInputVar_spec matched
    exact ⟨input,get,mode,computed ▸ carried_of_store storedOnce stored found output matching⟩

end Steps

theorem mem_of_lookup {β : Type} {l : List (Nat × β)} {a : Nat} {b : β} (found : l.lookup a = some b) :
    (a,b) ∈ l := by
  obtain ⟨_,_,rfl,-⟩ := List.lookup_eq_some_iff.mp found
  exact List.mem_append_right _ (List.mem_cons_self _ _)

/-- What one instruction of the reverse walk does: nothing, or, on a store to a replaceable
output, a replacement by the stored constant, a replacement by a duplicate input, or a record in
the hash table. -/
theorem linkOptStep_cases (producer consumer : NirShader) (acc : ConsumerState × List (Nat × Nat) × Bool)
    (instr : NirInstr) :
    linkOptStep producer consumer acc instr = acc ∨
    ∃ k value outVar, instr = .storeDeref k value ∧ producer.vars.get? k = some outVar ∧ outVar.mode = .shaderOut ∧
      ((∃ c, value = .const c ∧ linkOptStep producer consumer acc instr =
          ((replaceConstantInput consumer acc.1 outVar c).1,acc.2.1,
            acc.2.2 || (replaceConstantInput consumer acc.1 outVar c).2)) ∨
        (∃ x inputVar, value = .ssa x ∧ acc.2.1.lookup x = some inputVar ∧ linkOptStep producer consumer acc instr =
          ((replaceDuplicateInput consumer acc.1 inputVar outVar).1,acc.2.1,
            acc.2.2 || (replaceDuplicateInput consumer acc.1 inputVar outVar).2)) ∨
        (∃ x i, value = .ssa x ∧ getMatchingInputVar consumer outVar = some i ∧
          linkOptStep producer consumer acc instr = (acc.1,acc.2.1 ++ [(x,i)],acc.2.2))) := by
  obtain ⟨state,varyingValues,progress⟩ := acc
  unfold linkOptStep
  dsimp only
  split
  case h_1 k value =>
    split
    case h_1 outVar found =>
      split
      case isTrue => exact .inl rfl
      case isFalse replaceable =>
        have output : outVar.mode = .shaderOut := by
          by_contra notOutput
          exact replaceable (.inl notOutput)
        split
        case h_1 c => exact .inr ⟨k,_,outVar,rfl,found,output,.inl ⟨c,rfl,rfl⟩⟩
        case h_2 x =>
          split
          case h_1 inputVar first => exact .inr ⟨k,_,outVar,rfl,found,output,.inr (.inl ⟨x,inputVar,rfl,first,rfl⟩)⟩
          case h_2 =>
            split
            case h_1 i matched => exact .inr ⟨k,_,outVar,rfl,found,output,.inr (.inr ⟨x,i,rfl,matched,rfl⟩)⟩
            case h_2 => exact .inl rfl
    case h_2 => exact .inl rfl
  case h_2 => exact .inl rfl

theorem LinkOptInv.step {producer consumer : NirShader}
    (storedOnce : ∀ location frac, (placeStores producer location frac).length ≤ 1)
    {acc : ConsumerState × List (Nat × Nat) × Bool} (inv : LinkOptInv producer consumer acc.1 acc.2.1)
    {instr : NirInstr} (last : instr ∈ producer.blocks.getLastD []) :
    LinkOptInv producer consumer (linkOptStep producer consumer acc instr).1
      (linkOptStep producer consumer acc instr).2.1 := by
  rcases linkOptStep_cases producer consumer acc instr with same | ⟨k,value,outVar,rfl,found,output,cases⟩
  · rwa [same]
  rcases cases with ⟨c,rfl,eq⟩ | ⟨x,inputVar,rfl,first,eq⟩ | ⟨x,i,rfl,matched,eq⟩ <;> rw [eq]
  · exact inv.constant storedOnce last found output rfl
  · exact inv.duplicate storedOnce last found output rfl (mem_of_lookup first)
  · exact inv.record storedOnce last found output rfl matched

theorem LinkOptInv.run {producer consumer : NirShader}
    (storedOnce : ∀ location frac, (placeStores producer location frac).length ≤ 1) :
    ∀ (instrs : List NirInstr) {acc : ConsumerState × List (Nat × Nat) × Bool},
      (∀ instr ∈ instrs, instr ∈ producer.blocks.getLastD []) → LinkOptInv producer consumer acc.1 acc.2.1 →
      LinkOptInv producer consumer (instrs.foldl (linkOptStep producer consumer) acc).1
        (instrs.foldl (linkOptStep producer consumer) acc).2.1
  | [], _, _, inv => inv
  | instr :: instrs, _, last, inv =>
    LinkOptInv.run storedOnce instrs (fun instr' mem => last instr' (List.mem_cons_of_mem _ mem))
      (inv.step storedOnce (last instr (List.mem_cons_self _ _)))

/-- Once the rewrites are applied, a load reads what its varying carries: following the
rewrites of its name, whatever the fuel, ends at a faithful value. -/
theorem LinkOptInv.resolve {producer consumer : NirShader} {state : ConsumerState}
    {varyingValues : List (Nat × Nat)} (inv : LinkOptInv producer consumer state varyingValues) :
    ∀ fuel d k var, .loadDeref d k ∈ state.blocks.flatten → consumer.vars.get? k = some var →
      var.mode = .shaderIn → Reads producer consumer state.blocks (state.resolve fuel d) var
  | 0, d, k, var, load, found, input => ⟨k,var,load,found,input,.refl var⟩
  | fuel + 1, d, k, var, load, found, input => by
    unfold ConsumerState.resolve
    split
    case h_1 c rewritten => exact inv.faithful _ (mem_of_lookup rewritten) k var load found input
    case h_2 next rewritten =>
      obtain ⟨k',input',load',found',mode',same⟩ := inv.faithful _ (mem_of_lookup rewritten) k var load found input
      exact (LinkOptInv.resolve inv fuel next k' input' load' found' mode').of_same same
    case h_3 => exact ⟨k,var,load,found,input,.refl var⟩

theorem linkOptInv_init (producer consumer : NirShader) (firstFreeSsa : Nat)
    (freshNames : ∀ d k, .loadDeref d k ∈ consumer.blocks.flatten → d < firstFreeSsa)
    (ssaLoads : ∀ d k k', .loadDeref d k ∈ consumer.blocks.flatten → .loadDeref d k' ∈ consumer.blocks.flatten →
      k = k') :
    LinkOptInv producer consumer ⟨consumer.blocks,[],firstFreeSsa⟩ [] :=
  ⟨fun _ => id,freshNames,ssaLoads,fun _ => nofun,fun _ => nofun,fun _ => nofun⟩

/-- When the producer's last block stores each output place at most once, and the consumer's
loads have distinct SSA names below `firstFreeSsa`, every load of the consumer reads what its
varying carries once the rewrites of `nir_link_opt_varyings` are applied: the constant the
producer stores there, or the result of a load of an input whose varying carries the same SSA
value. -/
theorem link_opt_loads_read_their_varying (producer consumer : NirShader) (firstFreeSsa : Nat)
    (storedOnce : ∀ location frac, (placeStores producer location frac).length ≤ 1)
    (freshNames : ∀ d k, .loadDeref d k ∈ consumer.blocks.flatten → d < firstFreeSsa)
    (ssaLoads : ∀ d k k', .loadDeref d k ∈ consumer.blocks.flatten → .loadDeref d k' ∈ consumer.blocks.flatten →
      k = k') :
    let state := (nirLinkOptVaryings producer consumer firstFreeSsa).1
    ∀ fuel d k var, .loadDeref d k ∈ consumer.blocks.flatten → consumer.vars.get? k = some var →
      var.mode = .shaderIn → Reads producer consumer state.blocks (state.resolve fuel d) var := by
  intro state fuel d k var load found input
  have init := linkOptInv_init producer consumer firstFreeSsa freshNames ssaLoads
  have final : ∃ varyingValues, LinkOptInv producer consumer state varyingValues := by
    simp only [state,nirLinkOptVaryings]
    split
    · exact ⟨[],init⟩
    · exact ⟨_,LinkOptInv.run storedOnce _ (fun instr mem => List.mem_reverse.mp mem) init⟩
  obtain ⟨_,inv⟩ := final
  exact inv.resolve fuel d k var (inv.kept _ load) found input

/-- A vertex shader whose last block stores the constant 5 to `VAR0.x` and one computed value
to `VAR1.x` and `VAR2.x`, and a fragment shader loading the three into SSA values 0 to 2. -/
def vsSharedValue : NirShader :=
  .ofVars .vertex [.plain (.vector .float 1) .shaderOut 32 0,.plain (.vector .float 1) .shaderOut 33 0,
    .plain (.vector .float 1) .shaderOut 34 0] [[.storeDeref 0 (.const 5),.storeDeref 1 (.ssa 7),.storeDeref 2 (.ssa 7)]]

def fsThreeLoads : NirShader :=
  .ofVars .fragment [.plain (.vector .float 1) .shaderIn 32 0,.plain (.vector .float 1) .shaderIn 33 0,
    .plain (.vector .float 1) .shaderIn 34 0] [[.loadDeref 0 0,.loadDeref 1 1,.loadDeref 2 2]]

example : (nirLinkOptVaryings vsSharedValue fsThreeLoads 3).1.resolve 2 0 = .const 5 ∧
    (nirLinkOptVaryings vsSharedValue fsThreeLoads 3).1.resolve 2 1 = .ssa 3 := by
  decide

theorem link_opt_loads_read_their_varying_shared :
    (∀ location frac, (placeStores vsSharedValue location frac).length ≤ 1) ∧
    (∀ d k, .loadDeref d k ∈ fsThreeLoads.blocks.flatten → d < 3) ∧
    (∀ d k k', .loadDeref d k ∈ fsThreeLoads.blocks.flatten → .loadDeref d k' ∈ fsThreeLoads.blocks.flatten →
      k = k') ∧
    let state := (nirLinkOptVaryings vsSharedValue fsThreeLoads 3).1
    ∀ fuel d k var, .loadDeref d k ∈ fsThreeLoads.blocks.flatten → fsThreeLoads.vars.get? k = some var →
      var.mode = .shaderIn → Reads vsSharedValue fsThreeLoads state.blocks (state.resolve fuel d) var :=
  have storedOnce : ∀ location frac, (placeStores vsSharedValue location frac).length ≤ 1 := by
    intro location frac
    simp only [placeStores,vsSharedValue,NirShader.ofVars,NirVariable.plain,List.getLastD,
      List.getLast_singleton,List.filterMap_cons,List.filterMap_nil,List.get?]
    split_ifs <;> first | omega | simp
  have freshNames : ∀ d k, .loadDeref d k ∈ fsThreeLoads.blocks.flatten → d < 3 := by
    intro d k
    simp [fsThreeLoads,NirShader.ofVars]
    omega
  have ssaLoads : ∀ d k k', .loadDeref d k ∈ fsThreeLoads.blocks.flatten →
      .loadDeref d k' ∈ fsThreeLoads.blocks.flatten → k = k' := by
    intro d k k'
    simp [fsThreeLoads,NirShader.ofVars]
    omega
  ⟨storedOnce,freshNames,ssaLoads,
    link_opt_loads_read_their_varying vsSharedValue fsThreeLoads 3 storedOnce freshNames ssaLoads⟩

/-! ### The progress flag -/

/-- The walk's progress flag is set exactly when a rewrite has been recorded. -/
def ProgressExact (acc : ConsumerState × List (Nat × Nat) × Bool) : Prop :=
  acc.2.2 = true ↔ acc.1.rewrites ≠ []

theorem ProgressExact.step {producer consumer : NirShader} {acc : ConsumerState × List (Nat × Nat) × Bool}
    (exact : ProgressExact acc) (instr : NirInstr) : ProgressExact (linkOptStep producer consumer acc instr) := by
  rcases linkOptStep_cases producer consumer acc instr with same | ⟨k,value,outVar,-,-,-,cases⟩
  · rwa [same]
  unfold ProgressExact at exact ⊢
  rcases cases with ⟨c,-,eq⟩ | ⟨x,inputVar,-,-,eq⟩ | ⟨x,i,-,-,eq⟩ <;> rw [eq]
  · simp only [replaceConstantInput_eq,Bool.or_eq_true,exact,Bool.not_eq_true',List.isEmpty_eq_false,ne_eq,
      List.append_eq_nil,List.map_eq_nil_iff,not_and_or]
  · have walk := replaceDuplicateInput_walk consumer acc.1 inputVar outVar
    have := walk.longer
    rw [Bool.or_eq_true,walk.flagged,exact,← List.length_pos,← List.length_pos]
    simp only [Bool.false_eq_true,false_or]
    omega
  · exact exact

theorem ProgressExact.run {producer consumer : NirShader} :
    ∀ (instrs : List NirInstr) {acc : ConsumerState × List (Nat × Nat) × Bool},
      ProgressExact acc → ProgressExact (instrs.foldl (linkOptStep producer consumer) acc)
  | [], _, exact => exact
  | instr :: instrs, _, exact => ProgressExact.run instrs (exact.step instr)

end Mesa.Nir

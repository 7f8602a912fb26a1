import Mathlib.Data.List.Basic
import Mesa.Nir.Shader

/-! `nir_link_xfb_varyings`: an always-active (transform-feedback) output makes the consumer's
input at its slot always active too, so that the linking optimisations leave both alone. The
first loop fills a table of one input per generic slot, a later input at a slot replacing an
earlier one; of several inputs sharing a slot in different components, only the last in the
list is marked. -/
namespace Mesa.Nir

/-- The generic slot `location - VARYING_SLOT_VAR0` of a variable with
`VARYING_SLOT_VAR0 <= location < VARYING_SLOT_VAR0 + MAX_VARYING`. -/
def xfbSlot? (var : NirVariable) : Option Nat :=
  if varyingSlotVar0 ≤ var.location ∧ var.location - varyingSlotVar0 < maxVarying then
    some (var.location - varyingSlotVar0).toNat
  else none

/-- The first loop's body, on an input named by its place in the consumer's list:
`input_vars[location] = var`. -/
def recordInput (inputVars : Nat → Option Nat) (entry : Nat × NirVariable) : Nat → Option Nat :=
  fun j => if entry.2.mode = .shaderIn ∧ xfbSlot? entry.2 = some j then some entry.1 else inputVars j

/-- `input_vars` after the first loop. -/
def xfbInputVars (consumer : NirShader) : Nat → Option Nat :=
  consumer.vars.enum.foldl recordInput fun _ => none

/-- `data.always_active_io = true`. -/
def NirVariable.markAlwaysActive (var : NirVariable) : NirVariable := { var with alwaysActiveIo := true }

/-- The second loop's body, on a producer variable. -/
def markXfbInput (inputVars : Nat → Option Nat) (vars : List NirVariable) (var : NirVariable) :
    List NirVariable :=
  if var.mode = .shaderOut then
    match xfbSlot? var with
    | some slot =>
      if !var.alwaysActiveIo then vars
      else match inputVars slot with
        | some k => vars.modify NirVariable.markAlwaysActive k
        | none => vars
    | none => vars
  else vars

/-- `nir_link_xfb_varyings`: the consumer it leaves. -/
def nirLinkXfbVaryings (producer consumer : NirShader) : NirShader :=
  { consumer with vars := producer.vars.foldl (markXfbInput (xfbInputVars consumer)) consumer.vars }

/-! ### The table of inputs -/

/-- An input at a generic slot. -/
def InputAt (slot : Nat) (var : NirVariable) : Prop := var.mode = .shaderIn ∧ xfbSlot? var = some slot

instance (slot : Nat) (var : NirVariable) : Decidable (InputAt slot var) := inferInstanceAs (Decidable (_ ∧ _))

/-- Position `k` of the list holds its last input at `slot`. -/
def LastInputAt (vars : List NirVariable) (slot k : Nat) : Prop :=
  (∃ var, (k,var) ∈ vars.enum ∧ InputAt slot var) ∧ ∀ k' var, (k',var) ∈ vars.enum → InputAt slot var → k' ≤ k

theorem foldl_recordInput (vars : List NirVariable) (slot k : Nat) :
    vars.enum.foldl recordInput (fun _ => none) slot = some k ↔ LastInputAt vars slot k := by
  induction vars using List.reverseRecOn with
  | nil => simp [LastInputAt]
  | append_singleton vars x ih =>
    have below : ∀ {k' var}, (k',var) ∈ vars.enum → k' < vars.length := fun mem => (List.mem_enum mem).1
    rw [List.enum_append,List.enumFrom_singleton,List.foldl_append,List.foldl_cons,List.foldl_nil]
    simp only [recordInput,LastInputAt,List.enum_append,List.enumFrom_singleton,List.mem_append,
      List.mem_singleton,Prod.mk.injEq]
    split_ifs with here
    · constructor
      · rintro ⟨⟩
        refine ⟨⟨x,.inr ⟨rfl,rfl⟩,here⟩,fun k' var mem _ => ?_⟩
        rcases mem with mem | ⟨rfl,-⟩
        exacts [(below mem).le,le_rfl]
      · rintro ⟨⟨var,mem,-⟩,last⟩
        have := last _ x (.inr ⟨rfl,rfl⟩) here
        rcases mem with mem | ⟨rfl,-⟩
        · exact absurd this (Nat.not_le.mpr (below mem))
        · rfl
    · rw [ih]
      constructor
      · rintro ⟨⟨var,mem,input⟩,last⟩
        refine ⟨⟨var,.inl mem,input⟩,fun k' var' mem' input' => ?_⟩
        rcases mem' with mem' | ⟨-,rfl⟩
        exacts [last k' var' mem' input',absurd input' here]
      · rintro ⟨⟨var,mem,input⟩,last⟩
        refine ⟨⟨var,mem.resolve_right ?_,input⟩,fun k' var' mem' input' => last k' var' (.inl mem') input'⟩
        rintro ⟨-,rfl⟩
        exact here input

/-! ### The marking loop -/

/-- The second loop's body on `var` marks the variable at position `k`. -/
def XfbMarks (inputVars : Nat → Option Nat) (k : Nat) (var : NirVariable) : Prop :=
  var.mode = .shaderOut ∧ var.alwaysActiveIo = true ∧ (xfbSlot? var).bind inputVars = some k

instance (inputVars : Nat → Option Nat) (k : Nat) (var : NirVariable) : Decidable (XfbMarks inputVars k var) :=
  inferInstanceAs (Decidable (_ ∧ _ ∧ _))

@[simp] theorem markAlwaysActive_markAlwaysActive (var : NirVariable) :
    var.markAlwaysActive.markAlwaysActive = var.markAlwaysActive := rfl

theorem markXfbInput_getElem? (inputVars : Nat → Option Nat) (vars : List NirVariable) (var : NirVariable)
    (j : Nat) :
    (markXfbInput inputVars vars var)[j]? =
      vars[j]?.map fun old => if XfbMarks inputVars j var then old.markAlwaysActive else old := by
  by_cases output : var.mode = .shaderOut
  · cases atSlot : xfbSlot? var with
    | none => simp [markXfbInput,XfbMarks,output,atSlot]
    | some slot =>
      cases active : var.alwaysActiveIo with
      | false => simp [markXfbInput,XfbMarks,output,atSlot,active]
      | true =>
        cases found : inputVars slot with
        | none => simp [markXfbInput,XfbMarks,output,atSlot,active,found]
        | some k => simp [markXfbInput,XfbMarks,output,atSlot,active,found,List.getElem?_modify]
  · simp [markXfbInput,XfbMarks,output]

/-- The second loop marks a position exactly when some always-active generic output finds it in
the table, and changes nothing else. -/
theorem foldl_markXfbInput (inputVars : Nat → Option Nat) (j : Nat) :
    ∀ (outs vars : List NirVariable), (outs.foldl (markXfbInput inputVars) vars)[j]? =
      vars[j]?.map fun old => if ∃ var ∈ outs, XfbMarks inputVars j var then old.markAlwaysActive else old
  | [], vars => by simp
  | var :: outs, vars => by
    rw [List.foldl_cons,foldl_markXfbInput inputVars j outs,markXfbInput_getElem?,Option.map_map]
    congr 1
    funext old
    by_cases here : XfbMarks inputVars j var <;> by_cases later : ∃ var ∈ outs, XfbMarks inputVars j var <;>
      simp [here,later]

theorem length_foldl_markXfbInput (inputVars : Nat → Option Nat) (outs vars : List NirVariable) :
    (outs.foldl (markXfbInput inputVars) vars).length = vars.length := by
  have beyond : ∀ j, (outs.foldl (markXfbInput inputVars) vars).length ≤ j ↔ vars.length ≤ j := fun j => by
    rw [← List.getElem?_eq_none_iff,← List.getElem?_eq_none_iff,foldl_markXfbInput,Option.map_eq_none']
  exact Nat.le_antisymm ((beyond _).mpr le_rfl) ((beyond _).mp le_rfl)

/-- An always-active producer output at a generic slot. -/
def XfbOutputAt (producer : NirShader) (slot : Nat) : Prop :=
  ∃ var ∈ producer.vars, var.mode = .shaderOut ∧ var.alwaysActiveIo = true ∧ xfbSlot? var = some slot

/-- `nir_link_xfb_varyings` changes only the consumer's variables, and of those only
`always_active_io`: it sets it on the variable at position `k` exactly when `k` holds the last
input of the list at a generic slot where the producer has an always-active output. -/
theorem link_xfb_marks_last_inputs (producer consumer : NirShader) :
    (nirLinkXfbVaryings producer consumer).vars.length = consumer.vars.length ∧
    ∀ k var, consumer.vars[k]? = some var →
      ((∃ slot, LastInputAt consumer.vars slot k ∧ XfbOutputAt producer slot) →
        (nirLinkXfbVaryings producer consumer).vars[k]? = some var.markAlwaysActive) ∧
      ((¬∃ slot, LastInputAt consumer.vars slot k ∧ XfbOutputAt producer slot) →
        (nirLinkXfbVaryings producer consumer).vars[k]? = some var) := by
  refine ⟨length_foldl_markXfbInput _ _ _,fun k var found => ?_⟩
  have marks : (∃ out ∈ producer.vars, XfbMarks (xfbInputVars consumer) k out) ↔
      ∃ slot, LastInputAt consumer.vars slot k ∧ XfbOutputAt producer slot := by
    simp only [XfbMarks,Option.bind_eq_some,xfbInputVars,foldl_recordInput,XfbOutputAt]
    constructor
    · rintro ⟨out,member,output,active,slot,atSlot,last⟩
      exact ⟨slot,last,out,member,output,active,atSlot⟩
    · rintro ⟨slot,last,out,member,output,active,atSlot⟩
      exact ⟨out,member,output,active,slot,atSlot,last⟩
  simp only [nirLinkXfbVaryings,foldl_markXfbInput,found,Option.map_some',Option.some.injEq]
  constructor
  · intro marked; rw [if_pos (marks.mpr marked)]
  · intro unmarked; rw [if_neg (mt marks.mp unmarked)]

/-- A vertex shader with an always-active `vec2` output at `VAR0`, and a fragment shader reading
its two components as two scalars. -/
def vsXfbVec2 : NirShader :=
  .ofVars .vertex [{ NirVariable.plain (.vector .float 2) .shaderOut 32 0 with alwaysActiveIo := true }] []

def fsScalarPair : NirShader :=
  .ofVars .fragment [.plain (.vector .float 1) .shaderIn 32 0,.plain (.vector .float 1) .shaderIn 32 1] []

/-- Only the second scalar, the last input at `VAR0`, becomes always active. -/
example : (nirLinkXfbVaryings vsXfbVec2 fsScalarPair).vars.map (·.alwaysActiveIo) = [false,true] := by
  decide

end Mesa.Nir

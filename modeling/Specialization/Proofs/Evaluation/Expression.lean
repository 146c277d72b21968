import Specialization.Evaluation
import Specialization.Proofs.Execution

/-!
What the value of an expression depends on, and how it can fail. An expression reads the constants
among its references and nothing else of those evaluated before it, and only an anchor reads the
scope. Once all its references have values, it fails with a linkage error of its own action or of
the function that it calls.
-/

namespace Specialization

theorem mem_references {operands : List Operand} {name : String} :
    name ∈ references operands ↔ Operand.ref name ∈ operands := by
  simp only [references, List.mem_filterMap]
  constructor
  · rintro ⟨operand, hmem, hname⟩
    cases operand with
    | ref other =>
        cases hname
        exact hmem
    | int | double | string | type | function => cases hname
  · exact fun hmem => ⟨.ref name, hmem, rfl⟩

namespace Evaluator

variable {evaluator other : Evaluator} {values values' : String → Option Value}

theorem operand_congr (hfunctions : evaluator.functions = other.functions) {action : Action}
    {operand : Operand} (h : ∀ name, operand = .ref name → values name = values' name) :
    evaluator.operand values action operand = other.operand values' action operand := by
  cases operand with
  | ref name => simp only [Evaluator.operand, h name rfl]
  | function name => simp only [Evaluator.operand, function, hfunctions]
  | int | double | string | type => rfl

theorem operand_congr_of_mem (hfunctions : evaluator.functions = other.functions)
    {action : Action} {operands : List Operand}
    (h : ∀ name ∈ references operands, values name = values' name) {operand : Operand}
    (hoperand : operand ∈ operands) :
    evaluator.operand values action operand = other.operand values' action operand := by
  apply operand_congr hfunctions
  intro name heq
  exact h name (mem_references.mpr (heq ▸ hoperand))

theorem operands_congr (hfunctions : evaluator.functions = other.functions) {action : Action}
    {operands : List Operand} (h : ∀ name ∈ references operands, values name = values' name) :
    operands.mapM (evaluator.operand values action) =
      operands.mapM (other.operand values' action) :=
  mapM_congr fun _ hoperand => operand_congr_of_mem hfunctions h hoperand

/-- The value of an expression depends on the constants it refers to, on the functions, and on the
scope only if it is an anchor. -/
theorem expr_congr (hhost : evaluator.host = other.host)
    (hfunctions : evaluator.functions = other.functions) {expr : Expr}
    (h : ∀ name ∈ expr.references, values name = values' name)
    (hanchor : ∀ id parent, expr = .anchor id parent →
      evaluator.dereference id = other.dereference id) :
    evaluator.expr values expr = other.expr values' expr := by
  have hsingle : ∀ {operand action}, (∀ name ∈ references [operand], values name = values' name) →
      evaluator.operand values action operand = other.operand values' action operand :=
    fun h => operand_congr_of_mem hfunctions h List.mem_cons_self
  cases expr with
  | literal value => rfl
  | type descriptor => rfl
  | list items => simp only [Evaluator.expr, operands_congr hfunctions h]
  | listGet items index =>
      have hread : ∀ operand ∈ [items, index], evaluator.operand values .listGet operand =
          other.operand values' .listGet operand :=
        fun _ hmem => operand_congr_of_mem hfunctions h hmem
      simp only [Evaluator.expr, Expr.action, hread items (by simp), hread index (by simp)]
  | species raw parameters =>
      have hread : ∀ operand ∈ [raw, parameters], evaluator.operand values .species operand =
          other.operand values' .species operand :=
        fun _ hmem => operand_congr_of_mem hfunctions h hmem
      simp only [Evaluator.expr, Expr.action, hread raw (by simp), hread parameters (by simp)]
  | speciesRaw operand => simp only [Evaluator.expr, hsingle h]
  | speciesParameters operand => simp only [Evaluator.expr, hsingle h]
  | linkage operand => simp only [Evaluator.expr, hsingle h]
  | function name bound =>
      have hbound : bound.mapM (evaluator.operand values .function) =
          bound.mapM (other.operand values' .function) := operands_congr hfunctions h
      simp only [Evaluator.expr, function, hfunctions, Expr.action, hbound]
  | restriction types =>
      have hentry : ∀ entry ∈ types,
          (evaluator.operand values .restriction entry >>= restrictionEntry) =
            (other.operand values' .restriction entry >>= restrictionEntry) := by
        intro entry hmem
        rw [operand_congr_of_mem hfunctions h hmem]
      simp only [Evaluator.expr, Expr.action, mapM_congr hentry]
  | anchor id parent => exact hanchor id parent rfl
  | supertype operand => simp only [Evaluator.expr, hsingle h]
  | eval target arguments =>
      have hread : ∀ operand ∈ target :: arguments, evaluator.operand values .eval operand =
          other.operand values' .eval operand :=
        fun _ hmem => operand_congr_of_mem hfunctions h hmem
      have harguments : arguments.mapM (evaluator.operand values .eval) =
          arguments.mapM (other.operand values' .eval) :=
        mapM_congr fun operand hmem => hread operand (List.mem_cons_of_mem target hmem)
      simp only [Evaluator.expr, hhost, Expr.action, hread target List.mem_cons_self, harguments]

/-- A linkage error that names a fault of the values at hand, and not a constant that was not
evaluated or an anchor that is not declared. -/
def Proper (error : ConstantError) : Prop :=
  ∃ action arguments fault, error = .linkage action arguments fault ∧
    fault ≠ .notEvaluated ∧ fault ≠ .undeclaredAnchor

/-- A result that, if it is an error, is a proper one. -/
def FailsProperly {α : Type} (result : Except ConstantError α) : Prop :=
  ∀ error, result = .error error → Proper error

/-- The error of an action on a constant that has no value yet. -/
def missing (action : Action) (name : String) : ConstantError :=
  .linkage action.text [(Operand.ref name).text] .notEvaluated

theorem fail_failsProperly {α : Type} {action : Action} {arguments : List Value}
    {fault : LinkageFault} (hevaluated : fault ≠ .notEvaluated)
    (hdeclared : fault ≠ .undeclaredAnchor) :
    FailsProperly (fail action arguments fault : Except ConstantError α) :=
  FailsOnly.error ⟨_, _, _, rfl, hevaluated, hdeclared⟩

theorem function_failsProperly (action : Action) (name : String) :
    FailsProperly (evaluator.function action name) := by
  unfold function
  split
  · exact FailsOnly.ok _
  · intro error h
    cases h
    exact ⟨_, _, _, rfl, by simp, by simp⟩

/-- An operand fails properly, or for want of a value of the constant that it refers to. -/
theorem operand_failsOnly {Expected : ConstantError → Prop} {action : Action} {operand : Operand}
    (hproper : ∀ error, Proper error → Expected error)
    (h : ∀ name, operand = .ref name → values name = none → Expected (missing action name)) :
    FailsOnly Expected (evaluator.operand values action operand) := by
  cases operand with
  | ref name =>
      cases hvalue : values name with
      | none =>
          simp only [Evaluator.operand, hvalue]
          exact FailsOnly.error (h name rfl hvalue)
      | some value =>
          simp only [Evaluator.operand, hvalue]
          exact FailsOnly.ok value
  | function name =>
      exact (FailsOnly.mono hproper (function_failsProperly action name)).map _
  | int | double | string | type => exact FailsOnly.ok _

theorem invoke_failsProperly (host : Host) (native : NativeFunction)
    (bound arguments : List Value) : FailsProperly (native.invoke host bound arguments) := by
  intro error h
  simp only [NativeFunction.invoke] at h
  split at h
  · cases hresult : native.compute host (arguments ++ bound) with
    | error fault =>
        rw [hresult] at h
        cases h
        exact ⟨_, _, _, rfl, by simp, by simp⟩
    | ok value =>
        rw [hresult] at h
        cases h
  · cases h
    exact ⟨_, _, _, rfl, by simp, by simp⟩

theorem elementAt_failsProperly (items index : Value) : FailsProperly (elementAt items index) := by
  unfold elementAt
  split
  · split
    · exact FailsOnly.ok _
    · exact fail_failsProperly (by simp) (by simp)
  · exact fail_failsProperly (by simp) (by simp)

theorem speciesOf_failsProperly (action : Action) (value : Value) :
    FailsProperly (speciesOf action value) := by
  unfold speciesOf
  split
  · exact FailsOnly.ok _
  · exact fail_failsProperly (by simp) (by simp)

theorem restrictionEntry_failsProperly (value : Value) :
    FailsProperly (restrictionEntry value) := by
  unfold restrictionEntry
  split
  · exact FailsOnly.ok _
  · exact fail_failsProperly (by simp) (by simp)

theorem bindTrailing_failsProperly (function : BoundFunction) (name : String)
    (arguments : List Value) : FailsProperly (bindTrailing function name arguments) := by
  unfold bindTrailing
  split
  · exact fail_failsProperly (by simp) (by simp)
  · exact FailsOnly.ok _

/-- The parameters of a declared anchor may be unbound, which is a proper fault. -/
theorem dereference_failsProperly {id : String} (h : (evaluator.analysis.anchor? id).isSome) :
    FailsProperly (evaluator.dereference id) := by
  obtain ⟨anchor, hanchor⟩ := Option.isSome_iff_exists.mp h
  unfold dereference
  rw [hanchor]
  dsimp only
  split
  · exact FailsOnly.ok _
  · intro error h
    cases h
    exact ⟨_, _, _, rfl, by simp, by simp⟩

/-- An expression fails properly, or for want of a value of a constant that it refers to, or, if it
is an anchor, as its anchor does. -/
theorem expr_failsOnly {Expected : ConstantError → Prop} {expr : Expr}
    (hproper : ∀ error, Proper error → Expected error)
    (hmissing : ∀ name ∈ expr.references, values name = none →
      Expected (missing expr.action name))
    (hanchor : ∀ id parent, expr = .anchor id parent →
      FailsOnly Expected (evaluator.dereference id)) :
    FailsOnly Expected (evaluator.expr values expr) := by
  have hread : ∀ {operands : List Operand} {action : Action},
      (∀ name ∈ references operands, values name = none → Expected (missing action name)) →
      ∀ operand ∈ operands, FailsOnly Expected (evaluator.operand values action operand) := by
    intro operands action hvalues operand hmem
    apply operand_failsOnly hproper
    intro name heq
    exact hvalues name (mem_references.mpr (heq ▸ hmem))
  have hproperly : ∀ {α : Type} {result : Except ConstantError α}, FailsProperly result →
      FailsOnly Expected result := fun h => FailsOnly.mono hproper h
  cases expr with
  | literal value => exact FailsOnly.ok value
  | type descriptor => exact FailsOnly.ok _
  | list items => exact (FailsOnly.mapM (hread hmissing)).map _
  | listGet items index =>
      apply FailsOnly.bind (hread hmissing items (by simp))
      intro list
      apply FailsOnly.bind (hread hmissing index (by simp))
      intro position
      exact hproperly (elementAt_failsProperly list position)
  | species raw parameters =>
      apply FailsOnly.bind (hread hmissing raw (by simp))
      intro rawValue
      apply FailsOnly.bind (hread hmissing parameters (by simp))
      intro bound
      split
      · exact FailsOnly.ok _
      · exact hproperly (fail_failsProperly (by simp) (by simp))
  | speciesRaw operand =>
      apply FailsOnly.bind (hread hmissing operand (by simp))
      intro value
      apply FailsOnly.bind (hproperly (speciesOf_failsProperly .speciesRaw value))
      intro species
      exact FailsOnly.ok _
  | speciesParameters operand =>
      apply FailsOnly.bind (hread hmissing operand (by simp))
      intro value
      apply FailsOnly.bind (hproperly (speciesOf_failsProperly .speciesParameters value))
      intro species
      exact FailsOnly.ok _
  | linkage operand => exact (hread hmissing operand (by simp)).map _
  | function name bound =>
      apply FailsOnly.bind (hproperly (function_failsProperly .function name))
      intro native
      apply FailsOnly.bind (FailsOnly.mapM (hread hmissing))
      intro arguments
      exact hproperly (bindTrailing_failsProperly native name arguments)
  | restriction types =>
      apply FailsOnly.map
      apply FailsOnly.mapM
      intro entry hmem
      apply (hread hmissing entry hmem).bind
      intro value
      exact hproperly (restrictionEntry_failsProperly value)
  | anchor id parent => exact hanchor id parent rfl
  | supertype operand =>
      apply FailsOnly.bind (hread hmissing operand (by simp))
      intro value
      split
      · exact FailsOnly.ok value
      · exact hproperly (fail_failsProperly (by simp) (by simp))
  | eval target arguments =>
      apply FailsOnly.bind (hread hmissing target List.mem_cons_self)
      intro function
      apply FailsOnly.bind
      · exact FailsOnly.mapM fun operand hmem =>
          hread hmissing operand (List.mem_cons_of_mem target hmem)
      · intro values
        split
        · exact hproperly (invoke_failsProperly _ _ _ _)
        · exact hproperly (fail_failsProperly (by simp) (by simp))

/-- An expression whose references have values, and whose anchor is declared if it is one, fails
with a proper error if it fails. -/
theorem expr_failsProperly {expr : Expr} (h : ∀ name ∈ expr.references, (values name).isSome)
    (hanchor : ∀ id parent, expr = .anchor id parent →
      (evaluator.analysis.anchor? id).isSome) :
    FailsProperly (evaluator.expr values expr) := by
  apply expr_failsOnly fun _ hproper => hproper
  · intro name hname hnone
    have hsome := h name hname
    rw [hnone] at hsome
    cases hsome
  · intro id parent heq
    exact dereference_failsProperly (hanchor id parent heq)

end Evaluator

end Specialization

import Specialization.Analysis
import Specialization.Function

/-!
Evaluation of constants. A pass evaluates constants of one class under one scope, each at most
once, after everything it reads. Constants that are fixed at link time may be shared between
passes through a link cache; a constant that varies with an anchor never enters it.
-/

namespace Specialization

/-- The parameters that anchors read. -/
structure Scope where
  classParameters : Option Value := none
  methodParameters : Option Value := none

def Scope.unbound : Scope := {}

def Scope.parameters (scope : Scope) : Level → Option Value
  | .ofClass => scope.classParameters
  | .ofMethod => scope.methodParameters

/-- What the values of the constants of one class depend on. -/
structure Evaluator where
  host : Host
  functions : Registry
  analysis : Analysis
  scope : Scope

namespace Evaluator

/-- A linkage error of an action on the given values. -/
def fail {α : Type} (action : Action) (arguments : List Value) (fault : LinkageFault) :
    Except ConstantError α :=
  .error (.linkage action.text (Value.texts arguments) fault)

def function (evaluator : Evaluator) (action : Action) (name : String) :
    Except ConstantError BoundFunction :=
  match evaluator.functions.lookup name with
  | some function => .ok function
  | none => .error (.linkage action.text [name] (.unknownFunction name))

/-- The value of an operand, given the values of the constants evaluated so far. -/
def operand (evaluator : Evaluator) (values : String → Option Value) (action : Action) :
    Operand → Except ConstantError Value
  | .ref name =>
    match values name with
    | some value => .ok value
    | none => .error (.linkage action.text [(Operand.ref name).text] .notEvaluated)
  | .int value => .ok (.int value)
  | .double value => .ok (.double value)
  | .string value => .ok (.string value)
  | .type descriptor => .ok (.type descriptor)
  | .function name => (evaluator.function action name).map BoundFunction.toValue

/-- The parameters that the anchor of an id reads. -/
def dereference (evaluator : Evaluator) (id : String) : Except ConstantError Value :=
  match evaluator.analysis.anchor? id with
  | none => .error (.linkage Action.anchor.text [id] .undeclaredAnchor)
  | some anchor =>
    match evaluator.scope.parameters anchor.level with
    | some parameters => .ok parameters
    | none => .error (.linkage Action.anchor.text [id] (.unboundParameters anchor.level))

def elementAt (items index : Value) : Except ConstantError Value :=
  match items, index with
  | .list values, .int position =>
    match if 0 ≤ position.toInt then values[position.toInt.toNat]? else none with
    | some value => .ok value
    | none => fail .listGet [items, index] .indexOutOfRange
  | _, _ => fail .listGet [items, index] (.notListAndInt items.kind index.kind)

def speciesOf (action : Action) (value : Value) : Except ConstantError (Descriptor × Value) :=
  match value.asSpecies? with
  | some species => .ok species
  | none => fail action [value] (.notSpecies value.kind)

def bindTrailing (function : BoundFunction) (name : String) (arguments : List Value) :
    Except ConstantError Value :=
  if function.remainingArity < arguments.length then
    fail .function arguments (.tooManyBound arguments.length name function.remainingArity)
  else .ok (function.bind arguments).toValue

def restrictionEntry (value : Value) : Except ConstantError Descriptor :=
  match value.asType? with
  | some descriptor => .ok descriptor
  | none => fail .restriction [value] (.restrictionEntry value.kind)

/-- The value of an expression, given the values of the constants that it reads. -/
def expr (evaluator : Evaluator) (values : String → Option Value) (expr : Expr) :
    Except ConstantError Value :=
  let operand := evaluator.operand values expr.action
  match expr with
  | .literal value => .ok value
  | .type descriptor => .ok (.type descriptor)
  | .list items => (items.mapM operand).map .list
  | .listGet items index => do elementAt (← operand items) (← operand index)
  | .species raw parameters => do
    let raw ← operand raw
    let parameters ← operand parameters
    match raw with
    | .type descriptor => .ok (.species descriptor parameters)
    | other => fail .species [other, parameters] (.speciesRaw other.kind)
  | .speciesRaw species => do
    return .type (← speciesOf .speciesRaw (← operand species)).1
  | .speciesParameters species => do
    return (← speciesOf .speciesParameters (← operand species)).2
  | .linkage inner => (operand inner).map .linkage
  | .function name bound => do
    bindTrailing (← evaluator.function .function name) name (← bound.mapM operand)
  | .restriction types =>
    (types.mapM fun entry => operand entry >>= restrictionEntry).map .restriction
  | .anchor id _ => evaluator.dereference id
  | .supertype species => do
    let value ← operand species
    if value.asSpecies?.isSome then return value
    else fail .supertype [value] (.notSupertypeSpecies value.kind)
  | .eval target arguments => do
    let target ← operand target
    let arguments ← arguments.mapM operand
    match target.asFunction? with
    | some (native, bound) => native.invoke evaluator.host bound arguments
    | none => fail .eval [target] (.evalTarget target.kind)

/-- The value of a constant, given the values of the constants that it reads. -/
def constant (evaluator : Evaluator) (values : String → Option Value) (name : String) :
    Except ConstantError Value :=
  match evaluator.analysis.expr? name with
  | some expr => evaluator.expr values expr
  | none => .error (.unresolvedReference evaluator.analysis.descriptor name)

end Evaluator

/-- One use of a link cache. -/
inductive Access where
  | hit (name : String)
  | miss (name : String)
  | put (name : String) (value : Value)

namespace Access

def name : Access → String
  | .hit name => name
  | .miss name => name
  | .put name _ => name

def text : Access → String
  | .hit name => "hit " ++ name
  | .miss name => "miss " ++ name
  | .put name value => "put " ++ name ++ " = " ++ value.text

end Access

/-- Values of constants by name, newest first. -/
abbrev Values := List (String × Value)

/-- The state of a pass: the values it has found, the link cache if there is one, and the uses it
made of the cache, newest first. -/
structure Pass where
  memo : Values := []
  cache : Option Values := none
  log : List Access := []

def Pass.value? (pass : Pass) (name : String) : Option Value :=
  pass.memo.lookup name

/-- An evaluation within a pass. What a failed one has found so far stays in the pass. -/
abbrev Evaluation := ExceptT ConstantError (StateM Pass)

namespace Evaluation

def remember (name : String) (value : Value) : Evaluation Unit :=
  modify fun pass => { pass with memo := (name, value) :: pass.memo }

/-- Asks the link cache, if there is one. -/
def consult (name : String) : Evaluation (Option Value) := do
  let pass ← get
  match pass.cache with
  | none => return none
  | some cache =>
    match cache.lookup name with
    | some value =>
      set { pass with log := .hit name :: pass.log }
      return some value
    | none =>
      set { pass with log := .miss name :: pass.log }
      return none

/-- Puts a value into the link cache, if there is one. -/
def publish (name : String) (value : Value) : Evaluation Unit :=
  modify fun pass =>
    match pass.cache with
    | none => pass
    | some cache =>
      { pass with cache := some ((name, value) :: cache), log := .put name value :: pass.log }

end Evaluation

namespace Evaluator

open Evaluation

/-- Evaluates a constant after everything it reads, unless the pass has its value already. -/
def step (evaluator : Evaluator) (name : String) : Evaluation Unit := do
  if ((← get).value? name).isSome then return
  if evaluator.analysis.isAnchored name then
    remember name (← evaluator.constant (← get).value? name)
  else
    match ← consult name with
    | some value => remember name value
    | none =>
      let value ← evaluator.constant (← get).value? name
      publish name value
      remember name value

/-- The value of a constant of the class, evaluated with everything it depends on. -/
def evaluate (evaluator : Evaluator) (name : String) : Evaluation Value := do
  if !evaluator.analysis.contains name then
    throw (.unresolvedReference evaluator.analysis.descriptor name)
  match (← get).value? name with
  | some value => return value
  | none =>
    (evaluator.analysis.evaluationPlan name).forM evaluator.step
    match (← get).value? name with
    | some value => return value
    | none => throw (.unresolvedReference evaluator.analysis.descriptor name)

end Evaluator

end Specialization

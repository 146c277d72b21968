import Specialization.Declaration

/-!
Expressions of constants. An expression is one action on operands; it refers to other constants by
their names, so the constants of a class form a graph.
-/

namespace Specialization

/-- What a constant is made from. -/
inductive Action where
  | literal | type | list | listGet | species | speciesRaw | speciesParameters | linkage
  | function | restriction | anchor | supertype | eval
  deriving DecidableEq

namespace Action

/-- The word that declarations use. -/
def text : Action → String
  | .literal => "literal"
  | .type => "type"
  | .list => "list"
  | .listGet => "list_get"
  | .species => "species"
  | .speciesRaw => "species_raw"
  | .speciesParameters => "species_params"
  | .linkage => "linkage"
  | .function => "function"
  | .restriction => "restriction"
  | .anchor => "anchor"
  | .supertype => "super"
  | .eval => "eval"

def all : List Action :=
  [.literal, .type, .list, .listGet, .species, .speciesRaw, .speciesParameters, .linkage,
   .function, .restriction, .anchor, .supertype, .eval]

def ofText? (word : String) : Option Action :=
  all.find? fun action => action.text == word

theorem text_of_ofText? {word : String} {action : Action} (h : ofText? word = some action) :
    action.text = word := by
  simpa using List.find?_some h

end Action

inductive Expr where
  | literal (value : Value)
  | type (descriptor : Descriptor)
  | list (items : List Operand)
  | listGet (items index : Operand)
  | species (raw parameters : Operand)
  | speciesRaw (operand : Operand)
  | speciesParameters (operand : Operand)
  | linkage (operand : Operand)
  /-- A native function with trailing arguments bound to it. -/
  | function (name : String) (bound : List Operand)
  | restriction (types : List Operand)
  /-- The parameters bound at an anchor. The parent is the constant of the enclosing anchor. -/
  | anchor (id : String) (parent : Option String)
  /-- The instantiation of the direct superclass that the class extends. -/
  | supertype (operand : Operand)
  | eval (target : Operand) (arguments : List Operand)

namespace Expr

def action : Expr → Action
  | .literal _ => .literal
  | .type _ => .type
  | .list _ => .list
  | .listGet _ _ => .listGet
  | .species _ _ => .species
  | .speciesRaw _ => .speciesRaw
  | .speciesParameters _ => .speciesParameters
  | .linkage _ => .linkage
  | .function _ _ => .function
  | .restriction _ => .restriction
  | .anchor _ _ => .anchor
  | .supertype _ => .supertype
  | .eval _ _ => .eval

def isAnchor : Expr → Bool
  | .anchor _ _ => true
  | _ => false

def isSupertype : Expr → Bool
  | .supertype _ => true
  | _ => false

/-- The constants that an expression reads, in the order of its operands. -/
def references : Expr → List String
  | .literal _ => []
  | .type _ => []
  | .list items => Specialization.references items
  | .listGet items index => Specialization.references [items, index]
  | .species raw parameters => Specialization.references [raw, parameters]
  | .speciesRaw operand => Specialization.references [operand]
  | .speciesParameters operand => Specialization.references [operand]
  | .linkage operand => Specialization.references [operand]
  | .function _ bound => Specialization.references bound
  | .restriction types => Specialization.references types
  | .anchor _ parent => parent.toList
  | .supertype operand => Specialization.references [operand]
  | .eval target arguments => Specialization.references (target :: arguments)

/-- The id and the parent among the operands of an anchor. Each may be given once, in any order. -/
def anchorParts : Option String → Option String → List Operand →
    Except DeclarationFault (Option String × Option String)
  | id, parent, [] => .ok (id, parent)
  | none, parent, .string id :: rest => anchorParts (some id) parent rest
  | id, none, .ref parent :: rest => anchorParts id (some parent) rest
  | _, _, operand :: _ => .error (.anchorOperand operand)

def isRestrictionOperand : Operand → Bool
  | .type _ => true
  | .ref _ => true
  | _ => false

/-- The expression of an action on operands. An anchor without an id has the name of its
constant. -/
def ofOperands (name : String) : Action → List Operand → Except DeclarationFault Expr
  | .literal, [operand] =>
    match operand.scalar? with
    | some value => .ok (.literal value)
    | none => .error (.literalOperand operand)
  | .type, [.type descriptor] => .ok (.type descriptor)
  | .type, [.string descriptor] => .ok (.type descriptor)
  | .type, [operand] => .error (.typeOperand operand)
  | .list, operands => .ok (.list operands)
  | .listGet, [items, index] => .ok (.listGet items index)
  | .species, [raw, parameters] => .ok (.species raw parameters)
  | .speciesRaw, [operand] => .ok (.speciesRaw operand)
  | .speciesParameters, [operand] => .ok (.speciesParameters operand)
  | .linkage, [operand] => .ok (.linkage operand)
  | .function, [] => .error .functionMissing
  | .function, .function native :: bound => .ok (.function native bound)
  | .function, .string native :: bound => .ok (.function native bound)
  | .function, operand :: _ => .error (.functionOperand operand)
  | .restriction, operands =>
    match operands.find? fun operand => !isRestrictionOperand operand with
    | some operand => .error (.restrictionOperand operand)
    | none => .ok (.restriction operands)
  | .anchor, operands =>
    (anchorParts none none operands).map fun (id, parent) => .anchor (id.getD name) parent
  | .supertype, [operand] => .ok (.supertype operand)
  | .eval, [] => .error .evalMissing
  | .eval, .function native :: arguments => .ok (.eval (.function native) arguments)
  | .eval, .ref constant :: arguments => .ok (.eval (.ref constant) arguments)
  | .eval, operand :: _ => .error (.evalOperand operand)
  | .listGet, operands => .error (.operandCount 2 operands.length)
  | .species, operands => .error (.operandCount 2 operands.length)
  | _, operands => .error (.operandCount 1 operands.length)

/-- The expression that a declaration stands for. -/
def ofDeclaration (declaration : Declaration) : Except ConstantError Expr :=
  let parsed := match Action.ofText? declaration.action with
    | some action => ofOperands declaration.name action declaration.operands
    | none => .error (.unknownAction declaration.action)
  parsed.mapError (.malformedDeclaration declaration.name)

end Expr

end Specialization

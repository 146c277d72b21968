import Specialization.Graph
import Specialization.Root

/-!
The analysis of the constants of one class. It reads every declaration, resolves every reference,
orders the constants so that each comes after those it reads, and finds the root of each. Any error
rejects the class: first the anchors are checked, then the declarations, the references, cycles,
the roots, and last that at most one constant maps the supertype.
-/

namespace Specialization

structure Constant where
  name : String
  expr : Expr

structure Analysis where
  descriptor : Descriptor
  /-- The constants in the order of their declaration. -/
  constants : List Constant
  /-- Their names, each after the constants it reads. -/
  order : List String
  roots : List (String × Root)
  /-- The constants that read an anchor of another class directly. -/
  crossClass : List String
  anchors : AnchorTable
  imported : AnchorTable
  /-- The constant that maps the class to an instantiation of its direct superclass. -/
  superMapping : Option String

namespace Analysis

def find? (constants : List Constant) (name : String) : Option Constant :=
  constants.find? (·.name == name)

/-- The graph of the references, from a constant to those that it reads. -/
def graphOf (constants : List Constant) : Graph where
  nodes := constants.map (·.name)
  next name := match find? constants name with
    | some constant => constant.expr.references
    | none => []

def expr? (analysis : Analysis) (name : String) : Option Expr :=
  (find? analysis.constants name).map (·.expr)

def contains (analysis : Analysis) (name : String) : Bool :=
  (analysis.expr? name).isSome

def root? (analysis : Analysis) (name : String) : Option Root :=
  analysis.roots.lookup name

def isAnchored (analysis : Analysis) (name : String) : Bool :=
  (analysis.root? name).any Root.isAnchor

/-- Whether the value of a constant has to be read again for every carrier. -/
def needsAccessor (analysis : Analysis) (name : String) : Bool :=
  analysis.crossClass.contains name || analysis.isAnchored name

/-- The constants that need an accessor, sorted by code points. -/
def accessors (analysis : Analysis) : List String :=
  (analysis.order.filter analysis.needsAccessor).mergeSort fun a b => decide (a ≤ b)

def anchor? (analysis : Analysis) (id : String) : Option Anchor :=
  Classification.declared? analysis.anchors analysis.imported id

def size (analysis : Analysis) : Nat :=
  analysis.constants.length

def graph (analysis : Analysis) : Graph :=
  graphOf analysis.constants

/-- A constant with everything it reads, directly or not, in the order of evaluation. -/
def evaluationPlan (analysis : Analysis) (name : String) : List String :=
  let reached := analysis.graph.reachable name
  analysis.order.filter reached.contains

/-- Reads one more declaration after those of the given constants. -/
def readDeclaration (constants : List Constant) (declaration : Declaration) :
    Except ConstantError (List Constant) :=
  if (find? constants declaration.name).isSome then
    .error (.malformedDeclaration declaration.name .declaredTwice)
  else do
    let expr ← Expr.ofDeclaration declaration
    return constants ++ [⟨declaration.name, expr⟩]

/-- The first reference that names no constant, with the constant that holds it. -/
def unresolved? (constants : List Constant) : Option (String × String) :=
  constants.findSome? fun constant =>
    (constant.expr.references.find? fun name => (find? constants name).isNone).map fun name =>
      (constant.name, name)

/-- Classifies constants in an order in which each comes after those it reads. -/
def classify (constants : List Constant) (anchors imported : AnchorTable) (order : List String) :
    Except ConstantError Classification :=
  order.foldlM (fun known name =>
    match find? constants name with
    | some constant => known.add anchors imported name constant.expr
    | none => .ok known) {}

/-- The one constant that maps the supertype, if there is one. -/
def supertypeMapping (constants : List Constant) : Except ConstantError (Option String) :=
  match constants.filter (·.expr.isSupertype) with
  | [] => .ok none
  | [constant] => .ok (some constant.name)
  | first :: second :: _ =>
    .error (.malformedDeclaration second.name (.secondSupertype first.name))

end Analysis

open Analysis in
/-- Analyzes what a class declares. Its constants may also read the imported anchors, which the
declared ones hide where they have the same name. -/
def analyze (declarations : ClassDeclarations) (imported : AnchorTable) :
    Except ConstantError Analysis := do
  let anchors ← AnchorTable.ofList declarations.anchors
  let constants ← declarations.constants.foldlM readDeclaration []
  if let some (constant, reference) := unresolved? constants then
    throw (.unresolvedReference constant reference)
  let order ← (graphOf constants).order.mapError fun name => .topology name .referenceCycle
  let known ← classify constants anchors imported order
  let superMapping ← supertypeMapping constants
  return { descriptor := declarations.descriptor, constants, order, roots := known.roots,
           crossClass := known.crossClass, anchors, imported, superMapping }

end Specialization

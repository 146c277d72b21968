import Specialization.Expr

/-!
The root of a constant: whether its value is fixed at link time, or which anchor it varies with. A
constant takes the deepest anchor among those of the constants that it reads, and these have to lie
on one chain of parents.
-/

namespace Specialization

inductive Root where
  /-- The value is fixed at link time. -/
  | constant
  /-- The value varies with the anchor constant `name`, which is nested under `parent`. -/
  | anchor (name : String) (parent : Option String)
  deriving DecidableEq

namespace Root

def isAnchor : Root → Bool
  | .constant => false
  | .anchor _ _ => true

def anchorName? : Root → Option String
  | .constant => none
  | .anchor name _ => some name

end Root

/-- A constant that reads an anchor directly, with the constant of the enclosing anchor and the id
of the anchor it reads. -/
structure AnchorConstant where
  name : String
  parent : Option String
  id : String
  deriving DecidableEq

/-- Whether one anchor constant encloses another one. The list has the newest constant first, so a
parent is found further down. -/
def encloses (ancestor : String) : List AnchorConstant → String → Bool
  | [], _ => false
  | known :: older, name =>
    if known.name = name then
      match known.parent with
      | some parent => parent == ancestor || encloses ancestor older parent
      | none => false
    else encloses ancestor older name

/-- What is known once some constants are classified, newest first. -/
structure Classification where
  roots : List (String × Root) := []
  anchors : List AnchorConstant := []
  /-- The constants that read an anchor of another class directly. -/
  crossClass : List String := []

namespace Classification

def root (known : Classification) (name : String) : Root :=
  (known.roots.lookup name).getD .constant

/-- The deeper of two roots of one constant. -/
def merge (known : Classification) (constant : String) :
    Root → Root → Except ConstantError Root
  | current, .constant => .ok current
  | .constant, incoming => .ok incoming
  | .anchor a p, .anchor b q =>
    if a = b ∨ encloses b known.anchors a then .ok (.anchor a p)
    else if encloses a known.anchors b then .ok (.anchor b q)
    else .error (.divergentAnchor constant a b)

/-- The root of a constant that reads no anchor itself. -/
def mergeReferences (known : Classification) (constant : String) (references : List String) :
    Except ConstantError Root :=
  references.foldlM (fun current reference => known.merge constant current (known.root reference))
    .constant

/-- The anchor that an id denotes: a declared one before an imported one. -/
def declared? (anchors imported : AnchorTable) (id : String) : Option Anchor :=
  (anchors.find? id).or (imported.find? id)

/-- The id of the anchor that the constant of an enclosing anchor reads. -/
def parentId (known : Classification) (constant : String) (parent : Option String) :
    Except ConstantError (Option String) :=
  match parent with
  | none => .ok none
  | some parent =>
    if (known.root parent).anchorName? = some parent then
      .ok ((known.anchors.find? (·.name == parent)).map (·.id))
    else .error (.topology constant (.parentNotAnchor parent))

/-- Adds a constant that reads an anchor. The anchor has to be declared, and nested as its
declaration says. -/
def addAnchor (known : Classification) (anchors imported : AnchorTable) (constant id : String)
    (parent : Option String) : Except ConstantError Classification :=
  match declared? anchors imported id with
  | none => .error (.undeclaredAnchor constant id)
  | some anchor => do
    let enclosing ← known.parentId constant parent
    if anchor.parent = enclosing then
      return { roots := (constant, .anchor constant parent) :: known.roots
               anchors := ⟨constant, parent, anchor.name⟩ :: known.anchors
               crossClass :=
                 if anchors.contains id then known.crossClass else constant :: known.crossClass }
    else .error (.topology constant (.nestedElsewhere anchor.name anchor.parent enclosing))

/-- Adds a constant all of whose references are classified. -/
def add (known : Classification) (anchors imported : AnchorTable) (constant : String) :
    Expr → Except ConstantError Classification
  | .anchor id parent => known.addAnchor anchors imported constant id parent
  | expr => do
    let root ← known.mergeReferences constant expr.references
    return { known with roots := (constant, root) :: known.roots }

end Classification

end Specialization

import Specialization.Analysis
import Specialization.ClassSpec

/-!
Loaded classes. Every load makes a new class, so classes are told apart by the number of their load
and not by their descriptor. A class carries the definitions above it, nearest first, and so the
chain of its superclasses is finite by construction.
-/

namespace Specialization

structure Method where
  name : String
  signature : String
  /-- The constant whose value is the function that implements the method. -/
  implementation : String
  defaults : Option Value

def Method.ofSpec (spec : MethodSpec) : Method :=
  { name := spec.name
    signature := spec.signature.getD spec.name
    implementation := spec.implementation
    defaults := defaultParameters spec.defaults }

/-- What a class defines itself. -/
structure Definition where
  id : Nat
  descriptor : Descriptor
  defaults : Option Value
  methods : List Method
  analysis : Analysis
  /-- The classes that declare the imported anchors, by the name of the anchor. -/
  importedOwners : List (String × Descriptor)

/-- The first method whose implementation names no constant. -/
def unimplemented? (analysis : Analysis) (methods : List MethodSpec) : Option MethodSpec :=
  methods.find? fun method => !analysis.contains method.implementation

/-- Analyzes a spec. Imported anchors are checked first, methods last. -/
def Definition.ofSpec (id : Nat) (spec : ClassSpec) : Except ConstantError Definition := do
  let imported ← AnchorTable.ofList (spec.importedAnchors.map (·.anchor))
  let analysis ← analyze spec.declarations imported
  match unimplemented? analysis spec.methods with
  | some method => .error (.unresolvedReference method.name method.implementation)
  | none =>
    return { id
             descriptor := spec.descriptor
             defaults := defaultParameters spec.defaults
             methods := spec.methods.map Method.ofSpec
             analysis
             importedOwners := spec.importedAnchors.map fun imported =>
               (imported.anchor.name, imported.owner) }

structure Class where
  definition : Definition
  ancestors : List Definition

namespace Class

/-- The number of the load that made the class. -/
def id (self : Class) : Nat := self.definition.id

def descriptor (self : Class) : Descriptor := self.definition.descriptor

def defaults (self : Class) : Option Value := self.definition.defaults

def analysis (self : Class) : Analysis := self.definition.analysis

def methods (self : Class) : List Method := self.definition.methods

/-- Classes are compared by identity. -/
instance : BEq Class := ⟨fun a b => a.id == b.id⟩

def isSpecializable (self : Class) : Bool :=
  self.defaults.isSome

/-- A definition and those above it, each as a class, nearest first. -/
def lineageOf : Definition → List Definition → List Class
  | definition, [] => [⟨definition, []⟩]
  | definition, above :: rest => ⟨definition, above :: rest⟩ :: lineageOf above rest

/-- The class and its superclasses, nearest first. -/
def lineage (self : Class) : List Class :=
  lineageOf self.definition self.ancestors

def superclass? (self : Class) : Option Class :=
  match self.ancestors with
  | [] => none
  | above :: rest => some ⟨above, rest⟩

/-- The first method of a name that the class declares itself. -/
def method? (self : Class) (name : String) : Option Method :=
  self.methods.find? (·.name == name)

def methodBySignature? (self : Class) (signature : String) : Option Method :=
  self.methods.find? (·.signature == signature)

/-- The nearest class of the lineage that declares a method of the name, with that method. -/
def findMethod? (self : Class) (name : String) : Option (Class × Method) :=
  self.lineage.findSome? fun declaring => (declaring.method? name).map fun method =>
    (declaring, method)

/-- The number of steps up to an ancestor, none to the class itself. -/
def distanceTo? (self ancestor : Class) : Option Nat :=
  self.lineage.findIdx? (· == ancestor)

/-- The class under whose carrier a constant is read: the one that declares the anchor at the root
of the constant. There is none for a constant fixed at link time. -/
def carrierClass? (self : Class) (constant : String) : Option Descriptor := do
  let anchor ← (← self.analysis.root? constant).anchorName?
  match self.analysis.expr? anchor with
  | some (.anchor id _) =>
    if self.analysis.anchors.contains id then return self.descriptor
    else return (self.definition.importedOwners.lookup id).getD self.descriptor
  | _ => return self.descriptor

def description (self : Class) : String :=
  "ClassRef(" ++ self.descriptor ++ ")"

end Class

end Specialization

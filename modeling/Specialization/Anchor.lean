import Specialization.Error

/-!
Anchors: the named points at which a class or a method is specialized. An anchor may be nested
under another one that is declared before it, so the parents of an anchor form a chain that ends.
-/

namespace Specialization

structure Anchor where
  name : String
  level : Level
  parent : Option String := none
  deriving DecidableEq

/-- Anchors in the order of their declaration. -/
structure AnchorTable where
  anchors : List Anchor
  deriving DecidableEq

namespace AnchorTable

def empty : AnchorTable := ⟨[]⟩

def find? (table : AnchorTable) (name : String) : Option Anchor :=
  table.anchors.find? (·.name == name)

def contains (table : AnchorTable) (name : String) : Bool :=
  (table.find? name).isSome

/-- Adds an anchor of a new name, whose parent has to be in the table already. -/
def push (table : AnchorTable) (anchor : Anchor) : Except ConstantError AnchorTable :=
  if table.contains anchor.name then .error (.topology anchor.name .anchorDeclaredTwice)
  else
    match anchor.parent with
    | some parent =>
      if table.contains parent then .ok ⟨table.anchors ++ [anchor]⟩
      else .error (.topology anchor.name (.parentUndeclared parent))
    | none => .ok ⟨table.anchors ++ [anchor]⟩

/-- The table of the given anchors, pushed one after the other. -/
def ofList (anchors : List Anchor) : Except ConstantError AnchorTable :=
  anchors.foldlM push empty

/-- A push that succeeds adds the anchor at the end and changes nothing else. -/
theorem anchors_push {table next : AnchorTable} {anchor : Anchor}
    (h : table.push anchor = .ok next) : next.anchors = table.anchors ++ [anchor] := by
  unfold push at h
  split at h
  · cases h
  · split at h
    · split at h
      · cases h; rfl
      · cases h
    · cases h; rfl

end AnchorTable

end Specialization

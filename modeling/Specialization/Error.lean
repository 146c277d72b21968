import Specialization.Level
import Specialization.Operand.Token

/-!
Errors, by their causes. A `ConstantError` arises from the constants of one class: all but
linkage errors reject the whole class when it is analyzed, and a linkage error fails one
evaluation. An `Error` is any failure of an operation on loaded classes.
-/

namespace Specialization

/-- Why the anchors or the references of a class have no valid shape. -/
inductive TopologyFault where
  | anchorDeclaredTwice
  | parentUndeclared (parent : String)
  | referenceCycle
  | parentNotAnchor (parent : String)
  | nestedElsewhere (anchor : String) (declared actual : Option String)
  deriving DecidableEq

def TopologyFault.message : TopologyFault → String
  | .anchorDeclaredTwice => "anchor declared more than once"
  | .parentUndeclared parent => "parent anchor '" ++ parent ++ "' is not declared before use"
  | .referenceCycle => "constant participates in a reference cycle"
  | .parentNotAnchor parent => "parent '" ++ parent ++ "' is not an anchor"
  | .nestedElsewhere anchor declared actual =>
    "anchor '" ++ anchor ++ "' is declared under " ++ Text.quotedOption declared ++
      " but nested under " ++ Text.quotedOption actual

/-- Why a declaration cannot be read as an expression. -/
inductive DeclarationFault where
  | token (fault : TokenError)
  | declaredTwice
  | operandCount (expected actual : Nat)
  | literalOperand (operand : Operand)
  | typeOperand (operand : Operand)
  | functionMissing
  | functionOperand (operand : Operand)
  | restrictionOperand (operand : Operand)
  | evalMissing
  | evalOperand (operand : Operand)
  | anchorOperand (operand : Operand)
  | unknownAction (action : String)
  | secondSupertype (first : String)
  deriving DecidableEq

def DeclarationFault.message : DeclarationFault → String
  | .token fault => fault.message
  | .declaredTwice => "constant declared more than once"
  | .operandCount expected actual =>
    "expected " ++ Decimal.naturalText expected ++ " operand(s), got " ++
      Decimal.naturalText actual
  | .literalOperand operand => "literal expects a scalar, got " ++ operand.text
  | .typeOperand operand => "type expects a descriptor, got " ++ operand.text
  | .functionMissing => "function expects a function name"
  | .functionOperand operand => "function expects a function name, got " ++ operand.text
  | .restrictionOperand operand => "restriction entries must be types, got " ++ operand.text
  | .evalMissing => "eval expects a function operand"
  | .evalOperand operand => "eval expects a function operand, got " ++ operand.text
  | .anchorOperand operand => "unexpected anchor operand " ++ operand.text
  | .unknownAction action => "unknown action '" ++ action ++ "'"
  | .secondSupertype first => "second supertype mapping (first was '" ++ first ++ "')"

/-- Why a native function refuses its arguments. -/
inductive NativeFault where
  | integerOverflow
  | notInts (first second : Kind)
  | notLists (first second : Kind)
  | speciesRaw (actual : Kind)
  | noDescriptor (actual : Kind)
  | host (reason : String)
  deriving DecidableEq

def NativeFault.message : NativeFault → String
  | .integerOverflow => "integer overflow"
  | .notInts first second => "expected two ints, got " ++ first.text ++ " and " ++ second.text
  | .notLists first second => "expected two lists, got " ++ first.text ++ " and " ++ second.text
  | .speciesRaw actual => "species raw must be a type, got " ++ actual.text
  | .noDescriptor actual => "no descriptor for " ++ actual.text
  | .host reason => reason

/-- Why an evaluation or a call fails. -/
inductive LinkageFault where
  | native (fault : NativeFault)
  | arityMismatch (expected actual : Nat)
  | indexOutOfRange
  | notListAndInt (first second : Kind)
  | speciesRaw (actual : Kind)
  | notSpecies (actual : Kind)
  | unknownFunction (name : String)
  | tooManyBound (count : Nat) (function : String) (arity : Nat)
  | restrictionEntry (actual : Kind)
  | notSupertypeSpecies (actual : Kind)
  | supertypeSpecies
  | evalTarget (actual : Kind)
  | callTarget (actual : Kind)
  | notEvaluated
  | undeclaredAnchor
  | unboundParameters (level : Level)
  | notRestriction (actual : Kind)
  | notSpeciesLinkage
  deriving DecidableEq

def LinkageFault.message : LinkageFault → String
  | .native fault => fault.message
  | .arityMismatch expected actual =>
    "arity mismatch: expected " ++ Decimal.naturalText expected ++ ", got " ++
      Decimal.naturalText actual
  | .indexOutOfRange => "index out of range"
  | .notListAndInt first second =>
    "expected list and int, got " ++ first.text ++ " and " ++ second.text
  | .speciesRaw actual => "species raw type must be a type, got " ++ actual.text
  | .notSpecies actual => "expected a species, got " ++ actual.text
  | .unknownFunction name => "no function named '" ++ name ++ "'"
  | .tooManyBound count function arity =>
    "cannot bind " ++ Decimal.naturalText count ++ " argument(s) to '" ++ function ++
      "' of arity " ++ Decimal.naturalText arity
  | .restrictionEntry actual => "restriction entries must be types, got " ++ actual.text
  | .notSupertypeSpecies actual => "supertype mapping must be a species, got " ++ actual.text
  | .supertypeSpecies => "supertype mapping must be a species"
  | .evalTarget actual => "eval target must be a function, got " ++ actual.text
  | .callTarget actual => "call target must be a function, got " ++ actual.text
  | .notEvaluated => "dependency was not evaluated"
  | .undeclaredAnchor => "anchor is not declared"
  | .unboundParameters level => "no " ++ level.text ++ "-scope parameters are bound"
  | .notRestriction actual => "expected a restriction, got " ++ actual.text
  | .notSpeciesLinkage => "expected a linkage of a species"

inductive ConstantError where
  | topology (constant : String) (fault : TopologyFault)
  | divergentAnchor (constant first second : String)
  | unresolvedReference (constant reference : String)
  | undeclaredAnchor (constant anchor : String)
  | malformedDeclaration (constant : String) (fault : DeclarationFault)
  | linkage (action : String) (arguments : List String) (fault : LinkageFault)
  deriving DecidableEq

namespace ConstantError

def message : ConstantError → String
  | .topology constant fault =>
    "Topology error in constant '" ++ constant ++ "': " ++ fault.message
  | .divergentAnchor constant first second =>
    "Divergent anchors in constant '" ++ constant ++ "': '" ++ first ++ "' and '" ++ second ++
      "' are not on one parent chain"
  | .unresolvedReference constant reference =>
    "Unresolved reference in constant '" ++ constant ++ "': '" ++ reference ++
      "' is not declared"
  | .undeclaredAnchor constant anchor =>
    "Undeclared anchor in constant '" ++ constant ++ "': '" ++ anchor ++
      "' is not a specialization point"
  | .malformedDeclaration constant fault =>
    "Malformed declaration '" ++ constant ++ "': " ++ fault.message
  | .linkage action arguments fault =>
    "Evaluation linkage error in '" ++ action ++ "' with arguments " ++ listText arguments ++
      ": " ++ fault.message

/-- Whether the error rejects a class, as opposed to failing one evaluation. -/
def isAnalysis : ConstantError → Bool
  | .linkage _ _ _ => false
  | _ => true

end ConstantError

inductive Error where
  | constants (error : ConstantError)
  | restrictionViolation (slot : Nat) (expected : List Descriptor) (actual : Descriptor)
  | notSpecializable (location : String)
  | notASupertype (descriptor ancestor : Descriptor)
  | supertypeMismatch (descriptor expected found : Descriptor)
  | supertypeDepthExceeded (descriptor : Descriptor) (limit : Nat)
  | unknownClass (descriptor : Descriptor)
  | duplicateClass (descriptor : Descriptor)
  | unknownMethod (descriptor : Descriptor) (method : String)
  | noConstantInFlight
  | noAmbientCarrier (constant : String)
  | carrierMismatch (constant : String) (expected found : Descriptor)
  | missingArgument (slot : Nat)
  | missingCarrierParameters (level : Level)
  deriving DecidableEq

namespace Error

/-- The adaptation of a call target that inserts the parameters of a level. -/
def insertionName : Level → String
  | .ofClass => "InsertCarrier"
  | .ofMethod => "InsertMethodCarrier"

def message : Error → String
  | .constants error => error.message
  | .restrictionViolation slot expected actual =>
    "Restriction violation at slot " ++ Decimal.naturalText slot ++ ": expected one of " ++
      listText expected ++ ", got '" ++ actual ++ "'"
  | .notSpecializable location =>
    "Class '" ++ location ++ "' declares no default parameters and cannot be specialized"
  | .notASupertype descriptor ancestor =>
    "'" ++ ancestor ++ "' is not a supertype of '" ++ descriptor ++ "'"
  | .supertypeMismatch descriptor expected found =>
    "Supertype mapping of '" ++ descriptor ++ "' names '" ++ found ++
      "' but its direct supertype is '" ++ expected ++ "'"
  | .supertypeDepthExceeded descriptor limit =>
    "Supertype chain of '" ++ descriptor ++ "' is deeper than " ++ Decimal.naturalText limit
  | .unknownClass descriptor => "Unknown class '" ++ descriptor ++ "'"
  | .duplicateClass descriptor => "Class '" ++ descriptor ++ "' is already defined"
  | .unknownMethod descriptor method =>
    "Unknown method '" ++ method ++ "' on '" ++ descriptor ++ "'"
  | .noConstantInFlight => "No constant is in flight on this thread"
  | .noAmbientCarrier constant =>
    "Constant '" ++ constant ++ "' depends on an anchor but no carrier is ambient"
  | .carrierMismatch constant expected found =>
    "Constant '" ++ constant ++ "' reads the carrier of '" ++ expected ++
      "' but the carrier belongs to '" ++ found ++ "'"
  | .missingArgument slot =>
    "Restricted argument slot " ++ Decimal.naturalText slot ++ " was not supplied"
  | .missingCarrierParameters level =>
    "Call target adaptation " ++ insertionName level ++
      " needs carrier parameters but none are bound"

/-- Whether the failure is a mismatch of types that a caller can observe, as opposed to a malformed
class or broken linkage. -/
def isTypeMismatch : Error → Bool
  | .restrictionViolation _ _ _ => true
  | _ => false

end Error

end Specialization

import Specialization.CallSite.Target

/-!
Inline caches. A call site keeps one target under a guard: a call whose key matches the guard goes
to the target, and any other call resolves a new target that replaces the old one. A resolution
that fails changes nothing.
-/

namespace Specialization

/-- Keys that guards compare. -/
class GuardKey (κ : Type) where
  admits : κ → κ → Bool

structure Link (κ : Type) where
  guard : κ
  target : Target

structure InlineCache (κ : Type) where
  current : Option (Link κ) := none
  /-- How many targets have been installed. -/
  relinks : Nat := 0

namespace InlineCache

variable {κ : Type} [GuardKey κ]

def isLinked (cache : InlineCache κ) : Bool :=
  cache.current.isSome

/-- The link whose guard matches a key. -/
def find? (cache : InlineCache κ) (key : κ) : Option (Link κ) :=
  cache.current.filter fun link => GuardKey.admits link.guard key

def install (cache : InlineCache κ) (link : Link κ) : InlineCache κ :=
  { current := some link, relinks := cache.relinks + 1 }

variable {m : Type → Type} [Monad m]

/-- The link for a key, resolved and installed if the guard does not match. -/
def link (cache : InlineCache κ) (key : κ) (resolve : ExceptT Error m Target) :
    m (Except Error (Link κ) × InlineCache κ) := do
  match cache.find? key with
  | some link => return (.ok link, cache)
  | none =>
    match ← resolve.run with
    | .ok target =>
      let link := { guard := key, target }
      return (.ok link, cache.install link)
    | .error error => return (.error error, cache)

/-- Calls the target for a key. The link stays installed if the target itself fails. -/
def invoke (host : Host) (cache : InlineCache κ) (key : κ) (arguments : List Value)
    (resolve : ExceptT Error m Target) : m (Except Error Value × InlineCache κ) := do
  let (linked, next) ← cache.link key resolve
  return (linked.bind fun link => link.target.invoke host arguments, next)

end InlineCache

end Specialization

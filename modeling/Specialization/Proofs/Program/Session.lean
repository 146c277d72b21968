import Specialization.Proofs.World.Run

/-!
Sessions: programs that run on one world. A program keeps what it gets in variables, makes requests
of what it has, and calls call sites. Each command gives a report of what came of it, with what the
store has counted by then. Reports leave out backing types: of an instance they tell the loaded
class and the carrier.
-/

namespace Specialization

/-- The same carrier without its backing type. -/
def Carrier.unbacked (carrier : Carrier) : Carrier :=
  { carrier with backing := none }

/-- The same instance, which holds its carrier itself. -/
def Instance.unbacked (self : Instance) : Instance where
  runtimeClass := .raw self.owner
  held := self.carrier?.map Carrier.unbacked

def Guard.unbacked (guard : Guard) : Guard where
  carrier := guard.carrier.unbacked
  previous := guard.previous.map Carrier.unbacked

/-- The guard of an instance that holds its carrier itself. -/
def ReceiverGuard.unbacked (guard : ReceiverGuard) : ReceiverGuard :=
  .of (Instance.unbacked { runtimeClass := guard.runtimeClass, held := guard.carrier })

/-- The same cache with its guard translated. -/
def InlineCache.map {ι κ : Type} (f : ι → κ) (cache : InlineCache ι) : InlineCache κ where
  current := cache.current.map fun link => { guard := f link.guard, target := link.target }
  relinks := cache.relinks

def SpecializedCallSite.unbacked (site : SpecializedCallSite) : SpecializedCallSite :=
  { site with cache := site.cache.map Carrier.unbacked }

def ReceiverCallSite.unbacked (site : ReceiverCallSite) : ReceiverCallSite :=
  { site with cache := site.cache.map ReceiverGuard.unbacked }

/-- The kinds of what variables hold. -/
inductive ItemKind where
  | ofClass
  | carrier
  | object
  | guard
  | site
  | receiverSite
  deriving DecidableEq

namespace ItemKind

abbrev Content : ItemKind → Type
  | .ofClass => Class
  | .carrier => Carrier
  | .object => Instance
  | .guard => Guard
  | .site => SpecializedCallSite
  | .receiverSite => ReceiverCallSite

def unbacked : (kind : ItemKind) → kind.Content → kind.Content
  | .ofClass, self => self
  | .carrier, known => known.unbacked
  | .object, self => self.unbacked
  | .guard, entered => entered.unbacked
  | .site, created => created.unbacked
  | .receiverSite, created => created.unbacked

end ItemKind

/-- What a variable holds. -/
structure Item where
  kind : ItemKind
  content : kind.Content

namespace Item

def unbacked (item : Item) : Item where
  kind := item.kind
  content := item.kind.unbacked item.content

/-- The content of an item of a kind. -/
def as? (item : Item) (kind : ItemKind) : Option kind.Content :=
  if h : item.kind = kind then some (h ▸ item.content) else none

theorem as?_self (item : Item) : item.as? item.kind = some item.content :=
  dif_pos rfl

theorem as?_of_ne {item : Item} {kind : ItemKind} (h : item.kind ≠ kind) :
    item.as? kind = none :=
  dif_neg h

end Item

/-- A request. What it is about is in variables, unless it is looked up by its descriptor. -/
inductive Request where
  | define (spec : ClassSpec)
  | find (descriptor : Descriptor)
  | carrier (owner : String) (requested : Option Value)
  | methodCarrier (owner : String) (classParameters : Option Value) (signature : String)
      (requested : Option Value)
  | instantiate (descriptor : Descriptor) (requested : Option Value)
  | specialize (carrier : String)
  | plain (owner : String)
  | carrierOf (object : String)
  | link (request : Value)
  | supertype (carrier : String) (ancestor : Descriptor)
  | enter (carrier : String)
  | exit (guard : String)
  | mark (descriptor : Descriptor) (constant : String)
  | read
  | site (owner : String) (constant : String) (adaptation : Adaptation)
      (restrictions : List (Nat × String))
  | receiverSite (method : String) (adaptation : Adaptation)

inductive Command where
  /-- Makes a request, and keeps in a variable what comes of it. -/
  | request (name : String) (request : Request)
  | call (site carrier : String) (arguments : List Value)
  | dispatch (site object : String) (arguments : List Value)

inductive Answer where
  /-- A variable does not hold what the command is about. -/
  | refused
  | nothing
  | value (value : Value)
  | item (item : Item)

namespace Answer

def unbacked : Answer → Answer
  | .item found => .item found.unbacked
  | answer => answer

def ofCarrier? : Option Carrier → Answer
  | some carrier => .item ⟨.carrier, carrier⟩
  | none => .nothing

end Answer

/-- What is told of a command: its result, how often its call site was linked, and what the store
has counted. -/
structure Report where
  answer : Except Error Answer
  relinks : Option Nat
  hits : Nat
  misses : Nat
  lostRaces : Nat
  carriers : Nat

structure Session where
  world : World
  /-- What variables hold, those assigned last first. -/
  bindings : List (String × Item) := []

namespace Session

variable (host : Host)

/-- A session in which nothing was done yet. -/
def start (config : Config) (functions : Registry) : Session where
  world := { store := { config }, loader := { functions } }

/-- What a variable holds, if it is of a kind. -/
def get? (session : Session) (kind : ItemKind) (name : String) : Option kind.Content :=
  (session.bindings.lookup name).bind fun item => item.as? kind

/-- An operation on what a variable holds, which is refused if that is of another kind. -/
def on (session : Session) (kind : ItemKind) (name : String)
    (act : kind.Content → Operation Answer) : Operation Answer :=
  match session.get? kind name with
  | some content => act content
  | none => return .refused

def operation (session : Session) : Request → Operation Answer
  | .define spec => return .item ⟨.ofClass, ← Specialization.define spec⟩
  | .find descriptor => return .item ⟨.ofClass, ← findClass descriptor⟩
  | .carrier owner requested =>
    session.on .ofClass owner fun self =>
      return .item ⟨.carrier, ← resolve (.ofClass self) requested⟩
  | .methodCarrier owner classParameters signature requested =>
    session.on .ofClass owner fun self =>
      return .item ⟨.carrier, ← resolve (.ofMethod self classParameters signature) requested⟩
  | .instantiate descriptor requested =>
    return .item ⟨.object, ← Specialization.instantiate descriptor requested⟩
  | .specialize carrier =>
    session.on .carrier carrier fun known => return .item ⟨.object, .ofCarrier known⟩
  | .plain owner => session.on .ofClass owner fun self => return .item ⟨.object, .plain self⟩
  | .carrierOf object =>
    session.on .object object fun self => return .ofCarrier? self.carrier?
  | .link request => return .item ⟨.carrier, ← Specialization.link request⟩
  | .supertype carrier ancestor =>
    session.on .carrier carrier fun known =>
      return .ofCarrier? (← supertypeCarrierNamed host known ancestor)
  | .enter carrier =>
    session.on .carrier carrier fun known =>
      return .item ⟨.guard, ← Specialization.enter known⟩
  | .exit guard =>
    session.on .guard guard fun entered => do
      entered.exit
      return .nothing
  | .mark descriptor constant => do
    markInFlight descriptor constant
    return .nothing
  | .read => return .value (← resolveAmbientConstant host)
  | .site owner constant adaptation restrictions =>
    session.on .ofClass owner fun self =>
      return .item ⟨.site, { owner := self, constant, adaptation, restrictions }⟩
  | .receiverSite method adaptation => return .item ⟨.receiverSite, { method, adaptation }⟩

/-- What variables hold after a request was answered. -/
def assign (name : String) (answer : Except Error Answer) (bindings : List (String × Item)) :
    List (String × Item) :=
  match answer with
  | .ok (.item item) => (name, item) :: bindings
  | _ => bindings

def report (session : Session) (answer : Except Error Answer) (relinks : Option Nat) : Report where
  answer := answer.map Answer.unbacked
  relinks
  hits := session.world.store.hits
  misses := session.world.store.misses
  lostRaces := session.world.store.lostRaces
  carriers := session.world.store.carriers.length

def step (session : Session) : Command → Report × Session
  | .request name request =>
    let (answer, world) := exec (session.operation host request) session.world
    let next : Session := { world, bindings := assign name answer session.bindings }
    (next.report answer none, next)
  | .call name key arguments =>
    match session.get? .site name, session.get? .carrier key with
    | some site, some carrier =>
      let ((result, used), world) :=
        (site.invoke host carrier arguments).run session.world
      let next : Session := { world, bindings := (name, ⟨.site, used⟩) :: session.bindings }
      (next.report (result.map .value) (some used.cache.relinks), next)
    | _, _ => (session.report (.ok .refused) none, session)
  | .dispatch name key arguments =>
    match session.get? .receiverSite name, session.get? .object key with
    | some site, some receiver =>
      let ((result, used), world) :=
        (site.invoke host receiver arguments).run session.world
      let next : Session :=
        { world, bindings := (name, ⟨.receiverSite, used⟩) :: session.bindings }
      (next.report (result.map .value) (some used.cache.relinks), next)
    | _, _ => (session.report (.ok .refused) none, session)

/-- The reports of a program. -/
def reports (session : Session) : List Command → List Report
  | [] => []
  | command :: rest =>
    let (report, next) := session.step host command
    report :: next.reports rest

end Session

end Specialization

import Specialization.Proofs.CallSite.Parallel
import Specialization.Proofs.Program.Standing

/-!
Turns of a program, each with its answer: a request, a constant that is marked and read at once, or
a call. Answers are compared without the numbers that tell classes and carriers apart, and by the
pattern of which of them come with the same class or the same carrier.
-/

namespace Specialization

/-- Requests that mean something on their own. A constant is marked only to be read next. -/
def Request.standsAlone : Request → Bool
  | .mark _ _ | .read => false
  | _ => true

inductive Turn where
  | request (name : String) (request : Request) (alone : request.standsAlone)
  | read (descriptor : Descriptor) (constant : String)
  | call (site carrier : String) (arguments : List Value)
  | dispatch (site object : String) (arguments : List Value)

/-- The commands that a turn consists of. -/
def Turn.commands : Turn → List Command
  | .request name asked _ => [.request name asked]
  | .read descriptor constant =>
    [.request "" (.mark descriptor constant), .request "" .read]
  | .call site carrier arguments => [.call site carrier arguments]
  | .dispatch site object arguments => [.dispatch site object arguments]

namespace Session

variable (host : Host)

/-- Performs a turn, and keeps in a variable what comes of a request. -/
def perform (session : Session) : Turn → Except Error Answer × Session
  | .request name request _ =>
    let (answer, world) := exec (session.operation host request) session.world
    (answer, { world, bindings := assign name answer session.bindings })
  | .read descriptor constant =>
    let (value, world) := exec (readMarked host descriptor constant) session.world
    (value.map .value, { session with world })
  | .call name key arguments =>
    match session.get? .site name, session.get? .carrier key with
    | some site, some carrier =>
      let ((result, used), world) := (site.invoke host carrier arguments).run session.world
      (result.map .value, { world, bindings := (name, ⟨.site, used⟩) :: session.bindings })
    | _, _ => (.ok .refused, session)
  | .dispatch name key arguments =>
    match session.get? .receiverSite name, session.get? .object key with
    | some site, some receiver =>
      let ((result, used), world) := (site.invoke host receiver arguments).run session.world
      (result.map .value, { world, bindings := (name, ⟨.receiverSite, used⟩) :: session.bindings })
    | _, _ => (.ok .refused, session)

/-- The answers to the turns of a program. -/
def answers (session : Session) : List Turn → List (Except Error Answer)
  | [] => []
  | turn :: rest => (session.perform host turn).1 :: answers (session.perform host turn).2 rest

theorem exec_read (session : Session) : exec (session.operation host .read) session.world =
    ((exec (resolveAmbientConstant host) session.world).1.map .value,
      (exec (resolveAmbientConstant host) session.world).2) :=
  exec_bind_pure _ _ _

/-- Performing a turn is running its commands, and the answer is what the last of them reports. -/
theorem perform_commands (session : Session) (turn : Turn) :
    turn.commands.foldl (fun session command => (session.step host command).2) session =
        (session.perform host turn).2 ∧
      (session.reports host turn.commands).getLast?.map Report.answer =
        some ((session.perform host turn).1.map Answer.unbacked) := by
  cases turn with
  | request name request alone => exact ⟨rfl, rfl⟩
  | read descriptor constant =>
      let marked : Session :=
        { session with world := (exec (markInFlight descriptor constant) session.world).2 }
      have hmark : (session.step host (.request "" (.mark descriptor constant))).2 = marked := rfl
      have hperform : exec (readMarked host descriptor constant) session.world =
          exec (resolveAmbientConstant host) marked.world := rfl
      simp only [Turn.commands, List.foldl_cons, List.foldl_nil, reports, perform,
        List.getLast?_cons_cons, List.getLast?_singleton, Option.map_some]
      rw [hmark, hperform]
      simp only [step, exec_read]
      cases (exec (resolveAmbientConstant host) marked.world).1 <;> exact ⟨rfl, rfl⟩
  | call name key arguments =>
      simp only [Turn.commands, List.foldl_cons, List.foldl_nil, reports, step, perform]
      cases session.get? .site name <;> cases session.get? .carrier key <;> exact ⟨rfl, rfl⟩
  | dispatch name key arguments =>
      simp only [Turn.commands, List.foldl_cons, List.foldl_nil, reports, step, perform]
      cases session.get? .receiverSite name <;> cases session.get? .object key <;>
        exact ⟨rfl, rfl⟩

section Calls

variable {host} {session : Session} {name key : String} (arguments : List Value)

theorem perform_call {site : SpecializedCallSite} {carrier : Carrier}
    (hsite : session.get? .site name = some site)
    (hcarrier : session.get? .carrier key = some carrier) :
    session.perform host (.call name key arguments) =
      let outcome := (site.resolver host).call host arguments site.cache carrier session.world
      let used : SpecializedCallSite := { site with cache := outcome.1.2 }
      (outcome.1.1.map .value,
        { world := outcome.2, bindings := (name, ⟨.site, used⟩) :: session.bindings }) := by
  simp only [perform, hsite, hcarrier]
  rfl

theorem perform_call_refused
    (h : session.get? .site name = none ∨ session.get? .carrier key = none) :
    session.perform host (.call name key arguments) = (.ok .refused, session) := by
  rcases h with hsite | hcarrier
  · simp only [perform, hsite]
  · cases hsite : session.get? .site name <;> simp only [perform, hsite, hcarrier]

theorem perform_dispatch {site : ReceiverCallSite} {receiver : Instance}
    (hsite : session.get? .receiverSite name = some site)
    (hreceiver : session.get? .object key = some receiver) :
    session.perform host (.dispatch name key arguments) =
      let outcome := (site.resolver host).call host arguments site.cache receiver session.world
      let used : ReceiverCallSite := { site with cache := outcome.1.2 }
      (outcome.1.1.map .value,
        { world := outcome.2, bindings := (name, ⟨.receiverSite, used⟩) :: session.bindings }) := by
  simp only [perform, hsite, hreceiver]
  rfl

theorem perform_dispatch_refused
    (h : session.get? .receiverSite name = none ∨ session.get? .object key = none) :
    session.perform host (.dispatch name key arguments) = (.ok .refused, session) := by
  rcases h with hsite | hreceiver
  · simp only [perform, hsite]
  · cases hsite : session.get? .receiverSite name <;> simp only [perform, hsite, hreceiver]

end Calls

end Session

/-- The functions in the values of a request are of a vocabulary. -/
def Request.CoveredBy (vocabulary : Vocabulary) : Request → Prop
  | .carrier _ requested => vocabulary.CoversOption requested
  | .methodCarrier _ classParameters _ requested =>
    vocabulary.CoversOption classParameters ∧ vocabulary.CoversOption requested
  | .instantiate _ requested => vocabulary.CoversOption requested
  | .link request => vocabulary.Covers request
  | _ => True

def Turn.CoveredBy (vocabulary : Vocabulary) : Turn → Prop
  | .request _ asked _ => asked.CoveredBy vocabulary
  | _ => True

def Guard.unnumbered (guard : Guard) : Guard where
  carrier := guard.carrier.unnumbered
  previous := guard.previous.map Carrier.unnumbered

/-- The same call site as it was created. -/
def SpecializedCallSite.unnumbered (site : SpecializedCallSite) : SpecializedCallSite :=
  { site with owner := site.owner.unnumbered, cache := {} }

def ReceiverCallSite.unnumbered (site : ReceiverCallSite) : ReceiverCallSite :=
  { site with cache := {} }

def ItemKind.unnumbered : (kind : ItemKind) → kind.Content → kind.Content
  | .ofClass, self => self.unnumbered
  | .carrier, known => known.unnumbered
  | .object, self => self.unnumbered
  | .guard, entered => entered.unnumbered
  | .site, created => created.unnumbered
  | .receiverSite, created => created.unnumbered

def Item.unnumbered (item : Item) : Item where
  kind := item.kind
  content := item.kind.unnumbered item.content

namespace Answer

def unnumbered : Answer → Answer
  | .item found => .item found.unnumbered
  | answer => answer

/-- The class that is returned, or that of the instance that is. -/
def class? : Answer → Option Class
  | .item ⟨.ofClass, self⟩ => some self
  | .item ⟨.object, self⟩ => some self.owner
  | _ => none

/-- The carrier that is returned, that of the instance, or the one that was made ambient. -/
def carrier? : Answer → Option Carrier
  | .item ⟨.carrier, known⟩ => some known
  | .item ⟨.object, self⟩ => self.carrier?
  | .item ⟨.guard, entered⟩ => some entered.carrier
  | _ => none

/-- Which answers come with the same thing as which others. -/
def pattern {α : Type} [BEq α] (part : Answer → Option α) (answers : List (Except Error Answer)) :
    List (List Bool) :=
  answers.map fun first => answers.map fun second =>
    first.toOption.bind part == second.toOption.bind part

end Answer

end Specialization

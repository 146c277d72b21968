import Specialization.Proofs.Program.Standing
import Specialization.Proofs.World.Disguise

/-!
Backing types cannot be observed. A session in a world that makes backing types and the same session
in a world that makes none give the same reports, command by command: a receiver finds the same
carrier whether it holds it or has it from its runtime class, and the guards of receivers that are
made in either way match in the same cases.
-/

namespace Specialization

variable (host : Host)

def Store.Entry.unbacked (entry : Store.Entry) : Store.Entry :=
  { entry with carrier := entry.carrier.unbacked }

/-- The same world, in which no backing type was made and none is asked for. -/
def World.unbacked (world : World) : World :=
  { world with
    store := { world.store with
      config := { world.store.config with synthesizeBackingTypes := false }
      entries := world.store.entries.map Store.Entry.unbacked
      supertypes := world.store.supertypes.map (Prod.map id Carrier.unbacked)
      backingNames := 0 }
    ambient := { world.ambient with carrier := world.ambient.carrier.map Carrier.unbacked } }

def Disguise.unbacked : Disguise where
  world := World.unbacked
  carrier := Carrier.unbacked
  number _ := rfl
  location _ := rfl
  scope _ := rfl
  loader _ := rfl
  nextClass _ := rfl
  values _ := rfl
  limit _ := rfl
  found before location parameters := by
    simp only [Store.find?, World.unbacked, List.find?_map, Option.map_map]
    rfl
  above _ _ := lookup_map Carrier.unbacked _ _
  loads _ _ := rfl
  publishes _ _ := rfl
  keeps _ _ := rfl
  hits _ := rfl
  misses _ := rfl
  adds _ _ _ := rfl
  remembers _ _ _ := rfl

namespace Disguise

theorem mirrors_enter (carrier : Carrier) :
    unbacked.Mirrors Guard.unbacked (enter carrier) (enter carrier.unbacked) :=
  fun _ => rfl

theorem mirrors_exit (guard : Guard) : unbacked.Mirrors id guard.exit guard.unbacked.exit :=
  fun _ => rfl

theorem mirrors_mark (descriptor : Descriptor) (constant : String) :
    unbacked.Mirrors id (markInFlight descriptor constant) (markInFlight descriptor constant) :=
  fun _ => rfl

theorem mirrors_takeInFlight : unbacked.Mirrors id takeInFlight takeInFlight := by
  have hclear : unbacked.Mirrors id
      (Operation.modifyAmbient fun ambient => { ambient with inFlight := none })
      (Operation.modifyAmbient fun ambient => { ambient with inFlight := none }) := fun _ => rfl
  apply Mirrors.get
  intro world
  have hmarked : (unbacked.world world).ambient.inFlight = world.ambient.inFlight := rfl
  rw [hmarked]
  refine hclear.bind fun _ => ?_
  split
  · exact Mirrors.pure rfl
  · exact Mirrors.throw _

theorem mirrors_currentCarrier :
    unbacked.Mirrors (Option.map Carrier.unbacked) currentCarrier currentCarrier :=
  fun _ => rfl

theorem mirrors_resolveAmbientConstant :
    unbacked.Mirrors id (resolveAmbientConstant host) (resolveAmbientConstant host) := by
  unfold resolveAmbientConstant
  apply mirrors_takeInFlight.bind
  rintro ⟨descriptor, constant⟩
  apply (mirrors_findClass descriptor).bind
  intro self
  apply mirrors_functions.bind
  intro functions
  dsimp only [id]
  by_cases hdeclared : self.analysis.contains constant
  · simp only [hdeclared, Bool.not_true, Bool.false_eq_true, if_false]
    split
    · apply mirrors_currentCarrier.bind
      intro current
      cases current with
      | none => exact Mirrors.throw _
      | some carrier =>
          exact (mirrors_scopedCarrier host self constant carrier).bind fun own =>
            mirrors_accessorValue host functions self constant own
    · exact mirrors_evaluate host functions self constant .unbound
  · simp only [hdeclared]
    exact Mirrors.throw _

end Disguise

theorem Scene.Sound.unbacked_ofCarrier {scene : Scene} (h : scene.Sound) {carrier : Carrier}
    (hcarrier : scene.Knows carrier) :
    (Instance.ofCarrier carrier).unbacked = .ofCarrier carrier.unbacked := by
  rw [Instance.unbacked, h.owner_ofCarrier hcarrier, Instance.carrier?_ofCarrier]
  rfl

theorem ReceiverGuard.unbacked_of (receiver : Instance) :
    (ReceiverGuard.of receiver).unbacked = .of receiver.unbacked := by
  obtain ⟨classOf, held⟩ := receiver
  cases classOf with
  | raw self => rfl
  | backing type => rfl

theorem ReceiverGuard.admits_self (guard : ReceiverGuard) : GuardKey.admits guard guard := by
  obtain ⟨classOf, carrier⟩ := guard
  have hclass : classOf == classOf := by
    cases classOf with
    | raw self => exact Class.beq_iff.mpr rfl
    | backing type => exact Carrier.beq_iff.mpr rfl
  have hcarrier : carrier == carrier := by
    cases carrier with
    | none => rfl
    | some known => exact Carrier.beq_iff.mpr rfl
  exact Bool.and_eq_true_iff.mpr ⟨hclass, hcarrier⟩

namespace Scene

variable {scene : Scene} {a b : Instance}

/-- Instances are made in one way for each class and carrier. -/
theorem Made.eq (ha : scene.Made a) (hb : scene.Made b) (howner : a.owner = b.owner)
    (hcarrier : a.carrier? = b.carrier?) : a = b := by
  cases ha with
  | ofCarrier _ =>
      rw [Instance.carrier?_ofCarrier] at hcarrier
      cases hb with
      | ofCarrier _ =>
          rw [Instance.carrier?_ofCarrier] at hcarrier
          rw [Option.some.inj hcarrier]
      | plain _ => cases hcarrier
  | plain _ =>
      cases hb with
      | ofCarrier _ =>
          rw [Instance.carrier?_ofCarrier] at hcarrier
          cases hcarrier
      | plain _ => exact congrArg Instance.plain howner

/-- The guards of receivers match exactly if the receivers are the same. -/
theorem Sound.admits_iff (h : scene.Sound) (ha : scene.Made a) (hb : scene.Made b) :
    GuardKey.admits (ReceiverGuard.of a) (ReceiverGuard.of b) ↔ a = b := by
  constructor
  · intro hadmits
    obtain ⟨howner, hcarrier⟩ := h.same_of_admits (ha.knows h) (hb.knows h) hadmits
    exact ha.eq hb howner hcarrier
  · rintro rfl
    exact ReceiverGuard.admits_self _

/-- So do the guards of receivers that hold their carriers themselves. -/
theorem Sound.admits_unbacked_iff (h : scene.Sound) (ha : scene.Made a) (hb : scene.Made b) :
    GuardKey.admits (ReceiverGuard.of a.unbacked) (ReceiverGuard.of b.unbacked) ↔ a = b := by
  constructor
  · intro hadmits
    obtain ⟨hclass, hheld⟩ : a.owner == b.owner ∧
        a.carrier?.map Carrier.unbacked == b.carrier?.map Carrier.unbacked :=
      Bool.and_eq_true_iff.mp hadmits
    have howner := h.class_unique _ (ha.knows h).owner _ (hb.knows h).owner
      (Class.beq_iff.mp hclass)
    refine ha.eq hb howner ?_
    cases hown : a.carrier? with
    | none =>
        cases hother : b.carrier? with
        | none => rfl
        | some other =>
            rw [hown, hother] at hheld
            cases hheld
    | some own =>
        cases hother : b.carrier? with
        | none =>
            rw [hown, hother] at hheld
            cases hheld
        | some other =>
            rw [hown, hother] at hheld
            have hid : own.id = other.id := Carrier.beq_iff.mp hheld
            rw [h.carrier_unique own other (ha.carrier hown) (hb.carrier hother) hid]
  · rintro rfl
    exact ReceiverGuard.admits_self _

end Scene

/-- A cache with translated guards finds what the cache finds, where the translation of its guard
matches in the same cases. -/
theorem InlineCache.run_map {ι κ : Type} [GuardKey ι] [GuardKey κ] {disguise : Disguise} {f : ι → κ}
    {cache : InlineCache ι} {key : ι} (hadmits : ∀ link, cache.current = some link →
      GuardKey.admits (f link.guard) (f key) = GuardKey.admits link.guard key)
    {resolve resolve' : Operation Target} (hresolve : disguise.Mirrors id resolve resolve')
    (arguments : List Value) (world : World) :
    ((cache.map f).invoke host (f key) arguments resolve').run (disguise.world world) =
      let called := (cache.invoke host key arguments resolve).run world
      ((called.1.1, called.1.2.map f), disguise.world called.2) := by
  have hfind : (cache.map f).find? (f key) =
      (cache.find? key).map fun link => { guard := f link.guard, target := link.target } := by
    cases hcurrent : cache.current with
    | none => simp [find?, map, hcurrent]
    | some link => simp [find?, map, hcurrent, Option.filter_some, hadmits link hcurrent, apply_ite]
  rw [run_invoke, run_invoke, hfind]
  cases cache.find? key with
  | some link => rfl
  | none =>
      have hdisguised := hresolve world
      rcases hrun : exec resolve world with ⟨error | target, next⟩
      · rw [hrun] at hdisguised
        simp only [Option.map_none, hdisguised]
        rfl
      · rw [hrun] at hdisguised
        simp only [Option.map_none, hdisguised]
        rfl

theorem SpecializedCallSite.invoke_unbacked (site : SpecializedCallSite) (carrier : Carrier)
    (arguments : List Value) (world : World) :
    (site.unbacked.invoke host carrier.unbacked arguments).run world.unbacked =
      let called := (site.invoke host carrier arguments).run world
      ((called.1.1, called.1.2.unbacked), called.2.unbacked) := by
  have hadmits : ∀ link : Link Carrier, site.cache.current = some link →
      GuardKey.admits link.guard.unbacked carrier.unbacked =
        GuardKey.admits link.guard carrier := fun _ _ => rfl
  have hrun := InlineCache.run_map host hadmits
    (Disguise.unbacked.mirrors_specialized host site carrier) arguments world
  exact congrArg (fun called : (Except Error Value × InlineCache Carrier) × World =>
    ((called.1.1, { site with cache := called.1.2 }), called.2)) hrun

theorem ReceiverCallSite.invoke_unbacked {site : ReceiverCallSite} {receiver : Instance}
    {scene : Scene} (hsound : scene.Sound) (hsite : ItemKind.Known scene .receiverSite site)
    (hreceiver : scene.Made receiver) (arguments : List Value) (world : World) :
    (site.unbacked.invoke host receiver.unbacked arguments).run world.unbacked =
      let called := (site.invoke host receiver arguments).run world
      ((called.1.1, called.1.2.unbacked), called.2.unbacked) := by
  have hadmits : ∀ link : Link ReceiverGuard, site.cache.current = some link →
      GuardKey.admits link.guard.unbacked (ReceiverGuard.of receiver).unbacked =
        GuardKey.admits link.guard (ReceiverGuard.of receiver) := by
    intro link hlink
    obtain ⟨first, hfirst, hguard⟩ := hsite link hlink
    rw [hguard, ReceiverGuard.unbacked_of, ReceiverGuard.unbacked_of, Bool.eq_iff_iff,
      hsound.admits_iff hfirst hreceiver, hsound.admits_unbacked_iff hfirst hreceiver]
  have hresolve : Disguise.unbacked.Mirrors id (site.resolve host receiver)
      (site.resolve host receiver.unbacked) :=
    Disguise.mirrors_receiver host site rfl rfl
  have hrun := InlineCache.run_map host hadmits hresolve arguments world
  rw [ReceiverGuard.unbacked_of] at hrun
  exact congrArg (fun called : (Except Error Value × InlineCache ReceiverGuard) × World =>
    ((called.1.1, { site with cache := called.1.2 }), called.2)) hrun

theorem Instance.unbacked_unbacked (self : Instance) : self.unbacked.unbacked = self.unbacked := by
  have hheld : (self.carrier?.map Carrier.unbacked).map Carrier.unbacked =
      self.carrier?.map Carrier.unbacked := by
    rw [Option.map_map]
    rfl
  exact congrArg (Instance.mk _) hheld

theorem ReceiverGuard.unbacked_unbacked (guard : ReceiverGuard) :
    guard.unbacked.unbacked = guard.unbacked :=
  congrArg ReceiverGuard.of (Instance.unbacked_unbacked _)

theorem InlineCache.map_idem {κ : Type} {f : κ → κ} (cache : InlineCache κ)
    (h : ∀ key, f (f key) = f key) : (cache.map f).map f = cache.map f := by
  obtain ⟨current, relinks⟩ := cache
  cases current with
  | none => rfl
  | some link => simp [map, h]

theorem ItemKind.unbacked_unbacked (kind : ItemKind) (content : kind.Content) :
    kind.unbacked (kind.unbacked content) = kind.unbacked content := by
  cases kind with
  | ofClass => rfl
  | carrier => rfl
  | object => exact Instance.unbacked_unbacked content
  | guard =>
      obtain ⟨carrier, previous⟩ := content
      cases previous with
      | none => rfl
      | some before => rfl
  | site =>
      have hcache : (content.cache.map Carrier.unbacked).map Carrier.unbacked =
        content.cache.map Carrier.unbacked := content.cache.map_idem fun _ => rfl
      exact congrArg (fun cache => { content with cache }) hcache
  | receiverSite =>
      have hcache := content.cache.map_idem ReceiverGuard.unbacked_unbacked
      exact congrArg (fun cache => { content with cache }) hcache

theorem Answer.unbacked_unbacked (answer : Answer) :
    answer.unbacked.unbacked = answer.unbacked := by
  cases answer with
  | item item =>
      exact congrArg (fun content => Answer.item ⟨item.kind, content⟩)
        (item.kind.unbacked_unbacked item.content)
  | refused => rfl
  | nothing => rfl
  | value value => rfl

namespace Session

def unbacked (session : Session) : Session where
  world := session.world.unbacked
  bindings := session.bindings.map (Prod.map id Item.unbacked)

theorem Item.as?_unbacked (item : Item) (kind : ItemKind) :
    item.unbacked.as? kind = (item.as? kind).map kind.unbacked := by
  by_cases hkind : item.kind = kind
  · subst hkind
    rw [item.as?_self]
    exact item.unbacked.as?_self
  · rw [Item.as?_of_ne hkind]
    exact Item.as?_of_ne hkind

theorem get?_unbacked (session : Session) (kind : ItemKind) (name : String) :
    session.unbacked.get? kind name = (session.get? kind name).map kind.unbacked := by
  have hlookup : session.unbacked.bindings.lookup name =
    (session.bindings.lookup name).map Item.unbacked :=
    lookup_map Item.unbacked session.bindings name
  rw [get?, get?, hlookup]
  cases session.bindings.lookup name with
  | none => rfl
  | some item => exact Item.as?_unbacked item kind

theorem Answer.unbacked_ofCarrier? (found : Option Carrier) :
    (Answer.ofCarrier? found).unbacked = .ofCarrier? (found.map Carrier.unbacked) := by
  cases found with
  | none => rfl
  | some carrier => rfl

theorem mirrors_on (session : Session) (kind : ItemKind) (name : String)
    {act act' : kind.Content → Operation Answer}
    (hact : ∀ content, session.get? kind name = some content →
      Disguise.unbacked.Mirrors Answer.unbacked (act content) (act' (kind.unbacked content))) :
    Disguise.unbacked.Mirrors Answer.unbacked (session.on kind name act)
      (session.unbacked.on kind name act') := by
  rw [on, on, get?_unbacked]
  cases hcontent : session.get? kind name with
  | some content => exact hact content hcontent
  | none => exact .pure rfl

open Disguise in
theorem Stands.mirrors_operation {session : Session} {scene : Scene} (h : session.Stands scene)
    {request : Request}
    (hrequest : ∀ descriptor requested, request ≠ .instantiate descriptor requested) :
    Disguise.unbacked.Mirrors Answer.unbacked (session.operation host request)
      (session.unbacked.operation host request) := by
  have hresolve : ∀ location requested, Disguise.unbacked.Mirrors Answer.unbacked
      (resolve location requested >>= fun carrier => pure (.item ⟨.carrier, carrier⟩))
      (resolve location requested >>= fun carrier => pure (.item ⟨.carrier, carrier⟩)) :=
    fun location requested => (mirrors_resolve location requested).bind fun _ => .pure rfl
  cases request with
  | define spec => exact (mirrors_define spec).bind fun _ => .pure rfl
  | find descriptor => exact (mirrors_findClass descriptor).bind fun _ => .pure rfl
  | carrier owner requested =>
      exact session.mirrors_on .ofClass owner fun self _ => hresolve (.ofClass self) requested
  | methodCarrier owner classParameters signature requested =>
      exact session.mirrors_on .ofClass owner fun self _ =>
        hresolve (.ofMethod self classParameters signature) requested
  | instantiate descriptor requested => exact absurd rfl (hrequest descriptor requested)
  | specialize carrier =>
      exact session.mirrors_on .carrier carrier fun known hknown =>
        .pure (congrArg (fun self => Answer.item ⟨.object, self⟩)
          (h.sound.unbacked_ofCarrier (h.known hknown)))
  | plain owner => exact session.mirrors_on .ofClass owner fun _ _ => .pure rfl
  | carrierOf object =>
      exact session.mirrors_on .object object fun self _ =>
        .pure (Answer.unbacked_ofCarrier? self.carrier?)
  | link request => exact (mirrors_link request).bind fun _ => .pure rfl
  | supertype carrier ancestor =>
      exact session.mirrors_on .carrier carrier fun known _ =>
        (mirrors_supertypeCarrierNamed host known ancestor).bind fun found =>
          .pure (Answer.unbacked_ofCarrier? found)
  | enter carrier =>
      exact session.mirrors_on .carrier carrier fun known _ =>
        (mirrors_enter known).bind fun _ => .pure rfl
  | exit guard =>
      exact session.mirrors_on .guard guard fun entered _ =>
        (mirrors_exit entered).bind fun _ => .pure rfl
  | mark descriptor constant =>
      exact (mirrors_mark descriptor constant).bind fun _ => .pure rfl
  | read => exact (mirrors_resolveAmbientConstant host).bind fun _ => .pure rfl
  | site owner constant adaptation restrictions =>
      exact session.mirrors_on .ofClass owner fun _ _ => .pure rfl
  | receiverSite method adaptation => exact .pure rfl

/-- An instance is made for the same carrier, and it is of the class of the carrier since that is
known once it was resolved. -/
theorem Stands.instantiate_unbacked {session : Session} {scene : Scene} (h : session.Stands scene)
    (descriptor : Descriptor) (requested : Option Value) :
    let request := Request.instantiate descriptor requested
    exec (session.unbacked.operation host request) session.unbacked.world =
      ((exec (session.operation host request) session.world).1.map Answer.unbacked,
        (exec (session.operation host request) session.world).2.unbacked) := by
  intro request
  let named : Operation Carrier :=
    findClass descriptor >>= fun self => resolve (.ofClass self) requested
  have hoperation : ∀ session : Session, session.operation host request =
      named >>= fun carrier => pure (.item ⟨.object, .ofCarrier carrier⟩) := by
    intro session
    rw [Session.operation, instantiate_eq, bind_assoc]
    rfl
  have hmirrors : Disguise.unbacked.Mirrors Carrier.unbacked named named :=
    (Disguise.mirrors_findClass descriptor).bind fun self =>
      Disguise.mirrors_resolve (.ofClass self) requested
  have hsettled := Scene.settled_carrierNamed h.sound descriptor requested
  rw [hoperation, hoperation]
  refine hmirrors.map_at session.world fun carrier hcarrier => ?_
  rw [← h.world] at hcarrier
  have hknown := hsettled.holds hcarrier
  exact congrArg (fun self => Answer.item ⟨.object, self⟩)
    ((hsettled.grows.sound h.sound).unbacked_ofCarrier (Or.inl hknown))

theorem Stands.operation_unbacked {session : Session} {scene : Scene} (h : session.Stands scene)
    (request : Request) :
    exec (session.unbacked.operation host request) session.unbacked.world =
      ((exec (session.operation host request) session.world).1.map Answer.unbacked,
        (exec (session.operation host request) session.world).2.unbacked) := by
  by_cases hrequest : ∃ descriptor requested, request = .instantiate descriptor requested
  · obtain ⟨descriptor, requested, rfl⟩ := hrequest
    exact h.instantiate_unbacked host descriptor requested
  · have hother : ∀ descriptor requested, request ≠ .instantiate descriptor requested :=
      fun descriptor requested heq => hrequest ⟨descriptor, requested, heq⟩
    exact h.mirrors_operation host hother session.world

theorem assign_unbacked (name : String) (answer : Except Error Answer)
    (bindings : List (String × Item)) :
    assign name (answer.map Answer.unbacked) (bindings.map (Prod.map id Item.unbacked)) =
      (assign name answer bindings).map (Prod.map id Item.unbacked) := by
  cases answer with
  | error error => rfl
  | ok found =>
      cases found with
      | item item => rfl
      | refused => rfl
      | nothing => rfl
      | value value => rfl

/-- Reports tell nothing of backing types. -/
theorem report_unbacked (session : Session) (answer : Except Error Answer) (relinks : Option Nat) :
    session.unbacked.report (answer.map Answer.unbacked) relinks =
      session.report answer relinks := by
  have hanswer : (answer.map Answer.unbacked).map Answer.unbacked =
      answer.map Answer.unbacked := by
    cases answer with
    | error error => rfl
    | ok found => exact congrArg Except.ok found.unbacked_unbacked
  have hcarriers : session.unbacked.world.store.carriers.length =
      session.world.store.carriers.length := by
    simp [unbacked, World.unbacked, Store.carriers]
  rw [report, report, hanswer, hcarriers]
  rfl

theorem report_value_unbacked (session : Session) (result : Except Error Value)
    (relinks : Option Nat) :
    session.unbacked.report (result.map .value) relinks =
      session.report (result.map .value) relinks := by
  have hvalue : (result.map Answer.value).map Answer.unbacked = result.map Answer.value := by
    cases result with
    | error error => rfl
    | ok value => rfl
  have hreport := session.report_unbacked (result.map .value) relinks
  rwa [hvalue] at hreport

variable {session : Session} {scene : Scene}

theorem Stands.request_unbacked (h : session.Stands scene) (name : String) (request : Request) :
    session.unbacked.step host (.request name request) =
      ((session.step host (.request name request)).1,
        (session.step host (.request name request)).2.unbacked) := by
  rcases hrun : exec (session.operation host request) session.world with ⟨answer, world⟩
  have hdisguised := h.operation_unbacked host request
  rw [hrun] at hdisguised
  have hassigned : Session.assign name (answer.map Answer.unbacked) session.unbacked.bindings =
      (Session.assign name answer session.bindings).map (Prod.map id Item.unbacked) :=
    assign_unbacked name answer session.bindings
  let next : Session := { world, bindings := Session.assign name answer session.bindings }
  simp only [Session.step, hrun, hdisguised, hassigned]
  exact congrArg (fun report => (report, next.unbacked)) (next.report_unbacked answer none)

theorem call_unbacked {name key : String} {site : SpecializedCallSite} {carrier : Carrier}
    (hsite : session.get? .site name = some site)
    (hcarrier : session.get? .carrier key = some carrier) (arguments : List Value) :
    session.unbacked.step host (.call name key arguments) =
      ((session.step host (.call name key arguments)).1,
        (session.step host (.call name key arguments)).2.unbacked) := by
  rcases hrun : (site.invoke host carrier arguments).run session.world with
    ⟨⟨result, used⟩, world⟩
  have hcalled := site.invoke_unbacked host carrier arguments session.world
  rw [hrun] at hcalled
  have hdisguised : (site.unbacked.invoke host carrier.unbacked arguments).run
    session.unbacked.world = ((result, used.unbacked), world.unbacked) := hcalled
  let next : Session := { world, bindings := (name, ⟨.site, used⟩) :: session.bindings }
  simp only [step, get?_unbacked, hsite, hcarrier, Option.map_some, ItemKind.unbacked, hrun,
    hdisguised]
  exact congrArg (fun report => (report, next.unbacked))
    (next.report_value_unbacked result (some used.cache.relinks))

theorem Stands.dispatch_unbacked (h : session.Stands scene) {name key : String}
    {site : ReceiverCallSite} {receiver : Instance}
    (hsite : session.get? .receiverSite name = some site)
    (hreceiver : session.get? .object key = some receiver) (arguments : List Value) :
    session.unbacked.step host (.dispatch name key arguments) =
      ((session.step host (.dispatch name key arguments)).1,
        (session.step host (.dispatch name key arguments)).2.unbacked) := by
  rcases hrun : (site.invoke host receiver arguments).run session.world with
    ⟨⟨result, used⟩, world⟩
  have hcalled := ReceiverCallSite.invoke_unbacked host h.sound (h.known hsite)
    (h.known hreceiver) arguments session.world
  rw [hrun] at hcalled
  have hdisguised : (site.unbacked.invoke host receiver.unbacked arguments).run
    session.unbacked.world = ((result, used.unbacked), world.unbacked) := hcalled
  let next : Session := { world, bindings := (name, ⟨.receiverSite, used⟩) :: session.bindings }
  simp only [Session.step, get?_unbacked, hsite, hreceiver, Option.map_some, ItemKind.unbacked,
    hrun, hdisguised]
  exact congrArg (fun report => (report, next.unbacked))
    (next.report_value_unbacked result (some used.cache.relinks))

/-- A command gives the same report where there are no backing types. -/
theorem Stands.step_unbacked (h : session.Stands scene) (command : Command) :
    session.unbacked.step host command =
      ((session.step host command).1, (session.step host command).2.unbacked) := by
  have hrefused := congrArg (fun report => (report, session.unbacked))
    (session.report_unbacked (.ok .refused) none)
  cases command with
  | request name request => exact h.request_unbacked host name request
  | call name key arguments =>
      cases hsite : session.get? .site name with
      | none =>
          simp only [Session.step, get?_unbacked, hsite]
          exact hrefused
      | some site =>
          cases hcarrier : session.get? .carrier key with
          | none =>
              simp only [Session.step, get?_unbacked, hsite, hcarrier]
              exact hrefused
          | some carrier => exact call_unbacked host hsite hcarrier arguments
  | dispatch name key arguments =>
      cases hsite : session.get? .receiverSite name with
      | none =>
          simp only [Session.step, get?_unbacked, hsite]
          exact hrefused
      | some site =>
          cases hreceiver : session.get? .object key with
          | none =>
              simp only [Session.step, get?_unbacked, hsite, hreceiver]
              exact hrefused
          | some receiver => exact h.dispatch_unbacked host hsite hreceiver arguments

theorem Stands.reports_unbacked (h : session.Stands scene)
    (commands : List Command) :
    session.unbacked.reports host commands = session.reports host commands := by
  induction commands generalizing session scene with
  | nil => rfl
  | cons command rest ih =>
      obtain ⟨later, _, hlater⟩ := h.step host command
      rw [reports, reports, h.step_unbacked]
      exact congrArg (List.cons _) (ih hlater)

/-- Two sessions that differ only in whether backing types are made give the same reports. -/
theorem reports_eq (config : Config) (functions : Registry) (commands : List Command) :
    let reports (synthesizeBackingTypes : Bool) :=
      (start { config with synthesizeBackingTypes } functions).reports host commands
    reports true = reports false := by
  intro reports
  have hunbacked : ∀ synthesizeBackingTypes : Bool, reports synthesizeBackingTypes =
      (start { config with synthesizeBackingTypes := false } functions).reports host commands :=
    fun synthesizeBackingTypes =>
      ((start_stands { config with synthesizeBackingTypes } functions).reports_unbacked host
        commands).symm
  rw [hunbacked true, hunbacked false]

/-- A class with a method that has parameters of its own. -/
def mappableBox : ClassSpec where
  descriptor := "Box"
  defaults := ["Object"]
  methods := [{ name := "map", implementation := "map", defaults := ["Object"] }]
  constants := [{ name := "map", action := "function", operands := [.function "list.concat"] }]

/-- Calls on instances of the class, of a carrier of its method, and of no carrier. -/
def mixedReceivers : List Command :=
  let arguments : List Value := [.list [], .list []]
  [.request "Box" (.define mappableBox),
    .request "site" (.receiverSite "map" .none),
    .request "specialized" (.instantiate "Box" none),
    .request "ofMap" (.methodCarrier "Box" none "map" (some (.type "String"))),
    .request "methodLevel" (.specialize "ofMap"),
    .request "plain" (.plain "Box"),
    .dispatch "site" "specialized" arguments,
    .dispatch "site" "specialized" arguments,
    .dispatch "site" "methodLevel" arguments,
    .dispatch "site" "plain" arguments,
    .dispatch "site" "plain" arguments,
    .dispatch "site" "specialized" arguments]

/-- The site is linked anew when another kind of receiver comes, in both cases alike. -/
theorem reports_mixedReceivers :
    let host : Host := fun _ _ => .error "absent"
    let reports (synthesizeBackingTypes : Bool) :=
      (start { synthesizeBackingTypes } .standard).reports host mixedReceivers
    reports true = reports false ∧
      (reports true).filterMap Report.relinks = [1, 1, 2, 3, 3, 4] ∧
      (reports true).getLast?.map (fun report =>
        (report.hits, report.misses, report.lostRaces, report.carriers)) = some (1, 2, 0, 2) :=
  ⟨reports_eq _ {} .standard mixedReceivers, by decide +kernel, by decide +kernel⟩

end Session

end Specialization

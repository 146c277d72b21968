import Specialization.Proofs.Program.Session

/-!
What sessions stand on. All that the variables of a session hold belongs to one sound scene with the
world of the session, and a command leads to a session of which that is true again.
-/

namespace Specialization

variable (host : Host)

namespace Scene

/-- An instance that a program has made, for a carrier or for none. -/
inductive Made (scene : Scene) : Instance → Prop
  | ofCarrier {carrier : Carrier} (h : scene.Knows carrier) : Made scene (.ofCarrier carrier)
  | plain {self : Class} (h : self ∈ scene.classes) : Made scene (.plain self)

variable {scene later : Scene}

theorem Made.grow {self : Instance} (h : scene.Made self) (hgrows : scene.Grows later) :
    later.Made self := by
  cases h with
  | ofCarrier hcarrier => exact .ofCarrier (hcarrier.grow hgrows)
  | plain hself => exact .plain (hgrows.classes _ hself)

theorem Made.carrier {self : Instance} (h : scene.Made self) {carrier : Carrier}
    (hcarrier : self.carrier? = some carrier) : scene.Knows carrier := by
  cases h with
  | ofCarrier hknown =>
      rw [Instance.carrier?_ofCarrier] at hcarrier
      exact Option.some.inj hcarrier ▸ hknown
  | plain _ => cases hcarrier

theorem Made.knows {self : Instance} (h : scene.Made self) (hsound : scene.Sound) :
    scene.KnowsInstance self := by
  cases h with
  | ofCarrier hknown => exact .ofCarrier hsound hknown
  | plain hself => exact .plain hself

end Scene

/-- What a variable holds belongs to a scene. The guard of a call site on receivers is that of some
instance. -/
def ItemKind.Known (scene : Scene) : (kind : ItemKind) → kind.Content → Prop
  | .ofClass, self => self ∈ scene.classes
  | .carrier, known => scene.Knows known
  | .object, self => scene.Made self
  | .guard, entered => ∀ carrier, entered.previous = some carrier → scene.Knows carrier
  | .site, created => created.owner ∈ scene.classes
  | .receiverSite, created => ∀ link, created.cache.current = some link →
    ∃ receiver, scene.Made receiver ∧ link.guard = .of receiver

theorem ItemKind.Known.grow {scene later : Scene} {kind : ItemKind} {content : kind.Content}
    (h : kind.Known scene content) (hgrows : scene.Grows later) : kind.Known later content := by
  cases kind with
  | ofClass => exact hgrows.classes content h
  | carrier => exact Scene.Knows.grow h hgrows
  | object => exact Scene.Made.grow h hgrows
  | guard => exact fun carrier hcarrier => (h carrier hcarrier).grow hgrows
  | site => exact hgrows.classes _ h
  | receiverSite =>
      intro link hlink
      obtain ⟨receiver, hmade, hguard⟩ := h link hlink
      exact ⟨receiver, hmade.grow hgrows, hguard⟩

theorem Item.as?_eq_some {item : Item} {kind : ItemKind} {content : kind.Content}
    (h : item.as? kind = some content) : item = ⟨kind, content⟩ := by
  by_cases hkind : item.kind = kind
  · subst hkind
    rw [as?_self] at h
    exact congrArg (Item.mk item.kind) (Option.some.inj h)
  · rw [as?_of_ne hkind] at h
    cases h

def Answer.Known (scene : Scene) : Answer → Prop
  | .item found => found.kind.Known scene found.content
  | _ => True

theorem Answer.known_ofCarrier? {scene : Scene} {found : Option Carrier}
    (h : ∀ carrier, found = some carrier → scene.Knows carrier) :
    (Answer.ofCarrier? found).Known scene := by
  cases found with
  | none => trivial
  | some carrier => exact h carrier rfl

/-- A call leaves the guard of its cache, or sets it to its key. -/
theorem InlineCache.current_invoke {κ : Type} [GuardKey κ] {cache : InlineCache κ} {key : κ}
    {arguments : List Value} {resolve : Operation Target} {world : World} {link : Link κ}
    (h : ((cache.invoke host key arguments resolve).run world).1.2.current = some link) :
    cache.current = some link ∨ link.guard = key := by
  rw [run_invoke] at h
  split at h
  · exact Or.inl h
  · split at h
    · cases h
      exact Or.inr rfl
    · exact Or.inl h

namespace Session

/-- All that a session holds belongs to a sound scene with the same world. -/
structure Stands (session : Session) (scene : Scene) : Prop where
  world : scene.world = session.world
  sound : scene.Sound
  items : ∀ entry ∈ session.bindings, entry.2.kind.Known scene entry.2.content

variable {session : Session} {scene : Scene}

theorem start_stands (config : Config) (functions : Registry) :
    (start config functions).Stands (.start config functions) where
  world := rfl
  sound := Scene.start_sound config functions
  items _ h := absurd h List.not_mem_nil

theorem Stands.known (h : session.Stands scene) {kind : ItemKind} {name : String}
    {content : kind.Content} (hcontent : session.get? kind name = some content) :
    kind.Known scene content := by
  obtain ⟨item, hitem, hkind⟩ := Option.bind_eq_some_iff.mp hcontent
  have hknown := h.items _ (mem_of_lookup hitem)
  rwa [Item.as?_eq_some hkind] at hknown

/-- An operation on what a variable holds is answered in the same scene, since that is known. -/
theorem Stands.safe_on (h : session.Stands scene) {kind : ItemKind} {name : String}
    {act : kind.Content → Operation Answer}
    (hact : ∀ content, kind.Known scene content → scene.Safe (act content) Answer.Known) :
    scene.Safe (session.on kind name act) Answer.Known := by
  rw [on]
  cases hcontent : session.get? kind name with
  | some content => exact hact content (h.known hcontent)
  | none => exact .pure trivial

/-- A request that defines no class is answered in the same scene. -/
theorem Stands.safe_operation (h : session.Stands scene) {request : Request}
    (hrequest : ∀ spec, request ≠ .define spec) :
    scene.Safe (session.operation host request) Answer.Known := by
  have hsound := h.sound
  have hstored : ∀ (scene : Scene) carrier, carrier ∈ scene.world.store.carriers →
      (Answer.item ⟨.carrier, carrier⟩).Known scene := fun _ _ hcarrier => Or.inl hcarrier
  have hresolve : ∀ (location : Location), location.owner ∈ scene.classes → ∀ requested,
      scene.Safe (resolve location requested >>= fun carrier =>
        pure (.item ⟨.carrier, carrier⟩)) Answer.Known := fun location howner requested =>
    ((Scene.settled_resolve location howner requested).here).map hstored
  cases request with
  | define spec => exact absurd rfl (hrequest spec)
  | find descriptor =>
      have hfind := Scene.settled_findClass hsound descriptor
      exact (hfind.here).map fun _ _ hself => hself
  | carrier owner requested =>
      exact h.safe_on fun self hself => hresolve (.ofClass self) hself requested
  | methodCarrier owner classParameters signature requested =>
      exact h.safe_on fun self hself =>
        hresolve (.ofMethod self classParameters signature) hself requested
  | instantiate descriptor requested =>
      apply ((Scene.settled_instantiate hsound descriptor requested).here).map
      rintro later self ⟨carrier, hcarrier, rfl⟩
      exact .ofCarrier (Or.inl hcarrier)
  | specialize carrier => exact h.safe_on fun known hknown => .pure (Scene.Made.ofCarrier hknown)
  | plain owner => exact h.safe_on fun self hself => .pure (Scene.Made.plain hself)
  | carrierOf object =>
      exact h.safe_on fun self hmade =>
        .pure (Answer.known_ofCarrier? fun carrier => Scene.Made.carrier hmade)
  | link request => exact ((Scene.settled_link hsound request).here).map hstored
  | supertype carrier ancestor =>
      apply h.safe_on
      intro known hknown
      have hclimb := Scene.settled_supertypeCarrierNamed host hsound hknown ancestor
      exact (hclimb.here).map fun _ _ => Answer.known_ofCarrier?
  | enter carrier =>
      exact h.safe_on fun known hknown =>
        (Scene.safe_enter hsound hknown).map fun _ _ hprevious => hprevious
  | exit guard =>
      exact h.safe_on fun entered hentered =>
        (Scene.safe_exit hentered).map fun _ _ _ => trivial
  | mark descriptor constant =>
      exact (Scene.safe_mark hsound descriptor constant).map fun _ _ _ => trivial
  | read => exact (Scene.safe_resolveAmbientConstant host hsound).map fun _ _ _ => trivial
  | site owner constant adaptation restrictions => exact h.safe_on fun self hself => .pure hself
  | receiverSite method adaptation => exact .pure fun _ hlink => nomatch hlink

/-- A class that was defined is one of the classes of the later scene. -/
theorem defineClass_answer (spec : ClassSpec) :
    (scene.defineClass spec).world =
        (scene.after (session.operation host (.define spec))).world ∧
      ∀ answer, scene.result (session.operation host (.define spec)) = .ok answer →
        answer.Known (scene.defineClass spec) := by
  have hoperation : session.operation host (.define spec) =
      Specialization.define spec >>= fun self => pure (.item ⟨.ofClass, self⟩) := rfl
  rw [hoperation, Scene.result_bind_pure, Scene.defineClass]
  cases hresult : scene.result (Specialization.define spec) with
  | error error =>
      rw [Scene.after_bind_error hresult]
      refine ⟨rfl, ?_⟩
      intro answer hanswer
      rw [Except.map] at hanswer
      cases hanswer
  | ok self =>
      rw [Scene.after_bind_ok hresult]
      refine ⟨rfl, ?_⟩
      intro answer hanswer
      rw [Except.map] at hanswer
      obtain rfl := Except.ok.inj hanswer
      exact List.mem_cons_self

/-- The scene after a request: a class that was defined is one of its classes. -/
def answered (session : Session) (scene : Scene) : Request → Scene
  | .define spec => scene.defineClass spec
  | request => scene.after (session.operation host request)

theorem answered_of_ne {request : Request} (hrequest : ∀ spec, request ≠ .define spec) :
    session.answered host scene request = scene.after (session.operation host request) := by
  cases request with
  | define spec => exact absurd rfl (hrequest spec)
  | _ => rfl

/-- A request is answered in a later scene, to which the answer belongs. -/
theorem Stands.operation (h : session.Stands scene) (request : Request) :
    scene.Grows (session.answered host scene request) ∧
      (session.answered host scene request).world =
        (exec (session.operation host request) session.world).2 ∧
      ∀ answer, (exec (session.operation host request) session.world).1 = .ok answer →
        answer.Known (session.answered host scene request) := by
  rw [← h.world]
  by_cases hrequest : ∃ spec, request = .define spec
  · obtain ⟨spec, rfl⟩ := hrequest
    exact ⟨Scene.defineClass_grows h.sound spec, defineClass_answer host spec⟩
  · have hother : ∀ spec, request ≠ .define spec := fun spec heq => hrequest ⟨spec, heq⟩
    obtain ⟨hgrows, hknown⟩ := h.safe_operation host hother
    rw [answered_of_ne host hother]
    exact ⟨hgrows, rfl, hknown⟩

theorem Stands.later (h : session.Stands scene) {later : Scene} (hgrows : scene.Grows later) :
    Stands { session with world := later.world } later where
  world := rfl
  sound := hgrows.sound h.sound
  items entry hentry := (h.items entry hentry).grow hgrows

theorem Stands.bind (h : session.Stands scene) {later : Scene} (hgrows : scene.Grows later)
    (name : String) {item : Item} (hitem : item.kind.Known later item.content) :
    Stands { world := later.world, bindings := (name, item) :: session.bindings } later where
  world := rfl
  sound := hgrows.sound h.sound
  items := by
    intro entry hentry
    rcases List.mem_cons.mp hentry with rfl | hold
    · exact hitem
    · exact (h.items entry hold).grow hgrows

theorem Stands.assign (h : session.Stands scene) {later : Scene} (hgrows : scene.Grows later)
    (name : String) {answer : Except Error Answer}
    (hknown : ∀ found, answer = .ok found → found.Known later) :
    Stands { world := later.world, bindings := assign name answer session.bindings } later := by
  cases answer with
  | error error => exact h.later hgrows
  | ok found =>
      cases found with
      | item item => exact h.bind hgrows name (hknown _ rfl)
      | refused => exact h.later hgrows
      | nothing => exact h.later hgrows
      | value value => exact h.later hgrows

section Calls

variable {key : String} (arguments : List Value) (name : String)

/-- A call leaves what the site belongs to as it was. -/
theorem Stands.called (h : session.Stands scene) {site : SpecializedCallSite} {carrier : Carrier}
    (hsite : session.get? .site name = some site)
    (hcarrier : session.get? .carrier key = some carrier) :
    let outcome := (site.resolver host).call host arguments site.cache carrier scene.world
    let used : SpecializedCallSite := { site with cache := outcome.1.2 }
    let later : Scene := { scene with world := outcome.2 }
    scene.Grows later ∧
      Stands { world := outcome.2, bindings := (name, ⟨.site, used⟩) :: session.bindings } later := by
  have howner : site.owner ∈ scene.classes := h.known hsite
  have hgrows := Resolver.call_grows host (site.resolver_lawful host) h.sound
    ⟨howner, h.known hcarrier⟩ arguments site.cache
  exact ⟨hgrows, h.bind hgrows name howner⟩

/-- After a call the guard of a site on receivers is that of the receiver, or the one of before. -/
theorem Stands.dispatched (h : session.Stands scene) {site : ReceiverCallSite}
    {receiver : Instance} (hsite : session.get? .receiverSite name = some site)
    (hreceiver : session.get? .object key = some receiver) :
    let outcome := (site.resolver host).call host arguments site.cache receiver scene.world
    let used : ReceiverCallSite := { site with cache := outcome.1.2 }
    let later : Scene := { scene with world := outcome.2 }
    scene.Grows later ∧
      Stands { world := outcome.2, bindings := (name, ⟨.receiverSite, used⟩) :: session.bindings }
        later := by
  have hmade : scene.Made receiver := h.known hreceiver
  have hgrows := Resolver.call_grows host (site.resolver_lawful host) h.sound
    (hmade.knows h.sound) arguments site.cache
  refine ⟨hgrows, h.bind hgrows name ?_⟩
  intro link hlink
  have hcurrent : ((site.cache.invoke host (.of receiver) arguments
      (site.resolve host receiver)).run scene.world).1.2.current = some link := hlink
  rcases InlineCache.current_invoke host hcurrent with hold | hnew
  · obtain ⟨first, hfirst, hguard⟩ := h.known hsite link hold
    exact ⟨first, hfirst.grow hgrows, hguard⟩
  · exact ⟨receiver, hmade.grow hgrows, hnew⟩

end Calls

/-- A command leads from one sound scene to a later one. -/
theorem Stands.step (h : session.Stands scene) (command : Command) :
    ∃ later, scene.Grows later ∧ (session.step host command).2.Stands later := by
  have hstill : ∃ later, scene.Grows later ∧ session.Stands later := ⟨scene, .refl scene, h⟩
  cases command with
  | request name request =>
      obtain ⟨hgrows, hworld, hknown⟩ := h.operation host request
      refine ⟨_, hgrows, ?_⟩
      simp only [Session.step]
      rw [← hworld]
      exact h.assign hgrows name hknown
  | call name key arguments =>
      simp only [Session.step, ← h.world]
      split
      · rename_i site carrier hsite hcarrier
        exact ⟨_, h.called host arguments name hsite hcarrier⟩
      · exact hstill
  | dispatch name key arguments =>
      simp only [Session.step, ← h.world]
      split
      · rename_i site receiver hsite hreceiver
        exact ⟨_, h.dispatched host arguments name hsite hreceiver⟩
      · exact hstill

end Session

end Specialization

import Specialization.Proofs.Program.Turn
import Specialization.Proofs.World.ParallelLoading

/-!
Two sessions that match: their scenes are alike, and their variables hold the same things up to
numbers, each in its scene. A turn in one of them has the same answer as the same turn in the other
one, and they match again. A turn that fails in one of them leaves it matching the other one as that
was before.
-/

namespace Specialization

variable {host : Host} {vocabulary : Vocabulary}

/-- Requests that change neither the classes nor what is ambient. -/
def Request.keepsSetting : Request → Bool
  | .define _ | .enter _ | .exit _ => false
  | request => request.standsAlone

namespace Scene

/-- A guard for the same carrier that restores the same one. -/
structure SameGuard (a b : Scene) (guard guard' : Guard) : Prop where
  carrier : a.SameCarrier b guard.carrier guard'.carrier
  previous : Option.Rel (a.SameCarrier b) guard.previous guard'.previous

variable (host)

/-- The same call site, whose cache may keep a target in one scene and none in the other one. -/
structure SameSpecialized (a b : Scene) (site site' : SpecializedCallSite) : Prop where
  created : a.SameSite b site site'
  first : (site.resolver host).Faithful a site.cache
  second : (site'.resolver host).Faithful b site'.cache

structure SameReceiver (a b : Scene) (site site' : ReceiverCallSite) : Prop where
  method : site.method = site'.method
  adaptation : site.adaptation = site'.adaptation
  first : (site.resolver host).Faithful a site.cache
  second : (site'.resolver host).Faithful b site'.cache

variable {host} {a b : Scene}

theorem SameSpecialized.called {site site' : SpecializedCallSite}
    (h : a.SameSpecialized host b site site') (halike : a.Alike host vocabulary b)
    {carrier carrier' : Carrier} (hcarrier : a.SameCarrier b carrier carrier')
    (arguments : List Value) :
    Called host vocabulary a b (site.resolver host) (site'.resolver host)
      ((site.resolver host).call host arguments site.cache carrier a.world)
      ((site'.resolver host).call host arguments site'.cache carrier' b.world) := by
  have hresolve : Parallel host vocabulary a b ((site.resolver host).resolve carrier)
      ((site'.resolver host).resolve carrier') _ :=
    parallel_specialized halike h.created hcarrier
  exact hresolve.called halike (site.resolver_lawful host) (site'.resolver_lawful host) h.first
    h.second ⟨h.created.owner.first, hcarrier.first⟩ ⟨h.created.owner.second, hcarrier.second⟩
    arguments

theorem SameReceiver.called {site site' : ReceiverCallSite}
    (h : a.SameReceiver host b site site') (halike : a.Alike host vocabulary b)
    {receiver receiver' : Instance} (hreceiver : a.SameInstance b receiver receiver')
    (arguments : List Value) :
    Called host vocabulary a b (site.resolver host) (site'.resolver host)
      ((site.resolver host).call host arguments site.cache receiver a.world)
      ((site'.resolver host).call host arguments site'.cache receiver' b.world) := by
  have hresolve : Parallel host vocabulary a b ((site.resolver host).resolve receiver)
      ((site'.resolver host).resolve receiver') _ :=
    parallel_receiver halike h.method h.adaptation hreceiver
  exact hresolve.called halike (site.resolver_lawful host) (site'.resolver_lawful host) h.first
    h.second hreceiver.first hreceiver.second arguments

end Scene

def ItemKind.Same (host : Host) (a b : Scene) :
    (kind : ItemKind) → kind.Content → kind.Content → Prop
  | .ofClass => a.SameClass b
  | .carrier => a.SameCarrier b
  | .object => a.SameInstance b
  | .guard => a.SameGuard b
  | .site => a.SameSpecialized host b
  | .receiverSite => a.SameReceiver host b

inductive Item.Same (host : Host) (a b : Scene) : Item → Item → Prop
  | mk {kind : ItemKind} {content content' : kind.Content}
      (h : kind.Same host a b content content') : Same host a b ⟨kind, content⟩ ⟨kind, content'⟩

inductive Answer.Same (host : Host) (a b : Scene) : Answer → Answer → Prop
  | refused : Same host a b .refused .refused
  | nothing : Same host a b .nothing .nothing
  | value (value : Value) : Same host a b (.value value) (.value value)
  | item {found found' : Item} (h : found.Same host a b found') :
      Same host a b (.item found) (.item found')

section Grow

variable {a b a' b' : Scene}

theorem ItemKind.Same.grow {kind : ItemKind} {content content' : kind.Content}
    (h : kind.Same host a b content content') (hgrows : a.Grows a') (hgrows' : b.Grows b') :
    kind.Same host a' b' content content' := by
  cases kind with
  | ofClass => exact Scene.SameClass.grow h hgrows hgrows'
  | carrier => exact Scene.SameCarrier.grow h hgrows hgrows'
  | object => exact Scene.SameInstance.grow h hgrows hgrows'
  | guard =>
      obtain ⟨hcarrier, hprevious⟩ := h
      refine ⟨hcarrier.grow hgrows hgrows', ?_⟩
      exact optionRel_mono hprevious fun _ _ hsame => hsame.grow hgrows hgrows'
  | site =>
      obtain ⟨hsite, hfirst, hsecond⟩ := h
      exact ⟨hsite.grow hgrows hgrows', hfirst.grow (content.resolver_lawful host) hgrows,
        hsecond.grow (content'.resolver_lawful host) hgrows'⟩
  | receiverSite =>
      obtain ⟨hmethod, hadaptation, hfirst, hsecond⟩ := h
      exact ⟨hmethod, hadaptation, hfirst.grow (content.resolver_lawful host) hgrows,
        hsecond.grow (content'.resolver_lawful host) hgrows'⟩

theorem Item.Same.grow {item item' : Item} (h : item.Same host a b item') (hgrows : a.Grows a')
    (hgrows' : b.Grows b') : item.Same host a' b' item' := by
  obtain ⟨h⟩ := h
  exact ⟨h.grow hgrows hgrows'⟩

theorem Answer.Same.grow {answer answer' : Answer} (h : answer.Same host a b answer')
    (hgrows : a.Grows a') (hgrows' : b.Grows b') : answer.Same host a' b' answer' := by
  cases h with
  | refused => exact .refused
  | nothing => exact .nothing
  | value value => exact .value value
  | item h => exact .item (h.grow hgrows hgrows')

theorem Answer.same_ofCarrier? {found found' : Option Carrier}
    (h : Option.Rel (a.SameCarrier b) found found') :
    (Answer.ofCarrier? found).Same host a b (.ofCarrier? found') := by
  cases h with
  | none => exact .nothing
  | some hsame => exact .item ⟨hsame⟩

theorem Item.Same.as? {item item' : Item} (h : item.Same host a b item') (kind : ItemKind) :
    Option.Rel (kind.Same host a b) (item.as? kind) (item'.as? kind) := by
  obtain ⟨h⟩ := h
  rename_i found content content'
  by_cases hkind : found = kind
  · subst hkind
    rw [Item.as?_self ⟨found, content⟩, Item.as?_self ⟨found, content'⟩]
    exact .some h
  · rw [Item.as?_of_ne hkind, Item.as?_of_ne hkind]
    exact .none

end Grow

namespace Session

structure Matches (host : Host) (vocabulary : Vocabulary) (session session' : Session)
    (a b : Scene) : Prop where
  world : a.world = session.world
  world' : b.world = session'.world
  alike : a.Alike host vocabulary b
  items : ∀ name, Option.Rel (Item.Same host a b) (session.bindings.lookup name)
    (session'.bindings.lookup name)

variable {session session' : Session} {a b a' b' : Scene}

theorem start_matches (config : Config) {functions : Registry}
    (hclosed : vocabulary.Closed host functions) :
    (start config functions).Matches host vocabulary (start config functions)
      (.start config functions) (.start config functions) where
  world := rfl
  world' := rfl
  alike := (Scene.start_exact config hclosed).alike
  items _ := .none

theorem Matches.get? (h : session.Matches host vocabulary session' a b) (kind : ItemKind)
    (name : String) :
    Option.Rel (kind.Same host a b) (session.get? kind name) (session'.get? kind name) := by
  have hitem := h.items name
  rw [Session.get?, Session.get?]
  generalize session.bindings.lookup name = item at hitem ⊢
  generalize session'.bindings.lookup name = item' at hitem ⊢
  cases hitem with
  | none => exact .none
  | some hsame => exact hsame.as? kind

theorem Matches.later (h : session.Matches host vocabulary session' a b) (hgrows : a.Grows a')
    (hgrows' : b.Grows b') (halike : a'.Alike host vocabulary b') :
    Matches host vocabulary { session with world := a'.world }
      { session' with world := b'.world } a' b' where
  world := rfl
  world' := rfl
  alike := halike
  items name := optionRel_mono (h.items name) fun _ _ hsame => hsame.grow hgrows hgrows'

/-- One session goes on, and the other one stays as it is. -/
theorem Matches.continue (h : session.Matches host vocabulary session' a b)
    (hnext : a.Continues host vocabulary a') :
    Matches host vocabulary { session with world := a'.world } session' a' b where
  world := rfl
  world' := h.world'
  alike := h.alike.later hnext (.refl h.alike.second)
  items name :=
    optionRel_mono (h.items name) fun _ _ hsame => hsame.grow hnext.grows (Scene.Grows.refl b)

/-- The same item is kept under the same name in both sessions. -/
theorem Matches.bind (h : session.Matches host vocabulary session' a b) (name : String)
    {item item' : Item} (hitem : item.Same host a b item') :
    Matches host vocabulary { session with bindings := (name, item) :: session.bindings }
      { session' with bindings := (name, item') :: session'.bindings } a b where
  world := h.world
  world' := h.world'
  alike := h.alike
  items other := by
    rw [List.lookup_cons, List.lookup_cons]
    cases other == name with
    | true => exact .some hitem
    | false => exact h.items other

/-- An item is replaced in one session by one that is the same. -/
theorem Matches.rebind (h : session.Matches host vocabulary session' a b) {name : String}
    {item item' : Item} (hname : session'.bindings.lookup name = some item')
    (hitem : item.Same host a b item') :
    Matches host vocabulary { session with bindings := (name, item) :: session.bindings }
      session' a b where
  world := h.world
  world' := h.world'
  alike := h.alike
  items other := by
    rw [List.lookup_cons]
    cases hother : other == name with
    | true =>
        rw [eq_of_beq hother, hname]
        exact .some hitem
    | false => exact h.items other

theorem Matches.assign (h : session.Matches host vocabulary session' a b) (name : String)
    {answer answer' : Except Error Answer}
    (hanswer : Scene.Outcome (Answer.Same host a b) answer answer') :
    Matches host vocabulary
      { session with bindings := Session.assign name answer session.bindings }
      { session' with bindings := Session.assign name answer' session'.bindings } a b := by
  cases hanswer with
  | error error => exact h
  | ok hsame =>
      cases hsame with
      | refused => exact h
      | nothing => exact h
      | value value => exact h
      | item hitem => exact h.bind name hitem

theorem Matches.parallel_on (h : session.Matches host vocabulary session' a b) {kind : ItemKind}
    {name : String} {act act' : kind.Content → Operation Answer}
    (hact : ∀ content content', kind.Same host a b content content' →
      Scene.Parallel host vocabulary a b (act content) (act' content') (Answer.Same host)) :
    Scene.Parallel host vocabulary a b (session.on kind name act) (session'.on kind name act')
      (Answer.Same host) := by
  have hget := h.get? kind name
  rw [on, on]
  generalize session.get? kind name = found at hget ⊢
  generalize session'.get? kind name = found' at hget ⊢
  cases hget with
  | none => exact .pure h.alike .refused
  | some hsame => exact hact _ _ hsame

theorem Matches.parallel_operation (h : session.Matches host vocabulary session' a b)
    {request : Request} (hkeeps : request.keepsSetting)
    (hcovers : request.CoveredBy vocabulary) :
    Scene.Parallel host vocabulary a b (session.operation host request)
      (session'.operation host request) (Answer.Same host) := by
  have halike := h.alike
  cases request with
  | define spec => cases hkeeps
  | enter carrier => cases hkeeps
  | exit guard => cases hkeeps
  | mark descriptor constant => cases hkeeps
  | read => cases hkeeps
  | find descriptor =>
      exact (Scene.parallel_findClass halike descriptor).map halike
        fun _ _ _ _ _ hself => .item ⟨hself⟩
  | carrier owner requested =>
      apply h.parallel_on
      intro self other hself
      exact (Scene.parallel_resolve halike hself.location trivial hcovers).map halike
        fun _ _ _ _ _ hsame => .item ⟨hsame.1⟩
  | methodCarrier owner classParameters signature requested =>
      apply h.parallel_on
      intro self other hself
      obtain ⟨hclass, hrequested⟩ := hcovers
      have hcovered := halike.first.covers_ofMethod hself.first hclass signature
      exact (Scene.parallel_resolve halike (hself.ofMethod classParameters signature) hcovered
        hrequested).map halike fun _ _ _ _ _ hsame => .item ⟨hsame.1⟩
  | instantiate descriptor requested =>
      exact (Scene.parallel_instantiate halike descriptor hcovers).map halike
        fun _ _ _ _ _ hsame => .item ⟨hsame⟩
  | specialize carrier =>
      apply h.parallel_on
      intro known known' hknown
      exact .pure halike (.item ⟨hknown.instance halike.first.sound halike.second.sound⟩)
  | plain owner =>
      apply h.parallel_on
      intro self other hself
      exact .pure halike (.item ⟨hself.plain⟩)
  | carrierOf object =>
      apply h.parallel_on
      intro self other hself
      exact .pure halike (Answer.same_ofCarrier? hself.carrier?)
  | link request =>
      exact (Scene.parallel_link halike hcovers).map halike fun _ _ _ _ _ hsame => .item ⟨hsame⟩
  | supertype carrier ancestor =>
      apply h.parallel_on
      intro known known' hknown
      exact (Scene.parallel_supertypeCarrierNamed halike hknown ancestor).map halike
        fun _ _ _ _ _ => Answer.same_ofCarrier?
  | site owner constant adaptation restrictions =>
      apply h.parallel_on
      intro self other hself
      have hsite : a.SameSpecialized host b { owner := self, constant, adaptation, restrictions }
          { owner := other, constant, adaptation, restrictions } :=
        ⟨⟨hself, rfl, rfl, rfl⟩, Resolver.faithful_empty _ a, Resolver.faithful_empty _ b⟩
      exact .pure halike (.item ⟨hsite⟩)
  | receiverSite method adaptation =>
      have hsite : a.SameReceiver host b { method, adaptation } { method, adaptation } :=
        ⟨rfl, rfl, Resolver.faithful_empty _ a, Resolver.faithful_empty _ b⟩
      exact .pure halike (.item ⟨hsite⟩)

/-- Scenes that are alike again, in which the same came of a turn. -/
structure Answered (host : Host) (vocabulary : Vocabulary) (a b a' b' : Scene)
    (answer answer' : Except Error Answer) : Prop where
  grows : a.Grows a'
  grows' : b.Grows b'
  alike : a'.Alike host vocabulary b'
  outcome : Scene.Outcome (Answer.Same host a' b') answer answer'

theorem Matches.define (h : session.Matches host vocabulary session' a b) (spec : ClassSpec) :
    Answered host vocabulary a b (a.defineClass spec) (b.defineClass spec)
      (a.result (session.operation host (.define spec)))
      (b.result (session'.operation host (.define spec))) := by
  have hoperation : ∀ session : Session, session.operation host (.define spec) =
      Specialization.define spec >>= fun self => pure (.item ⟨.ofClass, self⟩) := fun _ => rfl
  obtain ⟨halike, houtcome⟩ := h.alike.define spec
  refine ⟨Scene.defineClass_grows h.alike.first.sound spec,
    Scene.defineClass_grows h.alike.second.sound spec, halike, ?_⟩
  rw [hoperation, hoperation, Scene.result_bind_pure, Scene.result_bind_pure]
  exact houtcome.map fun _ _ hself => .item ⟨hself⟩

/-- What is ambient changes in the same way in both scenes. -/
theorem Matches.withAmbient (h : session.Matches host vocabulary session' a b)
    {ambient ambient' : Ambient}
    (hambient : Option.Rel (a.SameCarrier b) ambient.carrier ambient'.carrier)
    {answer answer' : Answer} (hanswer : answer.Same host a b answer') :
    Answered host vocabulary a b { a with world := { a.world with ambient } }
      { b with world := { b.world with ambient := ambient' } } (.ok answer) (.ok answer') := by
  obtain ⟨hknown, hknown', _⟩ := Scene.Same.option_iff.mp hambient
  have hgrows := Scene.Grows.of_ambient ambient hknown
  have hgrows' := Scene.Grows.of_ambient ambient' hknown'
  exact ⟨hgrows, hgrows', h.alike.withAmbient hambient, .ok (hanswer.grow hgrows hgrows')⟩

theorem Matches.enter (h : session.Matches host vocabulary session' a b) (carrier : String) :
    let operation := session.operation host (.enter carrier)
    let operation' := session'.operation host (.enter carrier)
    Answered host vocabulary a b (a.after operation) (b.after operation') (a.result operation)
      (b.result operation') := by
  have hget := h.get? .carrier carrier
  simp only [operation, on]
  generalize session.get? .carrier carrier = found at hget ⊢
  generalize session'.get? .carrier carrier = found' at hget ⊢
  cases hget with
  | none => exact ⟨Scene.Grows.refl a, Scene.Grows.refl b, h.alike, .ok .refused⟩
  | @some known known' hsame =>
      let ambient : Ambient := { a.world.ambient with carrier := some known }
      let ambient' : Ambient := { b.world.ambient with carrier := some known' }
      have hambient : Option.Rel (a.SameCarrier b) ambient.carrier ambient'.carrier := .some hsame
      have hguard : a.SameGuard b ⟨known, a.world.ambient.carrier⟩
          ⟨known', b.world.ambient.carrier⟩ := ⟨hsame, h.alike.currentCarrier⟩
      exact h.withAmbient hambient (.item ⟨hguard⟩)

theorem Matches.exit (h : session.Matches host vocabulary session' a b) (guard : String) :
    let operation := session.operation host (.exit guard)
    let operation' := session'.operation host (.exit guard)
    Answered host vocabulary a b (a.after operation) (b.after operation') (a.result operation)
      (b.result operation') := by
  have hget := h.get? .guard guard
  simp only [operation, on]
  generalize session.get? .guard guard = found at hget ⊢
  generalize session'.get? .guard guard = found' at hget ⊢
  cases hget with
  | none => exact ⟨Scene.Grows.refl a, Scene.Grows.refl b, h.alike, .ok .refused⟩
  | @some entered entered' hsame =>
      let ambient : Ambient := { a.world.ambient with carrier := entered.previous }
      let ambient' : Ambient := { b.world.ambient with carrier := entered'.previous }
      have hambient : Option.Rel (a.SameCarrier b) ambient.carrier ambient'.carrier :=
        hsame.previous
      exact h.withAmbient hambient .nothing

theorem Matches.operation (h : session.Matches host vocabulary session' a b) {request : Request}
    (halone : request.standsAlone) (hcovers : request.CoveredBy vocabulary) :
    ∃ a' b', Answered host vocabulary a b a' b' (a.result (session.operation host request))
        (b.result (session'.operation host request)) ∧
      a'.world = (a.after (session.operation host request)).world ∧
      b'.world = (b.after (session'.operation host request)).world := by
  by_cases hkeeps : request.keepsSetting
  · have hparallel := h.parallel_operation hkeeps hcovers
    exact ⟨_, _, ⟨hparallel.first.grows, hparallel.second.grows, hparallel.alike h.alike,
      hparallel.outcome⟩, rfl, rfl⟩
  · cases request with
    | define spec =>
        exact ⟨_, _, h.define spec, (defineClass_answer host spec).1,
          (defineClass_answer host spec).1⟩
    | enter carrier => exact ⟨_, _, h.enter carrier, rfl, rfl⟩
    | exit guard => exact ⟨_, _, h.exit guard, rfl, rfl⟩
    | _ => exact absurd halone hkeeps

theorem lookup_of_get? {kind : ItemKind} {name : String} {content : kind.Content}
    (h : session.get? kind name = some content) :
    session.bindings.lookup name = some ⟨kind, content⟩ := by
  obtain ⟨item, hitem, hkind⟩ := Option.bind_eq_some_iff.mp h
  rw [hitem, Item.as?_eq_some hkind]

/-- A turn has the same answer in both sessions, and they match afterwards. -/
def Follows (host : Host) (vocabulary : Vocabulary) (session session' : Session) (a b : Scene)
    (turn : Turn) : Prop :=
  ∃ a' b', Answered host vocabulary a b a' b' (session.perform host turn).1
      (session'.perform host turn).1 ∧
    (session.perform host turn).2.Matches host vocabulary (session'.perform host turn).2 a' b'

/-- A turn of one session leaves it matching the other one, which stays as it is. -/
def Passes (host : Host) (vocabulary : Vocabulary) (session session' : Session) (a b : Scene)
    (turn : Turn) : Prop :=
  ∃ a', a.Grows a' ∧ (session.perform host turn).2.Matches host vocabulary session' a' b

theorem Matches.refused (h : session.Matches host vocabulary session' a b) {turn : Turn}
    (hturn : session.perform host turn = (.ok .refused, session))
    (hturn' : session'.perform host turn = (.ok .refused, session')) :
    session.Follows host vocabulary session' a b turn ∧
      session.Passes host vocabulary session' a b turn := by
  rw [Follows, Passes, hturn, hturn']
  exact ⟨⟨a, b, ⟨Scene.Grows.refl a, Scene.Grows.refl b, h.alike, .ok .refused⟩, h⟩,
    a, Scene.Grows.refl a, h⟩

/-- A call that gives the same in both sessions. The call site that was used is kept in place of the
one that was called, and it is the same as that one in the other session, used or not. -/
theorem Matches.invoked (h : session.Matches host vocabulary session' a b) {turn : Turn}
    {name : String} {value value' : Except Error Value} {used used' kept : Item}
    {world world' : World}
    (hturn : session.perform host turn =
      (value.map .value, { world, bindings := (name, used) :: session.bindings }))
    (hturn' : session'.perform host turn =
      (value'.map .value, { world := world', bindings := (name, used') :: session'.bindings }))
    (hkept : session'.bindings.lookup name = some kept)
    (hnext : a.Continues host vocabulary { a with world })
    (hnext' : b.Continues host vocabulary { b with world := world' })
    (hvalue : Scene.Outcome Eq value value')
    (hused : used.Same host { a with world } { b with world := world' } used')
    (hunused : used.Same host { a with world } b kept) :
    session.Follows host vocabulary session' a b turn ∧
      session.Passes host vocabulary session' a b turn := by
  have halike := h.alike.later hnext hnext'
  have hanswer : Scene.Outcome (Answer.Same host { a with world } { b with world := world' })
      (value.map .value) (value'.map .value) := hvalue.map fun value _ hsame => hsame ▸ .value value
  rw [Follows, Passes, hturn, hturn']
  refine ⟨⟨_, _, ⟨hnext.grows, hnext'.grows, halike, hanswer⟩, ?_⟩, _, hnext.grows, ?_⟩
  · exact (h.later hnext.grows hnext'.grows halike).bind name hused
  · exact (h.continue hnext).rebind hkept hunused

theorem Matches.call (h : session.Matches host vocabulary session' a b) (name key : String)
    (arguments : List Value) :
    session.Follows host vocabulary session' a b (.call name key arguments) ∧
      session.Passes host vocabulary session' a b (.call name key arguments) := by
  have hsite := h.get? .site name
  have hcarrier := h.get? .carrier key
  generalize hfound : session.get? .site name = site at hsite
  generalize hfound' : session'.get? .site name = site' at hsite
  generalize hkey : session.get? .carrier key = carrier at hcarrier
  generalize hkey' : session'.get? .carrier key = carrier' at hcarrier
  cases hsite with
  | none =>
      exact h.refused (perform_call_refused arguments (.inl hfound))
        (perform_call_refused arguments (.inl hfound'))
  | @some site site' hsite =>
      cases hcarrier with
      | none =>
          exact h.refused (perform_call_refused arguments (.inr hkey))
            (perform_call_refused arguments (.inr hkey'))
      | @some carrier carrier' hcarrier =>
          have hcalled := Scene.SameSpecialized.called hsite h.alike hcarrier arguments
          rw [h.world, h.world'] at hcalled
          obtain ⟨hcreated, _, hcache'⟩ : a.SameSpecialized host b site site' := hsite
          have hgrows := hcalled.first.grows
          apply h.invoked (perform_call arguments hfound hkey)
            (perform_call arguments hfound' hkey') (lookup_of_get? hfound')
          · exact hcalled.first
          · exact hcalled.second
          · exact hcalled.result
          · exact .mk ⟨(hcreated.grow hgrows hcalled.second.grows).used _ _, hcalled.cache,
              hcalled.cache'⟩
          · exact .mk ⟨(hcreated.grow hgrows (.refl b)).used _ site'.cache, hcalled.cache, hcache'⟩

theorem Matches.dispatch (h : session.Matches host vocabulary session' a b) (name key : String)
    (arguments : List Value) :
    session.Follows host vocabulary session' a b (.dispatch name key arguments) ∧
      session.Passes host vocabulary session' a b (.dispatch name key arguments) := by
  have hsite := h.get? .receiverSite name
  have hreceiver := h.get? .object key
  generalize hfound : session.get? .receiverSite name = site at hsite
  generalize hfound' : session'.get? .receiverSite name = site' at hsite
  generalize hkey : session.get? .object key = receiver at hreceiver
  generalize hkey' : session'.get? .object key = receiver' at hreceiver
  cases hsite with
  | none =>
      exact h.refused (perform_dispatch_refused arguments (.inl hfound))
        (perform_dispatch_refused arguments (.inl hfound'))
  | @some site site' hsite =>
      cases hreceiver with
      | none =>
          exact h.refused (perform_dispatch_refused arguments (.inr hkey))
            (perform_dispatch_refused arguments (.inr hkey'))
      | @some receiver receiver' hreceiver =>
          have hcalled := Scene.SameReceiver.called hsite h.alike hreceiver arguments
          rw [h.world, h.world'] at hcalled
          obtain ⟨hmethod, hadaptation, _, hcache'⟩ : a.SameReceiver host b site site' := hsite
          apply h.invoked (perform_dispatch arguments hfound hkey)
            (perform_dispatch arguments hfound' hkey') (lookup_of_get? hfound')
          · exact hcalled.first
          · exact hcalled.second
          · exact hcalled.result
          · exact .mk ⟨hmethod, hadaptation, hcalled.cache, hcalled.cache'⟩
          · exact .mk ⟨hmethod, hadaptation, hcalled.cache, hcache'⟩

theorem Matches.read (h : session.Matches host vocabulary session' a b) (descriptor : Descriptor)
    (constant : String) :
    session.Follows host vocabulary session' a b (.read descriptor constant) ∧
      session.Passes host vocabulary session' a b (.read descriptor constant) := by
  have hparallel := Scene.parallel_readMarked h.alike descriptor constant
  have hgrows := hparallel.first.grows
  have hgrows' := hparallel.second.grows
  have halike := hparallel.alike h.alike
  simp only [Follows, Passes, Session.perform]
  rw [← h.world, ← h.world']
  refine ⟨⟨_, _, ⟨hgrows, hgrows', halike, hparallel.outcome.map ?_⟩,
    h.later hgrows hgrows' halike⟩, _, hgrows, h.continue hparallel.first⟩
  rintro value _ rfl
  exact .value value

theorem Matches.request (h : session.Matches host vocabulary session' a b) (name : String)
    {request : Request} (alone : request.standsAlone) (hcovers : request.CoveredBy vocabulary) :
    session.Follows host vocabulary session' a b (.request name request alone) := by
  obtain ⟨a', b', hanswered, hworld, hworld'⟩ := h.operation alone hcovers
  have hnext := (h.later hanswered.grows hanswered.grows' hanswered.alike).assign name
    hanswered.outcome
  simp only [Follows, Session.perform]
  rw [hworld, hworld'] at hnext
  rw [← h.world, ← h.world']
  exact ⟨a', b', hanswered, hnext⟩

theorem Matches.perform (h : session.Matches host vocabulary session' a b) {turn : Turn}
    (hcovers : turn.CoveredBy vocabulary) :
    session.Follows host vocabulary session' a b turn := by
  cases turn with
  | request name request alone => exact h.request name alone hcovers
  | read descriptor constant => exact (h.read descriptor constant).1
  | call name key arguments => exact (h.call name key arguments).1
  | dispatch name key arguments => exact (h.dispatch name key arguments).1

/-- A request that fails leaves an exact scene with the same setting. -/
theorem Matches.continues_failed (h : session.Matches host vocabulary session' a b)
    {request : Request} (alone : request.standsAlone) (hcovers : request.CoveredBy vocabulary)
    {error : Error} (hfailed : a.result (session.operation host request) = .error error) :
    ∃ a', a.Continues host vocabulary a' ∧
      a'.world = (a.after (session.operation host request)).world := by
  by_cases hkeeps : request.keepsSetting
  · exact ⟨_, (h.parallel_operation hkeeps hcovers).first, rfl⟩
  · cases request with
    | define spec =>
        have hoperation : session.operation host (.define spec) =
            Specialization.define spec >>= fun self => pure (.item ⟨.ofClass, self⟩) := rfl
        rw [hoperation, Scene.result_bind_pure] at hfailed
        cases hdefine : a.result (Specialization.define spec) with
        | error error =>
            exact ⟨_, h.alike.first.continues_define hdefine, (defineClass_answer host spec).1⟩
        | ok self =>
            rw [hdefine] at hfailed
            cases hfailed
    | enter carrier =>
        simp only [Session.operation, on] at hfailed
        split at hfailed <;> cases hfailed
    | exit guard =>
        simp only [Session.operation, on] at hfailed
        split at hfailed <;> cases hfailed
    | _ => exact absurd alone hkeeps

/-- A turn that fails in one session cannot be told in it afterwards. -/
theorem Matches.failed (h : session.Matches host vocabulary session' a b) {turn : Turn}
    (hcovers : turn.CoveredBy vocabulary) {error : Error}
    (hfailed : (session.perform host turn).1 = .error error) :
    session.Passes host vocabulary session' a b turn := by
  cases turn with
  | request name request alone =>
      simp only [Passes, Session.perform] at hfailed ⊢
      rw [← h.world] at hfailed ⊢
      obtain ⟨a', hnext, hworld⟩ := h.continues_failed alone hcovers hfailed
      have hstill := h.continue hnext
      rw [hworld] at hstill
      rw [hfailed]
      exact ⟨a', hnext.grows, hstill⟩
  | read descriptor constant => exact (h.read descriptor constant).2
  | call name key arguments => exact (h.call name key arguments).2
  | dispatch name key arguments => exact (h.dispatch name key arguments).2

end Session

end Specialization

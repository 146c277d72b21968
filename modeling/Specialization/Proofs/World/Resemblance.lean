import Specialization.Proofs.World.Forgetting

/-!
Scenes that differ in what they remember of supertypes. Whatever is done in two such scenes gives
the same results in both, and leaves two such scenes: climbs to supertypes, constants that are read
under what is ambient, calls, and all other operations of a program.
-/

namespace Specialization

namespace Scene

variable {host : Host} {α β : Type} {a b scene : Scene}

variable (host) in
/-- Two scenes that are the same but for what they remember of supertypes. -/
structure Resembles (a b : Scene) : Prop where
  world : a.world.Resembles b.world
  classes : b.classes = a.classes
  foreign : b.foreign = a.foreign
  first : a.Memoizing host
  second : b.Memoizing host

theorem Memoizing.resembles (h : scene.Memoizing host) : scene.Resembles host scene :=
  ⟨.refl scene.world, rfl, rfl, h, h⟩

theorem Resembles.knows (h : a.Resembles host b) {carrier : Carrier} (hcarrier : a.Knows carrier) :
    b.Knows carrier := by
  obtain ⟨supertypes, hits, hworld⟩ := h.world
  rw [Knows, hworld, h.foreign]
  exact hcarrier

theorem Resembles.mem_classes (h : a.Resembles host b) {self : Class} (hself : self ∈ a.classes) :
    self ∈ b.classes := by
  rwa [h.classes]

variable (host) in
/-- An operation that gives the same in all scenes that resemble one. -/
structure Oblivious (scene : Scene) (x : Operation α) : Prop where
  grows : scene.Grows (scene.after x)
  agrees : ∀ other, scene.Resembles host other →
    other.result x = scene.result x ∧ (scene.after x).Resembles host (other.after x)

namespace Oblivious

theorem memoizing {x : Operation α} (h : scene.Oblivious host x) (hscene : scene.Memoizing host) :
    (scene.after x).Memoizing host :=
  (h.agrees scene hscene.resembles).2.first

theorem pure (a : α) : scene.Oblivious host (Pure.pure a : Operation α) :=
  ⟨Grows.refl scene, fun _ hother => ⟨rfl, hother⟩⟩

theorem throw (error : Error) :
    scene.Oblivious host (MonadExcept.throw error : Operation α) :=
  ⟨Grows.refl scene, fun _ hother => ⟨rfl, hother⟩⟩

theorem lift (x : Except Error α) : scene.Oblivious host (liftExcept x : Operation α) := by
  cases x with
  | error error => exact throw error
  | ok a => exact pure a

theorem bind {x : Operation α} {f : α → Operation β} (hscene : scene.Memoizing host)
    (hx : scene.Oblivious host x)
    (hf : ∀ a, scene.result x = .ok a → scene.Grows (scene.after x) →
      (scene.after x).Memoizing host → (scene.after x).Oblivious host (f a)) :
    scene.Oblivious host (x >>= f) := by
  cases hresult : scene.result x with
  | error error =>
      refine ⟨by rw [after_bind_error hresult]; exact hx.grows, fun other hother => ?_⟩
      obtain ⟨hsame, hafter⟩ := hx.agrees other hother
      rw [result_bind_error hresult, after_bind_error hresult,
        result_bind_error (hsame.trans hresult), after_bind_error (hsame.trans hresult)]
      exact ⟨rfl, hafter⟩
  | ok a =>
      have hnext := hf a hresult hx.grows (hx.memoizing hscene)
      refine ⟨by rw [after_bind_ok hresult]; exact hx.grows.trans hnext.grows, fun other hother => ?_⟩
      obtain ⟨hsame, hafter⟩ := hx.agrees other hother
      rw [result_bind_ok hresult, after_bind_ok hresult, result_bind_ok (hsame.trans hresult),
        after_bind_ok (hsame.trans hresult)]
      exact hnext.agrees (other.after x) hafter

/-- Operations that neither look at what is remembered nor add to it. -/
theorem of_blind {x : Operation α} (hscene : scene.Memoizing host) (hblind : Blind x)
    (hleaves : Leaves (fun world => world.store.supertypes) x)
    (hgrows : ∀ other, scene.Resembles host other → other.Grows (other.after x)) :
    scene.Oblivious host x := by
  refine ⟨hgrows scene hscene.resembles, fun other hother => ?_⟩
  obtain ⟨hresult, hafter⟩ := hblind scene.world other.world hother.world
  exact ⟨hresult, hafter, hother.classes, hother.foreign,
    hscene.grow (hgrows scene hscene.resembles) (hleaves scene.world),
    hother.second.grow (hgrows other hother) (hleaves other.world)⟩

/-- Operations that change nothing. -/
theorem still {x : Operation α} (hscene : scene.Memoizing host) (hblind : Blind x)
    (hleaves : Leaves id x) : scene.Oblivious host x := by
  apply of_blind hscene hblind (hleaves.narrow fun world => world.store.supertypes)
  intro other hother
  rw [after, show (exec x other.world).2 = other.world from hleaves other.world]
  exact Grows.refl other

end Oblivious

theorem oblivious_findClass (hscene : scene.Memoizing host) (descriptor : Descriptor) :
    scene.Oblivious host (findClass descriptor) :=
  .still hscene (blind_findClass descriptor) (leaves_findClass descriptor)

theorem oblivious_functions (hscene : scene.Memoizing host) :
    scene.Oblivious host Operation.functions :=
  .still hscene blind_functions leaves_functions

theorem oblivious_resolve (hscene : scene.Memoizing host) (location : Location)
    (howner : location.owner ∈ scene.classes) (requested : Option Value) :
    scene.Oblivious host (resolve location requested) :=
  .of_blind hscene (blind_resolve location requested)
    ((leaves_resolve location requested).narrow Prod.fst)
    fun _ hother => (settled_resolve location (hother.mem_classes howner) requested).grows

theorem oblivious_resolveDefault (hscene : scene.Memoizing host) {self : Class}
    (hself : self ∈ scene.classes) : scene.Oblivious host (resolveDefault self) :=
  .of_blind hscene (blind_resolveDefault self) ((leaves_resolveDefault self).narrow Prod.fst)
    fun _ hother => (settled_resolveDefault (hother.mem_classes hself)).grows

theorem oblivious_evaluate (hscene : scene.Memoizing host) (functions : Registry) {self : Class}
    (hself : self ∈ scene.classes) (constant : String) (scope : Scope) :
    scene.Oblivious host (self.evaluate host functions constant scope) :=
  .of_blind hscene (Class.blind_evaluate host functions self constant scope)
    ((Class.leaves_evaluate host self.apart_store functions constant scope).narrow Store.supertypes)
    fun _ hother =>
      (settled_evaluate host (hother.mem_classes hself) functions constant scope).grows

theorem oblivious_accessorValue (hscene : scene.Memoizing host) (functions : Registry)
    {self : Class} (hself : self ∈ scene.classes) (constant : String) (carrier : Carrier) :
    scene.Oblivious host (self.accessorValue host functions constant carrier) :=
  .of_blind hscene (Class.blind_accessorValue host functions self constant carrier)
    ((Class.leaves_accessorValue host self.apart_store functions constant carrier).narrow
      Store.supertypes)
    fun _ hother =>
      (settled_accessorValue host (hother.mem_classes hself) functions constant carrier).grows

/-- In both scenes the step does what finding the carrier anew does. -/
theorem oblivious_directSupertype (hscene : scene.Memoizing host) (functions : Registry)
    {carrier : Carrier} (hcarrier : scene.Knows carrier) (hlevel : carrier.isClassLevel)
    {superclass : Class} (hdirect : carrier.owner.superclass? = some superclass) :
    scene.Oblivious host (directSupertype host functions carrier superclass) := by
  have hsuperclass := hscene.sound.superclass (hscene.sound.owner carrier hcarrier) hdirect
  refine ⟨(settled_directSupertype host hscene.sound functions hcarrier hsuperclass).grows,
    fun other hother => ?_⟩
  obtain ⟨hasked, hleft, hfirst⟩ := hscene.directSupertype functions hcarrier hlevel hdirect
  obtain ⟨hasked', hleft', hsecond⟩ :=
    hother.second.directSupertype functions (hother.knows hcarrier) hlevel hdirect
  obtain ⟨hfound, hafter⟩ := blind_findDirectSupertype host functions carrier superclass
    scene.world other.world hother.world
  exact ⟨hasked'.trans (hfound.trans hasked.symm), (hleft.symm.trans hafter).trans hleft',
    hother.classes, hother.foreign, hfirst, hsecond⟩

/-- Each carrier on the way is one of the class that was climbed to. -/
theorem oblivious_climb (functions : Registry) {self top : Class} {way : List Class}
    (hway : self.Climbs way top) (hscene : scene.Memoizing host) (hself : self ∈ scene.classes)
    {current : Option Carrier} (hcurrent : ∀ carrier, current = some carrier →
      scene.Knows carrier ∧ carrier.location = .ofClass self) :
    scene.Oblivious host (climb host functions current way) := by
  induction hway generalizing scene current with
  | here self =>
      cases current with
      | none => exact .pure none
      | some carrier => exact .pure (some carrier)
  | @up self above top way hdirect hrest ih =>
      have habove := hscene.sound.superclass hself hdirect
      cases current with
      | none =>
          apply Oblivious.bind hscene (oblivious_resolveDefault hscene habove)
          intro found hfound hgrows hnext
          apply ih hnext (hgrows.classes above habove)
          intro carrier hcarrier
          exact ⟨Or.inl (((settled_resolveDefault habove).holds hfound).1 carrier hcarrier),
            (isSeen_of_resolveDefault hscene.sound habove hfound).location carrier hcarrier⟩
      | some carrier =>
          obtain ⟨hcarrier, hlocation⟩ := hcurrent carrier rfl
          obtain ⟨hlevel, rfl⟩ := Carrier.at_class hlocation
          apply Oblivious.bind hscene
            (oblivious_directSupertype hscene functions hcarrier hlevel hdirect)
          intro found hfound hgrows hnext
          apply ih hnext (hgrows.classes above habove)
          intro other hother
          exact ⟨Or.inl ((settled_directSupertype host hscene.sound functions hcarrier
              habove).holds hfound other hother),
            (hscene.recalling.isSeen_of_directSupertype hcarrier hdirect hfound).location other
              hother⟩

/-- Of the world, anything else may be looked at. -/
theorem Oblivious.get {k : World → Operation α}
    (hsame : ∀ supertypes hits, k (scene.world.withMemo supertypes hits) = k scene.world)
    (hk : scene.Oblivious host (k scene.world)) :
    scene.Oblivious host (MonadState.get >>= k) := by
  have hread : ∀ other : Scene, exec (MonadState.get >>= k) other.world =
      exec (k other.world) other.world := fun other => exec_bind_ok (exec_get other.world)
  refine ⟨by rw [after, hread]; exact hk.grows, fun other hother => ?_⟩
  obtain ⟨supertypes, hits, hworld⟩ := hother.world
  obtain ⟨hresult, hafter⟩ := hk.agrees other hother
  have hexec : exec (MonadState.get >>= k) other.world = exec (k scene.world) other.world :=
    (hread other).trans (by rw [hworld, hsame])
  rw [result, result, after, after, hread scene, hexec]
  exact ⟨hresult, hafter⟩

theorem oblivious_supertypeCarrier (hscene : scene.Memoizing host) (functions : Registry)
    {carrier : Carrier} (hcarrier : scene.Knows carrier) (ancestor : Class) :
    scene.Oblivious host (supertypeCarrier host functions carrier ancestor) := by
  unfold supertypeCarrier
  dsimp only
  split
  · rename_i hlevel
    split
    · exact .throw _
    · rename_i distance hdistance
      apply Oblivious.get fun _ _ => rfl
      split
      · exact .throw _
      · obtain ⟨way, top, hway, rfl⟩ := Class.climbs_of_distanceTo? hdistance
        rw [hway.take_lineage]
        apply oblivious_climb functions hway hscene (hscene.sound.owner carrier hcarrier)
        rintro other ⟨⟩
        exact ⟨hcarrier, Carrier.isClassLevel_iff.mp hlevel⟩
  · exact .throw _

theorem oblivious_supertypeCarrierNamed (hscene : scene.Memoizing host) {carrier : Carrier}
    (hcarrier : scene.Knows carrier) (descriptor : Descriptor) :
    scene.Oblivious host (supertypeCarrierNamed host carrier descriptor) := by
  unfold supertypeCarrierNamed
  apply Oblivious.bind hscene (oblivious_findClass hscene descriptor)
  intro ancestor _ hfound hscene
  apply Oblivious.bind hscene (oblivious_functions hscene)
  intro functions _ hread hscene
  exact oblivious_supertypeCarrier hscene functions (hcarrier.grow (hfound.trans hread)) ancestor

theorem oblivious_scopedCarrier (hscene : scene.Memoizing host) (self : Class) (constant : String)
    {carrier : Carrier} (hcarrier : scene.Knows carrier) :
    scene.Oblivious host (scopedCarrier host self constant carrier) := by
  unfold scopedCarrier
  split
  · exact .pure carrier
  · dsimp only
    split
    · exact .pure carrier
    · apply Oblivious.get fun _ _ => rfl
      split
      · exact .throw _
      · split
        · apply Oblivious.bind hscene (oblivious_functions hscene)
          intro functions _ hread hscene
          apply Oblivious.bind hscene
            (oblivious_supertypeCarrier hscene functions (hcarrier.grow hread) _)
          intro found _ _ _
          split
          · exact .pure _
          · exact .throw _
        · exact .throw _

theorem oblivious_instantiate (hscene : scene.Memoizing host) (descriptor : Descriptor)
    (requested : Option Value) : scene.Oblivious host (instantiate descriptor requested) := by
  unfold instantiate
  apply Oblivious.bind hscene (oblivious_findClass hscene descriptor)
  intro self hfound _ hnext
  have hself := (settled_findClass hscene.sound descriptor).holds hfound
  exact Oblivious.bind hnext (oblivious_resolve hnext (.ofClass self) hself requested) fun _ _ _ _ => .pure _

theorem oblivious_link (hscene : scene.Memoizing host) (request : Value) :
    scene.Oblivious host (link request) := by
  unfold link
  split
  · rename_i raw parameters
    apply Oblivious.bind hscene (oblivious_findClass hscene raw)
    intro self hfound _ hnext
    have hself := (settled_findClass hscene.sound raw).holds hfound
    exact oblivious_resolve hnext (.ofClass self) hself (some parameters)
  · exact .throw _

/-- A change of what is ambient. -/
theorem oblivious_modifyAmbient (hscene : scene.Memoizing host) {change : Ambient → Ambient}
    (hchange : ∀ carrier, (change scene.world.ambient).carrier = some carrier →
      scene.Knows carrier) :
    scene.Oblivious host (Operation.modifyAmbient change) := by
  apply Oblivious.of_blind hscene
  · exact Blind.change fun world supertypes hits => ⟨supertypes, hits, rfl⟩
  · exact Leaves.change fun _ => rfl
  · intro other hother
    apply Grows.of_ambient
    obtain ⟨supertypes, hits, hworld⟩ := hother.world
    rw [hworld]
    exact fun carrier hcarrier => hother.knows (hchange carrier hcarrier)

theorem oblivious_enter (hscene : scene.Memoizing host) {carrier : Carrier}
    (hcarrier : scene.Knows carrier) : scene.Oblivious host (enter carrier) := by
  unfold enter
  apply Oblivious.get fun _ _ => rfl
  apply Oblivious.bind hscene (oblivious_modifyAmbient hscene ?_) fun _ _ _ _ => .pure _
  rintro other ⟨⟩
  exact hcarrier

theorem oblivious_exit (hscene : scene.Memoizing host) {guard : Guard}
    (hprevious : ∀ carrier, guard.previous = some carrier → scene.Knows carrier) :
    scene.Oblivious host guard.exit :=
  oblivious_modifyAmbient hscene hprevious

theorem oblivious_mark (hscene : scene.Memoizing host) (descriptor : Descriptor)
    (constant : String) : scene.Oblivious host (markInFlight descriptor constant) :=
  oblivious_modifyAmbient hscene hscene.sound.ambient

theorem oblivious_takeInFlight (hscene : scene.Memoizing host) :
    scene.Oblivious host takeInFlight := by
  unfold takeInFlight
  apply Oblivious.get fun _ _ => rfl
  apply Oblivious.bind hscene (oblivious_modifyAmbient hscene hscene.sound.ambient)
  intro _ _ _ _
  split
  · exact .pure _
  · exact .throw _

theorem oblivious_currentCarrier : scene.Oblivious host currentCarrier := by
  unfold currentCarrier
  exact Oblivious.get (fun _ _ => rfl) (.pure _)

theorem oblivious_resolveAmbientConstant (hscene : scene.Memoizing host) :
    scene.Oblivious host (resolveAmbientConstant host) := by
  unfold resolveAmbientConstant
  apply Oblivious.bind hscene (oblivious_takeInFlight hscene)
  rintro ⟨descriptor, constant⟩ _ _ hscene
  apply Oblivious.bind hscene (oblivious_findClass hscene descriptor)
  intro self hfound _ hnext
  have hself := (settled_findClass hscene.sound descriptor).holds hfound
  apply Oblivious.bind hnext (oblivious_functions hnext)
  intro functions _ hgrows hscene
  have hself := hgrows.classes self hself
  by_cases hdeclared : self.analysis.contains constant
  · simp only [hdeclared, Bool.not_true, Bool.false_eq_true, if_false]
    split
    · apply Oblivious.bind hscene oblivious_currentCarrier
      intro current hcurrent hgrows hnext
      have hself := hgrows.classes self hself
      have hknown := (safe_currentCarrier hscene.sound).holds current hcurrent
      split
      · exact .throw _
      · rename_i carrier
        apply Oblivious.bind hnext
          (oblivious_scopedCarrier hnext self constant (hknown carrier rfl))
        intro own _ hgrows hscene
        exact oblivious_accessorValue hscene functions (hgrows.classes self hself) constant own
    · exact oblivious_evaluate hscene functions hself constant .unbound
  · simp only [hdeclared]
    exact .throw _

theorem oblivious_read (hscene : scene.Memoizing host) {site : SpecializedCallSite}
    (howner : site.owner ∈ scene.classes) (constant : String) {carrier : Carrier}
    (hcarrier : scene.Knows carrier) : scene.Oblivious host (site.read host constant carrier) := by
  unfold SpecializedCallSite.read
  apply Oblivious.bind hscene (oblivious_scopedCarrier hscene site.owner constant hcarrier)
  intro own _ hgrows hscene
  apply Oblivious.bind hscene (oblivious_functions hscene)
  intro functions _ hlater hscene
  have howner := (hgrows.trans hlater).classes site.owner howner
  exact Oblivious.bind hscene (oblivious_accessorValue hscene functions howner constant own)
    fun _ _ _ _ => .pure _

theorem oblivious_restrict (hscene : scene.Memoizing host) {site : SpecializedCallSite}
    (howner : site.owner ∈ scene.classes) {carrier : Carrier} (hcarrier : scene.Knows carrier)
    (restrictions : List (Nat × String)) (target : Target) :
    scene.Oblivious host (restrictions.foldlM (fun target (slot, constant) => do
      let (restriction, _) ← site.read host constant carrier
      return target.restrict slot restriction) target) := by
  induction restrictions generalizing scene target with
  | nil => exact .pure target
  | cons restriction rest ih =>
      rw [List.foldlM_cons]
      apply Oblivious.bind hscene
      · exact Oblivious.bind hscene (oblivious_read hscene howner restriction.2 hcarrier)
          fun _ _ _ _ => .pure _
      · intro next _ hgrows hscene
        exact ih hscene (hgrows.classes _ howner) (hcarrier.grow hgrows) next

theorem oblivious_specialized (hscene : scene.Memoizing host) {site : SpecializedCallSite}
    (howner : site.owner ∈ scene.classes) {carrier : Carrier} (hcarrier : scene.Knows carrier) :
    scene.Oblivious host (site.resolve host carrier) := by
  unfold SpecializedCallSite.resolve
  apply Oblivious.bind hscene (oblivious_read hscene howner site.constant hcarrier)
  rintro ⟨value, own⟩ _ hread hscene
  apply Oblivious.bind hscene (.lift _)
  intro function _ hfitted hscene
  apply Oblivious.bind hscene (.lift _)
  intro target _ hadapted hscene
  have hgrows := (hread.trans hfitted).trans hadapted
  exact oblivious_restrict hscene (hgrows.classes _ howner) (hcarrier.grow hgrows)
    site.restrictions target

theorem oblivious_declaringCarrier (hscene : scene.Memoizing host) {receiver : Instance}
    (hreceiver : scene.KnowsInstance receiver) {declaring : Class}
    (hdeclaring : declaring ∈ scene.classes) :
    scene.Oblivious host (ReceiverCallSite.declaringCarrier host receiver declaring) := by
  unfold ReceiverCallSite.declaringCarrier
  split
  · rename_i own hown
    split
    · exact .pure _
    · apply Oblivious.bind hscene (oblivious_functions hscene)
      intro functions _ hgrows hscene
      exact oblivious_supertypeCarrier hscene functions
        ((hreceiver.carrier own hown).grow hgrows) declaring
  · exact oblivious_resolveDefault hscene hdeclaring

theorem oblivious_receiver (hscene : scene.Memoizing host) (site : ReceiverCallSite)
    {receiver : Instance} (hreceiver : scene.KnowsInstance receiver) :
    scene.Oblivious host (site.resolve host receiver) := by
  unfold ReceiverCallSite.resolve
  split
  · exact .throw _
  · rename_i declaring method hmethod
    have hdeclaring := hscene.sound.lineage _ hreceiver.owner _
      (Class.mem_lineage_of_findMethod? hmethod)
    apply Oblivious.bind hscene (oblivious_functions hscene)
    intro functions _ hgrows hscene
    have hreceiver := hreceiver.grow hgrows
    have hdeclaring := hgrows.classes _ hdeclaring
    apply Oblivious.bind hscene (oblivious_declaringCarrier hscene hreceiver hdeclaring)
    intro found hfound hgrows hnext
    have hknown := (settled_declaringCarrier host hscene.sound hreceiver.carrier
      hdeclaring).holds hfound
    have hdeclaring := hgrows.classes _ hdeclaring
    split
    · rename_i own
      apply Oblivious.bind hnext (oblivious_scopedCarrier hnext declaring _ (hknown own rfl))
      intro carrier _ hgrows hscene
      have hdeclaring := hgrows.classes _ hdeclaring
      apply Oblivious.bind hscene (oblivious_accessorValue hscene functions hdeclaring _ carrier)
      intro value _ _ hscene
      exact Oblivious.bind hscene (.lift _) fun _ _ _ _ => .lift _
    · apply Oblivious.bind hnext (oblivious_evaluate hnext functions hdeclaring _ .unbound)
      intro value _ _ hscene
      exact Oblivious.bind hscene (.lift _) fun _ _ _ _ => .lift _

/-- A call through a cache gives the same in both scenes, and leaves the same cache. -/
theorem Oblivious.call {ι κ : Type} [GuardKey κ] {resolver : Resolver ι κ} {input : ι}
    (h : scene.Oblivious host (resolver.resolve input)) (arguments : List Value)
    (cache : InlineCache κ) {other : Scene} (hother : scene.Resembles host other) :
    let outcome (scene : Scene) := resolver.call host arguments cache input scene.world
    (outcome other).1 = (outcome scene).1 ∧
      Resembles host { scene with world := (outcome scene).2 }
        { other with world := (outcome other).2 } := by
  simp only [Resolver.call, InlineCache.run_invoke]
  cases cache.find? (resolver.guard input) with
  | some link => exact ⟨rfl, hother⟩
  | none =>
      obtain ⟨hresult, hafter⟩ := h.agrees other hother
      rcases hrun : exec (resolver.resolve input) scene.world with ⟨found, next⟩
      rcases hrun' : exec (resolver.resolve input) other.world with ⟨found', next'⟩
      rw [result, result, hrun, hrun'] at hresult
      rw [after, after, hrun, hrun'] at hafter
      obtain rfl : found' = found := hresult
      cases found' with
      | error error => exact ⟨rfl, hafter⟩
      | ok target => exact ⟨rfl, hafter⟩

theorem blind_load (spec : ClassSpec) (superclass : Option Class) :
    Blind (load spec superclass) := by
  rintro world _ ⟨supertypes, hits, rfl⟩
  have hnumber : (world.withMemo supertypes hits).nextClass = world.nextClass := rfl
  rw [exec_load, exec_load, hnumber]
  cases Definition.ofSpec world.nextClass spec with
  | error error => exact ⟨rfl, supertypes, hits, rfl⟩
  | ok definition => exact ⟨rfl, supertypes, hits, rfl⟩

theorem blind_define (spec : ClassSpec) : Blind (Specialization.define spec) := by
  have hsuperclass : Blind (spec.superclass.mapM findClass) := by
    cases spec.superclass with
    | none => exact Blind.pure none
    | some descriptor => exact (blind_findClass descriptor).bind fun _ => Blind.pure _
  refine hsuperclass.bind fun superclass => (blind_load spec superclass).bind fun self => ?_
  rintro world _ ⟨supertypes, hits, rfl⟩
  have hloader : (world.withMemo supertypes hits).loader = world.loader := rfl
  rw [exec_bind_ok (exec_get world), exec_bind_ok (exec_get (world.withMemo supertypes hits)),
    hloader]
  dsimp only
  split
  · exact ⟨rfl, supertypes, hits, rfl⟩
  · exact ⟨rfl, supertypes, hits, rfl⟩

theorem Memoizing.defineClass (h : scene.Memoizing host) (spec : ClassSpec) :
    (scene.defineClass spec).Memoizing host := by
  apply h.grow (defineClass_grows h.sound spec)
  rw [world_defineClass]
  exact (leaves_store_define spec).narrow Store.supertypes scene.world

/-- The same class is defined in both scenes, or refused in both. -/
theorem Resembles.defineClass (h : a.Resembles host b) (spec : ClassSpec) :
    b.result (Specialization.define spec) = a.result (Specialization.define spec) ∧
      (a.defineClass spec).Resembles host (b.defineClass spec) := by
  obtain ⟨hresult, hafter⟩ := blind_define spec a.world b.world h.world
  have hresult : b.result (Specialization.define spec) = a.result (Specialization.define spec) :=
    hresult
  refine ⟨hresult, ?_, ?_, ?_, h.first.defineClass spec, h.second.defineClass spec⟩
  · rw [world_defineClass, world_defineClass]
    exact hafter
  · rw [Scene.defineClass, Scene.defineClass, hresult]
    cases a.result (Specialization.define spec) with
    | error error => exact h.classes
    | ok self => exact congrArg (List.cons self) h.classes
  · rw [Scene.defineClass, Scene.defineClass, hresult]
    cases a.result (Specialization.define spec) with
    | error error => exact h.foreign
    | ok self => exact h.foreign

theorem Move.memoizing {next : Scene} (h : scene.Move host next) (hscene : scene.Memoizing host) :
    next.Memoizing host := by
  cases h with
  | define spec => exact hscene.defineClass spec
  | @load spec superclass hsuperclass =>
      apply hscene.grow (loadClass_grows hscene.sound spec hsuperclass)
      have hleaves := (leaves_store_load spec superclass).narrow Store.supertypes scene.world
      rw [loadClass]
      split <;> exact hleaves
  | forge howner parameters backing => exact hscene.grow (Grows.forge howner parameters backing) rfl
  | resolve howner requested => exact (oblivious_resolve hscene _ howner requested).memoizing hscene
  | instantiate descriptor requested =>
      exact (oblivious_instantiate hscene descriptor requested).memoizing hscene
  | link request => exact (oblivious_link hscene request).memoizing hscene
  | supertype functions hcarrier ancestor =>
      exact (oblivious_supertypeCarrier hscene functions hcarrier ancestor).memoizing hscene
  | supertypeNamed hcarrier descriptor =>
      exact (oblivious_supertypeCarrierNamed hscene hcarrier descriptor).memoizing hscene
  | evaluate functions hself constant scope =>
      exact (oblivious_evaluate hscene functions hself constant scope).memoizing hscene
  | accessor functions hself constant carrier =>
      exact (oblivious_accessorValue hscene functions hself constant carrier).memoizing hscene
  | enter hcarrier => exact (oblivious_enter hscene hcarrier).memoizing hscene
  | exit hprevious => exact (oblivious_exit hscene hprevious).memoizing hscene
  | mark descriptor constant => exact (oblivious_mark hscene descriptor constant).memoizing hscene
  | read => exact (oblivious_resolveAmbientConstant hscene).memoizing hscene
  | @specialized site howner carrier hcarrier arguments =>
      have hresolve : scene.Oblivious host ((site.resolver host).resolve carrier) :=
        oblivious_specialized hscene howner hcarrier
      exact (hresolve.call arguments site.cache hscene.resembles).2.first
  | @receiver site receiver hreceiver arguments =>
      have hresolve : scene.Oblivious host ((site.resolver host).resolve receiver) :=
        oblivious_receiver hscene site hreceiver
      exact (hresolve.call arguments site.cache hscene.resembles).2.first

/-- Wherever a program gets, every entry can be found anew. -/
theorem Reachable.memoizing (h : scene.Reachable host) : scene.Memoizing host := by
  obtain ⟨config, functions, hmoves⟩ := h
  induction hmoves with
  | refl => exact ⟨start_sound config functions, fun _ hentry => nomatch hentry⟩
  | tail _ hmove ih => exact hmove.memoizing ih

end Scene

end Specialization

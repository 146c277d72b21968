import Specialization.Proofs.World.Recall
import Specialization.Proofs.World.Run

/-!
The effects of a program. Whatever a program does comes down to a few elementary changes, one after
the other: classes are loaded and made known, carriers are resolved, constants are read, and a
supertype is remembered once it was found. What every effect preserves holds in every scene that a
program reaches.
-/

namespace Specialization

variable (host : Host)

namespace Scene

/-- One elementary change of a scene. -/
inductive Effect (scene : Scene) : Scene → Prop
  /-- A class is refused after it took its number. -/
  | refused : Effect scene { scene with world := { scene.world with
      nextClass := scene.world.nextClass + 1 } }
  | loaded {spec : ClassSpec} {definition : Definition}
      (hdefinition : Definition.ofSpec scene.world.nextClass spec = .ok definition)
      {superclass : Option Class}
      (hsuperclass : ∀ above, superclass = some above → above ∈ scene.classes) :
      Effect scene { scene with
        world := { scene.world with nextClass := scene.world.nextClass + 1 }
        classes := Class.under definition superclass :: scene.classes }
  | published {self : Class} (hself : self ∈ scene.classes)
      (hnew : scene.world.loader.classes.lookup self.descriptor = none) :
      Effect scene { scene with world := { scene.world with loader := { scene.world.loader with
        classes := (self.descriptor, self) :: scene.world.loader.classes } } }
  | forged {location : Location} (howner : location.owner ∈ scene.classes) (parameters : Value)
      (backing : Option String) : Effect scene (scene.forge location parameters backing)
  | ambient (ambient : Ambient)
      (hambient : ∀ carrier, ambient.carrier = some carrier → scene.Knows carrier) :
      Effect scene { scene with world := { scene.world with ambient } }
  | resolved {location : Location} (howner : location.owner ∈ scene.classes)
      (requested : Option Value) : Effect scene (scene.after (resolve location requested))
  | evaluated (functions : Registry) {self : Class} (hself : self ∈ scene.classes)
      (constant : String) (scope : Scope) :
      Effect scene (scene.after (self.evaluate host functions constant scope))
  | read (functions : Registry) {self : Class} (hself : self ∈ scene.classes)
      (constant : String) (carrier : Carrier) :
      Effect scene (scene.after (self.accessorValue host functions constant carrier))
  | remembered {carrier found : Carrier} {superclass : Class} (hcarrier : scene.Knows carrier)
      (hlevel : carrier.isClassLevel) (hdirect : carrier.owner.superclass? = some superclass)
      (hnew : scene.world.store.supertypes.lookup (carrier.id, superclass.id) = none)
      (hfound : found ∈ scene.world.store.carriers)
      (hmapped : carrier.owner.analysis.superMapping.isSome ∨ superclass.isSpecializable)
      (hrecalls : scene.Recalls host carrier superclass found) :
      Effect scene { scene with world := { scene.world with store := { scene.world.store with
        supertypes := ((carrier.id, superclass.id), found) :: scene.world.store.supertypes } } }

variable {host} {scene next : Scene}

theorem Effect.grows (h : scene.Effect host next) (hsound : scene.Sound) : scene.Grows next := by
  cases h with
  | refused => exact Grows.skipClass
  | loaded hdefinition hsuperclass => exact Grows.addLoaded hsound hdefinition hsuperclass
  | published hself hnew => exact Grows.publish hself hnew
  | forged howner parameters backing => exact Grows.forge howner parameters backing
  | ambient ambient hambient => exact Grows.of_ambient ambient hambient
  | resolved howner requested =>
      exact (settled_resolve _ howner requested).grows
  | evaluated functions hself constant scope =>
      exact (settled_evaluate host hself functions constant scope).grows
  | read functions hself constant carrier =>
      exact (settled_accessorValue host hself functions constant carrier).grows
  | remembered hcarrier _ hdirect hnew hfound hmapped _ =>
      have hsuperclass := hsound.superclass (hsound.owner _ hcarrier) hdirect
      exact Grows.remember hnew ⟨hfound, _, _, hcarrier, hsuperclass, rfl, hmapped⟩

/-- Only an effect that remembers a supertype adds to what is remembered of them. -/
theorem Effect.supertypes (h : scene.Effect host next) :
    next.world.store.supertypes = scene.world.store.supertypes ∨
      ∃ entry, next.world.store.supertypes = entry :: scene.world.store.supertypes ∧
        scene.Recalled host entry := by
  cases h with
  | resolved howner requested =>
      exact Or.inl ((leaves_resolve _ requested).narrow Prod.fst scene.world)
  | @evaluated functions self _ constant scope =>
      have hstore := Class.leaves_evaluate host self.apart_store functions constant scope
      exact Or.inl (hstore.narrow Store.supertypes scene.world)
  | @read functions self _ constant carrier =>
      have hstore := Class.leaves_accessorValue host self.apart_store functions constant carrier
      exact Or.inl (hstore.narrow Store.supertypes scene.world)
  | remembered hcarrier hlevel hdirect _ _ _ hrecalls =>
      exact Or.inr ⟨_, rfl, _, _, hcarrier, hlevel, hdirect, rfl, hrecalls⟩
  | _ => exact Or.inl rfl

/-- Only a resolution adds a carrier to the store, for a location that has defaults. -/
theorem Effect.carriers (h : scene.Effect host next) :
    next.world.store.carriers = scene.world.store.carriers ∨
      ∃ carrier, next.world.store.carriers = carrier :: scene.world.store.carriers ∧
        carrier.location.defaults.isSome := by
  cases h with
  | @resolved location howner requested =>
      cases hdefaults : location.defaults with
      | none =>
          left
          simp only [after, resolve, hdefaults, exec_throw]
      | some default =>
          have hexec := exec_resolve location requested hdefaults scene.world
          rw [after, hexec]
          split
          · exact Or.inl rfl
          · exact Or.inr ⟨_, rfl, Option.isSome_of_eq_some hdefaults⟩
  | @evaluated functions self _ constant scope =>
      have hstore := Class.leaves_evaluate host self.apart_store functions constant scope
      exact Or.inl (hstore.narrow Store.carriers scene.world)
  | @read functions self _ constant carrier =>
      have hstore := Class.leaves_accessorValue host self.apart_store functions constant carrier
      exact Or.inl (hstore.narrow Store.carriers scene.world)
  | _ => exact Or.inl rfl

/-- Only making a class known changes what is known, and it is known under its descriptor. -/
theorem Effect.loader (h : scene.Effect host next) :
    next.world.loader.classes = scene.world.loader.classes ∨
      ∃ self, next.world.loader.classes =
        (self.descriptor, self) :: scene.world.loader.classes := by
  cases h with
  | published => exact Or.inr ⟨_, rfl⟩
  | @resolved location _ requested =>
      have hloader := (leaves_resolve location requested).narrow fun parts => parts.2.2.1.classes
      exact Or.inl (hloader scene.world)
  | @evaluated functions self _ constant scope =>
      have hloader := Class.leaves_evaluate host self.apart_loader functions constant scope
      exact Or.inl (hloader.narrow Loader.classes scene.world)
  | @read functions self _ constant carrier =>
      have hloader := Class.leaves_accessorValue host self.apart_loader functions constant carrier
      exact Or.inl (hloader.narrow Loader.classes scene.world)
  | _ => exact Or.inl rfl

theorem Effect.recalling (h : scene.Effect host next) (hscene : scene.Recalling host) :
    next.Recalling host := by
  have hgrows := h.grows hscene.sound
  refine ⟨hgrows.sound hscene.sound, ?_⟩
  intro entry hentry
  rcases h.supertypes with hsame | ⟨added, hadded, hrecalled⟩
  · rw [hsame] at hentry
    exact (hscene.entries entry hentry).grow host hgrows
  · rw [hadded] at hentry
    rcases List.mem_cons.mp hentry with rfl | hold
    · exact hrecalled.grow host hgrows
    · exact (hscene.entries entry hold).grow host hgrows

theorem grows_of_effects (h : Relation.ReflTransGen (Effect host) scene next)
    (hscene : scene.Recalling host) : scene.Grows next ∧ next.Recalling host := by
  induction h with
  | refl => exact ⟨Grows.refl scene, hscene⟩
  | tail _ heffect ih =>
      obtain ⟨hgrows, hrecalling⟩ := ih
      exact ⟨hgrows.trans (heffect.grows hrecalling.sound), heffect.recalling hrecalling⟩

variable (host)

/-- An operation comes down to elementary changes, whether it succeeds or not. -/
def Acts {α : Type} (scene : Scene) (operation : Operation α) : Prop :=
  Relation.ReflTransGen (Effect host) scene (scene.after operation)

variable {host} {α β : Type}

theorem Acts.single {operation : Operation α}
    (h : scene.Effect host (scene.after operation)) : scene.Acts host operation :=
  Relation.ReflTransGen.single h

/-- An operation that changes nothing. -/
theorem Acts.still {operation : Operation α} (h : Leaves id operation) :
    scene.Acts host operation := by
  rw [Acts, after, show (exec operation scene.world).2 = scene.world from h scene.world]

theorem Acts.pure (a : α) : scene.Acts host (Pure.pure a : Operation α) :=
  .still (Leaves.pure a)

theorem Acts.throw (error : Error) : scene.Acts host (MonadExcept.throw error : Operation α) :=
  .still (Leaves.throw error)

theorem Acts.lift (x : Except Error α) : scene.Acts host (liftExcept x : Operation α) := by
  cases x with
  | error error => exact .throw error
  | ok a => exact .pure a

/-- The second of two operations starts from what the effects of the first one leave. -/
theorem Acts.bind {x : Operation α} {f : α → Operation β} (hscene : scene.Recalling host)
    (hx : scene.Acts host x)
    (hf : ∀ a, scene.result x = .ok a → scene.Grows (scene.after x) →
      (scene.after x).Recalling host → (scene.after x).Acts host (f a)) :
    scene.Acts host (x >>= f) := by
  obtain ⟨hgrows, hrecalling⟩ := grows_of_effects hx hscene
  cases hresult : scene.result x with
  | error error =>
      rw [Acts, after_bind_error hresult]
      exact hx
  | ok a =>
      rw [Acts, after_bind_ok hresult]
      exact hx.trans (hf a hresult hgrows hrecalling)

end Scene

namespace Scene

variable {scene : Scene}

theorem acts_resolveDefault {self : Class} (hself : self ∈ scene.classes)
    (hscene : scene.Recalling host) : scene.Acts host (resolveDefault self) := by
  unfold resolveDefault
  split
  · exact Acts.bind hscene (.single (.resolved hself none)) fun _ _ _ _ => .pure _
  · exact .pure none

theorem acts_findDirectSupertype (hscene : scene.Recalling host) (functions : Registry)
    {carrier : Carrier} (hcarrier : scene.Knows carrier) {superclass : Class}
    (hsuperclass : superclass ∈ scene.classes) :
    scene.Acts host (findDirectSupertype host functions carrier superclass) := by
  unfold findDirectSupertype
  dsimp only
  split
  · exact acts_resolveDefault host hsuperclass hscene
  · have howner := hscene.sound.owner carrier hcarrier
    apply Acts.bind hscene (.single (.read functions howner _ carrier))
    intro mapping _ hgrows hread
    split
    · exact .throw _
    · split
      · have hstill := hgrows.classes superclass hsuperclass
        exact Acts.bind hread (.single (.resolved hstill _)) fun _ _ _ _ => .pure _
      · exact .throw _

/-- What was found is remembered, unless it was remembered before. -/
theorem acts_directSupertype (hscene : scene.Recalling host) (functions : Registry)
    {carrier : Carrier} (hcarrier : scene.Knows carrier) (hlevel : carrier.isClassLevel)
    {superclass : Class} (hdirect : carrier.owner.superclass? = some superclass) :
    scene.Acts host (directSupertype host functions carrier superclass) := by
  have hsound := hscene.sound
  have hsuperclass := hsound.superclass (hsound.owner carrier hcarrier) hdirect
  cases hlookup : scene.world.store.supertypes.lookup (carrier.id, superclass.id) with
  | some found =>
      rw [Acts, after, exec_directSupertype_of_some host functions hlookup]
  | none =>
      have hexec := exec_directSupertype_of_none host functions hlookup
      have hfind := acts_findDirectSupertype host hscene functions hcarrier hsuperclass
      have hsettled := settled_findDirectSupertype host hsound functions hcarrier hsuperclass
      have hleaves := leaves_findDirectSupertype host functions carrier superclass scene.world
      obtain ⟨hgrows, _⟩ := grows_of_effects hfind hscene
      rw [Acts, after, hexec]
      rcases hrun : exec (findDirectSupertype host functions carrier superclass) scene.world with
        ⟨error | _ | found, next⟩
      · simpa only [Acts, after, hrun] using hfind
      · simpa only [Acts, after, hrun] using hfind
      · have hresult : scene.result (findDirectSupertype host functions carrier superclass) =
            .ok (some found) := by rw [result, hrun]
        obtain ⟨hstored, hnone⟩ := hsettled.holds hresult
        have hrecalls :=
          (redoes_of_found host hsound hcarrier hsuperclass hresult).recalls host
        rw [Acts] at hfind
        simp only [after, hrun] at hfind hgrows hstored hnone hrecalls hleaves
        refine hfind.tail (.remembered (hcarrier.grow hgrows) hlevel hdirect
          ((congrArg (List.lookup _) hleaves).trans hlookup) (hstored found rfl) ?_ hrecalls)
        by_contra hnothing
        cases hnone.mpr hnothing

/-- Each carrier on the way is one of the class that was climbed to. -/
theorem acts_climb (functions : Registry) {self top : Class} {way : List Class}
    (hway : self.Climbs way top) (hscene : scene.Recalling host) (hself : self ∈ scene.classes)
    {current : Option Carrier} (hcurrent : ∀ carrier, current = some carrier →
      scene.Knows carrier ∧ carrier.location = .ofClass self) :
    scene.Acts host (climb host functions current way) := by
  induction hway generalizing scene current with
  | here self =>
      cases current with
      | none => exact .pure none
      | some carrier => exact .pure (some carrier)
  | @up self above top way hdirect hrest ih =>
      have habove := hscene.sound.superclass hself hdirect
      cases current with
      | none =>
          apply Acts.bind hscene (acts_resolveDefault host habove hscene)
          intro found hfound hgrows hnext
          apply ih hnext (hgrows.classes above habove)
          intro carrier hcarrier
          exact ⟨Or.inl (((settled_resolveDefault habove).holds hfound).1 carrier hcarrier),
            (isSeen_of_resolveDefault hscene.sound habove hfound).location carrier hcarrier⟩
      | some carrier =>
          obtain ⟨hcarrier, hlocation⟩ := hcurrent carrier rfl
          obtain ⟨hlevel, rfl⟩ := Carrier.at_class hlocation
          have hacts := acts_directSupertype host hscene functions hcarrier hlevel hdirect
          apply Acts.bind hscene hacts
          intro found hfound hgrows hnext
          apply ih hnext (hgrows.classes above habove)
          intro other hother
          exact ⟨Or.inl ((settled_directSupertype host hscene.sound functions hcarrier
              habove).holds hfound other hother),
            (hscene.isSeen_of_directSupertype hcarrier hdirect hfound).location other hother⟩

theorem acts_supertypeCarrier (hscene : scene.Recalling host) (functions : Registry)
    {carrier : Carrier} (hcarrier : scene.Knows carrier) (ancestor : Class) :
    scene.Acts host (supertypeCarrier host functions carrier ancestor) := by
  unfold supertypeCarrier
  dsimp only
  split
  · rename_i hlevel
    split
    · exact .throw _
    · rename_i distance hdistance
      apply Acts.bind hscene (.still Leaves.get)
      intro world _ hgrows hscene
      have hcarrier := hcarrier.grow hgrows
      split
      · exact .throw _
      · obtain ⟨way, top, hway, rfl⟩ := Class.climbs_of_distanceTo? hdistance
        rw [hway.take_lineage]
        apply acts_climb host functions hway hscene (hscene.sound.owner carrier hcarrier)
        rintro other ⟨⟩
        exact ⟨hcarrier, Carrier.isClassLevel_iff.mp hlevel⟩
  · exact .throw _

theorem acts_supertypeCarrierNamed (hscene : scene.Recalling host) {carrier : Carrier}
    (hcarrier : scene.Knows carrier) (descriptor : Descriptor) :
    scene.Acts host (supertypeCarrierNamed host carrier descriptor) := by
  unfold supertypeCarrierNamed
  apply Acts.bind hscene (.still (leaves_findClass descriptor))
  intro ancestor _ hfound hscene
  apply Acts.bind hscene (.still leaves_functions)
  intro functions _ hread hscene
  exact acts_supertypeCarrier host hscene functions (hcarrier.grow (hfound.trans hread)) ancestor

theorem acts_scopedCarrier (hscene : scene.Recalling host) (self : Class) (constant : String)
    {carrier : Carrier} (hcarrier : scene.Knows carrier) :
    scene.Acts host (scopedCarrier host self constant carrier) := by
  unfold scopedCarrier
  split
  · exact .pure carrier
  · dsimp only
    split
    · exact .pure carrier
    · apply Acts.bind hscene (.still Leaves.get)
      intro world _ hgrows hscene
      split
      · exact .throw _
      · split
        · apply Acts.bind hscene (.still leaves_functions)
          intro functions _ hread hscene
          have hcarrier := hcarrier.grow (hgrows.trans hread)
          apply Acts.bind hscene (acts_supertypeCarrier host hscene functions hcarrier _)
          intro found _ _ _
          split
          · exact .pure _
          · exact .throw _
        · exact .throw _

theorem acts_instantiate (hscene : scene.Recalling host) (descriptor : Descriptor)
    (requested : Option Value) : scene.Acts host (instantiate descriptor requested) := by
  unfold instantiate
  apply Acts.bind hscene (.still (leaves_findClass descriptor))
  intro self hfound _ hnext
  have hself := (settled_findClass hscene.sound descriptor).holds hfound
  exact Acts.bind hnext (.single (.resolved hself requested)) fun _ _ _ _ => .pure _

theorem acts_link (hscene : scene.Recalling host) (request : Value) :
    scene.Acts host (link request) := by
  unfold link
  split
  · rename_i raw parameters
    apply Acts.bind hscene (.still (leaves_findClass raw))
    intro self hfound _ _
    have hself := (settled_findClass hscene.sound raw).holds hfound
    exact .single (.resolved hself (some parameters))
  · exact .throw _

theorem acts_mark (hscene : scene.Recalling host) (descriptor : Descriptor) (constant : String) :
    scene.Acts host (markInFlight descriptor constant) :=
  .single (.ambient _ hscene.sound.ambient)

theorem acts_enter {carrier : Carrier} (hcarrier : scene.Knows carrier) :
    scene.Acts host (enter carrier) := by
  apply Acts.single
  refine .ambient { scene.world.ambient with carrier := some carrier } ?_
  rintro other ⟨⟩
  exact hcarrier

theorem acts_takeInFlight (hscene : scene.Recalling host) : scene.Acts host takeInFlight := by
  have htaken : scene.Acts host (Operation.modifyAmbient fun ambient =>
      { ambient with inFlight := none }) := .single (.ambient _ hscene.sound.ambient)
  unfold takeInFlight
  apply Acts.bind hscene (.still Leaves.get)
  intro world _ _ hnext
  apply Acts.bind hnext htaken
  intro _ _ _ _
  split
  · exact .pure _
  · exact .throw _

theorem acts_resolveAmbientConstant (hscene : scene.Recalling host) :
    scene.Acts host (resolveAmbientConstant host) := by
  unfold resolveAmbientConstant
  apply Acts.bind hscene (acts_takeInFlight host hscene)
  rintro ⟨descriptor, constant⟩ _ _ hscene
  apply Acts.bind hscene (.still (leaves_findClass descriptor))
  intro self hfound _ hnext
  have hself := (settled_findClass hscene.sound descriptor).holds hfound
  apply Acts.bind hnext (.still leaves_functions)
  intro functions _ hgrows hscene
  have hself := hgrows.classes self hself
  by_cases hdeclared : self.analysis.contains constant
  · simp only [hdeclared, Bool.not_true, Bool.false_eq_true, if_false]
    split
    · apply Acts.bind hscene (.still (Leaves.get.bind fun _ => Leaves.pure _))
      intro current hcurrent hgrows hnext
      have hself := hgrows.classes self hself
      have hknown := (safe_currentCarrier hscene.sound).holds current hcurrent
      split
      · exact .throw _
      · rename_i carrier
        apply Acts.bind hnext (acts_scopedCarrier host hnext self constant (hknown carrier rfl))
        intro own _ hgrows _
        exact .single (.read functions (hgrows.classes self hself) constant own)
    · exact .single (.evaluated functions hself constant .unbound)
  · simp only [hdeclared]
    exact .throw _

theorem acts_read (hscene : scene.Recalling host) {site : SpecializedCallSite}
    (howner : site.owner ∈ scene.classes) (constant : String) {carrier : Carrier}
    (hcarrier : scene.Knows carrier) : scene.Acts host (site.read host constant carrier) := by
  unfold SpecializedCallSite.read
  apply Acts.bind hscene (acts_scopedCarrier host hscene site.owner constant hcarrier)
  intro own _ hgrows hscene
  apply Acts.bind hscene (.still leaves_functions)
  intro functions _ hlater hscene
  have howner := (hgrows.trans hlater).classes site.owner howner
  exact Acts.bind hscene (.single (.read functions howner constant own)) fun _ _ _ _ => .pure _

theorem acts_restrict (hscene : scene.Recalling host) {site : SpecializedCallSite}
    (howner : site.owner ∈ scene.classes) {carrier : Carrier} (hcarrier : scene.Knows carrier)
    (restrictions : List (Nat × String)) (target : Target) :
    scene.Acts host (restrictions.foldlM (fun target (slot, constant) => do
      let (restriction, _) ← site.read host constant carrier
      return target.restrict slot restriction) target) := by
  induction restrictions generalizing scene target with
  | nil => exact .pure target
  | cons restriction rest ih =>
      rw [List.foldlM_cons]
      apply Acts.bind hscene
      · exact Acts.bind hscene (acts_read host hscene howner restriction.2 hcarrier)
          fun _ _ _ _ => .pure _
      · intro next _ hgrows hscene
        exact ih hscene (hgrows.classes _ howner) (hcarrier.grow hgrows) next

theorem acts_specialized (hscene : scene.Recalling host) {site : SpecializedCallSite}
    (howner : site.owner ∈ scene.classes) {carrier : Carrier} (hcarrier : scene.Knows carrier) :
    scene.Acts host (site.resolve host carrier) := by
  unfold SpecializedCallSite.resolve
  apply Acts.bind hscene (acts_read host hscene howner site.constant hcarrier)
  rintro ⟨value, own⟩ _ hread hscene
  apply Acts.bind hscene (.lift _)
  intro function _ hfitted hscene
  apply Acts.bind hscene (.lift _)
  intro target _ hadapted hscene
  have hgrows := (hread.trans hfitted).trans hadapted
  exact acts_restrict host hscene (hgrows.classes _ howner) (hcarrier.grow hgrows)
    site.restrictions target

theorem acts_declaringCarrier (hscene : scene.Recalling host) {receiver : Instance}
    (hreceiver : scene.KnowsInstance receiver) {declaring : Class}
    (hdeclaring : declaring ∈ scene.classes) :
    scene.Acts host (ReceiverCallSite.declaringCarrier host receiver declaring) := by
  unfold ReceiverCallSite.declaringCarrier
  split
  · rename_i own hown
    split
    · exact .pure _
    · apply Acts.bind hscene (.still leaves_functions)
      intro functions _ hgrows hscene
      exact acts_supertypeCarrier host hscene functions
        ((hreceiver.carrier own hown).grow hgrows) declaring
  · exact acts_resolveDefault host hdeclaring hscene

theorem acts_receiver (hscene : scene.Recalling host) (site : ReceiverCallSite)
    {receiver : Instance} (hreceiver : scene.KnowsInstance receiver) :
    scene.Acts host (site.resolve host receiver) := by
  unfold ReceiverCallSite.resolve
  split
  · exact .throw _
  · rename_i declaring method hmethod
    have hdeclaring := hscene.sound.lineage _ hreceiver.owner _
      (Class.mem_lineage_of_findMethod? hmethod)
    apply Acts.bind hscene (.still leaves_functions)
    intro functions _ hgrows hscene
    have hreceiver := hreceiver.grow hgrows
    have hdeclaring := hgrows.classes _ hdeclaring
    apply Acts.bind hscene (acts_declaringCarrier host hscene hreceiver hdeclaring)
    intro found hfound hgrows hnext
    have hknown := (settled_declaringCarrier host hscene.sound hreceiver.carrier
      hdeclaring).holds hfound
    have hdeclaring := hgrows.classes _ hdeclaring
    split
    · rename_i own
      apply Acts.bind hnext (acts_scopedCarrier host hnext declaring _ (hknown own rfl))
      intro carrier _ hgrows hscene
      have hdeclaring := hgrows.classes _ hdeclaring
      apply Acts.bind hscene (.single (.read functions hdeclaring _ carrier))
      intro value _ _ hscene
      exact Acts.bind hscene (.lift _) fun _ _ _ _ => .lift _
    · apply Acts.bind hnext (.single (.evaluated functions hdeclaring _ .unbound))
      intro value _ _ hscene
      exact Acts.bind hscene (.lift _) fun _ _ _ _ => .lift _

/-- A call resolves its target, or finds it in its cache. -/
theorem effects_call {ι κ : Type} [GuardKey κ] {resolver : Resolver ι κ} {input : ι}
    (h : scene.Acts host (resolver.resolve input)) (arguments : List Value)
    (cache : InlineCache κ) : Relation.ReflTransGen (Effect host) scene
      { scene with world := (resolver.call host arguments cache input scene.world).2 } := by
  simp only [Resolver.call, InlineCache.run_invoke]
  split
  · exact .refl
  · rw [Acts, after] at h
    split
    · rename_i hrun
      rwa [hrun] at h
    · rename_i hrun
      rwa [hrun] at h

theorem effects_load (spec : ClassSpec) {superclass : Option Class}
    (hsuperclass : ∀ above, superclass = some above → above ∈ scene.classes) :
    Relation.ReflTransGen (Effect host) scene (scene.loadClass spec superclass) := by
  have hexec := exec_load spec superclass scene.world
  cases hdefinition : Definition.ofSpec scene.world.nextClass spec with
  | error error =>
      rw [hdefinition] at hexec
      simp only [loadClass, result, after, hexec]
      exact .refl
  | ok definition =>
      rw [hdefinition] at hexec
      simp only [loadClass, result, after, hexec]
      exact .single (.loaded hdefinition hsuperclass)

theorem effects_define (hsound : scene.Sound) (spec : ClassSpec) :
    Relation.ReflTransGen (Effect host) scene (scene.defineClass spec) := by
  rcases defineClass_cases hsound spec with hsame | hskipped |
    ⟨definition, superclass, hdefinition, hsuperclass, hnew, hdefined⟩
  · rw [hsame]
  · rw [hskipped]
    exact .single .refused
  · rw [hdefined]
    let loaded : Scene := { scene with
      world := { scene.world with nextClass := scene.world.nextClass + 1 }
      classes := Class.under definition superclass :: scene.classes }
    have hloaded : scene.Effect host loaded := .loaded hdefinition hsuperclass
    have hself : Class.under definition superclass ∈ loaded.classes := List.mem_cons_self
    exact (Relation.ReflTransGen.single hloaded).tail (.published hself hnew)

variable {host} {next : Scene}

theorem Move.effects (h : scene.Move host next) (hscene : scene.Recalling host) :
    Relation.ReflTransGen (Effect host) scene next := by
  cases h with
  | define spec => exact effects_define host hscene.sound spec
  | load spec hsuperclass => exact effects_load host spec hsuperclass
  | forge howner parameters backing => exact .single (.forged howner parameters backing)
  | resolve howner requested => exact .single (.resolved howner requested)
  | instantiate descriptor requested => exact acts_instantiate host hscene descriptor requested
  | link request => exact acts_link host hscene request
  | supertype functions hcarrier ancestor =>
      exact acts_supertypeCarrier host hscene functions hcarrier ancestor
  | supertypeNamed hcarrier descriptor =>
      exact acts_supertypeCarrierNamed host hscene hcarrier descriptor
  | evaluate functions hself constant scope =>
      exact .single (.evaluated functions hself constant scope)
  | accessor functions hself constant carrier =>
      exact .single (.read functions hself constant carrier)
  | enter hcarrier => exact acts_enter host hcarrier
  | exit hprevious => exact .single (.ambient _ hprevious)
  | mark descriptor constant => exact acts_mark host hscene descriptor constant
  | read => exact acts_resolveAmbientConstant host hscene
  | specialized site howner hcarrier arguments =>
      have hresolve : scene.Acts host ((site.resolver host).resolve _) :=
        acts_specialized host hscene howner hcarrier
      exact effects_call host hresolve arguments site.cache
  | receiver site hreceiver arguments =>
      have hresolve : scene.Acts host ((site.resolver host).resolve _) :=
        acts_receiver host hscene site hreceiver
      exact effects_call host hresolve arguments site.cache

theorem start_recalling (config : Config) (functions : Registry) :
    (start config functions).Recalling host where
  sound := start_sound config functions
  entries _ h := nomatch h

/-- A run of a program is a run of effects. -/
theorem effects_of_moves {first last : Scene} (hfirst : first.Recalling host)
    (h : Relation.ReflTransGen (Move host) first last) :
    Relation.ReflTransGen (Effect host) first last := by
  induction h with
  | refl => exact .refl
  | tail _ hmove ih => exact ih.trans (hmove.effects (grows_of_effects ih hfirst).2)

theorem Reachable.recalling (h : scene.Reachable host) : scene.Recalling host := by
  obtain ⟨config, functions, hmoves⟩ := h
  have hstart : (start config functions).Recalling host := start_recalling config functions
  exact (grows_of_effects (effects_of_moves hstart hmoves) hstart).2

/-- What holds at the start and is preserved by every effect holds wherever a program gets. -/
theorem Reachable.induction {P : Scene → Prop} (h : scene.Reachable host)
    (hstart : ∀ config functions, P (start config functions))
    (heffect : ∀ scene next, scene.Recalling host → P scene → scene.Effect host next → P next) :
    P scene := by
  obtain ⟨config, functions, hmoves⟩ := h
  have hfirst : (start config functions).Recalling host := start_recalling config functions
  have heffects := effects_of_moves hfirst hmoves
  clear hmoves
  induction heffects with
  | refl => exact hstart config functions
  | tail hrun hlast ih => exact heffect _ _ (grows_of_effects hrun hfirst).2 ih hlast

/-- Classes are known under their own descriptors. -/
theorem Reachable.descriptor_of_loader (h : scene.Reachable host) :
    ∀ entry ∈ scene.world.loader.classes, entry.2.descriptor = entry.1 := by
  apply h.induction
  · exact fun _ _ _ hentry => nomatch hentry
  · intro scene next _ hscene heffect entry hentry
    rcases heffect.loader with hsame | ⟨self, hadded⟩
    · exact hscene entry (hsame ▸ hentry)
    · rw [hadded] at hentry
      rcases List.mem_cons.mp hentry with rfl | hold
      · rfl
      · exact hscene entry hold

end Scene

end Specialization

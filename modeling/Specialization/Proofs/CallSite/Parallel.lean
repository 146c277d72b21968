import Specialization.Proofs.CallSite.AmbientRead
import Specialization.Proofs.World.ParallelReading

/-!
Reads and calls in two scenes that are alike. A marked constant is read with the same result under
carriers that are the same, and call sites for the same constant or method resolve to the same
target. So their calls give the same result, whatever targets their caches keep.
-/

namespace Specialization

variable {host : Host} {vocabulary : Vocabulary}

/-- Marking a constant and reading it, as one operation. -/
def readMarked (host : Host) (descriptor : Descriptor) (constant : String) : Operation Value := do
  markInFlight descriptor constant
  resolveAmbientConstant host

namespace Scene

variable {a b : Scene}

abbrev SameInstance (a b : Scene) : Instance → Instance → Prop :=
  Same KnowsInstance Instance.unnumbered a b

section SameInstance

variable {a' b' : Scene}

theorem SameInstance.grow {self other : Instance} (h : a.SameInstance b self other)
    (hgrows : a.Grows a') (hgrows' : b.Grows b') : a'.SameInstance b' self other :=
  ⟨h.first.grow hgrows, h.second.grow hgrows', h.seen⟩

theorem SameInstance.owner {self other : Instance} (h : a.SameInstance b self other) :
    a.SameClass b self.owner other.owner := by
  refine ⟨h.first.owner, h.second.owner, ?_⟩
  rw [← self.owner_unnumbered, h.seen, other.owner_unnumbered]

theorem SameInstance.carrier? {self other : Instance} (h : a.SameInstance b self other) :
    Option.Rel (a.SameCarrier b) self.carrier? other.carrier? := by
  refine Same.option_iff.mpr ⟨h.first.carrier, h.second.carrier, ?_⟩
  rw [← self.carrier?_unnumbered, h.seen, other.carrier?_unnumbered]

theorem SameCarrier.instance {carrier carrier' : Carrier} (h : a.SameCarrier b carrier carrier')
    (ha : a.Sound) (hb : b.Sound) :
    a.SameInstance b (.ofCarrier carrier) (.ofCarrier carrier') := by
  refine ⟨.ofCarrier ha h.first, .ofCarrier hb h.second, ?_⟩
  rw [Instance.ofCarrier_unnumbered, h.seen, Instance.ofCarrier_unnumbered]

theorem SameClass.plain {self other : Class} (h : a.SameClass b self other) :
    a.SameInstance b (.plain self) (.plain other) where
  first := .plain h.first
  second := .plain h.second
  seen := congrArg Instance.plain h.seen

end SameInstance

theorem parallel_instantiate (halike : a.Alike host vocabulary b) (descriptor : Descriptor)
    {requested : Option Value} (hrequested : vocabulary.CoversOption requested) :
    Parallel host vocabulary a b (instantiate descriptor requested)
      (instantiate descriptor requested) SameInstance := by
  apply Parallel.bind halike (parallel_findClass halike descriptor)
  intro a b self other _ _ halike hself
  apply Parallel.bind halike (parallel_resolve halike hself.location trivial hrequested)
  rintro a b carrier carrier' _ _ halike ⟨hsame, _⟩
  exact .pure halike (hsame.instance halike.first.sound halike.second.sound)

/-- A change of the mark alone. -/
theorem Exact.steady_mark {α : Type} (h : a.Exact host vocabulary) {operation : Operation α}
    (marked : Option (Descriptor × String)) (hafter : a.after operation = { a with world :=
      { a.world with ambient := { a.world.ambient with inFlight := marked } } }) :
    a.Steady host vocabulary operation := by
  refine ⟨?_, ?_, congrArg (fun scene => scene.world.setting) hafter⟩ <;> rw [hafter]
  · exact Grows.of_ambient _ h.sound.ambient
  · exact h.withAmbient h.sound.ambient

/-- The same constant is marked in both scenes, or none is in either. -/
def SameMark (a b : Scene) : Prop :=
  a.world.ambient.inFlight = b.world.ambient.inFlight

theorem parallel_mark (halike : a.Alike host vocabulary b) (descriptor : Descriptor)
    (constant : String) :
    Parallel host vocabulary a b (markInFlight descriptor constant)
      (markInFlight descriptor constant) fun a' b' _ _ => a'.SameMark b' where
  first := halike.first.steady_mark (some (descriptor, constant)) rfl
  second := halike.second.steady_mark (some (descriptor, constant)) rfl
  outcome := .ok rfl

theorem parallel_takeInFlight (halike : a.Alike host vocabulary b) (hmark : a.SameMark b) :
    Parallel host vocabulary a b takeInFlight takeInFlight
      fun _ _ marked marked' => marked = marked' where
  first := halike.first.steady_mark none (by rw [after, world_takeInFlight, World.unmarked])
  second := halike.second.steady_mark none (by rw [after, world_takeInFlight, World.unmarked])
  outcome := by
    rw [result, result]
    cases hmarked : a.world.ambient.inFlight with
    | none =>
        rw [exec_takeInFlight_of_none hmarked,
          exec_takeInFlight_of_none (hmark.symm.trans hmarked)]
        exact .error _
    | some marked =>
        rw [exec_takeInFlight hmarked, exec_takeInFlight (hmark.symm.trans hmarked)]
        exact .ok rfl

theorem Alike.currentCarrier (h : a.Alike host vocabulary b) :
    Option.Rel (a.SameCarrier b) a.world.ambient.carrier b.world.ambient.carrier :=
  Same.option_iff.mpr ⟨h.first.sound.ambient, h.second.sound.ambient, h.ambient⟩

/-- A constant is read with the same result under carriers that are the same. -/
theorem parallel_readIn (halike : a.Alike host vocabulary b) (descriptor : Descriptor)
    (constant : String) {current current' : Option Carrier}
    (hcurrent : Option.Rel (a.SameCarrier b) current current') :
    Parallel host vocabulary a b (readIn host descriptor constant current)
      (readIn host descriptor constant current') fun _ _ value value' => value = value' := by
  apply Parallel.bind halike (parallel_findClass halike descriptor)
  intro a' b' self other hgrows hgrows' halike hself
  apply Parallel.bind halike (parallel_functions halike)
  rintro a'' b'' functions _ hlater hlater' halike ⟨hfunctions, rfl⟩
  have hself := hself.grow hlater hlater'
  have hcurrent := optionRel_mono hcurrent fun _ _ hsame =>
    hsame.grow (hgrows.trans hlater) (hgrows'.trans hlater')
  have hanalysis := Class.analysis_of_unnumbered hself.seen
  have hdescriptor := Class.descriptor_of_unnumbered hself.seen
  rw [← hanalysis, ← hdescriptor]
  split
  · split
    · cases hcurrent with
      | none => exact .throw halike _
      | some hcarrier =>
          apply Parallel.bind halike (parallel_scopedCarrier halike hself constant hcarrier)
          intro a b own own' hgrows hgrows' halike hown
          exact (parallel_accessorValue halike (hself.grow hgrows hgrows')
            (hfunctions.trans hgrows.world.functions.symm) constant hown).mono
              fun _ _ _ _ hsame => hsame.1
    · exact (parallel_evaluate halike hself hfunctions constant).mono
        fun _ _ _ _ hsame => hsame.1
  · exact .throw halike _

theorem parallel_resolveAmbientConstant (halike : a.Alike host vocabulary b)
    (hmark : a.SameMark b) :
    Parallel host vocabulary a b (resolveAmbientConstant host) (resolveAmbientConstant host)
      fun _ _ value value' => value = value' := by
  have hresolve (world : World) : exec (resolveAmbientConstant host) world =
      exec (takeInFlight >>= fun marked => readIn host marked.1 marked.2 world.ambient.carrier)
        world := by
    cases hmarked : world.ambient.inFlight with
    | none =>
        have htake := exec_takeInFlight_of_none hmarked
        rw [resolveAmbientConstant, exec_bind_error htake, exec_bind_error htake]
    | some marked =>
        rw [exec_resolve_marked host hmarked, exec_bind_ok (exec_takeInFlight hmarked)]
  refine .congr (hresolve a.world) (hresolve b.world) ?_
  apply Parallel.bind halike (parallel_takeInFlight halike hmark)
  rintro a' b' marked _ hgrows hgrows' halike' rfl
  exact parallel_readIn halike' marked.1 marked.2
    (optionRel_mono halike.currentCarrier fun _ _ hsame => hsame.grow hgrows hgrows')

theorem parallel_readMarked (halike : a.Alike host vocabulary b) (descriptor : Descriptor)
    (constant : String) :
    Parallel host vocabulary a b (readMarked host descriptor constant)
      (readMarked host descriptor constant) fun _ _ value value' => value = value' := by
  apply Parallel.bind halike (parallel_mark halike descriptor constant)
  intro a b _ _ _ _ halike hmark
  exact parallel_resolveAmbientConstant halike hmark

/-- A call site for the same constant, adapted and restricted in the same way. -/
structure SameSite (a b : Scene) (site site' : SpecializedCallSite) : Prop where
  owner : a.SameClass b site.owner site'.owner
  constant : site.constant = site'.constant
  adaptation : site.adaptation = site'.adaptation
  restrictions : site.restrictions = site'.restrictions

theorem SameSite.grow {a' b' : Scene} {site site' : SpecializedCallSite}
    (h : a.SameSite b site site') (hgrows : a.Grows a') (hgrows' : b.Grows b') :
    a'.SameSite b' site site' :=
  { h with owner := h.owner.grow hgrows hgrows' }

/-- What the caches of call sites keep does not matter. -/
theorem SameSite.used {site site' : SpecializedCallSite} (h : a.SameSite b site site')
    (cache cache' : InlineCache Carrier) :
    a.SameSite b { site with cache } { site' with cache := cache' } :=
  ⟨h.owner, h.constant, h.adaptation, h.restrictions⟩

theorem SameCarrier.adapt {carrier carrier' : Carrier} (h : a.SameCarrier b carrier carrier')
    (function : BoundFunction) (adaptation : Adaptation) :
    Target.adapt function adaptation (some carrier) =
      Target.adapt function adaptation (some carrier') := by
  simp only [Target.adapt, Option.bind_some, h.scope]

theorem parallel_siteRead (halike : a.Alike host vocabulary b) {site site' : SpecializedCallSite}
    (howner : a.SameClass b site.owner site'.owner) (constant : String)
    {carrier carrier' : Carrier} (hcarrier : a.SameCarrier b carrier carrier') :
    Parallel host vocabulary a b (site.read host constant carrier)
      (site'.read host constant carrier')
      fun a' b' found found' => found.1 = found'.1 ∧ a'.SameCarrier b' found.2 found'.2 := by
  apply Parallel.bind halike (parallel_scopedCarrier halike howner constant hcarrier)
  intro a b own own' hgrows hgrows' halike hown
  have howner := howner.grow hgrows hgrows'
  apply Parallel.bind halike (parallel_functions halike)
  rintro a b functions _ hgrows hgrows' halike ⟨hfunctions, rfl⟩
  have howner := howner.grow hgrows hgrows'
  have hown := hown.grow hgrows hgrows'
  apply Parallel.bind halike (parallel_accessorValue halike howner hfunctions constant hown)
  rintro a b value _ hgrows hgrows' halike ⟨rfl, _⟩
  exact .pure halike ⟨rfl, hown.grow hgrows hgrows'⟩

theorem parallel_restrict (halike : a.Alike host vocabulary b) {site site' : SpecializedCallSite}
    (howner : a.SameClass b site.owner site'.owner) {carrier carrier' : Carrier}
    (hcarrier : a.SameCarrier b carrier carrier') (restrictions : List (Nat × String))
    (target : Target) :
    Parallel host vocabulary a b
      (restrictions.foldlM (fun target (slot, constant) => do
        let (restriction, _) ← site.read host constant carrier
        return target.restrict slot restriction) target)
      (restrictions.foldlM (fun target (slot, constant) => do
        let (restriction, _) ← site'.read host constant carrier'
        return target.restrict slot restriction) target)
      fun _ _ target target' => target = target' := by
  induction restrictions generalizing a b target with
  | nil => exact .pure halike rfl
  | cons restriction rest ih =>
      rw [List.foldlM_cons, List.foldlM_cons, bind_assoc, bind_assoc]
      apply Parallel.bind halike (parallel_siteRead halike howner restriction.2 hcarrier)
      rintro a b ⟨value, own⟩ ⟨_, own'⟩ hgrows hgrows' halike ⟨hvalue, _⟩
      obtain rfl : value = _ := hvalue
      simp only [pure_bind]
      exact ih halike (howner.grow hgrows hgrows') (hcarrier.grow hgrows hgrows') _

theorem parallel_specialized (halike : a.Alike host vocabulary b)
    {site site' : SpecializedCallSite} (hsite : a.SameSite b site site')
    {carrier carrier' : Carrier} (hcarrier : a.SameCarrier b carrier carrier') :
    Parallel host vocabulary a b (site.resolve host carrier) (site'.resolve host carrier')
      fun _ _ target target' => target = target' := by
  unfold SpecializedCallSite.resolve
  rw [← hsite.constant, ← hsite.adaptation, ← hsite.restrictions]
  apply Parallel.bind halike (parallel_siteRead halike hsite.owner site.constant hcarrier)
  rintro a b ⟨value, own⟩ ⟨value', own'⟩ hgrows hgrows' halike ⟨hvalue, hown⟩
  obtain rfl : value = value' := hvalue
  have howner := hsite.owner.grow hgrows hgrows'
  have hcarrier := hcarrier.grow hgrows hgrows'
  apply Parallel.bind halike (.lift halike (Target.expectFunction site.constant value))
  rintro a b function _ hgrows hgrows' halike rfl
  have howner := howner.grow hgrows hgrows'
  have hcarrier := hcarrier.grow hgrows hgrows'
  rw [hown.adapt function site.adaptation]
  apply Parallel.bind halike
    (.lift halike (Target.adapt function site.adaptation (some own')))
  rintro a b target _ hgrows hgrows' halike rfl
  exact parallel_restrict halike (howner.grow hgrows hgrows') (hcarrier.grow hgrows hgrows') _ _

theorem Exact.beq_eq (h : a.Exact host vocabulary) {self other : Class} (hself : self ∈ a.classes)
    (hother : other ∈ a.classes) : (self == other) = (self.descriptor == other.descriptor) := by
  rw [Bool.eq_iff_iff, Class.beq_iff, beq_iff_eq]
  constructor
  · intro hid
    rw [h.sound.class_unique self hself other hother hid]
  · intro hdescriptor
    rw [h.class_eq hself hother hdescriptor]

theorem parallel_declaringCarrier (halike : a.Alike host vocabulary b)
    {receiver receiver' : Instance} (hreceiver : a.SameInstance b receiver receiver')
    {declaring declaring' : Class} (hdeclaring : a.SameClass b declaring declaring') :
    Parallel host vocabulary a b (ReceiverCallSite.declaringCarrier host receiver declaring)
      (ReceiverCallSite.declaringCarrier host receiver' declaring')
      fun a' b' => Option.Rel (a'.SameCarrier b') := by
  have howner := hreceiver.owner
  have hsame : (declaring == receiver.owner) = (declaring' == receiver'.owner) := by
    rw [halike.first.beq_eq hdeclaring.first howner.first,
      halike.second.beq_eq hdeclaring.second howner.second,
      Class.descriptor_of_unnumbered hdeclaring.seen, Class.descriptor_of_unnumbered howner.seen]
  have hcarrier := hreceiver.carrier?
  unfold ReceiverCallSite.declaringCarrier
  generalize receiver.carrier? = found at hcarrier ⊢
  generalize receiver'.carrier? = found' at hcarrier ⊢
  cases hcarrier with
  | none =>
      exact (parallel_resolveDefault halike hdeclaring).mono fun _ _ _ _ hseen => hseen.same
  | some hown =>
      dsimp only
      rw [← hsame]
      split
      · exact .pure halike (.some hown)
      · apply Parallel.bind halike (parallel_functions halike)
        rintro a b functions _ hgrows hgrows' halike ⟨hfunctions, rfl⟩
        exact parallel_supertypeCarrier halike hfunctions (hown.grow hgrows hgrows')
          (hdeclaring.grow hgrows hgrows')

/-- A class with one of its methods. -/
abbrev SameMethod (a b : Scene) : Class × Method → Class × Method → Prop :=
  Same (fun scene found => found.1 ∈ scene.classes) (Prod.map Class.unnumbered id) a b

theorem SameClass.findMethod? (ha : a.Sound) (hb : b.Sound) {self other : Class}
    (h : a.SameClass b self other) (name : String) :
    Option.Rel (a.SameMethod b) (self.findMethod? name) (other.findMethod? name) := by
  have hview := self.findMethod?_unnumbered name
  rw [h.seen, other.findMethod?_unnumbered] at hview
  refine Same.option_iff.mpr ⟨fun found hfound => ?_, fun found hfound => ?_, hview.symm⟩
  · exact ha.lineage self h.first _ (Class.mem_lineage_of_findMethod? hfound)
  · exact hb.lineage other h.second _ (Class.mem_lineage_of_findMethod? hfound)

theorem parallel_receiver (halike : a.Alike host vocabulary b) {site site' : ReceiverCallSite}
    (hmethod : site.method = site'.method) (hadaptation : site.adaptation = site'.adaptation)
    {receiver receiver' : Instance} (hreceiver : a.SameInstance b receiver receiver') :
    Parallel host vocabulary a b (site.resolve host receiver) (site'.resolve host receiver')
      fun _ _ target target' => target = target' := by
  have hfind :=
    hreceiver.owner.findMethod? halike.first.sound halike.second.sound site.method
  unfold ReceiverCallSite.resolve
  rw [← hmethod, ← hadaptation, ← Class.descriptor_of_unnumbered hreceiver.owner.seen]
  generalize receiver.owner.findMethod? site.method = found at hfind ⊢
  generalize receiver'.owner.findMethod? site.method = found' at hfind ⊢
  cases hfind with
  | none => exact .throw halike _
  | @some found found' hfound =>
      obtain ⟨declaring, method⟩ := found
      obtain ⟨declaring', method'⟩ := found'
      obtain ⟨hview, hmethod⟩ := Prod.mk.inj hfound.seen
      obtain rfl : method = method' := hmethod
      have hdeclaring : a.SameClass b declaring declaring' :=
        ⟨hfound.first, hfound.second, hview⟩
      apply Parallel.bind halike (parallel_functions halike)
      rintro a b functions _ hgrows hgrows' halike ⟨hfunctions, rfl⟩
      have hdeclaring := hdeclaring.grow hgrows hgrows'
      apply Parallel.bind halike (parallel_declaringCarrier halike
        (hreceiver.grow hgrows hgrows') hdeclaring)
      intro a b found found' hgrows hgrows' halike hsame
      have hdeclaring := hdeclaring.grow hgrows hgrows'
      have hfunctions := hfunctions.trans hgrows.world.functions.symm
      cases hsame with
      | none =>
          apply Parallel.bind halike
            (parallel_evaluate halike hdeclaring hfunctions method.implementation)
          rintro a b value _ _ _ halike ⟨rfl, _⟩
          apply Parallel.bind halike (.lift halike _)
          rintro a b function _ _ _ halike rfl
          exact .lift halike _
      | some hown =>
          apply Parallel.bind halike
            (parallel_scopedCarrier halike hdeclaring method.implementation hown)
          intro a b carrier carrier' hgrows hgrows' halike hcarrier
          have hfunctions := hfunctions.trans hgrows.world.functions.symm
          apply Parallel.bind halike (parallel_accessorValue halike
            (hdeclaring.grow hgrows hgrows') hfunctions method.implementation hcarrier)
          rintro a b value _ _ _ halike ⟨rfl, _⟩
          apply Parallel.bind halike (.lift halike _)
          rintro a b function _ _ _ halike rfl
          rw [hcarrier.adapt function site.adaptation]
          exact .lift halike _

section Calls

variable {ι κ : Type} [GuardKey κ] {resolver resolver' : Resolver ι κ} {input input' : ι}

/-- A call resolves its target at most, whatever the cache keeps. -/
theorem Continues.call (h : a.Exact host vocabulary)
    (hresolve : a.Steady host vocabulary (resolver.resolve input)) (arguments : List Value)
    (cache : InlineCache κ) :
    a.Continues host vocabulary
      { a with world := (resolver.call host arguments cache input a.world).2 } := by
  simp only [Resolver.call, InlineCache.run_invoke]
  split
  · exact .refl h
  · rw [Steady, after] at hresolve
    rcases hrun : exec (resolver.resolve input) a.world with ⟨error | target, next⟩
    · rwa [hrun] at hresolve
    · rwa [hrun] at hresolve

/-- Calls of the same target give the same result, whether they find it in a cache or resolve it. -/
theorem Parallel.call_eq
    (h : Parallel host vocabulary a b (resolver.resolve input) (resolver'.resolve input')
      fun _ _ target target' => target = target')
    (halike : a.Alike host vocabulary b) (hlawful : resolver.Lawful) (hlawful' : resolver'.Lawful)
    {cache cache' : InlineCache κ} (hcache : resolver.Faithful a cache)
    (hcache' : resolver'.Faithful b cache') (hknown : resolver.Known a input)
    (hknown' : resolver'.Known b input') (arguments : List Value) :
    (resolver.call host arguments cache input a.world).1.1 =
      (resolver'.call host arguments cache' input' b.world).1.1 := by
  have hfresh : (resolver.call host arguments {} input a.world).1.1 =
      (a.result (resolver.resolve input)).bind fun target => target.invoke host arguments :=
    InlineCache.result_fresh host _ arguments (resolver.resolve input) a
  have hfresh' : (resolver'.call host arguments {} input' b.world).1.1 =
      (b.result (resolver'.resolve input')).bind fun target => target.invoke host arguments :=
    InlineCache.result_fresh host _ arguments (resolver'.resolve input') b
  rw [hcache.call_eq host arguments hlawful halike.first.sound hknown,
    hcache'.call_eq host arguments hlawful' halike.second.sound hknown', hfresh, hfresh']
  have houtcome := h.outcome
  generalize a.result (resolver.resolve input) = found at houtcome ⊢
  generalize b.result (resolver'.resolve input') = found' at houtcome ⊢
  cases houtcome with
  | ok hsame => rw [hsame]
  | error error => rfl

/-- What comes of two calls of the same target: the same result, and caches that are faithful again
in scenes that continue. -/
structure Called (host : Host) (vocabulary : Vocabulary) (a b : Scene)
    (resolver resolver' : Resolver ι κ)
    (outcome outcome' : (Except Error Value × InlineCache κ) × World) : Prop where
  first : a.Continues host vocabulary { a with world := outcome.2 }
  second : b.Continues host vocabulary { b with world := outcome'.2 }
  result : Outcome Eq outcome.1.1 outcome'.1.1
  cache : resolver.Faithful { a with world := outcome.2 } outcome.1.2
  cache' : resolver'.Faithful { b with world := outcome'.2 } outcome'.1.2

theorem Parallel.called
    (h : Parallel host vocabulary a b (resolver.resolve input) (resolver'.resolve input')
      fun _ _ target target' => target = target')
    (halike : a.Alike host vocabulary b) (hlawful : resolver.Lawful) (hlawful' : resolver'.Lawful)
    {cache cache' : InlineCache κ} (hcache : resolver.Faithful a cache)
    (hcache' : resolver'.Faithful b cache') (hknown : resolver.Known a input)
    (hknown' : resolver'.Known b input') (arguments : List Value) :
    Called host vocabulary a b resolver resolver'
      (resolver.call host arguments cache input a.world)
      (resolver'.call host arguments cache' input' b.world) where
  first := .call halike.first h.first arguments cache
  second := .call halike.second h.second arguments cache'
  result := .of_eq (h.call_eq halike hlawful hlawful' hcache hcache' hknown hknown' arguments)
    fun _ _ => rfl
  cache := (hcache.call host arguments hlawful halike.first.sound hknown).2
  cache' := (hcache'.call host arguments hlawful' halike.second.sound hknown').2

end Calls

end Scene

end Specialization

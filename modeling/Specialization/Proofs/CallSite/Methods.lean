import Specialization.Proofs.CallSite.Agreement
import Specialization.Proofs.CallSite.Target

/-!
Methods of receivers. A call looks its method up by name, from the class of the receiver upward; it
then climbs to the class that declares the method, and may climb once more to the class of an
anchor. The lookup alone decides whether the method is known, and the climbs lead only to classes
that lie above, so all that can refuse them is their length. For an implementation that belongs to
the declaring class the second climb is not made.
-/

namespace Specialization

namespace Target

theorem failsOnly_fit {Expected : Error → Prop}
    (hstep : ∀ error : Error, error.isOfStep → Expected error)
    (hparameters : ∀ level, Expected (.missingCarrierParameters level)) (constant : String)
    (adaptation : Adaptation) (found : Value × Option Carrier) :
    FailsOnly Expected (fit constant adaptation found) := by
  apply FailsOnly.bind
  · unfold expectFunction
    split
    · exact .ok _
    · exact .error (hstep _ rfl)
  · intro function
    unfold adapt
    split
    · exact .ok _
    · split
      · exact .ok _
      · exact .error (hparameters _)
    · exact .ok _

/-- A call of a target looks no method up. -/
theorem invoke_ne_unknownMethod (host : Host) (target : Target) (arguments : List Value)
    (descriptor : Descriptor) (name : String) :
    target.invoke host arguments ≠ .error (.unknownMethod descriptor name) := by
  intro h
  rcases bind_eq_error.mp h with hchecks | ⟨_, _, hcall⟩
  · obtain ⟨_, ⟨slot, restriction⟩, _, _, _, hcheck⟩ := forM_eq_error.mp hchecks
    have hrefuses : Refuses arguments slot restriction (.unknownMethod descriptor name) :=
      checkSlot_eq_error hcheck
    cases hrefuses
  · obtain ⟨_, _, hcause⟩ := mapError_eq_error.mp hcall
    cases hcause

end Target

/-- Whether an error arises once the method of a call is found. -/
def Error.isOfCall : Error → Bool
  | .supertypeDepthExceeded _ _ => true
  | .missingCarrierParameters _ => true
  | error => error.isOfStep

theorem Error.isOfCall_of_isOfStep {error : Error} (h : error.isOfStep) : error.isOfCall := by
  cases error with
  | supertypeDepthExceeded | missingCarrierParameters => rfl
  | _ => exact h

variable (host : Host)

/-- What a call on a receiver does once its method is found. -/
def ReceiverCallSite.take (site : ReceiverCallSite) (receiver : Instance) (declaring : Class)
    (method : Method) : Operation Target := do
  let functions ← Operation.functions
  let above ← declaringCarrier host receiver declaring
  let found ← readDeclared host functions declaring method.implementation above
  liftExcept (Target.fit method.implementation site.adaptation found)

theorem ReceiverCallSite.resolve_eq_throw (site : ReceiverCallSite) {receiver : Instance}
    (hnone : receiver.owner.findMethod? site.method = none) :
    site.resolve host receiver = throw (.unknownMethod receiver.owner.descriptor site.method) := by
  simp only [resolve, hnone]

namespace Scene

/-- The receivers that a program makes: plain instances of its classes, and instances for its
class-level carriers. -/
inductive Receives (scene : Scene) : Instance → Prop
  | plain {self : Class} (hself : self ∈ scene.classes) : Receives scene (.plain self)
  | ofCarrier {carrier : Carrier} (hcarrier : scene.Knows carrier)
      (hlevel : carrier.isClassLevel) : Receives scene (.ofCarrier carrier)

variable {host} {scene : Scene} {receiver : Instance} {declaring : Class}

theorem Receives.knows (h : scene.Receives receiver) (hsound : scene.Sound) :
    scene.KnowsInstance receiver := by
  cases h with
  | plain hself => exact KnowsInstance.plain hself
  | ofCarrier hcarrier _ => exact KnowsInstance.ofCarrier hsound hcarrier

section Declaring

variable (h : scene.Reachable host) (hreceiver : scene.Receives receiver)

include h hreceiver

/-- The carrier of the declaring class belongs to it. -/
theorem Reachable.location_of_declaringCarrier (hdeclaring : declaring ∈ receiver.owner.lineage)
    {own : Carrier} (hown : scene.result
      (ReceiverCallSite.declaringCarrier host receiver declaring) = .ok (some own)) :
    own.location = .ofClass declaring := by
  cases hreceiver with
  | plain hself =>
      have hmem := h.sound.lineage _ hself _ hdeclaring
      exact (isSeen_of_resolveDefault h.sound hmem hown).location own rfl
  | @ofCarrier carrier hcarrier hlevel =>
      rw [h.sound.owner_ofCarrier hcarrier] at hdeclaring
      by_cases hsame : declaring = carrier.owner
      · rw [result, h.sound.exec_declaringCarrier_own host hcarrier hsame] at hown
        cases hown
        rw [hsame]
        exact Carrier.isClassLevel_iff.mp hlevel
      · rw [result, h.exec_declaringCarrier hcarrier hdeclaring hsame] at hown
        obtain ⟨way, hway⟩ := Class.climbs_of_mem hdeclaring
        exact h.recalling.location_of_supertypeCarrier _ hcarrier hlevel hway hown

theorem Reachable.failsOnly_declaringCarrier {way : List Class}
    (hway : receiver.owner.Climbs way declaring) {Expected : Error → Prop}
    (hstep : ∀ error : Error, error.isOfStep → Expected error)
    (hdepth : scene.world.store.config.maxSupertypeDepth < way.length →
      ∀ descriptor limit, Expected (.supertypeDepthExceeded descriptor limit)) :
    FailsOnly Expected
      (scene.result (ReceiverCallSite.declaringCarrier host receiver declaring)) := by
  cases hreceiver with
  | plain hself => exact (throws_resolveDefault declaring scene.world).mono hstep
  | @ofCarrier carrier hcarrier hlevel =>
      rw [h.sound.owner_ofCarrier hcarrier] at hway
      by_cases hsame : declaring = carrier.owner
      · rw [result, h.sound.exec_declaringCarrier_own host hcarrier hsame]
        exact .ok _
      · rw [result, h.exec_declaringCarrier hcarrier hway.mem_lineage hsame]
        exact failsOnly_supertypeCarrier host h.sound _ hcarrier hlevel hway hstep hdepth

end Declaring

/-- A read under the carrier of the declaring class climbs only for an anchor of another class. -/
theorem failsOnly_readDeclared (h : scene.Sound) {above : Option Carrier}
    (habove : ∀ own, above = some own → scene.Knows own ∧ own.location = .ofClass declaring)
    {constant : String} {Expected : Error → Prop}
    (hstep : ∀ error : Error, error.isOfStep → Expected error)
    (hdepth : (∃ expected, declaring.carrierClass? constant = some expected ∧
      declaring.descriptor ≠ expected) →
        ∀ descriptor limit, Expected (.supertypeDepthExceeded descriptor limit))
    (functions : Registry) :
    FailsOnly Expected (scene.result (readDeclared host functions declaring constant above)) := by
  cases above with
  | none =>
      apply failsOnly_bind
      · exact (Class.throws_evaluate host functions declaring constant .unbound scene.world).mono
          fun error herror => hstep error herror.isOfStep
      · exact fun value _ => .ok _
  | some own =>
      obtain ⟨hown, hlocation⟩ := habove own rfl
      obtain ⟨_, hsame⟩ := Carrier.at_class hlocation
      apply failsOnly_bind
      · apply failsOnly_bind
        · apply failsOnly_scopedCarrier h hown hstep
          rw [hsame]
          exact hdepth
        · intro carrier _
          apply failsOnly_bind
          · exact (Class.throws_accessorValue host functions declaring constant carrier _).mono
              hstep
          · exact fun value _ => .ok _
      · exact fun found _ => .ok _

/-- Resolving the target of a call fails as its steps do, or for want of parameters to insert, or
because a climb is too long: the one to the declaring class, or one to an anchor of another. -/
theorem Reachable.failsOnly_take (h : scene.Reachable host) (hreceiver : scene.Receives receiver)
    (site : ReceiverCallSite) {method : Method} {below : List Class}
    (htakes : receiver.owner.Takes site.method below declaring method) {Expected : Error → Prop}
    (hstep : ∀ error : Error, error.isOfStep → Expected error)
    (hparameters : ∀ level, Expected (.missingCarrierParameters level))
    (hdepth : (scene.world.store.config.maxSupertypeDepth < below.length ∨
      ∃ expected, declaring.carrierClass? method.implementation = some expected ∧
        declaring.descriptor ≠ expected) →
          ∀ descriptor limit, Expected (.supertypeDepthExceeded descriptor limit)) :
    FailsOnly Expected (scene.result (site.take host receiver declaring method)) := by
  obtain ⟨way, hway, hlength⟩ := htakes.climbs
  have hknows := hreceiver.knows h.sound
  have hdeclaring := h.sound.mem_of_climbs hknows.owner hway
  apply failsOnly_bind
  · exact .ok _
  · rintro functions ⟨⟩
    apply failsOnly_bind
    · exact h.failsOnly_declaringCarrier hreceiver hway hstep
        fun hfar => hdepth (.inl (hlength ▸ hfar))
    · intro above habove
      have hsettled := settled_declaringCarrier host h.sound hknows.carrier hdeclaring
      apply failsOnly_bind
      · apply failsOnly_readDeclared (hsettled.grows.sound h.sound) ?_ hstep
          fun hother => hdepth (.inr hother)
        rintro own rfl
        exact ⟨hsettled.holds habove own rfl,
          h.location_of_declaringCarrier hreceiver hway.mem_lineage habove⟩
      · intro found _
        rw [result_liftExcept]
        exact Target.failsOnly_fit hstep hparameters _ _ _

/-- No climb is too long where the declaring class is near and the implementation belongs to it. -/
theorem Reachable.take_ne_supertypeDepthExceeded (h : scene.Reachable host)
    (hreceiver : scene.Receives receiver) (site : ReceiverCallSite) {method : Method}
    {below : List Class} (htakes : receiver.owner.Takes site.method below declaring method)
    (hnear : below.length ≤ scene.world.store.config.maxSupertypeDepth)
    (hlocal : declaring.analysis.root? method.implementation = some .constant ∨
      declaring.RootedLocally method.implementation) (descriptor : Descriptor) (limit : Nat) :
    scene.result (site.take host receiver declaring method) ≠
      .error (.supertypeDepthExceeded descriptor limit) := by
  have hfails : FailsOnly (fun error => ∀ descriptor limit,
      error ≠ .supertypeDepthExceeded descriptor limit)
      (scene.result (site.take host receiver declaring method)) := by
    refine h.failsOnly_take hreceiver site htakes ?step (fun _ => nofun) ?depth
    case step =>
      rintro _ hstep _ _ rfl
      cases hstep
    case depth =>
      rintro (hfar | ⟨expected, hexpected, hother⟩)
      · exact absurd hnear (Nat.not_le.mpr hfar)
      · exact absurd (declaring.descriptor_of_local hlocal hexpected) hother
  exact fun herror => hfails _ herror descriptor limit rfl

/-- A resolution that fails does so for want of the method, or once the method is found. -/
theorem Reachable.resolve_eq_error (h : scene.Reachable host) (hreceiver : scene.Receives receiver)
    (site : ReceiverCallSite) {error : Error}
    (herror : scene.result (site.resolve host receiver) = .error error) :
    (∀ declaring ∈ receiver.owner.lineage, ¬ declaring.Declares site.method) ∧
        error = .unknownMethod receiver.owner.descriptor site.method ∨
      (∃ declaring ∈ receiver.owner.lineage, declaring.Declares site.method) ∧ error.isOfCall := by
  cases hfound : receiver.owner.findMethod? site.method with
  | none =>
      rw [ReceiverCallSite.resolve_eq_throw host site hfound] at herror
      cases herror
      exact .inl ⟨Class.findMethod?_eq_none.mp hfound, rfl⟩
  | some found =>
      obtain ⟨declaring, method⟩ := found
      obtain ⟨below, htakes⟩ := Class.findMethod?_eq_some.mp hfound
      rw [ReceiverCallSite.resolve_eq host site hfound] at herror
      refine .inr ⟨?_, h.failsOnly_take hreceiver site htakes
        (fun _ => Error.isOfCall_of_isOfStep) (fun _ => rfl) (fun _ _ _ => rfl) error herror⟩
      by_contra hnone
      have hunknown : receiver.owner.findMethod? site.method = none :=
        Class.findMethod?_eq_none.mpr fun other hother hdeclares =>
          hnone ⟨other, hother, hdeclares⟩
      exact nomatch hfound.symm.trans hunknown

/-- A call on a receiver, through a site without a target, knows its method exactly if a class of
the chain declares the name, and takes the first method of that name in the nearest such class. It
never climbs to a class that lies elsewhere, and never looks for an ambient carrier. No climb is too
long as long as the declaring class is within the limit and the implementation is fixed at link time
or rooted in the declaring class. -/
theorem receiver_laws (h : scene.Reachable host) (hreceiver : scene.Receives receiver)
    (site : ReceiverCallSite) (hunlinked : site.cache.isLinked = false) :
    let self := receiver.owner
    let limit := scene.world.store.config.maxSupertypeDepth
    let resolved := scene.result (site.resolve host receiver)
    let invoked (arguments : List Value) :=
      ((site.invoke host receiver arguments).run scene.world).1.1
    (∀ arguments descriptor name, invoked arguments = .error (.unknownMethod descriptor name) ↔
      (∀ declaring ∈ self.lineage, ¬ declaring.Declares site.method) ∧
        descriptor = self.descriptor ∧ name = site.method) ∧
    ((∃ declaring ∈ self.lineage, declaring.Declares site.method) →
      ∃ below declaring method, self.Takes site.method below declaring method ∧
        site.resolve host receiver = site.take host receiver declaring method ∧
        (below.length ≤ limit →
          (declaring.analysis.root? method.implementation = some .constant ∨
            declaring.RootedLocally method.implementation) →
          ∀ descriptor bound, resolved ≠ .error (.supertypeDepthExceeded descriptor bound))) ∧
    (∀ descriptor ancestor, resolved ≠ .error (.notASupertype descriptor ancestor)) ∧
    ∀ constant, resolved ≠ .error (.noAmbientCarrier constant) := by
  intro self limit resolved invoked
  have hinvoked : ∀ arguments, invoked arguments = resolved.bind fun target =>
      target.invoke host arguments :=
    fun arguments => InlineCache.result_unlinked host hunlinked _ arguments _ scene
  have hfails : ∀ error, resolved = .error error → _ := fun _ => h.resolve_eq_error hreceiver site
  refine ⟨?unknown, ?taken, ?climbs, ?ambient⟩
  case unknown =>
    intro arguments descriptor name
    rw [hinvoked]
    constructor
    · intro herror
      rcases bind_eq_error.mp herror with hresolved | ⟨target, _, hcall⟩
      · rcases hfails _ hresolved with ⟨hnone, heq⟩ | ⟨_, hcall⟩
        · cases heq
          exact ⟨hnone, rfl, rfl⟩
        · cases hcall
      · exact absurd hcall (Target.invoke_ne_unknownMethod host target arguments descriptor name)
    · rintro ⟨hnone, rfl, rfl⟩
      have hresolved : resolved = .error (.unknownMethod self.descriptor site.method) :=
        congrArg scene.result
          (ReceiverCallSite.resolve_eq_throw host site (Class.findMethod?_eq_none.mpr hnone))
      rw [hresolved]
      rfl
  case taken =>
    rintro ⟨declarer, hdeclarer, hdeclares⟩
    cases hfound : self.findMethod? site.method with
    | none => exact absurd hdeclares (Class.findMethod?_eq_none.mp hfound declarer hdeclarer)
    | some found =>
        obtain ⟨declaring, method⟩ := found
        obtain ⟨below, htakes⟩ := Class.findMethod?_eq_some.mp hfound
        have htake : site.resolve host receiver = site.take host receiver declaring method :=
          ReceiverCallSite.resolve_eq host site hfound
        refine ⟨below, declaring, method, htakes, htake, ?_⟩
        intro hnear hlocal descriptor bound herror
        exact h.take_ne_supertypeDepthExceeded hreceiver site htakes hnear hlocal descriptor bound
          (htake ▸ herror)
  case climbs =>
    intro descriptor ancestor herror
    rcases hfails _ herror with ⟨_, heq⟩ | ⟨_, hcall⟩
    · cases heq
    · cases hcall
  case ambient =>
    intro constant herror
    rcases hfails _ herror with ⟨_, heq⟩ | ⟨_, hcall⟩
    · cases heq
    · cases hcall

theorem receiver_laws_crate :
    ∃ (host : Host) (box : Class) (method : Method),
      let self := crateCarrier.owner
      let receiver := Instance.ofCarrier crateCarrier
      let inherited : ReceiverCallSite := { method := "pair" }
      let missing : ReceiverCallSite := { method := "weigh" }
      (∃ below, self.Takes "pair" below box method) ∧ box.RootedLocally method.implementation ∧
        (∀ descriptor bound, crateScene.result (inherited.resolve host receiver) ≠
          .error (.supertypeDepthExceeded descriptor bound)) ∧
        ((missing.invoke host receiver []).run crateScene.world).1.1 =
          .error (.unknownMethod "Crate" "weigh") := by
  let host : Host := fun _ _ => .error "absent"
  let self : Class := crateCarrier.owner
  let box : Class := self.superclass?.get rfl
  let method : Method := (box.method? "pair").get rfl
  have hreachable : crateScene.Reachable host := afterLoading_reachable _ _
  have hreceives : crateScene.Receives (.ofCarrier crateCarrier) :=
    .ofCarrier (Or.inl (List.head_mem _)) rfl
  have hlocal : box.RootedLocally method.implementation :=
    ⟨"T", none, "T", none, rfl, rfl, rfl⟩
  obtain ⟨hunknown, _⟩ := receiver_laws hreachable hreceives { method := "weigh" } rfl
  have hmissing := (hunknown [] "Crate" "weigh").mpr
    ⟨Class.findMethod?_eq_none.mp rfl, rfl, rfl⟩
  obtain ⟨_, htaken, _⟩ := receiver_laws hreachable hreceives { method := "pair" } rfl
  obtain ⟨below, declaring, taken, htakes, _, hshort⟩ :=
    htaken ⟨box, .tail _ (.head _), method, .tail _ (.head _), rfl⟩
  have hfound : self.findMethod? "pair" = some (declaring, taken) :=
    Class.findMethod?_eq_some.mpr ⟨below, htakes⟩
  cases hfound
  have hnear : below.length ≤ crateScene.world.store.config.maxSupertypeDepth := by
    obtain ⟨above, hlineage⟩ := htakes.lineage
    have hlength : 2 = (below ++ box :: above).length := congrArg List.length hlineage
    rw [List.length_append, List.length_cons] at hlength
    exact Nat.le_trans (by omega : below.length ≤ 1) (by decide)
  exact ⟨host, box, method, ⟨below, htakes⟩, hlocal, hshort hnear (.inr hlocal), hmissing⟩

end Scene

end Specialization

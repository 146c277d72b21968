import Specialization.Proofs.World.Run

/-!
The inline cache of a call site cannot be observed: whatever a program does between the calls, and
whichever of them fail, a call gives what a call site would give that was created just before it.
-/

namespace Specialization

/-- The scenes and the states of one call site in a run: it is created, and from then on the program
moves and calls it in any order. -/
inductive SiteRun (host : Host) {σ ι : Type}
    (call : σ → ι → List Value → StateM World (Except Error Value × σ))
    (Known : Scene → ι → Prop) (start : Scene) (created : σ) : Scene → σ → Prop
  | created : SiteRun host call Known start created start created
  | moved {scene next : Scene} {site : σ}
      (hrun : SiteRun host call Known start created scene site)
      (hmove : scene.Move host next) : SiteRun host call Known start created next site
  | called {scene : Scene} {site : σ} {input : ι}
      (hrun : SiteRun host call Known start created scene site) (hknown : Known scene input)
      (arguments : List Value) :
      SiteRun host call Known start created
        { scene with world := ((call site input arguments).run scene.world).2 }
        ((call site input arguments).run scene.world).1.2

section Caches

variable {host : Host} {σ ι κ : Type} [GuardKey κ]
  {call : σ → ι → List Value → StateM World (Except Error Value × σ)} {Known : Scene → ι → Prop}
  {start scene : Scene} {site : σ} {resolver : Resolver ι κ} (withCache : InlineCache κ → σ)

/-- In a run the site changes in its cache only, which stays faithful. -/
theorem SiteRun.faithful (hlawful : resolver.Lawful)
    (hcall : ∀ cache input arguments world, (call (withCache cache) input arguments).run world =
      let outcome := resolver.call host arguments cache input world
      ((outcome.1.1, withCache outcome.1.2), outcome.2))
    (hknown : ∀ scene input, start.Grows scene → Known scene input → resolver.Known scene input)
    (hstart : start.Sound) (hrun : SiteRun host call Known start (withCache {}) scene site) :
    ∃ cache, site = withCache cache ∧ resolver.Faithful scene cache ∧ start.Grows scene := by
  induction hrun with
  | created =>
      exact ⟨{}, rfl, resolver.faithful_empty start, Scene.Grows.refl start⟩
  | @moved scene next site _ hmove ih =>
      obtain ⟨cache, rfl, hfaithful, hgrows⟩ := ih
      have hnext : scene.Grows next := hmove.grows (hgrows.sound hstart)
      exact ⟨cache, rfl, hfaithful.grow hlawful hnext, hgrows.trans hnext⟩
  | @called scene site input _ hinput arguments ih =>
      obtain ⟨cache, rfl, hfaithful, hgrows⟩ := ih
      obtain ⟨hnext, hkept⟩ := hfaithful.call host arguments hlawful (hgrows.sound hstart)
        (hknown scene input hgrows hinput)
      rw [hcall]
      exact ⟨_, rfl, hkept, hgrows.trans hnext⟩

/-- A call in a run gives what the site would give with an empty cache. -/
theorem SiteRun.call_eq (hlawful : resolver.Lawful)
    (hcall : ∀ cache input arguments world, (call (withCache cache) input arguments).run world =
      let outcome := resolver.call host arguments cache input world
      ((outcome.1.1, withCache outcome.1.2), outcome.2))
    (hknown : ∀ scene input, start.Grows scene → Known scene input → resolver.Known scene input)
    (hstart : start.Sound) (hrun : SiteRun host call Known start (withCache {}) scene site)
    {input : ι} (hinput : Known scene input) (arguments : List Value) :
    ((call site input arguments).run scene.world).1.1 =
      ((call (withCache {}) input arguments).run scene.world).1.1 := by
  obtain ⟨cache, rfl, hfaithful, hgrows⟩ := hrun.faithful withCache hlawful hcall hknown hstart
  rw [hcall, hcall]
  exact hfaithful.call_eq host arguments hlawful (hgrows.sound hstart)
    (hknown scene input hgrows hinput)

end Caches

/-- In every run of a program, a call of a call site gives the result that the call site would give
had it just been created, for sites of a class and for sites on receivers. -/
theorem invoke_eq_created (host : Host) {start : Scene} (hstart : start.Reachable host) :
    (∀ (owner : Class) (constant : String) (adaptation : Adaptation)
        (restrictions : List (Nat × String)), owner ∈ start.classes →
      let created : SpecializedCallSite := { owner, constant, adaptation, restrictions }
      ∀ scene site, SiteRun host (SpecializedCallSite.invoke host) Scene.Knows start created scene
          site →
        ∀ carrier arguments, scene.Knows carrier →
          ((site.invoke host carrier arguments).run scene.world).1.1 =
            ((created.invoke host carrier arguments).run scene.world).1.1) ∧
    ∀ (method : String) (adaptation : Adaptation),
      let created : ReceiverCallSite := { method, adaptation }
      ∀ scene site, SiteRun host (ReceiverCallSite.invoke host) Scene.KnowsInstance start created
          scene site →
        ∀ receiver arguments, scene.KnowsInstance receiver →
          ((site.invoke host receiver arguments).run scene.world).1.1 =
            ((created.invoke host receiver arguments).run scene.world).1.1 := by
  constructor
  · intro owner constant adaptation restrictions howner created scene site hrun carrier arguments
      hcarrier
    let withCache (cache : InlineCache Carrier) : SpecializedCallSite :=
      { owner, constant, adaptation, restrictions, cache }
    apply SiteRun.call_eq withCache (created.resolver_lawful host) ?_ ?_
      hstart.sound hrun hcarrier arguments
    · intro cache input arguments world
      rfl
    · intro scene input hgrows hinput
      exact ⟨hgrows.classes owner howner, hinput⟩
  · intro method adaptation created scene site hrun receiver arguments hreceiver
    let withCache (cache : InlineCache ReceiverGuard) : ReceiverCallSite :=
      { method, adaptation, cache }
    apply SiteRun.call_eq withCache (created.resolver_lawful host) ?_ ?_
      hstart.sound hrun hreceiver arguments
    · intro cache input arguments world
      rfl
    · exact fun _ _ _ hinput => hinput

/-- A class of pairs, with a method that appends the slots in reverse order. -/
def swappingPair : ClassSpec where
  descriptor := "Pair"
  defaults := ["Object", "Object"]
  methods := [{ name := "append_swapped", implementation := "append_swapped" }]
  anchors := [{ name := "P", level := .ofClass }]
  constants := [
    { name := "P", action := "anchor" },
    { name := "left", action := "list_get", operands := [.ref "P", .int 0] },
    { name := "right", action := "list_get", operands := [.ref "P", .int 1] },
    { name := "swapped", action := "list", operands := [.ref "right", .ref "left"] },
    { name := "append_swapped", action := "function",
      operands := [.function "list.concat", .ref "swapped"] }]

/-- The class of pairs is loaded, and a carrier is made for an integer and a text. -/
def pairScene : Scene :=
  let loaded := (Scene.start { synthesizeBackingTypes := false } .standard).defineClass swappingPair
  match loaded.classes with
  | owner :: _ =>
    loaded.after (resolve (.ofClass owner) (some (.list [.type "Integer", .type "String"])))
  | [] => loaded

/-- The carrier that was made. -/
def pairCarrier : Carrier :=
  pairScene.world.store.carriers.head (List.cons_ne_nil _ _)

theorem pairScene_reachable (host : Host) : pairScene.Reachable host := by
  refine ⟨{ synthesizeBackingTypes := false }, .standard, ?_⟩
  refine (Relation.ReflTransGen.refl.tail (Scene.Move.define swappingPair)).tail ?_
  exact Scene.Move.resolve List.mem_cons_self _

/-- Both sites have called the method for a pair, one after the other, and are still linked to
it. -/
theorem invoke_swappingPair :
    ∃ (host : Host) (scene : Scene) (carrier : Carrier) (site : SpecializedCallSite)
      (receiverSite : ReceiverCallSite),
      let created : SpecializedCallSite := { owner := carrier.owner, constant := "append_swapped" }
      let receiverCreated : ReceiverCallSite := { method := "append_swapped" }
      let arguments := [.list [.type "Double"]]
      let swapped := .list [.type "Double", .type "String", .type "Integer"]
      site.cache.isLinked ∧ receiverSite.cache.isLinked ∧
        ((created.invoke host carrier arguments).run scene.world).1.1 = .ok swapped ∧
        ((receiverCreated.invoke host (.ofCarrier carrier) arguments).run scene.world).1.1 =
          .ok swapped := by
  let host : Host := fun _ _ => .error "absent"
  let created : SpecializedCallSite := { owner := pairCarrier.owner, constant := "append_swapped" }
  let receiverCreated : ReceiverCallSite := { method := "append_swapped" }
  let first := (created.invoke host pairCarrier [.list []]).run pairScene.world
  let middle : Scene := { pairScene with world := first.2 }
  let second := (receiverCreated.invoke host (.ofCarrier pairCarrier) [.list []]).run middle.world
  let last : Scene := { middle with world := second.2 }
  have hstart : pairScene.Reachable host := pairScene_reachable host
  have hknown : pairScene.Knows pairCarrier := Or.inl (List.head_mem _)
  have howner : pairCarrier.owner ∈ pairScene.classes := hstart.sound.owner pairCarrier hknown
  have hreceiver : pairScene.KnowsInstance (.ofCarrier pairCarrier) :=
    .ofCarrier hstart.sound hknown
  have hfirst : pairScene.Move host middle := .specialized created howner hknown _
  have hmiddle : pairScene.Grows middle := hfirst.grows hstart.sound
  have hsecond : middle.Move host last := .receiver receiverCreated (hreceiver.grow hmiddle) _
  have hlast : pairScene.Grows last :=
    hmiddle.trans (hsecond.grows (hmiddle.sound hstart.sound))
  have hrun : SiteRun host (SpecializedCallSite.invoke host) Scene.Knows pairScene created last
      first.1.2 := (SiteRun.created.called hknown _).moved hsecond
  have hreceiverRun : SiteRun host (ReceiverCallSite.invoke host) Scene.KnowsInstance pairScene
      receiverCreated last second.1.2 :=
    (SiteRun.created.moved hfirst).called (hreceiver.grow hmiddle) _
  obtain ⟨hcall, hreceiverCall⟩ := invoke_eq_created host hstart
  refine ⟨host, last, pairCarrier, first.1.2, second.1.2, rfl, rfl, ?_, ?_⟩
  · exact (hcall pairCarrier.owner "append_swapped" .none [] howner last first.1.2 hrun pairCarrier
      _ (hknown.grow hlast)).symm.trans rfl
  · exact (hreceiverCall "append_swapped" .none last second.1.2 hreceiverRun
      (.ofCarrier pairCarrier) _ (hreceiver.grow hlast)).symm.trans rfl

end Specialization

import Specialization.CallSite.InlineCache
import Specialization.Proofs.World.Settled

/-!
Inline caches of targets that settle. A cache is faithful if its target is the one that its guard
resolves to from now on. A faithful cache cannot be told from an empty one by what calls give, and
calls keep it faithful, failed ones included.
-/

namespace Specialization

namespace InlineCache

variable {κ : Type} [GuardKey κ] (host : Host)

/-- What linking does, by cases on the guard and on the resolution. -/
theorem run_link {σ : Type} (cache : InlineCache κ) (key : κ)
    (resolve : ExceptT Error (StateM σ) Target) (state : σ) :
    (cache.link key resolve).run state =
      match cache.find? key with
      | some link => ((.ok link, cache), state)
      | none =>
        match exec resolve state with
        | (.ok target, next) => ((.ok ⟨key, target⟩, cache.install ⟨key, target⟩), next)
        | (.error error, next) => ((.error error, cache), next) := by
  cases hfound : cache.find? key with
  | some known =>
      simp only [link, hfound]
      rfl
  | none =>
      rcases hrun : exec resolve state with ⟨error | target, next⟩
      · have hresolve : resolve.run.run state = (.error error, next) := hrun
        simp only [link, hfound, StateT.run_bind, hresolve]
        rfl
      · have hresolve : resolve.run.run state = (.ok target, next) := hrun
        simp only [link, hfound, StateT.run_bind, hresolve]
        rfl

/-- A call links first, and what the target gives does not change the cache. -/
theorem run_invoke_eq {σ : Type} (cache : InlineCache κ) (key : κ) (arguments : List Value)
    (resolve : ExceptT Error (StateM σ) Target) (state : σ) :
    (cache.invoke host key arguments resolve).run state =
      let ((linked, next), after) := (cache.link key resolve).run state
      ((linked.bind fun link => link.target.invoke host arguments, next), after) := by
  simp only [invoke, StateT.run_bind]
  rfl

/-- What a call does, by cases on the guard and on the resolution. -/
theorem run_invoke (cache : InlineCache κ) (key : κ) (arguments : List Value)
    (resolve : Operation Target) (world : World) :
    (cache.invoke host key arguments resolve).run world =
      match cache.find? key with
      | some link => ((link.target.invoke host arguments, cache), world)
      | none =>
        match exec resolve world with
        | (.ok target, next) =>
          ((target.invoke host arguments, cache.install ⟨key, target⟩), next)
        | (.error error, next) => ((.error error, cache), next) := by
  rw [run_invoke_eq, run_link]
  cases cache.find? key with
  | some known => rfl
  | none =>
      rcases exec resolve world with ⟨error | target, next⟩
      · rfl
      · rfl

/-- A call through a cache without a target resolves one and calls it. -/
theorem result_unlinked {cache : InlineCache κ} (h : cache.isLinked = false) (key : κ)
    (arguments : List Value) (resolve : Operation Target) (scene : Scene) :
    ((cache.invoke host key arguments resolve).run scene.world).1.1 =
      (scene.result resolve).bind fun target => target.invoke host arguments := by
  have hnone : cache.find? key = none := by
    rw [find?, Option.not_isSome_iff_eq_none.mp (Bool.eq_false_iff.mp h)]
    rfl
  rw [run_invoke, hnone, Scene.result]
  rcases exec resolve scene.world with ⟨error | target, next⟩
  · rfl
  · rfl

theorem result_fresh (key : κ) (arguments : List Value) (resolve : Operation Target)
    (scene : Scene) :
    ((invoke host ({} : InlineCache κ) key arguments resolve).run scene.world).1.1 =
      (scene.result resolve).bind fun target => target.invoke host arguments :=
  result_unlinked host rfl key arguments resolve scene

end InlineCache

/-- How a call site resolves its targets: from inputs, of which guards keep a part. -/
structure Resolver (ι κ : Type) where
  guard : ι → κ
  resolve : ι → Operation Target
  /-- The inputs that can be given in a scene. -/
  Known : Scene → ι → Prop

namespace Resolver

variable {ι κ : Type}

/-- A cache whose target is the one that its guard resolves to, from a scene on. -/
def Faithful (resolver : Resolver ι κ) (scene : Scene) (cache : InlineCache κ) : Prop :=
  ∀ link, cache.current = some link → ∃ input, resolver.Known scene input ∧
    resolver.guard input = link.guard ∧
      ∀ later, scene.Grows later → later.result (resolver.resolve input) = .ok link.target

theorem faithful_empty (resolver : Resolver ι κ) (scene : Scene) : resolver.Faithful scene {} :=
  fun _ h => nomatch h

variable [GuardKey κ]

/-- Targets settle, and inputs that a guard cannot tell apart resolve in the same way. -/
structure Lawful (resolver : Resolver ι κ) : Prop where
  grow : ∀ {before after : Scene} {input : ι}, resolver.Known before input →
    before.Grows after → resolver.Known after input
  settled : ∀ {scene : Scene} {input : ι}, scene.Sound → resolver.Known scene input →
    scene.Settled (resolver.resolve input) fun _ _ => True
  admits : ∀ {scene : Scene} {a b : ι}, scene.Sound → resolver.Known scene a →
    resolver.Known scene b → GuardKey.admits (resolver.guard a) (resolver.guard b) →
      resolver.resolve a = resolver.resolve b

variable {resolver : Resolver ι κ} {scene : Scene} {cache : InlineCache κ} {input : ι}

theorem Faithful.grow (h : resolver.Faithful scene cache) (hlawful : resolver.Lawful)
    {later : Scene} (hgrows : scene.Grows later) : resolver.Faithful later cache := by
  intro link hlink
  obtain ⟨input, hknown, hguard, hresolves⟩ := h link hlink
  exact ⟨input, hlawful.grow hknown hgrows, hguard,
    fun last hlast => hresolves last (hgrows.trans hlast)⟩

/-- What a faithful cache finds for an input is what the input resolves to. -/
theorem Faithful.find? (h : resolver.Faithful scene cache) (hlawful : resolver.Lawful)
    (hsound : scene.Sound) (hknown : resolver.Known scene input) {link : Link κ}
    (hfound : cache.find? (resolver.guard input) = some link) :
    scene.result (resolver.resolve input) = .ok link.target := by
  rw [InlineCache.find?, Option.filter_eq_some_iff] at hfound
  obtain ⟨hcurrent, hadmits⟩ := hfound
  obtain ⟨first, hfirst, hguard, hresolves⟩ := h link hcurrent
  rw [← hguard] at hadmits
  rw [← hlawful.admits hsound hfirst hknown hadmits]
  exact hresolves scene (Scene.Grows.refl scene)

variable (host : Host) (arguments : List Value)

/-- A call through a cache, with the world that it leaves. -/
def call (resolver : Resolver ι κ) (cache : InlineCache κ) (input : ι) (world : World) :
    (Except Error Value × InlineCache κ) × World :=
  (cache.invoke host (resolver.guard input) arguments (resolver.resolve input)).run world

/-- A faithful cache gives what an empty one gives. -/
theorem Faithful.call_eq (h : resolver.Faithful scene cache) (hlawful : resolver.Lawful)
    (hsound : scene.Sound) (hknown : resolver.Known scene input) :
    (resolver.call host arguments cache input scene.world).1.1 =
      (resolver.call host arguments {} input scene.world).1.1 := by
  have hempty : InlineCache.find? ({} : InlineCache κ) (resolver.guard input) = none := rfl
  simp only [call, InlineCache.run_invoke, hempty]
  cases hfound : cache.find? (resolver.guard input) with
  | none =>
      rcases exec (resolver.resolve input) scene.world with ⟨error | target, next⟩
      · rfl
      · rfl
  | some link =>
      have hresolves := h.find? hlawful hsound hknown hfound
      rcases hrun : exec (resolver.resolve input) scene.world with ⟨found, next⟩
      rw [Scene.result, hrun] at hresolves
      dsimp only at hresolves
      rw [hresolves]

/-- A call lets the scene grow, and leaves the cache faithful. -/
theorem Faithful.call (h : resolver.Faithful scene cache) (hlawful : resolver.Lawful)
    (hsound : scene.Sound) (hknown : resolver.Known scene input) :
    let outcome := resolver.call host arguments cache input scene.world
    scene.Grows { scene with world := outcome.2 } ∧
      resolver.Faithful { scene with world := outcome.2 } outcome.1.2 := by
  have hsettled := hlawful.settled hsound hknown
  have hgrows := hsettled.grows
  simp only [Resolver.call, InlineCache.run_invoke]
  cases hfound : cache.find? (resolver.guard input) with
  | some link => exact ⟨Scene.Grows.refl scene, h⟩
  | none =>
      rcases hrun : exec (resolver.resolve input) scene.world with ⟨error | target, next⟩
      · rw [Scene.after, hrun] at hgrows
        exact ⟨hgrows, h.grow hlawful hgrows⟩
      · have hresult : scene.result (resolver.resolve input) = .ok target := by
          rw [Scene.result, hrun]
        have hagain : ∀ later, (scene.after (resolver.resolve input)).Grows later →
            later.result (resolver.resolve input) = .ok target :=
          fun _ => hsettled.again hresult
        rw [Scene.after, hrun] at hgrows hagain
        refine ⟨hgrows, ?_⟩
        rintro link ⟨⟩
        exact ⟨input, hlawful.grow hknown hgrows, rfl, hagain⟩

end Resolver

end Specialization

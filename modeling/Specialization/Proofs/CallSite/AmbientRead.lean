import Specialization.Proofs.CallSite.Unobservable
import Specialization.Proofs.World.Accessors
import Specialization.Proofs.World.CarrierClass
import Specialization.Proofs.World.Disguise

/-!
Two ways to a constant under a carrier. A program can make the carrier ambient, mark the constant
and read it, and a call site reads it under the carrier that it is called with. The first way asks
whether the constant is declared and whether it varies with an anchor before it looks for a carrier;
the second one looks for a carrier at once. Both find the same value or the same error.
-/

namespace Specialization

variable (host : Host)

/-- What is ambient matters to none of the operations that are given a carrier. -/
def Disguise.under (ambient : Ambient) : Disguise where
  world before := { before with ambient }
  carrier := id
  number _ := rfl
  location _ := rfl
  scope _ := rfl
  loader _ := rfl
  nextClass _ := rfl
  values _ := rfl
  limit _ := rfl
  found _ _ _ := by rw [Option.map_id, id]
  above _ _ := by rw [Option.map_id, id]
  loads _ _ := rfl
  publishes _ _ := rfl
  keeps _ _ := rfl
  hits _ := rfl
  misses _ := rfl
  adds _ _ _ := rfl
  remembers _ _ _ := rfl

/-- The value of a constant under a carrier, as a call site reads it. -/
def readUnder (functions : Registry) (self : Class) (constant : String) (carrier : Carrier) :
    Operation Value := do
  self.accessorValue host functions constant (← scopedCarrier host self constant carrier)

/-- The same value, with the carrier that the given one is scoped to. -/
def readScoped (functions : Registry) (self : Class) (constant : String) (carrier : Carrier) :
    Operation (Value × Carrier) := do
  let own ← scopedCarrier host self constant carrier
  return (← self.accessorValue host functions constant own, own)

theorem Scene.result_readUnder_scoped (scene : Scene) (functions : Registry) (self : Class)
    (constant : String) (carrier : Carrier) :
    (scene.result (readScoped host functions self constant carrier)).map Prod.fst =
      scene.result (readUnder host functions self constant carrier) := by
  have hunder : readUnder host functions self constant carrier =
      readScoped host functions self constant carrier >>= fun found => pure found.1 := by
    simp only [readUnder, readScoped, bind_assoc, pure_bind, bind_pure]
  rw [hunder, result_bind_pure]

/-- The value of a constant under a carrier, as it is read while the carrier is ambient. -/
def readAmbient (functions : Registry) (self : Class) (constant : String) (carrier : Carrier) :
    Operation Value :=
  if self.analysis.contains constant then
    if self.analysis.needsAccessor constant then readUnder host functions self constant carrier
    else self.evaluate host functions constant .unbound
  else throw (.constants (.unresolvedReference self.descriptor constant))

theorem Disguise.mirrors_readUnder {disguise : Disguise} (functions : Registry) (self : Class)
    (constant : String) (carrier : Carrier) :
    disguise.Mirrors id (readUnder host functions self constant carrier)
      (readUnder host functions self constant (disguise.carrier carrier)) :=
  (mirrors_scopedCarrier host self constant carrier).bind fun own =>
    mirrors_accessorValue host functions self constant own

theorem Disguise.mirrors_readAmbient {disguise : Disguise} (functions : Registry) (self : Class)
    (constant : String) (carrier : Carrier) :
    disguise.Mirrors id (readAmbient host functions self constant carrier)
      (readAmbient host functions self constant (disguise.carrier carrier)) := by
  unfold readAmbient
  split
  · split
    · exact mirrors_readUnder host functions self constant carrier
    · exact mirrors_evaluate host functions self constant .unbound
  · exact Mirrors.throw _

/-- The value of a constant of the class of a descriptor, read while a carrier is ambient or while
none is. -/
def readIn (descriptor : Descriptor) (constant : String) (current : Option Carrier) :
    Operation Value := do
  let self ← findClass descriptor
  let functions ← Operation.functions
  if self.analysis.contains constant then
    if self.analysis.needsAccessor constant then
      match current with
      | none => throw (.noAmbientCarrier constant)
      | some carrier => readUnder host functions self constant carrier
    else self.evaluate host functions constant .unbound
  else throw (.constants (.unresolvedReference self.descriptor constant))

theorem Disguise.mirrors_readIn {disguise : Disguise} (descriptor : Descriptor) (constant : String)
    (current : Option Carrier) :
    disguise.Mirrors id (readIn host descriptor constant current)
      (readIn host descriptor constant (current.map disguise.carrier)) := by
  apply (mirrors_findClass descriptor).bind
  intro self
  apply mirrors_functions.bind
  intro functions
  dsimp only [id]
  split
  · split
    · cases current with
      | none => exact Mirrors.throw _
      | some carrier => exact mirrors_readUnder host functions self constant carrier
    · exact mirrors_evaluate host functions self constant .unbound
  · exact Mirrors.throw _

/-- The world in which the mark is taken. -/
def World.unmarked (world : World) : World :=
  { world with ambient := { world.ambient with inFlight := none } }

theorem exec_takeInFlight {world : World} {marked : Descriptor × String}
    (h : world.ambient.inFlight = some marked) :
    exec takeInFlight world = (.ok marked, world.unmarked) := by
  unfold takeInFlight
  rw [exec_bind_ok (exec_get world), h]
  rfl

theorem exec_takeInFlight_of_none {world : World} (h : world.ambient.inFlight = none) :
    exec takeInFlight world = (.error .noConstantInFlight, world.unmarked) := by
  unfold takeInFlight
  rw [exec_bind_ok (exec_get world), h]
  rfl

theorem world_takeInFlight (world : World) : (exec takeInFlight world).2 = world.unmarked := by
  cases hmarked : world.ambient.inFlight with
  | none => rw [exec_takeInFlight_of_none hmarked]
  | some marked => rw [exec_takeInFlight hmarked]

/-- A read takes the mark, and then reads the constant under what is ambient. -/
theorem exec_resolve_marked {world : World} {descriptor : Descriptor} {constant : String}
    (hmarked : world.ambient.inFlight = some (descriptor, constant)) :
    exec (resolveAmbientConstant host) world =
      exec (readIn host descriptor constant world.ambient.carrier) world.unmarked := by
  unfold resolveAmbientConstant readIn
  rw [exec_bind_ok (exec_takeInFlight hmarked)]
  dsimp only
  rcases hself : exec (findClass descriptor) world.unmarked with ⟨error | self, found⟩
  · rw [exec_bind_error hself, exec_bind_error hself]
  · obtain rfl : found = world.unmarked :=
      (congrArg Prod.snd hself).symm.trans (leaves_findClass descriptor world.unmarked)
    have hfunctions : exec Operation.functions world.unmarked =
        (.ok world.loader.functions, world.unmarked) := rfl
    have hcurrent : exec currentCarrier world.unmarked =
        (.ok world.ambient.carrier, world.unmarked) := rfl
    rw [exec_bind_ok hself, exec_bind_ok hself, exec_bind_ok hfunctions, exec_bind_ok hfunctions]
    by_cases hdeclared : self.analysis.contains constant
    · simp only [hdeclared, Bool.not_true, Bool.false_eq_true, if_false, if_true]
      split
      · rw [exec_bind_ok hcurrent]
        cases world.ambient.carrier <;> rfl
      · rfl
    · simp only [hdeclared]
      rfl

/-- A read of a marked constant takes the mark, and then goes the first way. -/
theorem exec_resolveAmbientConstant {world : World} {descriptor : Descriptor} {constant : String}
    {carrier : Carrier} {self : Class} (hcarrier : world.ambient.carrier = some carrier)
    (hmarked : world.ambient.inFlight = some (descriptor, constant))
    (hself : world.loader.classes.lookup descriptor = some self) :
    exec (resolveAmbientConstant host) world =
      exec (readAmbient host world.loader.functions self constant carrier) world.unmarked := by
  have hfind : exec (findClass descriptor) world.unmarked = (.ok self, world.unmarked) :=
    exec_findClass hself
  have hfunctions : exec Operation.functions world.unmarked =
      (.ok world.loader.functions, world.unmarked) := rfl
  rw [exec_resolve_marked host hmarked, hcarrier, readIn, exec_bind_ok hfind,
    exec_bind_ok hfunctions]
  rfl

namespace Scene

variable {scene : Scene}

/-- What was marked and read while a carrier is ambient is read as if nothing were ambient. -/
theorem result_marked {descriptor : Descriptor} {self : Class}
    (hself : scene.world.loader.classes.lookup descriptor = some self) (constant : String)
    (carrier : Carrier) :
    ((scene.after (enter carrier)).after (markInFlight descriptor constant)).result
        (resolveAmbientConstant host) =
      scene.result (readAmbient host scene.world.loader.functions self constant carrier) := by
  let disguise : Disguise := .under { carrier := some carrier }
  have hread := disguise.mirrors_readAmbient host scene.world.loader.functions self constant
    carrier scene.world
  let marked : World := { scene.world with ambient :=
    { carrier := some carrier, inFlight := some (descriptor, constant) } }
  have hmarked : exec (resolveAmbientConstant host) marked = _ :=
    exec_resolveAmbientConstant host rfl rfl hself
  refine (congrArg Prod.fst (hmarked.trans hread)).trans ?_
  rw [Except.map_id]
  rfl

/-- What a call site reads, with the carrier under which it was read. -/
theorem result_readScoped (hscene : scene.Recalling host) (site : SpecializedCallSite)
    (constant : String) {carrier : Carrier} (hcarrier : scene.Knows carrier) :
    scene.result (site.read host constant carrier) =
      scene.result (readScoped host scene.world.loader.functions site.owner constant carrier) := by
  let scoping := scopedCarrier host site.owner constant carrier
  have hacts : scene.Acts host scoping :=
    acts_scopedCarrier host hscene site.owner constant hcarrier
  obtain ⟨hgrows, _⟩ := grows_of_effects hacts hscene
  cases hscoped : scene.result scoping with
  | error error =>
      rw [SpecializedCallSite.read, result_bind_error hscoped, readScoped,
        result_bind_error hscoped]
  | ok own =>
      have hfunctions : (scene.after scoping).result Operation.functions =
          .ok scene.world.loader.functions := congrArg Except.ok hgrows.world.functions
      have hstill : (scene.after scoping).after Operation.functions = scene.after scoping := rfl
      rw [SpecializedCallSite.read, result_bind_ok hscoped, result_bind_ok hfunctions, hstill,
        readScoped, result_bind_ok hscoped]

/-- What a call site reads, without the carrier under which it was read. -/
theorem result_read (hscene : scene.Recalling host) (site : SpecializedCallSite)
    (constant : String) {carrier : Carrier} (hcarrier : scene.Knows carrier) :
    (scene.result (site.read host constant carrier)).map Prod.fst =
      scene.result (readUnder host scene.world.loader.functions site.owner constant carrier) := by
  rw [result_readScoped host hscene site constant hcarrier, result_readUnder_scoped]

/-- A call site that was just created gives what the function gives that it reads. -/
theorem invoke_created (hscene : scene.Recalling host) (self : Class) (constant : String)
    {carrier : Carrier} (hcarrier : scene.Knows carrier) (arguments : List Value) :
    let site : SpecializedCallSite := { owner := self, constant }
    ((site.invoke host carrier arguments).run scene.world).1.1 =
      (scene.result (readUnder host scene.world.loader.functions self constant carrier)).bind
        fun value => (Target.expectFunction constant value).bind fun function =>
          (function.invoke host arguments).mapError .constants := by
  intro site
  have hinvoke : ((site.invoke host carrier arguments).run scene.world).1.1 =
      (scene.result (site.resolve host carrier)).bind fun target =>
        target.invoke host arguments :=
    InlineCache.result_fresh host carrier arguments (site.resolve host carrier) scene
  have hresolve : site.resolve host carrier = site.read host constant carrier >>= fun found =>
      liftExcept ((Target.expectFunction constant found.1).map fun function => { function }) := by
    unfold SpecializedCallSite.resolve
    congr 1
    funext found
    cases hfunction : Target.expectFunction constant found.1 with
    | error error =>
        simp only [site, hfunction]
        rfl
    | ok function =>
        simp only [site, hfunction]
        rfl
  rw [hinvoke, hresolve, result_bind_lift, ← result_read host hscene site constant hcarrier]
  cases scene.result (site.read host constant carrier) with
  | error error => rfl
  | ok found =>
      simp only [Except.map, Except.bind]
      cases Target.expectFunction constant found.1 with
      | error error => rfl
      | ok function => rfl

/-- Where no class is looked for the given carrier serves, and nothing is checked of it. -/
theorem readUnder_of_carrierClass {functions : Registry} {self : Class} {constant : String}
    (h : self.carrierClass? constant = none) (carrier : Carrier) :
    readUnder host functions self constant carrier =
      self.keptValue host functions constant carrier := by
  simp only [readUnder, scopedCarrier, Class.accessorValue_eq, Class.checkCarrier, h, pure_bind]

theorem result_evaluate (functions : Registry) (self : Class) (constant : String)
    (scope : Scope) :
    scene.result (self.evaluate host functions constant scope) =
      (exec ((self.evaluator host functions scope).evaluate constant)
        { cache := some (scene.world.valuesOf self).link }).1.mapError .constants := by
  rcases hrun : exec ((self.evaluator host functions scope).evaluate constant)
    { cache := some (scene.world.valuesOf self).link } with ⟨found, pass⟩
  rw [result, Class.exec_evaluate host functions self constant scope scene.world hrun]

/-- What is kept under a carrier for the first time is what was evaluated. -/
theorem result_keptValue_of_none {functions : Registry} {self : Class} {constant : String}
    {carrier : Carrier}
    (h : (scene.world.valuesOf self).accessors.lookup (carrier.id, constant) = none) :
    scene.result (self.keptValue host functions constant carrier) =
      scene.result (self.evaluate host functions constant carrier.scope) := by
  rw [result, Class.exec_keptValue_of_none host functions h]
  cases hread : scene.result (self.evaluate host functions constant carrier.scope) with
  | error error => rw [exec_bind_error (Prod.ext hread rfl)]
  | ok value =>
      rw [exec_bind_ok (Prod.ext hread rfl)]
      rfl

/-- A call site and an ambient read agree on constants that are not declared, on those fixed at link
time, whether they were read under a carrier before or not, and on all others. -/
theorem result_readUnder {self : Class} (hanalyzed : self.Analyzed)
    (hkeeps : self.Keeps (scene.world.valuesOf self)) (functions : Registry) (constant : String)
    (carrier : Carrier) :
    scene.result (readUnder host functions self constant carrier) =
      scene.result (readAmbient host functions self constant carrier) := by
  have haccepted := hanalyzed.accepted
  have hkept : ∀ value, (scene.world.valuesOf self).accessors.lookup (carrier.id, constant) =
      some value → self.MayKeep (scene.world.valuesOf self).link constant value :=
    fun value hvalue => hkeeps _ (mem_of_lookup hvalue)
  unfold readAmbient
  by_cases hdeclared : self.analysis.contains constant
  · rw [if_pos hdeclared, haccepted.needsAccessor_eq]
    by_cases hroot : self.analysis.isAnchored constant
    · rw [if_pos hroot]
    · rw [if_neg hroot, readUnder_of_carrierClass host (Class.carrierClass?_eq_none.mpr hroot)]
      cases hlookup : (scene.world.valuesOf self).accessors.lookup (carrier.id, constant) with
      | some value =>
          have hshared : (exec ((self.evaluator host functions .unbound).evaluate constant)
              { cache := some (scene.world.valuesOf self).link }).1 = .ok value :=
            Evaluator.evaluate_shared haccepted hdeclared hroot ((hkept value hlookup).shared hroot)
          rw [result, Class.exec_keptValue_of_some host functions hlookup, result_evaluate, hshared]
          rfl
      | none =>
          let evaluator := self.evaluator host functions .unbound
          have hconstant : evaluator.analysis.root? constant = some .constant :=
            Evaluator.root?_of_not_isAnchored haccepted hdeclared hroot
          have hsame : evaluator.SameParameters carrier.scope constant :=
            Evaluator.sameParameters_of_unanchored
              (Evaluator.unanchored_of_root haccepted hconstant) carrier.scope
          have hunder := congrArg Prod.fst (Evaluator.evaluate_under haccepted hsame
            { cache := some (scene.world.valuesOf self).link })
          rw [result_keptValue_of_none host hlookup, result_evaluate, result_evaluate]
          exact congrArg (Except.mapError Error.constants) hunder
  · have hroot : ¬ self.analysis.isAnchored constant :=
      haccepted.not_isAnchored_iff.mpr (.inl hdeclared)
    rw [if_neg hdeclared, readUnder_of_carrierClass host (Class.carrierClass?_eq_none.mpr hroot)]
    cases hlookup : (scene.world.valuesOf self).accessors.lookup (carrier.id, constant) with
    | some value => exact absurd (hkept value hlookup).declared hdeclared
    | none =>
        have hundeclared : (exec ((self.evaluator host functions carrier.scope).evaluate constant)
            { cache := some (scene.world.valuesOf self).link }).1 =
              .error (.unresolvedReference self.analysis.descriptor constant) :=
          congrArg Prod.fst (Evaluator.evaluate_undeclared hdeclared _)
        rw [result_keptValue_of_none host hlookup, result_evaluate, hundeclared,
          hanalyzed.descriptor]
        rfl

/-- Marking a constant while a carrier is ambient and reading it gives what a new call site without
adaptation and restrictions gives under that carrier: the error, what the function returns, or the
error that there is no function. -/
theorem resolveAmbientConstant_eq_invoke (h : scene.Reachable host) {descriptor : Descriptor}
    {self : Class} (hself : scene.world.loader.classes.lookup descriptor = some self)
    (constant : String) {carrier : Carrier} (hcarrier : carrier ∈ scene.world.store.carriers)
    (arguments : List Value) :
    let marked := (scene.after (enter carrier)).after (markInFlight descriptor constant)
    let site : SpecializedCallSite := { owner := self, constant }
    let returned := ((site.invoke host carrier arguments).run scene.world).1.1
    match marked.result (resolveAmbientConstant host) with
    | .error error => returned = .error error
    | .ok value =>
      match value.asFunction? with
      | some (native, bound) =>
        returned = (BoundFunction.invoke host { native, bound } arguments).mapError .constants
      | none =>
        returned =
          .error (.constants (.linkage constant [value.text] (.callTarget value.kind))) := by
  intro marked site returned
  have hkeeping := h.keeping
  have hclass := h.sound.loader _ (mem_of_lookup hself)
  have hread : marked.result (resolveAmbientConstant host) =
      scene.result (readUnder host scene.world.loader.functions self constant carrier) := by
    rw [result_marked host hself, result_readUnder host (hkeeping.analyzed self hclass)
      (hkeeping.keeps self hclass)]
  have hreturned : returned = _ :=
    invoke_created host h.recalling self constant (Or.inl hcarrier) arguments
  rw [hreturned, hread]
  cases scene.result (readUnder host scene.world.loader.functions self constant carrier) with
  | error error => rfl
  | ok value =>
      dsimp only [Except.bind, Target.expectFunction]
      cases value.asFunction? with
      | none => rfl
      | some function => rfl

/-- The method of the pair is called, its left slot is no function, and nothing else is declared. -/
theorem resolveAmbientConstant_pair :
    ∃ host : Host,
      let read (constant : String) :=
        ((pairScene.after (enter pairCarrier)).after (markInFlight "Pair" constant)).result
          (resolveAmbientConstant host)
      let returned (constant : String) :=
        ((SpecializedCallSite.invoke host { owner := pairCarrier.owner, constant } pairCarrier
          [.list [.type "Double"]]).run pairScene.world).1.1
      read "left" = .ok (.type "Integer") ∧
        returned "left" = .error (.constants
          (.linkage "left" ["T:Integer"] (.callTarget .type))) ∧
        read "absent" = .error (.constants (.unresolvedReference "Pair" "absent")) ∧
        returned "absent" = read "absent" ∧
        returned "append_swapped" =
          .ok (.list [.type "Double", .type "String", .type "Integer"]) := by
  let host : Host := fun _ _ => .error "absent"
  have hself : pairScene.world.loader.classes.lookup "Pair" = some pairCarrier.owner := rfl
  have hstored : pairCarrier ∈ pairScene.world.store.carriers := List.head_mem _
  have hagree := fun constant => resolveAmbientConstant_eq_invoke host (pairScene_reachable host)
    hself constant hstored [.list [.type "Double"]]
  exact ⟨host, rfl, hagree "left", rfl, hagree "absent", hagree "append_swapped"⟩

end Scene

end Specialization

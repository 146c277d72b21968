import Specialization.Proofs.World.Parallel

/-!
Reads and climbs in two scenes that are alike. What is kept in one scene and found anew in the other
one is the same, and so is the carrier that one scene remembers and the other one still has to make.
-/

namespace Specialization

variable {host : Host} {vocabulary : Vocabulary}

namespace Scene

variable {a b : Scene}

theorem Alike.lookup (h : a.Alike host vocabulary b) (descriptor : Descriptor) :
    Option.Rel (a.SameClass b) (a.world.loader.classes.lookup descriptor)
      (b.world.loader.classes.lookup descriptor) := by
  refine Same.option_iff.mpr ⟨fun self hself => ?_, fun other hother => ?_, h.classes descriptor⟩
  · exact h.first.sound.loader _ (mem_of_lookup hself)
  · exact h.second.sound.loader _ (mem_of_lookup hother)

theorem parallel_findClass (halike : a.Alike host vocabulary b) (descriptor : Descriptor) :
    Parallel host vocabulary a b (findClass descriptor) (findClass descriptor) SameClass := by
  apply Parallel.get
  have hlookup := halike.lookup descriptor
  generalize a.world.loader.classes.lookup descriptor = found at hlookup ⊢
  generalize b.world.loader.classes.lookup descriptor = found' at hlookup ⊢
  cases hlookup with
  | none => exact .throw halike _
  | some hsame => exact .pure halike hsame

theorem parallel_functions (halike : a.Alike host vocabulary b) :
    Parallel host vocabulary a b Operation.functions Operation.functions
      fun a' _ functions functions' =>
        functions = a'.world.loader.functions ∧ functions = functions' :=
  .get (.pure halike ⟨rfl, halike.functions⟩)

end Scene

namespace Class

variable {functions : Registry} {self other : Class}

theorem evaluateAnew_congr (h : self.analysis = other.analysis) (constant : String)
    (scope : Scope) : self.evaluateAnew host functions constant scope =
      other.evaluateAnew host functions constant scope := by
  rw [evaluateAnew, evaluateAnew, evaluator, evaluator, h]

theorem covers_evaluateAnew (hanalyzed : self.Analyzed)
    (hclosed : vocabulary.Closed host functions) {constant : String} {scope : Scope}
    (hscope : ∀ level, vocabulary.CoversOption (scope.parameters level)) {value : Value}
    (h : self.evaluateAnew host functions constant scope = .ok value) :
    vocabulary.Covers value := by
  have haccepted := hanalyzed.accepted
  have hcovered : (self.evaluator host functions scope).CoveredBy vocabulary :=
    ⟨hclosed, hscope, fun _ _ => haccepted.covers_literal⟩
  by_cases hdeclared : self.analysis.contains constant
  · rw [evaluateAnew_exact host functions haccepted haccepted.acyclic hdeclared scope] at h
    exact hcovered.meaning h
  · rw [evaluateAnew, Evaluator.evaluate_undeclared hdeclared] at h
    cases h

theorem checkCarrier_congr (hself : self.unnumbered = other.unnumbered)
    {carrier carrier' : Carrier} (howner : carrier.owner.descriptor = carrier'.owner.descriptor)
    (constant : String) :
    self.checkCarrier constant carrier = other.checkCarrier constant carrier' := by
  simp only [checkCarrier, carrierClass?_of_unnumbered hself, howner]

/-- What is read anew does not depend on the world. -/
theorem Read.result_anew (read : Read) (first second : Scene) :
    first.result (read.anew host functions self) =
      second.result (read.anew host functions self) := by
  cases read with
  | evaluate constant scope =>
      simp only [Scene.result, anew, exec_ofConstants]
  | accessor constant carrier =>
      obtain ⟨checked, hcheck⟩ := exec_checkCarrier self constant carrier
      rw [Scene.result, Scene.result, anew]
      cases checked with
      | error error => rw [exec_bind_error (hcheck _), exec_bind_error (hcheck _)]
      | ok checked =>
          rw [exec_bind_ok (hcheck _), exec_bind_ok (hcheck _), exec_ofConstants, exec_ofConstants]

/-- The scope under which a read evaluates. -/
def Read.scope : Read → Scope
  | .evaluate _ scope => scope
  | .accessor _ carrier => carrier.scope

theorem Read.covers_anew (hanalyzed : self.Analyzed) (hclosed : vocabulary.Closed host functions)
    {read : Read} (hscope : ∀ level, vocabulary.CoversOption (read.scope.parameters level))
    {scene : Scene} {value : Value}
    (h : scene.result (read.anew host functions self) = .ok value) : vocabulary.Covers value := by
  cases read with
  | evaluate constant scope =>
      rw [Scene.result, anew, exec_ofConstants] at h
      exact covers_evaluateAnew hanalyzed hclosed hscope (mapError_eq_ok.mp h)
  | accessor constant carrier =>
      obtain ⟨checked, hcheck⟩ := exec_checkCarrier self constant carrier
      rw [Scene.result, anew] at h
      cases checked with
      | error error =>
          rw [exec_bind_error (hcheck _)] at h
          cases h
      | ok checked =>
          rw [exec_bind_ok (hcheck _), exec_ofConstants] at h
          exact covers_evaluateAnew hanalyzed hclosed hscope (mapError_eq_ok.mp h)

end Class

namespace Scene

variable {a b : Scene}

theorem Exact.steady_read (h : a.Exact host vocabulary) {self : Class} (hself : self ∈ a.classes)
    (read : Class.Read) (hread : ∀ carrier, read.carrier? = some carrier → a.Knows carrier) :
    a.Steady host vocabulary (read.operation host a.world.loader.functions self) := by
  refine ⟨?_, (h.read hself read hread).2, ?_⟩
  · cases read with
    | evaluate constant scope => exact (settled_evaluate host hself _ constant scope).grows
    | accessor constant carrier => exact (settled_accessorValue host hself _ constant carrier).grows
  · have hapart : self.Apart World.setting := fun _ _ => rfl
    cases read with
    | evaluate constant scope =>
        exact Class.leaves_evaluate host hapart _ constant scope a.world
    | accessor constant carrier =>
        exact Class.leaves_accessorValue host hapart _ constant carrier a.world

/-- Two reads give the same value if they would give it anew. -/
theorem parallel_read (halike : a.Alike host vocabulary b) {self other : Class}
    (hself : a.SameClass b self other) {functions : Registry}
    (hfunctions : functions = a.world.loader.functions) (read read' : Class.Read)
    (hread : ∀ carrier, read.carrier? = some carrier → a.Knows carrier)
    (hread' : ∀ carrier, read'.carrier? = some carrier → b.Knows carrier)
    (hscope : ∀ level, vocabulary.CoversOption (read.scope.parameters level))
    (hanew : read.anew host functions self = read'.anew host functions other) :
    Parallel host vocabulary a b (read.operation host functions self)
      (read'.operation host functions other)
      fun _ _ value value' => value = value' ∧ vocabulary.Covers value := by
  have hfunctions' : functions = b.world.loader.functions := hfunctions.trans halike.functions
  have hfirst := halike.first.read hself.first read hread
  have hsteady := halike.first.steady_read hself.first read hread
  have hsecond := halike.second.read hself.second read' hread'
  have hsteady' := halike.second.steady_read hself.second read' hread'
  rw [← hfunctions] at hfirst hsteady
  rw [← hfunctions'] at hsecond hsteady'
  refine ⟨hsteady, hsteady', ?_⟩
  have hclosed : vocabulary.Closed host functions := hfunctions ▸ halike.first.closed
  have hsame : a.result (read.operation host functions self) =
      b.result (read'.operation host functions other) := by
    rw [hfirst.1, hsecond.1, hanew]
    exact read'.result_anew a b
  apply Outcome.of_eq hsame
  intro value hvalue
  rw [← hsame, hfirst.1] at hvalue
  exact ⟨rfl, Class.Read.covers_anew (halike.first.analyzed self hself.first) hclosed hscope hvalue⟩

theorem parallel_evaluate (halike : a.Alike host vocabulary b) {self other : Class}
    (hself : a.SameClass b self other) {functions : Registry}
    (hfunctions : functions = a.world.loader.functions) (constant : String) :
    Parallel host vocabulary a b (self.evaluate host functions constant .unbound)
      (other.evaluate host functions constant .unbound)
      fun _ _ value value' => value = value' ∧ vocabulary.Covers value := by
  let read : Class.Read := .evaluate constant .unbound
  have hnone : ∀ level, vocabulary.CoversOption (read.scope.parameters level) := by
    intro level
    cases level <;> exact Vocabulary.coversOption_none
  apply parallel_read halike hself hfunctions read read nofun nofun hnone
  have hanalysis := Class.analysis_of_unnumbered hself.seen
  exact congrArg Operation.ofConstants (Class.evaluateAnew_congr hanalysis constant .unbound)

theorem Exact.covers_scope (h : a.Exact host vocabulary) {carrier : Carrier}
    (hcarrier : a.Knows carrier) (level : Level) :
    vocabulary.CoversOption (carrier.scope.parameters level) := by
  obtain ⟨parameters, hentry, hmade⟩ := h.sound.entry_of_stored (h.stored hcarrier)
  obtain ⟨hlocation, hparameters⟩ := h.covered _ hentry
  rw [hmade.scope]
  exact Vocabulary.covers_scope hlocation hparameters level

theorem parallel_accessorValue (halike : a.Alike host vocabulary b) {self other : Class}
    (hself : a.SameClass b self other) {functions : Registry}
    (hfunctions : functions = a.world.loader.functions) (constant : String)
    {carrier carrier' : Carrier} (hcarrier : a.SameCarrier b carrier carrier') :
    Parallel host vocabulary a b (self.accessorValue host functions constant carrier)
      (other.accessorValue host functions constant carrier')
      fun _ _ value value' => value = value' ∧ vocabulary.Covers value := by
  let read : Class.Read := .accessor constant carrier
  let read' : Class.Read := .accessor constant carrier'
  have hknown : ∀ known, read.carrier? = some known → a.Knows known := by
    rintro known ⟨⟩
    exact hcarrier.first
  have hknown' : ∀ known, read'.carrier? = some known → b.Knows known := by
    rintro known ⟨⟩
    exact hcarrier.second
  apply parallel_read halike hself hfunctions read read' hknown hknown'
    (halike.first.covers_scope hcarrier.first)
  have howner := hcarrier.owner halike.first.sound halike.second.sound
  have hcheck := Class.checkCarrier_congr hself.seen
    (Class.descriptor_of_unnumbered howner.seen) constant
  have hanalysis := Class.analysis_of_unnumbered hself.seen
  simp only [read, read', Class.Read.anew, hcheck, hcarrier.scope,
    Class.evaluateAnew_congr hanalysis]

theorem Exact.steady_resolve (h : a.Exact host vocabulary) {location : Location}
    (howner : location.owner ∈ a.classes) (hlocation : vocabulary.CoversLocation location)
    {requested : Option Value} (hrequested : vocabulary.CoversOption requested) :
    a.Steady host vocabulary (resolve location requested) := by
  have hsetting := (leaves_resolve location requested).narrow fun parts => parts.2.2
  exact ⟨(settled_resolve location howner requested).grows,
    (h.after_resolve howner hlocation hrequested).1, hsetting a.world⟩

/-- What was resolved, without its numbers. -/
theorem Exact.view_of_resolve (h : a.Exact host vocabulary) {location : Location}
    (howner : location.owner ∈ a.classes) (hlocation : vocabulary.CoversLocation location)
    {requested : Option Value} (hrequested : vocabulary.CoversOption requested)
    {carrier : Carrier} (hcarrier : a.result (resolve location requested) = .ok carrier) :
    ∃ default, location.defaults = some default ∧ carrier.location = location ∧
      (a.after (resolve location requested)).Knows carrier ∧ carrier.unnumbered =
        carrierView a.world.store.config location.unnumbered (erase requested default) := by
  obtain ⟨hexact, hmade⟩ := h.after_resolve howner hlocation hrequested
  obtain ⟨default, hdefault, hentry⟩ := hmade carrier hcarrier
  have hview := hexact.unnumbered_eq hentry
  rw [(settled_resolve location howner requested).grows.world.config] at hview
  exact ⟨default, hdefault, (hexact.sound.entries _ hentry).located,
    Or.inl (List.mem_map_of_mem hentry), hview⟩

/-- Two resolutions of one location with one request give the same carrier, whether it was there or
is made. -/
theorem parallel_resolve (halike : a.Alike host vocabulary b) {location location' : Location}
    (hlocation : a.SameLocation b location location') (hcovers : vocabulary.CoversLocation location)
    {requested : Option Value} (hrequested : vocabulary.CoversOption requested) :
    Parallel host vocabulary a b (resolve location requested) (resolve location' requested)
      fun a' b' carrier carrier' => a'.SameCarrier b' carrier carrier' ∧
        carrier.location = location := by
  have hcovers' : vocabulary.CoversLocation location' := by
    rwa [← Vocabulary.coversLocation_unnumbered, ← hlocation.seen,
      Vocabulary.coversLocation_unnumbered]
  have hdefaults : location.defaults = location'.defaults := by
    rw [← location.defaults_unnumbered, hlocation.seen, location'.defaults_unnumbered]
  have htext : location.text = location'.text := by
    rw [← location.text_unnumbered, hlocation.seen, location'.text_unnumbered]
  refine ⟨halike.first.steady_resolve hlocation.first hcovers hrequested,
    halike.second.steady_resolve hlocation.second hcovers' hrequested, ?_⟩
  cases hfirst : a.result (resolve location requested) with
  | error error =>
      obtain ⟨hnone, rfl⟩ := exec_resolve_eq_error.mp hfirst
      have hsecond : b.result (resolve location' requested) =
          .error (.notSpecializable location.text) :=
        exec_resolve_eq_error.mpr ⟨hdefaults ▸ hnone, congrArg Error.notSpecializable htext⟩
      rw [hsecond]
      exact .error _
  | ok carrier =>
      obtain ⟨default, hdefault, hat, hknown, hview⟩ :=
        halike.first.view_of_resolve hlocation.first hcovers hrequested hfirst
      cases hsecond : b.result (resolve location' requested) with
      | error error =>
          obtain ⟨hnone, _⟩ := exec_resolve_eq_error.mp hsecond
          rw [← hdefaults, hdefault] at hnone
          cases hnone
      | ok carrier' =>
          obtain ⟨default', hdefault', _, hknown', hview'⟩ :=
            halike.second.view_of_resolve hlocation.second hcovers' hrequested hsecond
          rw [← hdefaults, hdefault] at hdefault'
          obtain rfl := Option.some.inj hdefault'
          rw [halike.config, hlocation.seen, ← hview'] at hview
          exact .ok ⟨⟨hknown, hknown', hview⟩, hat⟩

/-- The parameters of the class are erased in the same way in both scenes. -/
theorem SameClass.ofMethod {self other : Class} (h : a.SameClass b self other)
    (classParameters : Option Value) (signature : String) :
    a.SameLocation b (.ofMethod self classParameters signature)
      (.ofMethod other classParameters signature) := by
  refine ⟨h.first, h.second, ?_⟩
  rw [Location.ofMethod, Location.ofMethod, Class.defaults_of_unnumbered h.seen]
  exact congrArg (fun self => Location.method self _ signature) h.seen

theorem Exact.covers_ofMethod (h : a.Exact host vocabulary) {self : Class}
    (hself : self ∈ a.classes) {classParameters : Option Value}
    (hcovers : vocabulary.CoversOption classParameters) (signature : String) :
    vocabulary.CoversLocation (.ofMethod self classParameters signature) := by
  intro value hvalue
  obtain ⟨default, hdefault, rfl⟩ := Option.map_eq_some_iff.mp hvalue
  have hanalyzed : (Location.ofClass self).owner.Analyzed := h.analyzed self hself
  exact Vocabulary.covers_erase hcovers (Location.coversOption_defaults hanalyzed default hdefault)

/-- The carrier of a class that is seen in one scene, and the same carrier seen in the other one. -/
structure SameSeen (a b : Scene) (top : Class) (found found' : Option Carrier) : Prop where
  same : Option.Rel (a.SameCarrier b) found found'
  location : ∀ carrier, found = some carrier → carrier.location = .ofClass top

theorem parallel_resolveDefault (halike : a.Alike host vocabulary b) {self other : Class}
    (hself : a.SameClass b self other) :
    Parallel host vocabulary a b (resolveDefault self) (resolveDefault other)
      fun a' b' => a'.SameSeen b' self := by
  have hspecializable : self.isSpecializable = other.isSpecializable :=
    congrArg Option.isSome (Class.defaults_of_unnumbered hself.seen)
  unfold resolveDefault
  rw [← hspecializable]
  split
  · apply Parallel.bind halike
      (parallel_resolve halike hself.location trivial Vocabulary.coversOption_none)
    rintro a' b' carrier carrier' _ _ halike ⟨hsame, hlocation⟩
    refine .pure halike ⟨.some hsame, ?_⟩
    rintro _ ⟨⟩
    exact hlocation
  · exact .pure halike ⟨.none, nofun⟩

theorem parallel_findDirectSupertype (halike : a.Alike host vocabulary b) {functions : Registry}
    (hfunctions : functions = a.world.loader.functions) {carrier carrier' : Carrier}
    (hcarrier : a.SameCarrier b carrier carrier') {above above' : Class}
    (habove : a.SameClass b above above') :
    Parallel host vocabulary a b (findDirectSupertype host functions carrier above)
      (findDirectSupertype host functions carrier' above')
      fun a' b' => a'.SameSeen b' above := by
  have howner := hcarrier.owner halike.first.sound halike.second.sound
  have hanalysis := Class.analysis_of_unnumbered howner.seen
  have hdescriptor := Class.descriptor_of_unnumbered howner.seen
  have habove' := Class.descriptor_of_unnumbered habove.seen
  unfold findDirectSupertype
  dsimp only
  rw [← hanalysis, ← hdescriptor, ← habove']
  split
  · exact parallel_resolveDefault halike habove
  · apply Parallel.bind halike
      (parallel_accessorValue halike howner hfunctions _ hcarrier)
    rintro a' b' mapping _ hgrows hgrows' halike ⟨rfl, hcovers⟩
    split
    · exact .throw halike _
    · rename_i raw parameters hspecies
      have hparameters : vocabulary.CoversOption (some parameters) := by
        obtain rfl := Value.eq_species_of_asSpecies? hspecies
        exact Vocabulary.coversOption_some hcovers
      split
      · have hlocation := SameClass.location (habove.grow hgrows hgrows')
        apply Parallel.bind halike (parallel_resolve halike hlocation trivial hparameters)
        rintro a' b' found found' _ _ halike ⟨hsame, hat⟩
        refine .pure halike ⟨.some hsame, ?_⟩
        rintro _ ⟨⟩
        exact hat
      · exact .throw halike _

/-- What is remembered of supertypes may change as long as it is not stale. -/
theorem Exact.of_supertypes (h : a.Exact host vocabulary)
    {supertypes : List ((Nat × Nat) × Carrier)}
    (hrecalling : Recalling host { a with world := { a.world with
      store := { a.world.store with supertypes } } }) :
    Exact host vocabulary { a with world := { a.world with
      store := { a.world.store with supertypes } } } :=
  { h with recalling := hrecalling, orderly := h.orderly.of_same rfl rfl rfl }

/-- Asking for a direct supertype does nothing, or it does what finding it anew does and remembers
what was found. -/
theorem after_directSupertype (functions : Registry) (carrier : Carrier) (above : Class) :
    let found := a.after (findDirectSupertype host functions carrier above)
    a.after (directSupertype host functions carrier above) = a ∨
      ∃ supertypes, a.after (directSupertype host functions carrier above) =
        { found with world := { found.world with
          store := { found.world.store with supertypes } } } := by
  intro found
  cases hlookup : a.world.store.supertypes.lookup (carrier.id, above.id) with
  | some known =>
      left
      rw [after, exec_directSupertype_of_some host functions hlookup]
  | none =>
      right
      have hexec := exec_directSupertype_of_none host functions hlookup
      simp only [found, after, hexec]
      rcases exec (findDirectSupertype host functions carrier above) a.world with
        ⟨error | _ | known, next⟩
      · exact ⟨next.store.supertypes, rfl⟩
      · exact ⟨next.store.supertypes, rfl⟩
      · exact ⟨_, rfl⟩

theorem Steady.directSupertype (h : a.Exact host vocabulary) {functions : Registry}
    {carrier : Carrier} (hcarrier : a.Knows carrier) (hlevel : carrier.isClassLevel) {above : Class}
    (hdirect : carrier.owner.superclass? = some above)
    (hfind : a.Steady host vocabulary (findDirectSupertype host functions carrier above)) :
    a.Steady host vocabulary (directSupertype host functions carrier above) := by
  have hacts := acts_directSupertype host h.recalling functions hcarrier hlevel hdirect
  obtain ⟨hgrows, hrecalling⟩ := grows_of_effects hacts h.recalling
  rcases after_directSupertype functions carrier above with hsame | ⟨supertypes, hsame⟩
  · exact ⟨hgrows, hsame ▸ h, by rw [hsame]⟩
  · rw [hsame] at hrecalling
    have hexact := hfind.exact.of_supertypes hrecalling
    rw [← hsame] at hexact
    refine ⟨hgrows, hexact, ?_⟩
    rw [hsame]
    exact hfind.setting

/-- A supertype that one scene remembers is the one that the other scene finds. -/
theorem parallel_directSupertype (halike : a.Alike host vocabulary b) {functions : Registry}
    (hfunctions : functions = a.world.loader.functions) {carrier carrier' : Carrier}
    (hcarrier : a.SameCarrier b carrier carrier') (hlevel : carrier.isClassLevel)
    {above above' : Class} (habove : a.SameClass b above above')
    (hdirect : carrier.owner.superclass? = some above)
    (hdirect' : carrier'.owner.superclass? = some above') :
    Parallel host vocabulary a b (directSupertype host functions carrier above)
      (directSupertype host functions carrier' above')
      fun a' b' => a'.SameSeen b' above := by
  have hfind := parallel_findDirectSupertype halike hfunctions hcarrier habove
  have hlevel' : carrier'.isClassLevel := hcarrier.isClassLevel ▸ hlevel
  have hresult := halike.first.recalling.result_directSupertype functions hcarrier.first hdirect
  have hresult' :=
    halike.second.recalling.result_directSupertype functions hcarrier.second hdirect'
  refine ⟨hfind.first.directSupertype halike.first hcarrier.first hlevel hdirect,
    hfind.second.directSupertype halike.second hcarrier.second hlevel' hdirect', ?_⟩
  rw [hresult, hresult']
  apply hfind.outcome.mono
  rintro found found' hfound hfound' ⟨hsame, hlocation⟩
  rw [← hresult] at hfound
  rw [← hresult'] at hfound'
  refine ⟨?_, hlocation⟩
  cases hsame with
  | none => exact .none
  | some hsame =>
      have hheld := (settled_directSupertype host halike.first.sound functions hcarrier.first
        habove.first).holds hfound
      have hheld' := (settled_directSupertype host halike.second.sound functions hcarrier.second
        habove.second).holds hfound'
      exact .some ⟨Or.inl (hheld _ rfl), Or.inl (hheld' _ rfl), hsame.seen⟩

theorem SameClass.superclass (ha : a.Sound) (hb : b.Sound) {self other above : Class}
    (h : a.SameClass b self other) (hdirect : self.superclass? = some above) :
    ∃ above', other.superclass? = some above' ∧ a.SameClass b above above' := by
  have hview := self.superclass?_unnumbered
  rw [h.seen, other.superclass?_unnumbered, hdirect, Option.map_some] at hview
  obtain ⟨above', hdirect', hsame⟩ := Option.map_eq_some_iff.mp hview
  exact ⟨above', hdirect', ha.superclass h.first hdirect, hb.superclass h.second hdirect',
    hsame.symm⟩

/-- Two ways of one length, up from the same class. -/
theorem parallel_climb {functions : Registry} {self top : Class} {way : List Class}
    (hway : self.Climbs way top) {other top' : Class} {way' : List Class}
    (hway' : other.Climbs way' top') (hlength : way.length = way'.length)
    (halike : a.Alike host vocabulary b) (hfunctions : functions = a.world.loader.functions)
    (hself : a.SameClass b self other) {current current' : Option Carrier}
    (hcurrent : a.SameSeen b self current current') :
    Parallel host vocabulary a b (climb host functions current way)
      (climb host functions current' way') fun a' b' => Option.Rel (a'.SameCarrier b') := by
  induction hway generalizing a b other way' current current' with
  | here self =>
      obtain rfl : way' = [] := List.eq_nil_of_length_eq_zero hlength.symm
      cases hcurrent.same with
      | none => exact .pure halike .none
      | some hsame => exact .pure halike (.some hsame)
  | @up self above top rest hdirect hrest ih =>
      obtain ⟨above', hdirect', habove⟩ :=
        hself.superclass halike.first.sound halike.second.sound hdirect
      cases hway' with
      | here => cases hlength
      | @up _ next _ rest' hnext hrest' =>
          obtain rfl := Option.some.inj (hdirect'.symm.trans hnext)
          have hlength := Nat.succ.inj hlength
          have hgoes : ∀ a' b' found found', a.Grows a' → b.Grows b' →
              a'.Alike host vocabulary b' → a'.SameSeen b' above found found' →
              Parallel host vocabulary a' b' (climb host functions found rest)
                (climb host functions found' rest') fun a' b' =>
                  Option.Rel (a'.SameCarrier b') := by
            intro a' b' found found' hgrows hgrows' halike hseen
            exact ih hrest' hlength halike (hfunctions.trans hgrows.world.functions.symm)
              (habove.grow hgrows hgrows') hseen
          obtain ⟨hsame, hlocation⟩ := hcurrent
          cases hsame with
          | none => exact (parallel_resolveDefault halike habove).bind halike hgoes
          | @some carrier carrier' hsame =>
              obtain ⟨hlevel, howner⟩ := Carrier.at_class (hlocation carrier rfl)
              have howner' : carrier'.owner = other := by
                have hown := hsame.owner halike.first.sound halike.second.sound
                apply halike.second.class_eq hown.second hself.second
                apply Class.descriptor_of_unnumbered
                rw [← hown.seen, howner, hself.seen]
              rw [← howner] at hdirect
              rw [← howner'] at hdirect'
              exact (parallel_directSupertype halike hfunctions hsame hlevel habove hdirect
                hdirect').bind halike hgoes

theorem findIdx?_congr {α : Type} {p q : α → Bool} {items : List α}
    (h : ∀ item ∈ items, p item = q item) : items.findIdx? p = items.findIdx? q := by
  induction items with
  | nil => rfl
  | cons item rest ih =>
      rw [List.findIdx?_cons, List.findIdx?_cons, h item List.mem_cons_self,
        ih fun later hlater => h later (List.mem_cons_of_mem item hlater)]

/-- Where classes are known by their descriptors, so are distances. -/
theorem Exact.distanceTo?_eq (h : a.Exact host vocabulary) {self top : Class}
    (hself : self ∈ a.classes) (htop : top ∈ a.classes) :
    self.distanceTo? top =
      (self.unnumbered.lineage.map Class.descriptor).findIdx? (· == top.descriptor) := by
  have hsame : ∀ above ∈ self.lineage, (above == top) = (above.descriptor == top.descriptor) := by
    intro above habove
    rw [Bool.eq_iff_iff, Class.beq_iff, beq_iff_eq]
    constructor
    · intro hid
      rw [h.sound.class_unique above (h.sound.lineage self hself above habove) top htop hid]
    · intro hdescriptor
      rw [h.class_eq (h.sound.lineage self hself above habove) htop hdescriptor]
  have hdescriptors : self.unnumbered.lineage.map Class.descriptor =
      self.lineage.map Class.descriptor := by
    rw [self.lineage_unnumbered, List.map_map]
    rfl
  rw [hdescriptors, Class.distanceTo?, List.findIdx?_map]
  exact findIdx?_congr hsame

theorem Alike.distanceTo?_eq (halike : a.Alike host vocabulary b) {self other top top' : Class}
    (hself : a.SameClass b self other) (htop : a.SameClass b top top') :
    self.distanceTo? top = other.distanceTo? top' := by
  rw [halike.first.distanceTo?_eq hself.first htop.first,
    halike.second.distanceTo?_eq hself.second htop.second, hself.seen,
    Class.descriptor_of_unnumbered htop.seen]

theorem parallel_supertypeCarrier (halike : a.Alike host vocabulary b) {functions : Registry}
    (hfunctions : functions = a.world.loader.functions) {carrier carrier' : Carrier}
    (hcarrier : a.SameCarrier b carrier carrier') {ancestor ancestor' : Class}
    (hancestor : a.SameClass b ancestor ancestor') :
    Parallel host vocabulary a b (supertypeCarrier host functions carrier ancestor)
      (supertypeCarrier host functions carrier' ancestor')
      fun a' b' => Option.Rel (a'.SameCarrier b') := by
  have howner := hcarrier.owner halike.first.sound halike.second.sound
  have hdescriptor := Class.descriptor_of_unnumbered howner.seen
  have habove := Class.descriptor_of_unnumbered hancestor.seen
  have hdistances := halike.distanceTo?_eq howner hancestor
  unfold supertypeCarrier
  dsimp only
  rw [← hcarrier.isClassLevel, ← hdescriptor, ← habove]
  split
  · rename_i hlevel
    cases hdistance : carrier.owner.distanceTo? ancestor with
    | none =>
        rw [← hdistances, hdistance]
        exact .throw halike _
    | some distance =>
        rw [hdistance] at hdistances
        rw [← hdistances]
        apply Parallel.get
        rw [← halike.config]
        split
        · exact .throw halike _
        · obtain ⟨way, top, hway, hlength⟩ := Class.climbs_of_distanceTo? hdistance
          obtain ⟨way', top', hway', hlength'⟩ := Class.climbs_of_distanceTo? hdistances.symm
          have htake := hway.take_lineage
          have htake' := hway'.take_lineage
          rw [hlength] at htake
          rw [hlength'] at htake'
          rw [htake, htake']
          apply parallel_climb hway hway' (hlength.trans hlength'.symm) halike hfunctions howner
          refine ⟨.some hcarrier, ?_⟩
          rintro _ ⟨⟩
          exact Carrier.isClassLevel_iff.mp hlevel
  · exact .throw halike _

theorem parallel_supertypeCarrierNamed (halike : a.Alike host vocabulary b)
    {carrier carrier' : Carrier} (hcarrier : a.SameCarrier b carrier carrier')
    (descriptor : Descriptor) :
    Parallel host vocabulary a b (supertypeCarrierNamed host carrier descriptor)
      (supertypeCarrierNamed host carrier' descriptor)
      fun a' b' => Option.Rel (a'.SameCarrier b') := by
  apply Parallel.bind halike (parallel_findClass halike descriptor)
  intro a b ancestor ancestor' hgrows hgrows' halike hancestor
  have hcarrier := hcarrier.grow hgrows hgrows'
  apply Parallel.bind halike (parallel_functions halike)
  rintro a b functions _ hgrows hgrows' halike ⟨hfunctions, rfl⟩
  exact parallel_supertypeCarrier halike hfunctions (hcarrier.grow hgrows hgrows')
    (hancestor.grow hgrows hgrows')

theorem parallel_scopedCarrier (halike : a.Alike host vocabulary b) {self other : Class}
    (hself : a.SameClass b self other) (constant : String) {carrier carrier' : Carrier}
    (hcarrier : a.SameCarrier b carrier carrier') :
    Parallel host vocabulary a b (scopedCarrier host self constant carrier)
      (scopedCarrier host other constant carrier') SameCarrier := by
  have howner := hcarrier.owner halike.first.sound halike.second.sound
  have hdescriptor := Class.descriptor_of_unnumbered howner.seen
  unfold scopedCarrier
  rw [← Class.carrierClass?_of_unnumbered hself.seen]
  split
  · exact .pure halike hcarrier
  · rename_i expected hexpected
    dsimp only
    rw [← hdescriptor]
    split
    · exact .pure halike hcarrier
    · apply Parallel.get
      have hlookup := halike.lookup expected
      generalize a.world.loader.classes.lookup expected = found at hlookup ⊢
      generalize b.world.loader.classes.lookup expected = found' at hlookup ⊢
      cases hlookup with
      | none => exact .throw halike _
      | some hancestor =>
          dsimp only
          rw [← hcarrier.isClassLevel, ← halike.distanceTo?_eq howner hancestor]
          split
          · apply Parallel.bind halike (parallel_functions halike)
            rintro a b functions _ hgrows hgrows' halike ⟨hfunctions, rfl⟩
            apply Parallel.bind halike (parallel_supertypeCarrier halike hfunctions
              (hcarrier.grow hgrows hgrows') (hancestor.grow hgrows hgrows'))
            intro a b found found' _ _ halike hsame
            cases hsame with
            | none => exact .throw halike _
            | some hsame => exact .pure halike hsame
          · exact .throw halike _

theorem parallel_link (halike : a.Alike host vocabulary b) {request : Value}
    (hcovers : vocabulary.Covers request) :
    Parallel host vocabulary a b (link request) (link request) SameCarrier := by
  unfold link
  split
  · rename_i raw parameters
    apply Parallel.bind halike (parallel_findClass halike raw)
    intro a b self other _ _ halike hself
    have hrequested : vocabulary.CoversOption (some parameters) :=
      Vocabulary.coversOption_some hcovers
    exact (parallel_resolve halike hself.location trivial hrequested).mono
      fun _ _ _ _ hsame => hsame.1
  · exact .throw halike _

end Scene

end Specialization

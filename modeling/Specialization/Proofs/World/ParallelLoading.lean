import Specialization.Proofs.World.ParallelReading

/-!
Loading classes in two scenes that are alike, and changing there what is ambient. Two loads of one
spec give classes that differ in their numbers only, or are refused for the same reason. A load that
is refused leaves a number unused at most.
-/

namespace Specialization

variable {host : Host} {vocabulary : Vocabulary}

/-- The number of a load does not matter for what is loaded, nor for why it is refused. -/
theorem Definition.map_unnumbered_ofSpec (id other : Nat) (spec : ClassSpec) :
    (ofSpec id spec).map unnumbered = (ofSpec other spec).map unnumbered := by
  unfold ofSpec
  cases AnchorTable.ofList (spec.importedAnchors.map (·.anchor)) with
  | error error => rfl
  | ok imported =>
      simp only [bind, Except.bind]
      cases analyze spec.declarations imported with
      | error error => rfl
      | ok analysis =>
          dsimp only
          cases unimplemented? analysis spec.methods with
          | none => rfl
          | some method => rfl

theorem Class.under_unnumbered {definition definition' : Definition}
    (h : definition.unnumbered = definition'.unnumbered) {superclass superclass' : Option Class}
    (hsuperclass : superclass.map unnumbered = superclass'.map unnumbered) :
    (Class.under definition superclass).unnumbered =
      (Class.under definition' superclass').unnumbered := by
  have hview : ∀ (definition : Definition) (superclass : Option Class),
      (Class.under definition superclass).unnumbered =
        Class.under definition.unnumbered (superclass.map unnumbered) := by
    intro definition superclass
    cases superclass <;> rfl
  rw [hview, hview, h, hsuperclass]

namespace Scene

variable {a b : Scene}

/-- The scene after a class was loaded and made known. -/
def withClass (scene : Scene) (self : Class) : Scene where
  world := { scene.world with
    nextClass := scene.world.nextClass + 1
    loader := { scene.world.loader with
      classes := (self.descriptor, self) :: scene.world.loader.classes } }
  classes := self :: scene.classes
  foreign := scene.foreign

/-- The scene after a class was refused that took its number. -/
def withoutClass (scene : Scene) : Scene :=
  { scene with world := { scene.world with nextClass := scene.world.nextClass + 1 } }

/-- What a definition comes down to once its superclass was found. -/
theorem define_of_superclass {spec : ClassSpec} {superclass : Option Class}
    (h : a.result (spec.superclass.mapM findClass) = .ok superclass) :
    match Definition.ofSpec a.world.nextClass spec with
    | .error error =>
      a.result (define spec) = .error (.constants error) ∧ a.defineClass spec = a
    | .ok definition =>
      let self := Class.under definition superclass
      match a.world.loader.classes.lookup self.descriptor with
      | some _ => a.result (define spec) = .error (.duplicateClass self.descriptor) ∧
          a.defineClass spec = a.withoutClass
      | none => a.result (define spec) = .ok self ∧ a.defineClass spec = a.withClass self := by
  have hexec := exec_define spec a.world
  have hfound : exec (spec.superclass.mapM findClass) a.world = (.ok superclass, a.world) :=
    Prod.ext h (leaves_superclass spec a.world)
  rw [hfound] at hexec
  have hload := exec_load spec superclass a.world
  cases hdefinition : Definition.ofSpec a.world.nextClass spec with
  | error error =>
      simp only [hload, hdefinition] at hexec
      simp only [defineClass, result, after, hexec, and_self]
  | ok definition =>
      simp only [hload, hdefinition] at hexec
      cases hlookup :
          a.world.loader.classes.lookup (Class.under definition superclass).descriptor with
      | some other =>
          simp only [hlookup] at hexec
          simp only [hlookup, defineClass, result, after, hexec, true_and]
          rfl
      | none =>
          simp only [hlookup] at hexec
          simp only [hlookup, defineClass, result, after, hexec, true_and]
          rfl

theorem define_of_error {spec : ClassSpec} {error : Error}
    (h : a.result (spec.superclass.mapM findClass) = .error error) :
    a.result (define spec) = .error error ∧ a.defineClass spec = a := by
  have hexec := exec_define spec a.world
  have hfound : exec (spec.superclass.mapM findClass) a.world = (.error error, a.world) :=
    Prod.ext h (leaves_superclass spec a.world)
  rw [hfound] at hexec
  simp only [defineClass, result, after, hexec, and_self]

theorem Exact.withoutClass (h : a.Exact host vocabulary) :
    a.Continues host vocabulary a.withoutClass :=
  ⟨Grows.skipClass, h.of_effect .refused rfl rfl rfl h.keeps fun _ hold => Or.inl hold, rfl⟩

/-- A class under a new descriptor keeps a scene exact. -/
theorem Exact.withClass (h : a.Exact host vocabulary) {spec : ClassSpec} {definition : Definition}
    (hdefinition : Definition.ofSpec a.world.nextClass spec = .ok definition)
    {superclass : Option Class}
    (hsuperclass : ∀ above, superclass = some above → above ∈ a.classes)
    (hnew : a.world.loader.classes.lookup (Class.under definition superclass).descriptor = none) :
    (a.withClass (.under definition superclass)).Exact host vocabulary := by
  let self := Class.under definition superclass
  let loaded : Scene := { a with
    world := { a.world with nextClass := a.world.nextClass + 1 }
    classes := self :: a.classes }
  have hloaded : a.Effect host loaded := .loaded hdefinition hsuperclass
  have hpublished : loaded.Effect host (a.withClass self) := .published List.mem_cons_self hnew
  constructor
  case recalling => exact hpublished.recalling (hloaded.recalling h.recalling)
  case orderly => exact hpublished.orderly (hloaded.orderly h.orderly)
  case own => exact h.own
  case analyzed =>
    intro other hother
    rcases List.mem_cons.mp hother with rfl | hold
    · exact ⟨_, spec, hdefinition⟩
    · exact h.analyzed other hold
  case known =>
    intro other hother
    rcases List.mem_cons.mp hother with rfl | hold
    · exact List.lookup_cons_self
    · have hknown := h.known other hold
      have hdescriptor : (other.descriptor == self.descriptor) = false := by
        rw [beq_eq_false_iff_ne]
        intro hsame
        rw [hsame, hnew] at hknown
        cases hknown
      change ((self.descriptor, self) :: a.world.loader.classes).lookup other.descriptor = _
      rw [List.lookup_cons, hdescriptor]
      exact hknown
  case keeps =>
    intro other hother acyclic
    rcases List.mem_cons.mp hother with rfl | hold
    · have hnothing : (a.withClass self).world.valuesOf self = {} :=
        h.sound.valuesOf_new (Definition.of_ofSpec hdefinition).1
      rw [hnothing]
      exact ⟨fun _ _ hentry => (nomatch hentry), fun _ hentry => (nomatch hentry)⟩
    · exact h.keeps other hold acyclic
  case closed => exact h.closed
  case covered => exact h.covered

theorem parallel_superclass (halike : a.Alike host vocabulary b) (spec : ClassSpec) :
    Parallel host vocabulary a b (spec.superclass.mapM findClass)
      (spec.superclass.mapM findClass) fun a' b' => Option.Rel (a'.SameClass b') := by
  cases spec.superclass with
  | none => exact .pure halike .none
  | some descriptor =>
      apply Parallel.bind halike (parallel_findClass halike descriptor)
      intro a b self other _ _ halike hself
      exact .pure halike (.some hself)

/-- A class that is made known in both scenes. -/
theorem Alike.withClass (halike : a.Alike host vocabulary b) {self other : Class}
    (ha : (a.withClass self).Exact host vocabulary) (hb : (b.withClass other).Exact host vocabulary)
    (hsame : self.unnumbered = other.unnumbered) :
    (a.withClass self).Alike host vocabulary (b.withClass other) where
  first := ha
  second := hb
  functions := halike.functions
  config := halike.config
  classes descriptor := by
    simp only [Scene.withClass, List.lookup_cons, Class.descriptor_of_unnumbered hsame]
    cases descriptor == other.descriptor with
    | true => exact congrArg some hsame
    | false => exact halike.classes descriptor
  ambient := halike.ambient

/-- A definition succeeds in both scenes or fails in both with the same error, and the scenes are
alike afterwards. -/
theorem Alike.define (halike : a.Alike host vocabulary b) (spec : ClassSpec) :
    (a.defineClass spec).Alike host vocabulary (b.defineClass spec) ∧
      Outcome ((a.defineClass spec).SameClass (b.defineClass spec)) (a.result (define spec))
        (b.result (define spec)) := by
  obtain ⟨_, _, houtcome⟩ := parallel_superclass halike spec
  have hstill : a.after (spec.superclass.mapM findClass) = a :=
    congrArg (fun world => { a with world }) (leaves_superclass spec a.world)
  have hstill' : b.after (spec.superclass.mapM findClass) = b :=
    congrArg (fun world => { b with world }) (leaves_superclass spec b.world)
  rw [hstill, hstill'] at houtcome
  generalize hfound : a.result (spec.superclass.mapM findClass) = found at houtcome
  generalize hfound' : b.result (spec.superclass.mapM findClass) = found' at houtcome
  cases houtcome with
  | error error =>
      obtain ⟨hresult, hafter⟩ := define_of_error hfound
      obtain ⟨hresult', hafter'⟩ := define_of_error hfound'
      rw [hresult, hresult', hafter, hafter']
      exact ⟨halike, .error error⟩
  | @ok superclass superclass' hsuperclass =>
      have hdefine := define_of_superclass hfound
      have hdefine' := define_of_superclass hfound'
      have hview := outcome_map.mpr
        (Definition.map_unnumbered_ofSpec a.world.nextClass b.world.nextClass spec)
      generalize hdefinition : Definition.ofSpec a.world.nextClass spec = loaded
        at hview hdefine
      generalize hdefinition' : Definition.ofSpec b.world.nextClass spec = loaded'
        at hview hdefine'
      cases hview with
      | error error =>
          rw [hdefine.1, hdefine'.1, hdefine.2, hdefine'.2]
          exact ⟨halike, .error _⟩
      | @ok definition definition' hview =>
          obtain ⟨habove, habove', hsuper⟩ := Same.option_iff.mp hsuperclass
          have hsame := Class.under_unnumbered hview hsuper
          have hdescriptor := Class.descriptor_of_unnumbered hsame
          have hlookup := halike.lookup (Class.under definition superclass).descriptor
          dsimp only at hdefine hdefine'
          rw [← hdescriptor] at hdefine'
          generalize hknown : a.world.loader.classes.lookup _ = known at hlookup hdefine
          generalize hknown' : b.world.loader.classes.lookup _ = known' at hlookup hdefine'
          cases hlookup with
          | some _ =>
              rw [hdefine.1, hdefine'.1, hdefine.2, hdefine'.2]
              exact ⟨halike.later halike.first.withoutClass halike.second.withoutClass, .error _⟩
          | none =>
              rw [hdefine.1, hdefine'.1, hdefine.2, hdefine'.2]
              rw [hdescriptor] at hknown'
              have ha := halike.first.withClass hdefinition habove hknown
              have hb := halike.second.withClass hdefinition' habove' hknown'
              exact ⟨halike.withClass ha hb hsame,
                .ok ⟨List.mem_cons_self, List.mem_cons_self, hsame⟩⟩

/-- A definition that failed leaves no more behind than a number. -/
theorem Exact.continues_define (h : a.Exact host vocabulary) {spec : ClassSpec} {error : Error}
    (hfailed : a.result (define spec) = .error error) :
    a.Continues host vocabulary (a.defineClass spec) := by
  cases hfound : a.result (spec.superclass.mapM findClass) with
  | error error =>
      rw [(define_of_error hfound).2]
      exact .refl h
  | ok superclass =>
      have hdefine := define_of_superclass hfound
      generalize Definition.ofSpec a.world.nextClass spec = loaded at hdefine
      cases loaded with
      | error error =>
          rw [hdefine.2]
          exact .refl h
      | ok definition =>
          dsimp only at hdefine
          generalize a.world.loader.classes.lookup _ = known at hdefine
          cases known with
          | some other =>
              rw [hdefine.2]
              exact h.withoutClass
          | none =>
              rw [hdefine.1] at hfailed
              cases hfailed

/-- Scenes stay alike if the same carrier becomes ambient in both. -/
theorem Alike.withAmbient (halike : a.Alike host vocabulary b) {ambient ambient' : Ambient}
    (hambient : Option.Rel (a.SameCarrier b) ambient.carrier ambient'.carrier) :
    ({ a with world := { a.world with ambient } } : Scene).Alike host vocabulary
      { b with world := { b.world with ambient := ambient' } } where
  first := halike.first.withAmbient (Same.option_iff.mp hambient).1
  second := halike.second.withAmbient (Same.option_iff.mp hambient).2.1
  functions := halike.functions
  config := halike.config
  classes := halike.classes
  ambient := (Same.option_iff.mp hambient).2.2

theorem start_exact (config : Config) {functions : Registry}
    (hclosed : vocabulary.Closed host functions) :
    (start config functions).Exact host vocabulary where
  recalling := start_recalling config functions
  orderly := start_orderly config functions
  own := rfl
  analyzed _ h := nomatch h
  known _ h := nomatch h
  keeps _ h := nomatch h
  closed := hclosed
  covered _ h := nomatch h

end Scene

end Specialization

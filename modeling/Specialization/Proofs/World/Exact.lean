import Specialization.Proofs.Evaluation.Vocabulary
import Specialization.Proofs.World.Accessors
import Specialization.Proofs.World.KeptValues
import Specialization.Proofs.World.Unnumbered
import Specialization.Proofs.World.WellFormed

/-!
Exact scenes: all classes are known by their descriptors, the carriers are those of a store in order
and hold functions of one vocabulary, and all that is kept or remembered is what would be found
anew. In such a scene a class is told by its descriptor and a carrier by its location and its
parameters, and no number matters.
-/

namespace Specialization

/-- The functions in the parameters of the class of a location are of the vocabulary. -/
def Vocabulary.CoversLocation (vocabulary : Vocabulary) : Location → Prop
  | .ofClass _ => True
  | .method _ classParameters _ => vocabulary.CoversOption classParameters

variable {vocabulary : Vocabulary}

theorem Vocabulary.coversLocation_unnumbered (location : Location) :
    vocabulary.CoversLocation location.unnumbered ↔ vocabulary.CoversLocation location := by
  cases location <;> rfl

/-- The default parameters of classes and methods are types. -/
theorem Location.coversOption_defaults {location : Location} (h : location.owner.Analyzed) :
    vocabulary.CoversOption location.defaults := by
  obtain ⟨id, spec, hdefinition⟩ := h
  obtain ⟨hdefaults, hmethods⟩ := Definition.defaults_of_ofSpec hdefinition
  cases location with
  | ofClass self =>
      change vocabulary.CoversOption self.definition.defaults
      rw [show self.definition.defaults = _ from hdefaults]
      exact Vocabulary.coversOption_defaultParameters spec.defaults
  | method owner classParameters signature =>
      intro value hvalue
      obtain ⟨method, hmethod, hvalue⟩ := Option.bind_eq_some_iff.mp hvalue
      have hmem : method ∈ owner.definition.methods := List.mem_of_find?_eq_some hmethod
      rw [show owner.definition.methods = _ from hmethods] at hmem
      obtain ⟨spec, _, rfl⟩ := List.mem_map.mp hmem
      exact Vocabulary.coversOption_defaultParameters spec.defaults value hvalue

theorem Vocabulary.covers_scope {location : Location} {parameters : Value}
    (hlocation : vocabulary.CoversLocation location) (hparameters : vocabulary.Covers parameters)
    (level : Level) : vocabulary.CoversOption ((location.scope parameters).parameters level) := by
  cases location with
  | ofClass self =>
      cases level with
      | ofClass => exact coversOption_some hparameters
      | ofMethod => exact coversOption_none
  | method owner classParameters signature =>
      cases level with
      | ofClass => exact hlocation
      | ofMethod => exact coversOption_some hparameters

theorem Class.KeepsExact.mono {host : Host} {functions : Registry} {self : Class}
    {acyclic : self.analysis.Acyclic} {Known Known' : Carrier → Prop} {values : ClassValues}
    (h : self.KeepsExact host functions acyclic Known values)
    (hknown : ∀ carrier, Known carrier → Known' carrier) :
    self.KeepsExact host functions acyclic Known' values where
  link := h.link
  accessors entry hentry := by
    obtain ⟨carrier, hcarrier, hrest⟩ := h.accessors entry hentry
    exact ⟨carrier, hknown carrier hcarrier, hrest⟩

namespace Scene

structure Exact (host : Host) (vocabulary : Vocabulary) (scene : Scene) : Prop where
  recalling : scene.Recalling host
  orderly : scene.world.store.Orderly
  /-- No carriers were made elsewhere. -/
  own : scene.foreign = []
  analyzed : ∀ self ∈ scene.classes, self.Analyzed
  known : ∀ self ∈ scene.classes,
    scene.world.loader.classes.lookup self.descriptor = some self
  keeps : ∀ self ∈ scene.classes, ∀ acyclic : self.analysis.Acyclic,
    self.KeepsExact host scene.world.loader.functions acyclic scene.Knows
      (scene.world.valuesOf self)
  closed : vocabulary.Closed host scene.world.loader.functions
  covered : ∀ entry ∈ scene.world.store.entries,
    vocabulary.CoversLocation entry.location ∧ vocabulary.Covers entry.parameters

variable {host : Host} {scene next : Scene}

theorem Exact.sound (h : scene.Exact host vocabulary) : scene.Sound :=
  h.recalling.sound

theorem Exact.stored (h : scene.Exact host vocabulary) {carrier : Carrier}
    (hcarrier : scene.Knows carrier) : carrier ∈ scene.world.store.carriers := by
  rcases hcarrier with hstored | helsewhere
  · exact hstored
  · rw [h.own] at helsewhere
    cases helsewhere

theorem Exact.class_eq (h : scene.Exact host vocabulary) {a b : Class} (ha : a ∈ scene.classes)
    (hb : b ∈ scene.classes) (hsame : a.descriptor = b.descriptor) : a = b := by
  have hknown := h.known a ha
  rw [hsame, h.known b hb] at hknown
  exact (Option.some.inj hknown).symm

theorem Exact.location_eq (h : scene.Exact host vocabulary) {a b : Location}
    (ha : a.owner ∈ scene.classes) (hb : b.owner ∈ scene.classes)
    (hsame : a.unnumbered = b.unnumbered) : a = b := by
  have howner : a.owner = b.owner := by
    apply h.class_eq ha hb
    apply Class.descriptor_of_unnumbered
    rw [← a.owner_unnumbered, hsame, b.owner_unnumbered]
  cases a with
  | ofClass self =>
      cases b with
      | ofClass other => exact congrArg Location.ofClass howner
      | method => cases hsame
  | method owner classParameters signature =>
      cases b with
      | ofClass => cases hsame
      | method other classParameters' signature' =>
          obtain ⟨_, hparameters, hsignature⟩ := Location.method.inj hsame
          have howner : owner = other := howner
          rw [howner, hparameters, hsignature]

/-- Equal locations are the same where functions are told apart by their names. -/
theorem Exact.location_of_beq (h : scene.Exact host vocabulary) {a b : Location}
    (ha : a.owner ∈ scene.classes) (hb : b.owner ∈ scene.classes)
    (hcovers : vocabulary.CoversLocation a) (hcovers' : vocabulary.CoversLocation b)
    (hequal : a == b) : a = b := by
  cases a with
  | ofClass self =>
      cases b with
      | ofClass other =>
          have hid := Class.beq_iff.mp hequal
          rw [h.sound.class_unique self ha other hb hid]
      | method => cases hequal
  | method owner classParameters signature =>
      cases b with
      | ofClass => cases hequal
      | method other classParameters' signature' =>
          have hparts : (owner == other && classParameters == classParameters' &&
            signature == signature') = true := hequal
          simp only [Bool.and_eq_true, beq_iff_eq] at hparts
          obtain ⟨⟨hid, hparameters⟩, rfl⟩ := hparts
          rw [h.sound.class_unique owner ha other hb (Class.beq_iff.mp hid),
            Vocabulary.eq_of_beq_option hcovers hcovers' hparameters]

theorem Exact.carrier_eq (h : scene.Exact host vocabulary) {a b : Carrier} (ha : scene.Knows a)
    (hb : scene.Knows b) (hsame : a.unnumbered = b.unnumbered) : a = b := by
  have hlocation : a.location = b.location :=
    h.location_eq (h.sound.owner a ha) (h.sound.owner b hb) (congrArg Carrier.location hsame)
  obtain ⟨parameters, hentry, hmade⟩ := h.sound.entry_of_stored (h.stored ha)
  obtain ⟨parameters', hentry', hmade'⟩ := h.sound.entry_of_stored (h.stored hb)
  have hparameters : parameters = parameters' := by
    have hown := hmade.ownParameters
    rw [← a.ownParameters_unnumbered, hsame, b.ownParameters_unnumbered, hmade'.ownParameters]
      at hown
    exact (Option.some.inj hown).symm
  have hfound := h.orderly.found hentry
  rw [hlocation, hparameters, h.orderly.found hentry'] at hfound
  exact (Option.some.inj hfound).symm

/-- The carrier of a location with parameters, without its numbers. -/
def carrierView (config : Config) (location : Location) (parameters : Value) : Carrier :=
  .synthesize 0 location parameters
    (if config.synthesizeBackingTypes && location.isClassLevel then some "" else none)

theorem Exact.unnumbered_eq (h : scene.Exact host vocabulary) {entry : Store.Entry}
    (hentry : entry ∈ scene.world.store.entries) :
    entry.carrier.unnumbered =
      carrierView scene.world.store.config entry.location.unnumbered entry.parameters := by
  have hmade := h.sound.entries entry hentry
  have hbacking := h.orderly.isSome_backing (List.mem_map_of_mem hentry)
  rw [← Bool.and_eq_true, Carrier.isClassLevel, hmade.located] at hbacking
  have hview : entry.carrier.backing.map Backing.unnumbered =
      Option.map (fun name => { name, raw := entry.location.unnumbered.owner })
        (if scene.world.store.config.synthesizeBackingTypes &&
          entry.location.unnumbered.isClassLevel then some "" else none) := by
    simp only [Location.isClassLevel_unnumbered, Location.owner_unnumbered, ← hbacking]
    cases hown : entry.carrier.backing with
    | none => rfl
    | some backing =>
        rw [← hmade.raw backing hown]
        rfl
  rw [carrierView, Carrier.synthesize, Location.scope_unnumbered, ← hmade.scope, ← hview,
    ← hmade.located]
  rfl

/-- An effect that loads no class keeps a scene exact if it keeps the values exact and the carriers
covered. -/
theorem Exact.of_effect (h : scene.Exact host vocabulary) (heffect : scene.Effect host next)
    (hclasses : next.classes = scene.classes) (hforeign : next.foreign = scene.foreign)
    (hloader : next.world.loader = scene.world.loader)
    (hkeeps : ∀ self ∈ scene.classes, ∀ acyclic : self.analysis.Acyclic,
      self.KeepsExact host scene.world.loader.functions acyclic scene.Knows
        (next.world.valuesOf self))
    (hcovered : ∀ entry ∈ next.world.store.entries, entry ∈ scene.world.store.entries ∨
      vocabulary.CoversLocation entry.location ∧ vocabulary.Covers entry.parameters) :
    next.Exact host vocabulary := by
  have hgrows := heffect.grows h.sound
  constructor
  case recalling => exact heffect.recalling h.recalling
  case orderly => exact heffect.orderly h.orderly
  case own => rw [hforeign, h.own]
  case analyzed =>
    rw [hclasses]
    exact h.analyzed
  case known =>
    rw [hclasses, hloader]
    exact h.known
  case keeps =>
    rw [hclasses, hloader]
    intro self hself acyclic
    exact (hkeeps self hself acyclic).mono fun carrier hcarrier => hcarrier.grow hgrows
  case closed =>
    rw [hloader]
    exact h.closed
  case covered =>
    intro entry hentry
    rcases hcovered entry hentry with hold | hnew
    · exact h.covered entry hold
    · exact hnew

theorem Exact.withAmbient (h : scene.Exact host vocabulary) {ambient : Ambient}
    (hambient : ∀ carrier, ambient.carrier = some carrier → scene.Knows carrier) :
    ({ scene with world := { scene.world with ambient } } : Scene).Exact host vocabulary :=
  h.of_effect (.ambient ambient hambient) rfl rfl rfl h.keeps fun _ hold => Or.inl hold

/-- What is read of a class is what a new evaluator gives, and the scene stays exact. -/
theorem Exact.read (h : scene.Exact host vocabulary) {self : Class} (hself : self ∈ scene.classes)
    (read : Class.Read) (hread : ∀ carrier, read.carrier? = some carrier → scene.Knows carrier) :
    let operation := read.operation host scene.world.loader.functions self
    scene.result operation = scene.result (read.anew host scene.world.loader.functions self) ∧
      (scene.after operation).Exact host vocabulary := by
  intro operation
  let functions := scene.world.loader.functions
  have haccepted := (h.analyzed self hself).accepted
  have hexact := fun acyclic => (h.keeps self hself acyclic).read host functions haccepted
    h.sound.carrier_unique read hread
  have heffect : scene.Effect host (scene.after operation) := by
    cases read with
    | evaluate constant scope => exact .evaluated functions hself constant scope
    | accessor constant carrier => exact .read functions hself constant carrier
  have hleaves : ∀ {γ : Type} {part : World → γ}, self.Apart part → Leaves part operation := by
    intro γ part hapart
    cases read with
    | evaluate constant scope => exact Class.leaves_evaluate host hapart functions constant scope
    | accessor constant carrier =>
        exact Class.leaves_accessorValue host hapart functions constant carrier
  refine ⟨(hexact haccepted.acyclic).1, h.of_effect heffect rfl rfl ?_ ?_ ?_⟩
  · exact hleaves self.apart_loader scene.world
  · intro other hother acyclic
    by_cases hid : other.id = self.id
    · obtain rfl := h.sound.class_unique other hother self hself hid
      exact (hexact acyclic).2
    · have hsame : (scene.after operation).world.valuesOf other = scene.world.valuesOf other :=
        hleaves (Class.apart_valuesOf hid) scene.world
      rw [hsame]
      exact h.keeps other hother acyclic
  · intro entry hentry
    have hsame : (scene.after operation).world.store = scene.world.store :=
      hleaves self.apart_store scene.world
    rw [hsame] at hentry
    exact Or.inl hentry

theorem valuesOf_of_values {before after : World} (h : after.values = before.values)
    (self : Class) : after.valuesOf self = before.valuesOf self := by
  rw [World.valuesOf, h, World.valuesOf]

/-- The carrier that is resolved has an entry for the location and the erased parameters, whether it
was there or is made, and the scene stays exact. -/
theorem Exact.after_resolve (h : scene.Exact host vocabulary) {location : Location}
    (howner : location.owner ∈ scene.classes) (hlocation : vocabulary.CoversLocation location)
    {requested : Option Value} (hrequested : vocabulary.CoversOption requested) :
    (scene.after (resolve location requested)).Exact host vocabulary ∧
      ∀ carrier, scene.result (resolve location requested) = .ok carrier →
        ∃ default, location.defaults = some default ∧
          { location, parameters := erase requested default, carrier } ∈
            (scene.after (resolve location requested)).world.store.entries := by
  have heffect : scene.Effect host (scene.after (resolve location requested)) :=
    .resolved howner requested
  have hleaves := leaves_resolve location requested
  have hvalues : (scene.after (resolve location requested)).world.values = scene.world.values :=
    hleaves.narrow (fun parts => parts.2.1) scene.world
  have hloader : (scene.after (resolve location requested)).world.loader = scene.world.loader :=
    hleaves.narrow (fun parts => parts.2.2.1) scene.world
  have hkeeps : ∀ self ∈ scene.classes, ∀ acyclic : self.analysis.Acyclic,
      self.KeepsExact host scene.world.loader.functions acyclic scene.Knows
        ((scene.after (resolve location requested)).world.valuesOf self) := by
    intro self hself acyclic
    rw [valuesOf_of_values hvalues]
    exact h.keeps self hself acyclic
  cases hdefaults : location.defaults with
  | none =>
      have hfail : resolve location requested =
          throw (.notSpecializable location.text) := by
        simp only [resolve, hdefaults]
      rw [hfail]
      refine ⟨h, ?_⟩
      rintro carrier ⟨⟩
  | some default =>
      have hdefault : vocabulary.Covers default :=
        Location.coversOption_defaults (h.analyzed _ howner) default hdefaults
      have hcovers := Vocabulary.covers_erase hrequested hdefault
      have hexec := exec_resolve location requested hdefaults scene.world
      cases hfound : scene.world.store.find? location (erase requested default) with
      | some found =>
          rw [hfound] at hexec
          obtain ⟨entry, hentry, rfl, hsame, hequal⟩ := Store.entry_of_find? hfound
          obtain ⟨hlocation', hparameters⟩ := h.covered entry hentry
          have howner' : entry.location.owner ∈ scene.classes := by
            rw [← (h.sound.entries entry hentry).located]
            exact h.sound.owner entry.carrier (Or.inl (List.mem_map_of_mem hentry))
          have hkey : entry = ⟨location, erase requested default, entry.carrier⟩ := by
            rw [← h.location_of_beq howner' howner hlocation' hlocation hsame,
              ← Vocabulary.eq_of_beq hparameters hcovers hequal]
          refine ⟨h.of_effect heffect rfl rfl hloader hkeeps ?_, ?_⟩
          · intro other hother
            rw [after, hexec] at hother
            exact Or.inl hother
          · intro carrier hcarrier
            rw [result, hexec] at hcarrier
            cases hcarrier
            refine ⟨default, rfl, ?_⟩
            rw [after, hexec, ← hkey]
            exact hentry
      | none =>
          rw [hfound] at hexec
          refine ⟨h.of_effect heffect rfl rfl hloader hkeeps ?_, ?_⟩
          · intro entry hentry
            rw [after, hexec] at hentry
            rcases List.mem_cons.mp hentry with rfl | hold
            · exact Or.inr ⟨hlocation, hcovers⟩
            · exact Or.inl hold
          · intro carrier hcarrier
            rw [result, hexec] at hcarrier
            cases hcarrier
            rw [after, hexec]
            exact ⟨default, rfl, List.mem_cons_self⟩

end Scene

end Specialization

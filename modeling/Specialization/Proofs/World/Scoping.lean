import Specialization.Proofs.World.Accessors
import Specialization.Proofs.World.Ascent
import Specialization.Proofs.World.Namesakes

/-!
Scoping a carrier to the anchor of a constant. The anchor belongs to a class by its descriptor. A
carrier of a class of that descriptor stays as it is, and from any other one the class that the
loader knows under the descriptor is climbed to. The read that follows checks the descriptor again,
and what scoping found always passes.
-/

namespace Specialization

variable (host : Host)

namespace Class

/-- A carrier of the class of the anchor is not refused, and any carrier will do for a constant
without an anchor. -/
theorem accessorValue_ne_mismatch {self : Class} {constant : String} {carrier : Carrier}
    (h : ∀ expected, self.carrierClass? constant = some expected →
      carrier.owner.descriptor = expected) (functions : Registry) (world : World) (name : String)
    (expected found : Descriptor) :
    (exec (self.accessorValue host functions constant carrier) world).1 ≠
      .error (.carrierMismatch name expected found) := by
  have hcheck : exec (self.checkCarrier constant carrier) world = (.ok (), world) := by
    unfold checkCarrier
    split
    · rename_i own hown
      rw [if_pos (h own hown)]
      rfl
    · rfl
  rw [accessorValue_eq, exec_bind_ok hcheck]
  intro hmismatch
  obtain ⟨cause, hcause⟩ :=
    throws_keptValue host functions self constant carrier world _ hmismatch
  cases hcause

end Class

namespace Scene

variable {scene : Scene} {self : Class} {constant : String} {carrier : Carrier}
  {expected : Descriptor}

/-- The class that is climbed to for an anchor: the one that the loader knows under the descriptor,
if it lies above a class-level carrier. -/
structure Scopes (scene : Scene) (carrier : Carrier) (expected : Descriptor) (ancestor : Class) :
    Prop where
  known : scene.world.loader.classes.lookup expected = some ancestor
  classLevel : carrier.isClassLevel
  above : ancestor ∈ carrier.owner.lineage

/-- A carrier stays as it is under its own class, or where no class is asked for. -/
theorem exec_scopedCarrier_own (h : ∀ expected, self.carrierClass? constant = some expected →
    carrier.owner.descriptor = expected) (world : World) :
    exec (scopedCarrier host self constant carrier) world = (.ok carrier, world) := by
  unfold scopedCarrier
  split
  · rfl
  · rename_i own hown
    simp only [if_pos (h own hown)]
    rfl

section Climbing

variable (h : scene.Sound) (hcarrier : scene.Knows carrier)
  (hexpected : self.carrierClass? constant = some expected)
  (hother : carrier.owner.descriptor ≠ expected)

include h hcarrier hexpected hother

theorem exec_scopedCarrier_above {ancestor : Class}
    (hscopes : scene.Scopes carrier expected ancestor) :
    let climbing := supertypeCarrier host scene.world.loader.functions carrier ancestor
    let mismatch := Error.carrierMismatch constant expected carrier.owner.descriptor
    exec (scopedCarrier host self constant carrier) scene.world =
      match exec climbing scene.world with
      | (.ok (some own), next) => (.ok own, next)
      | (.ok none, next) => (.error mismatch, next)
      | (.error error, next) => (.error error, next) := by
  intro climbing mismatch
  have hancestor : ancestor ∈ scene.classes := h.loader _ (mem_of_lookup hscopes.known)
  have hdistance : (carrier.owner.distanceTo? ancestor).isSome := by
    rw [← Option.ne_none_iff_isSome, ne_eq,
      h.distanceTo?_eq_none (h.owner carrier hcarrier) hancestor]
    exact fun hnot => hnot hscopes.above
  have hfunctions : exec Operation.functions scene.world =
      (.ok scene.world.loader.functions, scene.world) := rfl
  unfold scopedCarrier
  simp only [hexpected, if_neg hother]
  rw [exec_bind_ok (exec_get scene.world), hscopes.known]
  simp only [hscopes.classLevel, hdistance, Bool.and_self, if_true]
  rw [exec_bind_ok hfunctions]
  rcases hrun : exec climbing scene.world with ⟨error | _ | own, next⟩
  · exact exec_bind_error hrun
  · exact exec_bind_ok hrun
  · exact exec_bind_ok hrun

theorem exec_scopedCarrier_refused (hnone : ∀ ancestor, ¬ scene.Scopes carrier expected ancestor) :
    exec (scopedCarrier host self constant carrier) scene.world =
      (.error (.carrierMismatch constant expected carrier.owner.descriptor), scene.world) := by
  unfold scopedCarrier
  simp only [hexpected, if_neg hother]
  rw [exec_bind_ok (exec_get scene.world)]
  cases hknown : scene.world.loader.classes.lookup expected with
  | none => rfl
  | some ancestor =>
      have hclimbs : ¬ (carrier.isClassLevel && (carrier.owner.distanceTo? ancestor).isSome) := by
        rw [Bool.and_eq_true]
        rintro ⟨hlevel, hdistance⟩
        have habove := h.mem_lineage_of_distance (h.owner carrier hcarrier)
          (h.loader _ (mem_of_lookup hknown)) hdistance
        exact hnone ancestor ⟨hknown, hlevel, habove⟩
      simp only [if_neg hclimbs]
      rfl

end Climbing

/-- Two ways to a carrier for an anchor: the carrier is one of its class, or it is climbed from. -/
theorem scopedCarrier_eq_ok (h : scene.Sound) (hcarrier : scene.Knows carrier)
    (hexpected : self.carrierClass? constant = some expected) {own : Carrier}
    (hown : scene.result (scopedCarrier host self constant carrier) = .ok own) :
    (carrier.owner.descriptor = expected ∧ own = carrier ∧
      scene.after (scopedCarrier host self constant carrier) = scene) ∨
    ∃ ancestor, carrier.owner.descriptor ≠ expected ∧ scene.Scopes carrier expected ancestor ∧
      let climbing := supertypeCarrier host scene.world.loader.functions carrier ancestor
      scene.result climbing = .ok (some own) ∧
        scene.after (scopedCarrier host self constant carrier) = scene.after climbing := by
  by_cases hother : carrier.owner.descriptor = expected
  · have hexec : exec (scopedCarrier host self constant carrier) scene.world =
        (.ok carrier, scene.world) := by
      apply exec_scopedCarrier_own
      rintro other hsame
      rw [hexpected] at hsame
      exact hother.trans (Option.some.inj hsame)
    rw [result, hexec] at hown
    rw [after, hexec]
    exact .inl ⟨hother, (Except.ok.inj hown).symm, rfl⟩
  · by_cases hscopes : ∃ ancestor, scene.Scopes carrier expected ancestor
    · obtain ⟨ancestor, hscopes⟩ := hscopes
      have hexec := exec_scopedCarrier_above host h hcarrier hexpected hother hscopes
      refine .inr ⟨ancestor, hother, hscopes, ?_⟩
      dsimp only [result, after] at hown ⊢
      rw [hexec] at hown ⊢
      split at hown
      · rename_i found next hrun
        cases hown
        exact ⟨congrArg Prod.fst hrun, by rw [hrun]⟩
      · cases hown
      · cases hown
    · have hnone := not_exists.mp hscopes
      rw [result, exec_scopedCarrier_refused host h hcarrier hexpected hother hnone] at hown
      cases hown

/-- Why there is no carrier for an anchor of another class. -/
inductive OutOfSight (scene : Scene) (carrier : Carrier) (expected : Descriptor) : Prop
  /-- The loader knows no class of the descriptor. -/
  | unknown (hnone : scene.world.loader.classes.lookup expected = none)
  /-- A carrier of a method is never climbed from. -/
  | methodLevel (hlevel : ¬ carrier.isClassLevel)
  /-- The class that is known under the descriptor lies elsewhere. -/
  | unrelated {ancestor : Class}
      (hknown : scene.world.loader.classes.lookup expected = some ancestor)
      (helsewhere : ancestor ∉ carrier.owner.lineage)
  /-- The class has no specializations, and nothing below maps to it. -/
  | unseen {ancestor : Class}
      (hknown : scene.world.loader.classes.lookup expected = some ancestor)
      (hclimb : scene.result
        (supertypeCarrier host scene.world.loader.functions carrier ancestor) = .ok none)

variable {host}

theorem Scopes.eq {first second : Class} (h : scene.Scopes carrier expected first)
    (h' : scene.world.loader.classes.lookup expected = some second) : first = second :=
  Option.some.inj (h.known.symm.trans h')

/-- A carrier is out of sight exactly if climbing to any class that it is scoped to finds none. -/
theorem outOfSight_iff : scene.OutOfSight host carrier expected ↔
    ∀ ancestor, scene.Scopes carrier expected ancestor →
      scene.result (supertypeCarrier host scene.world.loader.functions carrier ancestor) =
        .ok none := by
  constructor
  · rintro (hnone | hlevel | ⟨hknown, helsewhere⟩ | ⟨hknown, hclimb⟩) ancestor hscopes
    · exact nomatch hnone.symm.trans hscopes.known
    · exact absurd hscopes.classLevel hlevel
    · exact absurd (hscopes.eq hknown ▸ hscopes.above) helsewhere
    · rw [hscopes.eq hknown]
      exact hclimb
  · intro hclimbs
    cases hknown : scene.world.loader.classes.lookup expected with
    | none => exact .unknown hknown
    | some ancestor =>
        by_cases hlevel : carrier.isClassLevel
        · by_cases habove : ancestor ∈ carrier.owner.lineage
          · exact .unseen hknown (hclimbs ancestor ⟨hknown, hlevel, habove⟩)
          · exact .unrelated hknown habove
        · exact .methodLevel hlevel

/-- For an anchor of another class scoping fails with a mismatch or with an error of the climb. -/
theorem scopedCarrier_eq_error (h : scene.Sound) (hcarrier : scene.Knows carrier)
    (hexpected : self.carrierClass? constant = some expected)
    (hother : carrier.owner.descriptor ≠ expected) {error : Error} :
    scene.result (scopedCarrier host self constant carrier) = .error error ↔
      (scene.OutOfSight host carrier expected ∧
        error = .carrierMismatch constant expected carrier.owner.descriptor) ∨
      ∃ ancestor, scene.Scopes carrier expected ancestor ∧
        scene.result (supertypeCarrier host scene.world.loader.functions carrier ancestor) =
          .error error := by
  rw [outOfSight_iff]
  by_cases hscopes : ∃ ancestor, scene.Scopes carrier expected ancestor
  · obtain ⟨ancestor, hscopes⟩ := hscopes
    have hexec := exec_scopedCarrier_above host h hcarrier hexpected hother hscopes
    have honly : ∀ {P : Class → Prop}, (∃ other, scene.Scopes carrier expected other ∧ P other) ↔
        P ancestor := fun {P} =>
      ⟨fun ⟨other, hother, hP⟩ => hscopes.eq hother.known ▸ hP, fun hP => ⟨ancestor, hscopes, hP⟩⟩
    have hall : ∀ {P : Class → Prop}, (∀ other, scene.Scopes carrier expected other → P other) ↔
        P ancestor := fun {P} =>
      ⟨fun hP => hP ancestor hscopes, fun hP other hother => hscopes.eq hother.known ▸ hP⟩
    rw [honly, hall, result, hexec]
    simp only [result]
    rcases exec (supertypeCarrier host scene.world.loader.functions carrier ancestor)
      scene.world with ⟨failure | _ | own, next⟩
    · simp
    · simp [eq_comm]
    · simp
  · have hnone := not_exists.mp hscopes
    rw [result, exec_scopedCarrier_refused host h hcarrier hexpected hother hnone]
    constructor
    · intro herror
      exact .inl ⟨fun ancestor hscopes => absurd hscopes (hnone ancestor),
        (Except.error.inj herror).symm⟩
    · rintro (⟨_, rfl⟩ | ⟨ancestor, hscopes, _⟩)
      · rfl
      · exact absurd hscopes (hnone ancestor)

/-- Only a climb to the class of another anchor can be too far. -/
theorem failsOnly_scopedCarrier (h : scene.Sound) (hcarrier : scene.Knows carrier)
    {Expected : Error → Prop} (hstep : ∀ error : Error, error.isOfStep → Expected error)
    (hdepth : (∃ expected, self.carrierClass? constant = some expected ∧
      carrier.owner.descriptor ≠ expected) →
        ∀ descriptor limit, Expected (.supertypeDepthExceeded descriptor limit)) :
    FailsOnly Expected (scene.result (scopedCarrier host self constant carrier)) := by
  by_cases hown : ∀ expected, self.carrierClass? constant = some expected →
    carrier.owner.descriptor = expected
  · rw [result, exec_scopedCarrier_own host hown]
    exact .ok carrier
  · simp only [not_forall] at hown
    obtain ⟨expected, hexpected, hother⟩ := hown
    intro error herror
    rcases (scopedCarrier_eq_error h hcarrier hexpected hother).mp herror with ⟨_, rfl⟩ |
      ⟨ancestor, hscopes, hclimb⟩
    · exact hstep _ rfl
    · obtain ⟨way, hway⟩ := Class.climbs_of_mem hscopes.above
      exact failsOnly_supertypeCarrier host h _ hcarrier hscopes.classLevel hway hstep
        (fun _ => hdepth ⟨expected, hexpected, hother⟩) error hclimb

/-- The carrier that is climbed to for an anchor is a class-level one of the class of the anchor. -/
theorem Reachable.location_of_scopes (h : scene.Reachable host) (hcarrier : scene.Knows carrier)
    {ancestor : Class} (hscopes : scene.Scopes carrier expected ancestor) {own : Carrier}
    (hown : scene.result (supertypeCarrier host scene.world.loader.functions carrier ancestor) =
      .ok (some own)) :
    ancestor.descriptor = expected ∧ own.isClassLevel ∧ own.location = .ofClass ancestor := by
  obtain ⟨way, hway⟩ := Class.climbs_of_mem hscopes.above
  have hlocation := h.recalling.location_of_supertypeCarrier scene.world.loader.functions hcarrier
    hscopes.classLevel hway hown
  exact ⟨h.descriptor_of_loader _ (mem_of_lookup hscopes.known),
    (Carrier.at_class hlocation).1, hlocation⟩

/-- What scoping a carrier gives passes the check of the read that follows. A carrier stays as it is
for a constant that is not declared or fixed at link time, and for an anchor of its own class. For
any other anchor the class of the anchor is climbed to: scoping gives the carrier that is found
there, fails with a mismatch where none is to be found, and fails as the climb does otherwise. -/
theorem scopedCarrier_laws (h : scene.Reachable host) (hself : self ∈ scene.classes)
    (constant : String) (hcarrier : carrier ∈ scene.world.store.carriers) :
    let found := carrier.owner.descriptor
    let given := scene.result (scopedCarrier host self constant carrier)
    let climbed (ancestor : Class) :=
      scene.result (supertypeCarrier host scene.world.loader.functions carrier ancestor)
    (∀ own, given = .ok own → ∀ functions world name expected found,
      (exec (self.accessorValue host functions constant own) world).1 ≠
        .error (.carrierMismatch name expected found)) ∧
    (self.carrierClass? constant = none ↔
      ¬ self.analysis.contains constant ∨ self.analysis.root? constant = some .constant) ∧
    (self.carrierClass? constant = none ∨ self.carrierClass? constant = some found →
      given = .ok carrier) ∧
    ∀ expected, self.carrierClass? constant = some expected → expected ≠ found →
      (∀ own, given = .ok own ↔ ∃ ancestor, scene.Scopes carrier expected ancestor ∧
        climbed ancestor = .ok (some own) ∧ ancestor.descriptor = expected ∧ own.isClassLevel ∧
          own.location = .ofClass ancestor) ∧
      ∀ error, given = .error error ↔
        (scene.OutOfSight host carrier expected ∧
          error = .carrierMismatch constant expected found) ∨
        ∃ ancestor, scene.Scopes carrier expected ancestor ∧ climbed ancestor = .error error := by
  intro found given climbed
  have hknown : scene.Knows carrier := Or.inl hcarrier
  have hanalyzed := h.keeping.analyzed self hself
  have hgiven : ∀ {expected own}, self.carrierClass? constant = some expected →
      given = .ok own → own.owner.descriptor = expected := by
    intro expected own hexpected hown
    rcases scopedCarrier_eq_ok host h.sound hknown hexpected hown with ⟨hnamed, rfl, _⟩ |
      ⟨ancestor, _, hscopes, hclimb, _⟩
    · exact hnamed
    · obtain ⟨hdescriptor, _, hlocation⟩ := h.location_of_scopes hknown hscopes hclimb
      rw [(Carrier.at_class hlocation).2]
      exact hdescriptor
  refine ⟨?passes, ?unanchored, ?stays, fun expected hexpected hne => ⟨fun own => ?climbs, ?fails⟩⟩
  case passes =>
    intro own hown functions world
    exact Class.accessorValue_ne_mismatch host (fun expected hexpected => hgiven hexpected hown)
      functions world
  case unanchored =>
    exact Class.carrierClass?_eq_none.trans hanalyzed.accepted.not_isAnchored_iff
  case stays =>
    intro hclass
    have hown : ∀ expected, self.carrierClass? constant = some expected →
        carrier.owner.descriptor = expected := by
      intro expected hexpected
      rcases hclass with hnone | hsame
      · exact nomatch hnone.symm.trans hexpected
      · exact Option.some.inj (hsame.symm.trans hexpected)
    exact congrArg Prod.fst (exec_scopedCarrier_own host hown scene.world)
  case climbs =>
    constructor
    · intro hown
      rcases scopedCarrier_eq_ok host h.sound hknown hexpected hown with ⟨hnamed, _⟩ |
        ⟨ancestor, _, hscopes, hclimb, _⟩
      · exact absurd hnamed.symm hne
      · exact ⟨ancestor, hscopes, hclimb, h.location_of_scopes hknown hscopes hclimb⟩
    · rintro ⟨ancestor, hscopes, hclimb, _⟩
      have hexec := exec_scopedCarrier_above host h.sound hknown hexpected hne.symm hscopes
      rcases hrun : exec (supertypeCarrier host scene.world.loader.functions carrier ancestor)
        scene.world with ⟨_, next⟩
      obtain rfl := (congrArg Prod.fst hrun).symm.trans hclimb
      simp only [hrun] at hexec
      exact congrArg Prod.fst hexec
  case fails =>
    exact fun error => scopedCarrier_eq_error h.sound hknown hexpected hne.symm

/-- A class that extends the box of integers. It has an anchor of its own, and reads the one of the
box and one of a class that is not known. -/
def lidless : ClassSpec where
  descriptor := "Crate"
  superclass := some "Box"
  defaults := ["Object"]
  anchors := [{ name := "S", level := .ofClass }]
  importedAnchors := [⟨"Box", { name := "Box#T", level := .ofClass }⟩,
    ⟨"Lid", { name := "Lid#L", level := .ofClass }⟩]
  constants := [
    { name := "own", action := "anchor", operands := [.string "S"] },
    { name := "content", action := "anchor", operands := [.string "Box#T"] },
    { name := "lid", action := "anchor", operands := [.string "Lid#L"] },
    { name := "box", action := "type", operands := [.type "Box"] },
    { name := "integer", action := "type", operands := [.type "Integer"] },
    { name := "extended", action := "species", operands := [.ref "box", .ref "integer"] },
    { name := "above", action := "super", operands := [.ref "extended"] }]

def lidlessScene : Scene :=
  afterLoading [Class.plainBox, lidless] (some (.type "String"))

def lidlessCarrier : Carrier :=
  lidlessScene.world.store.carriers.head (List.cons_ne_nil _ _)

theorem scopedCarrier_laws_lidless :
    ∃ (host : Host) (box : Class) (own : Carrier),
      let self := lidlessCarrier.owner
      let given (constant : String) :=
        lidlessScene.result (scopedCarrier host self constant lidlessCarrier)
      given "box" = .ok lidlessCarrier ∧ given "own" = .ok lidlessCarrier ∧
        given "content" = .ok own ∧ own.location = .ofClass box ∧
        own.classParameters = some (.type "Integer") ∧
        (∀ functions world name expected found,
          (exec (self.accessorValue host functions "content" own) world).1 ≠
            .error (.carrierMismatch name expected found)) ∧
        given "lid" = .error (.carrierMismatch "lid" "Lid" "Crate") := by
  let host : Host := fun _ _ => .error "absent"
  let self : Class := lidlessCarrier.owner
  let box : Class := self.superclass?.get rfl
  have hreachable : lidlessScene.Reachable host := afterLoading_reachable _ _
  have hself : self ∈ lidlessScene.classes := .head _
  have hstored : lidlessCarrier ∈ lidlessScene.world.store.carriers := List.head_mem _
  have hlaws (constant : String) :=
    scopedCarrier_laws hreachable hself constant hstored
  have hscopes : lidlessScene.Scopes lidlessCarrier "Box" box := ⟨rfl, rfl, .tail _ (.head _)⟩
  obtain ⟨own, hclimb, hparameters⟩ : ∃ own,
      lidlessScene.result (supertypeCarrier host .standard lidlessCarrier box) = .ok (some own) ∧
        own.classParameters = some (.type "Integer") := ⟨_, rfl, rfl⟩
  obtain ⟨hpasses, _, _, hother⟩ := hlaws "content"
  obtain ⟨hdescriptor, hlevel, hlocation⟩ :=
    hreachable.location_of_scopes (Or.inl hstored) hscopes hclimb
  have hown := ((hother "Box" rfl (by decide)).1 own).mpr
    ⟨box, hscopes, hclimb, hdescriptor, hlevel, hlocation⟩
  have hlid := ((hlaws "lid").2.2.2 "Lid" rfl (by decide)).2 (.carrierMismatch "lid" "Lid" "Crate")
  exact ⟨host, box, own, (hlaws "box").2.2.1 (.inl rfl), (hlaws "own").2.2.1 (.inr rfl), hown,
    hlocation, hparameters, hpasses own hown, hlid.mpr (.inl ⟨.unknown rfl, rfl⟩)⟩

end Scene

end Specialization

import Specialization.Proofs.World.Effect
import Specialization.Proofs.World.Failures

/-!
The laws of climbing. The carrier of an ancestor is seen through the carrier of every class between,
so a climb can be cut anywhere and its upper part taken from the carrier found there. Whether there
is a carrier depends on the ancestor alone, and a climb is refused for its distance alone.
-/

namespace Specialization

variable (host : Host)

/-- Whether an error refuses a climb before its first step. -/
def Error.refusesClimb : Error → Bool
  | .notASupertype _ _ => true
  | .supertypeDepthExceeded _ _ => true
  | _ => false

/-- An operation whose errors never refuse a climb. -/
def Proceeds {α : Type} (operation : Operation α) : Prop :=
  ∀ world error, (exec operation world).1 = .error error → error.refusesClimb = false

theorem proceeds_climb (functions : Registry) (current : Option Carrier) (way : List Class) :
    Proceeds (climb host functions current way) := by
  intro world error h
  have hstep : error.isOfStep := throws_climb host functions current way world error h
  cases error with
  | constants | notSpecializable | supertypeMismatch | carrierMismatch => rfl
  | _ => cases hstep

/-- One climb is two climbs, joined at any class on the way. -/
theorem climb_append (functions : Registry) (current : Option Carrier)
    (lower upper : List Class) :
    climb host functions current (lower ++ upper) =
      climb host functions current lower >>= fun found => climb host functions found upper := by
  induction lower generalizing current with
  | nil =>
      cases current with
      | none => exact (pure_bind _ _).symm
      | some carrier => exact (pure_bind _ _).symm
  | cons superclass rest ih =>
      cases current with
      | none => simp only [List.cons_append, climb, bind_assoc, ih]
      | some carrier => simp only [List.cons_append, climb, bind_assoc, ih]

namespace Scene

variable {scene : Scene}

/-- The limit is compared with the length of the way. -/
theorem exec_supertypeCarrier (h : scene.Sound) (functions : Registry) {carrier : Carrier}
    (hcarrier : scene.Knows carrier) (hlevel : carrier.isClassLevel) {top : Class}
    {way : List Class} (hway : carrier.owner.Climbs way top) :
    exec (supertypeCarrier host functions carrier top) scene.world =
      let limit := scene.world.store.config.maxSupertypeDepth
      if limit < way.length then
        (.error (.supertypeDepthExceeded carrier.owner.descriptor limit), scene.world)
      else exec (climb host functions (some carrier) way) scene.world := by
  have hdistance := h.distanceTo? (h.owner carrier hcarrier) hway
  unfold supertypeCarrier
  simp only [hlevel, if_true, hdistance]
  rw [exec_bind_ok (exec_get scene.world), hway.take_lineage]
  split
  · rfl
  · rfl

theorem exec_supertypeCarrier_of_not_mem (h : scene.Sound) (functions : Registry)
    {carrier : Carrier} (hcarrier : scene.Knows carrier) {top : Class} (htop : top ∈ scene.classes)
    (hnot : top ∉ carrier.owner.lineage) :
    exec (supertypeCarrier host functions carrier top) scene.world =
      (.error (.notASupertype carrier.owner.descriptor top.descriptor), scene.world) := by
  have hdistance := (h.distanceTo?_eq_none (h.owner carrier hcarrier) htop).mpr hnot
  unfold supertypeCarrier
  simp only [hdistance]
  split
  · rfl
  · rfl

/-- A climb to a superclass is refused for its length alone, and fails as its steps do otherwise. -/
theorem failsOnly_supertypeCarrier (h : scene.Sound) (functions : Registry) {carrier : Carrier}
    (hcarrier : scene.Knows carrier) (hlevel : carrier.isClassLevel) {top : Class}
    {way : List Class} (hway : carrier.owner.Climbs way top) {Expected : Error → Prop}
    (hstep : ∀ error : Error, error.isOfStep → Expected error)
    (hdepth : scene.world.store.config.maxSupertypeDepth < way.length →
      ∀ descriptor limit, Expected (.supertypeDepthExceeded descriptor limit)) :
    FailsOnly Expected (scene.result (supertypeCarrier host functions carrier top)) := by
  rw [result, exec_supertypeCarrier host h functions hcarrier hlevel hway]
  dsimp only
  split
  · rename_i hfar
    exact .error (hdepth hfar _ _)
  · exact (throws_climb host functions (some carrier) way scene.world).mono hstep

variable {host}

/-- Whatever a climb starts from, it ends with what is seen of the class it climbed to. -/
theorem Recalling.isSeen_of_climb (h : scene.Recalling host) (functions : Registry)
    {self top : Class} {way : List Class} (hway : self.Climbs way top)
    (hself : self ∈ scene.classes) {current found : Option Carrier} (hseen : self.IsSeen current)
    (hknown : ∀ carrier, current = some carrier → scene.Knows carrier)
    (hclimb : scene.result (climb host functions current way) = .ok found) :
    top.IsSeen found := by
  induction hway generalizing scene current with
  | here self =>
      cases current with
      | none =>
          cases hclimb
          exact hseen
      | some carrier =>
          cases hclimb
          exact hseen
  | @up self above top way hdirect hrest ih =>
      have habove := h.sound.superclass hself hdirect
      cases current with
      | none =>
          have hacts := acts_resolveDefault host habove h
          obtain ⟨hgrows, hnext⟩ := grows_of_effects hacts h
          cases hfound : scene.result (resolveDefault above) with
          | error error =>
              rw [climb, result_bind_error hfound] at hclimb
              cases hclimb
          | ok next =>
              rw [climb, result_bind_ok hfound] at hclimb
              refine ih hnext (hgrows.classes above habove)
                (isSeen_of_resolveDefault h.sound habove hfound) ?_ hclimb
              intro carrier hcarrier
              exact Or.inl (((settled_resolveDefault habove).holds hfound).1 carrier hcarrier)
      | some carrier =>
          obtain ⟨hlevel, rfl⟩ := Carrier.at_class (hseen.location carrier rfl)
          have hcarrier := hknown carrier rfl
          have hacts := acts_directSupertype host h functions hcarrier hlevel hdirect
          obtain ⟨hgrows, hnext⟩ := grows_of_effects hacts h
          cases hfound : scene.result (directSupertype host functions carrier above) with
          | error error =>
              rw [climb, result_bind_error hfound] at hclimb
              cases hclimb
          | ok next =>
              rw [climb, result_bind_ok hfound] at hclimb
              refine ih hnext (hgrows.classes above habove)
                (h.isSeen_of_directSupertype hcarrier hdirect hfound) ?_ hclimb
              intro other hother
              exact Or.inl ((settled_directSupertype host h.sound functions hcarrier
                habove).holds hfound other hother)

/-- A climb within the limit finds what is seen of every class on its way, and goes on from
there. -/
theorem Recalling.passes (h : scene.Recalling host) (functions : Registry) {carrier : Carrier}
    (hcarrier : scene.Knows carrier) (hlevel : carrier.isClassLevel) {middle top : Class}
    {lower upper : List Class} (hlower : carrier.owner.Climbs lower middle)
    (hupper : middle.Climbs upper top) {found : Option Carrier}
    (hfound : scene.result (supertypeCarrier host functions carrier top) = .ok found) :
    lower.length + upper.length ≤ scene.world.store.config.maxSupertypeDepth ∧
    ∃ between, scene.result (supertypeCarrier host functions carrier middle) = .ok between ∧
      let passed := scene.after (supertypeCarrier host functions carrier middle)
      passed.result (climb host functions between upper) = .ok found ∧
        scene.after (supertypeCarrier host functions carrier top) =
          passed.after (climb host functions between upper) := by
  have hexec := exec_supertypeCarrier host h.sound functions hcarrier hlevel (hlower.trans hupper)
  have hmiddle := exec_supertypeCarrier host h.sound functions hcarrier hlevel hlower
  dsimp only at hexec hmiddle
  rw [List.length_append] at hexec
  by_cases hlimit : scene.world.store.config.maxSupertypeDepth < lower.length + upper.length
  · rw [result, hexec, if_pos hlimit] at hfound
    cases hfound
  · rw [if_neg hlimit, climb_append] at hexec
    rw [if_neg (by omega)] at hmiddle
    refine ⟨Nat.le_of_not_lt hlimit, ?_⟩
    simp only [result, after, hexec, hmiddle] at hfound ⊢
    rcases hrun : exec (climb host functions (some carrier) lower) scene.world with
      ⟨error | between, next⟩
    · rw [exec_bind_error hrun] at hfound
      cases hfound
    · rw [exec_bind_ok hrun] at hfound ⊢
      exact ⟨between, rfl, hfound, rfl⟩

/-- Whatever a climb from a class-level carrier finds is a carrier of the class it climbed to. -/
theorem Recalling.location_of_supertypeCarrier (h : scene.Recalling host) (functions : Registry)
    {carrier : Carrier} (hcarrier : scene.Knows carrier) (hlevel : carrier.isClassLevel)
    {top : Class} {way : List Class} (hway : carrier.owner.Climbs way top) {own : Carrier}
    (hfound : scene.result (supertypeCarrier host functions carrier top) = .ok (some own)) :
    own.location = .ofClass top := by
  rw [result, exec_supertypeCarrier host h.sound functions hcarrier hlevel hway] at hfound
  dsimp only at hfound
  split at hfound
  · cases hfound
  · cases hway with
    | here =>
        cases hfound
        exact Carrier.isClassLevel_iff.mp hlevel
    | @up _ above _ rest hdirect hrest =>
        have hacts := acts_directSupertype host h functions hcarrier hlevel hdirect
        obtain ⟨hgrows, hnext⟩ := grows_of_effects hacts h
        have habove := h.sound.superclass (h.sound.owner carrier hcarrier) hdirect
        have hclimb : scene.result (climb host functions (some carrier) (above :: rest)) =
            .ok (some own) := hfound
        cases hstep : scene.result (directSupertype host functions carrier above) with
        | error error =>
            rw [climb, result_bind_error hstep] at hclimb
            cases hclimb
        | ok next =>
            rw [climb, result_bind_ok hstep] at hclimb
            have hknown : ∀ other, next = some other →
                (scene.after (directSupertype host functions carrier above)).Knows other :=
              fun other hother => Or.inl ((settled_directSupertype host h.sound functions hcarrier
                habove).holds hstep other hother)
            exact (hnext.isSeen_of_climb functions hrest (hgrows.classes above habove)
              (h.isSeen_of_directSupertype hcarrier hdirect hstep) hknown hclimb).location own rfl

/-- The carrier of an ancestor is seen through the carrier of any class between, and climbing in two
parts leaves what climbing at once leaves. -/
theorem Recalling.seen_through (h : scene.Recalling host) (functions : Registry)
    {carrier : Carrier} (hcarrier : scene.Knows carrier) (hlevel : carrier.isClassLevel)
    {middle top : Class} {lower upper : List Class} (hlower : carrier.owner.Climbs lower middle)
    (hupper : middle.Climbs upper top) {found : Option Carrier}
    (hfound : scene.result (supertypeCarrier host functions carrier top) = .ok found) :
    let passed := scene.after (supertypeCarrier host functions carrier middle)
    ∃ between, scene.result (supertypeCarrier host functions carrier middle) = .ok between ∧
      scene.Grows passed ∧
      passed.Grows (scene.after (supertypeCarrier host functions carrier top)) ∧
      ∀ own, between = some own → passed.Knows own ∧
        passed.result (supertypeCarrier host functions own top) = .ok found ∧
        passed.after (supertypeCarrier host functions own top) =
          scene.after (supertypeCarrier host functions carrier top) := by
  intro passed
  have howner := h.sound.owner carrier hcarrier
  obtain ⟨hlimit, between, hbetween, hrest, hafter⟩ :=
    h.passes functions hcarrier hlevel hlower hupper hfound
  have hsettled := settled_supertypeCarrier host h.sound functions hcarrier middle
  have hgrows : scene.Grows passed := hsettled.grows
  have hupward : passed.Grows (scene.after (supertypeCarrier host functions carrier top)) := by
    rw [hafter]
    refine (settled_climb host (hgrows.sound h.sound) functions between
      (hsettled.holds hbetween) upper ?_).grows
    intro above habove
    obtain ⟨rest, hlineage⟩ := hupper.lineage_eq
    apply (hgrows.sound h.sound).lineage middle
      (hgrows.classes middle (h.sound.mem_of_climbs howner hlower))
    rw [hlineage]
    simp [habove]
  refine ⟨between, hbetween, hgrows, hupward, ?_⟩
  rintro own rfl
  obtain ⟨hownLevel, rfl⟩ := Carrier.at_class
    (h.location_of_supertypeCarrier functions hcarrier hlevel hlower hbetween)
  have hown : passed.Knows own := hsettled.holds hbetween own rfl
  have hexec := exec_supertypeCarrier host (hgrows.sound h.sound) functions hown hownLevel
    hupper
  rw [hgrows.world.config, if_neg (by omega)] at hexec
  refine ⟨hown, ?_, ?_⟩
  · rw [result, hexec]
    exact hrest
  · rw [after, hexec, hafter]
    rfl

/-- Carriers are stored for specializable locations only. -/
theorem Reachable.specializable (h : scene.Reachable host) :
    ∀ carrier ∈ scene.world.store.carriers, carrier.location.defaults.isSome := by
  apply h.induction
  · exact fun _ _ _ hcarrier => nomatch hcarrier
  · intro scene next _ hscene heffect carrier hcarrier
    rcases heffect.carriers with hsame | ⟨made, hmade, hdefaults⟩
    · exact hscene carrier (hsame ▸ hcarrier)
    · rw [hmade] at hcarrier
      rcases List.mem_cons.mp hcarrier with rfl | hold
      · exact hdefaults
      · exact hscene carrier hold

section Stored

variable (functions : Registry) (h : scene.Reachable host) {carrier : Carrier}
  (hcarrier : carrier ∈ scene.world.store.carriers) (hlevel : carrier.isClassLevel)

include h hcarrier hlevel

theorem Reachable.isSeen_owner : carrier.owner.IsSeen (some carrier) := by
  have hlocation := Carrier.isClassLevel_iff.mp hlevel
  have hdefaults := h.specializable carrier hcarrier
  rw [hlocation] at hdefaults
  have hspecializable : carrier.owner.isSpecializable := hdefaults
  refine ⟨by simp [hspecializable], ?_⟩
  rintro other ⟨⟩
  exact hlocation

theorem Reachable.isSeen_of_supertypeCarrier {top : Class} {way : List Class}
    (hway : carrier.owner.Climbs way top) {found : Option Carrier}
    (hfound : scene.result (supertypeCarrier host functions carrier top) = .ok found) :
    top.IsSeen found := by
  have hscene := h.recalling
  have hknown : scene.Knows carrier := Or.inl hcarrier
  rw [result, exec_supertypeCarrier host hscene.sound functions hknown hlevel hway] at hfound
  dsimp only at hfound
  split at hfound
  · cases hfound
  · apply hscene.isSeen_of_climb functions hway (hscene.sound.owner carrier hknown)
      (h.isSeen_owner hcarrier hlevel) ?_ hfound
    rintro other ⟨⟩
    exact hknown

theorem Reachable.supertypeCarrier_eq_error {top : Class} (htop : top ∈ scene.classes)
    (descriptor : Descriptor) :
    let limit := scene.world.store.config.maxSupertypeDepth
    let climbed := scene.result (supertypeCarrier host functions carrier top)
    (∀ ancestor, climbed = .error (.notASupertype descriptor ancestor) ↔
      top ∉ carrier.owner.lineage ∧ descriptor = carrier.owner.descriptor ∧
        ancestor = top.descriptor) ∧
    ∀ bound, climbed = .error (.supertypeDepthExceeded descriptor bound) ↔
      (∃ distance, carrier.owner.lineage[distance]? = some top ∧ limit < distance) ∧
        descriptor = carrier.owner.descriptor ∧ bound = limit := by
  intro limit climbed
  have hsound := h.sound
  have hknown : scene.Knows carrier := Or.inl hcarrier
  by_cases hmem : top ∈ carrier.owner.lineage
  · obtain ⟨way, hway⟩ := Class.climbs_of_mem hmem
    have hexec : climbed = _ :=
      congrArg Prod.fst (exec_supertypeCarrier host hsound functions hknown hlevel hway)
    -- No class occurs twice on the chain, so the distance is the length of the way.
    have hlength : ∀ distance, carrier.owner.lineage[distance]? = some top →
        distance = way.length := by
      intro distance hdistance
      obtain ⟨other, hother, rfl⟩ := Class.climbs_of_getElem? hdistance
      have howner := hsound.owner carrier hknown
      exact Option.some.inj
        ((hsound.distanceTo? howner hother).symm.trans (hsound.distanceTo? howner hway))
    dsimp only at hexec
    by_cases hfar : limit < way.length
    · rw [if_pos hfar] at hexec
      rw [hexec]
      refine ⟨by simp [hmem], fun bound => ⟨?_, ?_⟩⟩
      · rintro ⟨⟩
        exact ⟨⟨way.length, hway.getElem?_lineage, hfar⟩, rfl, rfl⟩
      · rintro ⟨_, rfl, rfl⟩
        rfl
    · rw [if_neg hfar] at hexec
      have hproceeds := proceeds_climb host functions (some carrier) way scene.world
      rw [← hexec] at hproceeds
      refine ⟨fun ancestor => ⟨?_, fun ⟨hnot, _⟩ => absurd hmem hnot⟩, fun bound => ⟨?_, ?_⟩⟩
      · intro herror
        cases hproceeds _ herror
      · intro herror
        cases hproceeds _ herror
      · rintro ⟨⟨distance, hdistance, hexceeds⟩, _⟩
        obtain rfl := hlength distance hdistance
        exact absurd hexceeds hfar
  · have hexec : climbed = _ := congrArg Prod.fst
      (exec_supertypeCarrier_of_not_mem host hsound functions hknown htop hmem)
    rw [hexec]
    refine ⟨fun ancestor => ⟨?_, ?_⟩, fun bound => ⟨nofun, ?_⟩⟩
    · rintro ⟨⟩
      exact ⟨hmem, rfl, rfl⟩
    · rintro ⟨_, rfl, rfl⟩
      rfl
    · rintro ⟨⟨distance, hdistance, _⟩, _⟩
      exact absurd (List.mem_of_getElem? hdistance) hmem

end Stored

/-- The carrier of an ancestor is seen through every class between, and it stays so. What is seen of
an ancestor is a carrier of it, or nothing if it has no specializations, and a carrier sees itself
in its own class. A climb is refused if it leads to no superclass, or if it is too far. -/
theorem supertypeCarrier_laws (functions : Registry) (h : scene.Reachable host)
    {carrier : Carrier} (hcarrier : carrier ∈ scene.world.store.carriers)
    (hlevel : carrier.isClassLevel) :
    let seen (scene : Scene) (carrier : Carrier) (top : Class) : Except Error (Option Carrier) :=
      scene.result (supertypeCarrier host functions carrier top)
    let climbed (top : Class) : Scene :=
      scene.after (supertypeCarrier host functions carrier top)
    let limit := scene.world.store.config.maxSupertypeDepth
    (∀ middle ∈ carrier.owner.lineage, ∀ top ∈ middle.lineage, ∀ found,
      seen scene carrier top = .ok found →
        ∃ between, seen scene carrier middle = .ok between ∧
          (∀ own, between = some own → seen (climbed middle) own top = .ok found) ∧
          ∀ later, (climbed top).Grows later → seen later carrier middle = .ok between ∧
            ∀ own, between = some own → seen later own top = .ok found) ∧
    (∀ top ∈ scene.classes, ∀ found, seen scene carrier top = .ok found →
      (found = none ↔ ¬ top.isSpecializable) ∧
        ∀ own, found = some own → own.isClassLevel ∧ own.location = .ofClass top) ∧
    seen scene carrier carrier.owner = .ok (some carrier) ∧
    ∀ top ∈ scene.classes, ∀ descriptor,
      (∀ ancestor, seen scene carrier top = .error (.notASupertype descriptor ancestor) ↔
        top ∉ carrier.owner.lineage ∧ descriptor = carrier.owner.descriptor ∧
          ancestor = top.descriptor) ∧
      ∀ bound, seen scene carrier top = .error (.supertypeDepthExceeded descriptor bound) ↔
        (∃ distance, carrier.owner.lineage[distance]? = some top ∧ limit < distance) ∧
          descriptor = carrier.owner.descriptor ∧ bound = limit := by
  intro seen climbed limit
  have hsound := h.sound
  have hknown : scene.Knows carrier := Or.inl hcarrier
  have hrefused : ∀ top ∈ scene.classes, _ := fun top htop =>
    h.supertypeCarrier_eq_error functions hcarrier hlevel htop
  refine ⟨?through, ?kind, ?own, hrefused⟩
  case through =>
    intro middle hmiddle top htop found hfound
    obtain ⟨lower, hlower⟩ := Class.climbs_of_mem hmiddle
    obtain ⟨upper, hupper⟩ := Class.climbs_of_mem htop
    obtain ⟨between, hbetween, hgrows, hupward, hown⟩ :=
      h.recalling.seen_through functions hknown hlevel hlower hupper hfound
    refine ⟨between, hbetween, fun own heq => (hown own heq).2.1, ?_⟩
    intro later hlater
    have hsettled := settled_supertypeCarrier host hsound functions hknown middle
    refine ⟨hsettled.again hbetween (hupward.trans hlater), ?_⟩
    intro own heq
    obtain ⟨hownKnown, hresult, hafter⟩ := hown own heq
    have hsettled' := settled_supertypeCarrier host (hgrows.sound hsound) functions hownKnown top
    exact hsettled'.again hresult (hafter ▸ hlater)
  case kind =>
    intro top htop found hfound
    have hmem : top ∈ carrier.owner.lineage := by
      by_contra hnot
      have hrefused := ((hrefused top htop carrier.owner.descriptor).1 top.descriptor).mpr
        ⟨hnot, rfl, rfl⟩
      exact nomatch hfound.symm.trans hrefused
    obtain ⟨way, hway⟩ := Class.climbs_of_mem hmem
    have hseen := h.isSeen_of_supertypeCarrier functions hcarrier hlevel hway hfound
    refine ⟨hseen.none_iff, fun own heq => ?_⟩
    exact ⟨(Carrier.at_class (hseen.location own heq)).1, hseen.location own heq⟩
  case own =>
    have hstay := exec_supertypeCarrier host hsound functions hknown hlevel
      (.here carrier.owner)
    exact congrArg Prod.fst hstay

/-- Classes are loaded in order, and a carrier of the last one is made. -/
def afterLoading (specs : List ClassSpec) (requested : Option Value) : Scene :=
  let loaded := specs.foldl defineClass (start { synthesizeBackingTypes := false } .standard)
  match loaded.classes with
  | last :: _ => loaded.after (resolve (.ofClass last) requested)
  | [] => loaded

theorem afterLoading_reachable (specs : List ClassSpec) (requested : Option Value) :
    (afterLoading specs requested).Reachable host := by
  have hloaded : ∀ scene : Scene,
      Relation.ReflTransGen (Move host) scene (specs.foldl defineClass scene) := by
    induction specs with
    | nil => exact fun _ => .refl
    | cons spec rest ih => exact fun scene => .head (.define spec) (ih _)
  refine ⟨{ synthesizeBackingTypes := false }, .standard, ?_⟩
  unfold afterLoading
  dsimp only
  split
  · rename_i last rest hclasses
    have hlast : last ∈ (specs.foldl defineClass _).classes := hclasses ▸ List.mem_cons_self
    exact (hloaded _).tail (.resolve hlast requested)
  · exact hloaded _

/-- A chain of four classes. The lowest one maps its superclass to its own parameters, and the third
one has no specializations. -/
def chainScene : Scene :=
  afterLoading [
    { descriptor := "Base", defaults := ["Object"] },
    { descriptor := "Plain", superclass := some "Base" },
    { descriptor := "Middle", superclass := some "Plain", defaults := ["Object"] },
    { descriptor := "Leaf"
      superclass := some "Middle"
      defaults := ["Object"]
      anchors := [{ name := "T", level := .ofClass }]
      constants := [
        { name := "T", action := "anchor" },
        { name := "middle", action := "type", operands := [.type "Middle"] },
        { name := "applied", action := "species", operands := [.ref "middle", .ref "T"] },
        { name := "above", action := "super", operands := [.ref "applied"] }] }]
    (some (.type "String"))

def chainCarrier : Carrier :=
  chainScene.world.store.carriers.head (List.cons_ne_nil _ _)

/-- The second class is seen as it is mapped to, the third one has no carrier to see, and the fourth
one takes its defaults, seen from the first class or from the second. -/
theorem supertypeCarrier_laws_chain :
    ∃ (host : Host) (middle plain top : Class) (own found : Carrier),
      chainCarrier.owner.lineage = [chainCarrier.owner, middle, plain, top] ∧
      let climb (carrier : Carrier) (top : Class) := supertypeCarrier host .standard carrier top
      chainScene.result (climb chainCarrier top) = .ok (some found) ∧
        chainScene.result (climb chainCarrier plain) = .ok none ∧
        chainScene.result (climb chainCarrier middle) = .ok (some own) ∧
        (chainScene.after (climb chainCarrier middle)).result (climb own top) = .ok (some found) ∧
        (chainScene.after (climb chainCarrier top)).result (climb own top) = .ok (some found) ∧
        own.classParameters = some (.type "String") ∧
        found.classParameters = some (.type "Object") := by
  let host : Host := fun _ _ => .error "absent"
  let middle : Class := chainCarrier.owner.superclass?.get rfl
  let plain : Class := middle.superclass?.get rfl
  let top : Class := plain.superclass?.get rfl
  let climb (carrier : Carrier) (top : Class) := supertypeCarrier host .standard carrier top
  obtain ⟨found, hfound, hdefault⟩ : ∃ found,
      chainScene.result (climb chainCarrier top) = .ok (some found) ∧
        found.classParameters = some (.type "Object") := ⟨_, rfl, rfl⟩
  obtain ⟨own, hown, hmapped⟩ : ∃ own,
      chainScene.result (climb chainCarrier middle) = .ok (some own) ∧
        own.classParameters = some (.type "String") := ⟨_, rfl, rfl⟩
  have hmiddle : middle ∈ chainCarrier.owner.lineage := .tail _ (.head _)
  have htop : top ∈ middle.lineage := .tail _ (.tail _ (.head _))
  have hplain : plain ∈ chainScene.classes := .tail _ (.tail _ (.head _))
  have hstored : chainCarrier ∈ chainScene.world.store.carriers := List.head_mem _
  have hreachable : chainScene.Reachable host := afterLoading_reachable _ _
  obtain ⟨hthrough, hkind, _⟩ := supertypeCarrier_laws .standard hreachable hstored rfl
  obtain ⟨between, hbetween, hsees, hlater⟩ := hthrough middle hmiddle top htop (some found) hfound
  obtain rfl : some own = between := Except.ok.inj (hown.symm.trans hbetween)
  obtain ⟨nothing, hnothing⟩ : ∃ nothing, chainScene.result (climb chainCarrier plain) =
      .ok nothing := ⟨_, rfl⟩
  have hnone : nothing = none := (hkind plain hplain nothing hnothing).1.mpr Bool.false_ne_true
  refine ⟨host, middle, plain, top, own, found, rfl, hfound, hnone ▸ hnothing, hown,
    hsees own rfl, (hlater _ (Grows.refl _)).2 own rfl, hmapped, hdefault⟩

end Scene

end Specialization

import Mathlib.Data.List.Nodup
import Mathlib.Data.List.Pairwise
import Specialization.Proofs.World.Trace

/-!
Well-formed stores. A store keeps one carrier for each location with erased parameters, made for
the very location and parameters under which it is kept, and it numbers the backing types of the
class-level carriers in the order in which they are made. Whatever is done to a store, it keeps this
order, also where a climb fails halfway; what it remembers of supertypes then speaks of its own
carriers, as long as it is given no others. So what a carrier says of itself leads back to it.
-/

namespace Specialization

/-- The name of a backing type that comes after `number` others. -/
def Class.backingName (self : Class) (number : Nat) : String :=
  self.descriptor ++ "$Carrier$" ++ Decimal.naturalText number

theorem Decimal.naturalText_injective : Function.Injective Decimal.naturalText := by
  intro m n h
  have hdigits : Nat.toDigits 10 m = Nat.toDigits 10 n := String.ofList_injective h
  calc
    m = Nat.ofDigitChars 10 (Nat.toDigits 10 m) 0 := Nat.ofDigitChars_ten_toDigits.symm
    _ = Nat.ofDigitChars 10 (Nat.toDigits 10 n) 0 := by rw [hdigits]
    _ = n := Nat.ofDigitChars_ten_toDigits

/-- What comes after the last mark in a text can be read off its end. -/
theorem takeWhile_reverse_append {mark : Char} (front : List Char) {last : List Char}
    (h : mark ∉ last) : (front ++ mark :: last).reverse.takeWhile (· != mark) = last.reverse := by
  have hlast : ∀ c ∈ last.reverse, (c != mark) = true := by
    intro c hc
    rw [bne_iff_ne]
    rintro rfl
    exact h (List.mem_reverse.mp hc)
  rw [List.reverse_append, List.reverse_cons, List.append_assoc,
    List.takeWhile_append_of_pos hlast]
  simp

/-- The number stands at the end of the name, whatever the class is called. -/
theorem Class.number_of_backingName {a b : Class} {m n : Nat}
    (h : a.backingName m = b.backingName n) : m = n := by
  have hplain : ∀ n, '$' ∉ (Decimal.naturalText n).toList := by
    intro n hmem
    rw [Decimal.naturalText, String.toList_ofList] at hmem
    have hdigit : '$'.isDigit = true := Nat.isDigit_of_mem_toDigits (by omega) (by omega) hmem
    cases hdigit
  have htext : ∀ (self : Class) (n : Nat), (self.backingName n).toList =
      (self.descriptor.toList ++ "$Carrier".toList) ++ '$' :: (Decimal.naturalText n).toList := by
    intro self n
    simp [backingName]
  have hchars := congrArg (fun name => name.toList.reverse.takeWhile (· != '$')) h
  simp only [htext, takeWhile_reverse_append _ (hplain _)] at hchars
  exact Decimal.naturalText_injective (String.toList_injective (List.reverse_injective hchars))

namespace Store

/-- The class-level carriers in the order in which they were made. -/
def classLevel (store : Store) : List Carrier :=
  store.carriers.reverse.filter Carrier.isClassLevel

/-- What the entries of a store say by themselves, and what is counted of their carriers. -/
structure Orderly (store : Store) : Prop where
  /-- No two entries have the same location and the same parameters. -/
  distinct : store.entries.Pairwise fun a b =>
    ¬ (a.location == b.location ∧ a.parameters == b.parameters)
  erased : ∀ entry ∈ store.entries, ∃ default, entry.location.defaults = some default ∧
    erase (some entry.parameters) default = entry.parameters
  unnamed : ∀ carrier ∈ store.carriers,
    ¬ (store.config.synthesizeBackingTypes ∧ carrier.isClassLevel) → carrier.backing = none
  named : store.config.synthesizeBackingTypes → store.classLevel.map Carrier.backingName? =
    store.classLevel.mapIdx fun number carrier => some (carrier.owner.backingName number)
  counted : store.config.synthesizeBackingTypes → store.backingNames = store.classLevel.length

variable {store : Store}

theorem Orderly.of_same (h : store.Orderly) {later : Store} (hconfig : later.config = store.config)
    (hentries : later.entries = store.entries)
    (hcounted : later.backingNames = store.backingNames) : later.Orderly := by
  have hcarriers : later.carriers = store.carriers := by rw [carriers, hentries, carriers]
  have hlevel : later.classLevel = store.classLevel := by rw [classLevel, hcarriers, classLevel]
  constructor
  · rw [hentries]
    exact h.distinct
  · rw [hentries]
    exact h.erased
  · rw [hcarriers, hconfig]
    exact h.unnamed
  · rw [hconfig, hlevel]
    exact h.named
  · rw [hconfig, hlevel, hcounted]
    exact h.counted

/-- A carrier is found under the key of its entry. -/
theorem Orderly.found (h : store.Orderly) {entry : Entry} (hentry : entry ∈ store.entries) :
    store.find? entry.location entry.parameters = some entry.carrier := by
  cases hfound : store.find? entry.location entry.parameters with
  | none => exact absurd ⟨BEq.rfl, BEq.rfl⟩ (find?_eq_none.mp hfound entry hentry)
  | some carrier =>
      obtain ⟨other, hother, rfl, hlocation, hparameters⟩ := entry_of_find? hfound
      by_contra hne
      have hdiffer : other ≠ entry := by
        rintro rfl
        exact hne rfl
      have hsymm : Std.Symm fun a b : Entry =>
          ¬ (a.location == b.location ∧ a.parameters == b.parameters) :=
        ⟨fun a b hab hba => hab ⟨BEq.symm hba.1, BEq.symm hba.2⟩⟩
      exact h.distinct.forall hother hentry hdiffer ⟨hlocation, hparameters⟩

/-- Where carriers are made for their keys, no carrier has two entries. -/
theorem Orderly.nodup (h : store.Orderly) (hmade : ∀ entry ∈ store.entries,
    entry.carrier.MadeFor entry.location entry.parameters) : store.carriers.Nodup := by
  rw [carriers, List.Nodup, List.pairwise_map]
  apply h.distinct.imp_of_mem
  intro a b ha hb hkeys heq
  have hlocation : a.location = b.location := by
    rw [← (hmade a ha).located, heq, (hmade b hb).located]
  have hparameters : a.parameters = b.parameters := by
    have hown := (hmade b hb).ownParameters
    rw [← heq, (hmade a ha).ownParameters] at hown
    exact Option.some.inj hown
  rw [hlocation, hparameters] at hkeys
  exact hkeys ⟨BEq.rfl, BEq.rfl⟩

/-- The backing type of a class-level carrier has the number of those before it. -/
theorem Orderly.backing_of_level (h : store.Orderly) (hnames : store.config.synthesizeBackingTypes)
    {number : Nat} {carrier : Carrier} (hcarrier : store.classLevel[number]? = some carrier) :
    carrier.backingName? = some (carrier.owner.backingName number) := by
  have hnamed := congrArg (fun names => names[number]?) (h.named hnames)
  simpa [hcarrier] using hnamed

theorem mem_classLevel {carrier : Carrier} :
    carrier ∈ store.classLevel ↔ carrier ∈ store.carriers ∧ carrier.isClassLevel := by
  simp [classLevel]

theorem Orderly.isSome_backing (h : store.Orderly) {carrier : Carrier}
    (hcarrier : carrier ∈ store.carriers) :
    carrier.backing.isSome ↔ store.config.synthesizeBackingTypes ∧ carrier.isClassLevel := by
  constructor
  · intro hbacking
    by_contra hplain
    rw [h.unnamed carrier hcarrier hplain] at hbacking
    cases hbacking
  · rintro ⟨hnames, hlevel⟩
    obtain ⟨number, hnumber⟩ :=
      List.mem_iff_getElem?.mp (mem_classLevel.mpr ⟨hcarrier, hlevel⟩)
    have hname := Option.isSome_of_eq_some (h.backing_of_level hnames hnumber)
    rwa [Carrier.backingName?, Option.isSome_map] at hname

/-- A backing type belongs to one carrier, which its name tells. -/
theorem Orderly.eq_of_backing (h : store.Orderly) {a b : Carrier} (ha : a ∈ store.carriers)
    (hb : b ∈ store.carriers) {name : String} (hname : a.backingName? = some name)
    (hname' : b.backingName? = some name) : a = b := by
  have hlevelOf : ∀ carrier ∈ store.carriers, carrier.backingName? = some name →
      store.config.synthesizeBackingTypes ∧ carrier.isClassLevel := by
    intro carrier hcarrier hnamed
    have hbacking := Option.isSome_of_eq_some hnamed
    rw [Carrier.backingName?, Option.isSome_map] at hbacking
    exact (h.isSome_backing hcarrier).mp hbacking
  obtain ⟨hnames, hlevel⟩ := hlevelOf a ha hname
  obtain ⟨_, hlevel'⟩ := hlevelOf b hb hname'
  obtain ⟨m, hm⟩ := List.mem_iff_getElem?.mp (mem_classLevel.mpr ⟨ha, hlevel⟩)
  obtain ⟨n, hn⟩ := List.mem_iff_getElem?.mp (mem_classLevel.mpr ⟨hb, hlevel'⟩)
  rw [h.backing_of_level hnames hm] at hname
  rw [h.backing_of_level hnames hn, ← hname] at hname'
  obtain rfl := Class.number_of_backingName (Option.some.inj hname')
  exact Option.some.inj (hm.symm.trans hn)

/-- A new carrier is filed under a key that no other carrier has, and takes the next number if it
gets a backing type. -/
theorem Orderly.addCarrier {world : World} (h : world.store.Orderly) {location : Location}
    {requested : Option Value} {default : Value} (hdefaults : location.defaults = some default)
    (hnew : world.store.find? location (erase requested default) = none) :
    (world.addCarrier location (erase requested default)).2.store.Orderly := by
  let made := (world.addCarrier location (erase requested default)).1
  let later := (world.addCarrier location (erase requested default)).2.store
  have hentries : later.entries =
      { location, parameters := erase requested default, carrier := made } ::
        world.store.entries := rfl
  have hcarriers : later.carriers = made :: world.store.carriers := rfl
  have hlevel : later.classLevel = world.store.classLevel ++
      if location.isClassLevel then [made] else [] := by
    have hmade : made.isClassLevel = location.isClassLevel := rfl
    rw [classLevel, hcarriers, List.reverse_cons, List.filter_append, classLevel,
      List.filter_singleton, hmade]
    cases location.isClassLevel <;> rfl
  constructor
  · rw [hentries]
    refine List.pairwise_cons.mpr ⟨?_, h.distinct⟩
    rintro other hother ⟨hlocation, hparameters⟩
    exact find?_eq_none.mp hnew other hother ⟨BEq.symm hlocation, BEq.symm hparameters⟩
  · rw [hentries]
    intro entry hentry
    rcases List.mem_cons.mp hentry with rfl | hold
    · exact ⟨default, hdefaults, erase_idem requested default⟩
    · exact h.erased entry hold
  · rw [hcarriers]
    intro carrier hcarrier hplain
    rcases List.mem_cons.mp hcarrier with rfl | hold
    · have hunnamed : (world.store.config.synthesizeBackingTypes && location.isClassLevel) =
          false := by
        rw [Bool.eq_false_iff, ne_eq, Bool.and_eq_true]
        exact hplain
      simp [made, World.addCarrier, World.makeCarrier, Carrier.synthesize, hunnamed]
    · exact h.unnamed carrier hold hplain
  · intro hnames
    rw [hlevel]
    cases hlocation : location.isClassLevel with
    | false => simpa using h.named hnames
    | true =>
        have hbacking : made.backingName? =
            some (made.owner.backingName world.store.classLevel.length) := by
          have hnames' : world.store.config.synthesizeBackingTypes = true := hnames
          rw [← h.counted hnames]
          simp [made, World.addCarrier, World.makeCarrier, Carrier.synthesize,
            Carrier.backingName?, Carrier.owner, Class.backingName, hnames', hlocation]
        rw [if_pos rfl, List.map_append, List.mapIdx_concat, h.named hnames]
        simp [hbacking]
  · intro hnames
    have hnumbers : later.backingNames = if location.isClassLevel then
        world.store.backingNames + 1 else world.store.backingNames := by
      have hnames' : world.store.config.synthesizeBackingTypes = true := hnames
      simp only [later, World.addCarrier, World.makeCarrier, World.keepCarrier, hnames',
        Bool.true_and]
    rw [hlevel, hnumbers, h.counted hnames]
    cases location.isClassLevel <;> simp

end Store

/-- All that happens to a store keeps it in order. -/
theorem World.Traced.orderly {before after : World} {trace : List Resolution}
    (h : before.Traced trace after) (hbefore : before.store.Orderly) : after.store.Orderly := by
  induction h with
  | quiet hquiet =>
      rw [Quiet] at hquiet
      rw [hquiet]
      exact hbefore.of_same rfl rfl rfl
  | @resolved before _ location requested _ hrun =>
      obtain ⟨parameters, herased, ⟨_, rfl⟩ | ⟨hnew, hmade⟩⟩ := exec_resolve_eq_ok hrun
      · exact hbefore.of_same rfl rfl rfl
      · obtain ⟨default, hdefaults, rfl⟩ := Option.map_eq_some_iff.mp herased
        cases hmade
        have hcounted : ({ before with store :=
            { before.store with misses := before.store.misses + 1 } } : World).store.Orderly :=
          hbefore.of_same rfl rfl rfl
        exact hcounted.addCarrier hdefaults hnew
  | append _ _ ih ih' => exact ih' (ih hbefore)

namespace Scene

variable {host : Host} {scene next : Scene}

theorem Effect.orderly (h : scene.Effect host next) (horderly : scene.world.store.Orderly) :
    next.world.store.Orderly := by
  obtain ⟨trace, htrace⟩ := h.traced
  exact htrace.orderly horderly

theorem start_orderly (config : Config) (functions : Registry) :
    (start config functions).world.store.Orderly where
  distinct := .nil
  erased _ h := nomatch h
  unnamed _ h := nomatch h
  named _ := rfl
  counted _ := rfl

theorem Reachable.orderly (h : scene.Reachable host) : scene.world.store.Orderly :=
  h.induction start_orderly fun _ _ _ horderly heffect => heffect.orderly horderly

/-- One step of a program that gives its store no carriers but those that the store made. Other
stores may make carriers meanwhile, and these take numbers. -/
inductive OwnMove (host : Host) (scene : Scene) : Scene → Prop
  | own {next : Scene} (hmove : scene.Move host next) (hforeign : next.foreign = []) :
      OwnMove host scene next
  | elsewhere : OwnMove host scene { scene with world := { scene.world with
      nextCarrier := scene.world.nextCarrier + 1 } }

/-- The scenes that a program can reach that way. -/
def OwnReachable (host : Host) (scene : Scene) : Prop :=
  ∃ config functions, Relation.ReflTransGen (OwnMove host) (start config functions) scene

theorem OwnReachable.tail (h : scene.OwnReachable host) (hmove : scene.OwnMove host next) :
    next.OwnReachable host := by
  obtain ⟨config, functions, hmoves⟩ := h
  exact ⟨config, functions, hmoves.tail hmove⟩

theorem Grows.skipCarrier : scene.Grows { scene with world := { scene.world with
    nextCarrier := scene.world.nextCarrier + 1 } } where
  world := { World.Grows.refl scene.world with }
  classes _ hself := hself
  foreign _ hcarrier := hcarrier
  sound h := { h with
    carrier_fresh := fun carrier hcarrier =>
      Nat.lt_succ_of_lt (h.carrier_fresh carrier hcarrier) }

/-- What effects do to a store in order, the moves of the program do. -/
theorem effects_orderly (h : Relation.ReflTransGen (Effect host) scene next)
    (horderly : scene.world.store.Orderly) : next.world.store.Orderly := by
  induction h with
  | refl => exact horderly
  | tail _ heffect ih => exact heffect.orderly ih

theorem OwnReachable.holds (h : scene.OwnReachable host) :
    scene.Recalling host ∧ scene.foreign = [] ∧ scene.world.store.Orderly := by
  obtain ⟨config, functions, hmoves⟩ := h
  induction hmoves with
  | refl => exact ⟨start_recalling config functions, rfl, start_orderly config functions⟩
  | tail _ hmove ih =>
      obtain ⟨hscene, hforeign, horderly⟩ := ih
      cases hmove with
      | own hmove hforeign' =>
          have heffects := hmove.effects hscene
          exact ⟨(grows_of_effects heffects hscene).2, hforeign', effects_orderly heffects horderly⟩
      | elsewhere =>
          refine ⟨⟨Grows.skipCarrier.sound hscene.sound, fun entry hentry => ?_⟩, hforeign,
            horderly⟩
          exact (hscene.entries entry hentry).grow host Grows.skipCarrier

end Scene

/-- A store whose carriers are what their keys say, with the supertypes that it remembers. -/
structure Store.WellFormed (store : Store) : Prop where
  /-- What is found is the carrier of an entry with an equal key, and each carrier is found under
  its key. -/
  lookup : ∀ location parameters carrier, store.find? location parameters = some carrier →
    ∃ entry ∈ store.entries, entry.carrier = carrier ∧ entry.location == location ∧
      entry.parameters == parameters
  found : ∀ entry ∈ store.entries,
    store.find? entry.location entry.parameters = some entry.carrier
  located : ∀ entry ∈ store.entries, entry.carrier.location = entry.location
  /-- Erasure leaves the parameters as they are. -/
  erased : ∀ entry ∈ store.entries, ∃ default, entry.location.defaults = some default ∧
    erase (some entry.parameters) default = entry.parameters
  classLevel : ∀ entry ∈ store.entries, ∀ self, entry.location = .ofClass self →
    entry.carrier.classParameters = some entry.parameters ∧ entry.carrier.methodParameters = none
  methodLevel : ∀ entry ∈ store.entries, ∀ owner classParameters signature,
    entry.location = .method owner classParameters signature →
      entry.carrier.classParameters = classParameters ∧
        entry.carrier.methodParameters = some entry.parameters
  ids : (store.carriers.map Carrier.id).Nodup
  backed : ∀ carrier ∈ store.carriers, carrier.backingType?.isSome ↔
    store.config.synthesizeBackingTypes ∧ carrier.isClassLevel
  backing : ∀ carrier ∈ store.carriers, ∀ type, carrier.backingType? = some type →
    type.raw = carrier.location.owner ∧ type.carrier = carrier
  /-- Backing types are numbered in the order in which the class-level carriers were made. -/
  numbered : store.config.synthesizeBackingTypes → ∀ (number : Nat) (carrier : Carrier),
    store.classLevel[number]? = some carrier →
      carrier.backingName? = some (carrier.owner.backingName number)
  names : ∀ a ∈ store.carriers, ∀ b ∈ store.carriers, ∀ name,
    a.backingName? = some name → b.backingName? = some name → a = b
  /-- What is remembered was found for a class-level carrier and its direct superclass. -/
  supertypes : ∀ entry ∈ store.supertypes, ∃ carrier ∈ store.carriers, ∃ superclass,
    carrier.isClassLevel ∧ carrier.owner.superclass? = some superclass ∧
      entry.1 = (carrier.id, superclass.id) ∧
        ∃ stored ∈ store.entries, stored.location = .ofClass superclass ∧
          stored.carrier = entry.2

namespace Scene

variable {host : Host} {scene : Scene}

/-- A store that is given none but its own carriers is well-formed at all times. -/
theorem OwnReachable.wellFormed (h : scene.OwnReachable host) : scene.world.store.WellFormed := by
  obtain ⟨hscene, hforeign, horderly⟩ := h.holds
  have hmade := hscene.sound.entries
  have hstored : ∀ {carrier}, scene.Knows carrier → carrier ∈ scene.world.store.carriers := by
    rintro carrier (hstored | helsewhere)
    · exact hstored
    · rw [hforeign] at helsewhere
      cases helsewhere
  have hscope : ∀ entry ∈ scene.world.store.entries,
      entry.carrier.classParameters = (entry.location.scope entry.parameters).classParameters ∧
        entry.carrier.methodParameters =
          (entry.location.scope entry.parameters).methodParameters := by
    intro entry hentry
    rw [← (hmade entry hentry).scope]
    exact ⟨rfl, rfl⟩
  constructor
  case lookup => exact fun _ _ _ hfound => Store.entry_of_find? hfound
  case found => exact fun _ hentry => horderly.found hentry
  case located => exact fun entry hentry => (hmade entry hentry).located
  case erased => exact horderly.erased
  case classLevel =>
    intro entry hentry self hlocation
    have hparameters := hscope entry hentry
    rwa [hlocation] at hparameters
  case methodLevel =>
    intro entry hentry owner classParameters signature hlocation
    have hparameters := hscope entry hentry
    rwa [hlocation] at hparameters
  case ids =>
    apply List.Nodup.map_on ?_ (horderly.nodup hmade)
    exact fun a ha b hb => hscene.sound.carrier_unique a b (Or.inl ha) (Or.inl hb)
  case backed =>
    intro carrier hcarrier
    rw [Carrier.backingType?, Option.isSome_map]
    exact horderly.isSome_backing hcarrier
  case backing =>
    intro carrier hcarrier type htype
    obtain ⟨backing, hbacking, rfl⟩ := Option.map_eq_some_iff.mp htype
    obtain ⟨_, hcarrierMade⟩ := hscene.sound.madeFor (Or.inl hcarrier)
    exact ⟨hcarrierMade.raw backing hbacking, rfl⟩
  case numbered => exact fun hnames _ _ hcarrier => horderly.backing_of_level hnames hcarrier
  case names => exact fun _ ha _ hb _ hname hname' => horderly.eq_of_backing ha hb hname hname'
  case supertypes =>
    intro entry hentry
    obtain ⟨carrier, superclass, hcarrier, hlevel, hdirect, hkey, hrecalls⟩ :=
      hscene.entries entry hentry
    obtain ⟨hfound, _⟩ := hscene.sound.supertypes entry hentry
    obtain ⟨parameters, hfiled, _⟩ := hscene.sound.entry_of_stored hfound
    have hseen := isSeen_of_findDirectSupertype host hscene.sound hcarrier
      (hscene.sound.superclass (hscene.sound.owner carrier hcarrier) hdirect)
      (hrecalls .standard scene (Grows.refl scene))
    exact ⟨carrier, hstored hcarrier, superclass, hlevel, hdirect, hkey, _, hfiled,
      hseen.location entry.2 rfl, rfl⟩

/-- A crate of texts is made and seen as a box, then another store makes a carrier, and then a crate
of numbers and a method of it are specialized. -/
theorem wellFormed_shelf :
    ∃ (host : Host) (shelf : Scene), shelf.OwnReachable host ∧ shelf.world.store.WellFormed ∧
      shelf.world.store.classLevel.map (fun carrier => (carrier.id, carrier.owner.descriptor)) =
        [(1, "Crate"), (2, "Box"), (4, "Crate")] ∧
      shelf.world.store.supertypes.map (fun entry => (entry.1, entry.2.id)) = [((1, 0), 2)] ∧
      shelf.world.store.carriers.map Carrier.scope = [⟨some (.type "Number"), some (.type "Object")⟩,
        ⟨some (.type "Number"), none⟩, ⟨some (.type "Object"), none⟩,
        ⟨some (.type "String"), none⟩] := by
  let host : Host := fun _ _ => .error "absent"
  have hstart : (start {} .standard).OwnReachable host := ⟨_, _, .refl⟩
  have hbox := hstart.tail (.own (.define { descriptor := "Box", defaults := ["Object"] }) rfl)
  have hcrate := hbox.tail (.own (.define {
    descriptor := "Crate"
    superclass := some "Box"
    defaults := ["Object"]
    methods := [{ name := "map", implementation := "map", defaults := ["Object"] }]
    constants := [{ name := "map", action := "function", operands := [.function "list.concat"] }]
    }) rfl)
  have htexts := hcrate.tail (.own (.instantiate "Crate" (some (.type "String"))) rfl)
  have hseen := htexts.tail (.own (.supertypeNamed (Or.inl List.mem_cons_self) "Box") rfl)
  have hlater := hseen.tail .elsewhere
  have hnumbers := hlater.tail (.own (.instantiate "Crate" (some (.type "Number"))) rfl)
  have hmap : ∀ {scene : Scene} {self : Class} {rest : List Class}, scene.classes = self :: rest →
      scene.foreign = [] → scene.OwnMove host
        (scene.after (resolve (.ofMethod self (some (.type "Number")) "map") none)) :=
    fun hclasses hforeign => .own (.resolve (hclasses ▸ List.mem_cons_self) none) hforeign
  have hshelf := hnumbers.tail (hmap rfl rfl)
  exact ⟨host, _, hshelf, hshelf.wellFormed, rfl, rfl, rfl⟩

/-- In a store in order, the parameters of a carrier are erased to themselves, and it is found under
them. -/
theorem Sound.resolve_ownParameters (hsound : scene.Sound) (horderly : scene.world.store.Orderly)
    {carrier : Carrier} (hcarrier : carrier ∈ scene.world.store.carriers) :
    ∃ parameters, carrier.ownParameters = some parameters ∧
      scene.result (resolve carrier.location (some parameters)) = .ok carrier := by
  obtain ⟨parameters, hentry, hmade⟩ := hsound.entry_of_stored hcarrier
  obtain ⟨default, hdefaults, herased⟩ := horderly.erased _ hentry
  refine ⟨parameters, hmade.ownParameters, ?_⟩
  rw [result, exec_resolve carrier.location _ hdefaults, herased, horderly.found hentry]

/-- What a carrier says of itself leads back to it: its location with its own parameters, and, if
its class is the one that is known under its descriptor, an instance and a linkage that are
requested by descriptor. -/
theorem Reachable.carrier_of_description (h : scene.Reachable host) {carrier : Carrier}
    (hcarrier : carrier ∈ scene.world.store.carriers) :
    ∃ parameters, carrier.ownParameters = some parameters ∧
      scene.result (resolve carrier.location (some parameters)) = .ok carrier ∧
      (carrier.isClassLevel →
        scene.world.loader.classes.lookup carrier.owner.descriptor = some carrier.owner →
        (scene.result (instantiate carrier.owner.descriptor (some parameters))).map
            Instance.carrier? = .ok (some carrier) ∧
          scene.result (link (.linkage (.species carrier.owner.descriptor parameters))) =
            .ok carrier) := by
  obtain ⟨parameters, hown, hresolve⟩ := h.sound.resolve_ownParameters h.orderly hcarrier
  refine ⟨parameters, hown, hresolve, ?_⟩
  intro hlevel hknown
  rw [Carrier.isClassLevel_iff.mp hlevel] at hresolve
  -- The class is found, which changes nothing, and then the carrier is resolved as before.
  have hfind := exec_findClass hknown
  have hlink : scene.result (findClass carrier.owner.descriptor >>= fun self =>
      resolve (.ofClass self) (some parameters)) = .ok carrier := by
    rw [result, exec_bind_ok hfind]
    exact hresolve
  refine ⟨?_, hlink⟩
  rw [instantiate_eq, result_bind_pure, hlink]
  exact congrArg Except.ok (Instance.carrier?_ofCarrier carrier)

/-- A crate of texts, which has a backing type. -/
theorem carrier_of_description_crate :
    ∃ (host : Host) (crate : Scene) (carrier : Carrier) (parameters : Value),
      crate.Reachable host ∧ carrier ∈ crate.world.store.carriers ∧ carrier.isClassLevel ∧
      carrier.backing.isSome ∧
      crate.world.loader.classes.lookup carrier.owner.descriptor = some carrier.owner ∧
      carrier.ownParameters = some parameters ∧
      crate.result (resolve carrier.location (some parameters)) = .ok carrier ∧
      (crate.result (instantiate "Crate" (some parameters))).map Instance.carrier? =
        .ok (some carrier) ∧
      crate.result (link (.linkage (.species "Crate" parameters))) = .ok carrier := by
  let host : Host := fun _ _ => .error "absent"
  have hstart : (start {} .standard).Reachable host := ⟨_, _, .refl⟩
  have hclass := hstart.tail (.define { descriptor := "Crate", defaults := ["Object"] })
  have hcrate := hclass.tail (.instantiate "Crate" (some (.type "String")))
  obtain ⟨parameters, hown, hresolve, hnamed⟩ :=
    hcrate.carrier_of_description List.mem_cons_self
  obtain ⟨hinstantiate, hlink⟩ := hnamed rfl rfl
  exact ⟨host, _, _, parameters, hcrate, List.mem_cons_self, rfl, rfl, rfl, hown, hresolve,
    hinstantiate, hlink⟩

end Scene

end Specialization

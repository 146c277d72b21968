import Specialization.Proofs.World.Effect

/-!
What is remembered of supertypes may be forgotten. An entry is made after a mapping was read and a
carrier was resolved, and both are kept, so finding the carrier anew gives the carrier of the entry
and changes nothing but a count of the store. Two scenes that are the same but for what they
remember of supertypes, and for that count, stay so whatever is done in both, with the same results.
-/

namespace Specialization

namespace World

/-- The same world but for what is remembered of supertypes. -/
def Resembles (first second : World) : Prop :=
  ∃ supertypes hits, second = first.withMemo supertypes hits

theorem Resembles.refl (world : World) : world.Resembles world :=
  ⟨world.store.supertypes, world.store.hits, rfl⟩

theorem Resembles.symm {first second : World} (h : first.Resembles second) :
    second.Resembles first := by
  obtain ⟨supertypes, hits, rfl⟩ := h
  exact ⟨first.store.supertypes, first.store.hits, rfl⟩

theorem Resembles.trans {first second third : World} (h : first.Resembles second)
    (h' : second.Resembles third) : first.Resembles third := by
  obtain ⟨supertypes, hits, rfl⟩ := h
  obtain ⟨supertypes', hits', rfl⟩ := h'
  exact ⟨supertypes', hits', rfl⟩

end World

variable {α β : Type}

/-- An operation that does not look at what is remembered of supertypes. -/
def Blind (x : Operation α) : Prop :=
  ∀ first second : World, first.Resembles second →
    (exec x second).1 = (exec x first).1 ∧ (exec x first).2.Resembles (exec x second).2

namespace Blind

theorem pure (a : α) : Blind (Pure.pure a : Operation α) :=
  fun _ _ h => ⟨rfl, h⟩

theorem throw (error : Error) : Blind (MonadExcept.throw error : Operation α) :=
  fun _ _ h => ⟨rfl, h⟩

theorem bind {x : Operation α} {f : α → Operation β} (hx : Blind x) (hf : ∀ a, Blind (f a)) :
    Blind (x >>= f) := by
  intro first second h
  obtain ⟨hresult, hnext⟩ := hx first second h
  rcases hrun : exec x first with ⟨error | a, next⟩
  · rcases hrun' : exec x second with ⟨found, next'⟩
    rw [hrun, hrun'] at hresult hnext
    obtain rfl : found = .error error := hresult
    rw [exec_bind_error hrun, exec_bind_error hrun']
    exact ⟨rfl, hnext⟩
  · rcases hrun' : exec x second with ⟨found, next'⟩
    rw [hrun, hrun'] at hresult hnext
    obtain rfl : found = .ok a := hresult
    rw [exec_bind_ok hrun, exec_bind_ok hrun']
    exact hf a next next' hnext

/-- Of a world, anything else may be looked at. -/
theorem get {k : World → Operation α} (hk : ∀ world, Blind (k world))
    (hsame : ∀ world supertypes hits, k (world.withMemo supertypes hits) = k world) :
    Blind (MonadState.get >>= k) := by
  rintro world _ ⟨supertypes, hits, rfl⟩
  rw [exec_bind_ok (exec_get world), exec_bind_ok (exec_get (world.withMemo supertypes hits)),
    hsame]
  exact hk world world _ ⟨supertypes, hits, rfl⟩

theorem change {f : World → World}
    (h : ∀ world supertypes hits, (f world).Resembles (f (world.withMemo supertypes hits))) :
    Blind (modify f : Operation PUnit) := by
  rintro world _ ⟨supertypes, hits, rfl⟩
  exact ⟨rfl, h world supertypes hits⟩

end Blind

theorem blind_findClass (descriptor : Descriptor) : Blind (findClass descriptor) := by
  refine Blind.get (fun world => ?_) fun _ _ _ => rfl
  split
  · exact Blind.pure _
  · exact Blind.throw _

theorem blind_functions : Blind Operation.functions :=
  Blind.get (fun _ => Blind.pure _) fun _ _ _ => rfl

theorem blind_resolve (location : Location) (requested : Option Value) :
    Blind (resolve location requested) := by
  unfold resolve
  split
  · exact Blind.throw _
  · refine Blind.get (fun world => ?_) fun _ _ _ => rfl
    split
    · refine Blind.bind (Blind.change fun world supertypes hits => ?_) fun _ => Blind.pure _
      exact ⟨supertypes, hits + 1, rfl⟩
    · refine Blind.bind (Blind.change fun world supertypes hits => ?_) fun _ => ?_
      · exact ⟨supertypes, hits, rfl⟩
      · refine Blind.bind (fun world _ h => ?_) fun made => ?_
        · obtain ⟨supertypes, hits, rfl⟩ := h
          exact ⟨rfl, supertypes, hits, rfl⟩
        · refine Blind.get (fun world => ?_) fun _ _ _ => rfl
          split
          · refine Blind.bind (Blind.change fun world supertypes hits => ?_) fun _ => Blind.pure _
            exact ⟨supertypes, hits, rfl⟩
          · refine Blind.bind (Blind.change fun world supertypes hits => ?_) fun _ => Blind.pure _
            exact ⟨supertypes, hits, rfl⟩

theorem blind_resolveDefault (self : Class) : Blind (resolveDefault self) := by
  unfold resolveDefault
  split
  · exact (blind_resolve _ none).bind fun _ => Blind.pure _
  · exact Blind.pure none

variable (host : Host)

theorem Class.blind_evaluate (functions : Registry) (self : Class) (constant : String)
    (scope : Scope) : Blind (self.evaluate host functions constant scope) := by
  rintro world _ ⟨supertypes, hits, rfl⟩
  rcases hrun : exec ((self.evaluator host functions scope).evaluate constant)
    { cache := some (world.valuesOf self).link } with ⟨result, pass⟩
  rw [exec_evaluate host functions self constant scope world hrun,
    exec_evaluate host functions self constant scope (world.withMemo supertypes hits) hrun]
  exact ⟨rfl, supertypes, hits, rfl⟩

theorem Class.blind_accessorValue (functions : Registry) (self : Class) (constant : String)
    (carrier : Carrier) : Blind (self.accessorValue host functions constant carrier) := by
  obtain ⟨checked, hchecked⟩ := exec_checkCarrier self constant carrier
  have hcheck : Blind (self.checkCarrier constant carrier) := by
    intro first second h
    rw [hchecked, hchecked]
    exact ⟨rfl, h⟩
  rw [accessorValue_eq]
  refine hcheck.bind fun _ => Blind.get (fun world => ?_) fun _ _ _ => rfl
  dsimp only
  split
  · exact Blind.pure _
  · refine (blind_evaluate host functions self constant carrier.scope).bind fun value => ?_
    refine Blind.bind (Blind.change fun world supertypes hits => ?_) fun _ => Blind.pure _
    exact ⟨supertypes, hits, rfl⟩

theorem blind_findDirectSupertype (functions : Registry) (carrier : Carrier)
    (superclass : Class) : Blind (findDirectSupertype host functions carrier superclass) := by
  unfold findDirectSupertype
  dsimp only
  split
  · exact blind_resolveDefault superclass
  · refine (Class.blind_accessorValue host functions _ _ carrier).bind fun mapping => ?_
    split
    · exact Blind.throw _
    · split
      · exact (blind_resolve _ _).bind fun _ => Blind.pure _
      · exact Blind.throw _

namespace Scene

variable {scene later : Scene}

/-- An entry made for a class-level carrier and its direct superclass, which can be found anew. -/
def Redone (scene : Scene) (entry : (Nat × Nat) × Carrier) : Prop :=
  ∃ carrier superclass, scene.Knows carrier ∧ carrier.isClassLevel ∧
    carrier.owner.superclass? = some superclass ∧ entry.1 = (carrier.id, superclass.id) ∧
      scene.Redoes host carrier superclass entry.2

theorem Redone.grow {entry : (Nat × Nat) × Carrier} (h : scene.Redone host entry)
    (hgrows : scene.Grows later) : later.Redone host entry := by
  obtain ⟨carrier, superclass, hcarrier, hlevel, hdirect, hkey, hredoes⟩ := h
  exact ⟨carrier, superclass, hcarrier.grow hgrows, hlevel, hdirect, hkey,
    hredoes.grow host hgrows⟩

/-- A scene in which every entry can be found anew. -/
structure Memoizing (scene : Scene) : Prop where
  sound : scene.Sound
  entries : ∀ entry ∈ scene.world.store.supertypes, scene.Redone host entry

variable {host}

theorem Memoizing.recalling (h : scene.Memoizing host) : scene.Recalling host where
  sound := h.sound
  entries entry hentry := by
    obtain ⟨carrier, superclass, hcarrier, hlevel, hdirect, hkey, hredoes⟩ := h.entries entry hentry
    exact ⟨carrier, superclass, hcarrier, hlevel, hdirect, hkey, hredoes.recalls host⟩

/-- A scene that grows and remembers no more is as good. -/
theorem Memoizing.grow (h : scene.Memoizing host) (hgrows : scene.Grows later)
    (hsame : later.world.store.supertypes = scene.world.store.supertypes) :
    later.Memoizing host where
  sound := hgrows.sound h.sound
  entries entry hentry := (h.entries entry (hsame ▸ hentry)).grow host hgrows

theorem Memoizing.redoes (h : scene.Memoizing host) {carrier found : Carrier}
    (hcarrier : scene.Knows carrier) {superclass : Class}
    (hdirect : carrier.owner.superclass? = some superclass)
    (hfound : scene.world.store.supertypes.lookup (carrier.id, superclass.id) = some found) :
    scene.Redoes host carrier superclass found := by
  obtain ⟨other, above, hother, _, hdirect', hkey, hredoes⟩ := h.entries _ (mem_of_lookup hfound)
  obtain rfl := h.sound.carrier_unique carrier other hcarrier hother (Prod.mk.inj hkey).1
  obtain rfl := Option.some.inj (hdirect.symm.trans hdirect')
  exact hredoes

/-- What can be found anew may be remembered. -/
theorem Memoizing.remember (h : scene.Memoizing host) {carrier found : Carrier}
    (hcarrier : scene.Knows carrier) (hlevel : carrier.isClassLevel) {superclass : Class}
    (hdirect : carrier.owner.superclass? = some superclass)
    (hnew : scene.world.store.supertypes.lookup (carrier.id, superclass.id) = none)
    (hfound : found ∈ scene.world.store.carriers)
    (hmapped : carrier.owner.analysis.superMapping.isSome ∨ superclass.isSpecializable)
    (hredoes : scene.Redoes host carrier superclass found) :
    Memoizing host { scene with world := { scene.world with store := { scene.world.store with
      supertypes := ((carrier.id, superclass.id), found) :: scene.world.store.supertypes } } } := by
  have hsuperclass := h.sound.superclass (h.sound.owner carrier hcarrier) hdirect
  have hremembers : scene.Remembers ((carrier.id, superclass.id), found) :=
    ⟨hfound, carrier, superclass, hcarrier, hsuperclass, rfl, hmapped⟩
  have hgrows := Grows.remember hnew hremembers
  refine ⟨hgrows.sound h.sound, ?_⟩
  intro entry hentry
  rcases List.mem_cons.mp hentry with rfl | hold
  · exact ⟨carrier, superclass, hcarrier, hlevel, hdirect, rfl, hredoes.grow host hgrows⟩
  · exact (h.entries entry hold).grow host hgrows

/-- Asking what is remembered does what finding the carrier anew does, but for what is remembered
afterwards. -/
theorem Memoizing.directSupertype (h : scene.Memoizing host) (functions : Registry)
    {carrier : Carrier} (hcarrier : scene.Knows carrier) (hlevel : carrier.isClassLevel)
    {superclass : Class} (hdirect : carrier.owner.superclass? = some superclass) :
    let find := findDirectSupertype host functions carrier superclass
    let ask := Specialization.directSupertype host functions carrier superclass
    scene.result ask = scene.result find ∧
      (scene.after find).world.Resembles (scene.after ask).world ∧
      (scene.after ask).Memoizing host := by
  have hsuperclass := h.sound.superclass (h.sound.owner carrier hcarrier) hdirect
  dsimp only
  cases hlookup : scene.world.store.supertypes.lookup (carrier.id, superclass.id) with
  | some found =>
      have hredo := h.redoes hcarrier hdirect hlookup functions scene (Grows.refl scene)
      rw [result, result, after, after, hredo, exec_directSupertype_of_some host functions hlookup]
      exact ⟨rfl, World.Resembles.symm ⟨_, _, rfl⟩, h⟩
  | none =>
      have hexec := exec_directSupertype_of_none host functions hlookup
      have hfind := settled_findDirectSupertype host h.sound functions hcarrier hsuperclass
      have hleaves := leaves_findDirectSupertype host functions carrier superclass scene.world
      have hmiddle := h.grow hfind.grows hleaves
      rcases hrun : exec (findDirectSupertype host functions carrier superclass) scene.world with
        ⟨error | _ | found, next⟩
      · rw [hrun] at hexec
        rw [after, hrun] at hmiddle
        simp only [result, after, hexec, hrun, true_and]
        exact ⟨World.Resembles.refl next, hmiddle⟩
      · rw [hrun] at hexec
        rw [after, hrun] at hmiddle
        simp only [result, after, hexec, hrun, true_and]
        exact ⟨World.Resembles.refl next, hmiddle⟩
      · have hresult : scene.result (findDirectSupertype host functions carrier superclass) =
            .ok (some found) := congrArg Prod.fst hrun
        have hredoes := redoes_of_found host h.sound hcarrier hsuperclass hresult
        obtain ⟨hstored, hnone⟩ := hfind.holds hresult
        have hmapped : carrier.owner.analysis.superMapping.isSome ∨ superclass.isSpecializable := by
          by_contra hnothing
          cases hnone.mpr hnothing
        have hstill := hcarrier.grow hfind.grows
        rw [hrun] at hexec hleaves
        rw [after, hrun] at hmiddle hredoes hstored hstill
        have hunchanged : next.store.supertypes = scene.world.store.supertypes := hleaves
        simp only [result, after, hexec, hrun, true_and]
        exact ⟨⟨_, _, rfl⟩, hmiddle.remember hstill hlevel hdirect
          ((congrArg (List.lookup _) hunchanged).trans hlookup) (hstored found rfl) hmapped hredoes⟩

end Scene

end Specialization

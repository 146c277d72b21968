import Specialization.Proofs.CallSite.Queries

/-!
The accounts of a store. In a run of a program on one thread every query of a location with defaults
is counted once, as a hit or as a miss. It is a miss exactly if its key was not queried before, and
then it adds a carrier, so there are as many carriers as different keys; and no carrier is ever made
in vain. Nothing that is counted decreases, whatever fails.
-/

namespace Specialization

section

variable {α β : Type} [BEq α] [EquivBEq α] [BEq β] [EquivBEq β]

instance pairEquivBEq : EquivBEq (α × β) where
  rfl := Bool.and_eq_true_iff.mpr ⟨BEq.rfl, BEq.rfl⟩
  symm h :=
    have ⟨hfirst, hsecond⟩ := Bool.and_eq_true_iff.mp h
    Bool.and_eq_true_iff.mpr ⟨BEq.symm hfirst, BEq.symm hsecond⟩
  trans h h' :=
    have ⟨hfirst, hsecond⟩ := Bool.and_eq_true_iff.mp h
    have ⟨hfirst', hsecond'⟩ := Bool.and_eq_true_iff.mp h'
    Bool.and_eq_true_iff.mpr ⟨BEq.trans hfirst hfirst', BEq.trans hsecond hsecond'⟩

theorem any_beq_congr {a b : α} (h : a == b) (items : List α) :
    items.any (a == ·) = items.any (b == ·) := by
  congr 1
  funext other
  exact BEq.congr_left h

/-- An item at the end is one more unless an equal one is there already. -/
theorem eraseDups_concat (items : List α) (item : α) :
    (items ++ [item]).eraseDups =
      if items.any (item == ·) then items.eraseDups else items.eraseDups ++ [item] := by
  match items with
  | [] => simp [List.eraseDups_cons]
  | first :: rest =>
      rw [List.cons_append, List.eraseDups_cons, List.filter_append, List.eraseDups_cons]
      by_cases hsame : item == first
      · simp [hsame]
      · have hothers : (rest.filter fun other => !other == first).any (item == ·) =
            rest.any (item == ·) := by
          rw [List.any_filter]
          congr 1
          funext other
          by_cases hother : item == other
          · have hkept : (other == first) = false := by
              rw [← BEq.congr_left hother]
              simpa using hsame
            simp [hother, hkept]
          · simp [hother]
        have hlast : [item].filter (fun other => !other == first) = [item] := by simp [hsame]
        rw [hlast, eraseDups_concat (rest.filter fun other => !other == first) item, hothers,
          List.any_cons, Bool.eq_false_iff.mpr hsame, Bool.false_or]
        split
        · rfl
        · rfl
termination_by items.length
decreasing_by exact Nat.lt_succ_of_le (List.length_filter_le _ _)

end

theorem Store.isSome_find?_of_cons (before : Store) {after : Store} {entry : Entry}
    (h : after.entries = entry :: before.entries) (key : Location × Value) :
    (after.find? key.1 key.2).isSome =
      (key == (entry.location, entry.parameters) || (before.find? key.1 key.2).isSome) := by
  have hkey : (key == (entry.location, entry.parameters)) =
      (entry.location == key.1 && entry.parameters == key.2) :=
    congrArg₂ and BEq.comm BEq.comm
  rw [hkey, Store.find?, h, List.find?_cons]
  cases entry.location == key.1 && entry.parameters == key.2 with
  | true => rfl
  | false => rfl

/-- What has been queried of locations with defaults. -/
def queriedKeys (queries : List Query) : List (Location × Value) :=
  queries.filterMap Query.key?

/-- A store after queries that began with an empty one. -/
structure Store.Accounts (store : Store) (queries : List Query) : Prop where
  lostRaces : store.lostRaces = 0
  misses : store.misses = store.carriers.length
  carriers : store.carriers.length = (queriedKeys queries).eraseDups.length
  counted : store.hits + store.misses = (queriedKeys queries).length
  known : ∀ key : Location × Value,
    (queriedKeys queries).any (key == ·) = (store.find? key.1 key.2).isSome

theorem Store.Accounts.quiet {before after : World} {queries : List Query}
    (h : before.store.Accounts queries) (hquiet : before.Quiet after) :
    after.store.Accounts queries := by
  rw [World.Quiet] at hquiet
  rw [hquiet]
  exact ⟨h.lostRaces, h.misses, h.carriers, h.counted, h.known⟩

theorem queriedKeys_concat (queries : List Query) {query : Query} {key : Location × Value}
    (hkey : query.key? = some key) :
    queriedKeys (queries ++ [query]) = queriedKeys queries ++ [key] := by
  rw [queriedKeys, List.filterMap_append]
  simp [queriedKeys, hkey]

/-- One more query, of a key that was queried before. -/
theorem Store.Accounts.hit {store : Store} {queries : List Query} (h : store.Accounts queries)
    {query : Query} {key : Location × Value} (hkey : query.key? = some key)
    (hfound : (store.find? key.1 key.2).isSome) :
    Store.Accounts { store with hits := store.hits + 1 } (queries ++ [query]) := by
  have hkeys := queriedKeys_concat queries hkey
  have hbefore : (queriedKeys queries).any (key == ·) = true := (h.known key).trans hfound
  refine ⟨h.lostRaces, h.misses, ?_, ?_, ?_⟩
  · rw [hkeys, eraseDups_concat, hbefore]
    exact h.carriers
  · have hcounted := h.counted
    rw [hkeys, List.length_append, List.length_singleton]
    dsimp only
    omega
  · intro other
    rw [hkeys, List.any_append, List.any_cons, List.any_nil, Bool.or_false]
    cases hsame : other == key with
    | true =>
        rw [Bool.or_true]
        exact ((any_beq_congr hsame _).trans hbefore).symm.trans (h.known other)
    | false => exact (Bool.or_false _).trans (h.known other)

/-- One more query, of a new key, which then has an entry in the store. -/
theorem Store.Accounts.miss {before after : Store} {queries : List Query}
    (h : before.Accounts queries) {query : Query} {entry : Store.Entry}
    (hkey : query.key? = some (entry.location, entry.parameters))
    (hnew : before.find? entry.location entry.parameters = none)
    (hentries : after.entries = entry :: before.entries) (hhits : after.hits = before.hits)
    (hmisses : after.misses = before.misses + 1) (hraces : after.lostRaces = before.lostRaces) :
    after.Accounts (queries ++ [query]) := by
  have hkeys := queriedKeys_concat queries hkey
  have hcarriers : after.carriers = entry.carrier :: before.carriers :=
    congrArg (List.map Store.Entry.carrier) hentries
  have hbefore : (queriedKeys queries).any ((entry.location, entry.parameters) == ·) = false :=
    (h.known _).trans (Option.isSome_eq_false_iff.mpr (Option.isNone_iff_eq_none.mpr hnew))
  refine ⟨hraces.trans h.lostRaces, ?_, ?_, ?_, ?_⟩
  · rw [hmisses, hcarriers, h.misses, List.length_cons]
  · rw [hkeys, eraseDups_concat, hbefore, hcarriers, List.length_cons, h.carriers]
    simp
  · have hcounted := h.counted
    rw [hkeys, List.length_append, List.length_singleton]
    omega
  · intro other
    rw [hkeys, List.any_append, List.any_cons, List.any_nil, Bool.or_false, h.known other,
      Bool.or_comm]
    exact (before.isSome_find?_of_cons hentries other).symm

/-- A query finds its carrier if its key was queried before, and makes it otherwise. -/
theorem Store.Accounts.query {world : World} {queries : List Query}
    (h : world.store.Accounts queries) (query : Query) :
    (exec (resolve query.location query.requested) world).2.store.Accounts (queries ++ [query]) := by
  obtain ⟨location, requested⟩ := query
  dsimp only
  cases hdefaults : location.defaults with
  | none =>
      have hkeys : queriedKeys (queries ++ [⟨location, requested⟩]) = queriedKeys queries := by
        simp [queriedKeys, Query.key?, hdefaults]
      have hfail : resolve location requested = throw (.notSpecializable location.text) := by
        simp only [resolve, hdefaults]
      rw [hfail, exec_throw]
      exact ⟨h.lostRaces, h.misses, hkeys ▸ h.carriers, hkeys ▸ h.counted, hkeys ▸ h.known⟩
  | some default =>
      have hkey : (⟨location, requested⟩ : Query).key? =
          some (location, erase requested default) := by
        rw [Query.key?, hdefaults, Option.map_some]
      rw [exec_resolve location requested hdefaults]
      cases hfound : world.store.find? location (erase requested default) with
      | some carrier => exact h.hit hkey (Option.isSome_of_eq_some hfound)
      | none =>
          let counted : World := { world with store := { world.store with
            misses := world.store.misses + 1 } }
          have hentries := counted.addCarrier_entries location (erase requested default)
          exact h.miss hkey hfound hentries (counted.addCarrier_hits _ _)
            (counted.addCarrier_misses _ _) rfl

theorem World.Served.accounts {before after : World} {queries : List Query}
    (h : before.Served queries after) {earlier : List Query}
    (hbefore : before.store.Accounts earlier) : after.store.Accounts (earlier ++ queries) := by
  induction h generalizing earlier with
  | quiet hquiet =>
      rw [List.append_nil]
      exact hbefore.quiet hquiet
  | query world query => exact hbefore.query query
  | append _ _ ih ih' =>
      rw [← List.append_assoc]
      exact ih' (ih hbefore)

/-- Nothing that the store counts is less later. -/
structure Store.Advances (before after : Store) : Prop where
  hits : before.hits ≤ after.hits
  misses : before.misses ≤ after.misses
  lostRaces : before.lostRaces ≤ after.lostRaces
  carriers : before.carriers.length ≤ after.carriers.length

theorem Store.Advances.refl (store : Store) : store.Advances store :=
  ⟨Nat.le_refl _, Nat.le_refl _, Nat.le_refl _, Nat.le_refl _⟩

theorem Store.Advances.trans {first second third : Store} (h : first.Advances second)
    (h' : second.Advances third) : first.Advances third :=
  ⟨Nat.le_trans h.hits h'.hits, Nat.le_trans h.misses h'.misses,
    Nat.le_trans h.lostRaces h'.lostRaces, Nat.le_trans h.carriers h'.carriers⟩

theorem advances_resolve (location : Location) (requested : Option Value) (world : World) :
    world.store.Advances (exec (resolve location requested) world).2.store := by
  cases hdefaults : location.defaults with
  | none =>
      rw [resolve, hdefaults]
      exact .refl world.store
  | some default =>
      rw [exec_resolve location requested hdefaults]
      split
      · exact ⟨Nat.le_succ _, Nat.le_refl _, Nat.le_refl _, Nat.le_refl _⟩
      · exact ⟨Nat.le_refl _, Nat.le_succ _, Nat.le_refl _, Nat.le_succ _⟩

theorem World.Served.advances {before after : World} {queries : List Query}
    (h : before.Served queries after) : before.store.Advances after.store := by
  induction h with
  | quiet hquiet =>
      rw [World.Quiet] at hquiet
      rw [hquiet]
      exact ⟨Nat.le_refl _, Nat.le_refl _, Nat.le_refl _, Nat.le_refl _⟩
  | query world query => exact advances_resolve _ _ world
  | append _ _ ih ih' => exact ih.trans ih'

/-- One operation of a program, with all that it is applied to. -/
inductive World.Event where
  | define (spec : ClassSpec)
  | load (spec : ClassSpec) (superclass : Option Class)
  /-- A carrier is made that is not in the store. -/
  | forge
  | resolve (location : Location) (requested : Option Value)
  | instantiate (descriptor : Descriptor) (requested : Option Value)
  | link (request : Value)
  | supertype (functions : Registry) (carrier : Carrier) (ancestor : Class)
  | supertypeNamed (carrier : Carrier) (descriptor : Descriptor)
  | evaluate (functions : Registry) (self : Class) (constant : String) (scope : Scope)
  | accessor (functions : Registry) (self : Class) (constant : String) (carrier : Carrier)
  | enter (carrier : Carrier)
  | exit (guard : Guard)
  | mark (descriptor : Descriptor) (constant : String)
  | read
  | specialized (site : SpecializedCallSite) (carrier : Carrier) (arguments : List Value)
  | receiver (site : ReceiverCallSite) (self : Instance) (arguments : List Value)

variable (host : Host)

/-- What an operation leaves of a world, whether it succeeds or not. -/
def World.perform (world : World) : World.Event → World
  | .define spec => (exec (Specialization.define spec) world).2
  | .load spec superclass => (exec (Specialization.load spec superclass) world).2
  | .forge => { world with nextCarrier := world.nextCarrier + 1 }
  | .resolve location requested => (exec (Specialization.resolve location requested) world).2
  | .instantiate descriptor requested =>
    (exec (Specialization.instantiate descriptor requested) world).2
  | .link request => (exec (Specialization.link request) world).2
  | .supertype functions carrier ancestor =>
    (exec (supertypeCarrier host functions carrier ancestor) world).2
  | .supertypeNamed carrier descriptor =>
    (exec (supertypeCarrierNamed host carrier descriptor) world).2
  | .evaluate functions self constant scope =>
    (exec (self.evaluate host functions constant scope) world).2
  | .accessor functions self constant carrier =>
    (exec (self.accessorValue host functions constant carrier) world).2
  | .enter carrier => (exec (Specialization.enter carrier) world).2
  | .exit guard => (exec guard.exit world).2
  | .mark descriptor constant => (exec (markInFlight descriptor constant) world).2
  | .read => (exec (resolveAmbientConstant host) world).2
  | .specialized site carrier arguments => ((site.invoke host carrier arguments).run world).2
  | .receiver site self arguments => ((site.invoke host self arguments).run world).2

/-- The queries of an operation in a world. -/
def World.Event.queries (world : World) : World.Event → List Query
  | .resolve location requested => [⟨location, requested⟩]
  | .instantiate descriptor requested => instantiate.queries descriptor requested world
  | .link request => link.queries request world
  | .supertype functions carrier ancestor =>
    supertypeCarrier.queries host functions carrier ancestor world
  | .supertypeNamed carrier descriptor =>
    supertypeCarrierNamed.queries host carrier descriptor world
  | .read => resolveAmbientConstant.queries host world
  | .specialized site carrier _ => site.cache.queries carrier (site.queries host carrier world)
  | .receiver site self _ =>
    site.cache.queries (ReceiverGuard.of self) (site.queries host self world)
  | .define _ | .load _ _ | .forge | .evaluate _ _ _ _ | .accessor _ _ _ _ | .enter _ | .exit _
  | .mark _ _ => []

theorem served_perform (world : World) (event : World.Event) :
    world.Served (event.queries host world) (world.perform host event) := by
  cases event with
  | define spec => exact Asks.quiet (Scene.leaves_store_define spec)
  | load spec superclass => exact Asks.quiet (Scene.leaves_store_load spec superclass)
  | resolve location requested => exact Asks.resolve location requested
  | instantiate descriptor requested => exact asks_instantiate descriptor requested world
  | link request => exact asks_link request world
  | supertype functions carrier ancestor =>
      exact asks_supertypeCarrier host functions carrier ancestor world
  | supertypeNamed carrier descriptor =>
      exact asks_supertypeCarrierNamed host carrier descriptor world
  | evaluate functions self constant scope =>
      exact Asks.quiet (Class.leaves_evaluate host self.apart_store functions constant scope)
  | accessor functions self constant carrier =>
      exact Asks.quiet (Class.leaves_accessorValue host self.apart_store functions constant carrier)
  | read => exact asks_resolveAmbientConstant host world
  | specialized site carrier arguments =>
      exact InlineCache.served_invoke host site.cache carrier arguments
        (SpecializedCallSite.asks_resolve host site carrier world)
  | receiver site self arguments =>
      exact InlineCache.served_invoke host site.cache (ReceiverGuard.of self) arguments
        (ReceiverCallSite.asks_resolve host site self world)
  | forge | enter | exit | mark => exact .quiet (.of_store rfl)

def World.run (world : World) (events : List World.Event) : World :=
  events.foldl (World.perform host) world

/-- The queries of a run, in their order. -/
def World.queries (world : World) : List World.Event → List Query
  | [] => []
  | event :: rest => event.queries host world ++ (world.perform host event).queries rest

theorem served_run (world : World) (events : List World.Event) :
    world.Served (world.queries host events) (world.run host events) := by
  induction events generalizing world with
  | nil => exact .quiet (.of_store rfl)
  | cons event rest ih => exact (served_perform host world event).append (ih _)

theorem World.run_append (world : World) (events later : List World.Event) :
    world.run host (events ++ later) = (world.run host events).run host later :=
  List.foldl_append

/-- After any operations, failed ones included, no race was lost, there are as many misses as
carriers and as different keys that were resolved, hits and misses together are the queries of
locations with defaults, and nothing of this is less after more operations. The queries are those
of the operations one after the other, and they succeed exactly for locations with defaults. -/
theorem counters_of_run (config : Config) (functions : Registry) (events : List World.Event) :
    let start := (Scene.start config functions).world
    let store := (start.run host events).store
    let queries := start.queries host events
    store.lostRaces = 0 ∧
      store.misses = store.carriers.length ∧
      store.carriers.length = (queries.filterMap Query.key?).eraseDups.length ∧
      store.hits + store.misses =
        queries.countP (fun query => query.location.defaults.isSome) ∧
      start.Served queries (start.run host events) ∧
      (∀ (query : Query) (world : World), query.location.defaults.isSome ↔
        ∃ carrier, (exec (resolve query.location query.requested) world).1 = .ok carrier) ∧
      ∀ later, let next := (start.run host (events ++ later)).store
        store.hits ≤ next.hits ∧ store.misses ≤ next.misses ∧
          store.lostRaces ≤ next.lostRaces ∧ store.carriers.length ≤ next.carriers.length := by
  intro start store queries
  have hserved : start.Served queries (start.run host events) := served_run host start events
  have hempty : start.store.Accounts [] := ⟨rfl, rfl, rfl, rfl, fun _ => rfl⟩
  have haccounts : store.Accounts queries := hserved.accounts hempty
  have hcount : (queriedKeys queries).length =
      queries.countP fun query => query.location.defaults.isSome := by
    rw [queriedKeys, List.length_filterMap_eq_countP]
    simp [Query.key?]
  refine ⟨haccounts.lostRaces, haccounts.misses, haccounts.carriers,
    haccounts.counted.trans hcount, hserved, ?_, ?_⟩
  · intro query world
    have hsome : query.location.defaults.isSome = query.key?.isSome := by simp [Query.key?]
    rw [hsome]
    exact query.isSome_key? world
  · intro later
    have hlater := (served_run host (start.run host events) later).advances
    rw [← World.run_append] at hlater
    exact ⟨hlater.hits, hlater.misses, hlater.lostRaces, hlater.carriers⟩

/-- Two instances of the same parameters after erasure, one of others, and two requests that fail. -/
example (host : Host) :
    let box : ClassSpec := { descriptor := "Box", defaults := ["Object"] }
    let store := ((Scene.start {} .standard).world.run host [.define box, .instantiate "Box" none,
      .instantiate "Bag" none, .instantiate "Box" (some (.type "Object")), .define box,
      .link (.linkage (.species "Box" (.type "String")))]).store
    (store.hits, store.misses, store.lostRaces, store.carriers.length) = (1, 2, 0, 2) := by
  rfl

end Specialization

import Specialization.Proofs.CallSite.InlineCache
import Specialization.Proofs.World.Trace

/-!
The queries of operations. Every resolution of a carrier is a query of the store, and most of them
are parts of other operations: for each operation it is told which queries it makes in a world, and
in which order. A step up to a superclass makes none where the store remembers its result, and
nothing is queried after a failure. Between its queries an operation neither adds carriers nor
counts anything.
-/

namespace Specialization

variable {α β : Type}

/-- One execution of a resolution. -/
structure Query where
  location : Location
  requested : Option Value

/-- What a carrier is kept under: its location and the parameters after erasure. Only locations
with defaults have carriers. -/
def Query.key? (query : Query) : Option (Location × Value) :=
  query.location.defaults.map fun default => (query.location, erase query.requested default)

theorem Query.isSome_key? (query : Query) (world : World) :
    query.key?.isSome ↔
      ∃ carrier, (exec (resolve query.location query.requested) world).1 = .ok carrier := by
  cases hdefaults : query.location.defaults with
  | none => simp [key?, resolve, hdefaults]
  | some default =>
      rw [exec_resolve query.location query.requested hdefaults]
      simp only [key?, hdefaults, Option.map_some, Option.isSome_some, true_iff]
      split
      · exact ⟨_, rfl⟩
      · exact ⟨_, rfl⟩

/-- From one world to another by queries, one after the other. In between, no carrier is added and
nothing is counted. -/
inductive World.Served : World → List Query → World → Prop
  | quiet {before after : World} (h : before.Quiet after) : Served before [] after
  | query (world : World) (query : Query) :
      Served world [query] (exec (resolve query.location query.requested) world).2
  | append {first second third : World} {queries later : List Query}
      (h : Served first queries second) (h' : Served second later third) :
      Served first (queries ++ later) third

/-- The queries that an operation makes in a world, whether it succeeds or not. -/
def Asks (operation : Operation α) (world : World) (queries : List Query) : Prop :=
  world.Served queries (exec operation world).2

/-- The queries of what follows an operation, which are made only if it succeeds. -/
def following (x : Operation α) (next : α → World → List Query) (world : World) : List Query :=
  match exec x world with
  | (.ok a, after) => next a after
  | (.error _, _) => []

namespace Asks

variable {world : World} {queries : List Query} {x : Operation α} {f : α → Operation β}

theorem quiet {operation : Operation α} (h : Leaves World.store operation) :
    Asks operation world [] :=
  World.Served.quiet (.of_store (h world))

theorem pure (a : α) : Asks (Pure.pure a) world [] :=
  .quiet (Leaves.pure a)

theorem throw (error : Error) : Asks (MonadExcept.throw error : Operation α) world [] :=
  .quiet (Leaves.throw error)

theorem lift (x : Except Error α) : Asks (liftExcept x) world [] := by
  cases x with
  | error error => exact throw error
  | ok a => exact pure a

theorem resolve (location : Location) (requested : Option Value) :
    Asks (Specialization.resolve location requested) world [⟨location, requested⟩] :=
  World.Served.query world ⟨location, requested⟩

theorem bind {next : α → World → List Query} (hx : Asks x world queries)
    (hf : ∀ a after, Asks (f a) after (next a after)) :
    Asks (x >>= f) world (queries ++ following x next world) := by
  rcases hrun : exec x world with ⟨error | a, after⟩
  · rw [Asks, following, exec_bind_error hrun, hrun, List.append_nil]
    rwa [Asks, hrun] at hx
  · rw [Asks, following, exec_bind_ok hrun, hrun]
    rw [Asks, hrun] at hx
    exact hx.append (hf a after)

/-- What makes no queries may come after. -/
theorem before (hx : Asks x world queries) (hf : ∀ a after, Asks (f a) after []) :
    Asks (x >>= f) world queries := by
  have hnone : following x (fun _ _ => []) world = [] := by
    unfold following
    split
    · rfl
    · rfl
  have h := hx.bind hf
  rwa [hnone, List.append_nil] at h

/-- What changes nothing of the store may come before. -/
theorem after {next : α → World → List Query} (hx : Leaves World.store x)
    (hf : ∀ a after, Asks (f a) after (next a after)) :
    Asks (x >>= f) world (following x next world) :=
  bind (quiet hx) hf

theorem go {a : α} {next : World} (h : exec x world = (.ok a, next))
    (hquiet : next.store = world.store) (hf : Asks (f a) next queries) :
    Asks (x >>= f) world queries := by
  rw [Asks, exec_bind_ok h]
  exact (World.Served.quiet (.of_store hquiet)).append hf

theorem stop {error : Error} {next : World} (h : exec x world = (.error error, next))
    (hquiet : next.store = world.store) : Asks (x >>= f) world [] := by
  rw [Asks, exec_bind_error h]
  exact World.Served.quiet (.of_store hquiet)

end Asks

theorem exec_functions (world : World) :
    exec Operation.functions world = (.ok world.loader.functions, world) :=
  rfl

variable (host : Host)

def resolveDefault.queries (self : Class) : List Query :=
  if self.isSpecializable then [⟨.ofClass self, none⟩] else []

theorem asks_resolveDefault (self : Class) (world : World) :
    Asks (resolveDefault self) world (resolveDefault.queries self) := by
  unfold resolveDefault resolveDefault.queries
  split
  · exact (Asks.resolve _ none).before fun _ _ => .pure _
  · exact .pure none

/-- The query of a step that is not remembered: for the parameters of the mapping if there is one,
and for the defaults otherwise. -/
def findDirectSupertype.queries (functions : Registry) (carrier : Carrier) (superclass : Class)
    (world : World) : List Query :=
  match carrier.owner.analysis.superMapping with
  | none => resolveDefault.queries superclass
  | some constant =>
    let read := carrier.owner.accessorValue host functions constant carrier
    following read (fun mapping _ =>
      match mapping.asSpecies? with
      | some (raw, parameters) =>
        if raw = superclass.descriptor then [⟨.ofClass superclass, some parameters⟩] else []
      | none => []) world

theorem asks_findDirectSupertype (functions : Registry) (carrier : Carrier) (superclass : Class)
    (world : World) : Asks (findDirectSupertype host functions carrier superclass) world
      (findDirectSupertype.queries host functions carrier superclass world) := by
  unfold findDirectSupertype findDirectSupertype.queries
  dsimp only
  cases carrier.owner.analysis.superMapping with
  | none => exact asks_resolveDefault superclass world
  | some constant =>
      apply Asks.after (Class.leaves_accessorValue host (Class.apart_store _) functions _ carrier)
      intro mapping after
      cases mapping.asSpecies? with
      | none => exact .throw _
      | some species =>
          dsimp only
          split
          · exact (Asks.resolve _ _).before fun _ _ => .pure _
          · exact .throw _

def directSupertype.queries (functions : Registry) (carrier : Carrier) (superclass : Class)
    (world : World) : List Query :=
  match world.store.supertypes.lookup (carrier.id, superclass.id) with
  | some _ => []
  | none => findDirectSupertype.queries host functions carrier superclass world

theorem asks_directSupertype (functions : Registry) (carrier : Carrier) (superclass : Class)
    (world : World) : Asks (directSupertype host functions carrier superclass) world
      (directSupertype.queries host functions carrier superclass world) := by
  unfold directSupertype directSupertype.queries
  apply Asks.go (exec_get world) rfl
  cases world.store.supertypes.lookup (carrier.id, superclass.id) with
  | some found => exact .pure (some found)
  | none =>
      apply (asks_findDirectSupertype host functions carrier superclass world).before
      intro found after
      cases found with
      | none => exact .pure none
      | some found => exact World.Served.quiet rfl

def climb.queries (functions : Registry) : Option Carrier → List Class → World → List Query
  | _, [], _ => []
  | some carrier, superclass :: rest, world =>
    directSupertype.queries host functions carrier superclass world ++
      following (directSupertype host functions carrier superclass)
        (fun found => climb.queries functions found rest) world
  | none, superclass :: rest, world =>
    resolveDefault.queries superclass ++
      following (resolveDefault superclass) (fun found => climb.queries functions found rest) world

theorem asks_climb (functions : Registry) (way : List Class) (current : Option Carrier)
    (world : World) : Asks (climb host functions current way) world
      (climb.queries host functions current way world) := by
  induction way generalizing current world with
  | nil =>
      cases current with
      | none => exact .pure none
      | some carrier => exact .pure (some carrier)
  | cons superclass rest ih =>
      cases current with
      | none => exact (asks_resolveDefault superclass world).bind ih
      | some carrier => exact (asks_directSupertype host functions carrier superclass world).bind ih

def supertypeCarrier.queries (functions : Registry) (carrier : Carrier) (ancestor : Class)
    (world : World) : List Query :=
  if carrier.isClassLevel then
    match carrier.owner.distanceTo? ancestor with
    | some distance =>
      if world.store.config.maxSupertypeDepth < distance then []
      else
        let way := (carrier.owner.lineage.drop 1).take distance
        climb.queries host functions (some carrier) way world
    | none => []
  else []

theorem asks_supertypeCarrier (functions : Registry) (carrier : Carrier) (ancestor : Class)
    (world : World) : Asks (supertypeCarrier host functions carrier ancestor) world
      (supertypeCarrier.queries host functions carrier ancestor world) := by
  unfold supertypeCarrier supertypeCarrier.queries
  dsimp only
  split
  · cases carrier.owner.distanceTo? ancestor with
    | none => exact .throw _
    | some distance =>
        apply Asks.go (exec_get world) rfl
        dsimp only
        split
        · exact .stop (exec_throw _ world) rfl
        · exact asks_climb host functions _ (some carrier) world
  · exact .throw _

def supertypeCarrierNamed.queries (carrier : Carrier) (descriptor : Descriptor) (world : World) :
    List Query :=
  match world.loader.classes.lookup descriptor with
  | some ancestor => supertypeCarrier.queries host world.loader.functions carrier ancestor world
  | none => []

theorem asks_supertypeCarrierNamed (carrier : Carrier) (descriptor : Descriptor) (world : World) :
    Asks (supertypeCarrierNamed host carrier descriptor) world
      (supertypeCarrierNamed.queries host carrier descriptor world) := by
  unfold supertypeCarrierNamed supertypeCarrierNamed.queries
  cases hfound : world.loader.classes.lookup descriptor with
  | none => exact .stop (exec_findClass_of_none hfound) rfl
  | some ancestor =>
      apply Asks.go (exec_findClass hfound) rfl
      apply Asks.go (exec_functions world) rfl
      exact asks_supertypeCarrier host _ carrier ancestor world

def instantiate.queries (descriptor : Descriptor) (requested : Option Value) (world : World) :
    List Query :=
  match world.loader.classes.lookup descriptor with
  | some self => [⟨.ofClass self, requested⟩]
  | none => []

theorem asks_instantiate (descriptor : Descriptor) (requested : Option Value) (world : World) :
    Asks (instantiate descriptor requested) world
      (instantiate.queries descriptor requested world) := by
  unfold instantiate instantiate.queries
  cases hfound : world.loader.classes.lookup descriptor with
  | none => exact .stop (exec_findClass_of_none hfound) rfl
  | some self =>
      apply Asks.go (exec_findClass hfound) rfl
      exact (Asks.resolve _ requested).before fun _ _ => .pure _

def link.queries (request : Value) (world : World) : List Query :=
  match request with
  | .linkage (.species raw parameters) => instantiate.queries raw (some parameters) world
  | _ => []

theorem asks_link (request : Value) (world : World) :
    Asks (link request) world (link.queries request world) := by
  by_cases hspecies : ∃ raw parameters, request = .linkage (.species raw parameters)
  · obtain ⟨raw, parameters, rfl⟩ := hspecies
    dsimp only [link, link.queries, instantiate.queries]
    cases hfound : world.loader.classes.lookup raw with
    | none => exact .stop (exec_findClass_of_none hfound) rfl
    | some self => exact .go (exec_findClass hfound) rfl (.resolve _ _)
  · have hqueries : link.queries request world = [] := by
      unfold link.queries
      split
      · exact absurd ⟨_, _, rfl⟩ hspecies
      · rfl
    rw [hqueries, link.eq_def]
    split
    · exact absurd ⟨_, _, rfl⟩ hspecies
    · exact .throw _

def scopedCarrier.queries (self : Class) (constant : String) (carrier : Carrier) (world : World) :
    List Query :=
  match self.carrierClass? constant with
  | none => []
  | some expected =>
    if carrier.owner.descriptor = expected then []
    else
      match world.loader.classes.lookup expected with
      | some ancestor =>
        if carrier.isClassLevel && (carrier.owner.distanceTo? ancestor).isSome then
          supertypeCarrier.queries host world.loader.functions carrier ancestor world
        else []
      | none => []

theorem asks_scopedCarrier (self : Class) (constant : String) (carrier : Carrier) (world : World) :
    Asks (scopedCarrier host self constant carrier) world
      (scopedCarrier.queries host self constant carrier world) := by
  unfold scopedCarrier scopedCarrier.queries
  cases self.carrierClass? constant with
  | none => exact .pure carrier
  | some expected =>
      dsimp only
      split
      · exact .pure carrier
      · apply Asks.go (exec_get world) rfl
        cases world.loader.classes.lookup expected with
        | none => exact .throw _
        | some ancestor =>
            dsimp only
            split
            · apply Asks.go (exec_functions world) rfl
              apply (asks_supertypeCarrier host _ carrier ancestor world).before
              intro found after
              cases found with
              | none => exact .throw _
              | some own => exact .pure own
            · exact .throw _

end Specialization

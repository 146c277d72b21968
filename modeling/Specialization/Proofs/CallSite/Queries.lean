import Specialization.Proofs.World.Queries

/-!
The queries of reads and calls. A call site queries the store only while it resolves a target: for
the carriers that its constants are read under, and for the class that declares a method, as seen
from the receiver.
-/

namespace Specialization

variable (host : Host)

def resolveAmbientConstant.queries (world : World) : List Query :=
  following takeInFlight (fun (descriptor, constant) taken =>
    match taken.loader.classes.lookup descriptor with
    | none => []
    | some self =>
      if self.analysis.contains constant && self.analysis.needsAccessor constant then
        match taken.ambient.carrier with
        | some carrier => scopedCarrier.queries host self constant carrier taken
        | none => []
      else []) world

theorem exec_currentCarrier (world : World) :
    exec currentCarrier world = (.ok world.ambient.carrier, world) :=
  rfl

theorem leaves_store_takeInFlight : Leaves World.store takeInFlight := by
  apply Leaves.get.bind
  intro world
  apply Leaves.bind (fun _ => rfl)
  intro _
  split
  · exact Leaves.pure _
  · exact Leaves.throw _

theorem asks_resolveAmbientConstant (world : World) :
    Asks (resolveAmbientConstant host) world (resolveAmbientConstant.queries host world) := by
  apply Asks.after leaves_store_takeInFlight
  rintro ⟨descriptor, constant⟩ taken
  dsimp only
  cases hfound : taken.loader.classes.lookup descriptor with
  | none => exact .stop (exec_findClass_of_none hfound) rfl
  | some self =>
      apply Asks.go (exec_findClass hfound) rfl
      apply Asks.go (exec_functions taken) rfl
      dsimp only
      cases self.analysis.contains constant with
      | false => exact .stop (exec_throw _ _) rfl
      | true =>
          simp only [Bool.not_true, Bool.false_eq_true, if_false, Bool.true_and]
          split
          · apply Asks.go (exec_currentCarrier taken) rfl
            cases taken.ambient.carrier with
            | none => exact .throw _
            | some carrier =>
                exact (asks_scopedCarrier host self constant carrier taken).before fun own _ =>
                  .quiet (Class.leaves_accessorValue host self.apart_store _ constant own)
          · exact .quiet (Class.leaves_evaluate host self.apart_store _ constant .unbound)

namespace SpecializedCallSite

theorem asks_read (site : SpecializedCallSite) (constant : String) (carrier : Carrier)
    (world : World) : Asks (site.read host constant carrier) world
      (scopedCarrier.queries host site.owner constant carrier world) := by
  unfold read
  apply (asks_scopedCarrier host site.owner constant carrier world).before
  intro own after
  apply Asks.go (exec_functions after) rfl
  exact (Asks.quiet (Class.leaves_accessorValue host site.owner.apart_store _ constant own)).before
    fun _ _ => .pure _

/-- The queries of the restrictions, which are read one after the other. -/
def restrictionQueries (site : SpecializedCallSite) (carrier : Carrier) :
    List (Nat × String) → World → List Query
  | [], _ => []
  | (_, constant) :: rest, world =>
    scopedCarrier.queries host site.owner constant carrier world ++
      following (site.read host constant carrier)
        (fun _ => site.restrictionQueries carrier rest) world

theorem asks_restrictions (site : SpecializedCallSite) (carrier : Carrier)
    (restrictions : List (Nat × String)) (target : Target) (world : World) :
    Asks (restrictions.foldlM (fun target (slot, constant) => do
      let (restriction, _) ← site.read host constant carrier
      return target.restrict slot restriction) target) world
      (site.restrictionQueries host carrier restrictions world) := by
  induction restrictions generalizing target world with
  | nil => exact .pure target
  | cons restriction rest ih =>
      rw [List.foldlM_cons, bind_assoc]
      apply (asks_read host site restriction.2 carrier world).bind
      intro read after
      exact ih _ after

def queries (site : SpecializedCallSite) (carrier : Carrier) (world : World) : List Query :=
  scopedCarrier.queries host site.owner site.constant carrier world ++
    following (site.read host site.constant carrier) (fun (value, own) after =>
      let target := Target.expectFunction site.constant value >>= fun function =>
        Target.adapt function site.adaptation (some own)
      match target with
      | .ok _ => site.restrictionQueries host carrier site.restrictions after
      | .error _ => []) world

theorem asks_resolve (site : SpecializedCallSite) (carrier : Carrier) (world : World) :
    Asks (site.resolve host carrier) world (site.queries host carrier world) := by
  unfold resolve queries
  apply (asks_read host site site.constant carrier world).bind
  rintro ⟨value, own⟩ after
  cases hfunction : Target.expectFunction site.constant value with
  | error error =>
      dsimp only
      rw [hfunction]
      exact .stop (exec_throw error after) rfl
  | ok function =>
      dsimp only
      rw [hfunction]
      apply Asks.go (exec_pure function after) rfl
      cases hadapt : Target.adapt function site.adaptation (some own) with
      | error error =>
          simp only [bind, Except.bind, hadapt]
          exact .stop (exec_throw error after) rfl
      | ok target =>
          simp only [bind, Except.bind, hadapt]
          apply Asks.go (exec_pure target after) rfl
          exact asks_restrictions host site carrier site.restrictions target after

end SpecializedCallSite

namespace ReceiverCallSite

/-- A receiver of the declaring class has its carrier already, one of a subclass has that of the
declaring class looked up, and one without carrier takes the defaults of the declaring class. -/
def declaringCarrier.queries (receiver : Instance) (declaring : Class) (world : World) :
    List Query :=
  match receiver.carrier? with
  | some own =>
    if declaring == receiver.owner then []
    else supertypeCarrier.queries host world.loader.functions own declaring world
  | none => resolveDefault.queries declaring

theorem asks_declaringCarrier (receiver : Instance) (declaring : Class) (world : World) :
    Asks (declaringCarrier host receiver declaring) world
      (declaringCarrier.queries host receiver declaring world) := by
  unfold declaringCarrier declaringCarrier.queries
  cases receiver.carrier? with
  | none => exact asks_resolveDefault declaring world
  | some own =>
      dsimp only
      split
      · exact .pure _
      · apply Asks.go (exec_functions world) rfl
        exact asks_supertypeCarrier host _ own declaring world

def queries (site : ReceiverCallSite) (receiver : Instance) (world : World) : List Query :=
  match receiver.owner.findMethod? site.method with
  | none => []
  | some (declaring, method) =>
    declaringCarrier.queries host receiver declaring world ++
      following (declaringCarrier host receiver declaring) (fun found after =>
        match found with
        | some own => scopedCarrier.queries host declaring method.implementation own after
        | none => []) world

theorem asks_resolve (site : ReceiverCallSite) (receiver : Instance) (world : World) :
    Asks (site.resolve host receiver) world (site.queries host receiver world) := by
  unfold resolve queries
  cases receiver.owner.findMethod? site.method with
  | none => exact .throw _
  | some found =>
      obtain ⟨declaring, method⟩ := found
      apply Asks.go (exec_functions world) rfl
      apply (asks_declaringCarrier host receiver declaring world).bind
      intro found after
      cases found with
      | some own =>
          apply (asks_scopedCarrier host declaring method.implementation own after).before
          intro carrier last
          exact (Asks.quiet (Class.leaves_accessorValue host declaring.apart_store _ _ carrier)).before
            fun _ _ => (Asks.lift _).before fun _ _ => .lift _
      | none =>
          exact (Asks.quiet (Class.leaves_evaluate host declaring.apart_store _ _ .unbound)).before
            fun _ _ => (Asks.lift _).before fun _ _ => .lift _

end ReceiverCallSite

/-- A call makes the queries of a resolution, unless the guard of the cache matches. -/
def InlineCache.queries {κ : Type} [GuardKey κ] (cache : InlineCache κ) (key : κ)
    (resolution : List Query) : List Query :=
  if (cache.find? key).isSome then [] else resolution

theorem InlineCache.served_invoke {κ : Type} [GuardKey κ] (cache : InlineCache κ) (key : κ)
    (arguments : List Value) {resolution : Operation Target} {world : World}
    {queries : List Query} (h : Asks resolution world queries) :
    world.Served (cache.queries key queries)
      ((cache.invoke host key arguments resolution).run world).2 := by
  rw [InlineCache.run_invoke, InlineCache.queries]
  rw [Asks] at h
  cases cache.find? key with
  | some link => exact .quiet (.of_store rfl)
  | none =>
      rcases hrun : exec resolution world with ⟨error | target, next⟩
      · rw [hrun] at h
        exact h
      · rw [hrun] at h
        exact h

end Specialization

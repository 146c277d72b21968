import Specialization.CallSite.Receiver
import Specialization.CallSite.Specialized
import Specialization.Proofs.World.Lineage
import Specialization.Proofs.World.Supertype

/-!
Call sites resolve for good: once a target was resolved for a carrier or for a receiver, it is the
one that is resolved at every later time. What a guard admits resolves to the same target.
-/

namespace Specialization

variable (host : Host)

namespace Scene

variable {base : Scene}

/-- An instance of a carrier is one of the class of the carrier, also through a backing type. -/
theorem Sound.owner_ofCarrier (hbase : base.Sound) {carrier : Carrier}
    (hcarrier : base.Knows carrier) : (Instance.ofCarrier carrier).owner = carrier.owner := by
  obtain ⟨_, hmade⟩ := hbase.madeFor hcarrier
  cases h : carrier.backing with
  | none => simp [Instance.ofCarrier, Carrier.backingType?, h, Instance.owner, RuntimeClass.loaded]
  | some backing =>
      have hraw : backing.raw = carrier.owner := hmade.raw backing h
      simp [Instance.ofCarrier, Carrier.backingType?, h, Instance.owner, RuntimeClass.loaded, hraw]

theorem settled_read (hbase : base.Sound) {site : SpecializedCallSite}
    (howner : site.owner ∈ base.classes) (constant : String) {carrier : Carrier}
    (hcarrier : base.Knows carrier) :
    base.Settled (site.read host constant carrier) fun _ _ => True := by
  unfold SpecializedCallSite.read
  apply (settled_scopedCarrier host hbase site.owner constant hcarrier).bind
  intro scene own hscene _
  apply settled_functions.bind
  intro middle functions hmiddle _
  have hknown := (hscene.trans hmiddle).classes site.owner howner
  apply (settled_accessorValue host hknown functions constant own).bind
  intro later value _ _
  exact Settled.pure fun _ _ => trivial

theorem settled_restrict (hbase : base.Sound) {site : SpecializedCallSite}
    (howner : site.owner ∈ base.classes) {carrier : Carrier} (hcarrier : base.Knows carrier)
    (restrictions : List (Nat × String)) (target : Target) :
    base.Settled (restrictions.foldlM (fun target (slot, constant) => do
      let (restriction, _) ← site.read host constant carrier
      return target.restrict slot restriction) target) fun _ _ => True := by
  induction restrictions generalizing base target with
  | nil => exact Settled.pure fun _ _ => trivial
  | cons restriction rest ih =>
      rw [List.foldlM_cons]
      have hread := settled_read host hbase howner restriction.2 hcarrier
      refine Settled.bind (?_ : base.Settled _ fun _ _ => True) ?_
      · apply hread.bind
        intro scene found _ _
        exact Settled.pure fun _ _ => trivial
      · intro scene next hscene _
        exact ih (hscene.sound hbase) (hscene.classes _ howner) (hcarrier.grow hscene) next

theorem settled_specialized (hbase : base.Sound) {site : SpecializedCallSite}
    (howner : site.owner ∈ base.classes) {carrier : Carrier} (hcarrier : base.Knows carrier) :
    base.Settled (site.resolve host carrier) fun _ _ => True := by
  unfold SpecializedCallSite.resolve
  apply (settled_read host hbase howner site.constant hcarrier).bind
  rintro scene ⟨value, own⟩ hscene _
  apply (Settled.liftExcept _).bind
  intro second function hsecond _
  apply (Settled.liftExcept _).bind
  intro third target hthird _
  have hlater := (hscene.trans hsecond).trans hthird
  exact settled_restrict host (hlater.sound hbase) (hlater.classes _ howner)
    (hcarrier.grow hlater) site.restrictions target

theorem settled_declaringCarrier (hbase : base.Sound) {receiver : Instance}
    (hreceiver : ∀ carrier, receiver.carrier? = some carrier → base.Knows carrier)
    {declaring : Class} (hdeclaring : declaring ∈ base.classes) :
    base.Settled (ReceiverCallSite.declaringCarrier host receiver declaring) fun scene found =>
      ∀ carrier, found = some carrier → scene.Knows carrier := by
  unfold ReceiverCallSite.declaringCarrier
  split
  · rename_i own hown
    have hknown := hreceiver own hown
    split
    · apply Settled.pure
      rintro scene hscene carrier ⟨⟩
      exact hknown.grow hscene
    · apply settled_functions.bind
      intro scene functions hscene _
      exact settled_supertypeCarrier host (hscene.sound hbase) functions (hknown.grow hscene)
        declaring
  · apply (settled_resolveDefault hdeclaring).mono
    intro scene found _ hfound carrier heq
    exact Or.inl (hfound.1 carrier heq)

/-- An instance of a loaded class, made for a carrier of the scene if it is specialized. -/
structure KnowsInstance (scene : Scene) (receiver : Instance) : Prop where
  owner : receiver.owner ∈ scene.classes
  carrier : ∀ carrier, receiver.carrier? = some carrier → scene.Knows carrier
  /-- A backing type stands for the class of its carrier. -/
  backing : ∀ type, receiver.runtimeClass = .backing type → type.raw = type.carrier.owner

theorem KnowsInstance.grow {before after : Scene} {receiver : Instance}
    (h : before.KnowsInstance receiver) (hgrows : before.Grows after) :
    after.KnowsInstance receiver :=
  ⟨hgrows.classes _ h.owner, fun carrier hcarrier => (h.carrier carrier hcarrier).grow hgrows,
    h.backing⟩

theorem KnowsInstance.ofCarrier {scene : Scene} (hsound : scene.Sound) {carrier : Carrier}
    (hcarrier : scene.Knows carrier) : scene.KnowsInstance (.ofCarrier carrier) := by
  have howner := hsound.owner_ofCarrier hcarrier
  constructor
  · rw [howner]
    exact hsound.owner carrier hcarrier
  · intro known hknown
    rw [Instance.carrier?_ofCarrier] at hknown
    exact Option.some.inj hknown ▸ hcarrier
  · intro type htype
    have hown := Instance.carrier?_ofCarrier carrier
    rw [Instance.carrier?, htype] at hown
    rw [Instance.owner, htype] at howner
    rw [Option.some.inj hown]
    exact howner

theorem KnowsInstance.plain {scene : Scene} {self : Class} (hself : self ∈ scene.classes) :
    scene.KnowsInstance (.plain self) where
  owner := hself
  carrier _ h := nomatch h
  backing _ h := nomatch h

theorem settled_receiver (hbase : base.Sound) (site : ReceiverCallSite) {receiver : Instance}
    (hreceiver : base.KnowsInstance receiver) :
    base.Settled (site.resolve host receiver) fun _ _ => True := by
  unfold ReceiverCallSite.resolve
  split
  · exact Settled.fail _
  · rename_i declaring method hmethod
    have hdeclaring : declaring ∈ base.classes :=
      hbase.lineage _ hreceiver.owner _ (Class.mem_lineage_of_findMethod? hmethod)
    apply settled_functions.bind
    intro scene functions hscene _
    apply (settled_declaringCarrier host (hscene.sound hbase)
      (hreceiver.grow hscene).carrier (hscene.classes _ hdeclaring)).bind
    intro second found hsecond hfound
    have hbefore := hscene.trans hsecond
    have hknown := hbefore.classes _ hdeclaring
    split
    · rename_i own
      apply (settled_scopedCarrier host (hbefore.sound hbase) declaring method.implementation
        (hfound own rfl)).bind
      intro third carrier hthird _
      apply (settled_accessorValue host (hthird.classes _ hknown) functions
        method.implementation carrier).bind
      intro fourth value _ _
      apply (Settled.liftExcept _).bind
      intro fifth function _ _
      exact (Settled.liftExcept _).mono fun _ _ _ _ => trivial
    · apply (settled_evaluate host hknown functions method.implementation .unbound).bind
      intro third value _ _
      apply (Settled.liftExcept _).bind
      intro fourth function _ _
      exact (Settled.liftExcept _).mono fun _ _ _ _ => trivial

end Scene

/-- The same carrier resolves to the same target, and so do receivers with the same guard: all that
is read of a receiver is its class and its carrier. -/
theorem ReceiverCallSite.resolve_congr (site : ReceiverCallSite) {a b : Instance}
    (howner : a.owner = b.owner) (hcarrier : a.carrier? = b.carrier?) :
    site.resolve host a = site.resolve host b := by
  simp only [ReceiverCallSite.resolve, ReceiverCallSite.declaringCarrier, howner, hcarrier]

theorem Scene.Sound.eq_of_admits {scene : Scene} (h : scene.Sound) {a b : Carrier}
    (ha : scene.Knows a) (hb : scene.Knows b) (hadmits : GuardKey.admits a b) : a = b :=
  h.carrier_unique a b ha hb (Carrier.beq_iff.mp hadmits)

theorem Scene.Sound.same_of_admits {scene : Scene} (h : scene.Sound) {a b : Instance}
    (ha : scene.KnowsInstance a) (hb : scene.KnowsInstance b)
    (hadmits : GuardKey.admits (ReceiverGuard.of a) (ReceiverGuard.of b)) :
    a.owner = b.owner ∧ a.carrier? = b.carrier? := by
  obtain ⟨classOf, held⟩ := a
  obtain ⟨classOf', held'⟩ := b
  have hmatches : classOf == classOf' ∧
      (ReceiverGuard.of ⟨classOf, held⟩).carrier == (ReceiverGuard.of ⟨classOf', held'⟩).carrier :=
    Bool.and_eq_true_iff.mp hadmits
  obtain ⟨hclass, hheld⟩ := hmatches
  cases classOf with
  | raw self =>
      cases classOf' with
      | backing type' => cases hclass
      | raw self' =>
          have hid : self.id = self'.id := Class.beq_iff.mp hclass
          refine ⟨h.class_unique self ha.owner self' hb.owner hid, ?_⟩
          cases held with
          | none =>
              cases held' with
              | none => rfl
              | some carrier' => cases hheld
          | some carrier =>
              cases held' with
              | none => cases hheld
              | some carrier' =>
                  have hsame : carrier = carrier' :=
                    h.eq_of_admits (ha.carrier carrier rfl) (hb.carrier carrier' rfl) hheld
                  rw [hsame]
                  rfl
  | backing type =>
      cases classOf' with
      | raw self' => cases hclass
      | backing type' =>
          have hsame : type.carrier = type'.carrier :=
            h.eq_of_admits (ha.carrier type.carrier rfl) (hb.carrier type'.carrier rfl) hclass
          have howner : type.raw = type'.raw := by
            rw [ha.backing type rfl, hsame, hb.backing type' rfl]
          exact ⟨howner, congrArg some hsame⟩

end Specialization

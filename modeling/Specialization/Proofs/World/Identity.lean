import Specialization.Proofs.World.Trace

/-!
The identity of carriers. In a run of a program, resolutions give one carrier exactly where the
location and the erased parameters are the same, however far apart they are and whichever operations
they are parts of. A resolution fails only for want of default parameters.
-/

namespace Specialization

/-- Methods are told apart by the class, the erased parameters of the class and the signature. -/
theorem Location.beq_ofMethod {a b : Class} {p q : Option Value} {s t : String} :
    ofMethod a p s == ofMethod b q t ↔ a.id = b.id ∧
      (a.defaults.map fun default => erase p default) ==
        (b.defaults.map fun default => erase q default) ∧ s = t := by
  rw [beq_eq_key, Value.beq_option]
  simp [ofMethod, key]

/-- Equal locations with equal parameters are looked up with the same result. -/
theorem Store.find?_congr (store : Store) {first second : Location} {parameters parameters' : Value}
    (hlocation : first == second) (hparameters : parameters == parameters') :
    store.find? first parameters = store.find? second parameters' := by
  have hsame : ∀ entry : Entry,
      (entry.location == first && entry.parameters == parameters) =
        (entry.location == second && entry.parameters == parameters') := by
    intro entry
    rw [BEq.congr_right hlocation, BEq.congr_right hparameters]
  simp only [find?, hsame]

namespace World.Traced

variable {before after : World} {trace : List Resolution}

/-- What is found stays what is found. -/
theorem keeps (h : before.Traced trace after) {location : Location} {parameters : Value}
    {carrier : Carrier} (hfound : before.store.find? location parameters = some carrier) :
    after.store.find? location parameters = some carrier := by
  induction h with
  | quiet hquiet =>
      rw [Quiet] at hquiet
      rw [hquiet]
      exact hfound
  | resolved hrun =>
      obtain ⟨resolved, _, ⟨_, rfl⟩ | ⟨hnone, hmade⟩⟩ := exec_resolve_eq_ok hrun
      · exact hfound
      · cases hmade
        exact Store.find?_cons hnone hfound
  | append _ _ ih ih' => exact ih' (ih hfound)

/-- All that was resolved is found from then on. -/
theorem found (h : before.Traced trace after) : ∀ resolution ∈ trace, ∃ parameters,
    resolution.erased = some parameters ∧
      after.store.find? resolution.location parameters = some resolution.carrier := by
  induction h with
  | quiet hquiet => exact fun _ hnone => absurd hnone List.not_mem_nil
  | resolved hrun =>
      intro resolution hmem
      obtain rfl := List.mem_singleton.mp hmem
      obtain ⟨parameters, herased, ⟨hfound, rfl⟩ | ⟨hnone, hmade⟩⟩ := exec_resolve_eq_ok hrun
      · exact ⟨parameters, herased, hfound⟩
      · cases hmade
        exact ⟨parameters, herased, find?_addCarrier _ _ parameters⟩
  | append _ hlater ih ih' =>
      intro resolution hmem
      rcases List.mem_append.mp hmem with hfirst | hsecond
      · obtain ⟨parameters, herased, hfound⟩ := ih resolution hfirst
        exact ⟨parameters, herased, hlater.keeps hfound⟩
      · exact ih' resolution hsecond

/-- Every resolution is counted, as one that found its carrier or as one that made it. -/
theorem counted (h : before.Traced trace after) :
    after.store.hits + after.store.misses =
      before.store.hits + before.store.misses + trace.length := by
  induction h with
  | quiet hquiet =>
      rw [Quiet] at hquiet
      rw [hquiet]
      rfl
  | resolved hrun =>
      obtain ⟨_, _, ⟨_, rfl⟩ | ⟨_, hmade⟩⟩ := exec_resolve_eq_ok hrun
      · simp only [List.length_singleton]
        omega
      · obtain ⟨_, rfl⟩ := Prod.ext_iff.mp hmade
        simp only [World.addCarrier_hits, World.addCarrier_misses, List.length_singleton]
        omega
  | append _ _ ih ih' =>
      rw [ih', ih, List.length_append]
      omega

end World.Traced

namespace Scene

variable {host : Host}

theorem moves_traced {config : Config} {functions : Registry} {scene : Scene}
    (h : Relation.ReflTransGen (Move host) (start config functions) scene) :
    ∃ trace, (start config functions).world.Traced trace scene.world := by
  have heffects := effects_of_moves (start_recalling config functions) h
  clear h
  induction heffects with
  | refl => exact ⟨[], .quiet (.of_store rfl)⟩
  | tail _ heffect ih =>
      obtain ⟨trace, htrace⟩ := ih
      obtain ⟨later, hlater⟩ := heffect.traced
      exact ⟨trace ++ later, htrace.append hlater⟩

/-- The run of a program is a sequence of resolutions between changes that leave the carriers alone.
Any two of them give the same carrier exactly if their locations are equal and their parameters are
erased to the same. -/
theorem carrier_eq_iff {config : Config} {functions : Registry} {scene : Scene}
    (hmoves : Relation.ReflTransGen (Move host) (start config functions) scene) :
    (∃ trace, (start config functions).world.Traced trace scene.world ∧
      trace.length = scene.world.store.hits + scene.world.store.misses) ∧
    (∀ trace, (start config functions).world.Traced trace scene.world →
      ∀ a ∈ trace, ∀ b ∈ trace,
        (a.carrier == b.carrier ↔ a.location == b.location ∧ a.erased == b.erased) ∧
        (a.carrier = b.carrier ↔ a.carrier == b.carrier)) ∧
    (∀ a b p q s t, Location.ofMethod a p s == Location.ofMethod b q t ↔ a.id = b.id ∧
      (a.defaults.map fun default => erase p default) ==
        (b.defaults.map fun default => erase q default) ∧ s = t) ∧
    ∀ location requested world error,
      (exec (resolve location requested) world).1 = .error error ↔
        location.defaults = none ∧ error = .notSpecializable location.text := by
  have hsound : scene.Sound := Reachable.sound ⟨config, functions, hmoves⟩
  refine ⟨?_, ?_, fun _ _ _ _ _ _ => Location.beq_ofMethod, fun _ _ _ _ => exec_resolve_eq_error⟩
  · obtain ⟨trace, htrace⟩ := moves_traced hmoves
    have hcounted := htrace.counted
    simp only [start] at hcounted
    exact ⟨trace, htrace, by omega⟩
  · intro trace htrace a ha b hb
    -- Both carriers are found in the last scene, each by its own location and parameters.
    obtain ⟨p, hp, hfound⟩ := htrace.found a ha
    obtain ⟨q, hq, hfound'⟩ := htrace.found b hb
    obtain ⟨hmem, hlocation, own, hown, hparameters⟩ := hsound.key_of_find? hfound
    obtain ⟨hmem', hlocation', own', hown', hparameters'⟩ := hsound.key_of_find? hfound'
    have hsame : a.carrier == b.carrier → a.carrier = b.carrier := fun hid =>
      hsound.carrier_unique _ _ (Or.inl hmem) (Or.inl hmem') (Carrier.beq_iff.mp hid)
    have hrefl : a.carrier = b.carrier → a.carrier == b.carrier := fun heq =>
      Carrier.beq_iff.mpr (congrArg Carrier.id heq)
    refine ⟨⟨?_, ?_⟩, hrefl, hsame⟩
    · intro hid
      rw [← hsame hid] at hlocation' hown'
      obtain rfl := Option.some.inj (hown.symm.trans hown')
      rw [hp, hq, Option.some_beq_some]
      exact ⟨BEq.trans (BEq.symm hlocation) hlocation',
        BEq.trans (BEq.symm hparameters) hparameters'⟩
    · rintro ⟨hequal, herased⟩
      rw [hp, hq, Option.some_beq_some] at herased
      rw [Store.find?_congr scene.world.store hequal herased, hfound'] at hfound
      exact hrefl (Option.some.inj hfound).symm

/-- A scene with one class that can be specialized. -/
def oneBox : Scene :=
  (start {} .standard).defineClass { descriptor := "Box", defaults := ["Object"] }

def oneBox.location : Location :=
  .ofClass (oneBox.classes.head (List.cons_ne_nil _ _))

/-- Default parameters that are requested by name give the carrier that was made without a request,
although an instance of other parameters is made in between. -/
theorem carrier_eq_iff_oneBox :
    let first := oneBox.after (resolve oneBox.location none)
    let second := first.after (instantiate "Box" (some (.type "String")))
    ∃ a b c : Carrier, oneBox.result (resolve oneBox.location none) = .ok a ∧
      first.result (instantiate "Box" (some (.type "String"))) = .ok (.ofCarrier b) ∧
      second.result (resolve oneBox.location (some (.type "Object"))) = .ok c ∧ a = c ∧ a ≠ b := by
  intro first second
  let host : Host := fun _ _ => .error "absent"
  let third := second.after (resolve oneBox.location (some (.type "Object")))
  have howner : oneBox.location.owner ∈ oneBox.classes := List.head_mem (List.cons_ne_nil _ _)
  have hdefine : (start {} .standard).Move host oneBox := .define _
  have hresolve : oneBox.Move host first := .resolve howner none
  have hinstantiate : first.Move host second := .instantiate "Box" (some (.type "String"))
  have hstill : oneBox.location.owner ∈ second.classes := howner
  have hagain : second.Move host third := .resolve hstill (some (.type "Object"))
  have hmoves : Relation.ReflTransGen (Move host) (start {} .standard) third :=
    (((Relation.ReflTransGen.single hdefine).tail hresolve).tail hinstantiate).tail hagain
  obtain ⟨a, ha⟩ : ∃ a, oneBox.result (resolve oneBox.location none) = .ok a := ⟨_, rfl⟩
  obtain ⟨b, hb, hmade⟩ : ∃ b, first.result (resolve oneBox.location (some (.type "String"))) =
      .ok b ∧ first.result (instantiate "Box" (some (.type "String"))) = .ok (.ofCarrier b) :=
    ⟨_, rfl, rfl⟩
  obtain ⟨c, hc⟩ : ∃ c, second.result (resolve oneBox.location (some (.type "Object"))) = .ok c :=
    ⟨_, rfl⟩
  have htrace : (start {} .standard).world.Traced
      [⟨oneBox.location, none, a⟩, ⟨oneBox.location, some (.type "String"), b⟩,
        ⟨oneBox.location, some (.type "Object"), c⟩] third.world :=
    have hdefined : (start {} .standard).world.Traced [] oneBox.world := .quiet rfl
    have hfirst : oneBox.world.Traced _ first.world := .resolved (Prod.ext ha rfl)
    have hsecond : first.world.Traced _ second.world := .resolved (Prod.ext hb rfl)
    have hthird : second.world.Traced _ third.world := .resolved (Prod.ext hc rfl)
    hdefined.append (hfirst.append (hsecond.append hthird))
  have hall := (carrier_eq_iff hmoves).2.1 _ htrace
  refine ⟨a, b, c, ha, hmade, hc, ?_, ?_⟩
  · obtain ⟨hid, hequal⟩ := hall ⟨oneBox.location, none, a⟩ (by simp)
      ⟨oneBox.location, some (.type "Object"), c⟩ (by simp)
    exact hequal.mpr (hid.mpr ⟨BEq.rfl, rfl⟩)
  · obtain ⟨hid, hequal⟩ := hall ⟨oneBox.location, none, a⟩ (by simp)
      ⟨oneBox.location, some (.type "String"), b⟩ (by simp)
    intro heq
    cases (hid.mp (hequal.mp heq)).2

end Scene

end Specialization

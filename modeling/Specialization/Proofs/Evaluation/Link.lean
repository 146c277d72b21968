import Specialization.Proofs.Evaluation.Sharing

/-!
Constants fixed at link time. A pass that finds one shares it with everything it reads, and from
then on every pass on the link cache takes it from there, under whatever scope and with whatever
functions.
-/

namespace Specialization

/-- A link cache has a constant and all that it reads. -/
structure Analysis.Shares (analysis : Analysis) (link : Values) (name : String) (value : Value) :
    Prop where
  value : link.lookup name = some value
  plan : ∀ other ∈ analysis.evaluationPlan name, (link.lookup other).isSome

theorem Analysis.Shares.extend {analysis : Analysis} {link larger : Values} {name : String}
    {value : Value} (h : analysis.Shares link name value) (hextends : Extends link larger) :
    analysis.Shares larger name value := by
  refine ⟨hextends name value h.value, ?_⟩
  intro other hother
  obtain ⟨known, hknown⟩ := Option.isSome_iff_exists.mp (h.plan other hother)
  exact Option.isSome_of_eq_some (hextends other known hknown)

namespace Evaluator

variable {evaluator : Evaluator} {name : String} {pass next last : Pass} {value : Value}
  {cache link : Values} {result : Except ConstantError Unit}

theorem not_isAnchored_of_mem (haccepted : evaluator.analysis.Accepted)
    (hname : evaluator.analysis.contains name) (hroot : ¬ evaluator.analysis.isAnchored name)
    {other : String} (hother : other ∈ evaluator.analysis.evaluationPlan name) :
    ¬ evaluator.analysis.isAnchored other := by
  rw [evaluationPlan_eq_closure haccepted hname] at hother
  have hleads := (mem_closure.mp hother).2
  rw [haccepted.isAnchored_iff (haccepted.contains_leads hname hleads)]
  rintro ⟨anchor, hreads, hanchor⟩
  exact hroot ((haccepted.isAnchored_iff hname).mpr ⟨anchor, hleads.trans hreads, hanchor⟩)

theorem mem_evaluationPlan (haccepted : evaluator.analysis.Accepted)
    (hname : evaluator.analysis.contains name) :
    name ∈ evaluator.analysis.evaluationPlan name := by
  rw [evaluationPlan_eq_closure haccepted hname]
  exact mem_closure.mpr ⟨haccepted.mem_order.mpr hname, .refl⟩

/-- What a pass found of the constants fixed at link time, its link cache has. -/
structure SharesFound (evaluator : Evaluator) (pass : Pass) (link : Values) : Prop where
  cache : pass.cache = some link
  found : ∀ other value, ¬ evaluator.analysis.isAnchored other →
    pass.value? other = some value → link.lookup other = some value

/-- One more value, which is shared unless it varies with an anchor. -/
theorem SharesFound.remember (h : evaluator.SharesFound pass link) {larger : Values}
    (hcache : next.cache = some larger) (hextends : Extends link larger)
    (hmemo : next.memo = (name, value) :: pass.memo)
    (hvalue : ¬ evaluator.analysis.isAnchored name → larger.lookup name = some value) :
    evaluator.SharesFound next larger := by
  refine ⟨hcache, ?_⟩
  intro other known hroot hknown
  rw [Pass.value?, hmemo, List.lookup_cons] at hknown
  split at hknown
  · rename_i heq
    obtain rfl := eq_of_beq heq
    cases hknown
    exact hvalue hroot
  · exact hextends other known (h.found other known hroot hknown)

theorem Stepped.sharesFound (hstep : Stepped evaluator name pass result next)
    (h : evaluator.SharesFound pass link) : ∃ larger, evaluator.SharesFound next larger := by
  have hshared : pass.shared? name = link.lookup name := by
    rw [Pass.shared?, h.cache, Option.bind_some]
  cases hstep with
  | known => exact ⟨link, h⟩
  | computed _ hroot _ =>
      exact ⟨link, h.remember h.cache (Extends.refl link) rfl fun hplain => absurd hroot hplain⟩
  | hit _ _ hhit =>
      exact ⟨link, h.remember h.cache (Extends.refl link) rfl fun _ => hshared ▸ hhit⟩
  | published _ _ hmiss _ =>
      exact ⟨_, h.remember (congrArg (Option.map _) h.cache) (Extends.cons (hshared ▸ hmiss) _) rfl
        fun _ => List.lookup_cons_self⟩
  | failed => exact ⟨link, h.cache, h.found⟩

theorem Stepped.found (hstep : Stepped evaluator name pass (.ok ()) next) :
    (next.value? name).isSome := by
  cases hstep with
  | known hknown => exact hknown
  | computed => exact Option.isSome_of_eq_some List.lookup_cons_self
  | hit => exact Option.isSome_of_eq_some List.lookup_cons_self
  | published => exact Option.isSome_of_eq_some List.lookup_cons_self

/-- Steps that succeed find all that they are for, and what they find is shared. -/
theorem forM_step_sharesFound (names : List String) {pass last : Pass}
    (hrun : exec (names.forM evaluator.step) pass = (.ok (), last)) {link : Values}
    (h : evaluator.SharesFound pass link) :
    (∃ larger, evaluator.SharesFound last larger) ∧
      ∀ other ∈ names, (last.value? other).isSome := by
  induction names generalizing pass link with
  | nil =>
      cases hrun
      exact ⟨⟨link, h⟩, nofun⟩
  | cons name rest ih =>
      have hstep := exec_step evaluator name pass
      rw [exec_forM_cons] at hrun
      rcases hfirst : exec (evaluator.step name) pass with ⟨error | done, next⟩
      · rw [exec_bind_error hfirst] at hrun
        cases hrun
      · rw [exec_bind_ok hfirst] at hrun
        rw [hfirst] at hstep
        obtain ⟨middle, hmiddle⟩ := hstep.sharesFound h
        obtain ⟨hlast, hfound⟩ := ih hrun hmiddle
        refine ⟨hlast, ?_⟩
        intro other hother
        rcases List.mem_cons.mp hother with rfl | hrest
        · have hgrows := forM_step_grows evaluator rest next
          rw [hrun] at hgrows
          obtain ⟨known, hknown⟩ := Option.isSome_iff_exists.mp hstep.found
          exact Option.isSome_of_eq_some (hgrows.memo other known hknown)
        · exact hfound other hrest

/-- A call for a constant fixed at link time shares it with all that it reads. -/
theorem evaluate_shares (haccepted : evaluator.analysis.Accepted)
    (hroot : ¬ evaluator.analysis.isAnchored name)
    (h : exec (evaluator.evaluate name) { cache := some cache } = (.ok value, pass)) :
    evaluator.analysis.contains name ∧
      ∃ link, pass.cache = some link ∧ evaluator.analysis.Shares link name value := by
  by_cases hname : evaluator.analysis.contains name
  · refine ⟨hname, ?_⟩
    rw [exec_evaluate hname] at h
    simp only [Pass.value?, List.lookup_nil] at h
    split at h
    · rename_i last hrun
      split at h
      · rename_i known hknown
        cases h
        have hstart : evaluator.SharesFound { cache := some cache } cache := by
          refine ⟨rfl, ?_⟩
          intro other known _ hknown
          cases hknown
        obtain ⟨⟨link, hlink⟩, hfound⟩ := forM_step_sharesFound _ hrun hstart
        refine ⟨link, hlink.cache, hlink.found name value hroot hknown, ?_⟩
        intro other hother
        obtain ⟨known, hknown⟩ := Option.isSome_iff_exists.mp (hfound other hother)
        have hplain := not_isAnchored_of_mem haccepted hname hroot hother
        exact Option.isSome_of_eq_some (hlink.found other known hplain hknown)
      · cases h
    · cases h
  · rw [evaluate_undeclared hname] at h
    cases h

/-- Steps over constants that are shared succeed, and leave the link cache as it is. -/
theorem forM_step_shared (names : List String) {pass : Pass} (hlink : pass.cache = some link)
    (hshared : ∀ other ∈ names, ¬ evaluator.analysis.isAnchored other ∧
      (link.lookup other).isSome) :
    ∃ last, exec (names.forM evaluator.step) pass = (.ok (), last) ∧ last.cache = some link := by
  induction names generalizing pass with
  | nil => exact ⟨pass, rfl, hlink⟩
  | cons name rest ih =>
      obtain ⟨hroot, hname⟩ := hshared name List.mem_cons_self
      obtain ⟨value, hvalue⟩ := Option.isSome_iff_exists.mp hname
      have hstep := exec_step evaluator name pass
      rcases hfirst : exec (evaluator.step name) pass with ⟨done, next⟩
      rw [hfirst] at hstep
      have hnext : done = .ok () ∧ next.cache = some link := by
        cases hnew : pass.value? name with
        | none =>
            have hhit : pass.shared? name = some value := by
              rw [Pass.shared?, hlink, Option.bind_some, hvalue]
            obtain ⟨hok, hcache, _⟩ := hstep.of_shared hnew hroot hhit
            exact ⟨hok, hcache.trans hlink⟩
        | some known =>
            cases hstep with
            | known => exact ⟨rfl, hlink⟩
            | computed hnone | hit hnone | published hnone | failed hnone => simp [hnew] at hnone
      obtain ⟨rfl, hcache⟩ := hnext
      obtain ⟨last, hlast, hfinal⟩ := ih hcache fun other hother =>
        hshared other (List.mem_cons_of_mem name hother)
      exact ⟨last, by rw [exec_forM_cons, exec_bind_ok hfirst, hlast], hfinal⟩

/-- A call for a constant that is shared with all that it reads takes the shared value. -/
theorem evaluate_shared (haccepted : evaluator.analysis.Accepted)
    (hname : evaluator.analysis.contains name) (hroot : ¬ evaluator.analysis.isAnchored name)
    (h : evaluator.analysis.Shares link name value) :
    (exec (evaluator.evaluate name) { cache := some link }).1 = .ok value := by
  have hstart : evaluator.SharesFound { cache := some link } link := ⟨rfl, nofun⟩
  obtain ⟨last, hrun, hcache⟩ := forM_step_shared (evaluator.analysis.evaluationPlan name)
    hstart.cache fun other hother =>
      ⟨not_isAnchored_of_mem haccepted hname hroot hother, h.plan other hother⟩
  obtain ⟨⟨larger, hlarger⟩, hfound⟩ := forM_step_sharesFound _ hrun hstart
  obtain rfl := Option.some.inj (hcache.symm.trans hlarger.cache)
  obtain ⟨known, hknown⟩ := Option.isSome_iff_exists.mp
    (hfound name (mem_evaluationPlan haccepted hname))
  have heq : value = known :=
    Option.some.inj (h.value.symm.trans (hlarger.found name known hroot hknown))
  rw [exec_evaluate hname]
  simp only [Pass.value?, List.lookup_nil, hrun] at hknown ⊢
  rw [hknown, heq]

/-- Anchors have no values without parameters, and nothing shared stands for them. -/
theorem Stepped.no_anchor (hstep : Stepped evaluator name pass result next)
    (haccepted : evaluator.analysis.Accepted) (hscope : evaluator.scope = .unbound)
    (h : ∀ anchor, evaluator.analysis.IsAnchor anchor → pass.value? anchor = none) :
    ∀ anchor, evaluator.analysis.IsAnchor anchor → next.value? anchor = none := by
  rintro anchor ⟨id, parent, hexpr⟩
  have hroot : evaluator.analysis.isAnchored anchor := by
    rw [Analysis.isAnchored, haccepted.root_of_anchor hexpr]
    rfl
  have hvalueless : ∀ values value, evaluator.constant values anchor ≠ .ok value := by
    intro values value
    have hparameters : ∀ level, evaluator.scope.parameters level = none := by
      rw [hscope]
      rintro (_ | _) <;> rfl
    simp only [constant, hexpr, expr, dereference, hparameters]
    split <;> rintro ⟨⟩
  have hold := h anchor ⟨id, parent, hexpr⟩
  have hremembered : ∀ value, name ≠ anchor →
      ((name, value) :: pass.memo).lookup anchor = none := fun value hne => by
    rw [lookup_cons_of_ne (Ne.symm hne)]
    exact hold
  cases hstep with
  | known => exact hold
  | failed => exact hold
  | computed _ _ hvalue =>
      exact hremembered _ fun heq => hvalueless _ _ (heq ▸ hvalue)
  | hit _ hplain => exact hremembered _ fun heq => hplain (heq ▸ hroot)
  | published _ hplain => exact hremembered _ fun heq => hplain (heq ▸ hroot)

theorem forM_step_no_anchor (haccepted : evaluator.analysis.Accepted)
    (hscope : evaluator.scope = .unbound) (names : List String) {pass : Pass}
    (h : ∀ anchor, evaluator.analysis.IsAnchor anchor → pass.value? anchor = none) :
    ∀ anchor, evaluator.analysis.IsAnchor anchor →
      (exec (names.forM evaluator.step) pass).2.value? anchor = none := by
  induction names generalizing pass with
  | nil => exact h
  | cons name rest ih =>
      have hnext := (exec_step evaluator name pass).no_anchor haccepted hscope h
      rw [exec_forM_cons]
      rcases hfirst : exec (evaluator.step name) pass with ⟨error | done, next⟩
      · rw [hfirst] at hnext
        rw [exec_bind_error hfirst]
        exact hnext
      · rw [hfirst] at hnext
        rw [exec_bind_ok hfirst]
        exact ih hnext

/-- A call for a constant that varies with an anchor fails without parameters, whatever the link
cache has. -/
theorem evaluate_unbound (haccepted : evaluator.analysis.Accepted)
    (hscope : evaluator.scope = .unbound) (hroot : evaluator.analysis.isAnchored name)
    (value : Value) :
    (exec (evaluator.evaluate name) { cache := some cache }).1 ≠ .ok value := by
  intro h
  have hname : evaluator.analysis.contains name := by
    by_contra hundeclared
    rw [evaluate_undeclared hundeclared] at h
    cases h
  obtain ⟨anchor, hreads, hanchor⟩ := (haccepted.isAnchored_iff hname).mp hroot
  have hplanned : anchor ∈ evaluator.analysis.evaluationPlan name := by
    rw [evaluationPlan_eq_closure haccepted hname]
    exact mem_closure.mpr ⟨haccepted.mem_order.mpr (haccepted.contains_leads hname hreads), hreads⟩
  rw [exec_evaluate hname] at h
  simp only [Pass.value?, List.lookup_nil] at h
  split at h
  · rename_i last hrun
    have hstart : evaluator.SharesFound { cache := some cache } cache := by
      refine ⟨rfl, ?_⟩
      rintro other value _ ⟨⟩
    have hempty : ∀ other, evaluator.analysis.IsAnchor other →
        ({ cache := some cache } : Pass).value? other = none := fun _ _ => rfl
    have hnone := forM_step_no_anchor haccepted hscope (evaluator.analysis.evaluationPlan name)
      hempty anchor hanchor
    have hfound := (forM_step_sharesFound _ hrun hstart).2 anchor hplanned
    rw [hrun] at hnone
    rw [hnone] at hfound
    cases hfound
  · cases h

end Evaluator

end Specialization

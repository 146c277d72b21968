import Specialization.Proofs.Evaluation.Pass

/-!
Sharing between scopes. Only anchors read the scope, so a constant means the same under two scopes
that give the anchors it reads, directly or through others, the same parameters. A constant that is
fixed at link time reads no anchor, and a link cache that was filled under one scope serves passes
under any other.
-/

namespace Specialization

namespace Evaluator

variable {evaluator : Evaluator} {acyclic : evaluator.analysis.Acyclic} {name : String}

/-- The same evaluator under another scope. -/
abbrev under (evaluator : Evaluator) (scope : Scope) : Evaluator :=
  { evaluator with scope }

/-- Another scope gives the anchors that a constant reads the same parameters. -/
def SameParameters (evaluator : Evaluator) (scope : Scope) (name : String) : Prop :=
  ∀ anchor id parent, evaluator.analysis.graph.Leads name anchor →
    evaluator.analysis.expr? anchor = some (.anchor id parent) →
      (evaluator.under scope).dereference id = evaluator.dereference id

theorem SameParameters.leads {scope : Scope} (h : evaluator.SameParameters scope name)
    {other : String} (hleads : evaluator.analysis.graph.Leads name other) :
    evaluator.SameParameters scope other :=
  fun anchor id parent hreads => h anchor id parent (hleads.trans hreads)

theorem constant_under {scope : Scope} (h : evaluator.SameParameters scope name)
    {values values' : String → Option Value}
    (hvalues : ∀ child ∈ evaluator.analysis.graph.next name, values child = values' child) :
    (evaluator.under scope).constant values name = evaluator.constant values' name := by
  simp only [constant, under]
  cases hexpr : evaluator.analysis.expr? name with
  | none => rfl
  | some expr =>
      rw [Analysis.next_of_expr hexpr] at hvalues
      refine expr_congr ?_ ?_ hvalues ?_
      · rfl
      · rfl
      · rintro id parent rfl
        exact h name id parent .refl hexpr

/-- A constant gives the same under a scope with the same parameters for the anchors it reads. -/
theorem outcome_under {scope : Scope} (h : evaluator.SameParameters scope name) :
    (evaluator.under scope).outcome acyclic name = evaluator.outcome acyclic name := by
  induction name using acyclic.induction with
  | h name ih =>
      have hbelow : ∀ child ∈ evaluator.analysis.graph.next name,
          (evaluator.under scope).value? acyclic child = evaluator.value? acyclic child := by
        intro child hchild
        rw [value?, ih child hchild (h.leads (.single hchild)), value?]
      have hready :
          (∀ child ∈ (evaluator.under scope).analysis.graph.next name,
            ((evaluator.under scope).value? acyclic child).isSome) ↔
              ∀ child ∈ evaluator.analysis.graph.next name,
                (evaluator.value? acyclic child).isSome := by
        apply forall₂_congr
        intro child hchild
        rw [hbelow child hchild]
      rw [@outcome_eq (evaluator.under scope) acyclic, @outcome_eq evaluator acyclic,
        constant_under h hbelow]
      simp only [hready]

theorem value?_under {scope : Scope} (h : evaluator.SameParameters scope name) :
    (evaluator.under scope).value? acyclic name = evaluator.value? acyclic name := by
  rw [value?, outcome_under h, value?]

/-- Nor can the scopes be told apart by a call, whatever the pass knows and shares. -/
theorem evaluate_under (haccepted : evaluator.analysis.Accepted) {scope : Scope}
    (h : evaluator.SameParameters scope name) (pass : Pass) :
    exec ((evaluator.under scope).evaluate name) pass = exec (evaluator.evaluate name) pass := by
  by_cases hname : evaluator.analysis.contains name
  · have hsteps : ∀ other ∈ evaluator.analysis.evaluationPlan name,
        (evaluator.under scope).step other = evaluator.step other := by
      intro other hother
      rw [evaluationPlan_eq_closure haccepted hname] at hother
      have hsame := h.leads (mem_closure.mp hother).2
      have hconstant : ∀ values : String → Option Value,
          (evaluator.under scope).constant values other = evaluator.constant values other :=
        fun values => constant_under hsame fun _ _ => rfl
      simp only [step, hconstant]
    simp only [evaluate, forM_congr hsteps]
  · have hname' : ¬ (evaluator.under scope).analysis.contains name := hname
    rw [evaluate_undeclared hname', evaluate_undeclared hname]

/-- A constant that reads no anchor has the same parameters under every scope: none. -/
theorem sameParameters_of_unanchored
    (h : ∀ anchor, ¬ evaluator.analysis.ReadsAnchor name anchor) (scope : Scope) :
    evaluator.SameParameters scope name :=
  fun anchor id parent hleads hexpr => absurd ⟨hleads, id, parent, hexpr⟩ (h anchor)

/-- The root of a constant that is fixed at link time covers no anchor, so none is read. -/
theorem unanchored_of_root (haccepted : evaluator.analysis.Accepted)
    (hroot : evaluator.analysis.root? name = some .constant) (anchor : String) :
    ¬ evaluator.analysis.ReadsAnchor name anchor := by
  intro hreads
  obtain ⟨root, hroot', hhas⟩ := haccepted.root_covers (Analysis.contains_of_reads hreads)
  rw [hroot] at hroot'
  cases hroot'
  exact (hhas.covers anchor).mpr hreads

/-- A link cache that is right under one scope is right under every scope. -/
theorem Linked.under (haccepted : evaluator.analysis.Accepted) {cache : Values}
    (h : evaluator.Linked acyclic cache) (scope : Scope) :
    (evaluator.under scope).Linked acyclic cache := by
  intro entry hentry
  obtain ⟨hroot, hvalue⟩ := h entry hentry
  have hplain := unanchored_of_root haccepted hroot
  refine ⟨hroot, ?_⟩
  rw [value?_under (sameParameters_of_unanchored hplain scope)]
  exact hvalue

/-- What a new evaluator gives, which knows nothing and has no link cache. -/
def evaluateAnew (evaluator : Evaluator) (name : String) : Except ConstantError Value :=
  (exec (evaluator.evaluate name) {}).1

theorem evaluateAnew_eq (haccepted : evaluator.analysis.Accepted)
    (hname : evaluator.analysis.contains name) :
    evaluator.evaluateAnew name = evaluator.meaning haccepted.acyclic name := by
  have hempty : evaluator.Exact haccepted.acyclic {} :=
    ⟨fun _ _ h => (nomatch h), fun _ h => (nomatch h)⟩
  exact (evaluate_exact haccepted hname hempty).1

theorem evaluateAnew_under (haccepted : evaluator.analysis.Accepted) {scope : Scope}
    (h : evaluator.SameParameters scope name) :
    (evaluator.under scope).evaluateAnew name = evaluator.evaluateAnew name := by
  rw [evaluateAnew, evaluate_under haccepted h, evaluateAnew]

/-- Anchors of one level read the same parameters under scopes that agree at that level. -/
theorem sameParameters_of_level {level : Level}
    (hlevel : ∀ anchor, evaluator.analysis.ReadsAnchor name anchor →
      (evaluator.analysis.anchorOf? anchor).map (·.level) = some level) {scope : Scope}
    (h : scope.parameters level = evaluator.scope.parameters level) :
    evaluator.SameParameters scope name := by
  intro anchor id parent hleads hexpr
  have hanchor := hlevel anchor ⟨hleads, id, parent, hexpr⟩
  rw [Analysis.anchorOf?_of_expr hexpr] at hanchor
  obtain ⟨declared, hdeclared, rfl⟩ := Option.map_eq_some_iff.mp hanchor
  simp only [dereference, hdeclared, h]

/-- Evaluation depends on the scope only through the anchors. A constant that is fixed at link time
gives the same under any two scopes, and one that reads anchors of one level only gives the same
under any two scopes with the same parameters at that level. -/
theorem evaluateAnew_eq_of_scopes {declarations : ClassDeclarations} {imported : AnchorTable}
    {analysis : Analysis} (h : analyze declarations imported = .ok analysis) (host : Host)
    (functions : Registry) (name : String) (first second : Scope) :
    let result (scope : Scope) : Except ConstantError Value :=
      evaluateAnew { host, functions, analysis, scope } name
    (analysis.root? name = some .constant → result first = result second) ∧
    ∀ level, (∀ anchor, analysis.ReadsAnchor name anchor →
        (analysis.anchorOf? anchor).map (·.level) = some level) →
      first.parameters level = second.parameters level → result first = result second := by
  intro result
  let evaluator : Evaluator := { host, functions, analysis, scope := second }
  have haccepted : evaluator.analysis.Accepted := ⟨declarations, imported, h⟩
  have hresult : evaluator.SameParameters first name → result first = result second :=
    evaluateAnew_under haccepted
  constructor
  · intro hroot
    exact hresult (sameParameters_of_unanchored (unanchored_of_root haccepted hroot) first)
  · intro level hlevel hparameters
    exact hresult (sameParameters_of_level hlevel hparameters)

/-- A class with a label, and with one list for each level of parameters. -/
def parameterLists : ClassDeclarations where
  descriptor := "Lists"
  anchors := [⟨"T", .ofClass, none⟩, ⟨"M", .ofMethod, none⟩]
  constants := [
    { name := "label", action := "literal", operands := [.string "list"] },
    { name := "T", action := "anchor" },
    { name := "M", action := "anchor" },
    { name := "byClass", action := "list", operands := [.ref "label", .ref "T"] },
    { name := "byMethod", action := "list", operands := [.ref "label", .ref "M"] }]

theorem evaluateAnew_parameterLists :
    ∃ analysis, analyze parameterLists .empty = .ok analysis ∧
      ∀ (host : Host) (parameters : Option Value),
        let result (name : String) (scope : Scope) : Except ConstantError Value :=
          evaluateAnew { host, functions := .standard, analysis, scope } name
        result "label" ⟨parameters, parameters⟩ = .ok (.string "list") ∧
          result "byClass" ⟨some (.type "Long"), parameters⟩ =
            .ok (.list [.string "list", .type "Long"]) ∧
          result "byMethod" ⟨parameters, some (.type "Long")⟩ =
            .ok (.list [.string "list", .type "Long"]) := by
  refine ⟨_, rfl, fun host parameters => ?_⟩
  have hanalysis : analyze parameterLists .empty = .ok _ := rfl
  have haccepted : Analysis.Accepted _ := ⟨_, _, hanalysis⟩
  -- Each list reads the one anchor that is its root, and nothing encloses it.
  have hclass : ∀ anchor, Analysis.ReadsAnchor _ "byClass" anchor → anchor = "T" :=
    fun _ => haccepted.eq_of_outermost rfl rfl
  have hmethod : ∀ anchor, Analysis.ReadsAnchor _ "byMethod" anchor → anchor = "M" :=
    fun _ => haccepted.eq_of_outermost rfl rfl
  have hscopes := fun name => evaluateAnew_eq_of_scopes hanalysis host .standard name
  refine ⟨?_, ?_, ?_⟩
  · exact ((hscopes "label" _ .unbound).1 rfl).trans rfl
  · refine ((hscopes "byClass" _ ⟨some (.type "Long"), none⟩).2 .ofClass ?_ rfl).trans rfl
    intro anchor hreads
    rw [hclass anchor hreads]
    rfl
  · refine ((hscopes "byMethod" _ ⟨none, some (.type "Long")⟩).2 .ofMethod ?_ rfl).trans rfl
    intro anchor hreads
    rw [hmethod anchor hreads]
    rfl

end Evaluator

end Specialization

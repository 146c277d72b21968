import Specialization.Proofs.Evaluation.Dependence
import Specialization.Proofs.Graph.Stack

/-!
Plans of evaluation. The plan of a constant is a part of the order of all constants, and a second
search, from this constant alone, says which part: what the constant refers to, directly or not.
References never leave that part, so it is an order of its own constants, and all of them come
before the one that leads to them.
-/

namespace Specialization

namespace Analysis

variable {declarations : ClassDeclarations} {imported : AnchorTable} {analysis : Analysis}

theorem leads_iff (h : analyze declarations imported = .ok analysis) {name other : String} :
    analysis.graph.Leads name other ↔ Relation.ReflTransGen declarations.Refers name other := by
  have hedges : (fun node child => child ∈ analysis.graph.next node) = declarations.Refers :=
    funext₂ fun _ _ => propext (mem_next_iff h)
  rw [Graph.Leads, hedges]

namespace Accepted

variable {name : String}

theorem mem_plan_iff (h : analysis.Accepted) (hname : analysis.contains name) {other : String} :
    other ∈ analysis.evaluationPlan name ↔ analysis.graph.Leads name other := by
  have hreachable : other ∈ analysis.graph.reachable name ↔ analysis.graph.Leads name other :=
    Graph.mem_reachable h.wired (contains_iff.mp hname)
  rw [evaluationPlan, List.mem_filter, List.contains_iff_mem, hreachable]
  refine ⟨And.right, fun hleads => ⟨?_, hleads⟩⟩
  exact h.mem_order.mpr (h.contains_leads hname hleads)

theorem plan_nodup (h : analysis.Accepted) (name : String) :
    (analysis.evaluationPlan name).Nodup :=
  h.order_nodup.filter _

/-- The part of the order that a plan keeps is closed under references. -/
theorem plan_sorted (h : analysis.Accepted) (hname : analysis.contains name) :
    analysis.graph.Sorted (analysis.evaluationPlan name) := by
  apply h.order_sorted.filter
  intro node child hchild hnode
  have hnodes : name ∈ analysis.graph.nodes := contains_iff.mp hname
  rw [List.contains_iff_mem, Graph.mem_reachable h.wired hnodes] at hnode ⊢
  exact hnode.tail hchild

/-- A plan is an order by one search with a stack, of which it keeps what another one collects. -/
theorem exists_searches (h : analysis.Accepted) (hname : analysis.contains name) :
    ∃ order found, analysis.graph.Sorts (.ok order) ∧
      Graph.Collects analysis.graph.next [name] [] found ∧
      analysis.evaluationPlan name = order.filter found.contains := by
  have hnode : name ∈ analysis.graph.nodes := contains_iff.mp hname
  obtain ⟨found, hfound⟩ := Graph.exists_collects h.wired [name] [] (by simpa using hnode)
  refine ⟨analysis.order, found, (Graph.sorts_iff h.wired).mpr h.graph_order.symm, hfound, ?_⟩
  apply List.filter_congr
  intro other _
  have hsame : other ∈ analysis.graph.reachable name ↔ other ∈ found :=
    (Graph.mem_reachable h.wired hnode).trans (Graph.mem_collects hfound).symm
  simp [hsame]

end Accepted

/-- The plan of a constant has no repetition, and its constants are those that the constant refers
to, directly or not, itself included. Each of them comes after all it refers to, and so the constant
itself comes last. Two searches with a stack, one over all constants and one from this constant,
give the plan. -/
theorem evaluationPlan_of_analyze (h : analyze declarations imported = .ok analysis)
    {root : String} (hroot : root ∈ declarations.constants.map (·.name)) :
    let plan := analysis.evaluationPlan root
    plan.Nodup ∧
      (∀ name, name ∈ plan ↔ Relation.ReflTransGen declarations.Refers root name) ∧
      (∀ before name after, plan = before ++ name :: after →
        ∀ child, declarations.Refers name child → child ∈ before) ∧
      plan.getLast? = some root ∧
      ∃ order found, analysis.graph.Sorts (.ok order) ∧
        Graph.Collects analysis.graph.next [root] [] found ∧
        plan = order.filter found.contains := by
  intro plan
  have haccepted : analysis.Accepted := ⟨declarations, imported, h⟩
  have hdeclared : analysis.contains root := (contains_of_analyze h).mpr hroot
  have hnodup : plan.Nodup := haccepted.plan_nodup root
  have hsorted : analysis.graph.Sorted plan := haccepted.plan_sorted hdeclared
  have hmem : ∀ {name}, name ∈ plan ↔ analysis.graph.Leads root name :=
    haccepted.mem_plan_iff hdeclared
  refine ⟨hnodup, ?_, ?_, ?_, haccepted.exists_searches hdeclared⟩
  · exact fun name => hmem.trans (leads_iff h)
  · intro before name after hsplit child hrefers
    exact hsorted before name after hsplit child ((mem_next_iff h).mpr hrefers)
  · exact hsorted.getLast?_eq hnodup (hmem.mpr .refl) fun _ hother => hmem.mp hother

/-- Constants that share what they refer to, refer to it repeatedly, or are referred to by one that
is not in the plan. -/
def sharedReferences : ClassDeclarations where
  descriptor := "Shared"
  constants := [
    { name := "top", action := "list", operands := [.ref "right", .ref "left", .ref "right"] },
    { name := "above", action := "list", operands := [.ref "top", .ref "base"] },
    { name := "right", action := "list", operands := [.ref "left", .ref "base"] },
    { name := "left", action := "list", operands := [.ref "base", .ref "base"] },
    { name := "base", action := "literal", operands := [.int 1] }]

theorem evaluationPlan_sharedReferences :
    ∃ analysis, analyze sharedReferences .empty = .ok analysis ∧
      analysis.evaluationPlan "top" = ["base", "left", "right", "top"] ∧
      ∀ name, Relation.ReflTransGen sharedReferences.Refers "top" name ↔
        name ∈ ["base", "left", "right", "top"] := by
  refine ⟨_, rfl, by decide, ?_⟩
  have haccepted : analyze sharedReferences .empty = .ok _ := rfl
  have hdeclared : "top" ∈ sharedReferences.constants.map (·.name) := by decide
  obtain ⟨_, hmem, _⟩ := evaluationPlan_of_analyze haccepted hdeclared
  exact fun name => (hmem name).symm

end Analysis

end Specialization

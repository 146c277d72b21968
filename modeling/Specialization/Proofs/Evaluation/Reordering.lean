import Specialization.Proofs.Analysis.Reordering
import Specialization.Proofs.Evaluation.Pass

/-!
Values of a class whose constants are declared in another order. A plan of evaluation follows the
order of the analysis, so where several constants fail, the order decides which error is reported
first. The value of a constant is a matter of the recursion over references, which sees no order.
-/

namespace Specialization

open Analysis

namespace Evaluator

variable {first second evaluator : Evaluator} {name : String}

/-- A constant means a value exactly if the recursion gives it one. -/
theorem toOption_meaning {acyclic : evaluator.analysis.Acyclic}
    (haccepted : evaluator.analysis.Accepted) (hname : evaluator.analysis.contains name) :
    (evaluator.meaning acyclic name).toOption = evaluator.value? acyclic name := by
  cases hvalue : evaluator.value? acyclic name with
  | some value => rw [meaning_of_value hvalue, Except.toOption]
  | none =>
      have hfails : ∃ error,
          (evaluator.closure name).findSome? (evaluator.failure? acyclic) = some error := by
        by_contra hnot
        have hnone : ∀ other ∈ evaluator.closure name,
            evaluator.failure? acyclic other = none := by
          rw [← List.findSome?_eq_none_iff, Option.eq_none_iff_forall_ne_some]
          exact fun error heq => hnot ⟨error, heq⟩
        have hsome : (evaluator.value? acyclic name).isSome := isSome_value? fun other hleads =>
          hnone other (mem_closure.mpr
            ⟨haccepted.mem_order.mpr (haccepted.contains_leads hname hleads), hleads⟩)
        simp [hvalue] at hsome
      obtain ⟨error, herror⟩ := hfails
      rw [meaning, herror, Except.toOption]

/-- Evaluators that differ in nothing but the order of the constants. -/
structure SameSetting (first second : Evaluator) : Prop where
  host : first.host = second.host
  functions : first.functions = second.functions
  scope : first.scope = second.scope
  content : SameContent first.analysis second.analysis

/-- One step of the recursion is the same, up to the error of a name that is not declared. -/
theorem SameSetting.toOption_constant (h : SameSetting first second)
    {values values' : String → Option Value}
    (hvalues : ∀ child ∈ first.analysis.graph.next name, values child = values' child) :
    (first.constant values name).toOption = (second.constant values' name).toOption := by
  simp only [constant, ← h.content.expr]
  cases hexpr : first.analysis.expr? name with
  | none => rfl
  | some expr =>
      rw [next_of_expr hexpr] at hvalues
      have hanchor : ∀ id, first.dereference id = second.dereference id := by
        intro id
        simp only [dereference, h.content.anchor, h.scope]
      exact congrArg Except.toOption
        (expr_congr h.host h.functions hvalues fun id _ _ => hanchor id)

theorem SameSetting.value? (h : SameSetting first second) (acyclic : first.analysis.Acyclic)
    (acyclic' : second.analysis.Acyclic) (name : String) :
    first.value? acyclic name = second.value? acyclic' name := by
  induction name using acyclic.induction with
  | h name ih =>
      have hready : (∀ child ∈ first.analysis.graph.next name,
          (first.value? acyclic child).isSome) ↔ ∀ child ∈ second.analysis.graph.next name,
            (second.value? acyclic' child).isSome := by
        rw [← h.content.next]
        apply forall₂_congr
        intro child hchild
        rw [ih child hchild]
      rw [value?_eq first, value?_eq second, h.toOption_constant ih]
      simp only [hready]

/-- Whatever was called before, a call on a declared constant gives its value, if it has one. -/
theorem toOption_evaluate (haccepted : evaluator.analysis.Accepted)
    (hname : evaluator.analysis.contains name) (calls : List String) :
    (exec (evaluator.evaluate name) (evaluator.after calls)).1.toOption =
      evaluator.value? haccepted.acyclic name := by
  rw [(evaluate_exact haccepted hname (after_exact haccepted haccepted.acyclic calls)).1,
    toOption_meaning haccepted hname]

theorem SameSetting.toOption_evaluate (h : SameSetting first second)
    (hfirst : first.analysis.Accepted) (hsecond : second.analysis.Accepted)
    (calls calls' : List String) (name : String) :
    (exec (first.evaluate name) (first.after calls)).1.toOption =
      (exec (second.evaluate name) (second.after calls')).1.toOption := by
  by_cases hname : first.analysis.contains name
  · rw [Evaluator.toOption_evaluate hfirst hname,
      Evaluator.toOption_evaluate hsecond (h.content.contains.mp hname), h.value?]
  · have hname' : ¬ second.analysis.contains name := fun hother =>
      hname (h.content.contains.mpr hother)
    rw [evaluate_undeclared hname, evaluate_undeclared hname']
    rfl

end Evaluator

namespace ClassDeclarations

/-- The order in which constants are declared decides neither whether a class is accepted nor what
its constants are: they have the same expressions, roots and anchors, the same one maps the
supertype, and each evaluates to the same value or fails, whatever was evaluated before. -/
theorem analyze_reordered (declarations : ClassDeclarations) (imported : AnchorTable)
    {shuffled : List Declaration} (hperm : declarations.constants.Perm shuffled) :
    ((∃ analysis, analyze declarations imported = .ok analysis) ↔
      ∃ analysis, analyze (declarations.reordered shuffled) imported = .ok analysis) ∧
    ∀ first second, analyze declarations imported = .ok first →
      analyze (declarations.reordered shuffled) imported = .ok second →
        (∀ name, first.expr? name = second.expr? name ∧ first.root? name = second.root? name ∧
          first.needsAccessor name = second.needsAccessor name) ∧
        (∀ id, first.anchor? id = second.anchor? id) ∧
        first.superMapping = second.superMapping ∧
        ∀ (host : Host) (functions : Registry) (scope : Scope) (calls calls' : List String)
          (name : String),
          let result (analysis : Analysis) (calls : List String) : Except ConstantError Value :=
            let evaluator : Evaluator := { host, functions, analysis, scope }
            (exec (evaluator.evaluate name) (evaluator.after calls)).1
          ∀ value, result first calls = .ok value ↔ result second calls' = .ok value := by
  refine ⟨accepted_reordered hperm, fun first second hfirst hsecond => ?_⟩
  have hsame : SameContent first second := sameContent_of_reordered hperm hfirst hsecond
  have haccepted : first.Accepted := ⟨declarations, imported, hfirst⟩
  have haccepted' : second.Accepted := ⟨declarations.reordered shuffled, imported, hsecond⟩
  refine ⟨fun name => ⟨hsame.expr name, hsame.root? haccepted haccepted' name,
    hsame.needsAccessor haccepted haccepted' name⟩, hsame.anchor,
    superMapping_reordered hperm hfirst hsecond, ?_⟩
  intro host functions scope calls calls' name result value
  have hsetting : Evaluator.SameSetting ⟨host, functions, first, scope⟩
      ⟨host, functions, second, scope⟩ := ⟨rfl, rfl, rfl, hsame⟩
  have hresult : (result first calls).toOption = (result second calls').toOption :=
    hsetting.toOption_evaluate haccepted haccepted' calls calls' name
  rw [← toOption_eq_some, hresult, toOption_eq_some]

/-- A class with two constants that name no function, and one that reads both. -/
def twoFailures : ClassDeclarations where
  descriptor := "TwoFailures"
  constants := [
    { name := "both", action := "list", operands := [.ref "left", .ref "right"] },
    { name := "left", action := "function", operands := [.function "missing"] },
    { name := "right", action := "function", operands := [.function "absent"] }]

theorem analyze_reordered_twoFailures :
    let reversed := twoFailures.reordered twoFailures.constants.reverse
    ∃ first second, analyze twoFailures .empty = .ok first ∧
      analyze reversed .empty = .ok second ∧
      first.order = ["left", "right", "both"] ∧ second.order = ["right", "left", "both"] ∧
      (∀ name, first.root? name = second.root? name) ∧
      ∀ (host : Host) (functions : Registry) (scope : Scope) (value : Value),
        (exec (Evaluator.evaluate ⟨host, functions, first, scope⟩ "both") {}).1 = .ok value ↔
          (exec (Evaluator.evaluate ⟨host, functions, second, scope⟩ "both") {}).1 = .ok value := by
  intro reversed
  have hperm : twoFailures.constants.Perm twoFailures.constants.reverse :=
    (List.reverse_perm twoFailures.constants).symm
  refine ⟨_, _, rfl, rfl, rfl, rfl, ?_⟩
  obtain ⟨hcontent, _, _, hvalues⟩ :=
    (analyze_reordered twoFailures .empty hperm).2 _ _ rfl rfl
  exact ⟨fun name => (hcontent name).2.1,
    fun host functions scope => hvalues host functions scope [] [] "both"⟩

end ClassDeclarations

end Specialization

import Mathlib.Logic.Function.Basic
import Specialization.Proofs.Analysis.Checks
import Specialization.Proofs.Evaluation.Expression

/-!
From a declaration to what its evaluation reads. Reading a declaration as an expression keeps its
references, in their order and as often as they are given, and evaluating the expression reads no
other constant. So the graph of a class, which has an edge for each reference, misses none.
-/

namespace Specialization

theorem Operand.reference?_of_scalar? {operand : Operand} {value : Value}
    (h : operand.scalar? = some value) : operand.reference? = none := by
  cases operand with
  | ref name => cases h
  | int | double | string | type | function => rfl

namespace Expr

/-- The parent is the one reference among the operands of an anchor. -/
theorem toList_of_anchorParts {id parent id' parent' : Option String} {operands : List Operand}
    (h : anchorParts id parent operands = .ok (id', parent')) :
    parent'.toList = parent.toList ++ Specialization.references operands := by
  fun_induction anchorParts id parent operands with
  | case1 id parent =>
      cases h
      exact (List.append_nil _).symm
  | case2 parent id rest ih => exact ih h
  | case3 id parent rest ih => exact ih h
  | case4 => cases h

theorem references_of_ofOperands {name : String} {action : Action} {operands : List Operand}
    {expr : Expr} (h : ofOperands name action operands = .ok expr) :
    expr.references = Specialization.references operands ∧ expr.action = action := by
  fun_cases ofOperands name action operands
  case case1 operand value hvalue =>
    rw [ofOperands, hvalue] at h
    cases h
    have hnone : operand.reference? = none := Operand.reference?_of_scalar? hvalue
    have hempty : Specialization.references [operand] = [] := List.filterMap_cons_none hnone
    exact ⟨hempty.symm, rfl⟩
  case case17 hentries =>
    rw [ofOperands, hentries] at h
    cases h
    exact ⟨rfl, rfl⟩
  case case18 =>
    obtain ⟨⟨id, parent⟩, hparts, rfl⟩ := map_eq_ok.mp h
    exact ⟨toList_of_anchorParts hparts, rfl⟩
  -- The other forms keep their operands as they are given, and what has no form is refused.
  all_goals first
    | cases h; exact ⟨rfl, rfl⟩
    | simp_all [ofOperands]

/-- The word for the action of a declaration that can be read is known. -/
theorem ofOperands_of_declaration {declaration : Declaration} {expr : Expr}
    (h : ofDeclaration declaration = .ok expr) :
    ∃ action, Action.ofText? declaration.action = some action ∧
      ofOperands declaration.name action declaration.operands = .ok expr := by
  have hparsed := mapError_eq_ok.mp h
  cases haction : Action.ofText? declaration.action with
  | none =>
      rw [haction] at hparsed
      cases hparsed
  | some action =>
      rw [haction] at hparsed
      exact ⟨action, rfl, hparsed⟩

theorem references_of_declaration {declaration : Declaration} {expr : Expr}
    (h : ofDeclaration declaration = .ok expr) :
    expr.references = declaration.references ∧ expr.action.text = declaration.action := by
  obtain ⟨action, haction, hparsed⟩ := ofOperands_of_declaration h
  obtain ⟨hreferences, rfl⟩ := references_of_ofOperands hparsed
  exact ⟨hreferences, Action.text_of_ofText? haction⟩

end Expr

/-- One declared constant refers to another. -/
def ClassDeclarations.Refers (declarations : ClassDeclarations) (name child : String) : Prop :=
  ∃ declaration ∈ declarations.constants,
    declaration.name = name ∧ child ∈ declaration.references

namespace Analysis

variable {declarations : ClassDeclarations} {imported : AnchorTable} {analysis : Analysis}

/-- The expressions of an accepted class are those of its declarations. -/
theorem expr?_of_analyze (h : analyze declarations imported = .ok analysis) {name : String}
    {expr : Expr} (hexpr : analysis.expr? name = some expr) :
    ∃ declaration ∈ declarations.constants,
      declaration.name = name ∧ Expr.ofDeclaration declaration = .ok expr := by
  have hmem : ⟨name, expr⟩ ∈ analysis.constants :=
    (mem_constants_iff (names_of_analyze h).1).mpr hexpr
  rw [ClassDeclarations.constants_of_analyze h] at hmem
  exact ClassDeclarations.mem_draft_constants.mp hmem

/-- The edges of the graph are the references that are declared. -/
theorem mem_next_iff (h : analyze declarations imported = .ok analysis) {name child : String} :
    child ∈ analysis.graph.next name ↔ declarations.Refers name child := by
  constructor
  · intro hchild
    obtain ⟨expr, hexpr⟩ := Option.isSome_iff_exists.mp (contains_of_next hchild)
    obtain ⟨declaration, hmem, hname, hparsed⟩ := expr?_of_analyze h hexpr
    rw [next_of_expr hexpr, (Expr.references_of_declaration hparsed).1] at hchild
    exact ⟨declaration, hmem, hname, hchild⟩
  · rintro ⟨declaration, hmem, rfl, hchild⟩
    have hdeclared : analysis.contains declaration.name :=
      (contains_of_analyze h).mpr (List.mem_map_of_mem hmem)
    obtain ⟨expr, hexpr⟩ := Option.isSome_iff_exists.mp hdeclared
    obtain ⟨other, hother, hname, hparsed⟩ := expr?_of_analyze h hexpr
    have hnames : (declarations.constants.map (·.name)).Nodup :=
      (names_of_analyze h).2 ▸ (names_of_analyze h).1
    rw [List.inj_on_of_nodup_map hnames hother hmem hname] at hparsed
    rw [next_of_expr hexpr, (Expr.references_of_declaration hparsed).1]
    exact hchild

end Analysis

namespace Evaluator

variable {evaluator : Evaluator} {values : String → Option Value}

/-- An evaluation reads a constant if it cannot do without a value of it: with the value taken
away, it fails for want of it. -/
def Reads (evaluator : Evaluator) (values : String → Option Value) (expr : Expr) (name : String) :
    Prop :=
  evaluator.expr (Function.update values name none) expr = .error (missing expr.action name)

theorem eq_of_missing {action action' : Action} {name name' : String}
    (h : missing action name = missing action' name') : name = name' := by
  have hparts : action.text = action'.text ∧ name = name' := by
    simpa [missing, Operand.text] using h
  exact hparts.2

theorem Proper.ne_missing {error : ConstantError} (h : Proper error) (action : Action)
    (name : String) : error ≠ missing action name := by
  obtain ⟨_, _, fault, rfl, hevaluated, _⟩ := h
  intro heq
  cases heq
  exact hevaluated rfl

theorem dereference_failsOnly (id : String) (action : Action) (name : String) :
    FailsOnly (· ≠ missing action name) (evaluator.dereference id) := by
  unfold dereference
  split
  · exact FailsOnly.error (by simp [missing])
  · split
    · exact FailsOnly.ok _
    · exact FailsOnly.error (by simp [missing])

/-- Evaluation reads no constant but those that the expression refers to. -/
theorem mem_references_of_reads {expr : Expr} {name : String}
    (h : evaluator.Reads values expr name) : name ∈ expr.references := by
  by_contra hname
  have hother : FailsOnly (· ≠ missing expr.action name)
      (evaluator.expr (Function.update values name none) expr) := by
    apply expr_failsOnly
    · exact fun error hproper => hproper.ne_missing _ _
    · intro other hother _ heq
      exact hname (eq_of_missing heq ▸ hother)
    · intro id _ _
      exact dereference_failsOnly id _ _
  exact hother _ h rfl

end Evaluator

/-- No reference of a declaration is lost on the way to its evaluation: its expression has the same
references and the same action, evaluation reads constants among those references only, and so it
depends on the values of no others. -/
theorem Expr.dependencies_of_ofDeclaration {declaration : Declaration} {expr : Expr}
    (h : Expr.ofDeclaration declaration = .ok expr) :
    expr.references = declaration.references ∧ expr.action.text = declaration.action ∧
      ∀ (evaluator : Evaluator) (values : String → Option Value),
        (∀ name, evaluator.Reads values expr name → name ∈ declaration.references) ∧
        ∀ values' : String → Option Value,
          (∀ name ∈ declaration.references, values name = values' name) →
          evaluator.expr values expr = evaluator.expr values' expr := by
  obtain ⟨hreferences, haction⟩ := references_of_declaration h
  refine ⟨hreferences, haction, fun evaluator values => ⟨?_, ?_⟩⟩
  · intro name hreads
    exact hreferences ▸ Evaluator.mem_references_of_reads hreads
  · intro values' hagree
    apply Evaluator.expr_congr rfl rfl
    · rw [hreferences]
      exact hagree
    · exact fun _ _ _ => rfl

/-- A call of one constant on another, which it reads twice. -/
def repeatedCall : Declaration where
  name := "both"
  action := "eval"
  operands := [.ref "pair", .ref "item", .int 1, .ref "item"]

theorem Expr.dependencies_repeatedCall :
    ∃ expr, Expr.ofDeclaration repeatedCall = .ok expr ∧
      expr.references = ["pair", "item", "item"] ∧ expr.action.text = "eval" ∧
      ∀ (evaluator : Evaluator) (values : String → Option Value),
        evaluator.Reads values expr "pair" ∧
        ∀ name, evaluator.Reads values expr name → name = "pair" ∨ name = "item" := by
  have hparsed : Expr.ofDeclaration repeatedCall =
      .ok (.eval (.ref "pair") [.ref "item", .int 1, .ref "item"]) := rfl
  obtain ⟨hreferences, haction, hreads⟩ := Expr.dependencies_of_ofDeclaration hparsed
  refine ⟨_, hparsed, hreferences, haction, fun evaluator values => ⟨rfl, ?_⟩⟩
  intro name hname
  have hmem : name ∈ ["pair", "item", "item"] := (hreads evaluator values).1 name hname
  simpa using hmem

end Specialization

import Specialization.Analysis
import Specialization.Proofs.Graph.Order
import Specialization.Proofs.Execution

/-!
What an accepted class looks like: its constants have different names, all they refer to is
declared, and its order lists each of them once, after everything it refers to. References are
therefore well founded, which is what lets the roots and the values of constants be described by
recursion over them.
-/

namespace Specialization

namespace Analysis

/-- The stages of an analysis that accepts a class, with what each of them gives. -/
structure Stages (declarations : ClassDeclarations) (imported : AnchorTable)
    (analysis : Analysis) : Prop where
  descriptor : analysis.descriptor = declarations.descriptor
  anchors : AnchorTable.ofList declarations.anchors = .ok analysis.anchors
  constants : declarations.constants.foldlM readDeclaration [] = .ok analysis.constants
  resolved : unresolved? analysis.constants = none
  order : analysis.graph.order = .ok analysis.order
  roots : ∃ known, classify analysis.constants analysis.anchors imported analysis.order =
    .ok known ∧ analysis.roots = known.roots ∧ analysis.crossClass = known.crossClass
  superMapping : supertypeMapping analysis.constants = .ok analysis.superMapping
  imported : analysis.imported = imported

theorem stages_of_analyze {declarations : ClassDeclarations} {imported : AnchorTable}
    {analysis : Analysis} (h : analyze declarations imported = .ok analysis) :
    Stages declarations imported analysis := by
  simp only [analyze, bind_eq_ok] at h
  obtain ⟨anchors, hanchors, constants, hconstants, h⟩ := h
  split at h
  · cases h
  · rename_i hresolved
    simp only [bind_eq_ok, mapError_eq_ok] at h
    obtain ⟨order, horder, known, hknown, superMapping, hmapping, h⟩ := h
    cases h
    have hnone : unresolved? constants = none :=
      Option.eq_none_iff_forall_ne_some.mpr fun found heq => hresolved found.1 found.2 heq
    exact ⟨rfl, hanchors, hconstants, hnone, horder, ⟨known, hknown, rfl, rfl⟩, hmapping, rfl⟩

/-- An analysis that accepts some class. -/
def Accepted (analysis : Analysis) : Prop :=
  ∃ declarations imported, analyze declarations imported = .ok analysis

theorem find?_eq_some {constants : List Constant} {name : String} {constant : Constant}
    (h : find? constants name = some constant) : constant ∈ constants ∧ constant.name = name :=
  ⟨List.mem_of_find?_eq_some h, by simpa using List.find?_some h⟩

theorem isSome_find? {constants : List Constant} {name : String} :
    (find? constants name).isSome ↔ name ∈ constants.map (·.name) := by
  simp [find?, List.find?_isSome]

/-- A declaration that is read adds its name, which is a new one, at the end. -/
theorem readDeclaration_names {constants next : List Constant} {declaration : Declaration}
    (h : readDeclaration constants declaration = .ok next) :
    declaration.name ∉ constants.map (·.name) ∧
      next.map (·.name) = constants.map (·.name) ++ [declaration.name] := by
  unfold readDeclaration at h
  split at h
  · cases h
  · rename_i hnew
    rw [bind_eq_ok] at h
    obtain ⟨expr, _, h⟩ := h
    cases h
    exact ⟨fun hmem => hnew (isSome_find?.mpr hmem), by simp⟩

theorem readDeclarations_names {declarations : List Declaration} {last : List Constant}
    (h : declarations.foldlM readDeclaration [] = .ok last) :
    (last.map (·.name)).Nodup ∧ last.map (·.name) = declarations.map (·.name) := by
  refine foldlM_invariant (fun done constants => (constants.map (·.name)).Nodup ∧
    constants.map (·.name) = done.map (·.name)) ⟨List.nodup_nil, rfl⟩ ?_ h
  rintro done declaration _ constants next _ ⟨hnames, heq⟩ hnext
  obtain ⟨hfresh, hadded⟩ := readDeclaration_names hnext
  rw [hadded]
  constructor
  · exact List.nodup_append_comm.mp (List.nodup_cons.mpr ⟨hfresh, hnames⟩)
  · rw [heq, List.map_append, List.map_singleton]

/-- Where no reference is unresolved, the graph has all the nodes that its edges lead to. -/
theorem wired_of_resolved {constants : List Constant} (h : unresolved? constants = none) :
    (graphOf constants).Wired := by
  intro node _ child hchild
  simp only [graphOf] at hchild ⊢
  split at hchild
  · rename_i constant hfound
    have hnone := List.findSome?_eq_none_iff.mp h constant (find?_eq_some hfound).1
    rw [Option.map_eq_none_iff, List.find?_eq_none] at hnone
    have hdeclared : (find? constants child).isSome := by
      simpa [Option.isSome_iff_ne_none] using hnone child hchild
    exact isSome_find?.mp hdeclared
  · cases hchild

variable {analysis : Analysis}

/-- The names of the declared constants. -/
def names (analysis : Analysis) : List String :=
  analysis.constants.map (·.name)

theorem contains_iff {name : String} : analysis.contains name ↔ name ∈ analysis.names := by
  rw [contains, expr?, Option.isSome_map]
  exact isSome_find?

/-- The constants of an accepted class are those that it declares, under different names. -/
theorem names_of_analyze {declarations : ClassDeclarations} {imported : AnchorTable}
    (h : analyze declarations imported = .ok analysis) :
    analysis.names.Nodup ∧ analysis.names = declarations.constants.map (·.name) := by
  exact readDeclarations_names (stages_of_analyze h).constants

theorem contains_of_analyze {declarations : ClassDeclarations} {imported : AnchorTable}
    (h : analyze declarations imported = .ok analysis) {name : String} :
    analysis.contains name ↔ name ∈ declarations.constants.map (·.name) := by
  rw [contains_iff, (names_of_analyze h).2]

theorem next_eq (analysis : Analysis) (name : String) :
    analysis.graph.next name = ((analysis.expr? name).map Expr.references).getD [] := by
  simp only [graph, graphOf, expr?]
  cases find? analysis.constants name with
  | none => rfl
  | some constant => rfl

theorem next_of_expr {name : String} {expr : Expr} (h : analysis.expr? name = some expr) :
    analysis.graph.next name = expr.references := by
  rw [next_eq, h]
  rfl

theorem contains_of_next {name child : String} (h : child ∈ analysis.graph.next name) :
    analysis.contains name := by
  rw [next_eq] at h
  cases hexpr : analysis.expr? name with
  | none => simp [hexpr] at h
  | some expr => simp [contains, hexpr]

/-- References are well founded, so a property of constants can be defined by what they refer to. -/
def Acyclic (analysis : Analysis) : Prop :=
  WellFounded fun child name => child ∈ analysis.graph.next name

namespace Accepted

theorem names_nodup (h : analysis.Accepted) : analysis.names.Nodup := by
  obtain ⟨declarations, imported, h⟩ := h
  exact (names_of_analyze h).1

theorem wired (h : analysis.Accepted) : analysis.graph.Wired := by
  obtain ⟨declarations, imported, h⟩ := h
  exact wired_of_resolved (stages_of_analyze h).resolved

theorem graph_order (h : analysis.Accepted) : analysis.graph.order = .ok analysis.order := by
  obtain ⟨declarations, imported, h⟩ := h
  exact (stages_of_analyze h).order

theorem order_perm (h : analysis.Accepted) : analysis.order.Perm analysis.names :=
  Graph.order_perm h.wired h.names_nodup h.graph_order

theorem order_nodup (h : analysis.Accepted) : analysis.order.Nodup :=
  h.order_perm.nodup_iff.mpr h.names_nodup

theorem mem_order (h : analysis.Accepted) {name : String} :
    name ∈ analysis.order ↔ analysis.contains name :=
  h.order_perm.mem_iff.trans contains_iff.symm

theorem order_sorted (h : analysis.Accepted) : analysis.graph.Sorted analysis.order :=
  Graph.order_sorted h.wired h.graph_order

theorem contains_leads (h : analysis.Accepted) {name other : String}
    (hname : analysis.contains name) (hleads : analysis.graph.Leads name other) :
    analysis.contains other :=
  contains_iff.mpr (h.wired.leads (contains_iff.mp hname) hleads)

/-- What a constant refers to comes before it. -/
theorem acyclic (h : analysis.Accepted) : analysis.Acyclic :=
  h.order_sorted.wellFounded fun _ _ hchild => h.mem_order.mpr (contains_of_next hchild)

end Accepted

theorem acyclic_of_analyze {declarations : ClassDeclarations} {imported : AnchorTable}
    (h : analyze declarations imported = .ok analysis) : analysis.Acyclic :=
  Accepted.acyclic ⟨declarations, imported, h⟩

end Analysis

end Specialization

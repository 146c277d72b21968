import Specialization.Proofs.Analysis.Acceptance
import Specialization.Proofs.Graph.Stack

/-!
Cycles of references. Where the declarations of a class can be read and its references are resolved,
the search for an order decides whether a constant leads back to itself, and it names one that does.
The anchors are checked before, so a class with a bad table of anchors is rejected for that,
whatever its constants read.
-/

namespace Specialization

open Analysis

namespace ClassDeclarations

variable {declarations : ClassDeclarations} {imported : AnchorTable}

/-- The search for an order decides the rule of cycles. -/
theorem cycles_decides (hread : declarations.Obeys imported .declarations)
    (hresolved : declarations.Obeys imported .references) :
    Decides .cycles (declarations.Obeys imported .cycles)
      ((declarations.draft imported).graph.order.mapError fun name =>
        .topology name .referenceCycle) :=
  order_decides (draft_names_nodup hread) (draft_resolved hread hresolved)

theorem order_of_acyclic (hread : declarations.Obeys imported .declarations)
    (hresolved : declarations.Obeys imported .references)
    (hacyclic : declarations.Obeys imported .cycles) :
    ∃ order, (declarations.draft imported).graph.order = .ok order := by
  obtain ⟨order, horder⟩ := (cycles_decides hread hresolved).exists_ok hacyclic
  exact ⟨order, mapError_eq_ok.mp horder⟩

theorem acyclic_of_order (hread : declarations.Obeys imported .declarations)
    (hresolved : declarations.Obeys imported .references) {order : List String}
    (h : (declarations.draft imported).graph.order = .ok order) :
    declarations.Obeys imported .cycles :=
  (cycles_decides hread hresolved).passed order (mapError_eq_ok.mpr h)

/-- A cycle that is reported is one that the order of the constants stops at. -/
theorem order_of_cycle_reported {name : String}
    (h : analyze declarations imported = .error (.topology name .referenceCycle)) :
    declarations.Obeys imported .anchors ∧
      (declarations.draft imported).graph.order = .error name := by
  obtain ⟨hearlier, hcyclic⟩ := obeys_of_error h rfl
  have hanchors := hearlier .anchors (by decide)
  have hread := hearlier .declarations (by decide)
  have hresolved := hearlier .references (by decide)
  refine ⟨hanchors, ?_⟩
  rw [analyze_of_resolved hanchors hread hresolved] at h
  cases horder : (declarations.draft imported).graph.order with
  | ok order => exact absurd (acyclic_of_order hread hresolved horder) hcyclic
  | error found =>
      simp only [horder] at h
      cases h
      rfl

theorem cycle_reported_of_order (hanchors : declarations.Obeys imported .anchors)
    (hread : declarations.Obeys imported .declarations)
    (hresolved : declarations.Obeys imported .references) {name : String}
    (h : (declarations.draft imported).graph.order = .error name) :
    analyze declarations imported = .error (.topology name .referenceCycle) := by
  rw [analyze_of_resolved hanchors hread hresolved]
  simp only [h]
  rfl

theorem order_of_analyze {analysis : Analysis} (h : analyze declarations imported = .ok analysis) :
    (declarations.draft imported).graph.order = .ok analysis.order := by
  rw [graph, ← constants_of_analyze h]
  exact (stages_of_analyze h).order

variable (declarations imported)

/-- The graph of the references is searched by a stack. A class with good anchors is rejected for a
cycle exactly where some constant leads back to itself, and the constant that is named does so.
Without a cycle there is an order of all constants, each after those it reads, and it is the order
of the analysis if the class passes the later checks. -/
theorem analyze_cycles (hread : declarations.Obeys imported .declarations)
    (hresolved : declarations.Obeys imported .references) :
    let graph := (declarations.draft imported).graph
    (∀ result, graph.Sorts result ↔ result = graph.order) ∧
    ((∃ name, analyze declarations imported = .error (.topology name .referenceCycle)) ↔
      declarations.Obeys imported .anchors ∧ ∃ name, graph.OnCycle name) ∧
    (∀ name, analyze declarations imported = .error (.topology name .referenceCycle) →
      graph.OnCycle name) ∧
    ((∀ name, ¬ graph.OnCycle name) → ∃ order, graph.order = .ok order ∧
      order.Perm (declarations.constants.map (·.name)) ∧ graph.Sorted order ∧
      ∀ analysis, analyze declarations imported = .ok analysis → analysis.order = order) := by
  intro graph
  have hwired : graph.Wired := draft_wired hread hresolved
  have hnamed : graph.nodes = declarations.constants.map (·.name) := draft_names hread
  have hcycle : ∀ name, analyze declarations imported = .error (.topology name .referenceCycle) →
      graph.OnCycle name :=
    fun name h => Graph.order_eq_error hwired (order_of_cycle_reported h).2
  refine ⟨fun result => Graph.sorts_iff hwired, ⟨?_, ?_⟩, hcycle, ?_⟩
  · rintro ⟨name, h⟩
    exact ⟨(order_of_cycle_reported h).1, name, hcycle name h⟩
  · rintro ⟨hanchors, name, hname⟩
    cases horder : graph.order with
    | ok order => exact absurd hname (acyclic_of_order hread hresolved horder name)
    | error found => exact ⟨found, cycle_reported_of_order hanchors hread hresolved horder⟩
  · intro hacyclic
    obtain ⟨order, horder⟩ := order_of_acyclic hread hresolved hacyclic
    refine ⟨order, horder, ?_, Graph.order_sorted hwired horder, ?_⟩
    · exact hnamed ▸ Graph.order_perm hwired (hnamed ▸ hread.1) horder
    · intro analysis h
      exact Except.ok.inj ((order_of_analyze h).symm.trans horder)

/-- Two constants that read each other, one of them twice. -/
def cyclic : ClassDeclarations where
  descriptor := "Cyclic"
  constants := [
    { name := "first", action := "list", operands := [.ref "second", .ref "second"] },
    { name := "second", action := "list", operands := [.ref "first"] }]

theorem analyze_cycles_cyclic :
    cyclic.Obeys .empty .declarations ∧ cyclic.Obeys .empty .references ∧
    analyze cyclic .empty = .error (.topology "second" .referenceCycle) ∧
    (cyclic.draft .empty).graph.Sorts (.error "second") ∧
    (cyclic.draft .empty).graph.OnCycle "second" := by
  have hrefused : analyze cyclic .empty = .error (.topology "second" .referenceCycle) := rfl
  have hearlier := (obeys_of_error hrefused rfl).1
  have hread := hearlier .declarations (by decide)
  have hresolved := hearlier .references (by decide)
  obtain ⟨hsorts, _, hcycle, _⟩ := analyze_cycles cyclic .empty hread hresolved
  exact ⟨hread, hresolved, hrefused, (hsorts (.error "second")).mpr rfl, hcycle "second" hrefused⟩

/-- The same constants with an anchor that is nested under a later one. -/
def cyclicMisplaced : ClassDeclarations :=
  { cyclic with anchors := [⟨"T", .ofClass, some "U"⟩, ⟨"U", .ofClass, none⟩] }

/-- A cycle alone does not decide what is reported, even where all names are distinct and all
parents of anchors are declared. -/
theorem cycle_unreported_of_anchors :
    ¬ ∀ (declarations : ClassDeclarations) (imported : AnchorTable),
      (declarations.anchors.map (·.name)).Nodup →
      (∀ anchor ∈ declarations.anchors, ∀ parent, anchor.parent = some parent →
        parent ∈ declarations.anchors.map (·.name)) →
      declarations.Obeys imported .declarations → declarations.Obeys imported .references →
      ((∃ name, analyze declarations imported = .error (.topology name .referenceCycle)) ↔
        ∃ name, (declarations.draft imported).graph.OnCycle name) := by
  intro hall
  have hrefused : analyze cyclicMisplaced .empty = .error (.topology "T" (.parentUndeclared "U")) :=
    rfl
  -- The constants are read as those of the class without the anchors.
  have hcyclic : analyze cyclic .empty = .error (.topology "second" .referenceCycle) := rfl
  have hearlier := (obeys_of_error hcyclic rfl).1
  have hread : cyclicMisplaced.Obeys .empty .declarations := hearlier .declarations (by decide)
  have hresolved : cyclicMisplaced.Obeys .empty .references := hearlier .references (by decide)
  have hcycle : (cyclicMisplaced.draft .empty).graph.OnCycle "second" :=
    Graph.order_eq_error (draft_wired hread hresolved) (order_of_cycle_reported hcyclic).2
  obtain ⟨name, hname⟩ := (hall cyclicMisplaced .empty (by decide) (by decide) hread
    hresolved).mpr ⟨"second", hcycle⟩
  rw [hrefused] at hname
  cases hname

end ClassDeclarations

end Specialization

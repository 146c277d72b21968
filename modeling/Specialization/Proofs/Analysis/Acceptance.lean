import Specialization.Proofs.Analysis.Checks
import Specialization.Proofs.Analysis.Nesting

/-!
Which classes an analysis accepts: those that obey all rules. A class that it refuses is refused for
the first rule that the class violates.
-/

namespace Specialization

open Analysis

/-- An analysis as a sequence of checks. -/
theorem analyze_eq (declarations : ClassDeclarations) (imported : AnchorTable) :
    analyze declarations imported = (do
      let anchors ← AnchorTable.ofList declarations.anchors
      let constants ← declarations.constants.foldlM readDeclaration []
      checkReferences constants
      let order ← (graphOf constants).order.mapError fun name => .topology name .referenceCycle
      let known ← classify constants anchors imported order
      let superMapping ← supertypeMapping constants
      return { descriptor := declarations.descriptor, constants, order, roots := known.roots,
               crossClass := known.crossClass, anchors, imported, superMapping }) := by
  unfold analyze
  congr 1
  funext anchors
  congr 1
  funext constants
  rw [checkReferences]
  cases unresolved? constants with
  | none => rfl
  | some found => rfl

namespace ClassDeclarations

variable (declarations : ClassDeclarations) (imported : AnchorTable)

/-- An analysis checks one rule after the other. From the second check on, the constants are those
of the draft of the class. -/
theorem analyze_checks :
    Checks (declarations.Obeys imported) Rule.all (analyze declarations imported) := by
  rw [analyze_eq]
  refine Decides.followedBy anchors_decides fun anchors hanchors => ?_
  obtain rfl : anchors = (declarations.draft imported).anchors :=
    congrArg AnchorTable.mk (AnchorTable.anchors_ofList hanchors)
  refine Decides.followedBy declarations_decides fun constants hconstants => ?_
  have hread : declarations.Obeys imported .declarations :=
    declarations_decides.passed constants hconstants
  obtain rfl : constants = (declarations.draft imported).constants :=
    constants_of_readDeclarations hconstants
  have hnames : (declarations.draft imported).names.Nodup := draft_names_nodup hread
  refine Decides.followedBy (references_decides hread) fun _ hchecked => ?_
  have hresolved := checkReferences_eq_ok hchecked
  refine Decides.followedBy (order_decides hnames hresolved) fun order horder => ?_
  rw [mapError_eq_ok] at horder
  have hwired : (declarations.draft imported).graph.Wired := wired_of_resolved hresolved
  have hperm := Graph.order_perm hwired hnames horder
  have hnesting : Decides .nesting (declarations.Obeys imported .nesting)
      (classify (declarations.draft imported).constants (declarations.draft imported).anchors
        imported order) :=
    classify_decides (fun _ => hperm.mem_iff.trans contains_iff.symm)
      (hperm.nodup_iff.mpr hnames) (Graph.order_sorted hwired horder)
  refine Decides.followedBy hnesting fun known _ => ?_
  refine Decides.followedBy (supertypeMapping_decides hnames) fun mapping _ => ?_
  exact Checks.done _

/-- Once the declarations of a class are read and its references are resolved, what is left of an
analysis is a matter of its draft. -/
theorem analyze_of_resolved {declarations : ClassDeclarations} {imported : AnchorTable}
    (hanchors : declarations.Obeys imported .anchors)
    (hread : declarations.Obeys imported .declarations)
    (hresolved : declarations.Obeys imported .references) :
    analyze declarations imported = (do
      let draft := declarations.draft imported
      let order ← draft.graph.order.mapError fun name => .topology name .referenceCycle
      let known ← classify draft.constants draft.anchors imported order
      let superMapping ← supertypeMapping draft.constants
      return { draft with order, roots := known.roots, crossClass := known.crossClass,
                          superMapping }) := by
  obtain ⟨anchors, htable⟩ := anchors_decides.exists_ok hanchors
  obtain rfl : anchors = (declarations.draft imported).anchors :=
    congrArg AnchorTable.mk (AnchorTable.anchors_ofList htable)
  obtain ⟨constants, hconstants⟩ := declarations_decides.exists_ok hread
  obtain rfl : constants = (declarations.draft imported).constants :=
    constants_of_readDeclarations hconstants
  obtain ⟨_, hchecked⟩ := (references_decides hread).exists_ok hresolved
  rw [analyze_eq, htable, hconstants]
  simp only [bind, Except.bind, hchecked]
  rfl

/-- An error rejects a class for the rule that it reports, once all earlier rules are obeyed. -/
theorem obeys_of_error {declarations : ClassDeclarations} {imported : AnchorTable}
    {error : ConstantError} (h : analyze declarations imported = .error error) {rule : Rule}
    (hrule : error.rule? = some rule) :
    (∀ earlier ∈ rule.earlier, declarations.Obeys imported earlier) ∧
      ¬ declarations.Obeys imported rule := by
  obtain ⟨before, violated, after, hsplit, hbefore, hnot, hviolated⟩ :=
    (declarations.analyze_checks imported).failed error h
  obtain rfl : rule = violated := Option.some.inj (hrule.symm.trans hviolated)
  exact ⟨Rule.earlier_of_split hsplit ▸ hbefore, hnot⟩

/-- An analysis accepts exactly the classes that obey all rules. Otherwise it reports the first rule
that is violated. The supertype mapping of an accepted class is its one constant of that kind, if
there is one. -/
theorem analyze_iff_obeys :
    ((∃ analysis, analyze declarations imported = .ok analysis) ↔
      ∀ rule, declarations.Obeys imported rule) ∧
    (∀ error, analyze declarations imported = .error error → ∃ rule,
      error.rule? = some rule ∧ ¬ declarations.Obeys imported rule ∧
        ∀ earlier ∈ rule.earlier, declarations.Obeys imported earlier) ∧
    ∀ analysis, analyze declarations imported = .ok analysis → ∀ name,
      analysis.superMapping = some name ↔ (declarations.draft imported).IsSupertype name := by
  have hchecks := declarations.analyze_checks imported
  refine ⟨?_, ?_, ?_⟩
  · rw [hchecks.passes_iff]
    exact ⟨fun hall rule => hall rule rule.mem_all, fun hall rule _ => hall rule⟩
  · intro error herror
    obtain ⟨before, rule, after, hsplit, hbefore, hnot, hrule⟩ := hchecks.failed error herror
    exact ⟨rule, hrule, hnot, Rule.earlier_of_split hsplit ▸ hbefore⟩
  · intro analysis h name
    have hstages := stages_of_analyze h
    have hconstants : analysis.constants = (declarations.draft imported).constants :=
      constants_of_readDeclarations hstages.constants
    rw [supertypeMapping_eq_ok (names_of_analyze h).1 hstages.superMapping]
    simp only [IsSupertype, expr?, hconstants]

/-- A class with one constant that reads two anchors, neither of which encloses the other. -/
def divergentAnchors : ClassDeclarations where
  descriptor := "Divergent"
  anchors := [⟨"T", .ofClass, none⟩, ⟨"U", .ofClass, none⟩]
  constants := [
    { name := "both", action := "list", operands := [.ref "T", .ref "U"] },
    { name := "T", action := "anchor" },
    { name := "U", action := "anchor" }]

theorem analyze_divergentAnchors :
    (∀ rule, nestedAnchors.Obeys .empty rule) ∧
    analyze divergentAnchors .empty = .error (.divergentAnchor "both" "T" "U") ∧
    divergentAnchors.Obeys .empty .cycles ∧ ¬ divergentAnchors.Obeys .empty .nesting := by
  have hrefused : analyze divergentAnchors .empty = .error (.divergentAnchor "both" "T" "U") := rfl
  refine ⟨(nestedAnchors.analyze_iff_obeys .empty).1.mp ⟨_, rfl⟩, hrefused, ?_⟩
  obtain ⟨rule, hrule, hnot, hearlier⟩ :=
    (divergentAnchors.analyze_iff_obeys .empty).2.1 _ hrefused
  cases hrule
  exact ⟨hearlier .cycles (by decide), hnot⟩

end ClassDeclarations

end Specialization

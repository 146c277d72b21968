import Specialization.Proofs.Analysis.Rules

/-!
The single checks of an analysis, each with the rule that it decides. Only the nesting of anchors is
left out here, since its check is also what finds the roots.
-/

namespace Specialization

/-- Items have different images exactly if none has the image of one before it. -/
theorem nodup_map_iff {α β : Type} {f : α → β} {items : List α} :
    (items.map f).Nodup ↔
      ∀ done item rest, items = done ++ item :: rest → f item ∉ done.map f := by
  constructor
  · rintro hnodup done item rest rfl
    exact fresh_of_split hnodup (List.map_append.trans (congrArg _ List.map_cons))
  · intro h
    induction items using List.reverseRecOn with
    | nil => exact List.nodup_nil
    | append_singleton done item ih =>
        have hdone : (done.map f).Nodup := ih fun before other after hsplit =>
          h before other (after ++ [item]) (by simp [hsplit])
        have hnew : f item ∉ done.map f := h done item [] rfl
        rw [List.map_append, List.map_singleton]
        exact List.nodup_append_comm.mp (List.nodup_cons.mpr ⟨hnew, hdone⟩)

namespace AnchorTable

theorem contains_iff {table : AnchorTable} {name : String} :
    table.contains name ↔ name ∈ table.anchors.map (·.name) := by
  simp [contains, find?, List.find?_isSome]

theorem anchors_ofList {anchors : List Anchor} {table : AnchorTable}
    (h : ofList anchors = .ok table) : table.anchors = anchors := by
  refine foldlM_invariant (fun done table => table.anchors = done) rfl ?_ h
  intro done anchor _ table next _ htable hnext
  rw [anchors_push hnext, htable]

theorem push_decides (table : AnchorTable) (anchor : Anchor) :
    Decides .anchors (anchor.name ∉ table.anchors.map (·.name) ∧
      ∀ parent, anchor.parent = some parent → parent ∈ table.anchors.map (·.name))
      (table.push anchor) := by
  simp only [← contains_iff]
  unfold push
  split
  · rename_i hdeclared
    exact .error rfl fun hobeyed => hobeyed.1 hdeclared
  · rename_i hnew
    split
    · rename_i parent hparent
      split
      · rename_i habove
        refine .ok ⟨hnew, fun other hother => ?_⟩ _
        cases hparent.symm.trans hother
        exact habove
      · rename_i hnone
        exact .error rfl fun hobeyed => hnone (hobeyed.2 parent hparent)
    · rename_i hparent
      refine .ok ⟨hnew, fun other hother => ?_⟩ _
      cases hparent.symm.trans hother

theorem ofList_decides (anchors : List Anchor) :
    Decides .anchors (∀ done anchor rest, anchors = done ++ anchor :: rest →
      anchor.name ∉ done.map (·.name) ∧
        ∀ parent, anchor.parent = some parent → parent ∈ done.map (·.name))
      (ofList anchors) :=
  Decides.foldlM fun done anchor rest table _ htable => by
    have hstep := table.push_decides anchor
    rwa [anchors_ofList htable] at hstep

/-- The parents of the anchors of a table are in the table. -/
theorem contains_parent {anchors : List Anchor} {table : AnchorTable}
    (h : ofList anchors = .ok table) {anchor : Anchor} (hanchor : anchor ∈ table.anchors)
    {parent : String} (hparent : anchor.parent = some parent) : table.contains parent := by
  rw [anchors_ofList h] at hanchor
  obtain ⟨done, rest, hsplit⟩ := List.append_of_mem hanchor
  obtain ⟨other, hother, rfl⟩ := List.mem_map.mp
    (((ofList_decides anchors).passed table h done anchor rest hsplit).2 parent hparent)
  rw [contains_iff, anchors_ofList h, hsplit]
  exact List.mem_map.mpr ⟨other, List.mem_append_left _ hother, rfl⟩

end AnchorTable

namespace Expr

theorem anchorParts_fault {operands : List Operand} {id parent : Option String}
    {fault : DeclarationFault} (h : anchorParts id parent operands = .error fault) :
    ∃ operand, fault = .anchorOperand operand := by
  fun_induction anchorParts with
  | case1 => cases h
  | case2 _ _ _ ih => exact ih h
  | case3 _ _ _ ih => exact ih h
  | case4 _ _ operand =>
      cases h
      exact ⟨operand, rfl⟩

/-- What is wrong with the operands of one declaration is no matter of another one. -/
theorem ofOperands_fault {name first : String} {action : Action} {operands : List Operand} :
    ofOperands name action operands ≠ .error (.secondSupertype first) := by
  intro h
  by_cases hanchor : action = .anchor
  · subst hanchor
    cases hparts : anchorParts none none operands with
    | ok parts => simp [ofOperands, hparts, Except.map] at h
    | error fault =>
        obtain ⟨operand, rfl⟩ := anchorParts_fault hparts
        simp [ofOperands, hparts, Except.map] at h
  · fun_cases ofOperands name action operands <;> simp_all [ofOperands]

theorem rule_of_ofDeclaration {declaration : Declaration} {error : ConstantError}
    (h : ofDeclaration declaration = .error error) : error.rule? = some .declarations := by
  obtain ⟨fault, hfault, rfl⟩ := mapError_eq_error.mp h
  have hown : ∀ first, fault ≠ .secondSupertype first := by
    rintro first rfl
    split at hfault
    · exact ofOperands_fault hfault
    · cases hfault
  cases fault with
  | secondSupertype first => exact absurd rfl (hown first)
  | _ => rfl

end Expr

namespace Analysis

theorem readDeclaration_decides (constants : List Constant) (declaration : Declaration) :
    Decides .declarations (declaration.name ∉ constants.map (·.name) ∧
      ∃ expr, Expr.ofDeclaration declaration = .ok expr)
      (readDeclaration constants declaration) := by
  rw [← isSome_find?]
  unfold readDeclaration
  split
  · rename_i hdeclared
    exact .error rfl fun hobeyed => hobeyed.1 hdeclared
  · rename_i hnew
    cases hexpr : Expr.ofDeclaration declaration with
    | ok expr => exact .ok ⟨hnew, expr, rfl⟩ _
    | error error =>
        refine .error (Expr.rule_of_ofDeclaration hexpr) ?_
        rintro ⟨_, expr, heq⟩
        cases heq

theorem constants_of_readDeclarations {declarations : List Declaration}
    {constants : List Constant}
    (h : declarations.foldlM readDeclaration [] = .ok constants) :
    constants = declarations.filterMap Declaration.constant? := by
  refine foldlM_invariant (fun done constants => constants = done.filterMap Declaration.constant?)
    rfl ?_ h
  rintro done declaration _ constants next _ rfl hnext
  unfold readDeclaration at hnext
  split at hnext
  · cases hnext
  · obtain ⟨expr, hexpr, hnext⟩ := bind_eq_ok.mp hnext
    cases hnext
    simp [Declaration.constant?, hexpr, Except.toOption]

variable {analysis : Analysis}

theorem mem_constants_iff (hnames : analysis.names.Nodup) {name : String} {expr : Expr} :
    ⟨name, expr⟩ ∈ analysis.constants ↔ analysis.expr? name = some expr := by
  constructor
  · intro hmem
    have hname : name ∈ analysis.names := List.mem_map.mpr ⟨_, hmem, rfl⟩
    obtain ⟨constant, hfound⟩ := Option.isSome_iff_exists.mp (isSome_find?.mpr hname)
    obtain ⟨hother, heq⟩ := find?_eq_some hfound
    have hsame := List.inj_on_of_nodup_map hnames hother hmem heq
    rw [expr?, hfound, hsame]
    rfl
  · intro hexpr
    obtain ⟨constant, hfound, rfl⟩ := Option.map_eq_some_iff.mp hexpr
    obtain ⟨hmem, rfl⟩ := find?_eq_some hfound
    exact hmem

/-- The check of the references, as one step of the analysis. -/
def checkReferences (constants : List Constant) : Except ConstantError Unit :=
  match unresolved? constants with
  | some (constant, reference) => .error (.unresolvedReference constant reference)
  | none => .ok ()

theorem unresolved?_eq_none {constants : List Constant} :
    unresolved? constants = none ↔ ∀ constant ∈ constants, ∀ reference ∈ constant.expr.references,
      reference ∈ constants.map (·.name) := by
  simp only [unresolved?, List.findSome?_eq_none_iff, Option.map_eq_none_iff, List.find?_eq_none,
    ← isSome_find?, Option.isNone_iff_eq_none, Option.isSome_iff_ne_none, ne_eq]

theorem checkReferences_eq_ok {constants : List Constant} {done : Unit}
    (h : checkReferences constants = .ok done) : unresolved? constants = none := by
  unfold checkReferences at h
  split at h
  · cases h
  · assumption

theorem checkReferences_decides (constants : List Constant) :
    Decides .references (unresolved? constants = none) (checkReferences constants) := by
  unfold checkReferences
  split
  · rename_i found
    exact .error rfl (by simp [found])
  · exact .ok ‹_› _

theorem order_decides (hnames : analysis.names.Nodup)
    (hresolved : unresolved? analysis.constants = none) :
    Decides .cycles (∀ name, ¬ analysis.graph.OnCycle name)
      (analysis.graph.order.mapError fun name => .topology name .referenceCycle) := by
  have hwired : analysis.graph.Wired := wired_of_resolved hresolved
  cases horder : analysis.graph.order with
  | ok order =>
      have hnodes : ∀ name child, child ∈ analysis.graph.next name → name ∈ order :=
        fun name child hchild => (Graph.order_perm hwired hnames horder).mem_iff.mpr
          (contains_iff.mp (contains_of_next hchild))
      exact .ok ((Graph.order_sorted hwired horder).not_onCycle hnodes) _
  | error name =>
      exact .error rfl fun hnone => hnone name (Graph.order_eq_error hwired horder)

theorem isSupertype_iff (hnames : analysis.names.Nodup) {name : String} :
    analysis.IsSupertype name ↔
      name ∈ (analysis.constants.filter (·.expr.isSupertype)).map (·.name) := by
  simp only [IsSupertype, ← mem_constants_iff hnames, List.mem_map, List.mem_filter]
  constructor
  · rintro ⟨operand, hmem⟩
    exact ⟨_, ⟨hmem, rfl⟩, rfl⟩
  · rintro ⟨⟨name, expr⟩, ⟨hmem, hsupertype⟩, rfl⟩
    cases expr with
    | supertype operand => exact ⟨operand, hmem⟩
    | _ => cases hsupertype

theorem supertypeMapping_decides (hnames : analysis.names.Nodup) :
    Decides .supertype
      (∀ first second, analysis.IsSupertype first → analysis.IsSupertype second → first = second)
      (supertypeMapping analysis.constants) := by
  simp only [isSupertype_iff hnames]
  have hnodup : ((analysis.constants.filter (·.expr.isSupertype)).map (·.name)).Nodup :=
    List.Nodup.sublist (List.filter_sublist.map _) hnames
  unfold supertypeMapping
  generalize analysis.constants.filter (·.expr.isSupertype) = supertypes at hnodup ⊢
  split
  · exact .ok (fun first _ hfirst => absurd hfirst (by simp)) _
  · exact .ok (by simp) _
  · rename_i first second rest
    refine .error rfl fun hsame => ?_
    have heq : first.name = second.name := hsame _ _ (by simp) (by simp)
    simp [heq] at hnodup

theorem supertypeMapping_eq_ok (hnames : analysis.names.Nodup) {mapping : Option String}
    (h : supertypeMapping analysis.constants = .ok mapping) (name : String) :
    mapping = some name ↔ analysis.IsSupertype name := by
  rw [isSupertype_iff hnames]
  unfold supertypeMapping at h
  split at h
  · rename_i hnone
    cases h
    simp [hnone]
  · rename_i constant hone
    cases h
    simp [hone, eq_comm]
  · cases h

end Analysis

namespace ClassDeclarations

open Analysis

variable {declarations : ClassDeclarations} {imported : AnchorTable}

theorem anchors_decides :
    Decides .anchors (declarations.Obeys imported .anchors)
      (AnchorTable.ofList declarations.anchors) := by
  apply (AnchorTable.ofList_decides declarations.anchors).of_iff
  rw [Obeys, nodup_map_iff]
  simp only [forall_and]

theorem declarations_decides :
    Decides .declarations (declarations.Obeys imported .declarations)
      (declarations.constants.foldlM readDeclaration []) := by
  have hloop : Decides .declarations _ (declarations.constants.foldlM readDeclaration []) :=
    Decides.foldlM fun done declaration rest constants _ hconstants => by
      have hstep := readDeclaration_decides constants declaration
      rwa [(readDeclarations_names hconstants).2] at hstep
  apply hloop.of_iff
  rw [Obeys, nodup_map_iff]
  simp only [forall_and]
  apply and_congr_right
  intro _
  constructor
  · intro hread declaration hmem
    obtain ⟨done, rest, hsplit⟩ := List.append_of_mem hmem
    exact hread done declaration rest hsplit
  · intro hread done declaration rest hsplit
    exact hread declaration (by simp [hsplit])

/-- Where each declaration can be read, a class has the constants that it declares. -/
theorem draft_names (h : declarations.Obeys imported .declarations) :
    (declarations.draft imported).names = declarations.constants.map (·.name) := by
  rw [names, draft, List.map_filterMap, ← List.filterMap_eq_map]
  apply List.filterMap_congr
  intro declaration hmem
  obtain ⟨expr, hexpr⟩ := h.2 declaration hmem
  simp [Declaration.constant?, hexpr, Except.toOption]

theorem draft_names_nodup (h : declarations.Obeys imported .declarations) :
    (declarations.draft imported).names.Nodup :=
  draft_names h ▸ h.1

/-- An accepted class has the constants of its draft. -/
theorem constants_of_analyze {analysis : Analysis}
    (h : analyze declarations imported = .ok analysis) :
    analysis.constants = (declarations.draft imported).constants :=
  constants_of_readDeclarations (stages_of_analyze h).constants

theorem mem_draft_constants {constant : Constant} :
    constant ∈ (declarations.draft imported).constants ↔
      ∃ declaration ∈ declarations.constants, declaration.name = constant.name ∧
        Expr.ofDeclaration declaration = .ok constant.expr := by
  simp only [draft, List.mem_filterMap]
  apply exists_congr
  intro declaration
  apply and_congr_right
  intro _
  rcases constant with ⟨name, expr⟩
  cases hexpr : Expr.ofDeclaration declaration with
  | ok other => simp [Declaration.constant?, hexpr, Except.toOption]
  | error error => simp [Declaration.constant?, hexpr, Except.toOption]

theorem references_decides (h : declarations.Obeys imported .declarations) :
    Decides .references (declarations.Obeys imported .references)
      (checkReferences (declarations.draft imported).constants) := by
  apply (checkReferences_decides _).of_iff
  rw [unresolved?_eq_none, Obeys]
  have hnames := draft_names h
  rw [names] at hnames
  rw [hnames]
  constructor
  · intro hresolved declaration hmem expr hexpr
    exact hresolved ⟨declaration.name, expr⟩
      (mem_draft_constants.mpr ⟨declaration, hmem, rfl, hexpr⟩)
  · intro hresolved constant hmem
    obtain ⟨declaration, hdeclared, _, hexpr⟩ := mem_draft_constants.mp hmem
    exact hresolved declaration hdeclared constant.expr hexpr

theorem draft_resolved (hread : declarations.Obeys imported .declarations)
    (hresolved : declarations.Obeys imported .references) :
    unresolved? (declarations.draft imported).constants = none := by
  obtain ⟨_, hchecked⟩ := (references_decides hread).exists_ok hresolved
  exact checkReferences_eq_ok hchecked

theorem draft_wired (hread : declarations.Obeys imported .declarations)
    (hresolved : declarations.Obeys imported .references) :
    (declarations.draft imported).graph.Wired :=
  wired_of_resolved (draft_resolved hread hresolved)

end ClassDeclarations

end Specialization

import Specialization.Proofs.Analysis.Rules

/-!
The check of the nesting of anchors, which is what also finds the roots. A step of the loop sees
only the constants classified so far, yet it refuses a constant exactly if the constant breaks the
rule in view of the whole class: all that the constant leads to is classified, and the roots found
so far cover exactly the anchors that their constants read.
-/

namespace Specialization

namespace Analysis

variable {analysis : Analysis}

/-- What encloses one anchor constant lies on one chain, since each has at most one parent. -/
theorem covers_chain {root : Root} {first second : String} (hfirst : analysis.Covers root first)
    (hsecond : analysis.Covers root second) :
    first = second ∨ analysis.Encloses first second ∨ analysis.Encloses second first := by
  cases root with
  | constant => exact absurd hfirst (fun hnone => hnone)
  | anchor deepest parent =>
      have hunique : Relator.RightUnique (Function.swap analysis.ParentOf) := by
        rintro name above other ⟨id, hexpr⟩ ⟨id', hexpr'⟩
        rw [hexpr] at hexpr'
        cases hexpr'
        rfl
      have hclimb : ∀ {anchor}, analysis.Covers (.anchor deepest parent) anchor →
          Relation.ReflTransGen (Function.swap analysis.ParentOf) deepest anchor := by
        rintro anchor (rfl | hencloses)
        · exact .refl
        · exact Relation.reflTransGen_swap.mpr hencloses.to_reflTransGen
      rcases Relation.ReflTransGen.total_of_right_unique hunique (hclimb hfirst)
        (hclimb hsecond) with habove | habove
      · rcases Relation.reflTransGen_iff_eq_or_transGen.mp habove with heq | hencloses
        · exact Or.inl heq.symm
        · exact Or.inr (Or.inr (Relation.transGen_swap.mp hencloses))
      · rcases Relation.reflTransGen_iff_eq_or_transGen.mp habove with heq | hencloses
        · exact Or.inl heq
        · exact Or.inr (Or.inl (Relation.transGen_swap.mp hencloses))

theorem HasRoot.readsChain {name : String} {root : Root} (h : analysis.HasRoot name root) :
    analysis.ReadsChain name :=
  fun first second hfirst hsecond =>
    covers_chain ((h.covers first).mpr hfirst) ((h.covers second).mpr hsecond)

/-- Two anchor constants that a constant reads, on no common chain of parents. -/
structure Diverges (analysis : Analysis) (name first second : String) : Prop where
  reads_first : analysis.ReadsAnchor name first
  reads_second : analysis.ReadsAnchor name second
  ne : first ≠ second
  not_outer : ¬ analysis.Encloses first second
  not_inner : ¬ analysis.Encloses second first

theorem Diverges.not_readsChain {name first second : String}
    (h : analysis.Diverges name first second) : ¬ analysis.ReadsChain name := by
  intro hchain
  rcases hchain first second h.reads_first h.reads_second with heq | houter | hinner
  · exact h.ne heq
  · exact h.not_outer houter
  · exact h.not_inner hinner

namespace Classified

variable {done : List String} {known : Classification} {name : String}

/-- An anchor constant that is classified is found again with the anchor that it reads. -/
theorem parentId_of_expr (h : analysis.Classified done known) {above id : String}
    {outer : Option String} (habove : above ∈ done)
    (hexpr : analysis.expr? above = some (.anchor id outer)) :
    known.parentId name (some above) = .ok (some id) := by
  have hroot : known.root above = .anchor above outer := by
    simp [Classification.root, (h.declared above habove id outer hexpr).2]
  have hlisted : (known.anchors.find? (·.name == above)).isSome := by
    simpa [List.find?_isSome] using h.complete above habove ⟨id, outer, hexpr⟩
  obtain ⟨anchor, hfound⟩ := Option.isSome_iff_exists.mp hlisted
  have hname : anchor.name = above := by simpa using List.find?_some hfound
  have hid := h.anchors anchor (List.mem_of_find?_eq_some hfound)
  rw [hname, hexpr] at hid
  cases hid
  simp [Classification.parentId, hroot, Root.anchorName?, hfound]

theorem parentId_eq_ok (h : analysis.Classified done known) {parent enclosing : Option String}
    (hparent : ∀ above, parent = some above → above ∈ done) :
    known.parentId name parent = .ok enclosing ↔ analysis.NestedUnder enclosing parent := by
  cases parent with
  | none =>
      cases enclosing with
      | none => simp [Classification.parentId, NestedUnder]
      | some id => simp [Classification.parentId, NestedUnder]
  | some above =>
      have habove := hparent above rfl
      constructor
      · intro hid
        obtain ⟨outer, hroot⟩ := root_of_parentId hid
        obtain ⟨id, hexpr⟩ := (h.hasRoot habove).anchor above outer hroot
        rw [h.parentId_of_expr habove hexpr] at hid
        cases hid
        exact ⟨above, outer, rfl, hexpr⟩
      · intro hnested
        obtain ⟨id, outer, rfl, hexpr⟩ := hnested.expr_of_parent
        exact h.parentId_of_expr habove hexpr

theorem rule_of_parentId {parent : Option String} {error : ConstantError}
    (h : known.parentId name parent = .error error) : error.rule? = some .nesting := by
  unfold Classification.parentId at h
  split at h
  · cases h
  · split at h
    · cases h
    · cases h
      rfl

theorem addAnchor_decides (h : analysis.Classified done known) {id : String}
    {parent : Option String} (hexpr : analysis.expr? name = some (.anchor id parent))
    (hparent : ∀ above, parent = some above → above ∈ done) :
    Decides .nesting (analysis.NestsAsDeclared name)
      (known.addAnchor analysis.anchors analysis.imported name id parent) := by
  have hnests : analysis.NestsAsDeclared name ↔ ∃ anchor, analysis.anchor? id = some anchor ∧
      known.parentId name parent = .ok anchor.parent := by
    simp only [h.parentId_eq_ok hparent, NestsAsDeclared, hexpr]
    constructor
    · exact fun hall => hall id parent rfl
    · rintro hanchor id' parent' heq
      cases heq
      exact hanchor
  rw [Classification.addAnchor, show Classification.declared? _ _ id = analysis.anchor? id from rfl]
  apply Decides.of_iff _ hnests.symm
  cases hanchor : analysis.anchor? id with
  | none => exact .error rfl (by simp)
  | some anchor =>
      cases hid : known.parentId name parent with
      | error error => exact .error (rule_of_parentId hid) (by simp)
      | ok enclosing =>
          simp only [bind, Except.bind]
          split
          · rename_i hdeclared
            exact .ok ⟨anchor, rfl, congrArg Except.ok hdeclared.symm⟩ _
          · rename_i hdeclared
            refine .error rfl ?_
            rintro ⟨_, heq, hok⟩
            cases heq
            cases hok
            exact hdeclared rfl

theorem merge_eq_error {constant : String} {current incoming : Root} {error : ConstantError}
    (h : known.merge constant current incoming = .error error) :
    ∃ a p b q, current = .anchor a p ∧ incoming = .anchor b q ∧ a ≠ b ∧
      ¬ encloses b known.anchors a ∧ ¬ encloses a known.anchors b ∧
      error = .divergentAnchor constant a b := by
  cases incoming with
  | constant => cases h
  | anchor b q =>
      cases current with
      | constant => cases h
      | anchor a p =>
          simp only [Classification.merge] at h
          split at h
          · cases h
          · rename_i hinner
            split at h
            · cases h
            · rename_i houter
              cases h
              rw [not_or] at hinner
              exact ⟨a, p, b, q, rfl, rfl, hinner.1, hinner.2, houter, rfl⟩

/-- Two roots that cannot be merged are two anchor constants that the constant reads, and neither
encloses the other. -/
theorem diverges_of_mergeReferences (h : analysis.Classified done known)
    {references : List String} (hnext : references ⊆ analysis.graph.next name)
    (hchildren : ∀ child ∈ references, child ∈ done) {error : ConstantError}
    (herror : known.mergeReferences name references = .error error) :
    ∃ a b, error = .divergentAnchor name a b ∧ analysis.Diverges name a b := by
  obtain ⟨merged, child, rest, current, hsplit, hcurrent, hmerge⟩ := foldlM_eq_error herror
  have hlisted : ∀ other ∈ merged, Listed known (known.root other) := fun other hother =>
    h.listed (hchildren other (by simp [hsplit, hother]))
  have hdone : child ∈ done := hchildren child (by simp [hsplit])
  obtain ⟨hkept, hcovers⟩ := mergeReferences_covers h.nested h.anchors hlisted hcurrent
  obtain ⟨a, p, b, q, rfl, hroot, hne, hinner, houter, rfl⟩ := merge_eq_error hmerge
  have hreads : ∀ {anchor}, (∃ other ∈ references,
      analysis.Covers (known.root other) anchor) → analysis.ReadsAnchor name anchor := by
    rintro anchor ⟨other, hother, hanchor⟩
    exact readsAnchor_iff.mpr (Or.inr ⟨other, hnext hother,
      ((h.hasRoot (hchildren other hother)).covers anchor).mp hanchor⟩)
  -- The one root is kept from the references merged so far, the other is that of the next one.
  have hfirst : analysis.ReadsAnchor name a := by
    obtain ⟨other, hother, hanchor⟩ := (hcovers a).mp (Or.inl rfl)
    exact hreads ⟨other, by simp [hsplit, hother], hanchor⟩
  have hsecond : analysis.ReadsAnchor name b :=
    hreads ⟨child, by simp [hsplit], hroot ▸ Or.inl rfl⟩
  have hmemFirst : a ∈ known.anchors.map (·.name) := by
    rcases hkept with heq | ⟨other, hother, heq⟩
    · cases heq
    · exact hlisted other hother a p heq.symm
  have hmemSecond : b ∈ known.anchors.map (·.name) := h.mem_anchors hdone hroot
  rw [encloses_iff h.nested h.anchors hmemFirst] at hinner
  rw [encloses_iff h.nested h.anchors hmemSecond] at houter
  exact ⟨a, b, rfl, ⟨hfirst, hsecond, hne, houter, hinner⟩⟩

theorem add_decides (h : analysis.Classified done known) (hnew : name ∉ done) {expr : Expr}
    (hexpr : analysis.expr? name = some expr)
    (hchildren : ∀ child ∈ analysis.graph.next name, child ∈ done) :
    Decides .nesting (analysis.NestsAsDeclared name ∧ analysis.ReadsChain name)
      (known.add analysis.anchors analysis.imported name expr) := by
  -- Whatever kind of constant passes, its root covers what it reads, and a root covers a chain.
  have hchain : ∀ next, known.add analysis.anchors analysis.imported name expr = .ok next →
      analysis.ReadsChain name := fun next hnext =>
    ((h.add hnew hexpr hchildren hnext).hasRoot (by simp)).readsChain
  by_cases hanchor : ∃ id parent, expr = .anchor id parent
  · obtain ⟨id, parent, rfl⟩ := hanchor
    have hparent : ∀ above, parent = some above → above ∈ done := by
      rintro above rfl
      exact hchildren above (by simp [next_of_expr hexpr, Expr.references])
    have hnests := h.addAnchor_decides hexpr hparent
    exact ⟨fun next hnext => ⟨hnests.passed next hnext, hchain next hnext⟩,
      fun error herror => (hnests.failed error herror).imp_right (mt And.left)⟩
  · have hplain : analysis.NestsAsDeclared name := by
      intro id parent hexpr'
      rw [hexpr] at hexpr'
      cases hexpr'
      exact absurd ⟨id, parent, rfl⟩ hanchor
    refine ⟨fun next hnext => ⟨hplain, hchain next hnext⟩, fun error herror => ?_⟩
    unfold Classification.add at herror
    split at herror
    · exact absurd ⟨_, _, rfl⟩ hanchor
    · rcases bind_eq_error.mp herror with hmerge | ⟨root, _, hok⟩
      · rw [← next_of_expr hexpr] at hmerge
        obtain ⟨_, _, rfl, hdiverges⟩ :=
          h.diverges_of_mergeReferences (List.Subset.refl _) hchildren hmerge
        exact ⟨rfl, mt And.right hdiverges.not_readsChain⟩
      · cases hok

end Classified

/-- The loop over an order of the constants, as far as it got, refuses the first constant that
breaks the rule. -/
theorem classify_decides_of_split {order done rest : List String}
    (hnames : ∀ name ∈ order, analysis.contains name) (hnodup : order.Nodup)
    (hsorted : analysis.graph.Sorted order) (hsplit : order = done ++ rest) :
    Decides .nesting (∀ before name after, done = before ++ name :: after →
      analysis.NestsAsDeclared name ∧ analysis.ReadsChain name)
      (classify analysis.constants analysis.anchors analysis.imported done) := by
  refine Decides.foldlM fun before name after known hdone hknown => ?_
  have horder : order = before ++ name :: (after ++ rest) := by simp [hsplit, hdone]
  have hclassified := classified_of_sorted hnames hnodup hsorted horder hknown
  have hnew : name ∉ before := fresh_of_split hnodup horder
  obtain ⟨expr, hexpr⟩ := Option.isSome_iff_exists.mp (hnames name (by simp [horder]))
  obtain ⟨constant, hfound, rfl⟩ := Option.map_eq_some_iff.mp hexpr
  rw [hfound]
  exact hclassified.add_decides hnew hexpr (hsorted before name _ horder)

/-- The loop over an order of all constants refuses exactly the classes that break the rule. -/
theorem classify_decides {order : List String}
    (hnames : ∀ name, name ∈ order ↔ analysis.contains name) (hnodup : order.Nodup)
    (hsorted : analysis.graph.Sorted order) :
    Decides .nesting (∀ name, analysis.NestsAsDeclared name ∧ analysis.ReadsChain name)
      (classify analysis.constants analysis.anchors analysis.imported order) := by
  apply (classify_decides_of_split (fun name hname => (hnames name).mp hname) hnodup hsorted
    (List.append_nil order).symm).of_iff
  constructor
  · intro hall name
    by_cases hname : name ∈ order
    · obtain ⟨done, rest, hsplit⟩ := List.append_of_mem hname
      exact hall done name rest hsplit
    · rw [hnames] at hname
      constructor
      · intro id parent hexpr
        exact absurd (by simp [contains, hexpr]) hname
      · intro first second hfirst
        exact absurd (contains_of_reads hfirst) hname
  · exact fun hall _ name _ _ => hall name

theorem Accepted.nestsAsDeclared (h : analysis.Accepted) (name : String) :
    analysis.NestsAsDeclared name := by
  have hdecides := classify_decides (fun _ => h.mem_order) h.order_nodup h.order_sorted
  obtain ⟨declarations, imported, h⟩ := h
  obtain ⟨known, hknown, _⟩ := (stages_of_analyze h).roots
  rw [← (stages_of_analyze h).imported] at hknown
  exact (hdecides.passed known hknown name).1

end Analysis

end Specialization

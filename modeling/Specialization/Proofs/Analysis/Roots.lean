import Specialization.Proofs.Analysis.Accepted
import Specialization.Proofs.Lookup

/-!
The root of a constant, described without the loop that finds it. The anchors that an accepted
constant reads, directly or through others, are one anchor constant together with the chain of its
parents, and the root of the constant is that anchor; a constant that reads no anchor is fixed at
link time.
-/

namespace Specialization

theorem Classification.name_of_declared {anchors imported : AnchorTable} {id : String}
    {anchor : Anchor} (h : declared? anchors imported id = some anchor) : anchor.name = id := by
  rcases Option.or_eq_some_iff.mp h with hfound | ⟨_, hfound⟩
  · simpa using List.find?_some hfound
  · simpa using List.find?_some hfound

namespace Analysis

variable {analysis : Analysis}

/-- A constant whose expression is an anchor. -/
def IsAnchor (analysis : Analysis) (name : String) : Prop :=
  ∃ id parent, analysis.expr? name = some (.anchor id parent)

theorem not_isAnchor_of_expr {name : String} {expr : Expr} (h : analysis.expr? name = some expr)
    (hplain : ∀ id parent, expr ≠ .anchor id parent) : ¬ analysis.IsAnchor name := by
  rintro ⟨id, parent, hexpr⟩
  rw [h] at hexpr
  cases hexpr
  exact hplain id parent rfl

/-- An anchor constant that a constant leads to, itself included. -/
def ReadsAnchor (analysis : Analysis) (name anchor : String) : Prop :=
  analysis.graph.Leads name anchor ∧ analysis.IsAnchor anchor

/-- The declared anchor that an anchor constant reads, one of the class itself before an imported
one. -/
def anchorOf? (analysis : Analysis) (name : String) : Option Anchor :=
  match analysis.expr? name with
  | some (.anchor id _) => analysis.anchor? id
  | _ => none

theorem anchorOf?_of_expr {name id : String} {parent : Option String}
    (h : analysis.expr? name = some (.anchor id parent)) :
    analysis.anchorOf? name = analysis.anchor? id := by
  simp only [anchorOf?, h]

/-- The parent constant of an anchor constant. -/
def ParentOf (analysis : Analysis) (parent name : String) : Prop :=
  ∃ id, analysis.expr? name = some (.anchor id (some parent))

/-- The chain of parent constants above an anchor constant. -/
def Encloses (analysis : Analysis) : String → String → Prop :=
  Relation.TransGen analysis.ParentOf

theorem encloses_iff_of_parent {ancestor name id parent : String}
    (h : analysis.expr? name = some (.anchor id (some parent))) :
    analysis.Encloses ancestor name ↔ ancestor = parent ∨ analysis.Encloses ancestor parent := by
  have hunique : ∀ other, analysis.ParentOf other name → other = parent := by
    rintro other ⟨id', h'⟩
    rw [h] at h'
    cases h'
    rfl
  constructor
  · intro hencloses
    obtain ⟨other, hancestor, hother⟩ := Relation.TransGen.tail'_iff.mp hencloses
    obtain rfl := hunique other hother
    exact Relation.reflTransGen_iff_eq_or_transGen.mp hancestor |>.imp Eq.symm fun h => h
  · rintro (rfl | hencloses)
    · exact Relation.TransGen.single ⟨id, h⟩
    · exact hencloses.tail ⟨id, h⟩

theorem not_encloses_of_outermost {ancestor name id : String}
    (h : analysis.expr? name = some (.anchor id none)) : ¬ analysis.Encloses ancestor name := by
  intro hencloses
  obtain ⟨other, _, id', h'⟩ := Relation.TransGen.tail'_iff.mp hencloses
  rw [h] at h'
  cases h'

/-- The anchor constants that a root stands for: its own and those that enclose it. -/
def Covers (analysis : Analysis) : Root → String → Prop
  | .constant, _ => False
  | .anchor name _, anchor => anchor = name ∨ analysis.Encloses anchor name

/-- Each parent in a list of anchor constants is further down. -/
def Nested : List AnchorConstant → Prop
  | [] => True
  | known :: older =>
    (∀ parent, known.parent = some parent → parent ∈ older.map (·.name)) ∧ Nested older

/-- Climbing the list of anchor constants decides the chain of parents. -/
theorem encloses_iff {anchors : List AnchorConstant} (hnested : Nested anchors)
    (hanchors : ∀ known ∈ anchors,
      analysis.expr? known.name = some (.anchor known.id known.parent))
    {ancestor name : String} (hname : name ∈ anchors.map (·.name)) :
    encloses ancestor anchors name ↔ analysis.Encloses ancestor name := by
  induction anchors generalizing name with
  | nil => cases hname
  | cons known older ih =>
      have holder := fun other hother => hanchors other (List.mem_cons_of_mem known hother)
      have hexpr := hanchors known List.mem_cons_self
      rw [encloses]
      split
      · rename_i heq
        subst heq
        split
        · rename_i parent hparent
          rw [hparent] at hexpr
          have habove := ih hnested.2 holder (hnested.1 parent hparent)
          rw [encloses_iff_of_parent hexpr, ← habove, Bool.or_eq_true, beq_iff_eq,
            eq_comm (a := ancestor)]
        · rename_i hparent
          rw [hparent] at hexpr
          simp [not_encloses_of_outermost hexpr]
      · rename_i hne
        rw [List.map_cons, List.mem_cons] at hname
        exact ih hnested.2 holder (hname.resolve_left fun heq => hne heq.symm)

/-- A root that stands for exactly the anchor constants that a constant leads to. -/
structure HasRoot (analysis : Analysis) (name : String) (root : Root) : Prop where
  covers : ∀ anchor, analysis.Covers root anchor ↔ analysis.ReadsAnchor name anchor
  anchor : ∀ deepest parent, root = .anchor deepest parent →
    ∃ id, analysis.expr? deepest = some (.anchor id parent)

/-- What is known of the constants classified so far. -/
structure Classified (analysis : Analysis) (done : List String) (known : Classification) :
    Prop where
  closed : ∀ name ∈ done, ∀ child ∈ analysis.graph.next name, child ∈ done
  nested : Nested known.anchors
  anchors : ∀ anchor ∈ known.anchors,
    analysis.expr? anchor.name = some (.anchor anchor.id anchor.parent)
  complete : ∀ name ∈ done, analysis.IsAnchor name → name ∈ known.anchors.map (·.name)
  declared : ∀ name ∈ done, ∀ id parent, analysis.expr? name = some (.anchor id parent) →
    (analysis.anchor? id).isSome ∧ known.roots.lookup name = some (.anchor name parent)
  rooted : ∀ name ∈ done, ∃ root, known.roots.lookup name = some root ∧
    analysis.HasRoot name root
  crossClass : ∀ name ∈ known.crossClass, name ∈ done ∧ analysis.IsAnchor name
  roots : ∀ entry ∈ known.roots, entry.1 ∈ done

namespace Classified

variable {done : List String} {known : Classification}

theorem start : analysis.Classified [] {} where
  closed _ h := absurd h List.not_mem_nil
  nested := trivial
  anchors _ h := absurd h List.not_mem_nil
  complete _ h := absurd h List.not_mem_nil
  declared _ h := absurd h List.not_mem_nil
  rooted _ h := absurd h List.not_mem_nil
  crossClass _ h := absurd h List.not_mem_nil
  roots _ h := absurd h List.not_mem_nil

theorem leads (h : analysis.Classified done known) {name other : String} (hname : name ∈ done)
    (hleads : analysis.graph.Leads name other) : other ∈ done := by
  induction hleads with
  | refl => exact hname
  | tail _ hedge ih => exact h.closed _ ih _ hedge

theorem hasRoot (h : analysis.Classified done known) {name : String} (hname : name ∈ done) :
    analysis.HasRoot name (known.root name) := by
  obtain ⟨root, hlookup, hroot⟩ := h.rooted name hname
  simpa [Classification.root, hlookup] using hroot

/-- The anchor that a root of a classified constant names is in the list. -/
theorem mem_anchors (h : analysis.Classified done known) {name deepest : String}
    {parent : Option String} (hname : name ∈ done)
    (hroot : known.root name = .anchor deepest parent) :
    deepest ∈ known.anchors.map (·.name) := by
  have hcovered : analysis.Covers (known.root name) deepest := by
    rw [hroot]
    exact Or.inl rfl
  have hreads := ((h.hasRoot hname).covers deepest).mp hcovered
  exact h.complete deepest (h.leads hname hreads.1) hreads.2

end Classified

/-- Roots whose anchors are in the list of anchor constants. -/
def Listed (known : Classification) (root : Root) : Prop :=
  ∀ deepest parent, root = .anchor deepest parent → deepest ∈ known.anchors.map (·.name)

/-- Merging two roots keeps one of them, which covers what both cover. -/
theorem merge_covers {known : Classification} (hnested : Nested known.anchors)
    (hanchors : ∀ anchor ∈ known.anchors,
      analysis.expr? anchor.name = some (.anchor anchor.id anchor.parent))
    {constant : String} {current incoming root : Root} (hcurrent : Listed known current)
    (hincoming : Listed known incoming) (h : known.merge constant current incoming = .ok root) :
    (root = current ∨ root = incoming) ∧ ∀ anchor, analysis.Covers root anchor ↔
      analysis.Covers current anchor ∨ analysis.Covers incoming anchor := by
  have hiff : ∀ {inner outer : String}, inner ∈ known.anchors.map (·.name) →
      (encloses outer known.anchors inner ↔ analysis.Encloses outer inner) :=
    fun hinner => encloses_iff hnested hanchors hinner
  -- What encloses the outer anchor encloses the inner one.
  have habsorbed : ∀ {inner outer anchor : String}, analysis.Encloses outer inner →
      anchor = outer ∨ analysis.Encloses anchor outer → analysis.Encloses anchor inner := by
    rintro inner outer anchor hencloses (rfl | habove)
    · exact hencloses
    · exact habove.trans hencloses
  cases incoming with
  | constant =>
      cases h
      exact ⟨Or.inl rfl, fun anchor => by simp [Covers]⟩
  | anchor b q =>
      cases current with
      | constant =>
          cases h
          exact ⟨Or.inr rfl, fun anchor => by simp [Covers]⟩
      | anchor a p =>
          simp only [Classification.merge] at h
          split at h
          · rename_i hinner
            cases h
            rw [hiff (hcurrent a p rfl)] at hinner
            refine ⟨Or.inl rfl, fun anchor => ⟨Or.inl, ?_⟩⟩
            rintro (hcovers | hcovers)
            · exact hcovers
            · rcases hinner with rfl | hencloses
              · exact hcovers
              · exact Or.inr (habsorbed hencloses hcovers)
          · split at h
            · rename_i hinner
              cases h
              rw [hiff (hincoming b q rfl)] at hinner
              refine ⟨Or.inr rfl, fun anchor => ⟨Or.inr, ?_⟩⟩
              rintro (hcovers | hcovers)
              · exact Or.inr (habsorbed hinner hcovers)
              · exact hcovers
            · cases h

/-- A loop of merges keeps one of the roots, which covers what all of them cover. -/
private theorem foldlM_merge_covers {known : Classification} (hnested : Nested known.anchors)
    (hanchors : ∀ anchor ∈ known.anchors,
      analysis.expr? anchor.name = some (.anchor anchor.id anchor.parent))
    {constant : String} (references : List String) (current : Root) {root : Root}
    (hlisted : ∀ name ∈ references, Listed known (known.root name))
    (hcurrent : Listed known current)
    (h : references.foldlM (fun current name => known.merge constant current (known.root name))
      current = .ok root) :
    (root = current ∨ ∃ name ∈ references, root = known.root name) ∧
      ∀ anchor, analysis.Covers root anchor ↔ analysis.Covers current anchor ∨
        ∃ name ∈ references, analysis.Covers (known.root name) anchor := by
  induction references generalizing current with
  | nil =>
      cases h
      exact ⟨Or.inl rfl, fun anchor => by simp⟩
  | cons name rest ih =>
      rw [List.foldlM_cons, bind_eq_ok] at h
      obtain ⟨next, hnext, hrest⟩ := h
      have hname := hlisted name List.mem_cons_self
      obtain ⟨hkept, hcovers⟩ := merge_covers hnested hanchors hcurrent hname hnext
      have hlistedNext : Listed known next := by
        rcases hkept with rfl | rfl
        · exact hcurrent
        · exact hname
      obtain ⟨hroot, hall⟩ := ih next
        (fun later hlater => hlisted later (List.mem_cons_of_mem name hlater)) hlistedNext hrest
      constructor
      · rcases hroot with rfl | ⟨later, hlater, heq⟩
        · exact hkept.imp id fun heq => ⟨name, List.mem_cons_self, heq⟩
        · exact Or.inr ⟨later, List.mem_cons_of_mem name hlater, heq⟩
      · intro anchor
        rw [hall anchor, hcovers anchor]
        simp [or_assoc]

/-- The root of a constant that is no anchor covers what the roots of its references cover. -/
theorem mergeReferences_covers {known : Classification} (hnested : Nested known.anchors)
    (hanchors : ∀ anchor ∈ known.anchors,
      analysis.expr? anchor.name = some (.anchor anchor.id anchor.parent))
    {constant : String} {references : List String}
    (hlisted : ∀ name ∈ references, Listed known (known.root name)) {root : Root}
    (h : known.mergeReferences constant references = .ok root) :
    (root = .constant ∨ ∃ name ∈ references, root = known.root name) ∧
      ∀ anchor, analysis.Covers root anchor ↔
        ∃ name ∈ references, analysis.Covers (known.root name) anchor := by
  obtain ⟨hroot, hcovers⟩ := foldlM_merge_covers hnested hanchors references .constant hlisted
    (fun _ _ heq => nomatch heq) h
  refine ⟨hroot, fun anchor => (hcovers anchor).trans ?_⟩
  simp [Covers]

theorem readsAnchor_iff {name anchor : String} :
    analysis.ReadsAnchor name anchor ↔ (anchor = name ∧ analysis.IsAnchor name) ∨
      ∃ child ∈ analysis.graph.next name, analysis.ReadsAnchor child anchor := by
  simp only [ReadsAnchor, Graph.Leads]
  constructor
  · rintro ⟨hleads, hanchor⟩
    rcases Relation.ReflTransGen.cases_head hleads with rfl | ⟨child, hchild, hrest⟩
    · exact Or.inl ⟨rfl, hanchor⟩
    · exact Or.inr ⟨child, hchild, hrest, hanchor⟩
  · rintro (⟨rfl, hanchor⟩ | ⟨child, hchild, hrest, hanchor⟩)
    · exact ⟨Relation.ReflTransGen.refl, hanchor⟩
    · exact ⟨hrest.head hchild, hanchor⟩

/-- Only a declared constant reads anchors. -/
theorem contains_of_reads {name anchor : String} (h : analysis.ReadsAnchor name anchor) :
    analysis.contains name := by
  rcases readsAnchor_iff.mp h with ⟨_, id, parent, hexpr⟩ | ⟨child, hchild, _⟩
  · simp [contains, hexpr]
  · exact contains_of_next hchild

namespace Classified

variable {done : List String} {known : Classification} {name : String}

theorem listed (h : analysis.Classified done known) (hname : name ∈ done) :
    Listed known (known.root name) :=
  fun _ _ hroot => h.mem_anchors hname hroot

/-- Adds a constant with its root, and with its entry in the list if it is an anchor. -/
theorem push (h : analysis.Classified done known) (hnew : name ∉ done)
    (hchildren : ∀ child ∈ analysis.graph.next name, child ∈ done) {root : Root}
    {anchors : List AnchorConstant} {crossClass : List String}
    (hroot : analysis.HasRoot name root) (hnested : Nested anchors)
    (hanchors : ∀ anchor ∈ anchors,
      analysis.expr? anchor.name = some (.anchor anchor.id anchor.parent))
    (hkept : ∀ other ∈ known.anchors.map (·.name), other ∈ anchors.map (·.name))
    (hdeclared : ∀ id parent, analysis.expr? name = some (.anchor id parent) →
      (analysis.anchor? id).isSome ∧ root = .anchor name parent ∧ name ∈ anchors.map (·.name))
    (hcross : ∀ other ∈ crossClass,
      other ∈ known.crossClass ∨ other = name ∧ analysis.IsAnchor name) :
    analysis.Classified (done ++ [name])
      { roots := (name, root) :: known.roots, anchors, crossClass } := by
  have hlookup : ∀ other ∈ done, ((name, root) :: known.roots).lookup other =
      known.roots.lookup other := by
    intro other hother
    have hne : (other == name) = false := beq_false_of_ne fun heq => hnew (heq ▸ hother)
    rw [List.lookup_cons, hne]
  have hsplit : ∀ other ∈ done ++ [name], other ∈ done ∨ other = name := by simp
  refine ⟨?_, hnested, hanchors, ?_, ?_, ?_, ?_, ?_⟩
  · intro other hother child hchild
    rcases hsplit other hother with hdone | rfl
    · exact List.mem_append_left _ (h.closed other hdone child hchild)
    · exact List.mem_append_left _ (hchildren child hchild)
  · intro other hother hanchor
    rcases hsplit other hother with hdone | rfl
    · exact hkept other (h.complete other hdone hanchor)
    · obtain ⟨id, parent, hexpr⟩ := hanchor
      exact (hdeclared id parent hexpr).2.2
  · intro other hother id parent hexpr
    rcases hsplit other hother with hdone | rfl
    · rw [hlookup other hdone]
      exact h.declared other hdone id parent hexpr
    · obtain ⟨hid, rfl, _⟩ := hdeclared id parent hexpr
      exact ⟨hid, by simp⟩
  · intro other hother
    rcases hsplit other hother with hdone | rfl
    · rw [hlookup other hdone]
      exact h.rooted other hdone
    · exact ⟨root, by simp, hroot⟩
  · intro other hother
    rcases hcross other hother with hold | ⟨rfl, hself⟩
    · obtain ⟨hdone, hanchor⟩ := h.crossClass other hold
      exact ⟨List.mem_append_left _ hdone, hanchor⟩
    · exact ⟨by simp, hself⟩
  · intro entry hentry
    rcases List.mem_cons.mp hentry with rfl | hold
    · exact List.mem_append_right _ List.mem_cons_self
    · exact List.mem_append_left _ (h.roots entry hold)

/-- Where a constant is no anchor, what its references are merged to is its root, in whatever order
they are merged. -/
theorem hasRoot_of_mergeReferences (h : analysis.Classified done known)
    (hplain : ¬ analysis.IsAnchor name) {references : List String}
    (hsame : ∀ child, child ∈ references ↔ child ∈ analysis.graph.next name)
    (hchildren : ∀ child ∈ references, child ∈ done) {root : Root}
    (hroot : known.mergeReferences name references = .ok root) : analysis.HasRoot name root := by
  obtain ⟨hkept, hcovers⟩ := mergeReferences_covers h.nested h.anchors
    (fun child hchild => h.listed (hchildren child hchild)) hroot
  constructor
  · intro anchor
    rw [hcovers anchor, readsAnchor_iff]
    simp only [hplain, and_false, false_or, ← hsame]
    apply exists_congr
    intro child
    exact and_congr_right fun hchild => (h.hasRoot (hchildren child hchild)).covers anchor
  · intro deepest parent heq
    rcases hkept with hconstant | ⟨child, hchild, hchildRoot⟩
    · cases hconstant.symm.trans heq
    · exact (h.hasRoot (hchildren child hchild)).anchor deepest parent
        (hchildRoot.symm.trans heq)

/-- A constant that is no anchor takes the merged root of its references. -/
theorem add_expr (h : analysis.Classified done known) (hnew : name ∉ done) {expr : Expr}
    (hexpr : analysis.expr? name = some expr)
    (hanchor : ∀ id parent, expr ≠ .anchor id parent)
    (hchildren : ∀ child ∈ analysis.graph.next name, child ∈ done) {root : Root}
    (hroot : known.mergeReferences name expr.references = .ok root) :
    analysis.Classified (done ++ [name]) { known with roots := (name, root) :: known.roots } := by
  have hplain : ¬ analysis.IsAnchor name := not_isAnchor_of_expr hexpr hanchor
  rw [← next_of_expr hexpr] at hroot
  apply h.push hnew hchildren ?_ h.nested h.anchors (fun _ hother => hother)
  · intro id parent hexpr'
    exact absurd ⟨id, parent, hexpr'⟩ hplain
  · exact fun _ hother => Or.inl hother
  · exact h.hasRoot_of_mergeReferences hplain (fun _ => Iff.rfl) hchildren hroot

/-- The parent of an anchor is its own root, so it is an anchor constant that is in the list. -/
theorem root_of_parentId {above : String} {enclosing : Option String}
    (h : known.parentId name (some above) = .ok enclosing) :
    ∃ outer, known.root above = .anchor above outer := by
  simp only [Classification.parentId] at h
  split at h
  · rename_i hname
    cases hroot : known.root above with
    | constant =>
        rw [hroot] at hname
        cases hname
    | anchor deepest outer =>
        rw [hroot] at hname
        cases hname
        exact ⟨outer, rfl⟩
  · cases h

/-- An anchor constant is its own root. Its parent, if it has one, is an anchor constant. -/
theorem add_anchor (h : analysis.Classified done known) (hnew : name ∉ done) {id : String}
    {parent : Option String} (hexpr : analysis.expr? name = some (.anchor id parent))
    (hchildren : ∀ child ∈ analysis.graph.next name, child ∈ done) {next : Classification}
    (hnext : known.addAnchor analysis.anchors analysis.imported name id parent = .ok next) :
    analysis.Classified (done ++ [name]) next := by
  have hself : analysis.IsAnchor name := ⟨id, parent, hexpr⟩
  simp only [Classification.addAnchor] at hnext
  split at hnext
  · cases hnext
  rename_i anchor hanchor
  rw [bind_eq_ok] at hnext
  obtain ⟨enclosing, henclosing, hnext⟩ := hnext
  split at hnext
  on_goal 2 => cases hnext
  cases hnext
  have hparent : ∀ above, parent = some above → above ∈ done ∧
      ∃ outer, known.root above = .anchor above outer := by
    rintro above rfl
    have hchild : above ∈ analysis.graph.next name := by
      rw [next_of_expr hexpr]
      exact List.mem_singleton.mpr rfl
    exact ⟨hchildren above hchild, root_of_parentId henclosing⟩
  apply h.push hnew hchildren
  · constructor
    · intro other
      rw [readsAnchor_iff, next_of_expr hexpr]
      simp only [Covers, hself, and_true]
      apply or_congr Iff.rfl
      cases parent with
      | none => simp [Expr.references, not_encloses_of_outermost hexpr]
      | some above =>
          obtain ⟨hdone, outer, hroot⟩ := hparent above rfl
          have habove := (h.hasRoot hdone).covers other
          rw [hroot] at habove
          rw [encloses_iff_of_parent hexpr]
          simpa [Expr.references, Covers] using habove
    · intro deepest outer heq
      cases heq
      exact ⟨id, hexpr⟩
  · refine ⟨?_, h.nested⟩
    intro above heq
    obtain ⟨hdone, outer, hroot⟩ := hparent above heq
    exact h.mem_anchors hdone hroot
  · intro other hother
    rcases List.mem_cons.mp hother with rfl | holder
    · rw [Classification.name_of_declared hanchor]
      exact hexpr
    · exact h.anchors other holder
  · intro other hother
    exact List.mem_cons_of_mem _ hother
  · intro id' parent' hexpr'
    rw [hexpr] at hexpr'
    cases hexpr'
    exact ⟨by simp [anchor?, hanchor], rfl, List.mem_cons_self⟩
  · intro other hother
    split at hother
    · exact Or.inl hother
    · exact (List.mem_cons.mp hother).symm.imp_right fun heq => ⟨heq, hself⟩

theorem add (h : analysis.Classified done known) (hnew : name ∉ done) {expr : Expr}
    (hexpr : analysis.expr? name = some expr)
    (hchildren : ∀ child ∈ analysis.graph.next name, child ∈ done) {next : Classification}
    (hnext : known.add analysis.anchors analysis.imported name expr = .ok next) :
    analysis.Classified (done ++ [name]) next := by
  unfold Classification.add at hnext
  split at hnext
  · exact h.add_anchor hnew hexpr hchildren hnext
  · rename_i hanchor
    rw [bind_eq_ok] at hnext
    obtain ⟨root, hroot, hnext⟩ := hnext
    cases hnext
    exact h.add_expr hnew hexpr hanchor hchildren hroot

end Classified

/-- The loop over an order in which each constant comes after those it refers to, as far as it
got. -/
theorem classified_of_sorted {order done rest : List String}
    (hnames : ∀ name ∈ order, analysis.contains name) (hnodup : order.Nodup)
    (hsorted : analysis.graph.Sorted order) (hsplit : order = done ++ rest)
    {known : Classification}
    (h : classify analysis.constants analysis.anchors analysis.imported done = .ok known) :
    analysis.Classified done known := by
  refine foldlM_invariant analysis.Classified Classified.start ?_ h
  intro before name after state next hdone hstate hnext
  have horder : order = before ++ name :: (after ++ rest) := by simp [hsplit, hdone]
  have hnew : name ∉ before := fresh_of_split hnodup horder
  obtain ⟨expr, hexpr⟩ := Option.isSome_iff_exists.mp (hnames name (by simp [horder]))
  obtain ⟨constant, hfound, rfl⟩ := Option.map_eq_some_iff.mp hexpr
  rw [hfound] at hnext
  exact hstate.add hnew hexpr (hsorted before name _ horder) hnext

/-- What the loop knows at its end. -/
theorem Accepted.classified (h : analysis.Accepted) :
    ∃ known, analysis.Classified analysis.order known ∧ analysis.roots = known.roots ∧
      analysis.crossClass = known.crossClass := by
  have hnames : ∀ name ∈ analysis.order, analysis.contains name := fun _ hname =>
    h.mem_order.mp hname
  have hnodup := h.order_nodup
  have hsorted := h.order_sorted
  obtain ⟨declarations, imported, h⟩ := h
  have hstages := stages_of_analyze h
  obtain ⟨known, hknown, hroots, hcross⟩ := hstages.roots
  rw [← hstages.imported] at hknown
  have hsplit : analysis.order = analysis.order ++ [] := (List.append_nil _).symm
  exact ⟨known, classified_of_sorted hnames hnodup hsorted hsplit hknown, hroots, hcross⟩

namespace Accepted

/-- Every anchor constant reads a declared or an imported anchor. -/
theorem anchor_declared (h : analysis.Accepted) {name id : String} {parent : Option String}
    (hexpr : analysis.expr? name = some (.anchor id parent)) :
    (analysis.anchor? id).isSome := by
  obtain ⟨known, hknown, _, _⟩ := h.classified
  have hname : name ∈ analysis.order := h.mem_order.mpr (by simp [contains, hexpr])
  exact (hknown.declared name hname id parent hexpr).1

/-- An anchor constant is its own root. -/
theorem root_of_anchor (h : analysis.Accepted) {name id : String} {parent : Option String}
    (hexpr : analysis.expr? name = some (.anchor id parent)) :
    analysis.root? name = some (.anchor name parent) := by
  obtain ⟨known, hknown, hroots, _⟩ := h.classified
  have hname : name ∈ analysis.order := h.mem_order.mpr (by simp [contains, hexpr])
  rw [root?, hroots]
  exact (hknown.declared name hname id parent hexpr).2

/-- A root covers exactly the anchor constants that its constant reads. -/
theorem root_covers (h : analysis.Accepted) {name : String} (hname : analysis.contains name) :
    ∃ root, analysis.root? name = some root ∧ analysis.HasRoot name root := by
  obtain ⟨known, hknown, hroots, _⟩ := h.classified
  rw [root?, hroots]
  exact hknown.rooted name (h.mem_order.mpr hname)

/-- Only what is declared has a root. -/
theorem contains_of_root (h : analysis.Accepted) {name : String} {root : Root}
    (hroot : analysis.root? name = some root) : analysis.contains name := by
  obtain ⟨known, hknown, hroots, _⟩ := h.classified
  rw [root?, hroots] at hroot
  exact h.mem_order.mp (hknown.roots _ (mem_of_lookup hroot))

/-- A constant whose root has no parent reads that anchor only. -/
theorem eq_of_outermost (h : analysis.Accepted) {name outermost anchor id : String}
    (hroot : analysis.root? name = some (.anchor outermost none))
    (hexpr : analysis.expr? outermost = some (.anchor id none))
    (hreads : analysis.ReadsAnchor name anchor) : anchor = outermost := by
  obtain ⟨root, hroot', hhas⟩ := h.root_covers (contains_of_reads hreads)
  rw [hroot] at hroot'
  cases hroot'
  exact ((hhas.covers anchor).mpr hreads).resolve_right (not_encloses_of_outermost hexpr)

/-- The constants of a class vary with an anchor exactly if they read one. -/
theorem isAnchored_iff (h : analysis.Accepted) {name : String} (hname : analysis.contains name) :
    analysis.isAnchored name ↔ ∃ anchor, analysis.ReadsAnchor name anchor := by
  obtain ⟨root, hroot, hhas⟩ := h.root_covers hname
  rw [isAnchored, hroot]
  cases root with
  | constant =>
      have hnone : ∀ anchor, ¬ analysis.ReadsAnchor name anchor := fun anchor hreads =>
        (hhas.covers anchor).mpr hreads
      simpa [Root.isAnchor] using hnone
  | anchor deepest parent =>
      have hreads := (hhas.covers deepest).mp (Or.inl rfl)
      simpa [Root.isAnchor] using ⟨deepest, hreads⟩

/-- What is not anchored is not declared, or fixed at link time. -/
theorem not_isAnchored_iff (h : analysis.Accepted) {name : String} :
    ¬ analysis.isAnchored name ↔
      ¬ analysis.contains name ∨ analysis.root? name = some .constant := by
  rw [isAnchored]
  constructor
  · intro hplain
    by_cases hname : analysis.contains name
    · obtain ⟨root, hroot, _⟩ := h.root_covers hname
      rw [hroot] at hplain ⊢
      cases root with
      | constant => exact .inr rfl
      | anchor deepest parent => exact absurd rfl hplain
    · exact .inl hname
  · rintro (hname | hroot)
    · cases hroot : analysis.root? name with
      | none => exact Bool.false_ne_true
      | some root => exact absurd (h.contains_of_root hroot) hname
    · rw [hroot]
      exact Bool.false_ne_true

/-- A constant that reads an anchor of another class is an anchor constant itself, so the constants
that need an accessor are the anchored ones. -/
theorem needsAccessor_eq (h : analysis.Accepted) (name : String) :
    analysis.needsAccessor name = analysis.isAnchored name := by
  obtain ⟨known, hknown, _, hcross⟩ := h.classified
  have hanchored : name ∈ analysis.crossClass → analysis.isAnchored name := by
    intro hmem
    obtain ⟨_, id, parent, hexpr⟩ := hknown.crossClass name (hcross ▸ hmem)
    simp [isAnchored, h.root_of_anchor hexpr, Root.isAnchor]
  rw [needsAccessor, Bool.or_eq_right_iff_imp]
  simpa using hanchored

end Accepted

/-- The roots of an accepted class. A constant is fixed at link time exactly if it reads no anchor.
Otherwise the anchors it reads are one anchor constant with the chain of its parents, and that
anchor is the root of both. -/
theorem root_of_analyze {declarations : ClassDeclarations} {imported : AnchorTable}
    {analysis : Analysis} (h : analyze declarations imported = .ok analysis) {name : String}
    (hname : name ∈ declarations.constants.map (·.name)) :
    (analysis.root? name = some .constant ↔ ¬ ∃ anchor, analysis.ReadsAnchor name anchor) ∧
    ((∃ anchor, analysis.ReadsAnchor name anchor) →
      ∃ anchor id parent, analysis.ReadsAnchor name anchor ∧
        analysis.expr? anchor = some (.anchor id parent) ∧
        (∀ other, analysis.ReadsAnchor name other ↔
          other = anchor ∨ analysis.Encloses other anchor) ∧
        analysis.root? name = some (.anchor anchor parent) ∧
        analysis.root? anchor = some (.anchor anchor parent)) ∧
    (analysis.needsAccessor name ↔ ∃ anchor, analysis.ReadsAnchor name anchor) := by
  have haccepted : analysis.Accepted := ⟨declarations, imported, h⟩
  have hcontains : analysis.contains name := (contains_of_analyze h).mpr hname
  obtain ⟨root, hroot, hhas⟩ := haccepted.root_covers hcontains
  have hanchored := haccepted.isAnchored_iff hcontains
  refine ⟨?_, ?_, ?_⟩
  · rw [← hanchored, isAnchored, hroot]
    cases root with
    | constant => simp [Root.isAnchor]
    | anchor deepest parent => simp [Root.isAnchor]
  · rintro ⟨first, hfirst⟩
    cases root with
    | constant => exact absurd ((hhas.covers first).mpr hfirst) (fun hnone => hnone)
    | anchor deepest parent =>
        obtain ⟨id, hexpr⟩ := hhas.anchor deepest parent rfl
        refine ⟨deepest, id, parent, (hhas.covers deepest).mp (Or.inl rfl), hexpr, ?_, hroot,
          haccepted.root_of_anchor hexpr⟩
        exact fun other => (hhas.covers other).symm
  · rw [haccepted.needsAccessor_eq]
    exact hanchored

/-- A class whose constants read an anchor and the one that encloses it. -/
def nestedAnchors : ClassDeclarations where
  descriptor := "Nested"
  anchors := [⟨"T", .ofClass, none⟩, ⟨"M", .ofMethod, some "T"⟩]
  constants := [
    { name := "both", action := "list", operands := [.ref "T", .ref "M"] },
    { name := "M", action := "anchor", operands := [.ref "T"] },
    { name := "T", action := "anchor" }]

theorem root_of_nestedAnchors :
    ∃ analysis, analyze nestedAnchors .empty = .ok analysis ∧
      ∀ anchor, analysis.ReadsAnchor "both" anchor ↔
        anchor = "M" ∨ analysis.Encloses anchor "M" := by
  refine ⟨_, rfl, ?_⟩
  have haccepted : analyze nestedAnchors .empty = .ok _ := rfl
  have hdeclared : "both" ∈ nestedAnchors.constants.map (·.name) := by decide
  obtain ⟨_, hanchored, haccessor⟩ := root_of_analyze haccepted hdeclared
  obtain ⟨anchor, id, parent, _, _, hreads, hroot, _⟩ := hanchored (haccessor.mp (by decide))
  have hdeepest : anchor = "M" := by
    injection hroot.symm with hroot
    injection hroot
  exact hdeepest ▸ hreads

end Analysis

end Specialization

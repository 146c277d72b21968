import Specialization.Proofs.Analysis.Checks
import Specialization.Proofs.Analysis.Nesting
import Specialization.Proofs.World.Run

/-!
The class under whose carriers a constant is read. A read checks the anchor at the root of the
constant only, and the anchors that enclose the root are read under the same carrier. A declared
anchor is nested under declared ones, so below the first imported anchor of a chain nothing can go
wrong; an imported anchor that is nested under an anchor of a third class is read under a carrier
that has no parameters for it.
-/

namespace Specialization

variable {analysis : Analysis}

namespace Analysis

/-- The parent of an anchor constant is an anchor constant. -/
theorem Accepted.isAnchor_of_parentOf (h : analysis.Accepted) {above name : String}
    (hparent : analysis.ParentOf above name) : analysis.IsAnchor above := by
  obtain ⟨id, hexpr⟩ := hparent
  obtain ⟨_, _, hnested⟩ := h.nestsAsDeclared name id (some above) hexpr
  obtain ⟨enclosing, outer, _, hexpr'⟩ := hnested.expr_of_parent
  exact ⟨enclosing, outer, hexpr'⟩

/-- The parent of an anchor constant that reads a declared anchor reads a declared one too. -/
theorem Accepted.contains_parent (h : analysis.Accepted) {above name id : String}
    (hexpr : analysis.expr? name = some (.anchor id (some above)))
    (hdeclared : analysis.anchors.contains id) :
    ∃ enclosing outer, analysis.expr? above = some (.anchor enclosing outer) ∧
      analysis.anchors.contains enclosing := by
  obtain ⟨anchor, hanchor, hnested⟩ := h.nestsAsDeclared name id (some above) hexpr
  obtain ⟨enclosing, outer, hparent, hexpr'⟩ := hnested.expr_of_parent
  obtain ⟨own, hown⟩ := Option.isSome_iff_exists.mp hdeclared
  obtain rfl : own = anchor := by
    rw [anchor?, Classification.declared?, hown] at hanchor
    exact Option.some.inj hanchor
  obtain ⟨declarations, imported, h⟩ := h
  exact ⟨enclosing, outer, hexpr', AnchorTable.contains_parent (stages_of_analyze h).anchors
    (List.mem_of_find?_eq_some hown) hparent⟩

end Analysis

namespace Class

open Analysis

variable {self : Class}

/-- Only a constant that varies with an anchor is read under the carriers of one class. -/
theorem carrierClass?_eq_none {constant : String} :
    self.carrierClass? constant = none ↔ ¬ self.analysis.isAnchored constant := by
  rw [Analysis.isAnchored, carrierClass?]
  cases hroot : self.analysis.root? constant with
  | none => exact ⟨fun _ => Bool.false_ne_true, fun _ => rfl⟩
  | some root =>
      cases root with
      | constant => exact ⟨fun _ => Bool.false_ne_true, fun _ => rfl⟩
      | anchor deepest parent =>
          simp only [Root.anchorName?, bind, Option.bind]
          constructor
          · intro h
            split at h
            · split at h <;> cases h
            · cases h
          · exact fun hplain => absurd rfl hplain

theorem carrierClass?_of_anchor (h : self.analysis.Accepted) {name id : String}
    {parent : Option String} (hexpr : self.analysis.expr? name = some (.anchor id parent)) :
    self.carrierClass? name = some (if self.analysis.anchors.contains id then self.descriptor
      else (self.definition.importedOwners.lookup id).getD self.descriptor) := by
  simp only [carrierClass?, h.root_of_anchor hexpr, Root.anchorName?, bind, Option.bind, hexpr]
  split <;> rfl

/-- A constant is read under the carriers of the class of its root. -/
theorem carrierClass?_of_root (h : self.analysis.Accepted) {constant name id : String}
    {parent : Option String} (hroot : self.analysis.root? constant = some (.anchor name parent))
    (hexpr : self.analysis.expr? name = some (.anchor id parent)) :
    self.carrierClass? constant = self.carrierClass? name := by
  simp only [carrierClass?, hroot, h.root_of_anchor hexpr]

/-- All anchor constants of a chain belong to the class of the deepest one, as long as no imported
anchor is nested under an anchor of another class. -/
theorem carrierClass?_of_covers (h : self.analysis.Accepted) {deepest anchor : String}
    {parent : Option String}
    (hnested : ∀ name above id, self.analysis.Covers (.anchor deepest parent) name →
      self.analysis.expr? name = some (.anchor id (some above)) →
      ¬ self.analysis.anchors.contains id → self.carrierClass? above = self.carrierClass? name)
    (hcovers : self.analysis.Covers (.anchor deepest parent) anchor) :
    self.carrierClass? anchor = self.carrierClass? deepest := by
  have hcovers_iff : ∀ {name}, self.analysis.Covers (.anchor deepest parent) name ↔
      Relation.ReflTransGen self.analysis.ParentOf name deepest := fun {name} => by
    rw [Relation.reflTransGen_iff_eq_or_transGen, eq_comm]
    rfl
  -- Up the chain from the deepest anchor. Once an anchor is declared, so are all above it.
  induction hcovers_iff.mp hcovers using Relation.ReflTransGen.head_induction_on with
  | refl => rfl
  | @head above name hparent hchain ih =>
      have hname := ih (hcovers_iff.mpr hchain)
      obtain ⟨id, hexpr⟩ := hparent
      by_cases hdeclared : self.analysis.anchors.contains id
      · obtain ⟨enclosing, outer, hexpr', habove⟩ := h.contains_parent hexpr hdeclared
        rw [← hname, carrierClass?_of_anchor h hexpr, carrierClass?_of_anchor h hexpr',
          if_pos hdeclared, if_pos habove]
      · rw [hnested name above id (hcovers_iff.mpr hchain) hexpr hdeclared, hname]

theorem descriptor_of_accessorValue {host : Host} {functions : Registry} {world : World}
    {constant : String} {carrier : Carrier} {value : Value}
    (h : (exec (self.accessorValue host functions constant carrier) world).1 = .ok value)
    {expected : Descriptor} (hclass : self.carrierClass? constant = some expected) :
    carrier.owner.descriptor = expected := by
  by_contra hother
  have hcheck : exec (self.checkCarrier constant carrier) world =
      (.error (.carrierMismatch constant expected carrier.owner.descriptor), world) := by
    simp [checkCarrier, hclass, hother]
  rw [accessorValue, exec_bind_error hcheck] at h
  cases h

/-- A read of a constant that varies with an anchor succeeds only under carriers of the class of its
root. All other anchors that it reads belong to that class as well exactly if no imported one among
them is nested under an anchor of another class. -/
theorem carrierClass?_of_accessorValue {spec : ClassSpec} {superclass : Option Class}
    {before : World} (hload : (exec (load spec superclass) before).1 = .ok self) {host : Host}
    {functions : Registry} {world : World} {constant : String} {carrier : Carrier} {value : Value}
    (hread : (exec (self.accessorValue host functions constant carrier) world).1 = .ok value) :
    ((∃ anchor, self.analysis.ReadsAnchor constant anchor) → ∃ deepest parent,
      self.analysis.root? constant = some (.anchor deepest parent) ∧
        self.carrierClass? deepest = some carrier.owner.descriptor) ∧
    ((∀ anchor, self.analysis.ReadsAnchor constant anchor →
        self.carrierClass? anchor = some carrier.owner.descriptor) ↔
      ∀ anchor above id, self.analysis.ReadsAnchor constant anchor →
        self.analysis.expr? anchor = some (.anchor id (some above)) →
        ¬ self.analysis.anchors.contains id →
          self.carrierClass? above = self.carrierClass? anchor) := by
  have h := accepted_of_load hload
  have hroot : ∀ {anchor}, self.analysis.ReadsAnchor constant anchor → ∃ deepest parent,
      self.analysis.root? constant = some (.anchor deepest parent) ∧
        self.analysis.HasRoot constant (.anchor deepest parent) ∧
          self.carrierClass? deepest = some carrier.owner.descriptor := by
    intro anchor hreads
    obtain ⟨root, hlookup, hhas⟩ := h.root_covers (contains_of_reads hreads)
    cases root with
    | constant => exact absurd ((hhas.covers anchor).mpr hreads) (fun hnone => hnone)
    | anchor deepest parent =>
        obtain ⟨id, hexpr⟩ := hhas.anchor deepest parent rfl
        refine ⟨deepest, parent, hlookup, hhas, ?_⟩
        have hclass := carrierClass?_of_anchor h hexpr
        rw [descriptor_of_accessorValue hread
          ((carrierClass?_of_root h hlookup hexpr).trans hclass), hclass]
  refine ⟨?_, ?_, ?_⟩
  · rintro ⟨anchor, hreads⟩
    obtain ⟨deepest, parent, hlookup, _, hclass⟩ := hroot hreads
    exact ⟨deepest, parent, hlookup, hclass⟩
  · intro hall anchor above id hreads hexpr _
    have hparent : self.analysis.ParentOf above anchor := ⟨id, hexpr⟩
    have hedge : above ∈ self.analysis.graph.next anchor := by
      simp [next_of_expr hexpr, Expr.references]
    rw [hall anchor hreads,
      hall above ⟨hreads.1.tail hedge, h.isAnchor_of_parentOf hparent⟩]
  · intro hnested anchor hreads
    obtain ⟨deepest, parent, _, hhas, hclass⟩ := hroot hreads
    rw [← hclass]
    exact carrierClass?_of_covers h
      (fun name above id hname => hnested name above id ((hhas.covers name).mp hname))
      ((hhas.covers anchor).mpr hreads)

/-- A class that imports an anchor of the outer class, and an anchor nested under it of a class in
between. -/
def innermost (between : Descriptor) : ClassSpec where
  descriptor := "Inner"
  defaults := ["Object"]
  importedAnchors := [⟨"Outer", { name := "Outer#T", level := .ofClass }⟩,
    ⟨between, { name := "Mid#U", level := .ofClass, parent := some "Outer#T" }⟩]
  constants := [
    { name := "t", action := "anchor", operands := [.string "Outer#T"] },
    { name := "u", action := "anchor", operands := [.string "Mid#U", .ref "t"] },
    { name := "both", action := "list", operands := [.ref "t", .ref "u"] }]

/-- The class that is loaded from a spec and nothing else. -/
def loadedAlone (spec : ClassSpec)
    (h : ((Scene.start {} .standard).loadClass spec none).classes ≠ []) : Class :=
  ((Scene.start {} .standard).loadClass spec none).classes.head h

def innermostClass (between : Descriptor) : Class :=
  loadedAlone (innermost between) (List.cons_ne_nil _ _)

/-- The value of a constant of the innermost class under a carrier of some other class. -/
def readInnermost (between : Descriptor) (constant : String) (owner : Descriptor) :
    Except Error Value :=
  let other : Class := loadedAlone { descriptor := owner, defaults := ["Object"] }
    (List.cons_ne_nil _ _)
  let carrier : Carrier := .synthesize 1 (.ofClass other) (.type "String") none
  (exec ((innermostClass between).accessorValue (fun _ _ => .error "absent") .standard constant
    carrier) {}).1

/-- Both anchors are of the outer class, one nested under the other, and the constant reads both. -/
theorem carrierClass?_of_enclosing :
    readInnermost "Outer" "both" "Outer" = .ok (.list [.type "String", .type "String"]) ∧
    (innermostClass "Outer").analysis.ReadsAnchor "both" "t" ∧
    (innermostClass "Outer").analysis.ReadsAnchor "both" "u" ∧
    ∀ anchor, (innermostClass "Outer").analysis.ReadsAnchor "both" anchor →
      (innermostClass "Outer").carrierClass? anchor = some "Outer" := by
  have hload : (exec (load (innermost "Outer") none) {}).1 = .ok (innermostClass "Outer") := rfl
  have hread : readInnermost "Outer" "both" "Outer" =
    .ok (.list [.type "String", .type "String"]) := rfl
  refine ⟨hread, ⟨.single (by decide), "Outer#T", none, rfl⟩,
    ⟨.single (by decide), "Mid#U", some "t", rfl⟩,
    (carrierClass?_of_accessorValue hload hread).2.mpr ?_⟩
  intro anchor above id _ hexpr _
  have hnames : (innermostClass "Outer").analysis.names.Nodup := by decide
  have hlisted : ⟨anchor, .anchor id (some above)⟩ ∈ (innermostClass "Outer").analysis.constants :=
    (mem_constants_iff hnames).mpr hexpr
  have hconstants : (innermostClass "Outer").analysis.constants =
    [⟨"t", .anchor "Outer#T" none⟩, ⟨"u", .anchor "Mid#U" (some "t")⟩,
      ⟨"both", .list [.ref "t", .ref "u"]⟩] := rfl
  -- The one anchor that is nested is that of the class in between.
  rw [hconstants] at hlisted
  simp only [List.mem_cons, Constant.mk.injEq, Expr.anchor.injEq, Option.some.injEq, reduceCtorEq,
    and_false, false_or, List.not_mem_nil, or_false] at hlisted
  obtain ⟨rfl, rfl, rfl⟩ := hlisted
  rfl

/-- The anchor of the outer class is read under a carrier of the class between, since the check of
the constant looks no further than its root. Read by itself, the same anchor is refused. -/
theorem readInnermost_both :
    (innermostClass "Mid").analysis.ReadsAnchor "both" "t" ∧
    (innermostClass "Mid").carrierClass? "t" = some "Outer" ∧
    readInnermost "Mid" "both" "Mid" = .ok (.list [.type "String", .type "String"]) ∧
    readInnermost "Mid" "t" "Mid" = .error (.carrierMismatch "t" "Outer" "Mid") :=
  ⟨⟨.single (by decide), "Outer#T", none, rfl⟩, rfl, rfl, rfl⟩

end Class

end Specialization

import Specialization.Proofs.Analysis.Roots
import Specialization.Proofs.Graph.Cycle

/-!
The rules that a class has to obey to be accepted. They are said of its declarations alone, without
the order in which an analysis goes over them: what an anchor constant may be nested under, for
instance, is a matter of the whole class.

An analysis is one check after the other, each for one rule. So it reports the first rule that is
violated, and a later rule is never read where an earlier one is violated.
-/

namespace Specialization

/-- The rules, in the order in which they are checked. -/
inductive Rule where
  | anchors
  | declarations
  | references
  | cycles
  | nesting
  | supertype
  deriving DecidableEq

def Rule.all : List Rule :=
  [.anchors, .declarations, .references, .cycles, .nesting, .supertype]

/-- The rules that are checked before a rule. -/
def Rule.earlier (rule : Rule) : List Rule :=
  all.takeWhile (· != rule)

theorem Rule.mem_all (rule : Rule) : rule ∈ all := by
  cases rule <;> decide

theorem Rule.earlier_of_split {before after : List Rule} {rule : Rule}
    (h : all = before ++ rule :: after) : rule.earlier = before := by
  have hnew : rule ∉ before := fresh_of_split (by decide) h
  have hbefore : ∀ other ∈ before, (other != rule) = true := by
    intro other hother
    rw [bne_iff_ne]
    rintro rfl
    exact hnew hother
  rw [earlier, h, List.takeWhile_append_of_pos hbefore]
  simp

/-- The rule whose violation an error reports. Linkage errors reject no class. -/
def ConstantError.rule? : ConstantError → Option Rule
  | .topology _ .anchorDeclaredTwice => some .anchors
  | .topology _ (.parentUndeclared _) => some .anchors
  | .topology _ .referenceCycle => some .cycles
  | .topology _ (.parentNotAnchor _) => some .nesting
  | .topology _ (.nestedElsewhere _ _ _) => some .nesting
  | .divergentAnchor _ _ _ => some .nesting
  | .undeclaredAnchor _ _ => some .nesting
  | .unresolvedReference _ _ => some .references
  | .malformedDeclaration _ (.secondSupertype _) => some .supertype
  | .malformedDeclaration _ _ => some .declarations
  | .linkage _ _ _ => none

namespace Analysis

variable (analysis : Analysis)

/-- An anchor constant with the given parent constant is nested directly under an anchor: under none
without a parent, and else under the anchor that its parent constant reads. -/
def NestedUnder (enclosing parent : Option String) : Prop :=
  match enclosing with
  | none => parent = none
  | some id => ∃ above outer, parent = some above ∧
      analysis.expr? above = some (.anchor id outer)

theorem NestedUnder.expr_of_parent {analysis : Analysis} {enclosing : Option String}
    {above : String} (h : analysis.NestedUnder enclosing (some above)) :
    ∃ id outer, enclosing = some id ∧ analysis.expr? above = some (.anchor id outer) := by
  cases enclosing with
  | none => cases h
  | some id =>
      obtain ⟨_, outer, heq, hexpr⟩ := h
      cases heq
      exact ⟨id, outer, rfl, hexpr⟩

/-- An anchor constant reads a declared anchor, and it is nested as the anchor is declared. -/
def NestsAsDeclared (name : String) : Prop :=
  ∀ id parent, analysis.expr? name = some (.anchor id parent) →
    ∃ anchor, analysis.anchor? id = some anchor ∧ analysis.NestedUnder anchor.parent parent

/-- The anchor constants that a constant reads lie on one chain of parents. -/
def ReadsChain (name : String) : Prop :=
  ∀ first second, analysis.ReadsAnchor name first → analysis.ReadsAnchor name second →
    first = second ∨ analysis.Encloses first second ∨ analysis.Encloses second first

/-- A constant that maps the class to an instantiation of its direct superclass. -/
def IsSupertype (name : String) : Prop :=
  ∃ operand, analysis.expr? name = some (.supertype operand)

end Analysis

/-- The constant that a declaration stands for, if it can be read. -/
def Declaration.constant? (declaration : Declaration) : Option Constant :=
  (Expr.ofDeclaration declaration).toOption.map (⟨declaration.name, ·⟩)

namespace ClassDeclarations

/-- A class as it is declared, with nothing checked. -/
def draft (declarations : ClassDeclarations) (imported : AnchorTable) : Analysis where
  descriptor := declarations.descriptor
  constants := declarations.constants.filterMap Declaration.constant?
  order := []
  roots := []
  crossClass := []
  anchors := ⟨declarations.anchors⟩
  imported := imported
  superMapping := none

/-- What each rule demands. -/
def Obeys (declarations : ClassDeclarations) (imported : AnchorTable) : Rule → Prop
  | .anchors => (declarations.anchors.map (·.name)).Nodup ∧
      ∀ before anchor after, declarations.anchors = before ++ anchor :: after →
        ∀ parent, anchor.parent = some parent → parent ∈ before.map (·.name)
  | .declarations => (declarations.constants.map (·.name)).Nodup ∧
      ∀ declaration ∈ declarations.constants, ∃ expr, Expr.ofDeclaration declaration = .ok expr
  | .references => ∀ declaration ∈ declarations.constants, ∀ expr,
      Expr.ofDeclaration declaration = .ok expr → ∀ reference ∈ expr.references,
        reference ∈ declarations.constants.map (·.name)
  | .cycles => ∀ name, ¬ (declarations.draft imported).graph.OnCycle name
  | .nesting => ∀ name, (declarations.draft imported).NestsAsDeclared name ∧
      (declarations.draft imported).ReadsChain name
  | .supertype => ∀ first second, (declarations.draft imported).IsSupertype first →
      (declarations.draft imported).IsSupertype second → first = second

end ClassDeclarations

/-- A check of one rule: it passes only where the rule is obeyed, and it fails only where it is
violated, with an error that says so. -/
structure Decides {α : Type} (rule : Rule) (Obeyed : Prop) (check : Except ConstantError α) :
    Prop where
  passed : ∀ a, check = .ok a → Obeyed
  failed : ∀ error, check = .error error → error.rule? = some rule ∧ ¬ Obeyed

/-- Checks of several rules, which report the first one that is violated. -/
structure Checks {α : Type} (Obeyed : Rule → Prop) (rules : List Rule)
    (check : Except ConstantError α) : Prop where
  passed : ∀ a, check = .ok a → ∀ rule ∈ rules, Obeyed rule
  failed : ∀ error, check = .error error → ∃ before rule after,
    rules = before ++ rule :: after ∧ (∀ earlier ∈ before, Obeyed earlier) ∧ ¬ Obeyed rule ∧
      error.rule? = some rule

section Checks

variable {α β : Type} {Obeyed : Rule → Prop} {rule : Rule} {rules : List Rule}

theorem Decides.ok {Obeyed : Prop} (h : Obeyed) (a : α) :
    Decides rule Obeyed (.ok a : Except ConstantError α) :=
  ⟨fun _ _ => h, fun _ herror => nomatch herror⟩

theorem Decides.error {Obeyed : Prop} {error : ConstantError} (hrule : error.rule? = some rule)
    (hnot : ¬ Obeyed) : Decides rule Obeyed (.error error : Except ConstantError α) := by
  refine ⟨fun _ hok => (nomatch hok), fun error' herror => ?_⟩
  cases herror
  exact ⟨hrule, hnot⟩

theorem Decides.of_iff {Obeyed Obeyed' : Prop} {check : Except ConstantError α}
    (h : Decides rule Obeyed check) (hiff : Obeyed ↔ Obeyed') : Decides rule Obeyed' check :=
  ⟨fun a ha => hiff.mp (h.passed a ha),
    fun error herror => (h.failed error herror).imp_right (mt hiff.mpr)⟩

/-- Where the rule is obeyed, the check passes. -/
theorem Decides.exists_ok {Obeyed : Prop} {check : Except ConstantError α}
    (h : Decides rule Obeyed check) (hobeyed : Obeyed) : ∃ a, check = .ok a := by
  cases hcheck : check with
  | ok a => exact ⟨a, rfl⟩
  | error error => exact absurd hobeyed (h.failed error hcheck).2

/-- A loop checks each of its items in view of those before it. -/
theorem Decides.foldlM {Obeyed : List α → α → Prop} {step : β → α → Except ConstantError β}
    {items : List α} {first : β}
    (hstep : ∀ done item rest state, items = done ++ item :: rest →
      done.foldlM step first = .ok state → Decides rule (Obeyed done item) (step state item)) :
    Decides rule (∀ done item rest, items = done ++ item :: rest → Obeyed done item)
      (items.foldlM step first) := by
  constructor
  · intro last hlast done item rest hsplit
    obtain ⟨state, next, hstate, hnext⟩ := foldlM_split (hsplit ▸ hlast)
    exact (hstep done item rest state hsplit hstate).passed next hnext
  · intro error herror
    obtain ⟨done, item, rest, state, hsplit, hstate, hitem⟩ := foldlM_eq_error herror
    obtain ⟨hrule, hnot⟩ := (hstep done item rest state hsplit hstate).failed error hitem
    exact ⟨hrule, fun hall => hnot (hall done item rest hsplit)⟩

theorem Checks.done (a : α) : Checks Obeyed [] (.ok a : Except ConstantError α) where
  passed _ _ _ h := absurd h List.not_mem_nil
  failed _ h := nomatch h

theorem Decides.followedBy {check : Except ConstantError α} {next : α → Except ConstantError β}
    (h : Decides rule (Obeyed rule) check)
    (hnext : ∀ a, check = .ok a → Checks Obeyed rules (next a)) :
    Checks Obeyed (rule :: rules) (check >>= next) := by
  constructor
  · intro b hb
    obtain ⟨a, ha, hb⟩ := bind_eq_ok.mp hb
    rw [List.forall_mem_cons]
    exact ⟨h.passed a ha, (hnext a ha).passed b hb⟩
  · intro error herror
    rcases bind_eq_error.mp herror with hcheck | ⟨a, ha, hrest⟩
    · obtain ⟨hrule, hnot⟩ := h.failed error hcheck
      exact ⟨[], rule, rules, rfl, by simp, hnot, hrule⟩
    · obtain ⟨before, later, after, rfl, hbefore, hlater⟩ := (hnext a ha).failed error hrest
      refine ⟨rule :: before, later, after, rfl, ?_, hlater⟩
      rw [List.forall_mem_cons]
      exact ⟨h.passed a ha, hbefore⟩

theorem Checks.passes_iff {check : Except ConstantError α} (h : Checks Obeyed rules check) :
    (∃ a, check = .ok a) ↔ ∀ rule ∈ rules, Obeyed rule := by
  constructor
  · rintro ⟨a, ha⟩
    exact h.passed a ha
  · intro hall
    cases hcheck : check with
    | ok a => exact ⟨a, rfl⟩
    | error error =>
        obtain ⟨before, violated, after, rfl, _, hnot, _⟩ := h.failed error hcheck
        exact absurd (hall violated (by simp)) hnot

end Checks

end Specialization

import Specialization.Proofs.Analysis.Checks
import Specialization.Proofs.Evaluation.Meaning
import Specialization.Proofs.Value.Vocabulary

/-!
Evaluation stays within a vocabulary. The functions in the value of a constant come from the
registry, from the parameters in scope, or from a host function that was given values of the
vocabulary; what a class declares literally has no functions in it.
-/

namespace Specialization

variable {vocabulary : Vocabulary}

/-- A vocabulary of all functions that can be named, and that host functions do not leave. -/
structure Vocabulary.Closed (vocabulary : Vocabulary) (host : Host) (functions : Registry) :
    Prop where
  functions : ∀ name native, functions.find? name = some native → vocabulary.Contains native
  host : ∀ index arguments value, vocabulary.CoversAll arguments →
    host index arguments = .ok value → vocabulary.Covers value

namespace NativeFunction

variable {arguments : List Value} {value : Value}

theorem covers_addInts (h : addInts arguments = .ok value) : vocabulary.Covers value := by
  unfold addInts at h
  split at h
  · split at h
    · cases h
      trivial
    · cases h
  · cases h
  · cases h

theorem covers_concatLists (harguments : vocabulary.CoversAll arguments)
    (h : concatLists arguments = .ok value) : vocabulary.Covers value := by
  unfold concatLists at h
  split at h
  · rename_i a b
    cases h
    obtain ⟨hfirst, hsecond, _⟩ := harguments
    apply Vocabulary.coversAll_iff.mpr
    intro item hitem
    rcases List.mem_append.mp hitem with ha | hb
    · exact Vocabulary.coversAll_iff.mp hfirst item ha
    · exact Vocabulary.coversAll_iff.mp hsecond item hb
  · cases h
  · cases h

theorem covers_makeSpecies (harguments : vocabulary.CoversAll arguments)
    (h : makeSpecies arguments = .ok value) : vocabulary.Covers value := by
  unfold makeSpecies at h
  split at h
  · cases h
    exact harguments.2.1
  · cases h
  · cases h

theorem covers_convertDescriptor (h : convertDescriptor arguments = .ok value) :
    vocabulary.Covers value := by
  unfold convertDescriptor at h
  split at h
  · cases h
    trivial
  · cases h
    trivial
  · cases h
    trivial
  · cases h
  · cases h

variable {host : Host} {functions : Registry}

theorem covers_invoke (hclosed : vocabulary.Closed host functions) {native : NativeFunction}
    {bound : List Value} (hbound : vocabulary.CoversAll bound)
    (harguments : vocabulary.CoversAll arguments)
    (h : native.invoke host bound arguments = .ok value) : vocabulary.Covers value := by
  have hall : vocabulary.CoversAll (arguments ++ bound) := by
    apply Vocabulary.coversAll_iff.mpr
    intro argument hmem
    rcases List.mem_append.mp hmem with hgiven | hbefore
    · exact Vocabulary.coversAll_iff.mp harguments argument hgiven
    · exact Vocabulary.coversAll_iff.mp hbound argument hbefore
  unfold invoke at h
  dsimp only at h
  split at h
  · have hcompute := mapError_eq_ok.mp h
    unfold compute at hcompute
    split at hcompute
    · exact covers_addInts hcompute
    · exact covers_concatLists hall hcompute
    · exact covers_makeSpecies hall hcompute
    · exact covers_convertDescriptor hcompute
    · exact hclosed.host _ _ value hall (mapError_eq_ok.mp hcompute)
  · cases h

end NativeFunction

namespace Evaluator

variable {evaluator : Evaluator}

/-- All that an evaluator starts from is covered. -/
structure CoveredBy (evaluator : Evaluator) (vocabulary : Vocabulary) : Prop where
  closed : vocabulary.Closed evaluator.host evaluator.functions
  scope : ∀ level, vocabulary.CoversOption (evaluator.scope.parameters level)
  literals : ∀ name value, evaluator.analysis.expr? name = some (.literal value) →
    vocabulary.Covers value

section Expressions

variable {values : String → Option Value}

theorem CoveredBy.operand (h : evaluator.CoveredBy vocabulary)
    (hvalues : ∀ name, vocabulary.CoversOption (values name)) {action : Action}
    {operand : Operand} {value : Value}
    (hvalue : evaluator.operand values action operand = .ok value) : vocabulary.Covers value := by
  cases operand with
  | ref name =>
      simp only [Evaluator.operand] at hvalue
      split at hvalue
      · rename_i found hfound
        cases hvalue
        exact hvalues name value hfound
      · cases hvalue
  | function name =>
      obtain ⟨found, hfound, rfl⟩ := map_eq_ok.mp hvalue
      unfold Evaluator.function at hfound
      split at hfound
      · rename_i known hknown
        cases hfound
        obtain ⟨native, hnative, rfl⟩ := Option.map_eq_some_iff.mp hknown
        exact ⟨h.closed.functions name native hnative, trivial⟩
      · cases hfound
  | int | double | string | type =>
      cases hvalue
      trivial

theorem CoveredBy.operands (h : evaluator.CoveredBy vocabulary)
    (hvalues : ∀ name, vocabulary.CoversOption (values name)) {action : Action}
    {operands : List Operand} {found : List Value}
    (hfound : operands.mapM (evaluator.operand values action) = .ok found) :
    vocabulary.CoversAll found := by
  induction operands generalizing found with
  | nil =>
      cases hfound
      trivial
  | cons operand rest ih =>
      rw [List.mapM_cons, bind_eq_ok] at hfound
      obtain ⟨value, hvalue, hfound⟩ := hfound
      obtain ⟨others, hothers, hfound⟩ := bind_eq_ok.mp hfound
      cases hfound
      exact ⟨h.operand hvalues hvalue, ih hothers⟩

theorem CoveredBy.function (h : evaluator.CoveredBy vocabulary) {action : Action} {name : String}
    {function : BoundFunction} (hfunction : evaluator.function action name = .ok function) :
    vocabulary.Contains function.native ∧ function.bound = [] := by
  unfold Evaluator.function at hfunction
  split at hfunction
  · rename_i known hknown
    cases hfunction
    obtain ⟨native, hnative, rfl⟩ := Option.map_eq_some_iff.mp hknown
    exact ⟨h.closed.functions name native hnative, rfl⟩
  · cases hfunction

theorem covers_elementAt {items index value : Value} (hitems : vocabulary.Covers items)
    (h : elementAt items index = .ok value) : vocabulary.Covers value := by
  unfold elementAt at h
  split at h
  · rename_i values position
    split at h
    · rename_i found hfound
      cases h
      split at hfound
      · exact Vocabulary.coversAll_iff.mp hitems value (List.mem_of_getElem? hfound)
      · cases hfound
    · cases h
  · cases h

theorem speciesOf_eq_ok {action : Action} {value parameters : Value} {raw : Descriptor}
    (h : speciesOf action value = .ok (raw, parameters)) : value = .species raw parameters := by
  unfold speciesOf at h
  split at h
  · rename_i species hspecies
    cases h
    exact Value.eq_species_of_asSpecies? hspecies
  · cases h

/-- The value of an expression is covered if the values are that it reads. -/
theorem CoveredBy.expr (h : evaluator.CoveredBy vocabulary)
    (hvalues : ∀ name, vocabulary.CoversOption (values name)) {expr : Expr} {value : Value}
    (hliteral : ∀ literal, expr = .literal literal → vocabulary.Covers literal)
    (hvalue : evaluator.expr values expr = .ok value) : vocabulary.Covers value := by
  cases expr with
  | literal value =>
      cases hvalue
      exact hliteral value rfl
  | type descriptor =>
      cases hvalue
      trivial
  | list items =>
      obtain ⟨found, hfound, rfl⟩ := map_eq_ok.mp hvalue
      exact h.operands hvalues hfound
  | listGet items index =>
      obtain ⟨list, hlist, hvalue⟩ := bind_eq_ok.mp hvalue
      obtain ⟨position, _, hvalue⟩ := bind_eq_ok.mp hvalue
      exact covers_elementAt (h.operand hvalues hlist) hvalue
  | species raw parameters =>
      obtain ⟨found, _, hvalue⟩ := bind_eq_ok.mp hvalue
      obtain ⟨above, habove, hvalue⟩ := bind_eq_ok.mp hvalue
      have hcovered := h.operand hvalues habove
      split at hvalue
      · cases hvalue
        exact hcovered
      · cases hvalue
  | speciesRaw operand =>
      obtain ⟨found, _, hvalue⟩ := bind_eq_ok.mp hvalue
      obtain ⟨species, _, hvalue⟩ := bind_eq_ok.mp hvalue
      cases hvalue
      trivial
  | speciesParameters operand =>
      obtain ⟨found, hfound, hvalue⟩ := bind_eq_ok.mp hvalue
      obtain ⟨⟨raw, parameters⟩, hspecies, hvalue⟩ := bind_eq_ok.mp hvalue
      cases hvalue
      obtain rfl := speciesOf_eq_ok hspecies
      have hcovered := h.operand hvalues hfound
      exact hcovered
  | linkage operand =>
      obtain ⟨inner, hinner, rfl⟩ := map_eq_ok.mp hvalue
      have hcovered := h.operand hvalues hinner
      exact hcovered
  | function name bound =>
      obtain ⟨function, hfunction, hvalue⟩ := bind_eq_ok.mp hvalue
      obtain ⟨arguments, harguments, hvalue⟩ := bind_eq_ok.mp hvalue
      obtain ⟨hnative, hnothing⟩ := h.function hfunction
      unfold bindTrailing at hvalue
      split at hvalue
      · cases hvalue
      · cases hvalue
        refine ⟨hnative, ?_⟩
        rw [BoundFunction.bind, hnothing]
        exact h.operands hvalues harguments
  | restriction types =>
      obtain ⟨found, _, rfl⟩ := map_eq_ok.mp hvalue
      trivial
  | anchor id parent =>
      simp only [Evaluator.expr, dereference] at hvalue
      split at hvalue
      · cases hvalue
      · split at hvalue
        · rename_i found hfound
          cases hvalue
          exact h.scope _ value hfound
        · cases hvalue
  | supertype operand =>
      obtain ⟨found, hfound, hvalue⟩ := bind_eq_ok.mp hvalue
      split at hvalue
      · cases hvalue
        exact h.operand hvalues hfound
      · cases hvalue
  | eval target arguments =>
      obtain ⟨found, hfound, hvalue⟩ := bind_eq_ok.mp hvalue
      obtain ⟨given, hgiven, hvalue⟩ := bind_eq_ok.mp hvalue
      split at hvalue
      · rename_i native bound hnative
        have hfunction := h.operand hvalues hfound
        rw [Value.eq_function_of_asFunction? hnative] at hfunction
        exact NativeFunction.covers_invoke h.closed hfunction.2 (h.operands hvalues hgiven) hvalue
      · cases hvalue

end Expressions

theorem CoveredBy.constant (h : evaluator.CoveredBy vocabulary) {values : String → Option Value}
    (hvalues : ∀ name, vocabulary.CoversOption (values name)) {name : String} {value : Value}
    (hvalue : evaluator.constant values name = .ok value) : vocabulary.Covers value := by
  unfold Evaluator.constant at hvalue
  split at hvalue
  · rename_i expr hexpr
    apply h.expr hvalues ?_ hvalue
    rintro literal rfl
    exact h.literals name literal hexpr
  · cases hvalue

variable {acyclic : evaluator.analysis.Acyclic}

/-- By recursion over references: a value is made from those of the constants referred to. -/
theorem CoveredBy.value? (h : evaluator.CoveredBy vocabulary) (name : String) :
    vocabulary.CoversOption (evaluator.value? acyclic name) := by
  induction name using acyclic.induction with
  | h name ih =>
      intro value hvalue
      obtain ⟨_, hconstant⟩ := value?_eq_some.mp hvalue
      -- Only the constants referred to are read, and the induction covers no others.
      let below (child : String) : Option Value :=
        if child ∈ evaluator.analysis.graph.next name then evaluator.value? acyclic child else none
      have hread : evaluator.constant below name = .ok value := by
        rw [← hconstant]
        apply constant_congr
        intro child hchild
        exact if_pos hchild
      apply h.constant ?_ hread
      intro child
      dsimp only [below]
      split
      · rename_i hchild
        exact ih child hchild
      · exact Vocabulary.coversOption_none

theorem CoveredBy.meaning (h : evaluator.CoveredBy vocabulary) {name : String} {value : Value}
    (hvalue : evaluator.meaning acyclic name = .ok value) : vocabulary.Covers value := by
  unfold Evaluator.meaning at hvalue
  split at hvalue
  · cases hvalue
  · exact h.constant h.value? hvalue

end Evaluator

theorem Operand.covers_scalar {operand : Operand} {value : Value}
    (h : operand.scalar? = some value) : vocabulary.Covers value := by
  cases operand with
  | ref | function => cases h
  | int | double | string | type =>
      cases h
      trivial

namespace Expr

/-- A literal is what one operand stands for. -/
theorem scalar_of_ofOperands {name : String} {action : Action} {operands : List Operand}
    {value : Value} (h : ofOperands name action operands = .ok (.literal value)) :
    ∃ operand : Operand, operand.scalar? = some value := by
  by_cases hanchor : action = .anchor
  · subst hanchor
    obtain ⟨parts, _, hparts⟩ := map_eq_ok.mp h
    cases hparts
  · fun_cases ofOperands name action operands <;> simp_all [ofOperands]
    exact ⟨_, by assumption⟩

theorem covers_literal {declaration : Declaration} {value : Value}
    (h : ofDeclaration declaration = .ok (.literal value)) : vocabulary.Covers value := by
  have hparsed := mapError_eq_ok.mp h
  split at hparsed
  · obtain ⟨operand, hscalar⟩ := scalar_of_ofOperands hparsed
    exact operand.covers_scalar hscalar
  · cases hparsed

end Expr

/-- What an accepted class declares literally is covered by every vocabulary. -/
theorem Analysis.Accepted.covers_literal {analysis : Analysis} (h : analysis.Accepted)
    {name : String} {value : Value} (hvalue : analysis.expr? name = some (.literal value)) :
    vocabulary.Covers value := by
  obtain ⟨declarations, imported, hanalysis⟩ := h
  have hconstants := Analysis.constants_of_readDeclarations (stages_of_analyze hanalysis).constants
  obtain ⟨constant, hfound, hexpr⟩ := Option.map_eq_some_iff.mp hvalue
  obtain ⟨hmem, _⟩ := find?_eq_some hfound
  rw [hconstants] at hmem
  have hdraft : constant ∈ (declarations.draft imported).constants := hmem
  obtain ⟨declaration, _, _, hdeclared⟩ := ClassDeclarations.mem_draft_constants.mp hdraft
  rw [hexpr] at hdeclared
  exact Expr.covers_literal hdeclared

end Specialization

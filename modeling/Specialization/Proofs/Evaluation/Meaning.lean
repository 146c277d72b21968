import Specialization.Proofs.Analysis.Accepted
import Specialization.Proofs.Evaluation.Expression

/-!
The meaning of constants, without passes and caches: by recursion over references, a constant has a
value if everything it refers to has one and its expression gives one over these. The constants of
a closure fail in the order of the analysis, so the error of a constant is that of the first one.
-/

namespace Specialization

namespace Evaluator

variable {evaluator : Evaluator}

/-- The values of the constants that a constant refers to, out of what these give. -/
def valuesBelow (evaluator : Evaluator) (name : String)
    (below : ∀ child, child ∈ evaluator.analysis.graph.next name →
      Option (Except ConstantError Value)) (child : String) : Option Value :=
  if h : child ∈ evaluator.analysis.graph.next name then (below child h).bind Except.toOption
  else none

/-- What a constant gives once it is known what those give that it refers to: nothing if one of them
has no value, and otherwise the result of its expression over their values. -/
def outcomeOver (evaluator : Evaluator) (name : String)
    (below : ∀ child, child ∈ evaluator.analysis.graph.next name →
      Option (Except ConstantError Value)) : Option (Except ConstantError Value) :=
  let values := evaluator.valuesBelow name below
  if ∀ child ∈ evaluator.analysis.graph.next name, (values child).isSome then
    some (evaluator.constant values name)
  else none

/-- What a constant gives, by recursion over its references. -/
noncomputable def outcome (evaluator : Evaluator) (acyclic : evaluator.analysis.Acyclic) :
    String → Option (Except ConstantError Value) :=
  WellFounded.fix acyclic evaluator.outcomeOver

noncomputable def value? (evaluator : Evaluator) (acyclic : evaluator.analysis.Acyclic)
    (name : String) : Option Value :=
  (evaluator.outcome acyclic name).bind Except.toOption

/-- The error of a constant that fails itself, over constants that have values. -/
noncomputable def failure? (evaluator : Evaluator) (acyclic : evaluator.analysis.Acyclic)
    (name : String) : Option ConstantError :=
  match evaluator.outcome acyclic name with
  | some (.error error) => some error
  | _ => none

open Classical in
/-- A constant with everything it leads to, in the order of the analysis. -/
noncomputable def closure (evaluator : Evaluator) (name : String) : List String :=
  evaluator.analysis.order.filter fun other => evaluator.analysis.graph.Leads name other

/-- The error of the first constant of the closure that fails, and the value of the expression over
the values of its references if none does. -/
noncomputable def meaning (evaluator : Evaluator) (acyclic : evaluator.analysis.Acyclic)
    (name : String) : Except ConstantError Value :=
  match (evaluator.closure name).findSome? (evaluator.failure? acyclic) with
  | some error => .error error
  | none => evaluator.constant (evaluator.value? acyclic) name

theorem constant_congr {values values' : String → Option Value} {name : String}
    (h : ∀ child ∈ evaluator.analysis.graph.next name, values child = values' child) :
    evaluator.constant values name = evaluator.constant values' name := by
  unfold constant
  split
  · rename_i expr hexpr
    rw [Analysis.next_of_expr hexpr] at h
    exact expr_congr rfl rfl h fun _ _ _ => rfl
  · rfl

variable {acyclic : evaluator.analysis.Acyclic} {name : String}

theorem outcome_eq (acyclic : evaluator.analysis.Acyclic) (name : String) :
    evaluator.outcome acyclic name =
      if ∀ child ∈ evaluator.analysis.graph.next name, (evaluator.value? acyclic child).isSome then
        some (evaluator.constant (evaluator.value? acyclic) name)
      else none := by
  have hfix : evaluator.outcome acyclic name =
      evaluator.outcomeOver name fun child _ => evaluator.outcome acyclic child :=
    WellFounded.fix_eq acyclic evaluator.outcomeOver name
  have hread : ∀ child ∈ evaluator.analysis.graph.next name,
      evaluator.valuesBelow name (fun child _ => evaluator.outcome acyclic child) child =
        evaluator.value? acyclic child :=
    fun child hchild => dif_pos hchild
  have hready : (∀ child ∈ evaluator.analysis.graph.next name,
      (evaluator.valuesBelow name (fun child _ => evaluator.outcome acyclic child) child).isSome) ↔
        ∀ child ∈ evaluator.analysis.graph.next name,
          (evaluator.value? acyclic child).isSome := by
    apply forall₂_congr
    intro child hchild
    rw [hread child hchild]
  rw [hfix, outcomeOver]
  simp only [hready, constant_congr hread]

theorem value?_eq (evaluator : Evaluator) (acyclic : evaluator.analysis.Acyclic) (name : String) :
    evaluator.value? acyclic name =
      if ∀ child ∈ evaluator.analysis.graph.next name, (evaluator.value? acyclic child).isSome then
        (evaluator.constant (evaluator.value? acyclic) name).toOption
      else none := by
  rw [value?, outcome_eq]
  split
  · rfl
  · rfl

/-- A constant with a value has references with values, over which its expression gives it. -/
theorem value?_eq_some {value : Value} :
    evaluator.value? acyclic name = some value ↔
      (∀ child ∈ evaluator.analysis.graph.next name, (evaluator.value? acyclic child).isSome) ∧
        evaluator.constant (evaluator.value? acyclic) name = .ok value := by
  rw [value?_eq]
  split
  · rename_i hready
    cases hresult : evaluator.constant (evaluator.value? acyclic) name with
    | error e => simp [Except.toOption]
    | ok result => simpa [Except.toOption] using fun _ => hready
  · rename_i hblocked
    simp [hblocked]

theorem contains_of_value {value : Value} (h : evaluator.value? acyclic name = some value) :
    evaluator.analysis.contains name := by
  have hvalue := (value?_eq_some.mp h).2
  unfold constant at hvalue
  split at hvalue
  · rename_i expr hexpr
    simp [Analysis.contains, hexpr]
  · cases hvalue

theorem failure?_eq_some {error : ConstantError} :
    evaluator.failure? acyclic name = some error ↔
      (∀ child ∈ evaluator.analysis.graph.next name, (evaluator.value? acyclic child).isSome) ∧
        evaluator.constant (evaluator.value? acyclic) name = .error error := by
  rw [failure?, outcome_eq]
  split
  · rename_i result heq
    split at heq
    · rename_i hready
      rw [Option.some.injEq] at heq
      simpa [heq] using fun _ => hready
    · cases heq
  · rename_i hother
    split at hother
    · rename_i hready
      have hnot : evaluator.constant (evaluator.value? acyclic) name ≠ .error error :=
        fun heq => hother error (congrArg some heq)
      simp [hnot]
    · rename_i hblocked
      simp [hblocked]

theorem failure?_of_value {value : Value} (h : evaluator.value? acyclic name = some value) :
    evaluator.failure? acyclic name = none := by
  rw [Option.eq_none_iff_forall_ne_some]
  intro error hfails
  have hvalue := (value?_eq_some.mp h).2
  rw [(failure?_eq_some.mp hfails).2] at hvalue
  cases hvalue

/-- Whatever a constant with a value leads to has a value. -/
theorem value?_of_leads {other : String} (hleads : evaluator.analysis.graph.Leads name other)
    (h : (evaluator.value? acyclic name).isSome) : (evaluator.value? acyclic other).isSome := by
  induction hleads with
  | refl => exact h
  | tail _ hchild ih =>
      obtain ⟨value, hvalue⟩ := Option.isSome_iff_exists.mp ih
      exact (value?_eq_some.mp hvalue).1 _ hchild

theorem mem_closure {other : String} :
    other ∈ evaluator.closure name ↔
      other ∈ evaluator.analysis.order ∧ evaluator.analysis.graph.Leads name other := by
  simp [closure]

/-- A constant that has a value means that value: nothing in its closure fails. -/
theorem meaning_of_value {value : Value} (h : evaluator.value? acyclic name = some value) :
    evaluator.meaning acyclic name = .ok value := by
  have hnone : (evaluator.closure name).findSome? (evaluator.failure? acyclic) = none := by
    rw [List.findSome?_eq_none_iff]
    intro other hother
    have hsome := value?_of_leads (mem_closure.mp hother).2 (Option.isSome_of_eq_some h)
    obtain ⟨value', hvalue'⟩ := Option.isSome_iff_exists.mp hsome
    exact failure?_of_value hvalue'
  rw [meaning, hnone]
  exact (value?_eq_some.mp h).2

/-- Where nothing that a constant leads to fails, it has a value. -/
theorem isSome_value? (h : ∀ other, evaluator.analysis.graph.Leads name other →
    evaluator.failure? acyclic other = none) : (evaluator.value? acyclic name).isSome := by
  induction name using acyclic.induction with
  | h name ih =>
      have hready : ∀ child ∈ evaluator.analysis.graph.next name,
          (evaluator.value? acyclic child).isSome := by
        intro child hchild
        exact ih child hchild fun other hleads => h other (hleads.head hchild)
      cases hresult : evaluator.constant (evaluator.value? acyclic) name with
      | error error =>
          have hfails := failure?_eq_some.mpr ⟨hready, hresult⟩
          rw [h name Relation.ReflTransGen.refl] at hfails
          cases hfails
      | ok value => exact Option.isSome_of_eq_some (value?_eq_some.mpr ⟨hready, hresult⟩)

/-- The constants that a pass evaluates for a constant are its closure. -/
theorem evaluationPlan_eq_closure (h : evaluator.analysis.Accepted)
    (hname : evaluator.analysis.contains name) :
    evaluator.analysis.evaluationPlan name = evaluator.closure name := by
  apply List.filter_congr
  intro other _
  have hreached : other ∈ evaluator.analysis.graph.reachable name ↔
      evaluator.analysis.graph.Leads name other :=
    Graph.mem_reachable h.wired (Analysis.contains_iff.mp hname)
  simp [hreached]

end Evaluator

end Specialization

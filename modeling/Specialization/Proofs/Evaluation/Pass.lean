import Specialization.Proofs.Analysis.Roots
import Specialization.Proofs.Evaluation.Meaning
import Specialization.Proofs.Evaluation.Step

/-!
Passes agree with the meaning of constants. Every value that a pass has found, or shares through a
link cache, is the value of its constant, and this outlasts steps, failures and calls. So each call
gives the meaning of its constant, whatever was called before.
-/

namespace Specialization

namespace Evaluator

variable {evaluator : Evaluator} {name : String} {pass next : Pass}
  {result : Except ConstantError Unit}

/-- A link cache whose constants are fixed at link time and have their values. -/
def Linked (evaluator : Evaluator) (acyclic : evaluator.analysis.Acyclic) (cache : Values) : Prop :=
  ∀ entry ∈ cache, evaluator.analysis.root? entry.1 = some .constant ∧
    evaluator.value? acyclic entry.1 = some entry.2

/-- A pass that has found, and shares, nothing but the values of constants. -/
structure Exact (evaluator : Evaluator) (acyclic : evaluator.analysis.Acyclic) (pass : Pass) :
    Prop where
  memo : ∀ name value, pass.value? name = some value → evaluator.value? acyclic name = some value
  cache : ∀ cache, pass.cache = some cache → evaluator.Linked acyclic cache

variable {acyclic : evaluator.analysis.Acyclic}

theorem Exact.remember (h : evaluator.Exact acyclic pass) {value : Value}
    (hvalue : evaluator.value? acyclic name = some value) (log : List Access) :
    evaluator.Exact acyclic { pass with memo := (name, value) :: pass.memo, log } := by
  refine ⟨?_, h.cache⟩
  intro other found hfound
  rw [Pass.value?, List.lookup_cons] at hfound
  split at hfound
  · rename_i heq
    cases hfound
    exact (eq_of_beq heq) ▸ hvalue
  · exact h.memo other found hfound

theorem Exact.publish (h : evaluator.Exact acyclic pass)
    (hroot : evaluator.analysis.root? name = some .constant) {value : Value}
    (hvalue : evaluator.value? acyclic name = some value) :
    evaluator.Exact acyclic
      { pass with cache := pass.cache.map fun cache => (name, value) :: cache } := by
  refine ⟨h.memo, ?_⟩
  intro cache hcache entry hentry
  obtain ⟨older, holder, rfl⟩ := Option.map_eq_some_iff.mp hcache
  rcases List.mem_cons.mp hentry with rfl | hold
  · exact ⟨hroot, hvalue⟩
  · exact h.cache older holder entry hold

theorem Exact.shared? (h : evaluator.Exact acyclic pass) {value : Value}
    (hshared : pass.shared? name = some value) : evaluator.value? acyclic name = some value := by
  obtain ⟨cache, hcache, hlookup⟩ := Option.bind_eq_some_iff.mp hshared
  exact (h.cache cache hcache (name, value) (mem_of_lookup hlookup)).2

/-- Once the references of a constant are evaluated, the pass gives what the recursion gives. -/
theorem Exact.constant (h : evaluator.Exact acyclic pass)
    (hready : ∀ child ∈ evaluator.analysis.graph.next name, (pass.value? child).isSome) :
    (∀ child ∈ evaluator.analysis.graph.next name, (evaluator.value? acyclic child).isSome) ∧
      evaluator.constant pass.value? name =
        evaluator.constant (evaluator.value? acyclic) name := by
  have hagree : ∀ child ∈ evaluator.analysis.graph.next name,
      pass.value? child = evaluator.value? acyclic child := by
    intro child hchild
    obtain ⟨value, hvalue⟩ := Option.isSome_iff_exists.mp (hready child hchild)
    rw [hvalue, h.memo child value hvalue]
  exact ⟨fun child hchild => hagree child hchild ▸ hready child hchild, constant_congr hagree⟩

/-- A constant that is not anchored is fixed at link time. -/
theorem root?_of_not_isAnchored (haccepted : evaluator.analysis.Accepted)
    (hname : evaluator.analysis.contains name) (h : ¬ evaluator.analysis.isAnchored name) :
    evaluator.analysis.root? name = some .constant :=
  (haccepted.not_isAnchored_iff.mp h).resolve_left fun hundeclared => hundeclared hname

/-- A step keeps a pass exact. It gives the constant its value, or fails with its error. -/
theorem Stepped.exact (hstep : Stepped evaluator name pass result next)
    (haccepted : evaluator.analysis.Accepted) (hname : evaluator.analysis.contains name)
    (h : evaluator.Exact acyclic pass)
    (hready : ∀ child ∈ evaluator.analysis.graph.next name, (pass.value? child).isSome) :
    evaluator.Exact acyclic next ∧
      (result = .ok () ∧ (next.value? name).isSome ∨
        ∃ error, result = .error error ∧ evaluator.failure? acyclic name = some error) := by
  obtain ⟨hbelow, hconstant⟩ := h.constant hready
  have hnow : ∀ value : Value,
      (List.lookup name ((name, value) :: pass.memo)).isSome := by simp
  cases hstep with
  | known hknown => exact ⟨h, Or.inl ⟨rfl, hknown⟩⟩
  | @computed value hnew hroot hvalue =>
      have hmeant := value?_eq_some.mpr ⟨hbelow, hconstant ▸ hvalue⟩
      exact ⟨h.remember hmeant pass.log, Or.inl ⟨rfl, hnow value⟩⟩
  | @hit value log hnew hroot hshared =>
      exact ⟨h.remember (h.shared? hshared) log, Or.inl ⟨rfl, hnow value⟩⟩
  | @published value log hnew hroot hshared hvalue =>
      have hmeant := value?_eq_some.mpr ⟨hbelow, hconstant ▸ hvalue⟩
      have hlink := root?_of_not_isAnchored haccepted hname hroot
      exact ⟨(h.publish hlink hmeant).remember hmeant log, Or.inl ⟨rfl, hnow value⟩⟩
  | @failed error log hnew hmissed herror =>
      have hfails := failure?_eq_some.mpr ⟨hbelow, hconstant ▸ herror⟩
      exact ⟨⟨h.memo, h.cache⟩, Or.inr ⟨error, rfl, hfails⟩⟩

/-- Steps over the rest of a plan, whose constants come after those they refer to. They end with a
value for each constant of the plan, or with the error of the first one that fails. -/
theorem forM_step_exact (haccepted : evaluator.analysis.Accepted) {plan : List String}
    (hdeclared : ∀ name ∈ plan, evaluator.analysis.contains name)
    (hsorted : evaluator.analysis.graph.Sorted plan) (done rest : List String)
    (hsplit : plan = done ++ rest) (pass : Pass) (h : evaluator.Exact acyclic pass)
    (hdone : ∀ name ∈ done, (pass.value? name).isSome) :
    ∃ result next, exec (rest.forM evaluator.step) pass = (result, next) ∧
      evaluator.Exact acyclic next ∧
      (result = .ok () ∧ (∀ name ∈ plan, (next.value? name).isSome) ∨
        ∃ error, result = .error error ∧
          rest.findSome? (evaluator.failure? acyclic) = some error) := by
  induction rest generalizing done pass with
  | nil =>
      rw [List.append_nil] at hsplit
      exact ⟨.ok (), pass, rfl, h, Or.inl ⟨rfl, hsplit ▸ hdone⟩⟩
  | cons name rest ih =>
      have hname : evaluator.analysis.contains name := hdeclared name (by simp [hsplit])
      have hready : ∀ child ∈ evaluator.analysis.graph.next name, (pass.value? child).isSome :=
        fun child hchild => hdone child (hsorted done name rest hsplit child hchild)
      have hstep := exec_step evaluator name pass
      obtain ⟨hexact, hresult⟩ := hstep.exact haccepted hname h hready
      rcases hrun : exec (evaluator.step name) pass with ⟨result, next⟩
      rw [hrun] at hstep hexact hresult
      rcases hresult with ⟨rfl, hfound⟩ | ⟨error, rfl, hfails⟩
      · have hkept : ∀ other ∈ done ++ [name], (next.value? other).isSome := by
          intro other hother
          rcases List.mem_append.mp hother with hold | hnew
          · obtain ⟨value, hvalue⟩ := Option.isSome_iff_exists.mp (hdone other hold)
            exact Option.isSome_of_eq_some (hstep.grows.memo other value hvalue)
          · exact List.mem_singleton.mp hnew ▸ hfound
        obtain ⟨result, last, hrest, hlast, hend⟩ :=
          ih (done ++ [name]) (by simp [hsplit]) next hexact hkept
        refine ⟨result, last, (exec_bind_ok hrun).trans hrest, hlast, ?_⟩
        refine hend.imp_right fun ⟨error, hresult, hfirst⟩ => ⟨error, hresult, ?_⟩
        obtain ⟨value, hvalue⟩ := Option.isSome_iff_exists.mp hfound
        have hfine := failure?_of_value (hexact.memo name value hvalue)
        rw [List.findSome?_cons, hfine, hfirst]
      · refine ⟨.error error, next, exec_bind_error hrun, hexact, Or.inr ⟨error, rfl, ?_⟩⟩
        rw [List.findSome?_cons, hfails]

theorem sorted_closure (haccepted : evaluator.analysis.Accepted) (name : String) :
    evaluator.analysis.graph.Sorted (evaluator.closure name) := by
  apply haccepted.order_sorted.filter
  intro node child hchild hnode
  simp only [decide_eq_true_eq] at hnode ⊢
  exact hnode.tail hchild

/-- A call on an exact pass gives the meaning of its constant, and the pass stays exact. -/
theorem evaluate_exact (haccepted : evaluator.analysis.Accepted)
    (hname : evaluator.analysis.contains name) (h : evaluator.Exact acyclic pass) :
    (exec (evaluator.evaluate name) pass).1 = evaluator.meaning acyclic name ∧
      evaluator.Exact acyclic (exec (evaluator.evaluate name) pass).2 := by
  have hdeclared : ∀ other ∈ evaluator.closure name, evaluator.analysis.contains other :=
    fun other hother => haccepted.mem_order.mp (mem_closure.mp hother).1
  have hself : name ∈ evaluator.closure name :=
    mem_closure.mpr ⟨haccepted.mem_order.mpr hname, Relation.ReflTransGen.refl⟩
  rw [exec_evaluate hname, evaluationPlan_eq_closure haccepted hname]
  cases hvalue : pass.value? name with
  | some value => exact ⟨(meaning_of_value (h.memo name value hvalue)).symm, h⟩
  | none =>
      obtain ⟨result, next, hrun, hexact, hend⟩ := forM_step_exact haccepted hdeclared
        (sorted_closure haccepted name) [] (evaluator.closure name) rfl pass h (by simp)
      rcases hend with ⟨rfl, hfound⟩ | ⟨error, rfl, hfirst⟩
      · obtain ⟨value, hvalue⟩ := Option.isSome_iff_exists.mp (hfound name hself)
        simp only [hrun, hvalue]
        exact ⟨(meaning_of_value (hexact.memo name value hvalue)).symm, hexact⟩
      · simp only [hrun, meaning, hfirst]
        exact ⟨trivial, hexact⟩

/-- The pass of an evaluator without a link cache after some calls, whatever they gave. -/
def after (evaluator : Evaluator) (calls : List String) : Pass :=
  calls.foldl (fun pass name => (exec (evaluator.evaluate name) pass).2) {}

theorem after_exact (haccepted : evaluator.analysis.Accepted)
    (acyclic : evaluator.analysis.Acyclic) (calls : List String) :
    evaluator.Exact acyclic (evaluator.after calls) := by
  have hrun : ∀ (calls : List String) (pass : Pass), evaluator.Exact acyclic pass →
      evaluator.Exact acyclic
        (calls.foldl (fun pass name => (exec (evaluator.evaluate name) pass).2) pass) := by
    intro calls
    induction calls with
    | nil => exact fun pass h => h
    | cons name rest ih =>
        intro pass h
        by_cases hname : evaluator.analysis.contains name
        · exact ih _ (evaluate_exact haccepted hname h).2
        · simpa [evaluate_undeclared hname] using ih pass h
  exact hrun calls {} ⟨fun _ _ hfound => (nomatch hfound), fun _ hcache => (nomatch hcache)⟩

theorem constant_failsProperly (haccepted : evaluator.analysis.Accepted)
    {values : String → Option Value} (hname : evaluator.analysis.contains name)
    (h : ∀ child ∈ evaluator.analysis.graph.next name, (values child).isSome) :
    FailsProperly (evaluator.constant values name) := by
  obtain ⟨expr, hexpr⟩ := Option.isSome_iff_exists.mp hname
  rw [Analysis.next_of_expr hexpr] at h
  rw [constant, hexpr]
  apply expr_failsProperly h
  rintro id parent rfl
  exact haccepted.anchor_declared hexpr

theorem meaning_failsProperly (haccepted : evaluator.analysis.Accepted)
    (hname : evaluator.analysis.contains name) :
    FailsProperly (evaluator.meaning acyclic name) := by
  unfold meaning
  split
  · rename_i error hfirst
    obtain ⟨other, hother, hfails⟩ := List.exists_of_findSome?_eq_some hfirst
    obtain ⟨hready, herror⟩ := failure?_eq_some.mp hfails
    have hdeclared := haccepted.mem_order.mp (mem_closure.mp hother).1
    exact herror ▸ constant_failsProperly haccepted hdeclared hready
  · rename_i hnone
    rw [List.findSome?_eq_none_iff] at hnone
    apply constant_failsProperly haccepted hname
    intro child hchild
    apply isSome_value?
    intro other hleads
    have hreach : evaluator.analysis.graph.Leads name other := hleads.head hchild
    exact hnone other (mem_closure.mpr
      ⟨haccepted.mem_order.mpr (haccepted.contains_leads hname hreach), hreach⟩)

/-- Calls on one evaluator. After any calls, one on a declared constant gives the meaning of the
constant, never an error that the analysis rules out, and its plan ends with the constant known. -/
theorem evaluate_after_calls {declarations : ClassDeclarations} {imported : AnchorTable}
    {analysis : Analysis} (h : analyze declarations imported = .ok analysis) (host : Host)
    (functions : Registry) (scope : Scope) (calls : List String) {name : String}
    (hname : name ∈ declarations.constants.map (·.name)) :
    let evaluator : Evaluator := { host, functions, analysis, scope }
    let pass := evaluator.after calls
    let result := (exec (evaluator.evaluate name) pass).1
    result = evaluator.meaning (Analysis.acyclic_of_analyze h) name ∧
      FailsProperly result ∧
      ∀ next, exec ((analysis.evaluationPlan name).forM evaluator.step) pass = (.ok (), next) →
        (next.value? name).isSome := by
  intro evaluator pass result
  have haccepted : evaluator.analysis.Accepted := ⟨declarations, imported, h⟩
  have hdeclared : evaluator.analysis.contains name := (Analysis.contains_of_analyze h).mpr hname
  have hexact : evaluator.Exact (Analysis.acyclic_of_analyze h) pass :=
    after_exact haccepted _ calls
  have hresult : result = evaluator.meaning (Analysis.acyclic_of_analyze h) name :=
    (evaluate_exact haccepted hdeclared hexact).1
  refine ⟨hresult, ?_, ?_⟩
  · rw [hresult]
    exact meaning_failsProperly haccepted hdeclared
  · intro next hrun
    have hplan : analysis.evaluationPlan name = evaluator.closure name :=
      evaluationPlan_eq_closure haccepted hdeclared
    rw [hplan] at hrun
    obtain ⟨result, last, hlast, _, hend⟩ := forM_step_exact haccepted
      (fun other hother => haccepted.mem_order.mp (mem_closure.mp hother).1)
      (sorted_closure haccepted name) [] (evaluator.closure name) rfl pass hexact (by simp)
    rw [hrun] at hlast
    cases hlast
    rcases hend with ⟨_, hfound⟩ | ⟨_, hfails, _⟩
    · exact hfound name (mem_closure.mpr
        ⟨haccepted.mem_order.mpr hdeclared, Relation.ReflTransGen.refl⟩)
    · cases hfails

/-- A class with a constant that names no function, and one that reads it. -/
def partlyFailing : ClassDeclarations where
  descriptor := "PartlyFailing"
  constants := [
    { name := "whole", action := "list", operands := [.ref "seven", .ref "broken"] },
    { name := "broken", action := "function", operands := [.function "missing"] },
    { name := "seven", action := "literal", operands := [.int 7] }]

theorem evaluate_partlyFailing : ∃ analysis, ∃ h : analyze partlyFailing .empty = .ok analysis,
    ∀ host, Evaluator.meaning ⟨host, .standard, analysis, .unbound⟩
      (Analysis.acyclic_of_analyze h) "whole" =
        .error (.linkage "function" ["missing"] (.unknownFunction "missing")) := by
  refine ⟨_, rfl, fun host => ?_⟩
  have hdeclared : "whole" ∈ partlyFailing.constants.map (·.name) := by decide
  exact (evaluate_after_calls rfl host .standard .unbound ["seven", "broken"] hdeclared).1.symm

end Evaluator

end Specialization

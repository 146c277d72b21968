import Specialization.Proofs.Evaluation.Pass

/-!
Partial application. What is bound to a function piece by piece is bound to it at once, and a call
reaches the native function with the arguments of the call first and the bound ones after them. A
function is called for exactly its remaining arity as long as no more is bound to it than it takes,
which evaluation sees to: a `function` constant that binds too much has no value.
-/

namespace Specialization

namespace NativeFunction

variable {host : Host} {native : NativeFunction} {bound arguments full : List Value}

/-- What the function itself gives for a full list of arguments. Its faults become linkage errors
that carry the list. -/
def answer (host : Host) (native : NativeFunction) (full : List Value) :
    Except ConstantError Value :=
  (native.compute host full).mapError fun fault =>
    .linkage native.name (Value.texts full) (.native fault)

/-- The error for a list of arguments that is too long or too short. -/
def mismatch (native : NativeFunction) (full : List Value) : ConstantError :=
  .linkage native.name (Value.texts full) (.arityMismatch native.arity full.length)

theorem invoke_of_length_eq (h : (arguments ++ bound).length = native.arity) :
    native.invoke host bound arguments = native.answer host (arguments ++ bound) :=
  if_pos h

theorem invoke_of_length_ne (h : (arguments ++ bound).length ≠ native.arity) :
    native.invoke host bound arguments = .error (native.mismatch (arguments ++ bound)) :=
  if_neg h

/-- As long as no more is bound than the function takes, what is left is what completes it. -/
theorem length_append_eq_arity (h : bound.length ≤ native.arity) :
    (arguments ++ bound).length = native.arity ↔
      arguments.length = native.remainingArity bound := by
  rw [List.length_append, remainingArity]
  omega

/-- A function with too much bound claims to need no arguments, and yet refuses every call. -/
theorem invoke_of_arity_lt (h : native.arity < bound.length) :
    native.remainingArity bound = 0 ∧
      ∀ arguments, native.invoke host bound arguments =
        .error (native.mismatch (arguments ++ bound)) := by
  refine ⟨Nat.sub_eq_zero_of_le (Nat.le_of_lt h), fun arguments => invoke_of_length_ne ?_⟩
  rw [List.length_append]
  omega

end NativeFunction

namespace BoundFunction

variable {host : Host} {function : BoundFunction}

theorem foldl_bind (function : BoundFunction) (binds : List (List Value)) :
    binds.foldl bind function = function.bind binds.flatten := by
  induction binds generalizing function with
  | nil => simp [bind]
  | cons first rest ih => rw [List.foldl_cons, ih, bind_bind, List.flatten_cons]

/-- A function that no more is bound to than it takes. -/
def Fits (function : BoundFunction) : Prop :=
  function.bound.length ≤ function.native.arity

theorem Fits.invoke_of_remaining (h : function.Fits) {arguments : List Value}
    (hlength : arguments.length = function.remainingArity) :
    function.invoke host arguments =
      function.native.answer host (arguments ++ function.bound) :=
  NativeFunction.invoke_of_length_eq ((NativeFunction.length_append_eq_arity h).mpr hlength)

theorem Fits.invoke_of_other (h : function.Fits) {arguments : List Value}
    (hlength : arguments.length ≠ function.remainingArity) :
    function.invoke host arguments =
      .error (function.native.mismatch (arguments ++ function.bound)) :=
  NativeFunction.invoke_of_length_ne (mt (NativeFunction.length_append_eq_arity h).mp hlength)

end BoundFunction

namespace Evaluator

variable {evaluator : Evaluator} {values : String → Option Value}

theorem function_eq_ok {action : Action} {name : String} {function : BoundFunction} :
    evaluator.function action name = .ok function ↔
      evaluator.functions.lookup name = some function := by
  unfold Evaluator.function
  split
  · rename_i heq
    simp [heq]
  · rename_i heq
    simp [heq]

/-- Binding succeeds with a function that fits, and only then. -/
theorem bindTrailing_eq_ok {function : BoundFunction} {name : String} {arguments : List Value}
    {value : Value} : bindTrailing function name arguments = .ok value ↔
      arguments.length ≤ function.remainingArity ∧
        value = (function.bind arguments).toValue := by
  unfold bindTrailing
  split
  · rename_i hmore
    simp [Evaluator.fail, Nat.not_le.mpr hmore]
  · rename_i hfits
    simp [Nat.not_lt.mp hfits, eq_comm]

/-- The value of a `function` expression is the function of that name, and it fits. -/
theorem exists_fits_of_expr {name : String} {operands : List Operand} {value : Value}
    (h : evaluator.expr values (.function name operands) = .ok value) :
    ∃ function : BoundFunction, value = function.toValue ∧
      evaluator.functions.find? name = some function.native ∧ function.Fits := by
  simp only [Evaluator.expr] at h
  obtain ⟨base, hbase, h⟩ := bind_eq_ok.mp h
  obtain ⟨arguments, _, h⟩ := bind_eq_ok.mp h
  obtain ⟨hlength, rfl⟩ := bindTrailing_eq_ok.mp h
  obtain ⟨native, hfound, rfl⟩ := Option.map_eq_some_iff.mp (function_eq_ok.mp hbase)
  refine ⟨_, rfl, hfound, ?_⟩
  simpa [BoundFunction.Fits, BoundFunction.bind, BoundFunction.remainingArity,
    NativeFunction.remainingArity] using hlength

theorem constant_of_meaning {acyclic : evaluator.analysis.Acyclic} {name : String} {value : Value}
    (h : evaluator.meaning acyclic name = .ok value) :
    evaluator.constant (evaluator.value? acyclic) name = .ok value := by
  unfold meaning at h
  split at h
  · cases h
  · exact h

/-- What an evaluator without a link cache returns for a `function` constant, whatever it was
called for before, is a registered function that fits. -/
theorem evaluate_function_fits (haccepted : evaluator.analysis.Accepted) (calls : List String)
    {constant name : String} {operands : List Operand} {value : Value}
    (hexpr : evaluator.analysis.expr? constant = some (.function name operands))
    (h : (exec (evaluator.evaluate constant) (evaluator.after calls)).1 = .ok value) :
    ∃ function : BoundFunction, value = function.toValue ∧
      evaluator.functions.find? name = some function.native ∧ function.Fits := by
  have hdeclared : evaluator.analysis.contains constant := by simp [Analysis.contains, hexpr]
  have hexact := after_exact haccepted haccepted.acyclic calls
  rw [(evaluate_exact haccepted hdeclared hexact).1] at h
  have hconstant := constant_of_meaning h
  rw [Evaluator.constant, hexpr] at hconstant
  exact exists_fits_of_expr hconstant

/-- Binding list after list to a registered function binds their concatenation, and a call gives
what the native function gives for the arguments of the call followed by all that is bound, or an
arity error with this list. What evaluation returns for a `function` constant has at most its arity
bound, so a call with the remaining number of arguments reaches the native function and any other
call fails with an arity error. -/
theorem invoke_bound_functions (host : Host) (registry : Registry)
    {declarations : ClassDeclarations} {imported : AnchorTable} {analysis : Analysis}
    (h : analyze declarations imported = .ok analysis) :
    (∀ name native, registry.find? name = some native →
      ∃ function, registry.lookup name = some function ∧ function.native = native ∧
        ∀ (binds : List (List Value)) (arguments : List Value),
          let bound := binds.foldl BoundFunction.bind function
          let full := arguments ++ binds.flatten
          bound = function.bind binds.flatten ∧
            (full.length = native.arity →
              bound.invoke host arguments = native.answer host full) ∧
            (full.length ≠ native.arity →
              bound.invoke host arguments = .error (native.mismatch full))) ∧
    ∀ scope calls constant name operands value,
      let evaluator : Evaluator := { host, functions := registry, analysis, scope }
      analysis.expr? constant = some (.function name operands) →
      (exec (evaluator.evaluate constant) (evaluator.after calls)).1 = .ok value →
      ∃ function : BoundFunction, value = function.toValue ∧
        registry.find? name = some function.native ∧
        function.bound.length ≤ function.native.arity ∧
        ∀ arguments : List Value,
          let full := arguments ++ function.bound
          (arguments.length = function.remainingArity →
            function.invoke host arguments = function.native.answer host full) ∧
          (arguments.length ≠ function.remainingArity →
            function.invoke host arguments = .error (function.native.mismatch full)) := by
  constructor
  · intro name native hfound
    refine ⟨⟨native, []⟩, by rw [Registry.lookup, hfound]; rfl, rfl, ?_⟩
    intro binds arguments bound full
    have hbound : bound = BoundFunction.bind ⟨native, []⟩ binds.flatten :=
      BoundFunction.foldl_bind _ binds
    refine ⟨hbound, fun hlength => ?_, fun hlength => ?_⟩
    · rw [hbound]
      exact NativeFunction.invoke_of_length_eq hlength
    · rw [hbound]
      exact NativeFunction.invoke_of_length_ne hlength
  · intro scope calls constant name operands value evaluator hexpr hvalue
    have haccepted : evaluator.analysis.Accepted := ⟨declarations, imported, h⟩
    obtain ⟨function, hfunction, hfound, hfits⟩ :=
      evaluate_function_fits haccepted calls hexpr hvalue
    exact ⟨function, hfunction, hfound, hfits, fun arguments =>
      ⟨hfits.invoke_of_remaining, hfits.invoke_of_other⟩⟩

/-- A class that binds one argument of two, and another that binds one too many. -/
def partialSums : ClassDeclarations where
  descriptor := "PartialSums"
  constants := [
    { name := "five", action := "literal", operands := [.int 5] },
    { name := "addFive", action := "function", operands := [.function "int.add", .ref "five"] },
    { name := "overfull", action := "function",
      operands := [.function "int.add", .ref "five", .ref "five", .ref "five"] }]

theorem invoke_addFive : ∃ analysis, analyze partialSums .empty = .ok analysis ∧ ∀ host,
    let evaluator : Evaluator := ⟨host, .standard, analysis, .unbound⟩
    let add : NativeFunction := ⟨"int.add", 2, .intAdd⟩
    let twice : BoundFunction := [[.int 1], [.int 5]].foldl BoundFunction.bind ⟨add, []⟩
    twice.invoke host [] = .ok (.int 6) ∧
      twice.invoke host [.int 7] = .error (add.mismatch [.int 7, .int 1, .int 5]) ∧
      (exec (evaluator.evaluate "addFive") (evaluator.after ["overfull"])).1 =
        .ok (.function add [.int 5]) ∧
      ∀ arguments, add.invoke host [.int 5] arguments =
        if arguments.length = 1 then add.answer host (arguments ++ [.int 5])
        else .error (add.mismatch (arguments ++ [.int 5])) := by
  refine ⟨_, rfl, fun host => ?_⟩
  obtain ⟨hbind, hevaluated⟩ := invoke_bound_functions host .standard
    (rfl : analyze partialSums .empty = .ok _)
  obtain ⟨_, hlookup, _, hbound⟩ := hbind "int.add" ⟨"int.add", 2, .intAdd⟩ rfl
  cases hlookup
  obtain ⟨⟨_, _⟩, hfunction, _, _, hcalls⟩ := hevaluated .unbound ["overfull"] "addFive" "int.add"
    [.ref "five"] (.function ⟨"int.add", 2, .intAdd⟩ [.int 5]) rfl rfl
  cases hfunction
  refine ⟨(hbound [[.int 1], [.int 5]] []).2.1 rfl,
    (hbound [[.int 1], [.int 5]] [.int 7]).2.2 (by decide), rfl, fun arguments => ?_⟩
  split
  · rename_i hlength
    exact (hcalls arguments).1 hlength
  · rename_i hlength
    exact (hcalls arguments).2 hlength

end Evaluator

end Specialization

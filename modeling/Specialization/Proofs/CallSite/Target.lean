import Specialization.CallSite.Target
import Specialization.Proofs.Execution

/-!
Calls of targets. The restrictions are checked first, in the order in which they were attached and
against the arguments as the call gives them, and the first that refuses decides the call. Only then
are the arguments fitted to the function: leading ones are dropped or parameters come before them,
and what is bound to the function comes after them.
-/

namespace Specialization

/-- What an adaptation puts before the arguments of a call, and how many of these it drops. -/
inductive Adaptation.Arranges (carrier : Option Carrier) : Adaptation → List Value → Nat → Prop
  | none : Arranges carrier .none [] 0
  | insert {own : Carrier} {level : Level} {parameters : Value} (hcarrier : carrier = some own)
      (hparameters : own.scope.parameters level = some parameters) :
      Arranges carrier (.insert level) [parameters] 0
  | dropLeading (count : Nat) : Arranges carrier (.dropLeading count) [] count

namespace Target

/-- The argument in a slot is there, and it is of a type that the restriction lists. -/
def Permits (arguments : List Value) (slot : Nat) (restriction : Value) : Prop :=
  ∃ value allowed, arguments[slot]? = some value ∧ restriction = .restriction allowed ∧
    runtimeType value ∈ allowed

/-- Why a restriction of a slot refuses the arguments of a call. -/
inductive Refuses (arguments : List Value) (slot : Nat) : Value → Error → Prop
  | missing (restriction : Value) (h : arguments[slot]? = none) :
      Refuses arguments slot restriction (.missingArgument slot)
  | notRestriction {restriction value : Value} (h : arguments[slot]? = some value)
      (hkind : restriction.kind ≠ .restriction) :
      Refuses arguments slot restriction
        (.constants (.linkage "restriction" [restriction.text] (.notRestriction restriction.kind)))
  | violation {allowed : List Descriptor} {value : Value} (h : arguments[slot]? = some value)
      (htype : runtimeType value ∉ allowed) :
      Refuses arguments slot (.restriction allowed)
        (.restrictionViolation slot allowed (runtimeType value))

/-- A target with further restrictions, attached one after the other. -/
def restrictAll (target : Target) (restrictions : List (Nat × Value)) : Target :=
  restrictions.foldl (fun target (slot, restriction) => target.restrict slot restriction) target

variable {host : Host} {target : Target} {function : BoundFunction} {adaptation : Adaptation}
  {carrier : Option Carrier} {arguments : List Value} {slot : Nat} {restriction : Value}
  {error : Error}

theorem checkSlot_eq_ok : checkSlot arguments slot restriction = .ok () ↔
    Permits arguments slot restriction := by
  unfold checkSlot
  cases hvalue : arguments[slot]? with
  | none =>
      refine ⟨nofun, ?_⟩
      rintro ⟨value, allowed, hsome, _⟩
      exact nomatch hvalue.symm.trans hsome
  | some value =>
      cases restriction with
      | restriction allowed =>
          by_cases htype : runtimeType value ∈ allowed
          · have hpermits : Permits arguments slot (.restriction allowed) :=
              ⟨value, allowed, hvalue, rfl, htype⟩
            simp [checkRestriction, htype, hpermits]
          · have hnot : ¬ Permits arguments slot (.restriction allowed) := by
              rintro ⟨other, _, hother, ⟨⟩, hmem⟩
              obtain rfl := Option.some.inj (hvalue.symm.trans hother)
              exact htype hmem
            simp [checkRestriction, htype, hnot]
      | _ =>
          refine ⟨nofun, ?_⟩
          rintro ⟨_, _, _, ⟨⟩, _⟩

theorem checkSlot_eq_error (h : checkSlot arguments slot restriction = .error error) :
    Refuses arguments slot restriction error := by
  unfold checkSlot at h
  cases hvalue : arguments[slot]? with
  | none =>
      obtain rfl : Error.missingArgument slot = error := by simpa [hvalue] using h
      exact .missing restriction hvalue
  | some value =>
      simp only [hvalue] at h
      cases restriction with
      | restriction allowed =>
          by_cases htype : runtimeType value ∈ allowed
          · simp [checkRestriction, htype] at h
          · obtain rfl : Error.restrictionViolation slot allowed (runtimeType value) = error := by
              simpa [checkRestriction, htype] using h
            exact .violation hvalue htype
      | _ =>
          cases h
          exact .notRestriction hvalue nofun

/-- A restriction refuses in one way only, and only arguments that it does not permit. -/
theorem Refuses.checkSlot_eq (h : Refuses arguments slot restriction error) :
    checkSlot arguments slot restriction = .error error := by
  cases h with
  | missing _ hvalue => simp [checkSlot, hvalue]
  | violation hvalue htype => simp [checkSlot, hvalue, checkRestriction, htype]
  | notRestriction hvalue hkind =>
      simp only [checkSlot, hvalue]
      cases restriction with
      | restriction => exact absurd rfl hkind
      | _ => rfl

theorem adapt_eq_ok (h : adapt function adaptation carrier = .ok target) :
    ∃ leading dropped, adaptation.Arranges carrier leading dropped ∧
      target = { function, leading, dropped } := by
  cases adaptation with
  | none =>
      cases h
      exact ⟨[], 0, .none, rfl⟩
  | dropLeading count =>
      cases h
      exact ⟨[], count, .dropLeading count, rfl⟩
  | insert level =>
      unfold adapt at h
      cases hparameters : carrier.bind fun carrier => carrier.scope.parameters level with
      | none => simp [hparameters] at h
      | some parameters =>
          obtain rfl : ({ function, leading := [parameters] } : Target) = target := by
            simpa [hparameters] using h
          obtain ⟨own, hcarrier, hparameters⟩ := Option.bind_eq_some_iff.mp hparameters
          exact ⟨[parameters], 0, .insert hcarrier hparameters, rfl⟩

@[simp]
theorem restrictAll_function (target : Target) (restrictions : List (Nat × Value)) :
    (target.restrictAll restrictions).function = target.function := by
  induction restrictions generalizing target with
  | nil => rfl
  | cons first rest ih => exact ih _

@[simp]
theorem restrictAll_leading (target : Target) (restrictions : List (Nat × Value)) :
    (target.restrictAll restrictions).leading = target.leading := by
  induction restrictions generalizing target with
  | nil => rfl
  | cons first rest ih => exact ih _

@[simp]
theorem restrictAll_dropped (target : Target) (restrictions : List (Nat × Value)) :
    (target.restrictAll restrictions).dropped = target.dropped := by
  induction restrictions generalizing target with
  | nil => rfl
  | cons first rest ih => exact ih _

@[simp]
theorem restrictAll_restrictions (target : Target) (restrictions : List (Nat × Value)) :
    (target.restrictAll restrictions).restrictions = target.restrictions ++ restrictions := by
  induction restrictions generalizing target with
  | nil => exact (List.append_nil _).symm
  | cons first rest ih =>
      calc (restrictAll (target.restrict first.1 first.2) rest).restrictions
          = (target.restrictions ++ [first]) ++ rest := ih _
        _ = target.restrictions ++ first :: rest := by simp

/-- The arguments that a call passes to the function: those of the call, fitted to it, and then the
bound ones. -/
def passed (target : Target) (arguments : List Value) : List Value :=
  target.leading ++ arguments.drop target.dropped ++ target.function.bound

/-- Either every restriction permits the arguments, or there is a first one that refuses them. -/
theorem permitted_or_refused (arguments : List Value) (restrictions : List (Nat × Value)) :
    (∀ restriction ∈ restrictions, Permits arguments restriction.1 restriction.2) ∨
      ∃ done slot restriction rest error, restrictions = done ++ (slot, restriction) :: rest ∧
        (∀ earlier ∈ done, Permits arguments earlier.1 earlier.2) ∧
        Refuses arguments slot restriction error := by
  cases hchecks : restrictions.forM fun (slot, restriction) =>
      checkSlot arguments slot restriction with
  | ok =>
      exact .inl fun restriction hmem =>
        checkSlot_eq_ok.mp (forM_eq_ok.mp hchecks restriction hmem)
  | error error =>
      obtain ⟨done, ⟨slot, restriction⟩, rest, hsplit, hdone, hrefused⟩ := forM_eq_error.mp hchecks
      exact .inr ⟨done, slot, restriction, rest, error, hsplit,
        fun earlier hearlier => checkSlot_eq_ok.mp (hdone earlier hearlier),
        checkSlot_eq_error hrefused⟩

theorem invoke_of_refuses {done rest : List (Nat × Value)}
    (hsplit : target.restrictions = done ++ (slot, restriction) :: rest)
    (hdone : ∀ earlier ∈ done, Permits arguments earlier.1 earlier.2)
    (hrefuses : Refuses arguments slot restriction error) :
    target.invoke host arguments = .error error := by
  have hchecks : (target.restrictions.forM fun (slot, restriction) =>
      checkSlot arguments slot restriction) = .error error :=
    forM_eq_error.mpr ⟨done, (slot, restriction), rest, hsplit,
      fun earlier hearlier => checkSlot_eq_ok.mpr (hdone earlier hearlier), hrefuses.checkSlot_eq⟩
  exact bind_eq_error.mpr (.inl hchecks)

theorem invoke_of_permits
    (h : ∀ restriction ∈ target.restrictions, Permits arguments restriction.1 restriction.2) :
    target.invoke host arguments =
      if (target.passed arguments).length = target.function.native.arity then
        (target.function.native.compute host (target.passed arguments)).mapError fun fault =>
          .constants (.linkage target.function.native.name
            (Value.texts (target.passed arguments)) (.native fault))
      else
        .error (.constants (.linkage target.function.native.name
          (Value.texts (target.passed arguments))
          (.arityMismatch target.function.native.arity (target.passed arguments).length))) := by
  have hchecks : (target.restrictions.forM fun (slot, restriction) =>
      checkSlot arguments slot restriction) = .ok () :=
    forM_eq_ok.mpr fun restriction hmem => checkSlot_eq_ok.mpr (h restriction hmem)
  rw [invoke, hchecks]
  change (NativeFunction.invoke host _ _ _).mapError _ = _
  rw [NativeFunction.invoke, ← passed]
  split
  · cases target.function.native.compute host (target.passed arguments) <;> rfl
  · rfl

/-- Calls of a target that a function was fitted to and that got further restrictions. The
restrictions are about the arguments of the call as it gives them. The first that refuses them is
the error of the call, whatever the function would compute, and a call that none refuses has the
result of the function. -/
theorem invoke_restrictAll (h : adapt function adaptation carrier = .ok target)
    (restrictions : List (Nat × Value)) (arguments : List Value) :
    ∃ leading dropped, adaptation.Arranges carrier leading dropped ∧
      ((∀ restriction ∈ restrictions, Permits arguments restriction.1 restriction.2) ∨
        ∃ done slot restriction rest error, restrictions = done ++ (slot, restriction) :: rest ∧
          (∀ earlier ∈ done, Permits arguments earlier.1 earlier.2) ∧
          Refuses arguments slot restriction error ∧
          ∀ host other, ({ target.restrictAll restrictions with function := other }).invoke host
            arguments = .error error) ∧
      ((∀ restriction ∈ restrictions, Permits arguments restriction.1 restriction.2) →
        ∀ host, (target.restrictAll restrictions).invoke host arguments =
          let passed := leading ++ arguments.drop dropped ++ function.bound
          if passed.length = function.native.arity then
            (function.native.compute host passed).mapError fun fault =>
              .constants (.linkage function.native.name (Value.texts passed) (.native fault))
          else
            .error (.constants (.linkage function.native.name (Value.texts passed)
              (.arityMismatch function.native.arity passed.length)))) ∧
      ∀ host value, (target.restrictAll restrictions).invoke host arguments = .ok value →
        ∀ restriction ∈ restrictions, Permits arguments restriction.1 restriction.2 := by
  obtain ⟨leading, dropped, harranges, rfl⟩ := adapt_eq_ok h
  refine ⟨leading, dropped, harranges, ?_, ?_, ?_⟩
  · refine (permitted_or_refused arguments restrictions).imp_right ?_
    rintro ⟨done, slot, restriction, rest, error, hsplit, hdone, hrefuses⟩
    refine ⟨done, slot, restriction, rest, error, hsplit, hdone, hrefuses, fun host other => ?_⟩
    exact invoke_of_refuses (by simpa using hsplit) hdone hrefuses
  · intro hpermits host
    rw [invoke_of_permits (by simpa using hpermits)]
    simp only [passed, restrictAll_leading, restrictAll_dropped, restrictAll_function]
  · intro host value hvalue
    refine (permitted_or_refused arguments restrictions).resolve_right ?_
    rintro ⟨done, slot, restriction, rest, error, hsplit, hdone, hrefuses⟩
    have hfailed : (restrictAll { function, leading, dropped } restrictions).invoke host
        arguments = .error error :=
      invoke_of_refuses (by simpa using hsplit) hdone hrefuses
    exact nomatch hvalue.symm.trans hfailed

/-- The first argument is checked though the function never sees it, and the second is the first
that the function sees, before the bound one. -/
theorem invoke_restricted_concat :
    let concat : NativeFunction := ⟨"list.concat", 2, .listConcat⟩
    let target : Target := { function := ⟨concat, [.list [.unit]]⟩, dropped := 1 }
    let restrictions := [(0, Value.restriction ["String"]), (1, .restriction ["Class", "List"])]
    adapt ⟨concat, [.list [.unit]]⟩ (.dropLeading 1) none = .ok target ∧
      (∀ host, (target.restrictAll restrictions).invoke host
        [.string "left", .list [.bool true]] = .ok (.list [.bool true, .unit])) ∧
      ∀ host value, (target.restrictAll restrictions).invoke host
        [.bool true, .list [.bool true]] ≠ .ok value := by
  intro concat target restrictions
  have hadapt : adapt ⟨concat, [.list [.unit]]⟩ (.dropLeading 1) none = .ok target := rfl
  refine ⟨hadapt, fun host => ?_, fun host value hvalue => ?_⟩
  · obtain ⟨leading, dropped, harranges, _, hinvoke, _⟩ := invoke_restrictAll hadapt restrictions
      [.string "left", .list [.bool true]]
    cases harranges
    refine (hinvoke ?_ host).trans rfl
    refine List.forall_mem_cons.mpr ⟨⟨_, _, rfl, rfl, by decide⟩, ?_⟩
    exact List.forall_mem_cons.mpr ⟨⟨_, _, rfl, rfl, by decide⟩, nofun⟩
  · obtain ⟨_, _, _, _, _, hpermitted⟩ := invoke_restrictAll hadapt restrictions
      [.bool true, .list [.bool true]]
    obtain ⟨argument, _, hargument, hrestriction, htype⟩ :=
      hpermitted host value hvalue _ List.mem_cons_self
    cases hargument
    cases hrestriction
    exact absurd htype (by decide)

end Target

end Specialization

import Specialization.Evaluation
import Specialization.Proofs.Execution
import Specialization.Proofs.Lookup

/-!
What one step of a pass does, said once by `Stepped`, and what follows for passes: they only grow,
and one that has succeeded succeeds again on a link cache that has grown since.
-/

namespace Specialization

/-- The value that the link cache has for a constant, if there is a cache. -/
def Pass.shared? (pass : Pass) (name : String) : Option Value :=
  pass.cache.bind fun cache => cache.lookup name

/-- The log of a pass after more uses of its link cache, newest first. Without a cache there are
none. -/
def Pass.logged (pass : Pass) (uses : List Access) : List Access :=
  if pass.cache.isSome then uses ++ pass.log else pass.log

theorem Pass.logged_logged (pass : Pass) (first second : List Access) :
    { pass with log := pass.logged first : Pass }.logged second = pass.logged (second ++ first) := by
  obtain ⟨memo, cache, log⟩ := pass
  cases cache with
  | none => rfl
  | some cache => exact (List.append_assoc second first log).symm

open Evaluation in
theorem exec_consult (name : String) (pass : Pass) :
    exec (consult name) pass = (.ok (pass.shared? name), { pass with
      log := pass.logged [if (pass.shared? name).isSome then .hit name else .miss name] }) := by
  obtain ⟨memo, cache, log⟩ := pass
  cases cache with
  | none => rfl
  | some cache =>
      rw [consult, exec_bind_ok (exec_get _)]
      rcases Option.eq_none_or_eq_some (cache.lookup name) with hlookup | ⟨value, hlookup⟩
      · simp only [Pass.shared?, Option.bind_some, hlookup]
        rfl
      · simp only [Pass.shared?, Option.bind_some, hlookup]
        rfl

open Evaluation in
theorem exec_publish (name : String) (value : Value) (pass : Pass) :
    exec (publish name value) pass = (.ok (), { pass with
      cache := pass.cache.map fun cache => (name, value) :: cache
      log := pass.logged [.put name value] }) := by
  obtain ⟨memo, cache, log⟩ := pass
  cases cache with
  | none => rfl
  | some cache => rfl

/-- What a pass knows, or shares, it does not forget. -/
structure Pass.Grows (before after : Pass) : Prop where
  memo : Extends before.memo after.memo
  cache : ∀ cache, before.cache = some cache →
    ∃ larger, after.cache = some larger ∧ Extends cache larger

theorem Pass.Grows.refl (pass : Pass) : pass.Grows pass :=
  ⟨Extends.refl pass.memo, fun cache h => ⟨cache, h, Extends.refl cache⟩⟩

theorem Pass.Grows.trans {first second third : Pass} (h : first.Grows second)
    (h' : second.Grows third) : first.Grows third := by
  refine ⟨h.memo.trans h'.memo, ?_⟩
  intro cache hcache
  obtain ⟨larger, hlarger, hextends⟩ := h.cache cache hcache
  obtain ⟨largest, hlargest, hextends'⟩ := h'.cache larger hlarger
  exact ⟨largest, hlargest, hextends.trans hextends'⟩

namespace Evaluator

variable {evaluator : Evaluator} {name : String} {pass next : Pass}
  {result : Except ConstantError Unit}

/-- All that one step can do. -/
inductive Stepped (evaluator : Evaluator) (name : String) (pass : Pass) :
    Except ConstantError Unit → Pass → Prop
  | known (h : (pass.value? name).isSome) : Stepped evaluator name pass (.ok ()) pass
  | computed {value : Value} (hnew : pass.value? name = none)
      (hroot : evaluator.analysis.isAnchored name)
      (hvalue : evaluator.constant pass.value? name = .ok value) :
      Stepped evaluator name pass (.ok ()) { pass with memo := (name, value) :: pass.memo }
  | hit {value : Value} {log : List Access} (hnew : pass.value? name = none)
      (hroot : ¬ evaluator.analysis.isAnchored name) (hshared : pass.shared? name = some value) :
      Stepped evaluator name pass (.ok ()) { pass with memo := (name, value) :: pass.memo, log }
  | published {value : Value} {log : List Access} (hnew : pass.value? name = none)
      (hroot : ¬ evaluator.analysis.isAnchored name) (hshared : pass.shared? name = none)
      (hvalue : evaluator.constant pass.value? name = .ok value) :
      Stepped evaluator name pass (.ok ())
        { memo := (name, value) :: pass.memo
          cache := pass.cache.map fun cache => (name, value) :: cache
          log }
  | failed {error : ConstantError} {log : List Access} (hnew : pass.value? name = none)
      (hmissed : evaluator.analysis.isAnchored name ∨ pass.shared? name = none)
      (herror : evaluator.constant pass.value? name = .error error) :
      Stepped evaluator name pass (.error error) { pass with log }

/-- What a step does, by cases on what the pass knows and shares. -/
theorem exec_step_eq (evaluator : Evaluator) (name : String) (pass : Pass) :
    exec (evaluator.step name) pass =
      if (pass.value? name).isSome then (.ok (), pass)
      else if evaluator.analysis.isAnchored name then
        match evaluator.constant pass.value? name with
        | .ok value => (.ok (), { pass with memo := (name, value) :: pass.memo })
        | .error error => (.error error, pass)
      else
        match pass.shared? name with
        | some value => (.ok (), { pass with
            memo := (name, value) :: pass.memo
            log := pass.logged [.hit name] })
        | none =>
          match evaluator.constant pass.value? name with
          | .ok value => (.ok (), {
              memo := (name, value) :: pass.memo
              cache := pass.cache.map fun cache => (name, value) :: cache
              log := pass.logged [.put name value, .miss name] })
          | .error error => (.error error, { pass with log := pass.logged [.miss name] }) := by
  rw [step, exec_bind_ok (exec_get pass)]
  cases hnew : pass.value? name with
  | some value => rfl
  | none =>
      cases evaluator.analysis.isAnchored name with
      | true =>
          simp only [Option.isSome_none, Bool.false_eq_true, if_false, if_true]
          rw [exec_bind_ok (exec_get pass)]
          cases evaluator.constant pass.value? name with
          | error error => rfl
          | ok value => rfl
      | false =>
          simp only [Option.isSome_none, Bool.false_eq_true, if_false]
          rw [exec_bind_ok (exec_consult name pass)]
          cases pass.shared? name with
          | some value => rfl
          | none =>
              dsimp only
              rw [exec_bind_ok (exec_get _)]
              -- Asking the cache leaves the values of the pass as they are.
              let missed : Pass := { pass with log := pass.logged [.miss name] }
              have hread : evaluator.constant missed.value? name =
                  evaluator.constant pass.value? name := rfl
              change exec (liftM (evaluator.constant missed.value? name) >>= _) missed = _
              rw [hread]
              cases evaluator.constant pass.value? name with
              | error error => rfl
              | ok value =>
                  rw [exec_bind_ok (exec_liftM (Except.ok value) _),
                    exec_bind_ok (exec_publish name value missed), pass.logged_logged]
                  rfl

theorem exec_step (evaluator : Evaluator) (name : String) (pass : Pass) :
    Stepped evaluator name pass (exec (evaluator.step name) pass).1
      (exec (evaluator.step name) pass).2 := by
  rw [exec_step_eq]
  cases hnew : pass.value? name with
  | some value => exact .known (by simp [hnew])
  | none =>
      simp only [Option.isSome_none, Bool.false_eq_true, if_false]
      split
      · rename_i hroot
        cases hvalue : evaluator.constant pass.value? name with
        | error error => exact .failed hnew (Or.inl hroot) hvalue
        | ok value => exact .computed hnew hroot hvalue
      · rename_i hroot
        cases hshared : pass.shared? name with
        | some value => exact .hit hnew hroot hshared
        | none =>
            cases hvalue : evaluator.constant pass.value? name with
            | error error => exact .failed hnew (Or.inr hshared) hvalue
            | ok value => exact .published hnew hroot hshared hvalue

theorem exec_evaluate (hname : evaluator.analysis.contains name) (pass : Pass) :
    exec (evaluator.evaluate name) pass =
      match pass.value? name with
      | some value => (.ok value, pass)
      | none =>
        match exec ((evaluator.analysis.evaluationPlan name).forM evaluator.step) pass with
        | (.ok (), next) =>
          match next.value? name with
          | some value => (.ok value, next)
          | none => (.error (.unresolvedReference evaluator.analysis.descriptor name), next)
        | (.error error, next) => (.error error, next) := by
  simp only [evaluate, hname, Bool.not_true, Bool.false_eq_true, if_false]
  rw [exec_bind_ok (exec_get pass)]
  cases pass.value? name with
  | some value => rfl
  | none =>
      rcases hrun : exec ((evaluator.analysis.evaluationPlan name).forM evaluator.step) pass with
        ⟨error | done, next⟩
      · exact exec_bind_error hrun
      · dsimp only
        rw [exec_bind_ok hrun, exec_bind_ok (exec_get next)]
        cases next.value? name with
        | some value => rfl
        | none => rfl

theorem exec_evaluate_pass (hname : evaluator.analysis.contains name) (pass : Pass) :
    (exec (evaluator.evaluate name) pass).2 = if (pass.value? name).isSome then pass
      else (exec ((evaluator.analysis.evaluationPlan name).forM evaluator.step) pass).2 := by
  rw [exec_evaluate hname]
  cases pass.value? name with
  | some value => rfl
  | none =>
      rcases exec ((evaluator.analysis.evaluationPlan name).forM evaluator.step) pass with
        ⟨error | ⟨⟩, next⟩
      · rfl
      · dsimp only
        cases next.value? name with
        | some value => rfl
        | none => rfl

theorem evaluate_undeclared (hname : ¬ evaluator.analysis.contains name) (pass : Pass) :
    exec (evaluator.evaluate name) pass =
      (.error (.unresolvedReference evaluator.analysis.descriptor name), pass) := by
  simp only [evaluate, hname]
  rfl

theorem Stepped.grows (h : Stepped evaluator name pass result next) : pass.Grows next := by
  have hsame : ∀ cache, pass.cache = some cache →
      ∃ larger, pass.cache = some larger ∧ Extends cache larger :=
    fun cache hcache => ⟨cache, hcache, Extends.refl cache⟩
  cases h with
  | known => exact Pass.Grows.refl pass
  | computed hnew => exact ⟨Extends.cons hnew _, hsame⟩
  | hit hnew => exact ⟨Extends.cons hnew _, hsame⟩
  | published hnew hroot hshared =>
      refine ⟨Extends.cons hnew _, ?_⟩
      intro cache hcache
      rw [Pass.shared?, hcache, Option.bind_some] at hshared
      exact ⟨(name, _) :: cache, by rw [hcache]; rfl, Extends.cons hshared _⟩
  | failed => exact ⟨Extends.refl pass.memo, hsame⟩

theorem forM_step_grows (evaluator : Evaluator) (names : List String) (pass : Pass) :
    pass.Grows (exec (names.forM evaluator.step) pass).2 := by
  induction names generalizing pass with
  | nil => exact Pass.Grows.refl pass
  | cons name rest ih =>
      have hstep := (exec_step evaluator name pass).grows
      rcases hrun : exec (evaluator.step name) pass with ⟨error | done, next⟩
      · rw [exec_forM_cons, exec_bind_error hrun]
        exact hrun ▸ hstep
      · rw [exec_forM_cons, exec_bind_ok hrun]
        rw [hrun] at hstep
        exact hstep.trans (ih next)

theorem evaluate_grows (evaluator : Evaluator) (name : String) (pass : Pass) :
    pass.Grows (exec (evaluator.evaluate name) pass).2 := by
  by_cases hname : evaluator.analysis.contains name
  · rw [exec_evaluate_pass hname]
    split
    · exact Pass.Grows.refl pass
    · exact forM_step_grows evaluator (evaluator.analysis.evaluationPlan name) pass
  · rw [evaluate_undeclared hname]
    exact Pass.Grows.refl pass

/-- A step on a constant that is shared takes the shared value. -/
theorem Stepped.of_shared (h : Stepped evaluator name pass result next)
    (hnew : pass.value? name = none) (hroot : ¬ evaluator.analysis.isAnchored name) {value : Value}
    (hshared : pass.shared? name = some value) :
    result = .ok () ∧ next.cache = pass.cache ∧ next.memo = (name, value) :: pass.memo := by
  cases h with
  | known hknown => simp [hnew] at hknown
  | computed _ hroot' => exact absurd hroot' hroot
  | @hit value' log _ _ hshared' =>
      rw [hshared] at hshared'
      cases hshared'
      exact ⟨rfl, rfl, rfl⟩
  | published _ _ hmissed => simp [hshared] at hmissed
  | failed _ hmissed =>
      rcases hmissed with hroot' | hmissed
      · exact absurd hroot' hroot
      · simp [hshared] at hmissed

/-- A step that succeeded succeeds again on what it then shared: a constant fixed at link time is
found there, and one that varies with an anchor is computed from the same values. -/
theorem Stepped.again {again next' : Pass} {result' : Except ConstantError Unit}
    (h : Stepped evaluator name pass (.ok ()) next)
    (h' : Stepped evaluator name again result' next') {final link : Values}
    (hfinal : next.cache = some final) (hlink : again.cache = some link)
    (hextends : Extends final link) (hmemo : again.memo = pass.memo) :
    result' = .ok () ∧ next'.cache = some link ∧ next'.memo = next.memo := by
  have hvalue : again.value? = pass.value? := by
    funext other
    rw [Pass.value?, hmemo, Pass.value?]
  have hshared : again.shared? name = link.lookup name := by
    rw [Pass.shared?, hlink, Option.bind_some]
  cases h with
  | known hknown =>
      cases h' with
      | known => exact ⟨rfl, hlink, hmemo⟩
      | computed hnew | hit hnew | published hnew | failed hnew => simp [← hvalue, hnew] at hknown
  | @computed value hnew hroot hresult =>
      rw [← hvalue] at hnew hresult
      cases h' with
      | known hknown => simp [hnew] at hknown
      | @computed value' _ _ hresult' =>
          rw [hresult] at hresult'
          cases hresult'
          exact ⟨rfl, hlink, by rw [hmemo]⟩
      | hit _ hroot' => exact absurd hroot hroot'
      | published _ hroot' => exact absurd hroot hroot'
      | failed _ _ herror =>
          rw [hresult] at herror
          cases herror
  | @hit value log hnew hroot hfound =>
      have hnow : again.shared? name = some value := by
        rw [Pass.shared?, hfinal, Option.bind_some] at hfound
        rw [hshared]
        exact hextends name value hfound
      obtain ⟨hok, hcache, hadded⟩ := h'.of_shared (hvalue ▸ hnew) hroot hnow
      exact ⟨hok, hcache.trans hlink, by rw [hadded, hmemo]⟩
  | @published value log hnew hroot hmissed hresult =>
      have hnow : again.shared? name = some value := by
        obtain ⟨cache, _, rfl⟩ := Option.map_eq_some_iff.mp hfinal
        rw [hshared]
        exact hextends name value List.lookup_cons_self
      obtain ⟨hok, hcache, hadded⟩ := h'.of_shared (hvalue ▸ hnew) hroot hnow
      exact ⟨hok, hcache.trans hlink, by rw [hadded, hmemo]⟩

/-- Steps that succeeded succeed again, with the same values, on what they then shared. -/
theorem forM_step_again (names : List String) {pass last : Pass} (again : Pass)
    {final link : Values} (h : exec (names.forM evaluator.step) pass = (.ok (), last))
    (hfinal : last.cache = some final)
    (hlink : again.cache = some link) (hextends : Extends final link)
    (hmemo : again.memo = pass.memo) {cache : Values} (hcache : pass.cache = some cache) :
    ∃ last', exec (names.forM evaluator.step) again = (.ok (), last') ∧
      last'.memo = last.memo := by
  induction names generalizing pass again cache with
  | nil =>
      cases h
      exact ⟨again, rfl, hmemo⟩
  | cons name rest ih =>
      have hstep := exec_step evaluator name pass
      have hagain := exec_step evaluator name again
      rw [exec_forM_cons] at h
      rcases hrun : exec (evaluator.step name) pass with ⟨error | done, next⟩
      · rw [exec_bind_error hrun] at h
        cases h
      · rw [exec_bind_ok hrun] at h
        rw [hrun] at hstep
        obtain ⟨middle, hmiddle, _⟩ := hstep.grows.cache cache hcache
        obtain ⟨final', hfinal', hrest⟩ :=
          (forM_step_grows evaluator rest next).cache middle hmiddle
        rw [h, hfinal] at hfinal'
        cases hfinal'
        obtain ⟨hok, hlink', hmemo'⟩ := hstep.again hagain hmiddle hlink
          (hrest.trans hextends) hmemo
        obtain ⟨last', hlast, heq⟩ := ih _ h hlink' hmemo' hmiddle
        refine ⟨last', ?_, heq⟩
        rw [exec_forM_cons, exec_bind_ok (Prod.ext hok rfl)]
        exact hlast

/-- A call that succeeded on an empty pass succeeds again, with the same value, on a link cache that
has grown since. -/
theorem evaluate_again {cache final link : Values} {value : Value} {pass : Pass}
    (h : exec (evaluator.evaluate name) { cache := some cache } = (.ok value, pass))
    (hfinal : pass.cache = some final) (hextends : Extends final link) :
    (exec (evaluator.evaluate name) { cache := some link }).1 = .ok value := by
  by_cases hname : evaluator.analysis.contains name
  · rw [exec_evaluate hname] at h ⊢
    simp only [Pass.value?, List.lookup_nil] at h ⊢
    split at h
    · rename_i last hrun
      have hlast : last = pass := by
        split at h
        · cases h
          rfl
        · cases h
      subst hlast
      obtain ⟨last', hrun', hmemo⟩ := forM_step_again _ { cache := some link } hrun
        hfinal rfl hextends rfl rfl
      rw [hrun']
      simp only [hmemo]
      split at h
      · cases h
        rfl
      · cases h
    · cases h
  · rw [evaluate_undeclared hname] at h
    cases h

end Evaluator

end Specialization

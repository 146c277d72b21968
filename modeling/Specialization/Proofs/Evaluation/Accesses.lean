import Specialization.Proofs.Evaluation.Pass

/-!
What a pass does with its link cache. It asks for a constant that is fixed at link time and that it
has no value for, and puts only what it asked for in vain and then computed. A hit or a put settles
a constant: from then on the pass has its value and leaves the cache alone. A call asks for the
constants of its plan, in the order of the plan.
-/

namespace Specialization

/-- The constant that a use of the cache asks for, unless it is a put. -/
def Access.asked? : Access → Option String
  | .hit name => some name
  | .miss name => some name
  | .put _ _ => none

/-- Whether the pass has the value of the constant after this use of the cache. -/
def Access.settles : Access → Bool
  | .hit _ => true
  | .miss _ => false
  | .put _ _ => true

/-- The uses that a pass made of its cache, oldest first. -/
def Pass.accesses (pass : Pass) : List Access :=
  pass.log.reverse

/-- New uses come after the older ones. -/
theorem Pass.reverse_logged {pass : Pass} {cache : Values} (hcache : pass.cache = some cache)
    (uses : List Access) : (pass.logged uses).reverse = pass.accesses ++ uses.reverse := by
  rw [Pass.logged, hcache, Option.isSome_some, if_pos rfl, List.reverse_append]
  rfl

namespace Evaluator

variable {evaluator : Evaluator} {name : String} {pass next : Pass} {cache : Values}
  {access : Access}

/-- All that a step on a constant can do with the cache, from a pass to the next. -/
inductive Uses (evaluator : Evaluator) (name : String) (pass next : Pass) : List Access → Prop
  | silent : Uses evaluator name pass next []
  | hit {value : Value} (hnew : pass.value? name = none)
      (hroot : ¬ evaluator.analysis.isAnchored name) (hvalue : next.value? name = some value) :
      Uses evaluator name pass next [.hit name]
  | missed (hnew : pass.value? name = none) (hroot : ¬ evaluator.analysis.isAnchored name) :
      Uses evaluator name pass next [.miss name]
  | put {value : Value} (hnew : pass.value? name = none)
      (hroot : ¬ evaluator.analysis.isAnchored name) (hvalue : next.value? name = some value) :
      Uses evaluator name pass next [.miss name, .put name value]

theorem exec_step_uses (evaluator : Evaluator) (name : String) (hcache : pass.cache = some cache) :
    ∃ uses, Uses evaluator name pass (exec (evaluator.step name) pass).2 uses ∧
      (exec (evaluator.step name) pass).2.accesses = pass.accesses ++ uses := by
  have hsilent : pass.accesses = pass.accesses ++ [] := (List.append_nil _).symm
  have hlogged := Pass.reverse_logged hcache
  rw [exec_step_eq]
  cases hnew : pass.value? name with
  | some value => exact ⟨[], .silent, hsilent⟩
  | none =>
      simp only [Option.isSome_none, Bool.false_eq_true, if_false]
      split
      · cases evaluator.constant pass.value? name with
        | error error => exact ⟨[], .silent, hsilent⟩
        | ok value => exact ⟨[], .silent, hsilent⟩
      · rename_i hroot
        cases pass.shared? name with
        | some value => exact ⟨_, .hit hnew hroot List.lookup_cons_self, hlogged [.hit name]⟩
        | none =>
            cases evaluator.constant pass.value? name with
            | error error => exact ⟨_, .missed hnew hroot, hlogged [.miss name]⟩
            | ok value =>
                exact ⟨_, .put hnew hroot List.lookup_cons_self,
                  hlogged [.put name value, .miss name]⟩

/-- The rules that a pass keeps in the use of its cache. -/
structure Disciplined (evaluator : Evaluator) (pass : Pass) : Prop where
  linked : ∀ access ∈ pass.accesses, evaluator.analysis.contains access.name ∧
    ¬ evaluator.analysis.isAnchored access.name
  paired : ∀ earlier name value, earlier ++ [.put name value] <+: pass.accesses →
    earlier.getLast? = some (.miss name) ∧ pass.value? name = some value
  settled : pass.accesses.Pairwise fun earlier later =>
    earlier.settles → later.name ≠ earlier.name
  found : ∀ access ∈ pass.accesses, access.settles → (pass.value? access.name).isSome

theorem disciplined_of_unused (h : pass.accesses = []) : evaluator.Disciplined pass where
  linked access haccess := by simp [h] at haccess
  paired earlier name value hearlier := by simp [h] at hearlier
  settled := h ▸ List.Pairwise.nil
  found access haccess := by simp [h] at haccess

theorem Disciplined.grow (h : evaluator.Disciplined pass) (hgrows : pass.Grows next)
    (haccesses : next.accesses = pass.accesses) : evaluator.Disciplined next where
  linked := haccesses ▸ h.linked
  paired earlier name value hearlier :=
    have ⟨hmiss, hvalue⟩ := h.paired earlier name value (haccesses ▸ hearlier)
    ⟨hmiss, hgrows.memo name value hvalue⟩
  settled := haccesses ▸ h.settled
  found access haccess hsettles := by
    obtain ⟨value, hvalue⟩ :=
      Option.isSome_iff_exists.mp (h.found access (haccesses ▸ haccess) hsettles)
    exact Option.isSome_of_eq_some (hgrows.memo _ value hvalue)

/-- One more use, of a constant that the pass had no value for. None before it settled the
constant, since then the pass would have its value. -/
theorem Disciplined.push (h : evaluator.Disciplined pass) (hgrows : pass.Grows next)
    (haccesses : next.accesses = pass.accesses ++ [access])
    (hdeclared : evaluator.analysis.contains access.name)
    (hroot : ¬ evaluator.analysis.isAnchored access.name) (hnew : pass.value? access.name = none)
    (hput : ∀ name value, access = .put name value → pass.accesses.getLast? = some (.miss name) ∧
      next.value? name = some value)
    (hfound : access.settles → (next.value? access.name).isSome) :
    evaluator.Disciplined next := by
  have hpass : evaluator.Disciplined { next with log := pass.log } := h.grow ⟨hgrows.memo,
    hgrows.cache⟩ rfl
  refine ⟨?_, ?_, ?_, ?_⟩
  · rw [haccesses]
    intro other hother
    rcases List.mem_append.mp hother with hold | hlast
    · exact h.linked other hold
    · exact List.mem_singleton.mp hlast ▸ ⟨hdeclared, hroot⟩
  · rw [haccesses]
    intro earlier name value hearlier
    rcases List.prefix_concat_iff.mp hearlier with hlast | hold
    · obtain ⟨rfl, haccess⟩ := List.append_inj' hlast rfl
      exact hput name value (List.singleton_inj.mp haccess).symm
    · exact hpass.paired earlier name value hold
  · rw [haccesses, List.pairwise_append]
    refine ⟨h.settled, List.pairwise_singleton _ _, ?_⟩
    intro older hold later hlater hsettles hname
    rw [List.mem_singleton.mp hlater] at hname
    have hknown := h.found older hold hsettles
    simp [← hname, hnew] at hknown
  · rw [haccesses]
    intro other hother hsettles
    rcases List.mem_append.mp hother with hold | hlast
    · exact hpass.found other hold hsettles
    · obtain rfl := List.mem_singleton.mp hlast
      exact hfound hsettles

/-- A step keeps the rules. -/
theorem Disciplined.step (h : evaluator.Disciplined pass) (hgrows : pass.Grows next)
    {uses : List Access} (huses : Uses evaluator name pass next uses)
    (haccesses : next.accesses = pass.accesses ++ uses)
    (hdeclared : evaluator.analysis.contains name) : evaluator.Disciplined next := by
  cases huses with
  | silent => exact h.grow hgrows (haccesses.trans (List.append_nil _))
  | hit hnew hroot hvalue =>
      exact h.push hgrows haccesses hdeclared hroot hnew nofun
        fun _ => Option.isSome_of_eq_some hvalue
  | missed hnew hroot => exact h.push hgrows haccesses hdeclared hroot hnew nofun nofun
  | @put value hnew hroot hvalue =>
      -- Between the miss and the put, the pass has the values of before.
      let missed : Pass := { pass with log := .miss name :: pass.log }
      have hmissed : missed.accesses = pass.accesses ++ [.miss name] := List.reverse_cons
      have hmiddle : evaluator.Disciplined missed :=
        h.push ⟨(Pass.Grows.refl pass).memo, (Pass.Grows.refl pass).cache⟩
          hmissed hdeclared hroot hnew nofun nofun
      have hlast : next.accesses = missed.accesses ++ [.put name value] := by
        rw [haccesses, hmissed, List.append_assoc]
        rfl
      have hput : ∀ other found, Access.put name value = .put other found →
          missed.accesses.getLast? = some (.miss other) ∧ next.value? other = some found := by
        rintro other found ⟨⟩
        exact ⟨by rw [hmissed, List.getLast?_concat], hvalue⟩
      exact hmiddle.push ⟨hgrows.memo, hgrows.cache⟩ hlast hdeclared hroot hnew hput
        fun _ => Option.isSome_of_eq_some hvalue

/-- The names that a list of uses asks for. -/
def asked (uses : List Access) : List String :=
  uses.filterMap Access.asked?

@[simp]
theorem asked_append (uses later : List Access) : asked (uses ++ later) = asked uses ++ asked later :=
  List.filterMap_append

/-- Uses that ask for names among the given ones, in their order, and put nothing that they did not
ask for. -/
structure Within (uses : List Access) (names : List String) : Prop where
  sublist : (asked uses).Sublist names
  names : ∀ access ∈ uses, access.name ∈ asked uses

theorem Within.nil (names : List String) : Within [] names :=
  ⟨List.nil_sublist names, nofun⟩

theorem Within.append {uses later : List Access} {names others : List String}
    (h : Within uses names) (h' : Within later others) :
    Within (uses ++ later) (names ++ others) := by
  refine ⟨by rw [asked_append]; exact h.sublist.append h'.sublist, ?_⟩
  intro access haccess
  rw [asked_append, List.mem_append]
  exact (List.mem_append.mp haccess).imp (h.names access) (h'.names access)

theorem Within.mono {uses : List Access} {names others : List String} (h : Within uses names)
    (hsublist : names.Sublist others) : Within uses others :=
  ⟨h.sublist.trans hsublist, h.names⟩

theorem Uses.within {uses : List Access} (h : Uses evaluator name pass next uses) :
    Within uses [name] := by
  cases h with
  | silent => exact Within.nil [name]
  | hit => exact ⟨.refl [name], by simp [asked, Access.asked?, Access.name]⟩
  | missed => exact ⟨.refl [name], by simp [asked, Access.asked?, Access.name]⟩
  | put => exact ⟨.refl [name], by simp [asked, Access.asked?, Access.name]⟩

/-- Steps over declared names keep the rules, and ask for these names in turn. -/
theorem forM_step_uses {names : List String}
    (hdeclared : ∀ name ∈ names, evaluator.analysis.contains name) {pass : Pass} {cache : Values}
    (hcache : pass.cache = some cache) (h : evaluator.Disciplined pass) :
    let next := (exec (names.forM evaluator.step) pass).2
    evaluator.Disciplined next ∧
      ∃ uses, next.accesses = pass.accesses ++ uses ∧ Within uses names := by
  induction names generalizing pass cache with
  | nil => exact ⟨h, [], (List.append_nil _).symm, Within.nil []⟩
  | cons name rest ih =>
      obtain ⟨hname, hrest⟩ := List.forall_mem_cons.mp hdeclared
      obtain ⟨uses, huses, haccesses⟩ := exec_step_uses evaluator name hcache
      have hgrows := (exec_step evaluator name pass).grows
      rcases hrun : exec (evaluator.step name) pass with ⟨error | done, next⟩
      · rw [hrun] at huses haccesses hgrows
        rw [exec_forM_cons, exec_bind_error hrun]
        exact ⟨h.step hgrows huses haccesses hname, uses, haccesses,
          huses.within.mono ((List.nil_sublist rest).cons_cons name)⟩
      · rw [hrun] at huses haccesses hgrows
        rw [exec_forM_cons, exec_bind_ok hrun]
        obtain ⟨larger, hlarger, _⟩ := hgrows.cache cache hcache
        obtain ⟨hlast, later, hlater, hwithin⟩ :=
          ih hrest hlarger (h.step hgrows huses haccesses hname)
        exact ⟨hlast, uses ++ later, by rw [hlater, haccesses, List.append_assoc],
          huses.within.append hwithin⟩

/-- A call keeps the rules, and asks for constants of the closure in the order of the analysis. -/
theorem evaluate_uses (haccepted : evaluator.analysis.Accepted) (name : String) {cache : Values}
    (hcache : pass.cache = some cache) (h : evaluator.Disciplined pass) :
    let next := (exec (evaluator.evaluate name) pass).2
    evaluator.Disciplined next ∧
      ∃ uses, next.accesses = pass.accesses ++ uses ∧ Within uses (evaluator.closure name) := by
  have hunused : evaluator.Disciplined pass ∧
      ∃ uses, pass.accesses = pass.accesses ++ uses ∧ Within uses (evaluator.closure name) :=
    ⟨h, [], (List.append_nil _).symm, Within.nil _⟩
  by_cases hname : evaluator.analysis.contains name
  · rw [exec_evaluate_pass hname, evaluationPlan_eq_closure haccepted hname]
    split
    · exact hunused
    · have hdeclared : ∀ other ∈ evaluator.closure name, evaluator.analysis.contains other :=
        fun other hother => haccepted.mem_order.mp (mem_closure.mp hother).1
      exact forM_step_uses hdeclared hcache h
  · rw [evaluate_undeclared hname]
    exact hunused

/-- The pass of an evaluator on a link cache after some calls, whatever they gave. -/
def sharedAfter (evaluator : Evaluator) (cache : Values) (calls : List String) : Pass :=
  calls.foldl (fun pass name => (exec (evaluator.evaluate name) pass).2) { cache := some cache }

theorem sharedAfter_concat (cache : Values) (calls : List String) (name : String) :
    evaluator.sharedAfter cache (calls ++ [name]) =
      (exec (evaluator.evaluate name) (evaluator.sharedAfter cache calls)).2 := by
  rw [sharedAfter, List.foldl_append]
  rfl

theorem sharedAfter_disciplined (haccepted : evaluator.analysis.Accepted) (cache : Values)
    (calls : List String) : evaluator.Disciplined (evaluator.sharedAfter cache calls) ∧
      ∃ larger, (evaluator.sharedAfter cache calls).cache = some larger := by
  induction calls using List.reverseRecOn with
  | nil => exact ⟨disciplined_of_unused rfl, cache, rfl⟩
  | append_singleton calls name ih =>
      obtain ⟨hdisciplined, larger, hlarger⟩ := ih
      rw [sharedAfter_concat]
      obtain ⟨largest, hlargest, _⟩ := (evaluate_grows evaluator name _).cache larger hlarger
      exact ⟨(evaluate_uses haccepted name hlarger hdisciplined).1, largest, hlargest⟩

/-- The uses of a link cache in a pass of any calls, failed ones included. They are about constants
fixed at link time only. A put comes right after the miss of the same constant, with the value that
the pass has for it. Once a hit or a put has settled a constant, it is not used again. And one more
call asks for different constants of the closure of its constant, in the order of the analysis. -/
theorem accesses_of_calls {declarations : ClassDeclarations} {imported : AnchorTable}
    {analysis : Analysis} (h : analyze declarations imported = .ok analysis) (host : Host)
    (functions : Registry) (scope : Scope) (cache : Values) (calls : List String) :
    let evaluator : Evaluator := { host, functions, analysis, scope }
    let pass := evaluator.sharedAfter cache calls
    (∀ access ∈ pass.accesses, analysis.root? access.name = some .constant) ∧
      (∀ before name value later, pass.accesses = before ++ .put name value :: later →
        (∃ earlier, before = earlier ++ [.miss name]) ∧ pass.value? name = some value ∧
          (exec (evaluator.evaluate name) pass).1 = .ok value) ∧
      (∀ before access later, pass.accesses = before ++ access :: later → access.settles →
        ∀ other ∈ later, other.name ≠ access.name) ∧
      ∀ name, ∃ during,
        (exec (evaluator.evaluate name) pass).2.accesses = pass.accesses ++ during ∧
          (∀ access ∈ during, access.name ∈ asked during) ∧ (asked during).Nodup ∧
          (∀ other ∈ asked during, analysis.graph.Leads name other) ∧
          (asked during).Sublist analysis.order := by
  intro evaluator pass
  have haccepted : evaluator.analysis.Accepted := ⟨declarations, imported, h⟩
  obtain ⟨hrules, larger, hlarger⟩ := sharedAfter_disciplined haccepted cache calls
  refine ⟨?_, ?_, ?_, ?_⟩
  · intro access haccess
    obtain ⟨hdeclared, hroot⟩ := hrules.linked access haccess
    exact root?_of_not_isAnchored haccepted hdeclared hroot
  · intro before name value later hsplit
    have hearlier : before ++ [.put name value] <+: pass.accesses := ⟨later, by simp [hsplit]⟩
    obtain ⟨hmiss, hvalue⟩ := hrules.paired before name value hearlier
    have hdeclared : evaluator.analysis.contains name :=
      (hrules.linked (.put name value) (by rw [hsplit]; simp)).1
    refine ⟨List.getLast?_eq_some_iff.mp hmiss, hvalue, ?_⟩
    rw [exec_evaluate hdeclared, hvalue]
  · intro before access later hsplit hsettles other hother
    have hsettled := hrules.settled
    rw [hsplit, List.pairwise_append, List.pairwise_cons] at hsettled
    exact hsettled.2.1.1 other hother hsettles
  · intro name
    obtain ⟨_, during, hduring, hwithin⟩ := evaluate_uses haccepted name hlarger hrules
    have hclosure : (evaluator.closure name).Sublist analysis.order := List.filter_sublist
    refine ⟨during, hduring, hwithin.names, ?_, ?_, hwithin.sublist.trans hclosure⟩
    · exact (haccepted.order_nodup.sublist hclosure).sublist hwithin.sublist
    · exact fun other hother => (mem_closure.mp (hwithin.sublist.subset hother)).2

/-- A class with a constant that fails, after another one is found, and with an anchored list. -/
def brokenList : ClassDeclarations where
  descriptor := "BrokenList"
  anchors := [⟨"T", .ofClass, none⟩]
  constants := [
    { name := "seven", action := "literal", operands := [.int 7] },
    { name := "pair", action := "list", operands := [.ref "seven", .ref "seven"] },
    { name := "T", action := "anchor" },
    { name := "boxed", action := "list", operands := [.ref "pair", .ref "T"] },
    { name := "broken", action := "function", operands := [.function "missing"] }]

theorem accesses_brokenList : ∃ analysis, analyze brokenList .empty = .ok analysis ∧ ∀ host,
    let evaluator : Evaluator := ⟨host, .standard, analysis, .unbound⟩
    let pass := evaluator.sharedAfter [("seven", .int 8)] ["broken", "boxed", "broken"]
    pass.accesses = [.miss "broken", .hit "seven", .miss "pair",
        .put "pair" (.list [.int 8, .int 8]), .miss "broken"] ∧
      (∀ access ∈ pass.accesses, analysis.root? access.name = some .constant) ∧
      (exec (evaluator.evaluate "pair") pass).1 = .ok (.list [.int 8, .int 8]) := by
  refine ⟨_, rfl, fun host => ?_⟩
  intro evaluator pass
  have haccesses : pass.accesses = [.miss "broken", .hit "seven", .miss "pair",
      .put "pair" (.list [.int 8, .int 8]), .miss "broken"] := rfl
  obtain ⟨hlinked, hput, _, _⟩ := accesses_of_calls (rfl : analyze brokenList .empty = .ok _) host
    .standard .unbound [("seven", .int 8)] ["broken", "boxed", "broken"]
  have hpair := hput [.miss "broken", .hit "seven", .miss "pair"] "pair" (.list [.int 8, .int 8])
    [.miss "broken"] haccesses
  exact ⟨haccesses, hlinked, hpair.2.2⟩

end Evaluator

end Specialization

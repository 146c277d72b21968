import Mathlib.Data.List.Induction

/-!
Running programs that can fail. A program on a state is run by `exec`, which gives its result with
the state it leaves; what a failed program did before it failed stays in the state.
-/

namespace Specialization

variable {ε σ α β : Type}

theorem bind_eq_ok {x : Except ε α} {f : α → Except ε β} {b : β} :
    x >>= f = .ok b ↔ ∃ a, x = .ok a ∧ f a = .ok b := by
  cases x with
  | error e => simp [bind, Except.bind]
  | ok a => simp [bind, Except.bind]

theorem bind_eq_error {x : Except ε α} {f : α → Except ε β} {e : ε} :
    x >>= f = .error e ↔ x = .error e ∨ ∃ a, x = .ok a ∧ f a = .error e := by
  cases x with
  | error e => simp [bind, Except.bind]
  | ok a => simp [bind, Except.bind]

theorem map_eq_ok {x : Except ε α} {f : α → β} {b : β} :
    x.map f = .ok b ↔ ∃ a, x = .ok a ∧ f a = b := by
  cases x with
  | error e => simp [Except.map]
  | ok a => simp [Except.map]

theorem toOption_eq_some {x : Except ε α} {a : α} : x.toOption = some a ↔ x = .ok a := by
  cases x with
  | error e => simp [Except.toOption]
  | ok a => simp [Except.toOption]

theorem mapError_eq_ok {δ : Type} {x : Except ε α} {f : ε → δ} {a : α} :
    x.mapError f = .ok a ↔ x = .ok a := by
  cases x with
  | error e => simp [Except.mapError]
  | ok a => simp [Except.mapError]

theorem mapError_eq_error {δ : Type} {x : Except ε α} {f : ε → δ} {d : δ} :
    x.mapError f = .error d ↔ ∃ e, x = .error e ∧ f e = d := by
  cases x with
  | error e => simp [Except.mapError]
  | ok a => simp [Except.mapError]

theorem forM_cons_eq (item : α) (rest : List α) (check : α → Except ε Unit) :
    (item :: rest).forM check = check item >>= fun _ => rest.forM check :=
  rfl

theorem forM_eq_ok {items : List α} {check : α → Except ε Unit} :
    items.forM check = .ok () ↔ ∀ item ∈ items, check item = .ok () := by
  induction items with
  | nil => exact ⟨fun _ => nofun, fun _ => rfl⟩
  | cons item rest ih =>
      rw [forM_cons_eq, bind_eq_ok, List.forall_mem_cons, ← ih]
      exact ⟨fun ⟨_, hitem, hrest⟩ => ⟨hitem, hrest⟩, fun ⟨hitem, hrest⟩ => ⟨_, hitem, hrest⟩⟩

theorem forM_eq_error {items : List α} {check : α → Except ε Unit} {e : ε} :
    items.forM check = .error e ↔ ∃ done item rest, items = done ++ item :: rest ∧
      (∀ earlier ∈ done, check earlier = .ok ()) ∧ check item = .error e := by
  constructor
  · intro h
    induction items with
    | nil => cases h
    | cons item rest ih =>
        rw [forM_cons_eq, bind_eq_error] at h
        rcases h with hitem | ⟨_, hitem, hrest⟩
        · exact ⟨[], item, rest, rfl, nofun, hitem⟩
        · obtain ⟨done, later, remaining, rfl, hdone, hlater⟩ := ih hrest
          exact ⟨item :: done, later, remaining, rfl,
            List.forall_mem_cons.mpr ⟨hitem, hdone⟩, hlater⟩
  · rintro ⟨done, item, rest, rfl, hdone, hitem⟩
    induction done with
    | nil => exact bind_eq_error.mpr (.inl hitem)
    | cons first done ih =>
        obtain ⟨hfirst, hdone⟩ := List.forall_mem_cons.mp hdone
        exact bind_eq_error.mpr (.inr ⟨(), hfirst, ih hdone⟩)

/-- A loop that succeeds takes each of its steps with success. -/
theorem foldlM_split {step : β → α → Except ε β} {done : List α} {item : α} {rest : List α}
    {first last : β} (h : (done ++ item :: rest).foldlM step first = .ok last) :
    ∃ state next, done.foldlM step first = .ok state ∧ step state item = .ok next := by
  rw [List.foldlM_append, bind_eq_ok] at h
  obtain ⟨state, hstate, h⟩ := h
  rw [List.foldlM_cons, bind_eq_ok] at h
  obtain ⟨next, hnext, _⟩ := h
  exact ⟨state, next, hstate, hnext⟩

/-- A loop that fails does so in one of its steps, after those before it succeeded. -/
theorem foldlM_eq_error {step : β → α → Except ε β} {items : List α} {first : β} {e : ε}
    (h : items.foldlM step first = .error e) :
    ∃ done item rest state, items = done ++ item :: rest ∧
      done.foldlM step first = .ok state ∧ step state item = .error e := by
  induction items generalizing first with
  | nil => cases h
  | cons item rest ih =>
      rw [List.foldlM_cons, bind_eq_error] at h
      rcases h with hitem | ⟨next, hnext, hrest⟩
      · exact ⟨[], item, rest, first, rfl, rfl, hitem⟩
      · obtain ⟨done, later, remaining, state, rfl, hdone, hlater⟩ := ih hrest
        refine ⟨item :: done, later, remaining, state, rfl, ?_, hlater⟩
        rw [List.foldlM_cons, hnext]
        exact hdone

/-- What a loop knows after each of its steps, given the items it is done with. -/
theorem foldlM_invariant {step : β → α → Except ε β} (Known : List α → β → Prop) {first : β}
    {items : List α} (hfirst : Known [] first)
    (hstep : ∀ done item rest state next, items = done ++ item :: rest → Known done state →
      step state item = .ok next → Known (done ++ [item]) next)
    {last : β} (h : items.foldlM step first = .ok last) : Known items last := by
  induction items using List.reverseRecOn generalizing last with
  | nil =>
      cases h
      exact hfirst
  | append_singleton done item ih =>
      obtain ⟨state, next, hstate, hnext⟩ := foldlM_split h
      have hdone : Known done state := ih (fun before other after state next hsplit =>
        hstep before other (after ++ [item]) state next (by simp [hsplit])) hstate
      rw [List.foldlM_append, hstate] at h
      obtain rfl : next = last := by
        simpa [hnext, bind, Except.bind, pure, Except.pure] using h
      exact hstep done item [] state next rfl hdone hnext

/-- Where nothing is repeated, the item of a step is none of those before it. -/
theorem fresh_of_split {items done rest : List α} {item : α} (hnodup : items.Nodup)
    (hsplit : items = done ++ item :: rest) : item ∉ done := by
  rw [hsplit] at hnodup
  exact fun hdone => (List.nodup_append.mp hnodup).2.2 item hdone item List.mem_cons_self rfl

/-- A loop over the same items with steps that agree on them. -/
theorem mapM_congr {items : List α} {f g : α → Except ε β} (h : ∀ item ∈ items, f item = g item) :
    items.mapM f = items.mapM g := by
  induction items with
  | nil => rfl
  | cons item rest ih =>
      rw [List.mapM_cons, List.mapM_cons, h item List.mem_cons_self,
        ih fun later hlater => h later (List.mem_cons_of_mem item hlater)]

/-- A result that, if it is an error, is one of those expected. -/
def FailsOnly (Expected : ε → Prop) (result : Except ε α) : Prop :=
  ∀ e, result = .error e → Expected e

namespace FailsOnly

variable {Expected Wider : ε → Prop}

theorem ok (a : α) : FailsOnly Expected (.ok a : Except ε α) :=
  fun _ h => nomatch h

theorem error {e : ε} (h : Expected e) : FailsOnly Expected (.error e : Except ε α) := by
  intro e' heq
  cases heq
  exact h

theorem mono {result : Except ε α} (hwider : ∀ e, Expected e → Wider e)
    (h : FailsOnly Expected result) : FailsOnly Wider result :=
  fun e heq => hwider e (h e heq)

theorem bind {x : Except ε α} {f : α → Except ε β} (hx : FailsOnly Expected x)
    (hf : ∀ a, FailsOnly Expected (f a)) : FailsOnly Expected (x >>= f) := by
  cases x with
  | error e => exact error (hx e rfl)
  | ok a => exact hf a

theorem map {x : Except ε α} (hx : FailsOnly Expected x) (f : α → β) :
    FailsOnly Expected (x.map f) := by
  cases x with
  | error e => exact error (hx e rfl)
  | ok a => exact ok (f a)

theorem mapM {items : List α} {f : α → Except ε β}
    (h : ∀ item ∈ items, FailsOnly Expected (f item)) : FailsOnly Expected (items.mapM f) := by
  induction items with
  | nil => exact ok []
  | cons item rest ih =>
      rw [List.mapM_cons]
      apply bind (h item List.mem_cons_self)
      intro value
      apply bind (ih fun later hlater => h later (List.mem_cons_of_mem item hlater))
      intro others
      exact ok (value :: others)

end FailsOnly

/-- The result of a program on a state, with the state it leaves. -/
def exec (program : ExceptT ε (StateM σ) α) (state : σ) : Except ε α × σ :=
  program.run.run state

@[simp]
theorem exec_pure (a : α) (state : σ) :
    exec (pure a : ExceptT ε (StateM σ) α) state = (.ok a, state) := rfl

@[simp]
theorem exec_throw (e : ε) (state : σ) :
    exec (throw e : ExceptT ε (StateM σ) α) state = (.error e, state) := rfl

@[simp]
theorem exec_get (state : σ) :
    exec (get : ExceptT ε (StateM σ) σ) state = (.ok state, state) := rfl

@[simp]
theorem exec_liftM (x : Except ε α) (state : σ) :
    exec (liftM x : ExceptT ε (StateM σ) α) state = (x, state) := by
  cases x with
  | error e => rfl
  | ok a => rfl

theorem exec_bind (x : ExceptT ε (StateM σ) α) (f : α → ExceptT ε (StateM σ) β) (state : σ) :
    exec (x >>= f) state =
      match exec x state with
      | (.ok a, next) => exec (f a) next
      | (.error e, next) => (.error e, next) := by
  simp only [exec]
  rw [ExceptT.run_bind, StateT.run_bind]
  generalize x.run.run state = result
  rcases result with ⟨e | a, next⟩
  · rfl
  · rfl

theorem exec_bind_ok {x : ExceptT ε (StateM σ) α} {f : α → ExceptT ε (StateM σ) β}
    {state next : σ} {a : α} (h : exec x state = (.ok a, next)) :
    exec (x >>= f) state = exec (f a) next := by
  rw [exec_bind, h]

theorem exec_bind_error {x : ExceptT ε (StateM σ) α} {f : α → ExceptT ε (StateM σ) β}
    {state next : σ} {e : ε} (h : exec x state = (.error e, next)) :
    exec (x >>= f) state = (.error e, next) := by
  rw [exec_bind, h]

theorem exec_bind_pure (x : ExceptT ε (StateM σ) α) (f : α → β) (state : σ) :
    exec (x >>= fun a => pure (f a)) state = ((exec x state).1.map f, (exec x state).2) := by
  rcases hrun : exec x state with ⟨e | a, next⟩
  · exact exec_bind_error hrun
  · exact exec_bind_ok hrun

theorem exec_forM_cons (step : α → ExceptT ε (StateM σ) PUnit) (item : α) (rest : List α)
    (state : σ) :
    exec ((item :: rest).forM step) state = exec (step item >>= fun _ => rest.forM step) state :=
  rfl

/-- A loop over the same items with programs that agree on them. -/
theorem forM_congr {items : List α} {f g : α → ExceptT ε (StateM σ) PUnit}
    (h : ∀ item ∈ items, f item = g item) : items.forM f = items.forM g := by
  induction items with
  | nil => rfl
  | cons item rest ih =>
      have hrest := ih fun later hlater => h later (List.mem_cons_of_mem item hlater)
      change (f item >>= fun _ => rest.forM f) = g item >>= fun _ => rest.forM g
      rw [h item List.mem_cons_self, hrest]

/-- A program whose errors are among those expected, from whatever state it starts. -/
def Throws (Expected : ε → Prop) (program : ExceptT ε (StateM σ) α) : Prop :=
  ∀ state, FailsOnly Expected (exec program state).1

namespace Throws

variable {Expected Wider : ε → Prop}

theorem pure (a : α) : Throws Expected (Pure.pure a : ExceptT ε (StateM σ) α) :=
  fun _ => .ok a

theorem throw {e : ε} (h : Expected e) :
    Throws Expected (MonadExcept.throw e : ExceptT ε (StateM σ) α) :=
  fun _ => .error h

theorem get : Throws Expected (MonadState.get : ExceptT ε (StateM σ) σ) :=
  fun state => .ok state

theorem change (f : σ → σ) : Throws Expected (modify f : ExceptT ε (StateM σ) PUnit) :=
  fun _ => .ok ()

theorem mono {program : ExceptT ε (StateM σ) α} (hwider : ∀ e, Expected e → Wider e)
    (h : Throws Expected program) : Throws Wider program :=
  fun state => (h state).mono hwider

theorem bind {x : ExceptT ε (StateM σ) α} {f : α → ExceptT ε (StateM σ) β}
    (hx : Throws Expected x) (hf : ∀ a, Throws Expected (f a)) : Throws Expected (x >>= f) := by
  intro state
  rcases hrun : exec x state with ⟨e | a, next⟩
  · rw [exec_bind_error hrun]
    exact .error (hx state e (congrArg Prod.fst hrun))
  · rw [exec_bind_ok hrun]
    exact hf a next

end Throws

/-- A program that leaves a part of the state as it is, whether it succeeds or not. -/
def Leaves {γ : Type} (part : σ → γ) (program : ExceptT ε (StateM σ) α) : Prop :=
  ∀ state, part (exec program state).2 = part state

namespace Leaves

variable {γ : Type} {part : σ → γ}

theorem pure (a : α) : Leaves part (Pure.pure a : ExceptT ε (StateM σ) α) :=
  fun _ => rfl

theorem throw (e : ε) : Leaves part (MonadExcept.throw e : ExceptT ε (StateM σ) α) :=
  fun _ => rfl

theorem get : Leaves part (MonadState.get : ExceptT ε (StateM σ) σ) :=
  fun _ => rfl

theorem change {f : σ → σ} (h : ∀ state, part (f state) = part state) :
    Leaves part (modify f : ExceptT ε (StateM σ) PUnit) :=
  h

theorem narrow {δ : Type} {program : ExceptT ε (StateM σ) α} (h : Leaves part program)
    (f : γ → δ) : Leaves (fun state => f (part state)) program :=
  fun state => congrArg f (h state)

theorem bind {x : ExceptT ε (StateM σ) α} {f : α → ExceptT ε (StateM σ) β} (hx : Leaves part x)
    (hf : ∀ a, Leaves part (f a)) : Leaves part (x >>= f) := by
  intro state
  have hfirst := hx state
  rcases hrun : exec x state with ⟨e | a, next⟩
  · rw [exec_bind_error hrun]
    rw [hrun] at hfirst
    exact hfirst
  · rw [exec_bind_ok hrun]
    rw [hrun] at hfirst
    exact (hf a next).trans hfirst

end Leaves

end Specialization

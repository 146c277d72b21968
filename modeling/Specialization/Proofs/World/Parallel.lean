import Mathlib.Data.Option.Basic
import Specialization.Proofs.World.Exact

/-!
Operations in two scenes that are alike. Two exact scenes are alike if the same classes are known in
them and the same carrier is ambient, up to numbers; the carriers and the values that they keep may
differ. An operation in one of them runs parallel to the same operation in the other one: both give
the same result up to numbers, or fail with the same error.
-/

namespace Specialization

theorem optionRel_mono {α β : Type} {Related Related' : α → β → Prop} {found : Option α}
    {found' : Option β} (h : Option.Rel Related found found')
    (himp : ∀ x y, Related x y → Related' x y) : Option.Rel Related' found found' := by
  cases h with
  | none => exact .none
  | some hrelated => exact .some (himp _ _ hrelated)

namespace Scene

/-- What is held in two scenes and seen as the same in them. -/
structure Same {α β : Type} (Held : Scene → α → Prop) (seen : α → β) (a b : Scene) (x y : α) :
    Prop where
  first : Held a x
  second : Held b y
  seen : seen x = seen y

theorem Same.option_iff {α β : Type} {Held : Scene → α → Prop} {seen : α → β} {a b : Scene}
    {found found' : Option α} : Option.Rel (Same Held seen a b) found found' ↔
      (∀ x, found = some x → Held a x) ∧ (∀ x, found' = some x → Held b x) ∧
        found.map seen = found'.map seen := by
  constructor
  · intro h
    cases h with
    | none => exact ⟨nofun, nofun, rfl⟩
    | some hsame =>
        refine ⟨?_, ?_, congrArg some hsame.seen⟩
        · rintro x ⟨⟩
          exact hsame.first
        · rintro x ⟨⟩
          exact hsame.second
  · rintro ⟨hfirst, hsecond, hseen⟩
    cases found with
    | none =>
        cases found' with
        | none => exact .none
        | some y => cases hseen
    | some x =>
        cases found' with
        | none => cases hseen
        | some y => exact .some ⟨hfirst x rfl, hsecond y rfl, Option.some.inj hseen⟩

abbrev SameClass (a b : Scene) : Class → Class → Prop :=
  Same (fun scene self => self ∈ scene.classes) Class.unnumbered a b

abbrev SameCarrier (a b : Scene) : Carrier → Carrier → Prop :=
  Same Knows Carrier.unnumbered a b

abbrev SameLocation (a b : Scene) : Location → Location → Prop :=
  Same (fun scene location => location.owner ∈ scene.classes) Location.unnumbered a b

section Same

variable {a b a' b' : Scene}

theorem SameClass.grow {self other : Class} (h : a.SameClass b self other) (hgrows : a.Grows a')
    (hgrows' : b.Grows b') : a'.SameClass b' self other :=
  ⟨hgrows.classes self h.first, hgrows'.classes other h.second, h.seen⟩

theorem SameCarrier.grow {carrier other : Carrier} (h : a.SameCarrier b carrier other)
    (hgrows : a.Grows a') (hgrows' : b.Grows b') : a'.SameCarrier b' carrier other :=
  ⟨h.first.grow hgrows, h.second.grow hgrows', h.seen⟩

theorem SameClass.location {self other : Class} (h : a.SameClass b self other) :
    a.SameLocation b (.ofClass self) (.ofClass other) :=
  ⟨h.first, h.second, congrArg Location.ofClass h.seen⟩

variable {carrier other : Carrier} (h : a.SameCarrier b carrier other)

include h

theorem SameCarrier.owner (ha : a.Sound) (hb : b.Sound) :
    a.SameClass b carrier.owner other.owner := by
  refine ⟨ha.owner carrier h.first, hb.owner other h.second, ?_⟩
  rw [← carrier.owner_unnumbered, h.seen, other.owner_unnumbered]

theorem SameCarrier.isClassLevel : carrier.isClassLevel = other.isClassLevel := by
  rw [← carrier.isClassLevel_unnumbered, h.seen, other.isClassLevel_unnumbered]

theorem SameCarrier.scope : carrier.scope = other.scope := by
  rw [← carrier.scope_unnumbered, h.seen, other.scope_unnumbered]

end Same

variable (host : Host) (vocabulary : Vocabulary)

structure Alike (a b : Scene) : Prop where
  first : a.Exact host vocabulary
  second : b.Exact host vocabulary
  functions : a.world.loader.functions = b.world.loader.functions
  config : a.world.store.config = b.world.store.config
  classes : ∀ descriptor, (a.world.loader.classes.lookup descriptor).map Class.unnumbered =
    (b.world.loader.classes.lookup descriptor).map Class.unnumbered
  ambient : a.world.ambient.carrier.map Carrier.unnumbered =
    b.world.ambient.carrier.map Carrier.unnumbered

/-- A scene grows to an exact one with the same setting. -/
structure Continues (scene next : Scene) : Prop where
  grows : scene.Grows next
  exact : next.Exact host vocabulary
  setting : next.world.setting = scene.world.setting

/-- An exact scene continues after an operation, whether that succeeds or not. -/
abbrev Steady {α : Type} (scene : Scene) (operation : Operation α) : Prop :=
  scene.Continues host vocabulary (scene.after operation)

/-- Two results that are related, or the same error twice. -/
inductive Outcome {ε α β : Type} (Related : α → β → Prop) : Except ε α → Except ε β → Prop
  | ok {x : α} {y : β} (h : Related x y) : Outcome Related (.ok x) (.ok y)
  | error (error : ε) : Outcome Related (.error error) (.error error)

/-- Two operations in two scenes keep these exact, and their results are related in the scenes that
they leave. -/
structure Parallel {α β : Type} (a b : Scene) (x : Operation α) (y : Operation β)
    (Related : Scene → Scene → α → β → Prop) : Prop where
  first : a.Steady host vocabulary x
  second : b.Steady host vocabulary y
  outcome : Outcome (Related (a.after x) (b.after y)) (a.result x) (b.result y)

variable {host vocabulary} {α β γ δ : Type} {a b : Scene}

section Outcome

variable {ε : Type}

theorem Outcome.mono {Related Related' : α → β → Prop} {x : Except ε α} {y : Except ε β}
    (h : Outcome Related x y)
    (himp : ∀ u v, x = .ok u → y = .ok v → Related u v → Related' u v) : Outcome Related' x y := by
  cases h with
  | ok hrelated => exact .ok (himp _ _ rfl rfl hrelated)
  | error error => exact .error error

theorem Outcome.map {Related : α → β → Prop} {Related' : γ → δ → Prop} {f : α → γ} {g : β → δ}
    {x : Except ε α} {y : Except ε β} (h : Outcome Related x y)
    (himp : ∀ u v, Related u v → Related' (f u) (g v)) : Outcome Related' (x.map f) (y.map g) := by
  cases h with
  | ok hrelated => exact .ok (himp _ _ hrelated)
  | error error => exact .error error

theorem Outcome.of_eq {Related : α → α → Prop} {x y : Except ε α} (h : x = y)
    (hrelated : ∀ u, y = .ok u → Related u u) : Outcome Related x y := by
  subst h
  cases x with
  | error error => exact .error error
  | ok u => exact .ok (hrelated u rfl)

theorem outcome_map {f : α → γ} {g : β → γ} {x : Except ε α} {y : Except ε β} :
    Outcome (fun u v => f u = g v) x y ↔ x.map f = y.map g := by
  constructor
  · rintro (hsame | error)
    · exact congrArg Except.ok hsame
    · rfl
  · intro h
    cases x with
    | error error =>
        cases y with
        | error error' =>
            cases h
            exact .error error
        | ok v => cases h
    | ok u =>
        cases y with
        | error error' => cases h
        | ok v => exact .ok (Except.ok.inj h)

end Outcome

theorem Continues.refl (h : a.Exact host vocabulary) : a.Continues host vocabulary a :=
  ⟨Grows.refl a, h, rfl⟩

theorem Continues.trans {next last : Scene} (h : a.Continues host vocabulary next)
    (h' : next.Continues host vocabulary last) : a.Continues host vocabulary last :=
  ⟨h.grows.trans h'.grows, h'.exact, h'.setting.trans h.setting⟩

/-- Scenes that continue in any way are still alike. -/
theorem Alike.later (h : a.Alike host vocabulary b) {a' b' : Scene}
    (ha : a.Continues host vocabulary a') (hb : b.Continues host vocabulary b') :
    a'.Alike host vocabulary b' := by
  have hsetting := ha.setting
  have hsetting' := hb.setting
  simp only [World.setting, Prod.mk.injEq] at hsetting hsetting'
  obtain ⟨hloader, hconfig, hambient⟩ := hsetting
  obtain ⟨hloader', hconfig', hambient'⟩ := hsetting'
  constructor
  case first => exact ha.exact
  case second => exact hb.exact
  case functions => rw [hloader, hloader', h.functions]
  case config => rw [hconfig, hconfig', h.config]
  case classes =>
    rw [hloader, hloader']
    exact h.classes
  case ambient => rw [hambient, hambient', h.ambient]

theorem Exact.alike (h : a.Exact host vocabulary) : a.Alike host vocabulary a :=
  ⟨h, h, rfl, rfl, fun _ => rfl, rfl⟩

theorem Steady.of_leaves (h : a.Exact host vocabulary) {x : Operation α} (hx : Leaves id x) :
    a.Steady host vocabulary x := by
  have hsame : a.after x = a := congrArg (fun world => { a with world }) (hx a.world)
  rw [Steady, hsame]
  exact .refl h

section Steady

variable {x : Operation α} {f : α → Operation β}

theorem Steady.bind_error (h : a.Steady host vocabulary x) {error : Error}
    (hx : a.result x = .error error) : a.Steady host vocabulary (x >>= f) := by
  rw [Steady, after_bind_error hx]
  exact h

theorem Steady.bind_ok (h : a.Steady host vocabulary x) {u : α} (hx : a.result x = .ok u)
    (hnext : (a.after x).Steady host vocabulary (f u)) : a.Steady host vocabulary (x >>= f) := by
  rw [Steady, after_bind_ok hx]
  exact h.trans hnext

end Steady

namespace Parallel

variable {Related : Scene → Scene → α → β → Prop} {x : Operation α} {y : Operation β}

theorem alike (h : Parallel host vocabulary a b x y Related) (halike : a.Alike host vocabulary b) :
    (a.after x).Alike host vocabulary (b.after y) :=
  halike.later h.first h.second

theorem congr {x' : Operation α} {y' : Operation β} (hx : exec x a.world = exec x' a.world)
    (hy : exec y b.world = exec y' b.world)
    (h : Parallel host vocabulary a b x' y' Related) :
    Parallel host vocabulary a b x y Related := by
  obtain ⟨⟨hgrows, hexact, hsetting⟩, ⟨hgrows', hexact', hsetting'⟩, houtcome⟩ := h
  rw [Scene.after, ← hx] at hgrows hexact hsetting houtcome
  rw [Scene.after, ← hy] at hgrows' hexact' hsetting'
  rw [Scene.result, Scene.result, Scene.after, ← hx, ← hy] at houtcome
  exact ⟨⟨hgrows, hexact, hsetting⟩, ⟨hgrows', hexact', hsetting'⟩, houtcome⟩

theorem pure (halike : a.Alike host vocabulary b) {u : α} {v : β} (h : Related a b u v) :
    Parallel host vocabulary a b (Pure.pure u) (Pure.pure v) Related where
  first := .of_leaves halike.first (Leaves.pure u)
  second := .of_leaves halike.second (Leaves.pure v)
  outcome := .ok h

theorem throw (halike : a.Alike host vocabulary b) (error : Error) :
    Parallel host vocabulary a b (MonadExcept.throw error) (MonadExcept.throw error) Related where
  first := .of_leaves halike.first (Leaves.throw error)
  second := .of_leaves halike.second (Leaves.throw error)
  outcome := .error error

theorem lift (halike : a.Alike host vocabulary b) (result : Except Error α) :
    Parallel host vocabulary a b (liftExcept result) (liftExcept result)
      fun _ _ u v => u = v := by
  cases result with
  | error error => exact throw halike error
  | ok u => exact pure halike rfl

theorem get {k : World → Operation α} {k' : World → Operation β}
    (h : Parallel host vocabulary a b (k a.world) (k' b.world) Related) :
    Parallel host vocabulary a b (MonadState.get >>= k) (MonadState.get >>= k') Related :=
  h.congr (exec_bind_ok (exec_get a.world)) (exec_bind_ok (exec_get b.world))

theorem mono {Related' : Scene → Scene → α → β → Prop}
    (h : Parallel host vocabulary a b x y Related)
    (himp : ∀ a' b' u v, Related a' b' u v → Related' a' b' u v) :
    Parallel host vocabulary a b x y Related' :=
  ⟨h.first, h.second, h.outcome.mono fun u v _ _ => himp _ _ u v⟩

/-- The second operations start from scenes that are alike again, with results that are related. -/
theorem bind {Related' : Scene → Scene → γ → δ → Prop} {f : α → Operation γ} {g : β → Operation δ}
    (halike : a.Alike host vocabulary b) (h : Parallel host vocabulary a b x y Related)
    (hnext : ∀ a' b' u v, a.Grows a' → b.Grows b' → a'.Alike host vocabulary b' →
      Related a' b' u v → Parallel host vocabulary a' b' (f u) (g v) Related') :
    Parallel host vocabulary a b (x >>= f) (y >>= g) Related' := by
  have hafter := h.alike halike
  obtain ⟨hfirst, hsecond, houtcome⟩ := h
  generalize hx : a.result x = found at houtcome
  generalize hy : b.result y = found' at houtcome
  cases houtcome with
  | error error =>
      refine ⟨hfirst.bind_error hx, hsecond.bind_error hy, ?_⟩
      rw [result_bind_error hx, result_bind_error hy]
      exact .error error
  | ok hrelated =>
      obtain ⟨hfirst', hsecond', houtcome'⟩ :=
        hnext _ _ _ _ hfirst.grows hsecond.grows hafter hrelated
      refine ⟨hfirst.bind_ok hx hfirst', hsecond.bind_ok hy hsecond', ?_⟩
      rw [result_bind_ok hx, result_bind_ok hy, after_bind_ok hx, after_bind_ok hy]
      exact houtcome'

theorem map {Related' : Scene → Scene → γ → δ → Prop} {f : α → γ} {g : β → δ}
    (halike : a.Alike host vocabulary b) (h : Parallel host vocabulary a b x y Related)
    (himp : ∀ a' b' u v, a'.Alike host vocabulary b' → Related a' b' u v →
      Related' a' b' (f u) (g v)) :
    Parallel host vocabulary a b (x >>= fun u => Pure.pure (f u))
      (y >>= fun v => Pure.pure (g v)) Related' :=
  bind halike h fun a' b' u v _ _ halike hrelated => .pure halike (himp a' b' u v halike hrelated)

end Parallel

end Scene

end Specialization

import Specialization.Proofs.World.Change

/-!
Operations whose success settles their result. Such an operation, once it has succeeded, succeeds
with the same result at every later time: whatever it had to make or to look up is there, and is
not replaced. Sequences of such operations are such operations.
-/

namespace Specialization

namespace Scene

variable {α β : Type} {scene base : Scene}

/-- The scene that an operation leaves, whether it succeeds or not. -/
def after (scene : Scene) (operation : Operation α) : Scene :=
  { scene with world := (exec operation scene.world).2 }

def result (scene : Scene) (operation : Operation α) : Except Error α :=
  (exec operation scene.world).1

section Sequences

variable {x : Operation α} {f : α → Operation β} {a : α} {error : Error}

theorem result_bind_ok (h : scene.result x = .ok a) :
    scene.result (x >>= f) = (scene.after x).result (f a) := by
  rw [result, exec_bind_ok (Prod.ext h rfl)]
  rfl

theorem after_bind_ok (h : scene.result x = .ok a) :
    scene.after (x >>= f) = (scene.after x).after (f a) := by
  rw [after, exec_bind_ok (Prod.ext h rfl)]
  rfl

theorem result_bind_error (h : scene.result x = .error error) :
    scene.result (x >>= f) = .error error := by
  rw [result, exec_bind_error (Prod.ext h rfl)]

theorem after_bind_error (h : scene.result x = .error error) :
    scene.after (x >>= f) = scene.after x := by
  rw [after, exec_bind_error (Prod.ext h rfl)]
  rfl

theorem result_bind_pure (g : α → β) :
    scene.result (x >>= fun a => pure (g a)) = (scene.result x).map g :=
  congrArg Prod.fst (exec_bind_pure x g scene.world)

theorem result_liftExcept (y : Except Error α) : scene.result (liftExcept y) = y := by
  cases y with
  | error error => rfl
  | ok a => rfl

theorem result_bind_lift (g : α → Except Error β) :
    scene.result (x >>= fun a => liftExcept (g a)) = (scene.result x).bind g := by
  cases hresult : scene.result x with
  | error error => exact result_bind_error hresult
  | ok a => rw [result_bind_ok hresult, result_liftExcept, Except.bind]

theorem failsOnly_bind {Expected : Error → Prop} (hx : FailsOnly Expected (scene.result x))
    (hf : ∀ a, scene.result x = .ok a → FailsOnly Expected ((scene.after x).result (f a))) :
    FailsOnly Expected (scene.result (x >>= f)) := by
  cases hresult : scene.result x with
  | error error =>
      rw [result_bind_error hresult]
      exact .error (hx error hresult)
  | ok a =>
      rw [result_bind_ok hresult]
      exact hf a hresult

end Sequences

/-- An operation lets a scene grow, and what it promises of its result holds where it succeeds. -/
structure Safe (scene : Scene) (operation : Operation α) (promise : Scene → α → Prop) : Prop where
  grows : scene.Grows (scene.after operation)
  holds : ∀ a, scene.result operation = .ok a → promise (scene.after operation) a

theorem Safe.bind {x : Operation α} {f : α → Operation β} {middle : Scene → α → Prop}
    {promise : Scene → β → Prop} (hx : scene.Safe x middle)
    (hf : ∀ a, scene.Grows (scene.after x) → middle (scene.after x) a →
      (scene.after x).Safe (f a) promise) :
    scene.Safe (x >>= f) promise := by
  cases hresult : scene.result x with
  | error error =>
      refine ⟨by rw [after_bind_error hresult]; exact hx.grows, ?_⟩
      intro b hb
      rw [result_bind_error hresult] at hb
      cases hb
  | ok a =>
      have hnext := hf a hx.grows (hx.holds a hresult)
      refine ⟨by rw [after_bind_ok hresult]; exact hx.grows.trans hnext.grows, ?_⟩
      intro b hb
      rw [result_bind_ok hresult] at hb
      rw [after_bind_ok hresult]
      exact hnext.holds b hb

theorem Safe.pure {promise : Scene → α → Prop} {a : α} (h : promise scene a) :
    scene.Safe (Pure.pure a) promise := by
  refine ⟨Grows.refl scene, ?_⟩
  rintro b ⟨⟩
  exact h

/-- What is known of the result of an operation is known of what is made of it. -/
theorem Safe.map {x : Operation α} {promise : Scene → α → Prop} {promise' : Scene → β → Prop}
    (hx : scene.Safe x promise) {g : α → β}
    (hg : ∀ scene a, promise scene a → promise' scene (g a)) :
    scene.Safe (x >>= fun a => Pure.pure (g a)) promise' :=
  hx.bind fun a _ ha => .pure (hg _ a ha)

/-- From a scene on, an operation is safe, and where it succeeds it does so for good. -/
structure Settled (base : Scene) (operation : Operation α) (promise : Scene → α → Prop) :
    Prop where
  safe : ∀ scene, base.Grows scene → scene.Safe operation promise
  settles : ∀ scene a, base.Grows scene → scene.result operation = .ok a →
    ∀ later, (scene.after operation).Grows later → later.result operation = .ok a

namespace Settled

variable {promise : Scene → α → Prop}

section Here

variable {operation : Operation α} (h : base.Settled operation promise)

include h

theorem here : base.Safe operation promise :=
  h.safe base (Grows.refl base)

theorem grows : base.Grows (base.after operation) :=
  h.here.grows

theorem holds {a : α} (ha : base.result operation = .ok a) : promise (base.after operation) a :=
  h.here.holds a ha

theorem again {a : α} (ha : base.result operation = .ok a) {later : Scene}
    (hlater : (base.after operation).Grows later) : later.result operation = .ok a :=
  h.settles base a (Grows.refl base) ha later hlater

end Here

theorem of_forall {operation : Operation α} (h : ∀ scene, base.Grows scene →
    scene.Grows (scene.after operation) ∧ ∀ a, scene.result operation = .ok a →
      promise (scene.after operation) a ∧
        ∀ later, (scene.after operation).Grows later → later.result operation = .ok a) :
    base.Settled operation promise where
  safe scene hscene := ⟨(h scene hscene).1, fun a ha => ((h scene hscene).2 a ha).1⟩
  settles scene a hscene ha := ((h scene hscene).2 a ha).2

theorem pure {a : α} (h : ∀ scene, base.Grows scene → promise scene a) :
    base.Settled (pure a) promise where
  safe scene hscene := Safe.pure (h scene hscene)
  settles _ _ _ hresult _ _ := hresult

theorem fail (error : Error) : base.Settled (throw error) promise where
  safe scene _ := ⟨Grows.refl scene, fun _ h => nomatch h⟩
  settles _ _ _ h _ _ := nomatch h

theorem liftExcept (x : Except Error α) :
    base.Settled (liftExcept x) fun _ a => x = .ok a := by
  cases x with
  | error error => exact fail error
  | ok a => exact pure fun scene _ => rfl

theorem mono {weaker : Scene → α → Prop} {operation : Operation α}
    (h : base.Settled operation promise)
    (hweaker : ∀ scene a, base.Grows scene → promise scene a → weaker scene a) :
    base.Settled operation weaker where
  safe scene hscene :=
    ⟨(h.safe scene hscene).grows, fun a ha => hweaker _ a
      (hscene.trans (h.safe scene hscene).grows) ((h.safe scene hscene).holds a ha)⟩
  settles := h.settles

/-- The first of two operations is repeated before the second, and gives what it gave, so the second
is repeated on the same input. -/
theorem bind {x : Operation α} {f : α → Operation β} {promise' : Scene → β → Prop}
    (hx : base.Settled x promise)
    (hf : ∀ scene a, base.Grows scene → promise scene a → scene.Settled (f a) promise') :
    base.Settled (x >>= f) promise' where
  safe scene hscene := by
    have hfirst := hx.safe scene hscene
    apply hfirst.bind
    intro a _ ha
    exact (hf _ a (hscene.trans hfirst.grows) ha).here
  settles scene b hscene hresult later hlater := by
    have hfirst := hx.safe scene hscene
    cases hfound : scene.result x with
    | error error =>
        rw [result_bind_error hfound] at hresult
        cases hresult
    | ok a =>
        rw [result_bind_ok hfound] at hresult
        rw [after_bind_ok hfound] at hlater
        have hsecond := hf _ a (hscene.trans hfirst.grows) (hfirst.holds a hfound)
        have hsince : (scene.after x).Grows later := hsecond.grows.trans hlater
        have hagain : later.result x = .ok a :=
          hx.settles scene a hscene hfound later hsince
        rw [result_bind_ok hagain]
        have hbase := (hscene.trans hfirst.grows).trans hsince
        exact hsecond.again hresult (hlater.trans (hx.safe later hbase).grows)

/-- A part of the world that never changes may be read first. -/
theorem read {γ : Type} {operation : Operation α} (p : World → γ) (k : γ → Operation α)
    (hrun : ∀ world, exec operation world = exec (k (p world)) world)
    (hsame : ∀ scene, base.Grows scene → p scene.world = p base.world)
    (hk : base.Settled (k (p base.world)) promise) : base.Settled operation promise := by
  have hequal : ∀ scene, base.Grows scene →
      exec operation scene.world = exec (k (p base.world)) scene.world := by
    intro scene hscene
    rw [hrun, hsame scene hscene]
  apply of_forall
  intro scene hscene
  have hsafe := hk.safe scene hscene
  simp only [after, result, hequal scene hscene] at hsafe ⊢
  refine ⟨hsafe.grows, fun a ha => ⟨hsafe.holds a ha, ?_⟩⟩
  intro later hlater
  rw [hequal later ((hscene.trans hsafe.grows).trans hlater)]
  exact hk.settles scene a hscene ha later hlater

/-- So may a look-up whose success is kept, if its failure is a failure of the operation. -/
theorem lookup {γ : Type} {operation : Operation α} {error : Error} (p : World → Option γ)
    (k : γ → Operation α)
    (hnone : ∀ world, p world = none → exec operation world = (.error error, world))
    (hsome : ∀ world c, p world = some c → exec operation world = exec (k c) world)
    (hkept : ∀ scene later c, base.Grows scene → scene.Grows later → p scene.world = some c →
      p later.world = some c)
    (hk : ∀ scene c, base.Grows scene → p scene.world = some c → scene.Settled (k c) promise) :
    base.Settled operation promise := by
  apply of_forall
  intro scene hscene
  cases hfound : p scene.world with
  | none =>
      simp only [after, result, hnone scene.world hfound]
      exact ⟨Grows.refl scene, fun a ha => nomatch ha⟩
  | some c =>
      have hsettled := hk scene c hscene hfound
      have hsafe := hsettled.here
      simp only [after, result, hsome scene.world c hfound] at hsafe ⊢
      refine ⟨hsafe.grows, fun a ha => ⟨hsafe.holds a ha, ?_⟩⟩
      intro later hlater
      have hsince := hsafe.grows.trans hlater
      rw [hsome later.world c (hkept scene later c hscene hsince hfound)]
      exact hsettled.again ha hlater

/-- An operation that keeps what it makes settles, if it finds what is kept and what is kept is not
replaced. -/
theorem kept {operation : Operation α} (p : World → Option α)
    (hkept : ∀ (scene later : Scene) (a : α), scene.Grows later → p scene.world = some a →
      p later.world = some a)
    (hfound : ∀ (scene : Scene) (a : α), p scene.world = some a →
      scene.result operation = .ok a ∧ scene.Grows (scene.after operation))
    (hmade : ∀ scene, base.Grows scene → p scene.world = none →
      scene.Grows (scene.after operation) ∧
        ∀ a, scene.result operation = .ok a → p (scene.after operation).world = some a)
    (hpromise : ∀ scene a, base.Grows scene → p scene.world = some a → promise scene a) :
    base.Settled operation promise := by
  apply of_forall
  intro scene hscene
  have hheld : scene.Grows (scene.after operation) ∧
      ∀ a, scene.result operation = .ok a → p (scene.after operation).world = some a := by
    cases hknown : p scene.world with
    | none => exact hmade scene hscene hknown
    | some b =>
        obtain ⟨hresult, hgrows⟩ := hfound scene b hknown
        refine ⟨hgrows, fun a ha => ?_⟩
        rw [hresult] at ha
        cases ha
        exact hkept scene _ b hgrows hknown
  obtain ⟨hgrows, hholds⟩ := hheld
  refine ⟨hgrows, fun a ha => ⟨hpromise _ a (hscene.trans hgrows) (hholds a ha), ?_⟩⟩
  intro later hlater
  exact (hfound later a (hkept _ later a hlater (hholds a ha))).1

end Settled

end Scene

end Specialization

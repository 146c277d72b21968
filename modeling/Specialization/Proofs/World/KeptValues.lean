import Specialization.Proofs.Evaluation.Sharing
import Specialization.Proofs.World.Run

/-!
What a class keeps of its constants is exact. Whatever was read before, under whatever scopes and
carriers and with whatever failures, a read gives what a new evaluator without any cache gives, and
each value that is kept is the one that such an evaluator gives.
-/

namespace Specialization

variable (host : Host) (functions : Registry)

namespace Class

/-- What a new evaluator gives, which has no link cache. -/
def evaluateAnew (self : Class) (constant : String) (scope : Scope) : Except ConstantError Value :=
  (exec ((self.evaluator host functions scope).evaluate constant) {}).1

variable {self : Class}

/-- Every value in a list of shared values is exact under every scope. -/
def SharesExact (self : Class) (acyclic : self.analysis.Acyclic) (link : Values) : Prop :=
  ∀ scope, (self.evaluator host functions scope).Linked acyclic link

theorem evaluateAnew_exact (haccepted : self.analysis.Accepted) (acyclic : self.analysis.Acyclic)
    {constant : String} (hdeclared : self.analysis.contains constant) (scope : Scope) :
    self.evaluateAnew host functions constant scope =
      (self.evaluator host functions scope).meaning acyclic constant :=
  Evaluator.evaluateAnew_eq haccepted hdeclared

/-- A read on exact values gives what a new evaluator gives, and the values stay exact. -/
theorem evaluate_exact (haccepted : self.analysis.Accepted) {acyclic : self.analysis.Acyclic}
    {world : World} (h : self.SharesExact host functions acyclic (world.valuesOf self).link)
    (constant : String) (scope : Scope) :
    let outcome := exec (self.evaluate host functions constant scope) world
    outcome.1 = (self.evaluateAnew host functions constant scope).mapError .constants ∧
      self.SharesExact host functions acyclic (outcome.2.valuesOf self).link := by
  let evaluator := self.evaluator host functions scope
  rcases hrun : exec (evaluator.evaluate constant) { cache := some (world.valuesOf self).link }
    with ⟨result, pass⟩
  have hexec := exec_evaluate host functions self constant scope world hrun
  have hpass : result = self.evaluateAnew host functions constant scope ∧
      evaluator.Exact acyclic pass := by
    have hstart : evaluator.Exact acyclic { cache := some (world.valuesOf self).link } := by
      refine ⟨fun _ _ h => (nomatch h), ?_⟩
      rintro cache ⟨⟩
      exact h scope
    by_cases hdeclared : self.analysis.contains constant
    · have hexact := Evaluator.evaluate_exact haccepted hdeclared hstart
      rw [hrun] at hexact
      exact ⟨hexact.1.trans (evaluateAnew_exact host functions haccepted acyclic hdeclared
        scope).symm, hexact.2⟩
    · have hfails : ∀ pass, exec (evaluator.evaluate constant) pass =
          (.error (.unresolvedReference evaluator.analysis.descriptor constant), pass) :=
        Evaluator.evaluate_undeclared hdeclared
      rw [hfails] at hrun
      cases hrun
      exact ⟨(congrArg Prod.fst (hfails {})).symm, hstart⟩
  obtain ⟨hresult, hexact⟩ := hpass
  have hgrown := Evaluator.evaluate_grows evaluator constant
    { cache := some (world.valuesOf self).link }
  rw [hrun] at hgrown
  obtain ⟨link, hlink, _⟩ := hgrown.cache _ rfl
  dsimp only at hlink
  rw [hlink, Option.getD_some] at hexec
  intro outcome
  simp only [outcome, hexec, hresult, World.valuesOf_setValues, if_true, true_and]
  exact fun later => (hexact.cache link hlink).under haccepted later

/-- What is kept is exact: the shared values are, and a value under a carrier is the one that a new
evaluator gives under the carrier of that number. -/
structure KeepsExact (owner : Class) (acyclic : owner.analysis.Acyclic) (Known : Carrier → Prop)
    (values : ClassValues) : Prop where
  link : owner.SharesExact host functions acyclic values.link
  accessors : ∀ entry ∈ values.accessors, ∃ carrier, Known carrier ∧ carrier.id = entry.1.1 ∧
    owner.evaluateAnew host functions entry.1.2 carrier.scope = .ok entry.2

theorem KeepsExact.evaluate {acyclic : self.analysis.Acyclic} {Known : Carrier → Prop}
    {world : World} (h : self.KeepsExact host functions acyclic Known (world.valuesOf self))
    (haccepted : self.analysis.Accepted) (constant : String) (scope : Scope) :
    let outcome := exec (self.evaluate host functions constant scope) world
    outcome.1 = (self.evaluateAnew host functions constant scope).mapError .constants ∧
      self.KeepsExact host functions acyclic Known (outcome.2.valuesOf self) := by
  intro outcome
  obtain ⟨hresult, hlink⟩ := evaluate_exact host functions haccepted h.link constant scope
  refine ⟨hresult, hlink, ?_⟩
  rw [accessors_evaluate]
  exact h.accessors

/-- What is kept under a carrier is what a new evaluator gives under it, since no other carrier has
its number. -/
theorem KeepsExact.keptValue {acyclic : self.analysis.Acyclic} {Known : Carrier → Prop}
    {world : World} (h : self.KeepsExact host functions acyclic Known (world.valuesOf self))
    (haccepted : self.analysis.Accepted)
    (hids : ∀ a b, Known a → Known b → a.id = b.id → a = b) (constant : String)
    {carrier : Carrier} (hcarrier : Known carrier) :
    let outcome := exec (self.keptValue host functions constant carrier) world
    outcome.1 = (self.evaluateAnew host functions constant carrier.scope).mapError .constants ∧
      self.KeepsExact host functions acyclic Known (outcome.2.valuesOf self) := by
  intro outcome
  cases hfound : (world.valuesOf self).accessors.lookup (carrier.id, constant) with
  | some value =>
      have hexec := exec_keptValue_of_some host functions hfound
      obtain ⟨other, hother, hid, hvalue⟩ := h.accessors _ (mem_of_lookup hfound)
      obtain rfl := hids other carrier hother hcarrier hid
      simp only [outcome, hexec, hvalue]
      exact ⟨rfl, h⟩
  | none =>
      have hexec := exec_keptValue_of_none host functions hfound
      obtain ⟨hresult, hkept⟩ := h.evaluate host functions haccepted constant carrier.scope
      rcases hread : exec (self.evaluate host functions constant carrier.scope) world with
        ⟨error | value, next⟩
      · rw [hread] at hresult hkept
        rw [exec_bind_error hread] at hexec
        simp only [outcome, hexec]
        exact ⟨hresult, hkept⟩
      · rw [hread] at hresult hkept
        rw [exec_bind_ok hread] at hexec
        have hvalue : self.evaluateAnew host functions constant carrier.scope = .ok value :=
          mapError_eq_ok.mp hresult.symm
        have hnext : outcome = (.ok value, next.setValues self { next.valuesOf self with
            accessors := ((carrier.id, constant), value) :: (next.valuesOf self).accessors }) :=
          hexec
        rw [hnext, World.valuesOf_setValues, if_pos rfl]
        refine ⟨hresult, hkept.link, ?_⟩
        intro entry hentry
        rcases List.mem_cons.mp hentry with rfl | hold
        · exact ⟨carrier, hcarrier, rfl, hvalue⟩
        · exact hkept.accessors entry hold

/-- A read of a constant of a class. -/
inductive Read where
  | evaluate (constant : String) (scope : Scope)
  | accessor (constant : String) (carrier : Carrier)

namespace Read

def carrier? : Read → Option Carrier
  | .evaluate _ _ => none
  | .accessor _ carrier => some carrier

def operation (self : Class) : Read → Operation Value
  | .evaluate constant scope => self.evaluate host functions constant scope
  | .accessor constant carrier => self.accessorValue host functions constant carrier

/-- The same read by a new evaluator, once the carrier is checked. -/
def anew (self : Class) : Read → Operation Value
  | .evaluate constant scope =>
    Operation.ofConstants (self.evaluateAnew host functions constant scope)
  | .accessor constant carrier => do
    self.checkCarrier constant carrier
    Operation.ofConstants (self.evaluateAnew host functions constant carrier.scope)

end Read

theorem KeepsExact.read {acyclic : self.analysis.Acyclic} {Known : Carrier → Prop}
    {world : World} (h : self.KeepsExact host functions acyclic Known (world.valuesOf self))
    (haccepted : self.analysis.Accepted)
    (hids : ∀ a b, Known a → Known b → a.id = b.id → a = b) (read : Read)
    (hread : ∀ carrier, read.carrier? = some carrier → Known carrier) :
    let outcome := exec (read.operation host functions self) world
    outcome.1 = (exec (read.anew host functions self) world).1 ∧
      self.KeepsExact host functions acyclic Known (outcome.2.valuesOf self) := by
  intro outcome
  cases read with
  | evaluate constant scope =>
      obtain ⟨hresult, hkept⟩ := h.evaluate host functions haccepted constant scope
      refine ⟨?_, hkept⟩
      rw [Read.anew, exec_ofConstants]
      exact hresult
  | accessor constant carrier =>
      obtain ⟨checked, hcheck⟩ := exec_checkCarrier self constant carrier
      have hanew : exec (Read.anew host functions self (.accessor constant carrier)) world =
          exec (self.checkCarrier constant carrier >>= fun _ =>
            Operation.ofConstants (self.evaluateAnew host functions constant carrier.scope))
              world := rfl
      have houtcome : outcome = exec (self.checkCarrier constant carrier >>= fun _ =>
          self.keptValue host functions constant carrier) world := rfl
      rw [houtcome, hanew]
      cases checked with
      | error error =>
          rw [exec_bind_error (hcheck world), exec_bind_error (hcheck world)]
          exact ⟨rfl, h⟩
      | ok checked =>
          rw [exec_bind_ok (hcheck world), exec_bind_ok (hcheck world), exec_ofConstants]
          exact h.keptValue host functions haccepted hids constant (hread carrier rfl)

/-- The worlds of a run of reads of one class: the world in which it was loaded, those after reads,
under carriers that are known, and those after anything else that leaves what the class keeps. -/
inductive ReadRun (self : Class) (Known : Carrier → Prop) (loaded : World) : World → Prop
  | loaded : ReadRun self Known loaded loaded
  | read {world : World} (hrun : ReadRun self Known loaded world) (read : Read)
      (hread : ∀ carrier, read.carrier? = some carrier → Known carrier) :
      ReadRun self Known loaded (exec (read.operation host functions self) world).2
  | elsewhere {world next : World} (hrun : ReadRun self Known loaded world)
      (hsame : next.valuesOf self = world.valuesOf self) : ReadRun self Known loaded next

theorem ReadRun.keepsExact {acyclic : self.analysis.Acyclic} {Known : Carrier → Prop}
    {loaded world : World} (hrun : ReadRun host functions self Known loaded world)
    (haccepted : self.analysis.Accepted)
    (hids : ∀ a b, Known a → Known b → a.id = b.id → a = b)
    (hloaded : loaded.valuesOf self = {}) :
    self.KeepsExact host functions acyclic Known (world.valuesOf self) := by
  induction hrun with
  | loaded =>
      rw [hloaded]
      exact ⟨fun _ _ h => (nomatch h), fun _ h => (nomatch h)⟩
  | read _ read hread ih => exact (ih.read host functions haccepted hids read hread).2
  | elsewhere _ hsame ih =>
      rw [hsame]
      exact ih

/-- A class that was just loaded keeps nothing, and its analysis accepts what it declares. -/
theorem of_load {scene : Scene} (hsound : scene.Sound) {spec : ClassSpec}
    {superclass : Option Class} (hload : scene.result (load spec superclass) = .ok self) :
    self.analysis.Accepted ∧ (scene.after (load spec superclass)).world.valuesOf self = {} := by
  refine ⟨accepted_of_load hload, ?_⟩
  have hexec := exec_load spec superclass scene.world
  cases hdefinition : Definition.ofSpec scene.world.nextClass spec with
  | error error =>
      rw [hdefinition] at hexec
      rw [Scene.result, hexec] at hload
      cases hload
  | ok definition =>
      rw [hdefinition] at hexec
      rw [Scene.result, hexec] at hload
      cases hload
      rw [Scene.after, hexec]
      exact hsound.valuesOf_new (Definition.of_ofSpec hdefinition).1

/-- Reads of a loaded class, under carriers that are told apart by their numbers, give what a new
evaluator without caches gives. Whatever is shared belongs to constants fixed at link time and is
their value under every scope; whatever is kept under a carrier is the value under it. -/
theorem read_eq_anew {start : Scene} (hstart : start.Reachable host) {spec : ClassSpec}
    {superclass : Option Class} (hload : start.result (load spec superclass) = .ok self)
    {Known : Carrier → Prop} (hids : ∀ a b, Known a → Known b → a.id = b.id → a = b)
    {world : World} (hrun : ReadRun host functions self Known
      (start.after (load spec superclass)).world world) :
    (∀ read : Read, (∀ carrier, read.carrier? = some carrier → Known carrier) →
      (exec (read.operation host functions self) world).1 =
        (exec (read.anew host functions self) world).1) ∧
    (∀ entry ∈ (world.valuesOf self).link, self.analysis.root? entry.1 = some .constant ∧
      ∀ scope, self.evaluateAnew host functions entry.1 scope = .ok entry.2) ∧
    ∀ entry ∈ (world.valuesOf self).accessors, ∃ carrier, Known carrier ∧
      carrier.id = entry.1.1 ∧
        self.evaluateAnew host functions entry.1.2 carrier.scope = .ok entry.2 := by
  obtain ⟨haccepted, hloaded⟩ := of_load hstart.sound hload
  have hexact : self.KeepsExact host functions haccepted.acyclic Known (world.valuesOf self) :=
    hrun.keepsExact host functions haccepted hids hloaded
  refine ⟨?_, ?_, hexact.accessors⟩
  · exact fun read hread => (hexact.read host functions haccepted hids read hread).1
  · intro entry hentry
    refine ⟨(hexact.link .unbound entry hentry).1, fun scope => ?_⟩
    have hvalue := (hexact.link scope entry hentry).2
    rw [evaluateAnew_exact host functions haccepted haccepted.acyclic
      (Evaluator.contains_of_value hvalue) scope]
    exact Evaluator.meaning_of_value hvalue

/-- A box with a label that is fixed at link time, and a constant that is read for each carrier. -/
def labelledBox : ClassSpec where
  descriptor := "Box"
  defaults := ["Object"]
  anchors := [{ name := "T", level := .ofClass }]
  constants := [
    { name := "T", action := "anchor" },
    { name := "label", action := "literal", operands := [.string "box"] },
    { name := "labelled", action := "list", operands := [.ref "label", .ref "T"] }]

def boxClass : Class :=
  ((Scene.start {} .standard).loadClass labelledBox none).classes.head (List.cons_ne_nil _ _)

def boxCarrier (id : Nat) (element : Descriptor) : Carrier :=
  .synthesize id (.ofClass boxClass) (.type element) none

/-- A read that fails for want of parameters shares the label all the same. Then the constant is
kept for one carrier, and reads for another do not find it. -/
theorem read_labelledBox :
    ∃ (host : Host) (world : World),
      (world.valuesOf boxClass).link.map (·.1) = ["label"] ∧
        (world.valuesOf boxClass).accessors.map (·.1) = [(1, "labelled")] ∧
        (∀ entry ∈ (world.valuesOf boxClass).link, ∀ scope,
          boxClass.evaluateAnew host .standard entry.1 scope = .ok entry.2) ∧
        let labelled (carrier : Carrier) : Except Error Value :=
          (exec (boxClass.accessorValue host .standard "labelled" carrier) world).1
        labelled (boxCarrier 1 "Integer") = .ok (.list [.string "box", .type "Integer"]) ∧
          labelled (boxCarrier 2 "String") = .ok (.list [.string "box", .type "String"]) := by
  let host : Host := fun _ _ => .error "absent"
  let start : Scene := .start {} .standard
  let integers : Carrier := boxCarrier 1 "Integer"
  let strings : Carrier := boxCarrier 2 "String"
  let Known (carrier : Carrier) : Prop := carrier = integers ∨ carrier = strings
  let after (world : World) (read : Read) : World :=
    (exec (read.operation host .standard boxClass) world).2
  let failed := after (start.after (load labelledBox none)).world (.evaluate "labelled" .unbound)
  let last := after failed (.accessor "labelled" integers)
  have hstart : start.Reachable host := ⟨{}, .standard, .refl⟩
  have hload : start.result (load labelledBox none) = .ok boxClass := rfl
  have hids : ∀ a b, Known a → Known b → a.id = b.id → a = b := by
    rintro a b (rfl | rfl) (rfl | rfl) hid
    · rfl
    · cases hid
    · cases hid
    · rfl
  have hintegers : ∀ carrier, some integers = some carrier → Known carrier :=
    fun _ h => Or.inl (Option.some.inj h).symm
  have hstrings : ∀ carrier, some strings = some carrier → Known carrier :=
    fun _ h => Or.inr (Option.some.inj h).symm
  have hfailed : ReadRun host .standard boxClass Known _ failed :=
    .read .loaded (.evaluate "labelled" .unbound) nofun
  have hrun : ReadRun host .standard boxClass Known _ last :=
    .read hfailed (.accessor "labelled" integers) hintegers
  obtain ⟨hreads, hlink, _⟩ := read_eq_anew host .standard hstart hload hids hrun
  refine ⟨host, last, rfl, rfl, ?_, ?_, ?_⟩
  · exact fun entry hentry => (hlink entry hentry).2
  · exact (hreads (.accessor "labelled" integers) hintegers).trans rfl
  · exact (hreads (.accessor "labelled" strings) hstrings).trans rfl

end Class

end Specialization

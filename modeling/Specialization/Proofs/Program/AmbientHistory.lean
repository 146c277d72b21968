import Specialization.Proofs.Program.Failure

/-!
What a read of a marked constant depends on. A program may mark constants and read them, make
carriers ambient and restore others, define classes and do anything else in between, and some of
that may fail. A read still takes the mark, leaves alone what else is ambient, and gives what the
last mark, the known classes and the ambient carrier determine. What earlier reads have kept and
which carriers have been made on the way does not matter.

Carriers are found by their parameters, and these are compared by the names of functions. So all
functions in a program have to be told apart by their names.
-/

namespace Specialization

variable {host : Host} {vocabulary : Vocabulary}

/-- An operation to which it does not matter what is ambient does not change it either. -/
theorem Disguise.leaves_ambient {α : Type} {f : α → α} {operation : Operation α}
    (h : ∀ ambient, (Disguise.under ambient).Mirrors f operation operation) :
    Leaves World.ambient operation :=
  fun world => congrArg (fun outcome => outcome.2.ambient) (h world.ambient world)

section Ambient

open Disguise

variable (host)

theorem leaves_ambient_resolve (location : Location) (requested : Option Value) :
    Leaves World.ambient (resolve location requested) :=
  leaves_ambient fun _ => mirrors_resolve location requested

theorem leaves_ambient_supertypeCarrierNamed (carrier : Carrier) (descriptor : Descriptor) :
    Leaves World.ambient (supertypeCarrierNamed host carrier descriptor) := by
  have hclimb (ambient : Ambient) : (Disguise.under ambient).Mirrors (Option.map id)
      (supertypeCarrierNamed host carrier descriptor)
      (supertypeCarrierNamed host carrier descriptor) :=
    mirrors_supertypeCarrierNamed host carrier descriptor
  exact leaves_ambient hclimb

theorem leaves_ambient_readIn (descriptor : Descriptor) (constant : String)
    (current : Option Carrier) :
    Leaves World.ambient (readIn host descriptor constant current) := by
  have hread (ambient : Ambient) : (Disguise.under ambient).Mirrors id
      (readIn host descriptor constant current) (readIn host descriptor constant current) := by
    cases current with
    | none => exact mirrors_readIn host descriptor constant none
    | some carrier => exact mirrors_readIn host descriptor constant (some carrier)
  exact leaves_ambient hread

/-- A read takes the mark, whether it succeeds or not, and changes nothing else of what is
ambient. -/
theorem ambient_resolveAmbientConstant (world : World) :
    (exec (resolveAmbientConstant host) world).2.ambient =
      { world.ambient with inFlight := none } := by
  cases hmarked : world.ambient.inFlight with
  | none =>
      have htake := exec_takeInFlight_of_none hmarked
      rw [resolveAmbientConstant, exec_bind_error htake, World.unmarked]
  | some marked =>
      rw [exec_resolve_marked host hmarked, leaves_ambient_readIn host, World.unmarked]

theorem InlineCache.ambient_invoke {κ : Type} [GuardKey κ] (cache : InlineCache κ) (key : κ)
    (arguments : List Value) {resolve : Operation Target} (hresolve : Leaves World.ambient resolve)
    (world : World) :
    ((cache.invoke host key arguments resolve).run world).2.ambient = world.ambient := by
  rw [run_invoke]
  cases cache.find? key with
  | some link => rfl
  | none =>
      have hafter := hresolve world
      rcases hrun : exec resolve world with ⟨error | target, next⟩ <;> rw [hrun] at hafter <;>
        exact hafter

end Ambient

/-- What is marked needs no carrier: it is not declared, or its value is fixed at link time. -/
def World.FixedAtLink (world : World) (marked : Option (Descriptor × String)) : Prop :=
  ∀ descriptor constant self, marked = some (descriptor, constant) →
    world.loader.classes.lookup descriptor = some self →
      self.analysis.needsAccessor constant = false

/-- The same classes are known, up to their numbers. -/
def World.SameClasses (world other : World) : Prop :=
  ∀ descriptor, (world.loader.classes.lookup descriptor).map Class.unnumbered =
    (other.loader.classes.lookup descriptor).map Class.unnumbered

theorem World.FixedAtLink.congr {world other : World} {marked : Option (Descriptor × String)}
    (h : world.FixedAtLink marked) (hclasses : world.SameClasses other) :
    other.FixedAtLink marked := by
  intro descriptor constant self hmarked hself
  have hview := hclasses descriptor
  rw [hself, Option.map_some, Option.map_eq_some_iff] at hview
  obtain ⟨known, hknown, hsame⟩ := hview
  rw [← Class.analysis_of_unnumbered hsame]
  exact h descriptor constant known hmarked hknown

variable (host) in
/-- A constant that needs no carrier is read in the same way under any and under none. -/
theorem exec_readIn_of_fixed {world : World} {descriptor : Descriptor} {constant : String}
    (hfixed : world.FixedAtLink (some (descriptor, constant))) (current : Option Carrier) :
    exec (readIn host descriptor constant current) world =
      exec (readIn host descriptor constant none) world := by
  unfold readIn
  cases hself : world.loader.classes.lookup descriptor with
  | none =>
      have hfind := exec_findClass_of_none hself
      rw [exec_bind_error hfind, exec_bind_error hfind]
  | some self =>
      have hfunctions : exec Operation.functions world = (.ok world.loader.functions, world) := rfl
      rw [exec_bind_ok (exec_findClass hself), exec_bind_ok (exec_findClass hself),
        exec_bind_ok hfunctions, exec_bind_ok hfunctions]
      simp only [hfixed descriptor constant self rfl hself, Bool.false_eq_true, if_false]

/-- The world while another carrier is ambient, or none. -/
def World.under (world : World) (current : Option Carrier) : World :=
  { world with ambient := { world.ambient with carrier := current } }

variable (host) in
/-- A read of a constant that needs no carrier gives the same whatever carrier is ambient. -/
theorem result_of_fixed {world : World} (hfixed : world.FixedAtLink world.ambient.inFlight)
    (current : Option Carrier) :
    (exec (resolveAmbientConstant host) (world.under current)).1 =
      (exec (resolveAmbientConstant host) world).1 := by
  let other := world.under current
  change (exec (resolveAmbientConstant host) other).1 = _
  cases hmarked : world.ambient.inFlight with
  | none =>
      have hmarked' : other.ambient.inFlight = none := hmarked
      rw [resolveAmbientConstant, exec_bind_error (exec_takeInFlight_of_none hmarked),
        exec_bind_error (exec_takeInFlight_of_none hmarked')]
  | some marked =>
      have hmarked' : other.ambient.inFlight = some marked := hmarked
      rw [hmarked] at hfixed
      have hunmarked : world.unmarked.FixedAtLink (some marked) := hfixed
      have hunmarked' : other.unmarked.FixedAtLink (some marked) := hfixed
      let disguise : Disguise := .under other.unmarked.ambient
      have hread := disguise.mirrors_readIn host marked.1 marked.2 none world.unmarked
      calc (exec (resolveAmbientConstant host) other).1
          = (exec (readIn host marked.1 marked.2 none) other.unmarked).1 := by
            rw [exec_resolve_marked host hmarked', exec_readIn_of_fixed host hunmarked']
        _ = (exec (readIn host marked.1 marked.2 none) world.unmarked).1.map id :=
            congrArg Prod.fst hread
        _ = (exec (resolveAmbientConstant host) world).1 := by
            rw [Except.map_id, exec_resolve_marked host hmarked,
              exec_readIn_of_fixed host hunmarked world.ambient.carrier, id]

/-- The functions in the values of a command are of a vocabulary. -/
def Command.CoveredBy (vocabulary : Vocabulary) : Command → Prop
  | .request _ asked => asked.CoveredBy vocabulary
  | _ => True

/-- What is marked after a command. -/
def Command.marks : Command → Option (Descriptor × String) → Option (Descriptor × String)
  | .request _ (.mark descriptor constant), _ => some (descriptor, constant)
  | .request _ .read, _ => none
  | _, marked => marked

theorem Command.marks_of_standsAlone {name : String} {asked : Request} (h : asked.standsAlone)
    (marked : Option (Descriptor × String)) :
    Command.marks (.request name asked) marked = marked := by
  cases asked with
  | mark descriptor constant => cases h
  | read => cases h
  | _ => rfl

namespace Session

/-- The constant that was marked last, unless it has been read since. -/
def pending (commands : List Command) : Option (Descriptor × String) :=
  commands.foldl (fun marked command => command.marks marked) none

variable (host) in
/-- A session after a sequence of commands. -/
def after (session : Session) (commands : List Command) : Session :=
  commands.foldl (fun session command => (session.step host command).2) session

theorem leaves_on {γ : Type} {part : World → γ} (session : Session) {kind : ItemKind}
    {name : String} {act : kind.Content → Operation Answer}
    (hact : ∀ content, Leaves part (act content)) : Leaves part (session.on kind name act) := by
  rw [on]
  cases session.get? kind name with
  | some content => exact hact content
  | none => exact Leaves.pure _

open Disguise in
/-- Only marks and reads change what is marked. -/
theorem leaves_inFlight_operation (session : Session) {request : Request}
    (halone : request.standsAlone) :
    Leaves (fun world => world.ambient.inFlight) (session.operation host request) := by
  have hkeeps {α : Type} {operation : Operation α} (h : Leaves World.ambient operation)
      (answer : α → Answer) : Leaves (fun world => world.ambient.inFlight)
        (operation >>= fun found => pure (answer found)) :=
    (h.narrow Ambient.inFlight).bind fun _ => .pure _
  cases request with
  | mark descriptor constant => cases halone
  | read => cases halone
  | define spec => exact hkeeps (leaves_ambient fun _ => mirrors_define spec) _
  | find descriptor => exact hkeeps (leaves_ambient fun _ => mirrors_findClass descriptor) _
  | carrier owner requested =>
      exact session.leaves_on fun self =>
        hkeeps (leaves_ambient_resolve (.ofClass self) requested) _
  | methodCarrier owner classParameters signature requested =>
      exact session.leaves_on fun self =>
        hkeeps (leaves_ambient_resolve (.ofMethod self classParameters signature) requested) _
  | instantiate descriptor requested =>
      refine hkeeps (Leaves.bind ?_ fun self => Leaves.bind ?_ fun carrier => .pure _) _
      · exact leaves_ambient fun _ => mirrors_findClass descriptor
      · exact leaves_ambient_resolve (.ofClass self) requested
  | specialize carrier => exact session.leaves_on fun known => .pure _
  | plain owner => exact session.leaves_on fun self => .pure _
  | carrierOf object => exact session.leaves_on fun self => .pure _
  | link request => exact hkeeps (leaves_ambient fun _ => mirrors_link request) _
  | supertype carrier ancestor =>
      exact session.leaves_on fun known =>
        hkeeps (leaves_ambient_supertypeCarrierNamed host known ancestor) _
  | enter carrier => exact session.leaves_on fun known => fun _ => rfl
  | exit guard => exact session.leaves_on fun entered => fun _ => rfl
  | site owner constant adaptation restrictions => exact session.leaves_on fun self => .pure _
  | receiverSite method adaptation => exact .pure _

theorem step_mark (session : Session) (name : String) (descriptor : Descriptor)
    (constant : String) :
    (session.step host (.request name (.mark descriptor constant))).2 =
      { session with world := (exec (markInFlight descriptor constant) session.world).2 } :=
  rfl

theorem step_read (session : Session) (name : String) :
    (session.step host (.request name .read)).2 =
      { session with world := (exec (resolveAmbientConstant host) session.world).2 } := by
  simp only [step, exec_read]
  cases (exec (resolveAmbientConstant host) session.world).1 <;> rfl

open Disguise in
theorem inFlight_step (session : Session) (command : Command) :
    (session.step host command).2.world.ambient.inFlight =
      command.marks session.world.ambient.inFlight := by
  cases command with
  | request name asked =>
      by_cases halone : asked.standsAlone
      · rw [Command.marks_of_standsAlone halone]
        exact session.leaves_inFlight_operation halone session.world
      · cases asked with
        | mark descriptor constant => rfl
        | read =>
            rw [step_read]
            exact congrArg Ambient.inFlight (ambient_resolveAmbientConstant host session.world)
        | _ => exact absurd rfl halone
  | call name key arguments =>
      simp only [step]
      cases session.get? .site name with
      | none => rfl
      | some site =>
          cases session.get? .carrier key with
          | none => rfl
          | some carrier =>
              have hresolve (ambient : Ambient) : (Disguise.under ambient).Mirrors id
                  (site.resolve host carrier) (site.resolve host carrier) :=
                mirrors_specialized host site carrier
              exact congrArg Ambient.inFlight (site.cache.ambient_invoke host carrier arguments
                (leaves_ambient hresolve) session.world)
  | dispatch name key arguments =>
      simp only [step]
      cases session.get? .receiverSite name with
      | none => rfl
      | some site =>
          cases session.get? .object key with
          | none => rfl
          | some receiver =>
              have hresolve (ambient : Ambient) : (Disguise.under ambient).Mirrors id
                  (site.resolve host receiver) (site.resolve host receiver) :=
                mirrors_receiver host site rfl (congrFun Option.map_id _).symm
              exact congrArg Ambient.inFlight (site.cache.ambient_invoke host
                (ReceiverGuard.of receiver) arguments (leaves_ambient hresolve) session.world)

/-- What is marked in a session is what is pending of its commands. -/
theorem inFlight_after (config : Config) (functions : Registry) (commands : List Command) :
    ((start config functions).after host commands).world.ambient.inFlight = pending commands := by
  rw [after, pending]
  have hrun : ∀ session : Session,
      (commands.foldl (fun session command => (session.step host command).2)
        session).world.ambient.inFlight =
      commands.foldl (fun marked command => command.marks marked)
        session.world.ambient.inFlight := by
    induction commands with
    | nil => exact fun _ => rfl
    | cons command rest ih =>
        intro session
        rw [List.foldl_cons, List.foldl_cons, ih, inFlight_step]
  exact hrun (start config functions)

variable {session session' : Session} {a b : Scene}

/-- Sessions that match and in which the same is marked match again after the same command. -/
theorem Matches.step (h : session.Matches host vocabulary session' a b) (hmark : a.SameMark b)
    {command : Command} (hcovers : command.CoveredBy vocabulary) :
    ∃ a' b', a.Grows a' ∧ b.Grows b' ∧
      (session.step host command).2.Matches host vocabulary (session'.step host command).2
        a' b' := by
  cases command with
  | call name key arguments =>
      obtain ⟨⟨a', b', hanswered, hnext⟩, _⟩ := h.call name key arguments
      rw [← (perform_commands host session _).1, ← (perform_commands host session' _).1] at hnext
      exact ⟨a', b', hanswered.grows, hanswered.grows', hnext⟩
  | dispatch name key arguments =>
      obtain ⟨⟨a', b', hanswered, hnext⟩, _⟩ := h.dispatch name key arguments
      rw [← (perform_commands host session _).1, ← (perform_commands host session' _).1] at hnext
      exact ⟨a', b', hanswered.grows, hanswered.grows', hnext⟩
  | request name asked =>
      by_cases halone : asked.standsAlone
      · obtain ⟨a', b', hanswered, hnext⟩ := h.request name halone hcovers
        exact ⟨a', b', hanswered.grows, hanswered.grows', hnext⟩
      · cases asked with
        | mark descriptor constant =>
            have hmarked := Scene.parallel_mark h.alike descriptor constant
            have hnext := h.later hmarked.first.grows hmarked.second.grows (hmarked.alike h.alike)
            refine ⟨_, _, hmarked.first.grows, hmarked.second.grows, ?_⟩
            rw [step_mark, step_mark, ← h.world, ← h.world']
            exact hnext
        | read =>
            have hread := Scene.parallel_resolveAmbientConstant h.alike hmark
            have hnext := h.later hread.first.grows hread.second.grows (hread.alike h.alike)
            refine ⟨_, _, hread.first.grows, hread.second.grows, ?_⟩
            rw [step_read, step_read, ← h.world, ← h.world']
            exact hnext
        | _ => exact absurd rfl halone

/-- The scene of a session is exact after any sequence of commands. -/
theorem exact_after (config : Config) {functions : Registry}
    (hclosed : vocabulary.Closed host functions) {commands : List Command}
    (hcovered : ∀ command ∈ commands, command.CoveredBy vocabulary) :
    ∃ scene : Scene, scene.world = ((start config functions).after host commands).world ∧
      scene.Exact host vocabulary ∧ (Scene.start config functions).Grows scene := by
  have hrun : ∀ (session : Session) (a b : Scene), session.Matches host vocabulary session a b →
      ∃ a' b', a.Grows a' ∧
        (session.after host commands).Matches host vocabulary (session.after host commands)
          a' b' := by
    induction commands with
    | nil => exact fun session a b h => ⟨a, b, .refl a, h⟩
    | cons command rest ih =>
        intro session a b h
        obtain ⟨hcommand, hrest⟩ := List.forall_mem_cons.mp hcovered
        have hmark : a.SameMark b := by rw [Scene.SameMark, h.world, h.world']
        obtain ⟨a', b', hgrows, _, hnext⟩ := h.step hmark hcommand
        obtain ⟨a'', b'', hlater, hlast⟩ := ih hrest _ a' b' hnext
        exact ⟨a'', b'', hgrows.trans hlater, hlast⟩
  obtain ⟨a, b, hgrows, hmatches⟩ := hrun _ _ _ (start_matches config hclosed)
  exact ⟨a, hmatches.world, hmatches.alike.first, hgrows⟩

theorem read_eq_of_alike (halike : a.Alike host vocabulary b) (hmark : a.SameMark b) :
    (exec (resolveAmbientConstant host) a.world).1 =
      (exec (resolveAmbientConstant host) b.world).1 := by
  have houtcome := (Scene.parallel_resolveAmbientConstant halike hmark).outcome
  rw [Scene.result, Scene.result] at houtcome
  generalize (exec (resolveAmbientConstant host) a.world).1 = value at houtcome ⊢
  generalize (exec (resolveAmbientConstant host) b.world).1 = value' at houtcome ⊢
  cases houtcome with
  | ok hsame => rw [hsame]
  | error error => rfl

/-- Exact scenes that started in the same way are alike if the same classes are known and the same
carrier is ambient. -/
theorem alike_of_start {config : Config} {functions : Registry} (ha : a.Exact host vocabulary)
    (hb : b.Exact host vocabulary) (hgrows : (Scene.start config functions).Grows a)
    (hgrows' : (Scene.start config functions).Grows b) (hclasses : a.world.SameClasses b.world)
    (hambient : a.world.ambient.carrier.map Carrier.unnumbered =
      b.world.ambient.carrier.map Carrier.unnumbered) : a.Alike host vocabulary b where
  first := ha
  second := hb
  functions := hgrows.world.functions.trans hgrows'.world.functions.symm
  config := hgrows.world.config.trans hgrows'.world.config.symm
  classes := hclasses
  ambient := hambient

/-- A constant that needs no carrier is read with the same result whatever is ambient in the two
scenes: without any carrier these are alike. -/
theorem read_eq_of_fixed {config : Config} {functions : Registry} (ha : a.Exact host vocabulary)
    (hb : b.Exact host vocabulary) (hgrows : (Scene.start config functions).Grows a)
    (hgrows' : (Scene.start config functions).Grows b) (hclasses : a.world.SameClasses b.world)
    (hmark : a.SameMark b) (hfixed : a.world.FixedAtLink a.world.ambient.inFlight) :
    (exec (resolveAmbientConstant host) a.world).1 =
      (exec (resolveAmbientConstant host) b.world).1 := by
  let bare (scene : Scene) : Scene := { scene with world := scene.world.under none }
  have hbare : (bare a).Alike host vocabulary (bare b) :=
    alike_of_start (ha.withAmbient nofun) (hb.withAmbient nofun)
      (hgrows.trans (.of_ambient _ nofun)) (hgrows'.trans (.of_ambient _ nofun)) hclasses rfl
  have hfixed' : b.world.FixedAtLink b.world.ambient.inFlight := hmark ▸ hfixed.congr hclasses
  calc (exec (resolveAmbientConstant host) a.world).1
      = (exec (resolveAmbientConstant host) (bare a).world).1 :=
        (result_of_fixed host hfixed none).symm
    _ = (exec (resolveAmbientConstant host) (bare b).world).1 := read_eq_of_alike hbare hmark
    _ = (exec (resolveAmbientConstant host) b.world).1 := result_of_fixed host hfixed' none

/-- A read after any program. Without a mark since the last read it fails. In any case nothing is
marked afterwards, and the same carrier is ambient. What is read is the same after any other program
that leaves the same mark, the same classes and the same ambient carrier, up to numbers, and for a
constant fixed at link time it does not matter which carrier is ambient. -/
theorem read_eq_of_pending {functions : Registry} (hclosed : vocabulary.Closed host functions)
    (config : Config) {history other : List Command}
    (hcovered : ∀ command ∈ history, command.CoveredBy vocabulary)
    (hcovered' : ∀ command ∈ other, command.CoveredBy vocabulary) :
    let here := ((start config functions).after host history).world
    let there := ((start config functions).after host other).world
    let read (world : World) := exec (resolveAmbientConstant host) world
    (pending history = none → (read here).1 = .error .noConstantInFlight) ∧
    (read here).2.ambient = { here.ambient with inFlight := none } ∧
    (pending history = pending other → here.SameClasses there →
      here.ambient.carrier.map Carrier.unnumbered = there.ambient.carrier.map Carrier.unnumbered ∨
        here.FixedAtLink (pending history) →
      (read here).1 = (read there).1) := by
  intro here there read
  have hmark : here.ambient.inFlight = pending history := inFlight_after config functions history
  have hmark' : there.ambient.inFlight = pending other := inFlight_after config functions other
  refine ⟨fun hnone => ?_, ambient_resolveAmbientConstant host here, ?_⟩
  · have htake := exec_takeInFlight_of_none (hmark.trans hnone)
    have hread : read here = _ := exec_bind_error htake
    rw [hread]
  · intro hpending hclasses hambient
    obtain ⟨a, hworld, hexact, hgrows⟩ := exact_after config hclosed hcovered
    obtain ⟨b, hworld', hexact', hgrows'⟩ := exact_after config hclosed hcovered'
    have hsame : here.ambient.inFlight = there.ambient.inFlight :=
      hmark.trans (hpending.trans hmark'.symm)
    rw [← hmark] at hambient
    change a.world = here at hworld
    change b.world = there at hworld'
    clear_value here there
    subst hworld hworld'
    rcases hambient with hambient | hfixed
    · exact read_eq_of_alike (alike_of_start hexact hexact' hgrows hgrows' hclasses hambient) hsame
    · exact read_eq_of_fixed hexact hexact' hgrows hgrows' hclasses hsame hfixed

/-- A class in the middle adds two numbers with the function that it is applied to. A leaf maps its
supertype to the class in the middle, applied to a function that the leaf names. A carrier is made
for the class in the middle with a function that is given, and then the sum is read while a carrier
of the leaf is ambient. -/
def summingCommands : List Command := [
  .request "middle" (.define {
    descriptor := "Middle"
    defaults := ["Object"]
    anchors := [{ name := "T", level := .ofClass }]
    constants := [
      { name := "T", action := "anchor" },
      { name := "added", action := "species_params", operands := [.ref "T"] },
      { name := "sum", action := "eval", operands := [.ref "added", .int 1, .int 2] }] }),
  .request "leaf" (.define {
    descriptor := "Leaf"
    superclass := some "Middle"
    defaults := ["Object"]
    constants := [
      { name := "add", action := "function", operands := [.function "int.add"] },
      { name := "inner", action := "species", operands := [.type "Adder", .ref "add"] },
      { name := "applied", action := "species", operands := [.type "Middle", .ref "inner"] },
      { name := "above", action := "super", operands := [.ref "applied"] }] }),
  .request "below" (.carrier "leaf" none),
  .request "given" (.carrier "middle"
    (some (.species "Adder" (.function ⟨"int.add", 2, .intAdd⟩ [])))),
  .request "entered" (.enter "below"),
  .request "" (.mark "Middle" "sum")]

/-- The function that is given is the one that the leaf names, so it does not matter that a carrier
was made for it. -/
theorem read_summing :
    let host : Host := fun _ _ => .error "absent"
    let read (commands : List Command) : Except Error Value × World :=
      exec (resolveAmbientConstant host) ((start {} .standard).after host commands).world
    (read summingCommands).1 = (read (summingCommands.eraseIdx 3)).1 ∧
      told ((read summingCommands).1.map .value) = .inr (some 3) ∧
      (read []).1 = .error .noConstantInFlight := by
  intro host read
  have hclosed : standardVocabulary.Closed host .standard := by
    constructor
    · exact fun _ _ hfound => List.mem_of_find?_eq_some hfound
    · rintro index arguments value _ ⟨⟩
  have hgiven : standardVocabulary.Covers
      (.species "Adder" (.function ⟨"int.add", 2, .intAdd⟩ [])) := ⟨List.mem_cons_self, trivial⟩
  have hcovered : ∀ command ∈ summingCommands, command.CoveredBy standardVocabulary := by
    simp only [summingCommands, List.forall_mem_cons]
    exact ⟨trivial, trivial, Vocabulary.coversOption_none, Vocabulary.coversOption_some hgiven,
      trivial, trivial, List.forall_mem_nil _⟩
  have hcovered' : ∀ command ∈ summingCommands.eraseIdx 3,
      command.CoveredBy standardVocabulary :=
    fun command hcommand => hcovered command (List.mem_of_mem_eraseIdx hcommand)
  obtain ⟨_, _, hsame⟩ := read_eq_of_pending hclosed {} hcovered hcovered'
  obtain ⟨hunmarked, _, _⟩ := read_eq_of_pending hclosed {} (List.forall_mem_nil _) hcovered
  exact ⟨hsame rfl (fun _ => rfl) (.inl rfl), by decide +kernel, hunmarked rfl⟩

/-- Where the leaf names another function of the same name, it is seen in a read that a carrier was
made earlier: the read finds that carrier for the function of the leaf, and it holds the other
one. -/
theorem earlier_carrier_is_seen :
    ¬ ∀ (host : Host) (config : Config) (functions : Registry) (history other : List Command),
      let here := ((start config functions).after host history).world
      let there := ((start config functions).after host other).world
      pending history = pending other → here.SameClasses there →
        here.ambient.carrier.map Carrier.unnumbered =
          there.ambient.carrier.map Carrier.unnumbered →
        (exec (resolveAmbientConstant host) here).1 =
          (exec (resolveAmbientConstant host) there).1 := by
  intro h
  have hsame := h returningLast {} (Registry.standard.register ⟨"int.add", 3, .host 0⟩)
    summingCommands (summingCommands.eraseIdx 3) rfl (fun _ => rfl) rfl
  have htold := congrArg (fun found : Except Error Value => told (found.map .value)) hsame
  exact absurd htold (by decide +kernel)

end Session

end Specialization

import Specialization.Proofs.Program.Standing
import Specialization.Proofs.World.Mapping
import Specialization.Proofs.World.Resemblance

/-!
Programs that forget. What is remembered of supertypes is never stale, so a program in which all of
it is forgotten now and then reports what it reports without that, but for how often a carrier was
found in the store.
-/

namespace Specialization

/-- A command, or a moment at which all that is remembered of supertypes is forgotten. -/
inductive Event where
  | command (command : Command)
  | forget

def Event.command? : Event → Option Command
  | .command issued => some issued
  | .forget => none

/-- A report without the count of carriers that were found. -/
def Report.uncounted (report : Report) : Report :=
  { report with hits := 0 }

namespace Session

variable (host : Host)

def forget (session : Session) : Session :=
  { session with world := session.world.withMemo [] session.world.store.hits }

/-- The reports of a program that forgets. -/
def reportsForgetting (session : Session) : List Event → List Report
  | [] => []
  | .forget :: rest => session.forget.reportsForgetting rest
  | .command command :: rest =>
    let (report, next) := session.step host command
    report :: next.reportsForgetting rest

variable {host} {first second session : Session} {scene : Scene}

/-- What a request does depends on what the variables hold, and on nothing else of a session. -/
theorem operation_congr (host : Host) (h : second.bindings = first.bindings) (request : Request) :
    second.operation host request = first.operation host request := by
  obtain ⟨world, bindings⟩ := first
  obtain ⟨world', bindings'⟩ := second
  obtain rfl : bindings' = bindings := h
  cases request <;> rfl

theorem get?_congr (h : second.bindings = first.bindings) (kind : ItemKind) (name : String) :
    second.get? kind name = first.get? kind name := by
  rw [get?, get?, h]

theorem Stands.oblivious_on (h : session.Stands scene) {kind : ItemKind} {name : String}
    {act : kind.Content → Operation Answer}
    (hact : ∀ content, kind.Known scene content → scene.Oblivious host (act content)) :
    scene.Oblivious host (session.on kind name act) := by
  rw [on]
  cases hcontent : session.get? kind name with
  | some content => exact hact content (h.known hcontent)
  | none => exact .pure _

/-- A request that defines no class is answered in the same way, whatever is remembered. -/
theorem Stands.oblivious_operation (h : session.Stands scene) (hscene : scene.Memoizing host)
    {request : Request} (hrequest : ∀ spec, request ≠ .define spec) :
    scene.Oblivious host (session.operation host request) := by
  have hthen : ∀ {α : Type} {x : Operation α} {f : α → Answer}, scene.Oblivious host x →
      scene.Oblivious host (x >>= fun a => pure (f a)) :=
    fun hx => Scene.Oblivious.bind hscene hx fun _ _ _ _ => .pure _
  cases request with
  | define spec => exact absurd rfl (hrequest spec)
  | find descriptor => exact hthen (Scene.oblivious_findClass hscene descriptor)
  | carrier owner requested =>
      exact h.oblivious_on fun self hself =>
        hthen (Scene.oblivious_resolve hscene (.ofClass self) hself requested)
  | methodCarrier owner classParameters signature requested =>
      exact h.oblivious_on fun self hself =>
        hthen (Scene.oblivious_resolve hscene (.ofMethod self classParameters signature) hself
          requested)
  | instantiate descriptor requested =>
      exact hthen (Scene.oblivious_instantiate hscene descriptor requested)
  | specialize carrier => exact h.oblivious_on fun _ _ => .pure _
  | plain owner => exact h.oblivious_on fun _ _ => .pure _
  | carrierOf object => exact h.oblivious_on fun _ _ => .pure _
  | link request => exact hthen (Scene.oblivious_link hscene request)
  | supertype carrier ancestor =>
      exact h.oblivious_on fun known hknown =>
        hthen (Scene.oblivious_supertypeCarrierNamed hscene hknown ancestor)
  | enter carrier =>
      exact h.oblivious_on fun known hknown => hthen (Scene.oblivious_enter hscene hknown)
  | exit guard =>
      exact h.oblivious_on fun entered hentered => hthen (Scene.oblivious_exit hscene hentered)
  | mark descriptor constant => exact hthen (Scene.oblivious_mark hscene descriptor constant)
  | read => exact hthen (Scene.oblivious_resolveAmbientConstant hscene)
  | site owner constant adaptation restrictions => exact h.oblivious_on fun _ _ => .pure _
  | receiverSite method adaptation => exact .pure _

variable (host) in
/-- Two sessions whose variables hold the same, and whose worlds are the same but for what they
remember of supertypes. -/
structure Resembles (first second : Session) : Prop where
  bindings : second.bindings = first.bindings
  scenes : ∃ a b : Scene, first.Stands a ∧ second.Stands b ∧ a.Resembles host b

/-- What is told of two such sessions is the same. -/
theorem Resembles.report (h : first.Resembles host second) (answer : Except Error Answer)
    (relinks : Option Nat) :
    (second.report answer relinks).uncounted = (first.report answer relinks).uncounted := by
  obtain ⟨a, b, ha, hb, hscenes⟩ := h.scenes
  obtain ⟨supertypes, hits, hworld⟩ := hscenes.world
  rw [ha.world, hb.world] at hworld
  rw [Session.report, Session.report, hworld]
  rfl

/-- A request is answered in the same way in both sessions, and leads to two scenes that differ in
what they remember only. -/
theorem Stands.operation_resembles {a b : Scene} (ha : first.Stands a) (hb : second.Stands b)
    (hscenes : a.Resembles host b) (hbindings : second.bindings = first.bindings)
    (request : Request) :
    (exec (second.operation host request) second.world).1 =
        (exec (first.operation host request) first.world).1 ∧
      (first.answered host a request).Resembles host (second.answered host b request) := by
  rw [← ha.world, ← hb.world]
  by_cases hrequest : ∃ spec, request = .define spec
  · obtain ⟨spec, rfl⟩ := hrequest
    obtain ⟨hresult, hdefined⟩ := hscenes.defineClass spec
    have hanswer : ∀ session : Session, ∀ scene : Scene,
        scene.result (session.operation host (.define spec)) =
          (scene.result (Specialization.define spec)).map fun self => .item ⟨.ofClass, self⟩ :=
      fun _ _ => Scene.result_bind_pure _
    have hsame := hanswer second b
    rw [hresult, ← hanswer first a] at hsame
    exact ⟨hsame, hdefined⟩
  · have hother : ∀ spec, request ≠ .define spec := fun spec heq => hrequest ⟨spec, heq⟩
    rw [answered_of_ne host hother, answered_of_ne host hother, operation_congr host hbindings]
    exact (ha.oblivious_operation hscenes.first hother).agrees b hscenes

/-- A call through the same cache is reported in the same way, and leaves the same cache. -/
theorem Resembles.call {ι κ : Type} [GuardKey κ] {resolver : Resolver ι κ} {input : ι}
    {arguments : List Value} {cache : InlineCache κ} {a b : Scene} (hscenes : a.Resembles host b)
    (hbindings : second.bindings = first.bindings)
    (hresolve : a.Oblivious host (resolver.resolve input)) (name : String)
    (used : InlineCache κ → Item) :
    let outcome (scene : Scene) := resolver.call host arguments cache input scene.world
    let next (session : Session) (scene : Scene) : Session :=
      { world := (outcome scene).2
        bindings := (name, used (outcome scene).1.2) :: session.bindings }
    let told (session : Session) (scene : Scene) : Report :=
      (next session scene).report ((outcome scene).1.1.map .value)
        (some (outcome scene).1.2.relinks)
    (next first a).Stands { a with world := (outcome a).2 } →
      (next second b).Stands { b with world := (outcome b).2 } →
      (told second b).uncounted = (told first a).uncounted ∧
        (next first a).Resembles host (next second b) := by
  intro outcome next told hstands hstands'
  obtain ⟨hresult, hafter⟩ := hresolve.call arguments cache hscenes
  have hsame : (outcome b).1 = (outcome a).1 := hresult
  have hnext : (next first a).Resembles host (next second b) := by
    refine ⟨?_, _, _, hstands, hstands', hafter⟩
    simp only [next, hsame, hbindings]
  refine ⟨?_, hnext⟩
  simp only [told, hsame]
  exact hnext.report _ _

/-- A command is reported in the same way in both sessions. -/
theorem Resembles.step (h : first.Resembles host second) (command : Command) :
    (second.step host command).1.uncounted = (first.step host command).1.uncounted ∧
      (first.step host command).2.Resembles host (second.step host command).2 := by
  obtain ⟨a, b, ha, hb, hscenes⟩ := h.scenes
  cases command with
  | request name request =>
      obtain ⟨hresult, hafter⟩ := ha.operation_resembles hb hscenes h.bindings request
      obtain ⟨hgrows, hworld, hknown⟩ := ha.operation host request
      obtain ⟨hgrows', hworld', hknown'⟩ := hb.operation host request
      have hstands := ha.assign hgrows name hknown
      have hstands' := hb.assign hgrows' name hknown'
      simp only [Session.step]
      rw [hresult] at hstands' ⊢
      rw [hworld] at hstands
      rw [hworld'] at hstands'
      have hnext := Resembles.mk (congrArg (assign name _) h.bindings)
        ⟨_, _, hstands, hstands', hafter⟩
      exact ⟨hnext.report _ _, hnext⟩
  | call name key arguments =>
      simp only [Session.step, get?_congr h.bindings, ← ha.world, ← hb.world]
      split
      · rename_i site carrier hsite hcarrier
        have hsite' := (get?_congr h.bindings .site name).trans hsite
        have hcarrier' := (get?_congr h.bindings .carrier key).trans hcarrier
        have hresolve : a.Oblivious host ((site.resolver host).resolve carrier) :=
          Scene.oblivious_specialized hscenes.first (ha.known hsite) (ha.known hcarrier)
        exact Resembles.call hscenes h.bindings hresolve name
          (fun cache => ⟨.site, { site with cache }⟩)
          (ha.called host arguments name hsite hcarrier).2
          (hb.called host arguments name hsite' hcarrier').2
      · exact ⟨h.report _ _, h⟩
  | dispatch name key arguments =>
      simp only [Session.step, get?_congr h.bindings, ← ha.world, ← hb.world]
      split
      · rename_i site receiver hsite hreceiver
        have hsite' := (get?_congr h.bindings .receiverSite name).trans hsite
        have hreceiver' := (get?_congr h.bindings .object key).trans hreceiver
        have hmade : a.Made receiver := ha.known hreceiver
        have hresolve : a.Oblivious host ((site.resolver host).resolve receiver) :=
          Scene.oblivious_receiver hscenes.first site (hmade.knows ha.sound)
        exact Resembles.call hscenes h.bindings hresolve name
          (fun cache => ⟨.receiverSite, { site with cache }⟩)
          (ha.dispatched host arguments name hsite hreceiver).2
          (hb.dispatched host arguments name hsite' hreceiver').2
      · exact ⟨h.report _ _, h⟩

/-- Whatever is remembered, the same is held. -/
theorem Stands.forget (h : session.Stands scene) :
    session.forget.Stands
      { scene with world := scene.world.withMemo [] scene.world.store.hits } where
  world := by rw [h.world, Session.forget]
  sound := { h.sound with supertypes := fun _ hentry => nomatch hentry }
  items := by
    let later : Scene := { scene with world := scene.world.withMemo [] scene.world.store.hits }
    have hmade : ∀ receiver, scene.Made receiver → later.Made receiver := by
      rintro receiver (hknown | hself)
      · exact .ofCarrier hknown
      · exact .plain hself
    rintro ⟨name, kind, content⟩ hentry
    have hknown := h.items _ hentry
    cases kind with
    | object => exact hmade content hknown
    | receiverSite =>
        intro link hlink
        obtain ⟨receiver, hreceiver, hguard⟩ := hknown link hlink
        exact ⟨receiver, hmade receiver hreceiver, hguard⟩
    | ofClass => exact hknown
    | carrier => exact hknown
    | guard => exact hknown
    | site => exact hknown

theorem Resembles.forget (h : first.Resembles host second) :
    first.Resembles host second.forget := by
  obtain ⟨a, b, ha, hb, hscenes⟩ := h.scenes
  exact ⟨h.bindings, a, _, ha, hb.forget, hscenes.world.trans ⟨[], _, rfl⟩, hscenes.classes,
    hscenes.foreign, hscenes.first, hb.forget.sound, fun _ hentry => nomatch hentry⟩

/-- Two such sessions report the same, however often one of them forgets. -/
theorem Resembles.reports (h : first.Resembles host second) (events : List Event) :
    (second.reportsForgetting host events).map Report.uncounted =
      (first.reports host (events.filterMap Event.command?)).map Report.uncounted := by
  induction events generalizing first second with
  | nil => rfl
  | cons event rest ih =>
      cases event with
      | forget => exact ih h.forget
      | command issued =>
          obtain ⟨htold, hnext⟩ := h.step issued
          exact congrArg₂ List.cons htold (ih hnext)

end Session

namespace Scene

variable {host : Host} {scene : Scene}

/-- Nothing that is remembered is stale: each entry stands for a carrier and the direct superclass of
its class, and finding the carrier of that anew gives the carrier of the entry, from what the class
maps its superclass to or from the defaults. So a program may forget all of it at any time, and
nothing that it is told is different. -/
theorem Reachable.forgets (h : scene.Reachable host) :
    (∀ entry ∈ scene.world.store.supertypes, ∃ carrier superclass,
      scene.Knows carrier ∧ carrier.isClassLevel ∧
      carrier.owner.superclass? = some superclass ∧ entry.1 = (carrier.id, superclass.id) ∧
      (∀ functions, exec (findDirectSupertype host functions carrier superclass) scene.world =
        (.ok (some entry.2), scene.world.hit)) ∧
      (carrier.owner.analysis.superMapping = none →
        scene.result (resolve (.ofClass superclass) none) = .ok entry.2) ∧
      ∀ constant functions, carrier.owner.analysis.superMapping = some constant →
        ∃ mapping parameters,
          scene.result (carrier.owner.accessorValue host functions constant carrier) =
            .ok mapping ∧
          mapping.asSpecies? = some (superclass.descriptor, parameters) ∧
          scene.result (resolve (.ofClass superclass) (some parameters)) = .ok entry.2) ∧
    ∀ session : Session, session.Stands scene → ∀ events,
      (session.reportsForgetting host events).map Report.uncounted =
        (session.reports host (events.filterMap Event.command?)).map Report.uncounted := by
  have hscene := h.memoizing
  refine ⟨?_, fun session hsession => ?_⟩
  · rintro ⟨key, found⟩ hentry
    obtain ⟨carrier, superclass, hcarrier, hlevel, hdirect, hkey, hredoes⟩ :=
      hscene.entries _ hentry
    have hredo functions := hredoes functions scene (Grows.refl scene)
    have hfind functions : scene.result (findDirectSupertype host functions carrier superclass) =
        .ok (some found) := congrArg Prod.fst (hredo functions)
    refine ⟨carrier, superclass, hcarrier, hlevel, hdirect, hkey, hredo, ?_, ?_⟩
    · intro hmapping
      rcases findDirectSupertype_eq_ok host (hfind .standard) with ⟨_, hdefault, _⟩ |
        ⟨_, _, _, _, hmapped, _⟩
      · exact (resolveDefault_eq_some hdefault).2.1
      · rw [hmapping] at hmapped
        cases hmapped
    · intro constant functions hmapping
      exact resolve_of_findDirectSupertype hscene.sound (hscene.sound.supertypes _ hentry).1
        hmapping (hscene.sound.owner carrier hcarrier) (hfind functions)
  · exact Session.Resembles.reports ⟨rfl, scene, scene, hsession, hsession, hscene.resembles⟩

/-- The chain after its lowest class was asked for its superclass, which is remembered. -/
def rememberingScene : Scene :=
  chainScene.after (supertypeCarrier (fun _ _ => .error "absent") .standard chainCarrier
    (chainCarrier.owner.superclass?.get rfl))

/-- The lowest class is asked once more, after all was forgotten. -/
theorem forgets_chain :
    ∃ (host : Host) (entry : (Nat × Nat) × Carrier) (carrier : Carrier) (superclass : Class)
      (session : Session),
      let asked : Command := .request "seen" (.supertype "leaf" "Middle")
      rememberingScene.Reachable host ∧
        rememberingScene.world.store.supertypes = [entry] ∧
        entry.1 = (carrier.id, superclass.id) ∧
        entry.2.classParameters = some (.type "String") ∧
        exec (findDirectSupertype host .standard carrier superclass) rememberingScene.world =
          (.ok (some entry.2), rememberingScene.world.hit) ∧
        session.Stands rememberingScene ∧
        (session.reportsForgetting host [.forget, .command asked]).map Report.uncounted =
          (session.reports host [asked]).map Report.uncounted := by
  let host : Host := fun _ _ => .error "absent"
  let session : Session :=
    { world := rememberingScene.world, bindings := [("leaf", ⟨.carrier, chainCarrier⟩)] }
  have hstored : chainCarrier ∈ chainScene.world.store.carriers := List.head_mem _
  have hloaded : chainScene.Reachable host := afterLoading_reachable _ _
  have hasks : chainScene.Move host rememberingScene := .supertype .standard (Or.inl hstored) _
  have hreachable : rememberingScene.Reachable host := hloaded.tail hasks
  obtain ⟨entry, hremembered, htexts⟩ : ∃ entry,
      rememberingScene.world.store.supertypes = [entry] ∧
        entry.2.classParameters = some (.type "String") := ⟨_, rfl, rfl⟩
  obtain ⟨hentries, hforgetting⟩ := hreachable.forgets
  obtain ⟨carrier, superclass, _, _, _, hkey, hredo, _⟩ :=
    hentries entry (hremembered ▸ List.mem_singleton_self entry)
  have hstands : session.Stands rememberingScene :=
    { world := rfl
      sound := hreachable.sound
      items := by
        rintro item hitem
        obtain rfl := List.mem_singleton.mp hitem
        exact Knows.grow (Or.inl hstored) (hasks.grows hloaded.sound) }
  exact ⟨host, entry, carrier, superclass, session, hreachable, hremembered, hkey, htexts,
    hredo .standard, hstands, hforgetting session hstands [.forget, .command _]⟩

end Scene

end Specialization

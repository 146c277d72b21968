import Mathlib.Data.List.Nodup
import Specialization.Proofs.World.KeptValues

/-!
The guards of one thread. A guard restores what was ambient when it was made. As long as no guard
ends before a younger one, what is ambient is therefore the carrier of the youngest living guard.

A guard that ends before a younger one leaves its carrier behind, as what the younger one restores.
No guard lives for that carrier when it comes back, unless it was made ambient more than once.
-/

namespace Specialization

/-- A thread with its living guards, youngest first. -/
structure Thread where
  world : World
  guards : List Guard := []

namespace Thread

/-- What a thread does with guards. A guard that ends is named by the number of living ones that are
younger. -/
inductive Act where
  | enter (carrier : Carrier)
  | exit (younger : Nat)

def Act.carrier? : Act → Option Carrier
  | .enter carrier => some carrier
  | .exit _ => none

/-- An act that ends no guard before a younger one. -/
def Act.Nests : Act → Prop
  | .enter _ => True
  | .exit younger => younger = 0

def step (thread : Thread) : Act → Option Thread
  | .enter carrier =>
    match exec (Specialization.enter carrier) thread.world with
    | (.ok guard, world) => some { world, guards := guard :: thread.guards }
    | (.error _, _) => none
  | .exit younger => thread.guards[younger]?.map fun guard =>
    { world := (exec guard.exit thread.world).2, guards := thread.guards.eraseIdx younger }

def run (thread : Thread) : List Act → Option Thread
  | [] => some thread
  | act :: rest => (thread.step act).bind fun next => next.run rest

/-- The carriers that are made ambient. -/
def entered (acts : List Act) : List Carrier :=
  acts.filterMap Act.carrier?

def Reads (thread : Thread) (found : Option Carrier) : Prop :=
  exec currentCarrier thread.world = (.ok found, thread.world)

/-- What is ambient is the carrier of a living guard, or what was ambient at first if none lives. -/
def Lawful (first : Option Carrier) (thread : Thread) : Prop :=
  (thread.guards = [] → thread.Reads first) ∧
    (thread.guards ≠ [] → ∃ guard ∈ thread.guards, thread.Reads (some guard.carrier))

variable {first : Option Carrier} {thread next last : Thread} {act : Act} {acts : List Act}

def current (thread : Thread) : Option Carrier :=
  thread.world.ambient.carrier

theorem reads_iff {found : Option Carrier} : thread.Reads found ↔ thread.current = found := by
  constructor
  · intro h
    exact Except.ok.inj (congrArg Prod.fst h)
  · rintro rfl
    rfl

theorem step_cases (h : thread.step act = some next) :
    (∃ carrier, act = .enter carrier ∧
      next.guards = { carrier, previous := thread.current } :: thread.guards ∧
      next.current = some carrier) ∨
    (∃ newer guard older, act = .exit newer.length ∧ thread.guards = newer ++ guard :: older ∧
      next.guards = newer ++ older ∧ next.current = guard.previous) := by
  cases act with
  | enter carrier =>
      cases h
      exact Or.inl ⟨carrier, rfl, rfl, rfl⟩
  | exit younger =>
      obtain ⟨guard, hguard, rfl⟩ := Option.map_eq_some_iff.mp h
      obtain ⟨hlt, hget⟩ := List.getElem?_eq_some_iff.mp hguard
      refine Or.inr ⟨thread.guards.take younger, guard, thread.guards.drop (younger + 1), ?_, ?_,
        ?_, rfl⟩
      · rw [List.length_take_of_le (Nat.le_of_lt hlt)]
      · rw [← hget, ← List.drop_eq_getElem_cons, List.take_append_drop]
      · exact List.eraseIdx_eq_take_drop_succ thread.guards younger

/-- Only the end of a guard that does not live cannot be done. -/
theorem step_eq_none :
    thread.step act = none ↔ ∃ younger, act = .exit younger ∧ thread.guards.length ≤ younger := by
  cases act with
  | enter carrier => exact ⟨nofun, nofun⟩
  | exit younger => simp [step]

theorem run_cons : thread.run (act :: acts) = some last ↔
    ∃ next, thread.step act = some next ∧ next.run acts = some last :=
  Option.bind_eq_some_iff

/-- Each guard restores the carrier of the next older one, and the oldest what was ambient first. -/
def Stacked (first : Option Carrier) : List Guard → Option Carrier → Prop
  | [], current => current = first
  | guard :: older, current => current = some guard.carrier ∧ Stacked first older guard.previous

/-- The carrier of the youngest living guard, or what was ambient at first if none lives. -/
def youngest (first : Option Carrier) (thread : Thread) : Option Carrier :=
  match thread.guards with
  | [] => first
  | guard :: _ => some guard.carrier

theorem Stacked.current_eq (h : Stacked first thread.guards thread.current) :
    thread.current = thread.youngest first := by
  unfold youngest
  cases hguards : thread.guards with
  | nil =>
      rw [hguards] at h
      exact h
  | cons guard older =>
      rw [hguards] at h
      exact h.1

theorem lawful_of_reads_youngest (h : thread.Reads (thread.youngest first)) :
    Lawful first thread := by
  unfold youngest at h
  cases hguards : thread.guards with
  | nil =>
      rw [hguards] at h
      exact ⟨fun _ => h, fun hsome => absurd hguards hsome⟩
  | cons guard older =>
      rw [hguards] at h
      refine ⟨fun hnone => absurd (hguards.symm.trans hnone) (List.cons_ne_nil guard older), ?_⟩
      exact fun _ => ⟨guard, hguards ▸ List.mem_cons_self, h⟩

theorem Stacked.step (h : Stacked first thread.guards thread.current) (hnests : act.Nests)
    (hstep : thread.step act = some next) : Stacked first next.guards next.current := by
  rcases step_cases hstep with ⟨carrier, rfl, hguards, hcurrent⟩ |
    ⟨newer, guard, older, rfl, hbefore, hafter, hcurrent⟩
  · rw [hguards]
    exact ⟨hcurrent, h⟩
  · obtain rfl : newer = [] := List.eq_nil_of_length_eq_zero hnests
    rw [hbefore] at h
    rw [hafter, hcurrent]
    exact h.2

theorem Stacked.run (h : Stacked first thread.guards thread.current)
    (hnests : ∀ act ∈ acts, act.Nests) (hrun : thread.run acts = some last) :
    Stacked first last.guards last.current := by
  induction acts generalizing thread with
  | nil =>
      cases hrun
      exact h
  | cons act rest ih =>
      obtain ⟨next, hstep, hrest⟩ := run_cons.mp hrun
      rw [List.forall_mem_cons] at hnests
      exact ih (h.step hnests.1 hstep) hnests.2 hrest

theorem Stacked.previous_eq {newer older : List Guard} {above guard : Guard}
    {current : Option Carrier} (h : Stacked first (newer ++ above :: guard :: older) current) :
    above.previous = some guard.carrier := by
  induction newer generalizing current with
  | nil => exact h.2.1
  | cons younger rest ih => exact ih h.2

/-- A living guard restores a carrier for which no guard lives, now or later. -/
structure Strays (thread : Thread) (acts : List Act) (carrier : Carrier) : Prop where
  restored : ∃ guard ∈ thread.guards, guard.previous = some carrier
  ended : ∀ guard ∈ thread.guards, guard.carrier ≠ carrier
  again : carrier ∉ entered acts

theorem not_lawful_of_current {carrier : Carrier} (hcurrent : thread.current = some carrier)
    (hended : ∀ guard ∈ thread.guards, guard.carrier ≠ carrier) (hother : first ≠ some carrier) :
    ¬ Lawful first thread := by
  rintro ⟨hnone, hsome⟩
  by_cases hguards : thread.guards = []
  · have hfirst := reads_iff.mp (hnone hguards)
    exact hother (hfirst.symm.trans hcurrent)
  · obtain ⟨guard, hguard, hreads⟩ := hsome hguards
    have hcarrier := (reads_iff.mp hreads).symm.trans hcurrent
    exact hended guard hguard (Option.some.inj hcarrier)

/-- A carrier that strays keeps straying until the guard that restores it ends. -/
theorem Strays.step {carrier : Carrier} (h : thread.Strays (act :: acts) carrier)
    (hother : first ≠ some carrier) (hstep : thread.step act = some next) :
    next.Strays acts carrier ∨ ¬ Lawful first next := by
  have hagain : carrier ∉ entered acts :=
    fun hmem => h.again (((List.sublist_cons_self act acts).filterMap _).subset hmem)
  obtain ⟨holder, hholder, hprevious⟩ := h.restored
  rcases step_cases hstep with ⟨entering, rfl, hguards, _⟩ |
    ⟨newer, guard, older, rfl, hbefore, hafter, hcurrent⟩
  · refine Or.inl ⟨⟨holder, hguards ▸ List.mem_cons_of_mem _ hholder, hprevious⟩, ?_, hagain⟩
    rw [hguards, List.forall_mem_cons]
    refine ⟨?_, h.ended⟩
    rintro rfl
    exact h.again List.mem_cons_self
  · have hended : ∀ other ∈ next.guards, other.carrier ≠ carrier := by
      intro other hmem
      rw [hafter] at hmem
      apply h.ended other
      rw [hbefore]
      exact ((List.sublist_cons_self guard older).append_left newer).subset hmem
    have hsplit : holder = guard ∨ holder ∈ next.guards := by
      rw [hbefore] at hholder
      rw [hafter]
      simpa [or_left_comm] using hholder
    rcases hsplit with rfl | hkept
    · exact Or.inr (not_lawful_of_current (hcurrent.trans hprevious) hended hother)
    · exact Or.inl ⟨⟨holder, hkept, hprevious⟩, hended, hagain⟩

/-- By the time that all guards have ended, the carrier was ambient once more. -/
theorem Strays.breaks {carrier : Carrier} (h : thread.Strays acts carrier)
    (hother : first ≠ some carrier) (hrun : thread.run acts = some last)
    (hlast : last.guards = []) :
    ∃ done middle, done <+: acts ∧ thread.run done = some middle ∧ ¬ Lawful first middle := by
  induction acts generalizing thread with
  | nil =>
      cases hrun
      obtain ⟨guard, hguard, _⟩ := h.restored
      rw [hlast] at hguard
      cases hguard
  | cons act rest ih =>
      obtain ⟨next, hstep, hrest⟩ := run_cons.mp hrun
      rcases h.step hother hstep with hstrays | hnot
      · obtain ⟨done, middle, hbegins, hdone, hnot⟩ := ih hstrays hrest
        exact ⟨act :: done, middle, (List.prefix_cons_inj act).mpr hbegins,
          run_cons.mpr ⟨next, hstep, hdone⟩, hnot⟩
      · exact ⟨[act], next, (List.prefix_cons_inj act).mpr List.nil_prefix,
          run_cons.mpr ⟨next, hstep, rfl⟩, hnot⟩

/-- The carriers that are still to come, and those of the living guards. -/
def carriers (thread : Thread) (acts : List Act) : List Carrier :=
  entered acts ++ thread.guards.map (·.carrier)

/-- Carriers without repetition, none of which was ambient at first. -/
def Fresh (first : Option Carrier) (carriers : List Carrier) : Prop :=
  carriers.Nodup ∧ ∀ carrier ∈ carriers, first ≠ some carrier

theorem Fresh.perm {carriers others : List Carrier} (h : Fresh first carriers)
    (hperm : carriers.Perm others) : Fresh first others :=
  ⟨hperm.nodup_iff.mp h.1, fun carrier hmem => h.2 carrier (hperm.mem_iff.mpr hmem)⟩

theorem Fresh.tail {carriers : List Carrier} {carrier : Carrier}
    (h : Fresh first (carrier :: carriers)) : Fresh first carriers :=
  ⟨(List.nodup_cons.mp h.1).2, fun other hmem => h.2 other (List.mem_cons_of_mem carrier hmem)⟩

theorem carriers_exit {newer older : List Guard} {guard : Guard}
    (hbefore : thread.guards = newer ++ guard :: older) (hafter : next.guards = newer ++ older) :
    (thread.carriers (.exit newer.length :: acts)).Perm (guard.carrier :: next.carriers acts) := by
  rw [carriers, carriers, hbefore, hafter, List.map_append, List.map_append, List.map_cons,
    ← List.append_assoc, ← List.append_assoc]
  exact List.perm_middle

theorem Fresh.step (h : Fresh first (thread.carriers (act :: acts)))
    (hstep : thread.step act = some next) : Fresh first (next.carriers acts) := by
  rcases step_cases hstep with ⟨carrier, rfl, hguards, _⟩ |
    ⟨newer, guard, older, rfl, hbefore, hafter, _⟩
  · rw [carriers, hguards]
    exact h.perm List.perm_middle.symm
  · exact (h.perm (carriers_exit hbefore hafter)).tail

/-- A guard that ends before a younger one leaves its carrier straying. -/
theorem Stacked.strays (h : Stacked first thread.guards thread.current) {younger : Nat}
    (hfresh : Fresh first (thread.carriers (.exit younger :: acts)))
    (hstep : thread.step (.exit younger) = some next) (hyounger : younger ≠ 0) :
    ∃ carrier, first ≠ some carrier ∧ next.Strays acts carrier := by
  rcases step_cases hstep with ⟨_, hact, _⟩ | ⟨newer, guard, older, hact, hbefore, hafter, _⟩
  · cases hact
  · cases hact
    have hcarriers := hfresh.perm (carriers_exit hbefore hafter)
    have hnew : guard.carrier ∉ next.carriers acts := (List.nodup_cons.mp hcarriers.1).1
    rw [carriers, List.mem_append, not_or] at hnew
    obtain ⟨front, above, rfl⟩ := (List.eq_nil_or_concat' newer).resolve_left
      fun hnil => hyounger (List.length_eq_zero_iff.mpr hnil)
    refine ⟨guard.carrier, hcarriers.2 guard.carrier List.mem_cons_self, ⟨above, ?_, ?_⟩, ?_,
      hnew.1⟩
    · rw [hafter]
      simp
    · rw [hbefore, List.append_assoc, List.singleton_append] at h
      exact h.previous_eq
    · exact fun other hother hsame => hnew.2 (List.mem_map.mpr ⟨other, hother, hsame⟩)

/-- Where every carrier is fresh and all guards end, only nested guards keep to their carriers. -/
theorem Stacked.nests (h : Stacked first thread.guards thread.current)
    (hfresh : Fresh first (thread.carriers acts)) (hrun : thread.run acts = some last)
    (hlast : last.guards = [])
    (hlawful : ∀ done middle, done <+: acts → thread.run done = some middle →
      Lawful first middle) : ∀ act ∈ acts, act.Nests := by
  induction acts generalizing thread with
  | nil => nofun
  | cons act rest ih =>
      obtain ⟨next, hstep, hrest⟩ := run_cons.mp hrun
      have hlater : ∀ done middle, done <+: rest → next.run done = some middle →
          Lawful first middle := fun done middle hbegins hdone =>
        hlawful (act :: done) middle ((List.prefix_cons_inj act).mpr hbegins)
          (run_cons.mpr ⟨next, hstep, hdone⟩)
      have hnests : act.Nests := by
        cases act with
        | enter carrier => trivial
        | exit younger =>
            by_contra hyounger
            obtain ⟨carrier, hother, hstrays⟩ := h.strays hfresh hstep hyounger
            obtain ⟨done, middle, hbegins, hdone, hnot⟩ := hstrays.breaks hother hrest hlast
            exact hnot (hlater done middle hbegins hdone)
      rw [List.forall_mem_cons]
      exact ⟨hnests, ih (h.step hnests hstep) (hfresh.step hstep) hrest hlater⟩

/-- Any carrier can be made ambient, and any living guard can end. From a thread without guards: if
no guard ends before a younger one, what is ambient after each step is the carrier of the youngest
living guard, or what was ambient at first. Where all guards end and every carrier is fresh, nothing
else keeps what is ambient to living guards after every step. -/
theorem lawful_iff_nests {start : Thread} (hstart : start.guards = [])
    (hfirst : start.Reads first) (hrun : start.run acts = some last) :
    (∀ (thread : Thread) (act : Act), thread.step act = none ↔
      ∃ younger, act = .exit younger ∧ thread.guards.length ≤ younger) ∧
    ((∀ act ∈ acts, act.Nests) → ∀ done middle, done <+: acts → start.run done = some middle →
      middle.Reads (middle.youngest first)) ∧
    (last.guards = [] → Fresh first (entered acts) →
      ((∀ done middle, done <+: acts → start.run done = some middle → Lawful first middle) ↔
        ∀ act ∈ acts, act.Nests)) := by
  have hstacked : Stacked first start.guards start.current := by
    rw [hstart]
    exact reads_iff.mp hfirst
  have hnested : (∀ act ∈ acts, act.Nests) → ∀ done middle, done <+: acts →
      start.run done = some middle → middle.Reads (middle.youngest first) :=
    fun hnests done middle hbegins hdone => reads_iff.mpr
      (hstacked.run (fun act hact => hnests act (hbegins.subset hact)) hdone).current_eq
  refine ⟨fun _ _ => step_eq_none, hnested, fun hlast hfresh => ?_⟩
  refine ⟨fun hlawful => ?_, fun hnests => ?_⟩
  · have hcarriers : start.carriers acts = entered acts := by simp [carriers, hstart]
    exact hstacked.nests (hcarriers ▸ hfresh) hrun hlast hlawful
  · exact fun done middle hbegins hdone =>
      lawful_of_reads_youngest (hnested hnests done middle hbegins hdone)

/-- Two guards that end as they nest. -/
def nested (outer inner : Carrier) : List Act :=
  [.enter outer, .enter inner, .exit 0, .exit 0]

/-- Two guards that end in the order in which they were made. -/
def crossed (outer inner : Carrier) : List Act :=
  [.enter outer, .enter inner, .exit 1, .exit 0]

theorem lawful_nested :
    let start : Thread := { world := {} }
    let acts := nested (Class.boxCarrier 1 "Integer") (Class.boxCarrier 2 "String")
    start.guards = [] ∧ start.Reads none ∧ Fresh none (entered acts) ∧
    ∃ last, start.run acts = some last ∧ last.guards = [] ∧
      ∀ done middle, done <+: acts → start.run done = some middle → Lawful none middle := by
  intro start acts
  have hdistinct : Class.boxCarrier 1 "Integer" ≠ Class.boxCarrier 2 "String" :=
    fun h => absurd (congrArg Carrier.id h) (by decide)
  have hfresh : Fresh none (entered acts) :=
    ⟨List.nodup_cons.mpr ⟨fun hmem => hdistinct (List.mem_singleton.mp hmem),
      List.nodup_singleton _⟩, nofun⟩
  have hnests : ∀ act ∈ acts, act.Nests := by simp [acts, nested, Act.Nests]
  obtain ⟨_, _, hiff⟩ := lawful_iff_nests (rfl : start.guards = []) (rfl : start.Reads none)
    (rfl : start.run acts = some _)
  exact ⟨rfl, rfl, hfresh, _, rfl, rfl, (hiff rfl hfresh).mpr hnests⟩

/-- The carrier of the older guard is ambient once both guards have ended. -/
theorem crossed_unlawful :
    ¬ ∀ (first : Option Carrier) (start last : Thread) (acts : List Act), start.guards = [] →
      start.Reads first → start.run acts = some last → Lawful first last := by
  intro hall
  have hlawful := hall none { world := {} } _
    (crossed (Class.boxCarrier 1 "Integer") (Class.boxCarrier 2 "String")) rfl rfl rfl
  have hreads := reads_iff.mp (hlawful.1 rfl)
  cases hreads

end Thread

end Specialization

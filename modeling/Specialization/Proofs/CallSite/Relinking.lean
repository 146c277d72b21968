import Mathlib.Data.List.SplitBy
import Specialization.CallSite.Receiver
import Specialization.CallSite.Specialized
import Specialization.Proofs.CallSite.InlineCache

/-!
How often an inline cache links anew. A call whose link step succeeds leaves a guard that its key
matches, so a run of calls under keys that match each other costs at most one resolution. Where
matching is an equivalence, the keys fall into maximal runs, and as many targets are installed as
there are runs.
-/

namespace Specialization

/-- A guard made from the first key admits the second. -/
def GuardKey.Matches (κ : Type) [GuardKey κ] (a b : κ) : Prop :=
  GuardKey.admits a b = true

open GuardKey (Matches)

/-- Keys that are told apart by something else, as carriers are by their numbers. -/
theorem matches_equivalence {κ τ : Type} [GuardKey κ] (tag : κ → τ)
    (h : ∀ a b : κ, GuardKey.admits a b = true ↔ tag a = tag b) : Equivalence (Matches κ) where
  refl a := (h a a).mpr rfl
  symm hab := (h _ _).mpr ((h _ _).mp hab).symm
  trans hab hbc := (h _ _).mpr (((h _ _).mp hab).trans ((h _ _).mp hbc))

theorem matches_carrier : Equivalence (Matches Carrier) :=
  matches_equivalence Carrier.id fun _ _ => Carrier.beq_iff

/-- What tells a runtime class apart: the number of the class, or of the carrier behind it. -/
def RuntimeClass.tag : RuntimeClass → Nat ⊕ Nat
  | .raw self => .inl self.id
  | .backing type => .inr type.carrier.id

theorem RuntimeClass.beq_iff {a b : RuntimeClass} : a == b ↔ a.tag = b.tag := by
  change a.beq b ↔ a.tag = b.tag
  cases a with
  | raw self => cases b <;> simp [beq, tag, Class.beq_iff]
  | backing type => cases b <;> simp [beq, tag, Carrier.beq_iff]

theorem Carrier.beq_option {a b : Option Carrier} :
    a == b ↔ a.map Carrier.id = b.map Carrier.id := by
  cases a with
  | none => cases b <;> simp
  | some carrier => cases b <;> simp [Carrier.beq_iff]

theorem matches_receiverGuard : Equivalence (Matches ReceiverGuard) :=
  matches_equivalence (fun guard => (guard.runtimeClass.tag, guard.carrier.map Carrier.id))
    fun _ _ => by
      rw [Prod.mk.injEq, ← RuntimeClass.beq_iff, ← Carrier.beq_option]
      exact Bool.and_eq_true_iff

namespace InlineCache

variable {κ σ : Type} [GuardKey κ]

/-- A cache, with the state that resolutions work on. -/
structure Cell (κ σ : Type) where
  cache : InlineCache κ
  state : σ

/-- The cell of a call site that has not been called. -/
def Cell.fresh (state : σ) : Cell κ σ :=
  { cache := {}, state }

/-- The guard of the installed link admits a key. -/
def Cell.Admits (cell : Cell κ σ) (key : κ) : Prop :=
  ∃ link, cell.cache.current = some link ∧ Matches κ link.guard key

/-- A call under a key. Without arguments it only links. -/
structure Call (κ σ : Type) where
  key : κ
  arguments : Option (List Value)
  resolve : ExceptT Error (StateM σ) Target

namespace Call

/-- The link step of a call, with the cell that it leaves. -/
def link (call : Call κ σ) (cell : Cell κ σ) : Except Error (Link κ) × Cell κ σ :=
  let ((linked, cache), state) := (cell.cache.link call.key call.resolve).run cell.state
  (linked, { cache, state })

/-- What a call gives, with the cell that it leaves. A call that only links gives no value. -/
def perform (host : Host) (call : Call κ σ) (cell : Cell κ σ) :
    Except Error (Option Value) × Cell κ σ :=
  match call.arguments with
  | none =>
    let (linked, next) := call.link cell
    (linked.map fun _ => none, next)
  | some arguments =>
    let ((result, cache), state) :=
      (cell.cache.invoke host call.key arguments call.resolve).run cell.state
    (result.map some, { cache, state })

/-- What a call gives once its link step is done. -/
def outcome (host : Host) (call : Call κ σ) (linked : Except Error (Link κ)) :
    Except Error (Option Value) :=
  match call.arguments with
  | none => linked.map fun _ => none
  | some arguments => (linked.bind fun link => link.target.invoke host arguments).map some

/-- The same call, which counts in the state how often its resolution is run. -/
def counted (call : Call κ σ) : Call κ (σ × Nat) where
  key := call.key
  arguments := call.arguments
  resolve := ExceptT.mk fun (state, count) =>
    let (result, next) := exec call.resolve state
    (result, (next, count + 1))

end Call

/-- The cell that a sequence of calls leaves. -/
def Cell.after (host : Host) (cell : Cell κ σ) (calls : List (Call κ σ)) : Cell κ σ :=
  calls.foldl (fun cell call => (call.perform host cell).2) cell

/-- The keys of the calls whose link step succeeds, in a sequence of calls. -/
def Cell.linkedKeys (host : Host) : Cell κ σ → List (Call κ σ) → List κ
  | _, [] => []
  | cell, call :: rest =>
    match (call.link cell).1 with
    | .ok _ => call.key :: linkedKeys host (call.perform host cell).2 rest
    | .error _ => linkedKeys host (call.perform host cell).2 rest

section Steps

variable (host : Host) (call : Call κ σ) {cell : Cell κ σ}

theorem Cell.admits_iff {key : κ} : cell.Admits key ↔ ∃ link, cell.cache.find? key = some link := by
  simp only [Admits, find?, Option.filter_eq_some_iff]
  rfl

theorem Cell.find?_eq_none {key : κ} (h : ¬ cell.Admits key) : cell.cache.find? key = none :=
  Option.eq_none_iff_forall_ne_some.mpr fun link hfound => h (admits_iff.mpr ⟨link, hfound⟩)

namespace Call

theorem perform_eq (cell : Cell κ σ) :
    call.perform host cell = (call.outcome host (call.link cell).1, (call.link cell).2) := by
  unfold perform outcome
  cases call.arguments with
  | none => rfl
  | some arguments =>
      simp only [run_invoke_eq]
      rfl

/-- What a link step does: the guard admits the key, or a target is resolved and installed, or the
resolution fails. -/
inductive Linking (call : Call κ σ) (cell : Cell κ σ) : Except Error (Link κ) × Cell κ σ → Prop
  | admitted {link : Link κ} (hcurrent : cell.cache.current = some link)
      (hmatches : Matches κ link.guard call.key) : Linking call cell (.ok link, cell)
  | resolved {target : Target} {next : σ} (hadmits : ¬ cell.Admits call.key)
      (hresolve : exec call.resolve cell.state = (.ok target, next)) :
      Linking call cell
        (.ok ⟨call.key, target⟩, { cache := cell.cache.install ⟨call.key, target⟩, state := next })
  | failed {error : Error} {next : σ} (hadmits : ¬ cell.Admits call.key)
      (hresolve : exec call.resolve cell.state = (.error error, next)) :
      Linking call cell (.error error, { cell with state := next })

theorem linking (cell : Cell κ σ) : Linking call cell (call.link cell) := by
  by_cases hadmits : cell.Admits call.key
  · obtain ⟨known, hfound⟩ := Cell.admits_iff.mp hadmits
    have hlink : call.link cell = (.ok known, cell) := by simp only [link, run_link, hfound]
    rw [find?, Option.filter_eq_some_iff] at hfound
    exact hlink ▸ .admitted hfound.1 hfound.2
  · have hfound := Cell.find?_eq_none hadmits
    rcases hresolve : exec call.resolve cell.state with ⟨error | target, next⟩
    · have hlink : call.link cell = (.error error, { cell with state := next }) := by
        simp only [link, run_link, hfound, hresolve]
      exact hlink ▸ .failed hadmits hresolve
    · have hlink : call.link cell = (.ok ⟨call.key, target⟩,
          { cache := cell.cache.install ⟨call.key, target⟩, state := next }) := by
        simp only [link, run_link, hfound, hresolve]
      exact hlink ▸ .resolved hadmits hresolve

theorem link_of_admits (h : cell.Admits call.key) : (call.link cell).2 = cell := by
  have hlinking := call.linking cell
  generalize call.link cell = linked at hlinking ⊢
  cases hlinking with
  | admitted => rfl
  | resolved hadmits => exact absurd h hadmits
  | failed hadmits => exact absurd h hadmits

/-- A resolution that fails is the failure of the call, and leaves the cache as it is. -/
theorem perform_of_error (h : ¬ cell.Admits call.key) {error : Error}
    (herror : (exec call.resolve cell.state).1 = .error error) :
    (call.perform host cell).1 = .error error ∧
      (call.perform host cell).2.cache = cell.cache := by
  rw [perform_eq]
  have hlinking := call.linking cell
  generalize call.link cell = linked at hlinking ⊢
  cases hlinking with
  | admitted hcurrent hmatches => exact absurd ⟨_, hcurrent, hmatches⟩ h
  | resolved _ hresolve =>
      rw [hresolve] at herror
      cases herror
  | failed _ hresolve =>
      rw [hresolve] at herror
      obtain rfl := Except.error.inj herror
      refine ⟨?_, rfl⟩
      unfold outcome
      cases call.arguments <;> rfl

/-- A successful link step leaves a guard that the key matches. -/
theorem admits_of_link (hguard : Equivalence (Matches κ)) {known : Link κ}
    (h : (call.link cell).1 = .ok known) : (call.link cell).2.Admits call.key := by
  have hlinking := call.linking cell
  generalize call.link cell = linked at h hlinking ⊢
  cases hlinking with
  | admitted hcurrent hmatches => exact ⟨_, hcurrent, hmatches⟩
  | resolved => exact ⟨_, rfl, hguard.refl call.key⟩
  | failed => cases h

/-- Counting resolutions changes nothing else, and a link step runs one where the guard does not
admit the key. -/
theorem link_counted (cell : Cell κ σ) (count : Nat) :
    ∃ total, (cell.Admits call.key → total = count) ∧ (¬ cell.Admits call.key → total = count + 1) ∧
      call.counted.link { cache := cell.cache, state := (cell.state, count) } =
        ((call.link cell).1,
          { cache := (call.link cell).2.cache, state := ((call.link cell).2.state, total) }) := by
  by_cases hadmits : cell.Admits call.key
  · obtain ⟨known, hfound⟩ := Cell.admits_iff.mp hadmits
    refine ⟨count, fun _ => rfl, fun h => absurd hadmits h, ?_⟩
    simp only [link, run_link, counted, hfound]
  · have hfound := Cell.find?_eq_none hadmits
    refine ⟨count + 1, fun h => absurd h hadmits, fun _ => rfl, ?_⟩
    have hcounted : exec call.counted.resolve (cell.state, count) =
        ((exec call.resolve cell.state).1, ((exec call.resolve cell.state).2, count + 1)) := rfl
    have hkey : call.counted.key = call.key := rfl
    rcases hresolve : exec call.resolve cell.state with ⟨error | target, next⟩
    · simp only [link, run_link, hkey, hfound, hcounted, hresolve]
    · simp only [link, run_link, hkey, hfound, hcounted, hresolve]

end Call

end Steps

/-- Runs of keys: they make up the keys, none is empty, the keys of one match each other, and those
of a run and of the next do not, so that no run can be longer. -/
structure MaximalRuns (keys : List κ) (runs : List (List κ)) : Prop where
  flatten_eq : runs.flatten = keys
  nonempty : ∀ run ∈ runs, run ≠ []
  within : ∀ run ∈ runs, ∀ a ∈ run, ∀ b ∈ run, Matches κ a b
  between : runs.IsChain fun run next => ∀ a ∈ run, ∀ b ∈ next, ¬ Matches κ a b

/-- How often a key meets a guard that does not admit it, where each such key becomes the guard. -/
def misses : Option κ → List κ → Nat
  | _, [] => 0
  | guard, key :: rest =>
    if guard.any fun guard => GuardKey.admits guard key then misses guard rest
    else misses (some key) rest + 1

theorem misses_append_of_matches {key : κ} {run : List κ} (h : ∀ other ∈ run, Matches κ key other)
    (rest : List κ) : misses (some key) (run ++ rest) = misses (some key) rest := by
  induction run with
  | nil => rfl
  | cons other run ih =>
      obtain ⟨hother, hrun⟩ := List.forall_mem_cons.mp h
      have hadmits : GuardKey.admits key other = true := hother
      rw [List.cons_append, misses, if_pos (by simpa using hadmits), ih hrun]

/-- Every maximal run costs one miss, where the guard that comes before does not admit its keys. -/
theorem MaximalRuns.misses_eq {keys : List κ} {runs : List (List κ)} (h : MaximalRuns keys runs)
    {guard : Option κ}
    (hguard : ∀ run ∈ runs.head?, ∀ known ∈ guard, ∀ key ∈ run, ¬ Matches κ known key) :
    misses guard keys = runs.length := by
  obtain ⟨rfl, hnonempty, hwithin, hbetween⟩ := h
  induction runs generalizing guard with
  | nil => rfl
  | cons run runs ih =>
      obtain ⟨key, rest, rfl⟩ := List.exists_cons_of_ne_nil (hnonempty run List.mem_cons_self)
      have hmiss : ¬ (guard.any fun known => GuardKey.admits known key) = true := by
        rw [Option.any_eq_true]
        rintro ⟨known, hknown, hadmits⟩
        exact hguard _ rfl known hknown key List.mem_cons_self hadmits
      have hrest : ∀ other ∈ rest, Matches κ key other := fun other hother =>
        hwithin _ List.mem_cons_self key List.mem_cons_self other (List.mem_cons_of_mem key hother)
      have hnext : ∀ run ∈ runs.head?, ∀ known ∈ some key, ∀ other ∈ run,
          ¬ Matches κ known other := by
        rintro next hnext known ⟨⟩ other hother
        exact (List.isChain_cons.mp hbetween).1 next hnext key List.mem_cons_self other hother
      calc misses guard ((key :: rest) ++ runs.flatten)
          = misses (some key) (rest ++ runs.flatten) + 1 := by
            rw [List.cons_append, misses, if_neg hmiss]
        _ = misses (some key) runs.flatten + 1 := by rw [misses_append_of_matches hrest]
        _ = runs.length + 1 := by
            rw [ih hnext (fun run hrun => hnonempty run (List.mem_cons_of_mem _ hrun))
              (fun run hrun => hwithin run (List.mem_cons_of_mem _ hrun))
              (List.isChain_cons.mp hbetween).2]

/-- Where matching is an equivalence, keys fall into maximal runs. -/
theorem exists_maximalRuns (hguard : Equivalence (Matches κ)) (keys : List κ) :
    ∃ runs, MaximalRuns keys runs := by
  let runs := keys.splitBy GuardKey.admits
  have hwithin : ∀ run ∈ runs, ∀ a ∈ run, ∀ b ∈ run, Matches κ a b := by
    intro run hrun a ha b hb
    have : Trans (Matches κ) (Matches κ) (Matches κ) := ⟨hguard.trans⟩
    have : Std.Symm (Matches κ) := ⟨fun _ _ => hguard.symm⟩
    have hchain : run.IsChain (Matches κ) := List.isChain_of_mem_splitBy hrun
    exact hchain.pairwise.forall_of_forall (fun key _ => hguard.refl key) ha hb
  refine ⟨runs, List.flatten_splitBy _ keys, fun run => List.ne_nil_of_mem_splitBy, hwithin, ?_⟩
  refine (List.isChain_getLast_head_splitBy GuardKey.admits keys).imp_of_mem_imp ?_
  rintro run next hrun hnext ⟨hrun', hnext', hdiffer⟩ a ha b hb hmatches
  -- A match anywhere would be one of the last key of the run and the first of the next.
  have hlast : Matches κ (run.getLast hrun') a := hwithin run hrun _ (List.getLast_mem hrun') a ha
  have hfirst : Matches κ b (next.head hnext') :=
    hwithin next hnext b hb _ (List.head_mem hnext')
  exact Bool.false_ne_true (hdiffer.symm.trans (hguard.trans hlast (hguard.trans hmatches hfirst)))

/-- The guard of a cell. -/
def Cell.guard (cell : Cell κ σ) : Option κ :=
  cell.cache.current.map Link.guard

theorem Cell.guard_any_admits {cell : Cell κ σ} {key : κ} :
    (cell.guard.any fun guard => GuardKey.admits guard key) = true ↔ cell.Admits key := by
  unfold guard Admits Matches
  cases cell.cache.current <;> simp

/-- Every miss among the calls that link installs a target. -/
theorem relinks_after (host : Host) (cell : Cell κ σ) (calls : List (Call κ σ)) :
    (cell.after host calls).cache.relinks =
      cell.cache.relinks + misses cell.guard (cell.linkedKeys host calls) := by
  induction calls generalizing cell with
  | nil => rfl
  | cons call rest ih =>
      have hafter : cell.after host (call :: rest) = (call.link cell).2.after host rest := by
        simp only [Cell.after, List.foldl_cons, Call.perform_eq]
      rw [hafter, ih, Cell.linkedKeys, Call.perform_eq]
      have hlinking := call.linking cell
      generalize call.link cell = linked at hlinking
      cases hlinking with
      | admitted hcurrent hmatches =>
          rw [misses, if_pos (Cell.guard_any_admits.mpr ⟨_, hcurrent, hmatches⟩)]
      | @resolved target next hadmits hresolve =>
          rw [misses, if_neg fun h => hadmits (Cell.guard_any_admits.mp h)]
          simp only [install, Cell.guard, Option.map_some]
          omega
      | failed => rfl

/-- Inline caches whose guard relation is an equivalence, as it is for carriers and for receivers. A
call runs its resolution once if the installed guard does not admit its key, and otherwise not at
all. A resolution that fails leaves the cache as it is, and a successful link step leaves a guard
that admits the key, whatever the call then gives. A fresh cache has been linked once for each
maximal run of matching keys, among those of the calls whose link step succeeded. -/
theorem relinks_eq_length_runs :
    (Equivalence (Matches Carrier) ∧ Equivalence (Matches ReceiverGuard)) ∧
    ∀ {κ σ : Type} [GuardKey κ], Equivalence (Matches κ) → ∀ host : Host,
      (∀ (cell : Cell κ σ) (call : Call κ σ),
        let next := (call.perform host cell).2
        (∀ count, ∃ total, (cell.Admits call.key → total = count ∧ next = cell) ∧
          (¬ cell.Admits call.key → total = count + 1) ∧
          call.counted.perform host { cache := cell.cache, state := (cell.state, count) } =
            ((call.perform host cell).1,
              { cache := next.cache, state := (next.state, total) })) ∧
        (∀ error, ¬ cell.Admits call.key → (exec call.resolve cell.state).1 = .error error →
          (call.perform host cell).1 = .error error ∧ next.cache = cell.cache) ∧
        ∀ link, (call.link cell).1 = .ok link → next.Admits call.key) ∧
      ∀ (calls : List (Call κ σ)) (state : σ),
        let keys := (Cell.fresh state).linkedKeys host calls
        (∃ runs, MaximalRuns keys runs) ∧
        ∀ runs, MaximalRuns keys runs →
          ((Cell.fresh state).after host calls).cache.relinks = runs.length := by
  refine ⟨⟨matches_carrier, matches_receiverGuard⟩, ?_⟩
  intro κ σ _ hguard host
  refine ⟨fun cell call => ⟨fun count => ?_,
    fun error hadmits => call.perform_of_error host hadmits, ?_⟩,
    fun calls state => ⟨exists_maximalRuns hguard _, fun runs hruns => ?_⟩⟩
  · obtain ⟨total, hadmitted, hmissed, hcounted⟩ := call.link_counted cell count
    refine ⟨total, fun hadmits => ⟨hadmitted hadmits, ?_⟩, hmissed, ?_⟩
    · rw [call.perform_eq, call.link_of_admits hadmits]
    · rw [call.perform_eq, call.counted.perform_eq, hcounted]
      rfl
  · rw [call.perform_eq]
    exact fun link => call.admits_of_link hguard
  · have hmisses : misses none ((Cell.fresh state).linkedKeys host calls) = runs.length :=
      hruns.misses_eq fun _ _ _ hknown => nomatch hknown
    rw [relinks_after]
    exact (Nat.zero_add _).trans hmisses

/-- Two carriers that alternate, with a resolution that fails and a target that fails in between.
The resolutions of the second and the fourth call are never run. -/
theorem relinks_alternating :
    let box : Definition :=
      { id := 0, descriptor := "Box", defaults := some (.type "Object"), methods := []
        analysis := ⟨"Box", [], [], [], [], .empty, .empty, none⟩, importedOwners := [] }
    let carrier (id : Nat) : Carrier := .synthesize id (.ofClass ⟨box, []⟩) (.type "String") none
    let target : Target := { function := ⟨⟨"type.descriptor", 1, .typeDescriptor⟩, []⟩ }
    let calls : List (Call Carrier Unit) := [
      ⟨carrier 1, some [.type "String"], pure target⟩,
      ⟨carrier 1, none, throw (.missingArgument 0)⟩,
      ⟨carrier 2, some [.type "String"], throw (.missingArgument 0)⟩,
      ⟨carrier 1, some [.type "String"], throw (.missingArgument 0)⟩,
      ⟨carrier 2, some [], pure target⟩,
      ⟨carrier 1, none, pure target⟩]
    Equivalence (Matches Carrier) ∧
      ∀ host, ((Cell.fresh ()).after host calls).cache.relinks = 3 := by
  intro box carrier target calls
  refine ⟨matches_carrier, fun host => ?_⟩
  have hmatches (a b : Carrier) : Matches Carrier a b ↔ a.id = b.id := Carrier.beq_iff
  obtain ⟨_, hruns⟩ := (relinks_eq_length_runs.2 matches_carrier host).2 calls ()
  refine hruns [[carrier 1, carrier 1, carrier 1], [carrier 2], [carrier 1]] ⟨rfl, ?_, ?_, ?_⟩
  · simp
  · simp [hmatches, carrier]
  · simp [hmatches, carrier, Carrier.synthesize]

end InlineCache

end Specialization

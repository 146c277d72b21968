import Specialization.Proofs.Analysis.Checks

/-!
Anchors pushed onto one table, one after the other, where a push may fail. A push that fails leaves
the table as it was, so the table has the anchors whose push succeeded, in their order. No two of
them have one name, and a parent stands before what is nested under it, so the climb from parent to
parent gets shorter with each step.

A table may be kept with an index that has the position of each name. The index and the positions
stay in bijection, which is why it finds and refuses the same as a search through the anchors.
-/

namespace Specialization

section Attempts

variable {ε σ τ α : Type}

/-- Runs a program for each item, whatever came of those before it. Gives the items with what came
of them, and the state at the end. -/
def attempts (program : α → ExceptT ε (StateM σ) Unit) :
    List α → σ → List (α × Except ε Unit) × σ
  | [], state => ([], state)
  | item :: rest, state =>
    let run := exec (program item) state
    let others := attempts program rest run.2
    ((item, run.1) :: others.1, others.2)

/-- The items whose program succeeded. -/
def succeeded (log : List (α × Except ε Unit)) : List α :=
  log.filterMap fun entry => entry.2.toOption.map fun _ => entry.1

theorem attempts_invariant {program : α → ExceptT ε (StateM σ) Unit} {Good : σ → Prop}
    (hstep : ∀ item state, Good state → Good (exec (program item) state).2) (items : List α)
    {state : σ} (h : Good state) : Good (attempts program items state).2 := by
  induction items generalizing state with
  | nil => exact h
  | cons item rest ih => exact ih (hstep item state h)

/-- Programs on two kinds of states that stay related have the same outcomes. -/
theorem attempts_related {program : α → ExceptT ε (StateM σ) Unit}
    {other : α → ExceptT ε (StateM τ) Unit} {Related : σ → τ → Prop}
    (hstep : ∀ item state state', Related state state' →
      (exec (program item) state).1 = (exec (other item) state').1 ∧
        Related (exec (program item) state).2 (exec (other item) state').2)
    (items : List α) {state : σ} {state' : τ} (h : Related state state') :
    (attempts program items state).1 = (attempts other items state').1 ∧
      Related (attempts program items state).2 (attempts other items state').2 := by
  induction items generalizing state state' with
  | nil => exact ⟨rfl, h⟩
  | cons item rest ih =>
      obtain ⟨hitem, hnext⟩ := hstep item state state' h
      obtain ⟨hrest, hlast⟩ := ih hnext
      exact ⟨by simp only [attempts, hitem, hrest], hlast⟩

end Attempts

namespace AnchorTable

/-- Pushes an anchor onto a table that is kept in place. -/
def add (anchor : Anchor) : ExceptT ConstantError (StateM AnchorTable) Unit := do
  set (← liftM ((← get).push anchor))

theorem exec_add (anchor : Anchor) (table : AnchorTable) :
    exec (add anchor) table = match table.push anchor with
      | .ok next => (.ok (), next)
      | .error error => (.error error, table) := by
  rw [add, exec_bind, exec_get]
  simp only [exec_bind, exec_liftM]
  cases table.push anchor with
  | ok next => rfl
  | error error => rfl

theorem unchanged_of_error {anchor : Anchor} {table : AnchorTable} {error : ConstantError} :
    (exec (add anchor) table).1 = .error error → (exec (add anchor) table).2 = table := by
  rw [exec_add]
  cases table.push anchor with
  | ok _ => exact nofun
  | error _ => exact fun _ => rfl

/-- The anchors are those whose push succeeded, after those of before. -/
theorem anchors_attempts (pushes : List Anchor) (table : AnchorTable) :
    (attempts add pushes table).2.anchors =
      table.anchors ++ succeeded (attempts add pushes table).1 := by
  induction pushes generalizing table with
  | nil => simp [attempts, succeeded]
  | cons anchor rest ih =>
      simp only [attempts, exec_add]
      cases hpush : table.push anchor with
      | error error => exact ih table
      | ok next =>
          simp only [ih next, anchors_push hpush, List.append_assoc]
          rfl

/-- Pushes that stop at the first failure succeed together if each of them succeeds. -/
theorem foldlM_push_eq_ok {pushes : List Anchor} {table last : AnchorTable} :
    pushes.foldlM push table = .ok last ↔
      (∀ entry ∈ (attempts add pushes table).1, entry.2 = .ok ()) ∧
        last = (attempts add pushes table).2 := by
  induction pushes generalizing table with
  | nil => simp [attempts, pure, Except.pure, eq_comm]
  | cons anchor rest ih =>
      simp only [List.foldlM_cons, attempts, exec_add, List.forall_mem_cons]
      cases hpush : table.push anchor with
      | error error => simp [bind, Except.bind]
      | ok next => simpa [bind, Except.bind] using ih

/-- A table that could have been put together from its anchors, none of which would be refused. -/
def Pushed (table : AnchorTable) : Prop :=
  ofList table.anchors = .ok table

theorem pushed_add (anchor : Anchor) (table : AnchorTable) (h : table.Pushed) :
    (exec (add anchor) table).2.Pushed := by
  rw [exec_add]
  cases hpush : table.push anchor with
  | error error => exact h
  | ok next =>
      rw [Pushed, ofList] at h
      rw [Pushed, ofList, anchors_push hpush, List.foldlM_append, h]
      simp [hpush, bind, Except.bind, pure, Except.pure]

namespace Pushed

variable {table : AnchorTable} {before after : List Anchor} {anchor : Anchor}

theorem names_nodup (h : table.Pushed) : (table.anchors.map (·.name)).Nodup :=
  nodup_map_iff.mpr fun before anchor after hsplit =>
    ((ofList_decides table.anchors).passed table h before anchor after hsplit).1

/-- A parent stands before what is nested under it. -/
theorem exists_parent (h : table.Pushed) (hsplit : table.anchors = before ++ anchor :: after)
    {parent : String} (hparent : anchor.parent = some parent) :
    ∃ outer ∈ before, outer.name = parent :=
  List.mem_map.mp <|
    ((ofList_decides table.anchors).passed table h before anchor after hsplit).2 parent hparent

theorem find?_eq_some (h : table.Pushed) {name : String} :
    table.find? name = some anchor ↔ anchor ∈ table.anchors ∧ anchor.name = name := by
  constructor
  · intro hfound
    exact ⟨List.mem_of_find?_eq_some hfound, by simpa using List.find?_some hfound⟩
  · rintro ⟨hmem, rfl⟩
    have hlisted : table.contains anchor.name := contains_iff.mpr (List.mem_map_of_mem hmem)
    obtain ⟨other, hother⟩ := Option.isSome_iff_exists.mp hlisted
    have hname : other.name = anchor.name := by simpa using List.find?_some hother
    rw [hother, List.inj_on_of_nodup_map h.names_nodup (List.mem_of_find?_eq_some hother) hmem
      hname]

end Pushed

/-- The anchor that is reached from another one by a number of steps to the declared parent. -/
def above? (table : AnchorTable) : Nat → Anchor → Option Anchor
  | 0, anchor => some anchor
  | steps + 1, anchor => (anchor.parent.bind table.find?).bind (table.above? steps)

/-- The climb from an anchor ends, at one that has no parent, before it runs out of anchors. -/
theorem Pushed.exists_outermost {table : AnchorTable} (h : table.Pushed)
    {before after : List Anchor} {anchor : Anchor}
    (hsplit : table.anchors = before ++ anchor :: after) :
    ∃ steps top, steps ≤ before.length ∧ table.above? steps anchor = some top ∧
      top.parent = none := by
  induction hlength : before.length using Nat.strongRecOn generalizing before anchor after with
  | _ length ih =>
    cases hparent : anchor.parent with
    | none => exact ⟨0, anchor, Nat.zero_le _, rfl, hparent⟩
    | some parent =>
        obtain ⟨outer, houter, rfl⟩ := h.exists_parent hsplit hparent
        obtain ⟨first, second, rfl⟩ := List.append_of_mem houter
        have hfound : table.find? outer.name = some outer :=
          h.find?_eq_some.mpr ⟨by simp [hsplit], rfl⟩
        have hshorter : first.length < length := by
          rw [← hlength, List.length_append, List.length_cons]
          omega
        obtain ⟨steps, top, hsteps, htop, houtermost⟩ :=
          ih first.length hshorter (by simpa using hsplit) rfl
        refine ⟨steps + 1, top, by omega, ?_, houtermost⟩
        simpa [above?, hparent, hfound] using htop

end AnchorTable

theorem getElem?_concat_eq_some {α : Type} {items : List α} {last item : α} {position : Nat} :
    (items ++ [last])[position]? = some item ↔
      items[position]? = some item ∨ position = items.length ∧ last = item := by
  rw [List.getElem?_append]
  split
  · rename_i hlt
    have hne : position ≠ items.length := Nat.ne_of_lt hlt
    simp [hne]
  · rename_i hle
    have hfirst : position - items.length = 0 ↔ position = items.length := by omega
    simp [List.getElem?_eq_none (Nat.le_of_not_lt hle), List.getElem?_singleton, hfirst]

/-- Anchors in the order of their declaration, and the position of each name among them. -/
structure IndexedTable where
  anchors : Array Anchor := #[]
  index : Std.HashMap String Nat := ∅

namespace IndexedTable

def contains (indexed : IndexedTable) (name : String) : Bool :=
  indexed.index.contains name

def find? (indexed : IndexedTable) (name : String) : Option Anchor :=
  indexed.index[name]?.bind fun position => indexed.anchors[position]?

/-- Whether an anchor may be pushed. -/
def check (indexed : IndexedTable) (anchor : Anchor) : Except ConstantError Unit :=
  if indexed.contains anchor.name then .error (.topology anchor.name .anchorDeclaredTwice)
  else
    match anchor.parent with
    | some parent =>
      if indexed.contains parent then .ok ()
      else .error (.topology anchor.name (.parentUndeclared parent))
    | none => .ok ()

/-- Pushes an anchor in place: onto the index first, with the position that it is about to take. -/
def add (anchor : Anchor) : ExceptT ConstantError (StateM IndexedTable) Unit := do
  liftM ((← get).check anchor)
  modify fun indexed =>
    { indexed with index := indexed.index.insert anchor.name indexed.anchors.size }
  modify fun indexed => { indexed with anchors := indexed.anchors.push anchor }

/-- A table after a push that is not refused. -/
def extended (indexed : IndexedTable) (anchor : Anchor) : IndexedTable where
  anchors := indexed.anchors.push anchor
  index := indexed.index.insert anchor.name indexed.anchors.size

theorem exec_add (anchor : Anchor) (indexed : IndexedTable) :
    exec (add anchor) indexed = match indexed.check anchor with
      | .ok _ => (.ok (), indexed.extended anchor)
      | .error error => (.error error, indexed) := by
  rw [add, exec_bind, exec_get]
  simp only [exec_bind, exec_liftM]
  cases indexed.check anchor with
  | ok _ => rfl
  | error error => rfl

/-- A table and its counterpart with an index: the index has a name with a position exactly if the
anchor there has that name. -/
structure Represents (indexed : IndexedTable) (table : AnchorTable) : Prop where
  anchors : indexed.anchors.toList = table.anchors
  index : ∀ name position, indexed.index[name]? = some position ↔
    ∃ anchor : Anchor, table.anchors[position]? = some anchor ∧ anchor.name = name

theorem represents_empty : Represents {} .empty := by
  refine ⟨rfl, fun name position => ?_⟩
  simp [AnchorTable.empty]

namespace Represents

variable {indexed : IndexedTable} {table : AnchorTable}

theorem contains_eq (h : indexed.Represents table) (name : String) :
    indexed.contains name = table.contains name := by
  rw [Bool.eq_iff_iff, AnchorTable.contains_iff, List.mem_map, contains,
    Std.HashMap.contains_iff_mem, Std.HashMap.mem_iff_isSome_getElem?, Option.isSome_iff_exists]
  simp only [h.index, List.mem_iff_getElem?]
  constructor
  · rintro ⟨position, anchor, hanchor, hname⟩
    exact ⟨anchor, ⟨position, hanchor⟩, hname⟩
  · rintro ⟨anchor, ⟨position, hanchor⟩, hname⟩
    exact ⟨position, anchor, hanchor, hname⟩

/-- A look-up through the index finds what a search finds. -/
theorem find?_eq (h : indexed.Represents table) (name : String) :
    indexed.find? name = table.find? name := by
  have hposition : ∀ position : Nat, indexed.anchors[position]? = table.anchors[position]? := by
    intro position
    rw [← h.anchors, Array.getElem?_toList]
  cases hfound : table.find? name with
  | none =>
      have hnone : indexed.index[name]? = none := by
        rw [Option.eq_none_iff_forall_ne_some]
        intro position hindex
        obtain ⟨anchor, hanchor, hname⟩ := (h.index name position).mp hindex
        have hother := List.find?_eq_none.mp hfound anchor (List.mem_of_getElem? hanchor)
        exact hother (by simpa using hname)
      simp [find?, hnone]
  | some anchor =>
      obtain ⟨position, hanchor⟩ := List.mem_iff_getElem?.mp (List.mem_of_find?_eq_some hfound)
      have hname : anchor.name = name := by simpa using List.find?_some hfound
      have hindex := (h.index name position).mpr ⟨anchor, hanchor, hname⟩
      simp [find?, hindex, hposition, hanchor]

theorem push_eq (h : indexed.Represents table) (anchor : Anchor) :
    table.push anchor = (indexed.check anchor).map fun _ => ⟨table.anchors ++ [anchor]⟩ := by
  cases hparent : anchor.parent with
  | none =>
      simp only [AnchorTable.push, check, h.contains_eq, hparent]
      split
      · rfl
      · rfl
  | some parent =>
      simp only [AnchorTable.push, check, h.contains_eq, hparent]
      split
      · rfl
      · split
        · rfl
        · rfl

/-- A new name takes the first free position. -/
theorem extended (h : indexed.Represents table) {anchor : Anchor}
    (hnew : ¬ table.contains anchor.name) :
    (indexed.extended anchor).Represents ⟨table.anchors ++ [anchor]⟩ := by
  have hsize : indexed.anchors.size = table.anchors.length := by
    rw [← h.anchors, Array.length_toList]
  refine ⟨by simp [IndexedTable.extended, h.anchors], fun name position => ?_⟩
  simp only [IndexedTable.extended, Std.HashMap.getElem?_insert, hsize, getElem?_concat_eq_some,
    or_and_right, exists_or, ← h.index]
  by_cases hname : anchor.name = name
  · subst hname
    have hnone : indexed.index[anchor.name]? = none := by
      rw [← h.contains_eq] at hnew
      simpa [IndexedTable.contains] using hnew
    simp [hnone, eq_comm]
  · simp [hname]

/-- Pushed onto both, an anchor is accepted or refused by both. -/
theorem add (h : indexed.Represents table) (anchor : Anchor) :
    (exec (IndexedTable.add anchor) indexed).1 = (exec (AnchorTable.add anchor) table).1 ∧
      (exec (IndexedTable.add anchor) indexed).2.Represents
        (exec (AnchorTable.add anchor) table).2 := by
  rw [exec_add, AnchorTable.exec_add, h.push_eq]
  cases hcheck : indexed.check anchor with
  | error error => exact ⟨rfl, h⟩
  | ok _ =>
      have hpush : table.push anchor = .ok ⟨table.anchors ++ [anchor]⟩ := by
        rw [h.push_eq, hcheck]
        rfl
      have hnew := ((table.push_decides anchor).passed _ hpush).1
      rw [← AnchorTable.contains_iff] at hnew
      exact ⟨rfl, h.extended hnew⟩

end Represents

theorem represents_attempts (pushes : List Anchor) :
    (attempts add pushes {}).1 = (attempts AnchorTable.add pushes .empty).1 ∧
      (attempts add pushes {}).2.Represents (attempts AnchorTable.add pushes .empty).2 :=
  attempts_related (fun anchor _ _ h => h.add anchor) pushes represents_empty

theorem unchanged_of_error {anchor : Anchor} {indexed : IndexedTable} {error : ConstantError} :
    (exec (add anchor) indexed).1 = .error error → (exec (add anchor) indexed).2 = indexed := by
  rw [exec_add]
  cases indexed.check anchor with
  | ok _ => exact nofun
  | error _ => exact fun _ => rfl

end IndexedTable

namespace AnchorTable

/-- A table of the given anchors in their order. Look-ups find these and no others, and the climb
from each of them to its declared parents ends. -/
structure Lists (table : AnchorTable) (kept : List Anchor) : Prop where
  anchors : table.anchors = kept
  names_nodup : (kept.map (·.name)).Nodup
  contains : ∀ name, table.contains name ↔ ∃ anchor ∈ kept, anchor.name = name
  find? : ∀ name anchor, table.find? name = some anchor ↔ anchor ∈ kept ∧ anchor.name = name
  parent_before : ∀ before anchor after, kept = before ++ anchor :: after →
    ∀ parent, anchor.parent = some parent → ∃ outer ∈ before, outer.name = parent
  outermost : ∀ anchor ∈ kept, ∃ steps top, steps < kept.length ∧
    table.above? steps anchor = some top ∧ top.parent = none

theorem Pushed.lists {table : AnchorTable} (h : table.Pushed) : table.Lists table.anchors where
  anchors := rfl
  names_nodup := h.names_nodup
  contains _ := contains_iff.trans List.mem_map
  find? _ _ := h.find?_eq_some
  parent_before _ _ _ hsplit _ hparent := h.exists_parent hsplit hparent
  outermost anchor hanchor := by
    obtain ⟨before, after, hsplit⟩ := List.append_of_mem hanchor
    obtain ⟨steps, top, hsteps, htop, houtermost⟩ := h.exists_outermost hsplit
    have hlength : before.length < table.anchors.length := by simp [hsplit]
    exact ⟨steps, top, Nat.lt_of_le_of_lt hsteps hlength, htop, houtermost⟩

/-- A push succeeds exactly if it takes a new name, and names a parent that is there or none. -/
theorem exec_add_eq_ok {anchor : Anchor} {table : AnchorTable} :
    (exec (add anchor) table).1 = .ok () ↔ ¬ table.contains anchor.name ∧
      ∀ parent, anchor.parent = some parent → table.contains parent := by
  simp only [exec_add, contains_iff]
  have hdecides := table.push_decides anchor
  cases hpush : table.push anchor with
  | ok next => simpa using hdecides.passed next hpush
  | error error => simpa using (hdecides.failed error hpush).2

/-- What any pushes make of an empty table, whether they succeed or not: a table of the anchors
whose push succeeded. A push changes nothing where it fails, and it succeeds exactly if it takes a
new name and its parent is there. The same anchors are put together at once exactly if all of the
pushes succeed, and to the same table.

A table with an index has the same outcomes and the same look-ups, its index and the positions of
its anchors are in bijection, and it is left as it was by a push that fails. -/
theorem pushes_laws (pushes : List Anchor) :
    let log := (attempts add pushes empty).1
    let table := (attempts add pushes empty).2
    let indexed := (attempts IndexedTable.add pushes {}).2
    table.Lists (succeeded log) ∧
      (∀ anchor, (exec (add anchor) table).1 = .ok () ↔ ¬ table.contains anchor.name ∧
        ∀ parent, anchor.parent = some parent → table.contains parent) ∧
      (∀ anchor error, (exec (add anchor) table).1 = .error error →
        (exec (add anchor) table).2 = table) ∧
      (∀ last, ofList pushes = .ok last ↔
        (∀ entry ∈ log, entry.2 = .ok ()) ∧ last = table) ∧
      (attempts IndexedTable.add pushes {}).1 = log ∧
      indexed.Represents table ∧
      (∀ name, indexed.contains name = table.contains name ∧
        indexed.find? name = table.find? name) ∧
      ∀ anchor error, (exec (IndexedTable.add anchor) indexed).1 = .error error →
        (exec (IndexedTable.add anchor) indexed).2 = indexed := by
  intro log table indexed
  have hpushed : table.Pushed := attempts_invariant pushed_add pushes rfl
  have hkept : table.anchors = succeeded log := anchors_attempts pushes empty
  obtain ⟨hlog, hindexed⟩ := IndexedTable.represents_attempts pushes
  refine ⟨hkept ▸ hpushed.lists, fun _ => exec_add_eq_ok, fun _ _ => unchanged_of_error,
    fun _ => foldlM_push_eq_ok, hlog, hindexed, ?_, fun _ _ => IndexedTable.unchanged_of_error⟩
  exact fun name => ⟨hindexed.contains_eq name, hindexed.find?_eq name⟩

/-- A method anchor is refused until the class anchor that encloses it is there. -/
example :
    let outer : Anchor := ⟨"T", .ofClass, none⟩
    let inner : Anchor := ⟨"M", .ofMethod, some "T"⟩
    (attempts add [inner, outer, inner, outer] empty).2.anchors = [outer, inner] := by
  decide

end AnchorTable

end Specialization

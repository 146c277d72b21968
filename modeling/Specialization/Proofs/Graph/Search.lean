import Mathlib.Data.List.Basic
import Mathlib.Logic.Relation
import Specialization.Graph

/-!
What a depth-first search finds and finishes. One part of a search is described by `Explores`,
which composes, so a whole search needs no second induction: it finishes what it finds, it finishes
nothing twice, and with as much fuel as there are nodes it finds exactly what its start leads to.
-/

namespace Specialization

namespace Graph

variable {next : String → List String}

/-- Nothing is finished twice, and nothing that was not found. -/
structure Search.Valid (search : Search) : Prop where
  nodup : search.finished.Nodup
  found : ∀ node ∈ search.finished, node ∈ search.found

/-- A node that is found and not finished is on the way down to the current one. -/
def Search.Open (search : Search) (node : String) : Prop :=
  node ∈ search.found ∧ node ∉ search.finished

theorem Search.Valid.open {search : Search} (h : search.Valid) (node : String) :
    Search.Valid { search with found := node :: search.found } :=
  ⟨h.nodup, fun other hother => List.mem_cons_of_mem node (h.found other hother)⟩

/-- What a part of a search does to its state: both lists grow, and all that it finds is finished
at its end, so the nodes on the way down stay the same. -/
structure Explores (before after : Search) : Prop where
  found : ∀ node ∈ before.found, node ∈ after.found
  finished : ∀ node ∈ before.finished, node ∈ after.finished
  still_open : ∀ node, after.Open node ↔ before.Open node
  valid : before.Valid → after.Valid

theorem Explores.refl (search : Search) : Explores search search :=
  ⟨fun _ h => h, fun _ h => h, fun _ => Iff.rfl, fun h => h⟩

theorem Explores.trans {first second third : Search} (h : Explores first second)
    (h' : Explores second third) : Explores first third where
  found node hnode := h'.found node (h.found node hnode)
  finished node hnode := h'.finished node (h.finished node hnode)
  still_open node := (h'.still_open node).trans (h.still_open node)
  valid hvalid := h'.valid (h.valid hvalid)

theorem Explores.foldl {visit : Search → String → Search}
    (hvisit : ∀ search node, search.Valid → Explores search (visit search node))
    (nodes : List String) (search : Search) (hvalid : search.Valid) :
    Explores search (nodes.foldl visit search) := by
  induction nodes generalizing search with
  | nil => exact Explores.refl search
  | cons node rest ih =>
      have hstep := hvisit search node hvalid
      exact hstep.trans (ih (visit search node) (hstep.valid hvalid))

/-- Opening a node, exploring below it and finishing it explores. -/
theorem Explores.around {search below : Search} {node : String} (hnew : node ∉ search.found)
    (hvalid : search.Valid)
    (h : Explores { search with found := node :: search.found } below) :
    Explores search { below with finished := node :: below.finished } := by
  have hunfinished : node ∉ search.finished := fun hmem => hnew (hvalid.found node hmem)
  have hopen : below.Open node :=
    (h.still_open node).mpr ⟨List.mem_cons_self, hunfinished⟩
  refine ⟨?_, ?_, ?_, ?_⟩
  · intro other hother
    exact h.found other (List.mem_cons_of_mem node hother)
  · intro other hother
    exact List.mem_cons_of_mem node (h.finished other hother)
  · intro other
    have hbelow := h.still_open other
    simp only [Search.Open, List.mem_cons, not_or] at hbelow ⊢
    constructor
    · rintro ⟨hfound, hne, hnot⟩
      obtain ⟨heq | hold, hnot'⟩ := hbelow.mp ⟨hfound, hnot⟩
      · exact absurd heq hne
      · exact ⟨hold, hnot'⟩
    · rintro ⟨hfound, hnot⟩
      have hne : other ≠ node := fun heq => hnew (heq ▸ hfound)
      obtain ⟨hfound', hnot'⟩ := hbelow.mpr ⟨Or.inr hfound, hnot⟩
      exact ⟨hfound', hne, hnot'⟩
  · intro _
    have hbelow : below.Valid := h.valid (hvalid.open node)
    refine ⟨List.nodup_cons.mpr ⟨hopen.2, hbelow.nodup⟩, ?_⟩
    intro other hother
    rcases List.mem_cons.mp hother with heq | hold
    · exact heq ▸ hopen.1
    · exact hbelow.found other hold

theorem visit_explores (fuel : Nat) (search : Search) (node : String) (hvalid : search.Valid) :
    Explores search (visit next fuel search node) := by
  induction fuel generalizing search node with
  | zero => exact Explores.refl search
  | succ fuel ih =>
      rw [visit]
      split
      · exact Explores.refl search
      · rename_i hnew
        have hnew : node ∉ search.found := by simpa using hnew
        apply Explores.around hnew hvalid
        exact Explores.foldl ih (next node) _ (hvalid.open node)

private theorem foldl_sound {reaches : String → String → Prop} {visit : Search → String → Search}
    (hvisit : ∀ search child other, other ∈ (visit search child).found →
      other ∈ search.found ∨ reaches child other)
    (below : List String) (search : Search) (other : String)
    (hother : other ∈ (below.foldl visit search).found) :
    other ∈ search.found ∨ ∃ child ∈ below, reaches child other := by
  induction below generalizing search with
  | nil => exact Or.inl hother
  | cons child rest ih =>
      rcases ih (visit search child) hother with hfound | ⟨later, hlater, hreaches⟩
      · rcases hvisit search child other hfound with hold | hreaches
        · exact Or.inl hold
        · exact Or.inr ⟨child, List.mem_cons_self, hreaches⟩
      · exact Or.inr ⟨later, List.mem_cons_of_mem child hlater, hreaches⟩

/-- Everything that is found was found before or is led to. -/
theorem visit_sound (fuel : Nat) (search : Search) (node other : String)
    (hother : other ∈ (visit next fuel search node).found) :
    other ∈ search.found ∨ Relation.ReflTransGen (fun a b => b ∈ next a) node other := by
  induction fuel generalizing search node other with
  | zero => exact Or.inl hother
  | succ fuel ih =>
      rw [visit] at hother
      split at hother
      · exact Or.inl hother
      · rcases foldl_sound ih (next node) _ other hother with hfound | ⟨child, hchild, hreach⟩
        · rcases List.mem_cons.mp hfound with heq | hold
          · exact Or.inr (heq ▸ Relation.ReflTransGen.refl)
          · exact Or.inl hold
        · exact Or.inr (hreach.head hchild)

/-- Whatever a finished node leads to is found. -/
def Search.Closed (next : String → List String) (search : Search) : Prop :=
  ∀ node ∈ search.finished, ∀ child ∈ next node, child ∈ search.found

/-- The nodes that are still to be found. -/
def Search.unfound (nodes : List String) (search : Search) : List String :=
  nodes.filter fun node => !search.found.contains node

theorem Search.mem_unfound {nodes : List String} {search : Search} {node : String} :
    node ∈ search.unfound nodes ↔ node ∈ nodes ∧ node ∉ search.found := by
  simp [Search.unfound]

theorem Search.unfound_length_le {nodes : List String} {before after : Search}
    (h : ∀ node ∈ before.found, node ∈ after.found) :
    (after.unfound nodes).length ≤ (before.unfound nodes).length := by
  apply (List.monotone_filter_right nodes _).length_le
  intro node hnode
  simp only [Bool.not_eq_true', List.contains_eq_mem, decide_eq_false_iff_not] at hnode ⊢
  exact fun hbefore => hnode (h node hbefore)

theorem Search.unfound_length_lt {nodes : List String} {search : Search} {node : String}
    (hnode : node ∈ nodes) (hnew : node ∉ search.found) :
    (Search.unfound nodes { search with found := node :: search.found }).length <
      (search.unfound nodes).length := by
  have hsub : (Search.unfound nodes { search with found := node :: search.found }) =
      (search.unfound nodes).filter (· ≠ node) := by
    rw [Search.unfound, Search.unfound, List.filter_filter]
    apply List.filter_congr
    intro other _
    simp
  rw [hsub]
  apply List.length_filter_lt_length_iff_exists.mpr
  exact ⟨node, Search.mem_unfound.mpr ⟨hnode, hnew⟩, by simp⟩

/-- Visits that keep a search closed and find their node do so one after the other: what one of
them found stays found, and the fuel stays enough. -/
private theorem foldl_closed {nodes : List String} {fuel : Nat} {visit : Search → String → Search}
    (hexplores : ∀ search child, search.Valid → Explores search (visit search child))
    (hvisit : ∀ search child, child ∈ nodes → search.Valid →
      (search.unfound nodes).length ≤ fuel → search.Closed next →
      (visit search child).Closed next ∧ child ∈ (visit search child).found)
    (below : List String) (search : Search) (hbelow : ∀ child ∈ below, child ∈ nodes)
    (hvalid : search.Valid) (hfuel : (search.unfound nodes).length ≤ fuel)
    (hclosed : search.Closed next) :
    (below.foldl visit search).Closed next ∧
      ∀ child ∈ below, child ∈ (below.foldl visit search).found := by
  induction below generalizing search with
  | nil => exact ⟨hclosed, fun _ hchild => absurd hchild List.not_mem_nil⟩
  | cons child rest ih =>
      have hstep := hexplores search child hvalid
      obtain ⟨hclosedNext, hfound⟩ :=
        hvisit search child (hbelow child List.mem_cons_self) hvalid hfuel hclosed
      have hfuelNext :
          ((visit search child).unfound nodes).length ≤ (search.unfound nodes).length :=
        Search.unfound_length_le hstep.found
      obtain ⟨hclosedEnd, hrest⟩ := ih (visit search child)
        (fun later hlater => hbelow later (List.mem_cons_of_mem child hlater))
        (hstep.valid hvalid) (by omega) hclosedNext
      have hlater := Explores.foldl hexplores rest (visit search child) (hstep.valid hvalid)
      refine ⟨hclosedEnd, ?_⟩
      intro other hother
      rcases List.mem_cons.mp hother with heq | hmem
      · exact heq ▸ hlater.found child hfound
      · exact hrest other hmem

/-- With a unit of fuel for each node that is still to be found, a visit finds its node and leaves
no finished node with an edge to a node that is not found. -/
theorem visit_closed {nodes : List String}
    (hnext : ∀ node ∈ nodes, ∀ child ∈ next node, child ∈ nodes) (fuel : Nat) (search : Search)
    (node : String) (hnode : node ∈ nodes) (hvalid : search.Valid)
    (hfuel : (search.unfound nodes).length ≤ fuel) (hclosed : search.Closed next) :
    (visit next fuel search node).Closed next ∧ node ∈ (visit next fuel search node).found := by
  induction fuel generalizing search node with
  | zero =>
      have hempty : search.unfound nodes = [] := List.eq_nil_of_length_eq_zero (by omega)
      refine ⟨hclosed, ?_⟩
      by_contra hnew
      have hmem : node ∈ search.unfound nodes := Search.mem_unfound.mpr ⟨hnode, hnew⟩
      rw [hempty] at hmem
      cases hmem
  | succ fuel ih =>
      rw [visit]
      split
      · rename_i hfound
        exact ⟨hclosed, by simpa using hfound⟩
      · rename_i hnew
        have hnew : node ∉ search.found := by simpa using hnew
        have hopened : Search.Valid { search with found := node :: search.found } :=
          hvalid.open node
        have hunits := Search.unfound_length_lt hnode hnew
        obtain ⟨hclosedBelow, hchildren⟩ := foldl_closed (visit_explores fuel) ih (next node)
          { search with found := node :: search.found } (hnext node hnode) hopened (by omega)
          (fun other hother child hchild =>
            List.mem_cons_of_mem node (hclosed other hother child hchild))
        have hbelow : Explores { search with found := node :: search.found }
            ((next node).foldl (visit next fuel) { search with found := node :: search.found }) :=
          Explores.foldl (visit_explores fuel) (next node) _ hopened
        refine ⟨?_, hbelow.found node List.mem_cons_self⟩
        intro other hother child hchild
        rcases List.mem_cons.mp hother with heq | hold
        · exact hchildren child (heq ▸ hchild)
        · exact hclosedBelow other hold child hchild

variable {graph : Graph}

theorem searchFrom_explores (start : List String) : Explores {} (graph.searchFrom start) :=
  Explores.foldl (visit_explores graph.nodes.length) start {} ⟨List.nodup_nil, by simp⟩

theorem searchFrom_valid (start : List String) : (graph.searchFrom start).Valid :=
  (searchFrom_explores start).valid ⟨List.nodup_nil, by simp⟩

/-- At the end of a search nothing is open. -/
theorem mem_finished_searchFrom {start : List String} {node : String} :
    node ∈ (graph.searchFrom start).finished ↔ node ∈ (graph.searchFrom start).found := by
  refine ⟨(searchFrom_valid start).found node, fun hfound => ?_⟩
  by_contra hnot
  have hopen := ((searchFrom_explores start).still_open node).mp ⟨hfound, hnot⟩
  exact absurd hopen.1 List.not_mem_nil

/-- A node leads to another one in any number of steps, none included. -/
def Leads (graph : Graph) : String → String → Prop :=
  Relation.ReflTransGen fun node child => child ∈ graph.next node

/-- All edges lead to nodes of the graph. -/
def Wired (graph : Graph) : Prop :=
  ∀ node ∈ graph.nodes, ∀ child ∈ graph.next node, child ∈ graph.nodes

theorem Wired.leads (hwired : graph.Wired) {node other : String} (hnode : node ∈ graph.nodes)
    (hleads : graph.Leads node other) : other ∈ graph.nodes := by
  induction hleads with
  | refl => exact hnode
  | tail _ hedge ih => exact hwired _ ih _ hedge

theorem searchFrom_sound (start : List String) (node : String)
    (hnode : node ∈ (graph.searchFrom start).found) : ∃ first ∈ start, graph.Leads first node := by
  rcases foldl_sound (visit_sound graph.nodes.length) start {} node hnode with hnone | hleads
  · exact absurd hnone List.not_mem_nil
  · exact hleads

theorem searchFrom_closed (hwired : graph.Wired) {start : List String}
    (hstart : ∀ node ∈ start, node ∈ graph.nodes) :
    (graph.searchFrom start).Closed graph.next ∧
      ∀ node ∈ start, node ∈ (graph.searchFrom start).found :=
  foldl_closed (visit_explores _) (visit_closed hwired graph.nodes.length) start {} hstart
    ⟨List.nodup_nil, by simp⟩ (List.length_filter_le _ _)
    fun _ hfinished => absurd hfinished List.not_mem_nil

/-- The search from a node finds exactly what the node leads to, whatever cycles there are. -/
theorem mem_reachable (hwired : graph.Wired) {node other : String} (hnode : node ∈ graph.nodes) :
    other ∈ graph.reachable node ↔ graph.Leads node other := by
  have hstart : ∀ first ∈ [node], first ∈ graph.nodes := by simpa using hnode
  obtain ⟨hclosed, hfound⟩ := searchFrom_closed hwired hstart
  constructor
  · intro hother
    obtain ⟨first, hfirst, hleads⟩ := searchFrom_sound [node] other hother
    rw [List.mem_singleton] at hfirst
    exact hfirst ▸ hleads
  · intro hleads
    induction hleads with
    | refl => exact hfound node List.mem_cons_self
    | tail _ hedge ih => exact hclosed _ (mem_finished_searchFrom.mpr ih) _ hedge

end Graph

end Specialization

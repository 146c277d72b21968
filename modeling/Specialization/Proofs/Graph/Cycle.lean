import Specialization.Proofs.Graph.Order

/-!
Cycles. When a search finishes a node, everything that the node leads to directly is finished
already, or is on the way down to the node and so leads back to it. An edge against the order that
the search gives therefore lies on a cycle, and an order is refused exactly if there is one.
-/

namespace Specialization

namespace Graph

/-- A node that leads to itself in one or more steps. -/
def OnCycle (graph : Graph) (node : String) : Prop :=
  Relation.TransGen (fun node child => child ∈ graph.next node) node node

variable {next : String → List String}

/-- Whatever a finished node leads to was finished before it, or leads back to it. -/
def Search.Backed (next : String → List String) (search : Search) : Prop :=
  ∀ newer node older, search.finished = newer ++ node :: older →
    ∀ child ∈ next node, child ∈ older ∨ Relation.ReflTransGen (fun a b => b ∈ next a) child node

/-- Visits of nodes that all open nodes lead to keep this, one after the other, since the same
nodes are open after each of them. -/
private theorem foldl_backed {nodes : List String}
    (hnext : ∀ node ∈ nodes, ∀ child ∈ next node, child ∈ nodes) {fuel : Nat}
    (hvisit : ∀ search node, node ∈ nodes → search.Valid →
      (search.unfound nodes).length ≤ fuel → search.Closed next →
      (∀ other, search.Open other → Relation.ReflTransGen (fun a b => b ∈ next a) other node) →
      search.Backed next → (visit next fuel search node).Backed next)
    (below : List String) (search : Search) (hbelow : ∀ child ∈ below, child ∈ nodes)
    (hvalid : search.Valid) (hfuel : (search.unfound nodes).length ≤ fuel)
    (hclosed : search.Closed next)
    (hopen : ∀ other, search.Open other → ∀ child ∈ below,
      Relation.ReflTransGen (fun a b => b ∈ next a) other child)
    (h : search.Backed next) : (below.foldl (visit next fuel) search).Backed next := by
  induction below generalizing search with
  | nil => exact h
  | cons child rest ih =>
      have hchild := hbelow child List.mem_cons_self
      have hstep : Explores search (visit next fuel search child) :=
        visit_explores fuel search child hvalid
      have hfuelNext : ((visit next fuel search child).unfound nodes).length ≤
          (search.unfound nodes).length := Search.unfound_length_le hstep.found
      apply ih (visit next fuel search child)
      · exact fun later hlater => hbelow later (List.mem_cons_of_mem child hlater)
      · exact hstep.valid hvalid
      · omega
      · exact (visit_closed hnext fuel search child hchild hvalid hfuel hclosed).1
      · intro other hother later hlater
        exact hopen other ((hstep.still_open other).mp hother) later
          (List.mem_cons_of_mem child hlater)
      · exact hvisit search child hchild hvalid hfuel hclosed
          (fun other hother => hopen other hother child List.mem_cons_self) h

theorem visit_backed {nodes : List String}
    (hnext : ∀ node ∈ nodes, ∀ child ∈ next node, child ∈ nodes) (fuel : Nat) (search : Search)
    (node : String) (hnode : node ∈ nodes) (hvalid : search.Valid)
    (hfuel : (search.unfound nodes).length ≤ fuel) (hclosed : search.Closed next)
    (hopen : ∀ other, search.Open other →
      Relation.ReflTransGen (fun a b => b ∈ next a) other node)
    (h : search.Backed next) : (visit next fuel search node).Backed next := by
  induction fuel generalizing search node with
  | zero => exact h
  | succ fuel ih =>
      have hfinal := (visit_closed hnext (fuel + 1) search node hnode hvalid hfuel hclosed).1
      rw [visit] at hfinal ⊢
      split
      · exact h
      · rename_i hnew
        simp only [hnew] at hfinal
        have hnew : node ∉ search.found := by simpa using hnew
        let opened : Search := { search with found := node :: search.found }
        have hopened : opened.Valid := hvalid.open node
        have hunits : (opened.unfound nodes).length < (search.unfound nodes).length :=
          Search.unfound_length_lt hnode hnew
        have hbelow : Explores opened ((next node).foldl (visit next fuel) opened) :=
          Explores.foldl (visit_explores fuel) (next node) opened hopened
        -- The node is open below itself, and leads to each of its children by one edge.
        have hway : ∀ other, opened.Open other →
            Relation.ReflTransGen (fun a b => b ∈ next a) other node := by
          rintro other ⟨hfound, hunfinished⟩
          rcases List.mem_cons.mp hfound with rfl | hold
          · exact .refl
          · exact hopen other ⟨hold, hunfinished⟩
        have hbacked := foldl_backed hnext ih (next node) opened (hnext node hnode) hopened
          (by omega)
          (fun other hother child hchild =>
            List.mem_cons_of_mem node (hclosed other hother child hchild))
          (fun other hother child hchild => (hway other hother).tail hchild) h
        intro newer first older hsplit child hchild
        rcases List.cons_eq_append_iff.mp hsplit with ⟨rfl, hcons⟩ | ⟨rest, rfl, hrest⟩
        · obtain ⟨rfl, rfl⟩ := List.cons.inj hcons
          have hfound := hfinal first List.mem_cons_self child hchild
          by_cases hfinished :
              child ∈ ((next first).foldl (visit next fuel) opened).finished
          · exact Or.inl hfinished
          · exact Or.inr (hway child ((hbelow.still_open child).mp ⟨hfound, hfinished⟩))
        · exact hbacked rest first older hrest child hchild

variable {graph : Graph}

theorem searchFrom_backed (hwired : graph.Wired) {start : List String}
    (hstart : ∀ node ∈ start, node ∈ graph.nodes) :
    (graph.searchFrom start).Backed graph.next :=
  foldl_backed hwired (visit_backed hwired graph.nodes.length) start {} hstart
    ⟨List.nodup_nil, by simp⟩ (List.length_filter_le _ _)
    (fun _ hfinished => absurd hfinished List.not_mem_nil)
    (fun _ hopen => absurd hopen.1 List.not_mem_nil)
    (fun newer node older hsplit => absurd hsplit (by simp))

/-- A back edge leads from a node to one that is finished after it. -/
theorem backEdge?_eq_some {edges : List (String × List String)} {finished : List String}
    {node : String} (h : backEdge? edges finished = some node) :
    ∃ newer later older, finished = newer ++ later :: older ∧ node ∈ older ∧
      ∃ edge ∈ edges, edge.1 = node ∧ later ∈ edge.2 := by
  induction finished with
  | nil => cases h
  | cons later rest ih =>
      rw [backEdge?, Option.or_eq_some_iff] at h
      rcases h with hfound | ⟨_, hrest⟩
      · obtain ⟨edge, hedge, rfl⟩ := Option.map_eq_some_iff.mp hfound
        have hleads := List.find?_some hedge
        simp only [Bool.and_eq_true, List.contains_eq_mem, decide_eq_true_eq] at hleads
        exact ⟨[], later, rest, rfl, hleads.2, edge, List.mem_of_find?_eq_some hedge, rfl,
          hleads.1⟩
      · obtain ⟨newer, last, older, rfl, hnode, hedge⟩ := ih hrest
        exact ⟨later :: newer, last, older, rfl, hnode, hedge⟩

/-- The node for which an order is refused lies on a cycle. -/
theorem order_eq_error (hwired : graph.Wired) {node : String}
    (h : graph.order = .error node) : graph.OnCycle node := by
  simp only [Graph.order] at h
  split at h
  · rename_i found hfound
    cases h
    rcases Option.or_eq_some_iff.mp hfound with hloop | ⟨_, hback⟩
    · have hself := List.find?_some hloop
      exact .single (by simpa using hself)
    · obtain ⟨newer, later, older, hfinished, holder, edge, hedge, rfl, hlater⟩ :=
        backEdge?_eq_some hback
      obtain ⟨name, _, rfl⟩ := List.mem_map.mp hedge
      obtain ⟨front, back, rfl⟩ := List.append_of_mem holder
      have hbacked := searchFrom_backed hwired fun _ hnode => hnode
      have hsplit : (graph.searchFrom graph.nodes).finished =
          (newer ++ later :: front) ++ name :: back := by
        rw [hfinished]
        simp
      rcases hbacked _ name back hsplit later hlater with hbefore | hleads
      · -- Nothing is finished twice.
        have hvalid : (graph.searchFrom graph.nodes).Valid := searchFrom_valid graph.nodes
        have hnodup := hvalid.nodup
        rw [hfinished] at hnodup
        have hnot := (List.nodup_cons.mp (List.Nodup.of_append_right hnodup)).1
        exact absurd (by simp [hbefore]) hnot
      · exact .head' hlater hleads
  · cases h

theorem Sorted.not_onCycle {order : List String} (h : graph.Sorted order)
    (hnodes : ∀ node child, child ∈ graph.next node → node ∈ order) (node : String) :
    ¬ graph.OnCycle node := by
  intro hcycle
  have hlt : ∀ {a b : String}, Relation.TransGen (fun node child => child ∈ graph.next node) a b →
      order.idxOf b < order.idxOf a := by
    intro a b hleads
    induction hleads with
    | single hchild => exact h.idxOf_lt (hnodes _ _ hchild) hchild
    | tail _ hchild ih => exact Nat.lt_trans (h.idxOf_lt (hnodes _ _ hchild) hchild) ih
  exact Nat.lt_irrefl _ (hlt hcycle)

end Graph

end Specialization

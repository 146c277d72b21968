import Mathlib.Data.List.Nodup
import Mathlib.Data.List.Perm.Basic
import Specialization.Proofs.Graph.Search

/-!
Orders of a graph in which each node comes after everything it leads to. The order that a search
gives is such an order: the two checks for cycles leave no edge against it.
-/

namespace Specialization

namespace Graph

variable {graph : Graph}

/-- Each node comes after all that it leads to. -/
def Sorted (graph : Graph) (order : List String) : Prop :=
  ∀ before node after, order = before ++ node :: after →
    ∀ child ∈ graph.next node, child ∈ before

theorem selfLoop?_eq_none {search : Search} (h : graph.selfLoop? search = none) {node : String}
    (hnode : node ∈ search.found) : node ∉ graph.next node := by
  have hall := List.find?_eq_none.mp h node (List.mem_reverse.mpr hnode)
  simpa using hall

/-- Without a back edge no node is led to by one that is finished before it. -/
theorem backEdge?_eq_none {edges : List (String × List String)} {finished : List String}
    (h : backEdge? edges finished = none) (before : List String) (node : String)
    (later : List String) (hsplit : finished = before ++ node :: later)
    (edge : String × List String) (hedge : edge ∈ edges) (hleads : node ∈ edge.2) :
    edge.1 ∉ later := by
  induction before generalizing finished with
  | nil =>
      subst hsplit
      simp only [List.nil_append, backEdge?, Option.or_eq_none_iff, Option.map_eq_none_iff,
        List.find?_eq_none] at h
      have hnot := h.1 edge hedge
      simpa [hleads] using hnot
  | cons first rest ih =>
      subst hsplit
      simp only [List.cons_append, backEdge?, Option.or_eq_none_iff] at h
      exact ih h.2 rfl

theorem order_eq_ok {order : List String} (h : graph.order = .ok order) :
    let search := graph.searchFrom graph.nodes
    graph.selfLoop? search = none ∧ backEdge? graph.edges search.finished = none ∧
      order = search.finished.reverse := by
  simp only [Graph.order] at h
  split at h
  · cases h
  · rename_i hnone
    rw [Option.or_eq_none_iff] at hnone
    cases h
    exact ⟨hnone.1, hnone.2, rfl⟩

/-- A search from all nodes finds all of them and nothing else. -/
theorem mem_found_searchFrom_nodes (hwired : graph.Wired) {node : String} :
    node ∈ (graph.searchFrom graph.nodes).found ↔ node ∈ graph.nodes := by
  constructor
  · intro hfound
    obtain ⟨start, hstart, hleads⟩ := searchFrom_sound graph.nodes node hfound
    exact hwired.leads hstart hleads
  · exact (searchFrom_closed hwired fun _ h => h).2 node

theorem order_perm (hwired : graph.Wired) (hnodup : graph.nodes.Nodup) {order : List String}
    (h : graph.order = .ok order) : order.Perm graph.nodes := by
  obtain ⟨_, _, rfl⟩ := order_eq_ok h
  have hfinished : (graph.searchFrom graph.nodes).finished.Nodup :=
    (searchFrom_valid graph.nodes).nodup
  apply (List.perm_ext_iff_of_nodup (List.nodup_reverse.mpr hfinished) hnodup).mpr
  intro node
  rw [List.mem_reverse, mem_finished_searchFrom, mem_found_searchFrom_nodes hwired]

theorem order_sorted (hwired : graph.Wired) {order : List String}
    (h : graph.order = .ok order) : graph.Sorted order := by
  obtain ⟨hloop, hback, rfl⟩ := order_eq_ok h
  intro before node after hsplit child hchild
  have hfinished : (graph.searchFrom graph.nodes).finished =
      after.reverse ++ node :: before.reverse := by
    rw [← List.reverse_reverse (graph.searchFrom graph.nodes).finished, hsplit]
    simp
  have hnode : node ∈ (graph.searchFrom graph.nodes).found := by
    rw [← mem_finished_searchFrom, hfinished]
    simp
  have hnodes : node ∈ graph.nodes := (mem_found_searchFrom_nodes hwired).mp hnode
  have hplace : child ∈ after.reverse ++ node :: before.reverse := by
    rw [← hfinished, mem_finished_searchFrom, mem_found_searchFrom_nodes hwired]
    exact hwired node hnodes child hchild
  simp only [List.mem_append, List.mem_cons, List.mem_reverse] at hplace
  rcases hplace with hafter | heq | hbefore
  · -- The child is finished after the node, so the second check finds the edge.
    obtain ⟨newer, older, holder⟩ := List.append_of_mem (List.mem_reverse.mpr hafter)
    have hsplit' : (graph.searchFrom graph.nodes).finished =
        newer ++ child :: (older ++ node :: before.reverse) := by
      rw [hfinished, holder]
      simp
    have hedge : (node, graph.next node) ∈ graph.edges := List.mem_map.mpr ⟨node, hnodes, rfl⟩
    have hnot := backEdge?_eq_none hback newer child _ hsplit' _ hedge hchild
    exact absurd (by simp) hnot
  · exact absurd (heq ▸ hchild) (selfLoop?_eq_none hloop hnode)
  · exact hbefore

/-- The part of an order that is closed under the edges is such an order too. -/
theorem Sorted.filter {order : List String} (h : graph.Sorted order) {kept : String → Bool}
    (hclosed : ∀ node child, child ∈ graph.next node → kept node → kept child) :
    graph.Sorted (order.filter kept) := by
  intro before node after hsplit child hchild
  obtain ⟨front, back, horder, rfl, hback⟩ := List.filter_eq_append_iff.mp hsplit
  obtain ⟨dropped, rest, rfl, hdropped, hnode, _⟩ := List.filter_eq_cons_iff.mp hback
  have hkept : kept child := hclosed node child hchild hnode
  have hmem : child ∈ front ++ dropped :=
    h (front ++ dropped) node rest (by simp [horder]) child hchild
  rcases List.mem_append.mp hmem with hfront | hdrop
  · exact List.mem_filter.mpr ⟨hfront, hkept⟩
  · exact absurd hkept (hdropped child hdrop)

/-- All that a node leads to comes before it, itself apart. -/
theorem Sorted.before_of_leads {order : List String} (h : graph.Sorted order)
    {before after : List String} {node other : String} (hsplit : order = before ++ node :: after)
    (hleads : graph.Leads node other) : other = node ∨ other ∈ before := by
  induction hleads with
  | refl => exact .inl rfl
  | @tail last child _ hchild ih =>
      rcases ih with rfl | hlast
      · exact .inr (h before last after hsplit child hchild)
      · obtain ⟨earlier, later, rfl⟩ := List.append_of_mem hlast
        have hplace : order = earlier ++ last :: (later ++ node :: after) := by
          rw [hsplit, List.append_assoc, List.cons_append]
        exact .inr (List.mem_append_left _ (h earlier last _ hplace child hchild))

/-- Where a node leads to the whole of an order without repetition, it is the last of it. -/
theorem Sorted.getLast?_eq {order : List String} (h : graph.Sorted order) (hnodup : order.Nodup)
    {node : String} (hnode : node ∈ order) (hall : ∀ other ∈ order, graph.Leads node other) :
    order.getLast? = some node := by
  obtain ⟨before, after, rfl⟩ := List.append_of_mem hnode
  have hend : after = [] := by
    rw [List.eq_nil_iff_forall_not_mem]
    intro other hother
    obtain ⟨_, hrest, hdisjoint⟩ := List.nodup_append.mp hnodup
    have hleads : graph.Leads node other := hall other (by simp [hother])
    rcases h.before_of_leads rfl hleads with rfl | hbefore
    · exact (List.nodup_cons.mp hrest).1 hother
    · exact hdisjoint other hbefore other (List.mem_cons_of_mem node hother) rfl
  rw [hend, List.getLast?_concat]

/-- In an order without repetition a node has a greater index than all that it leads to. -/
theorem Sorted.idxOf_lt {order : List String} (h : graph.Sorted order) {node child : String}
    (hnode : node ∈ order) (hchild : child ∈ graph.next node) :
    order.idxOf child < order.idxOf node := by
  obtain ⟨before, after, rfl, hnew⟩ := List.eq_append_cons_of_mem hnode
  have hbefore : child ∈ before := h before node after rfl child hchild
  rw [List.idxOf_append_of_mem hbefore, List.idxOf_append_of_notMem hnew]
  have hlt := List.idxOf_lt_length_of_mem hbefore
  omega

/-- Edges lead down a well-founded relation, once only the nodes of the order have any. -/
theorem Sorted.wellFounded {order : List String} (h : graph.Sorted order)
    (hnodes : ∀ node child, child ∈ graph.next node → node ∈ order) :
    WellFounded fun child node => child ∈ graph.next node :=
  Subrelation.wf (fun {child node} hchild => h.idxOf_lt (hnodes node child hchild) hchild)
    (InvImage.wf order.idxOf Nat.lt_wfRel.wf)

end Graph

end Specialization

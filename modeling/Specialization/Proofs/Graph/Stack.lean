import Specialization.Proofs.Graph.Search

/-!
The search by an explicit stack. Nodes wait on the stack, and a node may wait there several times:
it is pushed once for each edge from a node that is opened before it is found itself. Opened nodes
stay on the stack below what they lead to, so a node is finished when it is looked at for the second
time, and any further entry of it is dropped. A node that leads to itself stops the search at once.

The recursive search finds and finishes the same nodes in the same order. It carries on past a node
that leads to itself, so the check for these nodes goes over what it has found.

A search that finishes nothing only collects what its first node leads to.
-/

namespace Specialization

namespace Graph

/-- A search by a stack, next node first, with how it ends: with all that it finds, or with the
first node it finds that leads to itself. -/
inductive Descends (next : String → List String) :
    List String → Search → Except String Search → Prop where
  | done (search : Search) : Descends next [] search (.ok search)
  | stop {node : String} {stack : List String} {search : Search} (hnew : node ∉ search.found)
      (hloop : node ∈ next node) : Descends next (node :: stack) search (.error node)
  | push {node : String} {stack : List String} {search : Search} {result : Except String Search}
      (hnew : node ∉ search.found) (hplain : node ∉ next node)
      (hrest : Descends next
        ((next node).filter (fun child => child ∉ node :: search.found) ++ node :: stack)
        { search with found := node :: search.found } result) :
      Descends next (node :: stack) search result
  | finish {node : String} {stack : List String} {search : Search} {result : Except String Search}
      (hfound : node ∈ search.found) (hopen : node ∉ search.finished)
      (hrest : Descends next stack { search with finished := node :: search.finished } result) :
      Descends next (node :: stack) search result
  | drop {node : String} {stack : List String} {search : Search} {result : Except String Search}
      (hfound : node ∈ search.found) (hfinished : node ∈ search.finished)
      (hrest : Descends next stack search result) : Descends next (node :: stack) search result

/-- At most one step applies. -/
theorem Descends.unique {next : String → List String} {stack : List String} {search : Search}
    {result other : Except String Search} (h : Descends next stack search result)
    (h' : Descends next stack search other) : result = other := by
  induction h with
  | done search =>
      cases h'
      rfl
  | stop hnew hloop =>
      cases h' with
      | stop => rfl
      | push _ hplain => exact absurd hloop hplain
      | finish hfound => exact absurd hfound hnew
      | drop hfound => exact absurd hfound hnew
  | push hnew hplain _ ih =>
      cases h' with
      | stop _ hloop => exact absurd hloop hplain
      | push _ _ hrest => exact ih hrest
      | finish hfound => exact absurd hfound hnew
      | drop hfound => exact absurd hfound hnew
  | finish hfound hopen _ ih =>
      cases h' with
      | stop hnew => exact absurd hfound hnew
      | push hnew => exact absurd hfound hnew
      | finish _ _ hrest => exact ih hrest
      | drop _ hfinished => exact absurd hfinished hopen
  | drop hfound hfinished _ ih =>
      cases h' with
      | stop hnew => exact absurd hfound hnew
      | push hnew => exact absurd hfound hnew
      | finish _ hopen => exact absurd hfinished hopen
      | drop _ _ hrest => exact ih hrest

variable {graph : Graph}

/-- A search only adds to what it has found. -/
private theorem foldl_suffix {visit : Search → String → Search}
    (hvisit : ∀ search node, search.found <:+ (visit search node).found) (nodes : List String)
    (search : Search) : search.found <:+ (nodes.foldl visit search).found := by
  induction nodes generalizing search with
  | nil => exact List.suffix_rfl
  | cons node rest ih => exact (hvisit search node).trans (ih (visit search node))

theorem found_suffix_visit (next : String → List String) (fuel : Nat) (search : Search)
    (node : String) : search.found <:+ (visit next fuel search node).found := by
  induction fuel generalizing search node with
  | zero => exact List.suffix_rfl
  | succ fuel ih =>
      rw [visit]
      split
      · exact List.suffix_rfl
      · exact (List.suffix_cons node search.found).trans
          (foldl_suffix ih (next node) { search with found := node :: search.found })

theorem found_suffix_foldl (next : String → List String) (fuel : Nat) (nodes : List String)
    (search : Search) : search.found <:+ (nodes.foldl (visit next fuel) search).found :=
  foldl_suffix (found_suffix_visit next fuel) nodes search

/-- The first node found that leads to itself stays the first one. -/
theorem selfLoop?_of_suffix {before after : Search} (hsuffix : before.found <:+ after.found)
    {node : String} (h : graph.selfLoop? before = some node) :
    graph.selfLoop? after = some node := by
  obtain ⟨newer, hfound⟩ := hsuffix
  rw [selfLoop?] at h ⊢
  rw [← hfound, List.reverse_append, List.find?_append, h]
  rfl

theorem selfLoop?_open (search : Search) (node : String) :
    graph.selfLoop? { search with found := node :: search.found } =
      (graph.selfLoop? search).or (if node ∈ graph.next node then some node else none) := by
  simp [selfLoop?, List.find?_append]

/-- How a search by a stack ends that has come as far as the recursive one, which carries on past
nodes that lead to themselves. -/
def Continues (graph : Graph) (stack : List String) (search : Search)
    (result : Except String Search) : Prop :=
  match graph.selfLoop? search with
  | some node => result = .error node
  | none => Descends graph.next stack search result

theorem Continues.descends {stack : List String} {search : Search}
    {result : Except String Search} (h : graph.Continues stack search result)
    (hnone : graph.selfLoop? search = none) : Descends graph.next stack search result := by
  rwa [Continues, hnone] at h

theorem Continues.of_loop {stack : List String} {before after : Search}
    {result : Except String Search} (h : graph.Continues stack after result)
    (hsuffix : before.found <:+ after.found) {node : String}
    (hloop : graph.selfLoop? before = some node) : result = .error node := by
  rw [Continues, selfLoop?_of_suffix hsuffix hloop] at h
  exact h

/-- To look at a node, one may assume that no node found so far leads to itself. -/
theorem Continues.before {stack stack' : List String} {before after : Search}
    {result : Except String Search} (h : graph.Continues stack after result)
    (hsuffix : before.found <:+ after.found)
    (hplain : graph.selfLoop? before = none → Descends graph.next stack' before result) :
    graph.Continues stack' before result := by
  rw [Continues]
  split
  · rename_i node hloop
    exact h.of_loop hsuffix hloop
  · rename_i hnone
    exact hplain hnone

theorem visit_of_found {next : String → List String} {fuel : Nat} {search : Search} {node : String}
    (h : node ∈ search.found) : visit next fuel search node = search := by
  cases fuel with
  | zero => rfl
  | succ fuel => simp [visit, h]

/-- Nodes that were found before add nothing, whenever they are visited. -/
theorem foldl_visit_filter (next : String → List String) (fuel : Nat) (seen nodes : List String)
    (search : Search) (hseen : ∀ node ∈ seen, node ∈ search.found) :
    (nodes.filter fun child => child ∉ seen).foldl (visit next fuel) search =
      nodes.foldl (visit next fuel) search := by
  induction nodes generalizing search with
  | nil => rfl
  | cons node rest ih =>
      by_cases hnode : node ∈ seen
      · rw [List.filter_cons_of_neg (by simpa using hnode), List.foldl_cons,
          visit_of_found (hseen node hnode)]
        exact ih search hseen
      · rw [List.filter_cons_of_pos (by simpa using hnode), List.foldl_cons, List.foldl_cons]
        exact ih _ fun other hother =>
          (found_suffix_visit next fuel search node).subset (hseen other hother)

/-- Visits of several nodes, none of them open, are looked at one after the other. -/
private theorem continues_foldl {nodes : List String} {fuel : Nat}
    (hvisit : ∀ search node stack result, node ∈ nodes → search.Valid →
      (search.unfound nodes).length ≤ fuel → ¬ search.Open node →
      graph.Continues stack (visit graph.next fuel search node) result →
      graph.Continues (node :: stack) search result)
    (below : List String) (search : Search) (stack : List String) (result : Except String Search)
    (hbelow : ∀ child ∈ below, child ∈ nodes) (hvalid : search.Valid)
    (hfuel : (search.unfound nodes).length ≤ fuel) (hopen : ∀ child ∈ below, ¬ search.Open child)
    (h : graph.Continues stack (below.foldl (visit graph.next fuel) search) result) :
    graph.Continues (below ++ stack) search result := by
  induction below generalizing search with
  | nil => exact h
  | cons child rest ih =>
      have hstep : Explores search (visit graph.next fuel search child) :=
        visit_explores fuel search child hvalid
      apply hvisit search child (rest ++ stack) result (hbelow child List.mem_cons_self) hvalid
        hfuel (hopen child List.mem_cons_self)
      apply ih (visit graph.next fuel search child)
      · exact fun later hlater => hbelow later (List.mem_cons_of_mem child hlater)
      · exact hstep.valid hvalid
      · exact Nat.le_trans (Search.unfound_length_le hstep.found) hfuel
      · intro later hlater hother
        exact hopen later (List.mem_cons_of_mem child hlater) ((hstep.still_open later).mp hother)
      · exact h

/-- An entry of a node that is found and no longer open is dropped. -/
theorem Continues.found {search : Search} {node : String} {stack : List String}
    {result : Except String Search} (hfound : node ∈ search.found) (hopen : ¬ search.Open node)
    (h : graph.Continues stack search result) : graph.Continues (node :: stack) search result := by
  apply h.before List.suffix_rfl
  intro hnone
  exact .drop hfound (by_contra fun hnot => hopen ⟨hfound, hnot⟩) (h.descends hnone)

/-- A new node is looked at twice: it is opened first, and finished once what it leads to is
explored. -/
theorem Continues.around {search below : Search} {node : String} {stack : List String}
    {result : Except String Search} (hnew : node ∉ search.found) (hvalid : search.Valid)
    (hbelow : Explores { search with found := node :: search.found } below)
    (hsuffix : node :: search.found <:+ below.found)
    (hpushed : graph.Continues (node :: stack) below result →
      graph.Continues ((graph.next node).filter (fun child => child ∉ node :: search.found) ++
        node :: stack) { search with found := node :: search.found } result)
    (h : graph.Continues stack { below with finished := node :: below.finished } result) :
    graph.Continues (node :: stack) search result := by
  apply h.before ((List.suffix_cons node search.found).trans hsuffix)
  intro hnone
  have hopened : graph.selfLoop? { search with found := node :: search.found } = _ :=
    selfLoop?_open search node
  rw [hnone, Option.none_or] at hopened
  by_cases hloop : node ∈ graph.next node
  · rw [if_pos hloop] at hopened
    rw [h.of_loop hsuffix hopened]
    exact .stop hnew hloop
  · rw [if_neg hloop] at hopened
    apply Descends.push hnew hloop
    have hfinished : node ∉ search.finished := fun hmem => hnew (hvalid.found node hmem)
    obtain ⟨hfound, hunfinished⟩ := (hbelow.still_open node).mpr ⟨List.mem_cons_self, hfinished⟩
    have hrest : graph.Continues (node :: stack) below result := by
      have hsame : below.found <:+
          Search.found { below with finished := node :: below.finished } := List.suffix_rfl
      apply h.before hsame
      intro hplain
      exact .finish hfound hunfinished (h.descends hplain)
    exact (hpushed hrest).descends hopened

theorem continues_visit (hwired : graph.Wired) (fuel : Nat) (search : Search) (node : String)
    (stack : List String) (result : Except String Search) (hnode : node ∈ graph.nodes)
    (hvalid : search.Valid) (hfuel : (search.unfound graph.nodes).length ≤ fuel)
    (hopen : ¬ search.Open node)
    (h : graph.Continues stack (visit graph.next fuel search node) result) :
    graph.Continues (node :: stack) search result := by
  induction fuel generalizing search node stack result with
  | zero =>
      have hfound : node ∈ search.found := by
        by_contra hnew
        have hunfound : node ∈ search.unfound graph.nodes := Search.mem_unfound.mpr ⟨hnode, hnew⟩
        rw [List.eq_nil_of_length_eq_zero (Nat.le_zero.mp hfuel)] at hunfound
        cases hunfound
      exact h.found hfound hopen
  | succ fuel ih =>
      by_cases hfound : node ∈ search.found
      · rw [visit_of_found hfound] at h
        exact h.found hfound hopen
      · let opened : Search := { search with found := node :: search.found }
        have hopened : opened.Valid := hvalid.open node
        have hunits : (opened.unfound graph.nodes).length < (search.unfound graph.nodes).length :=
          Search.unfound_length_lt hnode hfound
        have hvisit : visit graph.next (fuel + 1) search node =
            let below := (graph.next node).foldl (visit graph.next fuel) opened
            { below with finished := node :: below.finished } := by
          rw [visit, if_neg (by simpa using hfound)]
        rw [hvisit] at h
        have hbelow : Explores opened ((graph.next node).foldl (visit graph.next fuel) opened) :=
          Explores.foldl (visit_explores fuel) (graph.next node) opened hopened
        apply h.around hfound hvalid hbelow (found_suffix_foldl graph.next fuel _ opened)
        intro hrest
        -- The nodes that are pushed are those that the recursion finds something for.
        rw [← foldl_visit_filter graph.next fuel opened.found _ opened fun _ hmem => hmem] at hrest
        apply continues_foldl ih _ opened (node :: stack) result _ hopened (by omega) _ hrest
        · intro child hchild
          exact hwired node hnode child (List.mem_of_mem_filter hchild)
        · rintro child hchild ⟨hmem, _⟩
          exact absurd hmem (by simpa using List.of_mem_filter hchild)

/-- The search by a stack that all nodes wait on, in order, ends as the recursive search does. -/
theorem descends_iff (hwired : graph.Wired) {result : Except String Search} :
    Descends graph.next graph.nodes {} result ↔
      result = match graph.selfLoop? (graph.searchFrom graph.nodes) with
        | some node => .error node
        | none => .ok (graph.searchFrom graph.nodes) := by
  let expected : Except String Search := match graph.selfLoop? (graph.searchFrom graph.nodes) with
    | some node => .error node
    | none => .ok (graph.searchFrom graph.nodes)
  have hend : graph.Continues [] (graph.searchFrom graph.nodes) expected := by
    rw [Continues]
    cases hloop : graph.selfLoop? (graph.searchFrom graph.nodes) with
    | some node => simp only [expected, hloop]
    | none =>
        simp only [expected, hloop]
        exact .done _
  have hdescends : Descends graph.next graph.nodes {} expected := by
    have hall := continues_foldl (continues_visit hwired graph.nodes.length) graph.nodes {} []
      expected (fun _ hnode => hnode) ⟨List.nodup_nil, by simp⟩ (List.length_filter_le _ _)
      (fun _ _ hopen => absurd hopen.1 List.not_mem_nil) hend
    rwa [List.append_nil] at hall
  exact ⟨fun h => h.unique hdescends, fun h => h ▸ hdescends⟩

/-- An order of the nodes by the stack. Of the nodes, last finished first, the first one that a
later one leads to shows a cycle, and the answer is where the first edge that does so starts. -/
def Sorts (graph : Graph) (result : Except String (List String)) : Prop :=
  ∃ outcome, Descends graph.next graph.nodes {} outcome ∧
    result = outcome >>= fun search =>
      match backEdge? graph.edges search.finished with
      | some node => .error node
      | none => .ok search.finished.reverse

theorem sorts_iff (hwired : graph.Wired) {result : Except String (List String)} :
    graph.Sorts result ↔ result = graph.order := by
  simp only [Sorts, descends_iff hwired, exists_eq_left, Graph.order]
  cases graph.selfLoop? (graph.searchFrom graph.nodes) with
  | some node => rfl
  | none => rfl

/-- A search by a stack that only collects what it finds: a node is taken from the stack once, and
in its place wait those that it leads to and that are not found yet. -/
inductive Collects (next : String → List String) :
    List String → List String → List String → Prop where
  | done (found : List String) : Collects next [] found found
  | drop {node : String} {stack found result : List String} (hfound : node ∈ found)
      (hrest : Collects next stack found result) : Collects next (node :: stack) found result
  | push {node : String} {stack found result : List String} (hnew : node ∉ found)
      (hrest : Collects next
        ((next node).filter (fun child => child ∉ node :: found) ++ stack) (node :: found) result) :
      Collects next (node :: stack) found result

namespace Collects

variable {next : String → List String} {stack found result : List String}

/-- What is found, or waits on the stack, is collected. -/
theorem keeps (h : Collects next stack found result) {node : String}
    (hnode : node ∈ found ∨ node ∈ stack) : node ∈ result := by
  induction h with
  | done found => exact hnode.resolve_right List.not_mem_nil
  | drop hfound _ ih =>
      rcases hnode with hnode | hnode
      · exact ih (.inl hnode)
      · rcases List.mem_cons.mp hnode with rfl | hnode
        · exact ih (.inl hfound)
        · exact ih (.inr hnode)
  | push _ _ ih =>
      rcases hnode with hnode | hnode
      · exact ih (.inl (List.mem_cons_of_mem _ hnode))
      · rcases List.mem_cons.mp hnode with rfl | hnode
        · exact ih (.inl List.mem_cons_self)
        · exact ih (.inr (List.mem_append_right _ hnode))

/-- All along the search, an edge of a node that is found leads to a node that is found or waits. -/
theorem closed (h : Collects next stack found result)
    (hfound : ∀ node ∈ found, ∀ child ∈ next node, child ∈ found ∨ child ∈ stack) :
    ∀ node ∈ result, ∀ child ∈ next node, child ∈ result := by
  induction h with
  | done found =>
      intro node hnode child hchild
      exact (hfound node hnode child hchild).resolve_right List.not_mem_nil
  | drop hmem _ ih =>
      apply ih
      intro node hnode child hchild
      rcases hfound node hnode child hchild with hchild | hchild
      · exact .inl hchild
      · rcases List.mem_cons.mp hchild with rfl | hchild
        · exact .inl hmem
        · exact .inr hchild
  | @push first stack found _ _ _ ih =>
      apply ih
      intro node hnode child hchild
      by_cases hseen : child ∈ first :: found
      · exact .inl hseen
      · refine .inr (List.mem_append.mpr ?_)
        rcases List.mem_cons.mp hnode with rfl | hnode
        · exact .inl (List.mem_filter.mpr ⟨hchild, by simpa using hseen⟩)
        · rw [List.mem_cons, not_or] at hseen
          have hwaits := (hfound node hnode child hchild).resolve_left hseen.2
          exact .inr ((List.mem_cons.mp hwaits).resolve_left hseen.1)

theorem sound (h : Collects next stack found result) {node : String} (hnode : node ∈ result) :
    node ∈ found ∨ ∃ first ∈ stack, Relation.ReflTransGen (fun a b => b ∈ next a) first node := by
  induction h with
  | done found => exact .inl hnode
  | drop _ _ ih =>
      rcases ih hnode with hfound | ⟨first, hfirst, hleads⟩
      · exact .inl hfound
      · exact .inr ⟨first, List.mem_cons_of_mem _ hfirst, hleads⟩
  | @push opened stack _ _ _ _ ih =>
      rcases ih hnode with hfound | ⟨first, hfirst, hleads⟩
      · rcases List.mem_cons.mp hfound with rfl | hfound
        · exact .inr ⟨_, List.mem_cons_self, .refl⟩
        · exact .inl hfound
      · rcases List.mem_append.mp hfirst with hchild | hfirst
        · exact .inr ⟨opened, List.mem_cons_self, hleads.head (List.mem_of_mem_filter hchild)⟩
        · exact .inr ⟨first, List.mem_cons_of_mem _ hfirst, hleads⟩

end Collects

/-- The search ends: each node is opened once, and between two that are opened the stack shrinks. -/
theorem exists_collects (hwired : graph.Wired) (stack found : List String)
    (hstack : ∀ node ∈ stack, node ∈ graph.nodes) :
    ∃ result, Collects graph.next stack found result := by
  induction hunfound : (Search.unfound graph.nodes { found }).length using Nat.strongRecOn
    generalizing stack found with
  | _ units ih =>
    induction stack with
    | nil => exact ⟨found, .done found⟩
    | cons node stack ihStack =>
        obtain ⟨hnode, hrest⟩ := List.forall_mem_cons.mp hstack
        by_cases hmem : node ∈ found
        · obtain ⟨result, hresult⟩ := ihStack hrest
          exact ⟨result, .drop hmem hresult⟩
        · have hnew : node ∉ Search.found { found } := hmem
          have hfewer : (Search.unfound graph.nodes { found := node :: found }).length < units :=
            hunfound ▸ Search.unfound_length_lt hnode hnew
          have hwaiting : ∀ waiting ∈
              (graph.next node).filter (fun child => child ∉ node :: found) ++ stack,
              waiting ∈ graph.nodes := by
            intro waiting hwaiting
            rcases List.mem_append.mp hwaiting with hchild | hold
            · exact hwired node hnode waiting (List.mem_of_mem_filter hchild)
            · exact hrest waiting hold
          obtain ⟨result, hresult⟩ := ih _ hfewer _ _ hwaiting rfl
          exact ⟨result, .push hmem hresult⟩

/-- The search by a stack and the recursive one find the same nodes: all that the first node leads
to, and nothing else. -/
theorem mem_collects {node : String} {result : List String}
    (h : Collects graph.next [node] [] result) {other : String} :
    other ∈ result ↔ graph.Leads node other := by
  constructor
  · intro hother
    rcases h.sound hother with hnone | ⟨first, hfirst, hleads⟩
    · cases hnone
    · rw [List.mem_singleton] at hfirst
      exact hfirst ▸ hleads
  · intro hleads
    have hclosed := h.closed fun _ hnone => absurd hnone List.not_mem_nil
    induction hleads with
    | refl => exact h.keeps (.inr List.mem_cons_self)
    | tail _ hedge ih => exact hclosed _ ih _ hedge

end Graph

end Specialization

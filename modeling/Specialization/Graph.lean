/-!
Directed graphs over named nodes, searched depth first. The order of the edges decides the order in
which nodes are found and finished, and every node is finished once all that it leads to is
finished, unless the two lie on a cycle.
-/

namespace Specialization

structure Graph where
  nodes : List String
  /-- The nodes that a node leads to, in order. -/
  next : String → List String

namespace Graph

/-- The state of a search: the nodes found so far and those that are finished, newest first. -/
structure Search where
  found : List String := []
  finished : List String := []

/-- Searches everything a node leads to that was not found before. The fuel bounds the depth, and
as many units as there are nodes are enough: the nodes on the way down are distinct. -/
def visit (next : String → List String) : Nat → Search → String → Search
  | 0, search, _ => search
  | fuel + 1, search, node =>
    if search.found.contains node then search
    else
      let below := (next node).foldl (visit next fuel)
        { search with found := node :: search.found }
      { below with finished := node :: below.finished }

/-- Searches from the given nodes, one after the other. -/
def searchFrom (graph : Graph) (start : List String) : Search :=
  start.foldl (visit graph.next graph.nodes.length) {}

/-- The nodes that a node leads to in any number of steps, itself included. -/
def reachable (graph : Graph) (node : String) : List String :=
  (graph.searchFrom [node]).found

/-- The first node in the order of discovery that leads to itself directly. -/
def selfLoop? (graph : Graph) (search : Search) : Option String :=
  search.found.reverse.find? fun node => (graph.next node).contains node

/-- Every node with those it leads to. -/
def edges (graph : Graph) : List (String × List String) :=
  graph.nodes.map fun node => (node, graph.next node)

/-- Nodes are given last finished first. Without a cycle no node leads to one before it; where one
does, the answer is the first such node for the earliest node it leads to. -/
def backEdge? (edges : List (String × List String)) : List String → Option String
  | [] => none
  | node :: later =>
    let leadsBack (edge : String × List String) : Bool :=
      edge.2.contains node && later.contains edge.1
    ((edges.find? leadsBack).map Prod.fst).or (backEdge? edges later)

/-- All nodes, each after everything it leads to, or a node on a cycle if there is one. -/
def order (graph : Graph) : Except String (List String) :=
  let search := graph.searchFrom graph.nodes
  match (graph.selfLoop? search).or (backEdge? graph.edges search.finished) with
  | some node => .error node
  | none => .ok search.finished.reverse

end Graph

end Specialization

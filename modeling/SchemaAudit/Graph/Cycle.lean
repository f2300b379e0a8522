/-!
# Elementary cycles

A directed graph is a list of nodes, each with the targets of its edges in order. `cycles` lists
its elementary cycles: closed walks that repeat no node but the first. Each one starts at the node
that comes first among its own in the order of the graph, so it is found from that node alone, by
walks through later nodes.
-/

namespace SchemaAudit

/-- The nodes of a directed graph and the targets of their edges. -/
abbrev Graph (α : Type) := List (α × List α)

namespace Graph

variable {α : Type} [BEq α]

/-- Adds a node with its targets. A node that is already there keeps its place and takes the new
targets. -/
def put (node : α) (targets : List α) : Graph α → Graph α
  | [] => [(node, targets)]
  | (n, ts) :: rest => if n == node then (n, targets) :: rest else (n, ts) :: put node targets rest

/-- The graph made by adding nodes one after the other. -/
def ofEntries (entries : List (α × List α)) : Graph α :=
  entries.foldl (fun g e => g.put e.1 e.2) []

/-- The nodes in order. -/
def nodes (g : Graph α) : List α :=
  g.map (·.1)

/-- The targets of the edges from a node. -/
def targets (g : Graph α) (node : α) : List α :=
  (g.lookup node).getD []

/-- The closed walks that start with `path` and `node`, go on through some of the `free` nodes
without repetition, and return to `start`. `fuel` bounds the number of nodes that are still
passed. -/
def closedWalks (g : Graph α) (start : α) :
    (fuel : Nat) → (free path : List α) → (node : α) → List (List α)
  | 0, _, path, node =>
    (g.targets node).flatMap fun t => if t == start then [path ++ [node, start]] else []
  | fuel + 1, free, path, node =>
    (g.targets node).flatMap fun t =>
      if t == start then [path ++ [node, start]]
      else if free.contains t then
        closedWalks g start fuel (free.filter (fun n => !(n == t))) (path ++ [node]) t
      else []

/-- The cycles that start at one of the given nodes and pass through nodes after it. -/
def cyclesFrom (g : Graph α) : List α → List (List α)
  | [] => []
  | start :: later => closedWalks g start later.length later [] start ++ cyclesFrom g later

/-- All elementary cycles, each as the nodes on its way with the first one repeated at the end. -/
def cycles (g : Graph α) : List (List α) :=
  cyclesFrom g g.nodes

end Graph

end SchemaAudit

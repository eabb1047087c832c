import SkCoord.Cmdb.Reconcile
import SkCoord.Graph.Breadth

/-!
# The impact graph

`impactGraph` walks the relationships that are dependencies against their direction, from an item to
what depends on it, breadth first and with a bound on the depth and on the number of items.
-/

namespace SkCoord.Cmdb

open Python DirectedGraph

/-- `rel.rel_type in ("depends_on", "runs_on")`. -/
def Relationship.isDependency (r : Relationship) : Bool :=
  ["depends_on", "runs_on"].contains r.relType

/-- `reverse`: what depends on an item, with the type of the relationship. -/
def reverseLinks (cis : Assoc String ConfigItem) : Assoc String (List (String × String)) :=
  (cis.flatMap fun p => (p.2.relationships.filter Relationship.isDependency).map fun rel =>
    (rel.target, p.2.id, rel.relType)).foldl Assoc.addValue []

/-- `sorted(reverse.get(target, []))`. -/
def sortedLinks (reverse : Assoc String (List (String × String))) (target : String) :
    List (String × String) :=
  ((Assoc.get? reverse target).getD []).insertionSort fun p q => toLex p ≤ toLex q

/-- An entry of `dependents`. -/
structure ImpactNode where
  id : String
  name : String
  ciType : String
  rel : String
  depth : ℕ
  deriving DecidableEq, Repr

/-- The result for an item that is stored. -/
structure ImpactGraph where
  id : String
  dependents : List ImpactNode
  cycles : List (List String)
  truncated : Bool
  maxDepth : ℤ
  maxNodes : ℤ
  deriving DecidableEq, Repr

/-- What `impact_graph` returns. -/
inductive ImpactResult where
  /-- `{"error": "CI not found", "id": ci_id}`. -/
  | notFound (id : String)
  | graph (g : ImpactGraph)
  deriving DecidableEq, Repr

/-- The entry of a point that was found. -/
def impactNode (cis : Assoc String ConfigItem) (f : Found String String) :
    Except PyError ImpactNode :=
  match Assoc.get? cis f.node with
  | some source => pure ⟨f.node, source.name, source.ciType, f.label, f.depth⟩
  | none => throw (.key f.node)

/-- `impact_graph`, with so many turns of its loop at most. -/
def impactGraph (env : Env) (dir : CmdbDir) (fuel : ℕ) (ciId : String) (maxDepth : ℤ := 8)
    (maxNodes : ℤ := 1000) : Except PyError (Option ImpactResult) := do
  if maxDepth < 0 ∨ maxNodes < 1 then
    throw (.value "max_depth must be >= 0 and max_nodes must be >= 1")
  let stored ← dir.listCis env
  let cis := byIdentifier stored
  if ciId ∉ Assoc.keys cis then return some (.notFound ciId)
  match (Breadth.initial ciId).run (sortedLinks (reverseLinks cis)) maxDepth.toNat maxNodes.toNat
      fuel with
  | none => return none
  | some s => do
    let dependents ← s.nodes.mapM (impactNode cis)
    return some (.graph
      { id := ciId, dependents, cycles := s.cycles, truncated := s.truncated, maxDepth, maxNodes })

end SkCoord.Cmdb

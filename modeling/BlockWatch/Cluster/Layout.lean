import BlockWatch.Cluster.Error
import BlockWatch.Config.Topology

/-!
# Layouts

A layout says how many nodes a cluster has and which settings differ from what the node program
would choose: chain parameters for every node, in the order in which they were given, and client
settings for single nodes, by ordinal and key.
-/

namespace BlockWatch

structure Layout where
  topology : Topology
  /-- Values at dotted paths of every genesis file. -/
  chainOverrides : List (String × Json.Value) := []
  /-- Values at dotted paths of single client configurations, by ascending ordinal. -/
  nodeOverrides : List (Nat × Json.Members) := []

namespace Layout

/-- Changes what is kept for an ordinal, which starts out empty. -/
def modifyAt (ordinal : Nat) (f : Json.Members → Json.Members) :
    List (Nat × Json.Members) → List (Nat × Json.Members)
  | [] => [(ordinal, f [])]
  | (o, members) :: rest =>
    if o = ordinal then (o, f members) :: rest
    else if ordinal < o then (ordinal, f []) :: (o, members) :: rest
    else (o, members) :: modifyAt ordinal f rest

def withChainOverride (layout : Layout) (path : String) (value : Json.Value) : Layout :=
  { layout with chainOverrides := layout.chainOverrides ++ [(path, value)] }

def withNodeOverride (layout : Layout) (ordinal : Nat) (key : String) (value : Json.Value) :
    Layout :=
  { layout with
    nodeOverrides := modifyAt ordinal (·.insert key value) layout.nodeOverrides }

/-- The settings of one node. -/
def overridesOf (layout : Layout) (ordinal : Nat) : Json.Members :=
  ((layout.nodeOverrides.find? (·.1 == ordinal)).map (·.2)).getD []

def nodeCount (layout : Layout) : Except Fault Nat := layout.topology.nodeCount

def roleOf (layout : Layout) (ordinal : Nat) : Role := layout.topology.roleOf ordinal

/-- The first flaw of a layout. The nodes are only counted if some have settings of their own. -/
def flaw? (layout : Layout) : Except Fault (Option LayoutFlaw) :=
  if layout.topology.validators = 0 then .ok (some .noValidator)
  else if layout.topology.shards = 0 then .ok (some .noShard)
  else if layout.nodeOverrides.isEmpty then .ok none
  else do
    let nodes ← layout.nodeCount
    match layout.nodeOverrides.find? fun entry => nodes ≤ entry.1 with
    | some (ordinal, _) => pure (some (.strayOverride ordinal nodes))
    | none => pure none

/-- Accepts a layout that can be brought up. -/
def validate (layout : Layout) : Except (Stop BringupError) Unit :=
  match layout.flaw? with
  | .error f => .error (.fault f)
  | .ok (some flaw) => .error (.error (.ofFlaw flaw))
  | .ok none => .ok ()

end Layout

/-- The home of a node that has not been launched yet. -/
structure NodeHome where
  ordinal : Nat
  role : Role
  directory : Path
  address : Net.Endpoint
  rpcAddress : Net.Endpoint
  publicKey : String
deriving DecidableEq

/-- The node that runs in a home. -/
def NodeHome.toNode (home : NodeHome) : Node where
  ordinal := home.ordinal
  role := home.role
  address := home.address
  rpcAddress := home.rpcAddress
  publicKey := home.publicKey
  home := home.directory

end BlockWatch

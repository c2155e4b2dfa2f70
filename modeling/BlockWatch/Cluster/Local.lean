import BlockWatch.Cluster.Files
import BlockWatch.Cluster.Layout
import BlockWatch.Config.Harness

/-!
# The local cluster

A cluster of processes on one machine. The node program itself lays out the homes under the work
directory; then the chain overrides go into every genesis file, and the addresses and the node's own
overrides into its configuration. The processes that were launched are tracked until all of them are
stopped.
-/

namespace BlockWatch

/-- A process that was launched for a node. -/
structure Tracked where
  ordinal : Nat
  process : Nat
deriving DecidableEq, Repr

/-- The state of the machine, and the processes launched since the last shutdown, in order. -/
structure ClusterState (σ : Type) where
  machine : σ
  tracked : List Tracked := []

/-- A cluster on a machine. -/
structure LocalCluster (σ : Type) where
  config : HarnessConfig
  machine : Machine σ

namespace LocalCluster

variable {σ : Type}

/-- The home directory of a node. -/
def homeDirectory (cluster : LocalCluster σ) (ordinal : Nat) : Path :=
  cluster.config.workDir.child (homePrefix ++ toString ordinal)

/-- The network and the RPC address of a node. -/
def addresses (cluster : LocalCluster σ) (ordinal : Nat) :
    Except (Stop BringupError) (Net.Endpoint × Net.Endpoint) :=
  let config := cluster.config
  match config.portsFor ordinal with
  | some (port, rpcPort) => .ok (.ofHost config.host port, .ofHost config.host rpcPort)
  | none =>
    .error (.error (.ofFlaw
      (.noPort ordinal config.basePort.toNat config.rpcBasePort.toNat)))

/-! ## Laying out -/

/-- Checks all that can be checked before anything is touched, and counts the nodes. -/
def check (cluster : LocalCluster σ) (layout : Layout) : Except (Stop BringupError) Nat := do
  layout.validate
  let nodes ← match layout.nodeCount with
    | .ok nodes => pure nodes
    | .error f => throw (.fault f)
  if 0 < nodes then
    let _ ← cluster.addresses (nodes - 1)
  pure nodes

/-- Removes a home that an earlier run left. -/
def removeStale (cluster : LocalCluster σ) (ordinal : Nat) : Bringup σ Unit := do
  let home := cluster.homeDirectory ordinal
  if ← cluster.machine.isThere home then
    Bringup.atPath home (cluster.machine.removeTree home)

def removeStaleAll (cluster : LocalCluster σ) : List Nat → Bringup σ Unit
  | [] => pure ()
  | ordinal :: rest => do
    cluster.removeStale ordinal
    cluster.removeStaleAll rest

/-- The command that lays out the homes. -/
def layOutCommand (cluster : LocalCluster σ) (topology : Topology) : Command where
  program := cluster.config.nodeBinaryPath
  arguments := [
    "--home", cluster.config.workDir.text, "testnet",
    "--v", toString topology.validators,
    "--n", toString topology.observers,
    "--shards", toString topology.shards,
    "--prefix", homePrefix]

/-- The public key in the key file of a home. -/
def readPublicKey (machine : Machine σ) (path : Path) : Bringup σ String := do
  let members ← readObject machine path
  match members.find? "public_key" with
  | some (.string key) => pure key
  | _ => Bringup.fail (.missingNodeKey path)

/-- What goes into the configuration of a node: where it listens, then its own settings. -/
def clientChanges (layout : Layout) (ordinal : Nat) (address rpcAddress : Net.Endpoint) :
    List (String × Json.Value) :=
  ("network.addr", .string address.text) :: ("rpc.addr", .string rpcAddress.text) ::
    layout.overridesOf ordinal

/-- Prepares the home of one node. -/
def prepareHome (cluster : LocalCluster σ) (layout : Layout) (ordinal : Nat) :
    Bringup σ NodeHome := do
  let directory := cluster.homeDirectory ordinal
  patchFile cluster.machine (directory.child genesisFile) layout.chainOverrides
  let (address, rpcAddress) ← Bringup.ofExcept (cluster.addresses ordinal)
  patchFile cluster.machine (directory.child configFile)
    (clientChanges layout ordinal address rpcAddress)
  let publicKey ← readPublicKey cluster.machine (directory.child nodeKeyFile)
  pure { ordinal, role := layout.roleOf ordinal, directory, address, rpcAddress, publicKey }

def prepareHomes (cluster : LocalCluster σ) (layout : Layout) :
    List Nat → Bringup σ (List NodeHome)
  | [] => pure []
  | ordinal :: rest => do
    let home ← cluster.prepareHome layout ordinal
    let homes ← cluster.prepareHomes layout rest
    pure (home :: homes)

/-- Lays out the homes of a cluster. -/
def layOut (cluster : LocalCluster σ) (layout : Layout) : Bringup σ (List NodeHome) := do
  let nodes ← Bringup.ofExcept (cluster.check layout)
  let workDir := cluster.config.workDir
  Bringup.atPath workDir (cluster.machine.makeDirectories workDir)
  cluster.removeStaleAll (List.range nodes)
  runToEnd cluster.machine (cluster.layOutCommand layout.topology)
  cluster.prepareHomes layout (List.range nodes)

/-! ## Processes -/

/-- The command that runs the node of a home, joining through another node if one is given. -/
def nodeCommand (cluster : LocalCluster σ) (home : NodeHome) (boot : Option Node) : Command where
  program := cluster.config.nodeBinaryPath
  arguments :=
    ["--home", home.directory.text, "run"] ++
      match boot with
      | some node => ["--boot-nodes", node.bootNode]
      | none => []

/-- Starts the process of a node and checks that it stays alive. -/
def startProcess (cluster : LocalCluster σ) (home : NodeHome) (boot : Option Node) :
    Bringup σ Nat := do
  let machine := cluster.machine
  let output := home.directory.child "stdout"
  let complaints := home.directory.child "stderr"
  Bringup.atPath output (machine.createFile output)
  Bringup.atPath complaints (machine.createFile complaints)
  let command := cluster.nodeCommand home boot
  let process ← (machine.start command output complaints).adapt fun cause =>
    .error (.spawn command.describe cause)
  match ← Bringup.atPath home.directory (machine.lookAfter process) with
  | some status => Bringup.fail (.earlyExit home.ordinal status.text)
  | none => pure process

/-- Works on the machine and leaves the tracked processes alone. -/
def onMachine {α : Type} (op : Bringup σ α) : Bringup (ClusterState σ) α :=
  fun state =>
    let (outcome, machine) := op state.machine
    (outcome, { state with machine })

def init (cluster : LocalCluster σ) (layout : Layout) :
    Bringup (ClusterState σ) (List NodeHome) :=
  onMachine (cluster.layOut layout)

/-- Launches the node of a home and tracks its process. -/
def launch (cluster : LocalCluster σ) (home : NodeHome) (boot : Option Node) :
    Bringup (ClusterState σ) Node := do
  let process ← onMachine (cluster.startProcess home boot)
  modify fun state => { state with tracked := state.tracked ++ [⟨home.ordinal, process⟩] }
  pure home.toNode

/-- Stops one process; nothing that goes wrong is reported. -/
def stop (machine : Machine σ) (state : σ) (tracked : Tracked) : σ :=
  let (_, state) := (machine.kill tracked.process).run.run state
  let (_, state) := (machine.await tracked.process).run.run state
  state

/-- Stops every tracked process, in the order of their launch. -/
def shutdown (cluster : LocalCluster σ) : Bringup (ClusterState σ) Unit :=
  modify fun state =>
    { machine := state.tracked.foldl (stop cluster.machine) state.machine, tracked := [] }

/-- The number of processes launched since the last shutdown. -/
def running (state : ClusterState σ) : Nat := state.tracked.length

end LocalCluster

/-- Launches an observer that joins through the leader; other nodes are refused. -/
def addObserver {σ : Type} (launch : NodeHome → Option Node → Bringup σ Node) (home : NodeHome)
    (leader : Node) : Bringup σ Node :=
  if home.role = .observer then launch home (some leader)
  else Bringup.fail (.unexpectedRole home.ordinal .observer home.role)

end BlockWatch

import BlockWatch.Config.Error
import BlockWatch.Config.Scenario
import BlockWatch.Node

/-!
# Harness configuration

Where the node programs are, where the cluster keeps its homes, and where its nodes listen. Each
node has two ports: those of the first node plus its ordinal.
-/

namespace BlockWatch

structure HarnessConfig where
  binaryRoot : Path := ⟨"../target/debug"⟩
  nodeBinary : String := "near"
  populateBinary : String := "genesis-populate"
  workDir : Path := ⟨".syncwatch"⟩
  host : Net.Host := .v4 .loopback
  basePort : UInt16 := 24577
  rpcBasePort : UInt16 := 3040
deriving DecidableEq

/-- The sum of two words, if it does not wrap around. -/
def checkedSum (a b : UInt16) : Option UInt16 :=
  let sum := a + b
  if sum < a then none else some sum

namespace HarnessConfig

def nodeBinaryPath (c : HarnessConfig) : Path := c.binaryRoot.child c.nodeBinary

def populateBinaryPath (c : HarnessConfig) : Path := c.binaryRoot.child c.populateBinary

/-- The network and RPC ports of a node, unless one of them is past the last port. -/
def portsFor (c : HarnessConfig) (ordinal : Nat) : Option (UInt16 × UInt16) := do
  if ordinal < UInt16.size then
    let offset := UInt16.ofNat ordinal
    let port ← checkedSum c.basePort offset
    let rpcPort ← checkedSum c.rpcBasePort offset
    pure (port, rpcPort)
  else none

/-- Accepts a number of nodes if the last of them has ports. -/
def validate (c : HarnessConfig) (nodes : Nat) : Except ConfigError Unit :=
  match c.portsFor (nodes - 1) with
  | some _ => .ok ()
  | none =>
    .error (.ofFlaw (.noRoomForPorts c.basePort.toNat c.rpcBasePort.toNat nodes))

/-! ## Text -/

structure Partial where
  binaryRoot : Option Path := none
  nodeBinary : Option String := none
  populateBinary : Option String := none
  workDir : Option Path := none
  host : Option Net.Host := none
  basePort : Option UInt16 := none
  rpcBasePort : Option UInt16 := none

end HarnessConfig

def Json.Decoder.port : Json.Decoder UInt16 :=
  refine (natural UInt16.size "u16") fun n => pure (UInt16.ofNat n)

namespace HarnessConfig

open Json.Decoder in
/-- Fields that are left out keep their default. -/
def record : Record Partial HarnessConfig where
  name := "HarnessConfig"
  fields := [
    field "binary_root" (·.binaryRoot) (fun p x => { p with binaryRoot := some x }) path true,
    field "node_binary" (·.nodeBinary) (fun p x => { p with nodeBinary := some x })
      (string "a string") true,
    field "populate_binary" (·.populateBinary) (fun p x => { p with populateBinary := some x })
      (string "a string") true,
    field "work_dir" (·.workDir) (fun p x => { p with workDir := some x }) path true,
    field "host" (·.host) (fun p x => { p with host := some x }) Json.Decoder.host
      true,
    field "base_port" (·.basePort) (fun p x => { p with basePort := some x }) port true,
    field "rpc_base_port" (·.rpcBasePort) (fun p x => { p with rpcBasePort := some x }) port true]
  blank := {}
  build p :=
    let d : HarnessConfig := {}
    .ok {
      binaryRoot := p.binaryRoot.getD d.binaryRoot
      nodeBinary := p.nodeBinary.getD d.nodeBinary
      populateBinary := p.populateBinary.getD d.populateBinary
      workDir := p.workDir.getD d.workDir
      host := p.host.getD d.host
      basePort := p.basePort.getD d.basePort
      rpcBasePort := p.rpcBasePort.getD d.rpcBasePort }

def ofText (text : String) : Json.Result HarnessConfig :=
  Json.Decoder.ofText record.decoder text

def toJson (c : HarnessConfig) : Json.Value := .object [
  ("binary_root", .string c.binaryRoot.text),
  ("node_binary", .string c.nodeBinary),
  ("populate_binary", .string c.populateBinary),
  ("work_dir", .string c.workDir.text),
  ("host", .string c.host.text),
  ("base_port", .ofPort c.basePort),
  ("rpc_base_port", .ofPort c.rpcBasePort)]

end HarnessConfig

end BlockWatch

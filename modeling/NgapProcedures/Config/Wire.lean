import NgapProcedures.Config.Daemon
import NgapProcedures.Duration.Text
import NgapProcedures.Message.Wire
import NgapProcedures.Toml.Record

/-! Configurations as TOML documents and as JSON. A setting that is missing has its default. -/

namespace NgapProcedures

namespace EngineConfig

def fieldNames : List String := ["tick", "max_setup_retries", "max_config_update_retries"]

def toJson (c : EngineConfig) : Json := .object [
  ("tick", .string c.tick.text),
  ("max_setup_retries", .natural c.maxSetupRetries.toNat),
  ("max_config_update_retries", .natural c.maxConfigUpdateRetries.toNat)]

def ofJson? (j : Json) : Option EngineConfig := do
  let fields ← j.settings? fieldNames
  let d : EngineConfig := {}
  return {
    tick := ← fields.fieldOr? "tick" d.tick fun j => j.string?.bind Duration.parse?
    maxSetupRetries := ← fields.fieldOr? "max_setup_retries" d.maxSetupRetries Json.uint32?
    maxConfigUpdateRetries := ←
      fields.fieldOr? "max_config_update_retries" d.maxConfigUpdateRetries Json.uint32? }

def decode? (s : String) : Option EngineConfig := do
  EngineConfig.ofJson? (← (← JsonText.read? s).pick? fieldNames)

def ofNode? (x : Toml.Node) : Option EngineConfig := do
  let entries ← x.settings? fieldNames
  let d : EngineConfig := {}
  return {
    tick := ← entries.setting? "tick" d.tick fun x => x.string?.bind Duration.parse?
    maxSetupRetries := ←
      entries.setting? "max_setup_retries" d.maxSetupRetries Toml.Node.uint32?
    maxConfigUpdateRetries := ←
      entries.setting? "max_config_update_retries" d.maxConfigUpdateRetries Toml.Node.uint32? }

def ofToml (text : String) : Except ConfigError EngineConfig := do
  match (Toml.parse? text).bind ofNode? with
  | none => throw .malformed
  | some c =>
    c.validate
    return c

end EngineConfig

namespace PeerScript

def fieldNames : List String := ["reject_count", "time_to_wait", "amf_name", "relative_capacity"]

def toJson (s : PeerScript) : Json := .object [
  ("reject_count", .natural s.rejectCount.toNat),
  ("time_to_wait", .ofOption TimeToWait.toJson s.timeToWait),
  ("amf_name", .string s.amfName),
  ("relative_capacity", .natural s.relativeCapacity.toNat)]

def ofJson? (j : Json) : Option PeerScript := do
  let fields ← j.settings? fieldNames
  let d : PeerScript := {}
  return {
    rejectCount := ← fields.fieldOr? "reject_count" d.rejectCount Json.uint32?
    timeToWait := ← fields.fieldOr? "time_to_wait" d.timeToWait
      (Json.option? (TimeToWait.ofJson? .plain))
    amfName := ← fields.fieldOr? "amf_name" d.amfName Json.string?
    relativeCapacity := ← fields.fieldOr? "relative_capacity" d.relativeCapacity Json.uint8? }

def decode? (s : String) : Option PeerScript := do
  PeerScript.ofJson? (← (← JsonText.read? s).pick? fieldNames)

def ofNode? (x : Toml.Node) : Option PeerScript := do
  let entries ← x.settings? fieldNames
  let d : PeerScript := {}
  return {
    rejectCount := ← entries.setting? "reject_count" d.rejectCount Toml.Node.uint32?
    timeToWait := ← entries.setting? "time_to_wait" d.timeToWait fun x =>
      (x.word?.bind TimeToWait.ofText?).map some
    amfName := ← entries.setting? "amf_name" d.amfName Toml.Node.string?
    relativeCapacity := ←
      entries.setting? "relative_capacity" d.relativeCapacity Toml.Node.uint8? }

end PeerScript

namespace NodeConfig

def fieldNames : List String :=
  ["gnb_id", "gnb_id_bit_length", "plmn", "tac", "ran_node_name", "controller"]

def toJson (c : NodeConfig) : Json := .object [
  ("gnb_id", .natural c.gnbId.toNat),
  ("gnb_id_bit_length", .natural c.gnbIdBitLength.toNat),
  ("plmn", .string c.plmn),
  ("tac", .natural c.tac.toNat),
  ("ran_node_name", .string c.ranNodeName),
  ("controller", .string c.controller)]

def ofNode? (x : Toml.Node) : Option NodeConfig := do
  let entries ← x.settings? fieldNames
  let d : NodeConfig := {}
  return {
    gnbId := ← entries.setting? "gnb_id" d.gnbId Toml.Node.uint32?
    gnbIdBitLength := ← entries.setting? "gnb_id_bit_length" d.gnbIdBitLength Toml.Node.uint8?
    plmn := ← entries.setting? "plmn" d.plmn Toml.Node.string?
    tac := ← entries.setting? "tac" d.tac Toml.Node.uint32?
    ranNodeName := ← entries.setting? "ran_node_name" d.ranNodeName Toml.Node.string?
    controller := ← entries.setting? "controller" d.controller Toml.Node.string? }

end NodeConfig

namespace DaemonConfig

def fieldNames : List String := ["node", "amf", "peer", "engine", "log_path", "exit_when_settled"]

def toJson (c : DaemonConfig) : Json := .object [
  ("node", c.node.toJson),
  ("amf", .object [("entity", .string c.amfEntity)]),
  ("peer", c.peer.toJson),
  ("engine", c.engine.toJson),
  ("log_path", .ofOption .string c.logPath),
  ("exit_when_settled", .bool c.exitWhenSettled)]

def amfOfNode? (x : Toml.Node) : Option String := do
  let entries ← x.settings? ["entity"]
  entries.setting? "entity" ({} : DaemonConfig).amfEntity Toml.Node.string?

def ofNode? (x : Toml.Node) : Option DaemonConfig := do
  let entries ← x.settings? fieldNames
  let d : DaemonConfig := {}
  return {
    node := ← entries.setting? "node" d.node NodeConfig.ofNode?
    amfEntity := ← entries.setting? "amf" d.amfEntity amfOfNode?
    peer := ← entries.setting? "peer" d.peer PeerScript.ofNode?
    engine := ← entries.setting? "engine" d.engine EngineConfig.ofNode?
    logPath := ← entries.setting? "log_path" d.logPath fun x => x.string?.map some
    exitWhenSettled := ←
      entries.setting? "exit_when_settled" d.exitWhenSettled Toml.Node.boolean? }

def ofToml (text : String) : Except ConfigError DaemonConfig := do
  match (Toml.parse? text).bind ofNode? with
  | none => throw .malformed
  | some c =>
    c.validate
    return c

end DaemonConfig

/-- the configuration read from a file, whose path stands in the error if there is one -/
def loadConfig {α : Type} (ofToml : String → Except ConfigError α) (files : FileTree)
    (path : String) : Except ConfigError α :=
  match files.readText path with
  | .ok text => ofToml text
  | .error e => .error (.unreadable path e)

end NgapProcedures

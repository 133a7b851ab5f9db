import NgapProcedures.Files
import NgapProcedures.Timer

/-! The engine's tunables, and what makes a configuration invalid. -/

namespace NgapProcedures

inductive ConfigError where
  | unreadable (path : String) (error : FileError)
  /-- the text is no configuration document -/
  | malformed
  | invalid (field reason : String)
  deriving DecidableEq

def ConfigError.message : ConfigError → String
  | unreadable path error => "IO error reading " ++ path ++ ": " ++ error.message
  | malformed => "TOML syntax error"
  | invalid field reason => "Invalid value for " ++ field ++ ": " ++ reason

structure EngineConfig where
  /-- length of one logical tick -/
  tick : Duration := TimerService.defaultTick
  /-- retries after the first NG Setup request -/
  maxSetupRetries : UInt32 := 1
  /-- retries after the first RAN Configuration Update -/
  maxConfigUpdateRetries : UInt32 := 1
  deriving DecidableEq, Inhabited

namespace EngineConfig

def withTick (c : EngineConfig) (tick : Duration) : EngineConfig := { c with tick }

def withMaxSetupRetries (c : EngineConfig) (n : UInt32) : EngineConfig :=
  { c with maxSetupRetries := n }

def withMaxConfigUpdateRetries (c : EngineConfig) (n : UInt32) : EngineConfig :=
  { c with maxConfigUpdateRetries := n }

def validate (c : EngineConfig) : Except ConfigError Unit :=
  if c.tick.isZero then .error (.invalid "tick" "must be greater than zero") else .ok ()

end EngineConfig

end NgapProcedures

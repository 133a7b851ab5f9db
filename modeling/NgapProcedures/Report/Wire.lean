import NgapProcedures.Daemon
import NgapProcedures.Json.Value

/-! The daemon's report as a line of JSON. The name of the AMF and the reason of a failure stand in it
only if there is one. -/

namespace NgapProcedures

def ReportOutcome.text : ReportOutcome → String
  | connected => "connected"
  | failed => "failed"
  | cancelled => "cancelled"
  | pending => "pending"

namespace Report

def optionalMember (name : String) : Option String → List (String × Json)
  | some s => [(name, .string s)]
  | none => []

def toJson (r : Report) : Json := .object ([("outcome", .string r.outcome.text)] ++
  optionalMember "amf_name" r.amfName ++ optionalMember "reason" r.reason ++
  [("ticks", .natural r.ticks.toNat),
    ("setup_requests", .natural r.setupRequests.toNat),
    ("lost", .ofStrings r.lost)])

def line (r : Report) : String := r.toJson.text

end Report

end NgapProcedures

import NgapProcedures.Message

/-! How procedures end, and what they wait for until they do. -/

namespace NgapProcedures

inductive Outcome (σ φ : Type) where
  | success (value : σ)
  | failure (reason : φ)
  | cancelled
  deriving DecidableEq, Inhabited

def Outcome.isCancelled {σ φ : Type} : Outcome σ φ → Bool
  | cancelled => true
  | _ => false

inductive WaitingFor where
  | nothing
  | response
  | timer
  | procedure (id : ProcedureId)
  deriving DecidableEq

/-- the kinds of procedure; an entity has at most one live instance of a kind -/
inductive Kind where
  | ngSetup | ranConfigurationUpdate | amfConnection
  deriving DecidableEq, Inhabited

namespace Kind

def all : List Kind := [ngSetup, ranConfigurationUpdate, amfConnection]

def name : Kind → String
  | ngSetup => "ng_setup"
  | ranConfigurationUpdate => "ran_configuration_update"
  | amfConnection => "amf_connection"

end Kind

end NgapProcedures

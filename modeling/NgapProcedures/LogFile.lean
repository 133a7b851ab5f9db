import NgapProcedures.Config.Wire

/-! Where the daemon's log goes, and the line that marks a start in it. -/

namespace NgapProcedures

structure Environment where
  home : Option String := none
  stateHome : Option String := none
  dataHome : Option String := none
  /-- the home directory on record for the user's account -/
  accountHome : Option String := none

namespace Environment

def join (path name : String) : String :=
  if path = "" ∨ path.toList.getLast? = some '/' then path ++ name else path ++ "/" ++ name

/-- an empty home counts as none -/
def homeDirectory? (env : Environment) : Option String :=
  match env.home with
  | some home => if home = "" then env.accountHome else some home
  | none => env.accountHome

def absolute? (path : Option String) : Option String :=
  path.filter fun path => (FilePath.parse path).absolute

def stateDirectory? (env : Environment) : Option String :=
  absolute? env.stateHome <|> env.homeDirectory?.map fun home => join home ".local/state"

def dataDirectory? (env : Environment) : Option String :=
  absolute? env.dataHome <|> env.homeDirectory?.map fun home => join home ".local/share"

end Environment

/-- the configured log file, or one in the user's state directory; none if there is no such place -/
def DaemonConfig.resolveLogPath? (c : DaemonConfig) (env : Environment) : Option String :=
  c.logPath <|> (env.stateDirectory? <|> env.dataDirectory?).map fun directory =>
    Environment.join (Environment.join directory "ngp") "ngpd.log"

def startupMarker (pid : Nat) : String := "--- ngpd: starting (pid: " ++ toString pid ++ ") ---\n"

/-- Adds the marker to a log file, which is made if it is missing, as are the directories it is in.
Directories that were made stay, also if the file cannot be written. -/
def FileTree.markStartup (t : FileTree) (pid : Nat) (path : String) :
    Except FileError Unit × FileTree :=
  match t.makeParents path with
  | (.ok (), t) =>
    match t.appendText path (startupMarker pid) with
    | .ok t => (.ok (), t)
    | .error e => (.error e, t)
  | failed => failed

end NgapProcedures

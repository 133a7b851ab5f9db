/-! A tree of files and directories, and what reading, creating and appending do to it. -/

namespace NgapProcedures

inductive FileError where
  | notFound | exists | notDirectory | isDirectory | nameTooLong
  /-- a name holds the character zero -/
  | badName
  /-- the content is no text -/
  | notText
  deriving DecidableEq

def FileError.message : FileError → String
  | notFound => "No such file or directory (os error 2)"
  | .exists => "File exists (os error 17)"
  | notDirectory => "Not a directory (os error 20)"
  | isDirectory => "Is a directory (os error 21)"
  | nameTooLong => "File name too long (os error 36)"
  | badName => "file name contained an unexpected NUL byte"
  | notText => "stream did not contain valid UTF-8"

/-- a path as written: where it starts, the names in it, and whether it ends in a slash -/
structure FilePath where
  absolute : Bool
  names : List String
  closed : Bool
  deriving DecidableEq

namespace FilePath

def parse (s : String) : FilePath where
  absolute := s.toList.head? == some '/'
  names := ((s.toList.splitOnP (· == '/')).filter (!·.isEmpty)).map String.ofList
  closed := s.toList.getLast? == some '/'

/-- The text of a path without its last name, and without what says nothing at the end of either:
slashes and single dots. -/
def parentText (s : String) : String :=
  let isIdle (name : List Char) : Bool := name == [] || name == ['.']
  let names := (s.toList.splitOnP (· == '/')).reverse
  String.ofList (['/'].intercalate ((names.dropWhile isIdle).drop 1 |>.dropWhile isIdle).reverse)

end FilePath

inductive FileNode where
  | file (content : ByteArray)
  | directory (entries : List (String × FileNode))
  deriving Inhabited

namespace FileNode

def put (name : String) (node : FileNode) : List (String × FileNode) → List (String × FileNode)
  | [] => [(name, node)]
  | (n, old) :: rest => if n = name then (n, node) :: rest else (n, old) :: put name node rest

end FileNode

structure FileTree where
  entries : List (String × FileNode) := []
  /-- where relative paths start -/
  workingDirectory : List String := []

/-- a directory in a tree, and the directories around it, each by the name that leads on from it; the
innermost comes first -/
structure Cursor where
  here : List (String × FileNode)
  above : List (String × List (String × FileNode)) := []

namespace Cursor

def nameLimit : Nat := 255

def find? (c : Cursor) (name : String) : Except FileError (Option FileNode) :=
  if nameLimit < name.utf8ByteSize then .error .nameTooLong else .ok (c.here.lookup name)

def put (c : Cursor) (name : String) (node : FileNode) : Cursor :=
  { c with here := FileNode.put name node c.here }

def down (c : Cursor) (name : String) (entries : List (String × FileNode)) : Cursor :=
  ⟨entries, (name, c.here) :: c.above⟩

/-- goes up to the directory around this one; the root is its own parent -/
def up (c : Cursor) : Cursor :=
  match c.above with
  | [] => c
  | (name, around) :: above => ⟨FileNode.put name (.directory c.here) around, above⟩

def root (here : List (String × FileNode)) :
    List (String × List (String × FileNode)) → List (String × FileNode)
  | [] => here
  | (name, around) :: above => root (FileNode.put name (.directory here) around) above

def walk (c : Cursor) : List String → Except FileError Cursor
  | [] => .ok c
  | "." :: names => c.walk names
  | ".." :: names => c.up.walk names
  | name :: names => do
    match ← c.find? name with
    | some (.directory entries) => (c.down name entries).walk names
    | some (.file _) => .error .notDirectory
    | none => .error .notFound

/-- The directory that names lead to, made along with every directory that is missing on the way;
those made before a failure stay. A file in the way is no directory to go through; where a directory
would have to be made, it is what exists there already. The flag says that a directory was missing. -/
def makeDirectories (missing : Bool) (c : Cursor) : List String → Except FileError Unit × Cursor
  | [] => (.ok (), c)
  | "." :: names => c.makeDirectories missing names
  | ".." :: names => c.up.makeDirectories missing names
  | name :: names =>
    match c.find? name with
    | .error e => (.error e, c)
    | .ok (some (.directory entries)) => (c.down name entries).makeDirectories missing names
    | .ok (some (.file _)) => (.error (if missing || names.isEmpty then .exists else .notDirectory), c)
    | .ok none => (c.down name []).makeDirectories true names

end Cursor

namespace FileTree

def pathLimit : Nat := 4096

/-- a path that may be looked up has no character zero in it, and is not too long -/
def checkPath (path : String) : Except FileError Unit := do
  if path.toList.contains '\x00' then throw .badName
  if pathLimit ≤ path.utf8ByteSize then throw .nameTooLong

def atRoot (t : FileTree) : Cursor := ⟨t.entries, []⟩

def closing (t : FileTree) (c : Cursor) : FileTree := { t with entries := Cursor.root c.here c.above }

def namesFromRoot (t : FileTree) (p : FilePath) (names : List String) : List String :=
  if p.absolute then names else t.workingDirectory ++ names

/-- the directory that a path ends in, and the last name, if that is not the directory itself -/
def locate (t : FileTree) (path : String) : Except FileError (Cursor × Option String) := do
  if path = "" then throw .notFound
  checkPath path
  let p := FilePath.parse path
  match p.names.getLast? with
  | none | some "." | some ".." => return (← t.atRoot.walk (t.namesFromRoot p p.names), none)
  | some last => return (← t.atRoot.walk (t.namesFromRoot p p.names.dropLast), some last)

def read (t : FileTree) (path : String) : Except FileError ByteArray := do
  match ← t.locate path with
  | (_, none) => throw .isDirectory
  | (c, some name) =>
    match ← c.find? name with
    | none => throw .notFound
    | some (.directory _) => throw .isDirectory
    | some (.file content) =>
      if (FilePath.parse path).closed then throw .notDirectory else return content

def readText (t : FileTree) (path : String) : Except FileError String := do
  match String.fromUTF8? (← t.read path) with
  | some text => return text
  | none => throw .notText

def write (t : FileTree) (path : String) (content : ByteArray → ByteArray) :
    Except FileError FileTree := do
  match ← t.locate path with
  | (_, none) => throw .isDirectory
  | (c, some name) =>
    if (FilePath.parse path).closed then throw .isDirectory
    match ← c.find? name with
    | some (.directory _) => throw .isDirectory
    | some (.file old) => return t.closing (c.put name (.file (content old)))
    | none => return t.closing (c.put name (.file (content .empty)))

def writeText (t : FileTree) (path text : String) : Except FileError FileTree :=
  t.write path fun _ => text.toUTF8

def appendText (t : FileTree) (path text : String) : Except FileError FileTree :=
  t.write path fun old => old ++ text.toUTF8

def makeParents (t : FileTree) (path : String) : Except FileError Unit × FileTree :=
  match checkPath (FilePath.parentText path) with
  | .error e => (.error e, t)
  | .ok () =>
    let p := FilePath.parse path
    let (result, c) := t.atRoot.makeDirectories false
      (t.namesFromRoot p (p.names.filter (· != ".")).dropLast)
    (result, t.closing c)

end FileTree

end NgapProcedures

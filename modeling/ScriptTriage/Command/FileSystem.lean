import ScriptTriage.Text.Utf8

/-
File systems as the command sees them: what a path leads to, and whether it can be written to. A file system given as
a table holds files and directories by their relative paths.
-/

namespace ScriptTriage

/-- why the system refuses to read or write -/
inductive FileFault where
  | notFound
  | isDirectory
  | notDirectory
  /-- the content is no valid UTF-8 -/
  | invalidText
  | other (message : String)
deriving DecidableEq, Repr

def FileFault.message : FileFault → String
  | .notFound => "No such file or directory (os error 2)"
  | .isDirectory => "Is a directory (os error 21)"
  | .notDirectory => "Not a directory (os error 20)"
  | .invalidText => "stream did not contain valid UTF-8"
  | .other m => m

/-- what a path leads to -/
inductive FileEntry where
  | file (content : List UInt8)
  | directory
deriving DecidableEq, Repr

/-- a file system, fixed while a command runs -/
structure FileSystem where
  find : String → Except FileFault FileEntry
  /-- why writing a file at a path is refused -/
  writeFault? : String → Option FileFault

namespace FileSystem

def hasPath (fs : FileSystem) (path : String) : Bool := (fs.find path).toBool

def read (fs : FileSystem) (path : String) : Except FileFault (List UInt8) :=
  match fs.find path with
  | .ok (.file content) => .ok content
  | .ok .directory => .error .isDirectory
  | .error fault => .error fault

def readText (fs : FileSystem) (path : String) : Except FileFault String :=
  match fs.read path with
  | .ok content =>
    match Text.decodeStrict content with
    | some text => .ok text
    | none => .error .invalidText
  | .error fault => .error fault

/-- the parts of a path; empty ones and single points do not count -/
def components (path : String) : List String := (path.splitOn "/").filter fun p => p ≠ "" && p ≠ "."

/-- can the path only mean a directory? -/
def namesDirectory (path : String) : Bool := path.endsWith "/" || path.endsWith "/."

/-- what a table holds at these parts; directories that only their content names are there too -/
def findParts (table : List (List String × FileEntry)) (parts : List String) : Except FileFault FileEntry :=
  if parts.isEmpty then .ok .directory
  else
    match table.lookup parts with
    | some entry => .ok entry
    | none =>
      if table.any fun e => parts.isPrefixOf e.1 then .ok .directory
      else if table.any fun e => e.1.isPrefixOf parts && e.2 ≠ .directory then .error .notDirectory
      else .error .notFound

/-- the parts without the steps up to a parent, which only a directory has; `done` is what was walked so far -/
def climb (table : List (List String × FileEntry)) : (done parts : List String) → Except FileFault (List String)
  | done, [] => .ok done
  | done, part :: parts =>
    if part = ".." then
      match findParts table done with
      | .ok .directory => climb table done.dropLast parts
      | .ok (.file _) => .error .notDirectory
      | .error fault => .error fault
    else climb table (done ++ [part]) parts

/-- look a path up in a table -/
def findIn (table : List (List String × FileEntry)) (path : String) : Except FileFault FileEntry :=
  if path.isEmpty || path.startsWith "/" then .error .notFound
  else
    match (climb table [] (components path)).bind (findParts table) with
    | .ok (.file content) => if namesDirectory path then .error .notDirectory else .ok (.file content)
    | answer => answer

/-- why a table refuses to write at a path: there has to be a directory for the file, and no directory in its place -/
def writeFaultIn? (table : List (List String × FileEntry)) (path : String) : Option FileFault :=
  match findIn table path with
  | .ok .directory => some .isDirectory
  | .ok (.file _) => none
  | .error .notFound =>
    if path.isEmpty || path.startsWith "/" then some .notFound
    else
      match (climb table [] (components path).dropLast).bind (findParts table) with
      | .ok .directory => if namesDirectory path then some .isDirectory else none
      | .ok (.file _) => some .notDirectory
      | .error fault => some fault
  | .error fault => some fault

def ofTable (entries : List (String × FileEntry)) : FileSystem :=
  let table := entries.map fun e => (components e.1, e.2)
  { find := findIn table, writeFault? := writeFaultIn? table }

end FileSystem

end ScriptTriage

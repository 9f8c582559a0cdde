import ScriptTriage.Command.FileSystem
import ScriptTriage.Command.Help
import ScriptTriage.Options.Load
import ScriptTriage.Report.Terminal
import ScriptTriage.Session

/-
The command as a function of its arguments, standard input, a few variables and the file system. Settings are loaded
first; then the paths are put together, all of them have to exist, and the scripts are read and analysed in order
beside one registry.
-/

namespace ScriptTriage

/-- what the command finds around it -/
structure Surroundings where
  arguments : List String
  stdin : List UInt8
  files : FileSystem
  /-- the variable that forces colour, if it is set -/
  forceColor : Option String := none
  /-- how scripts are read -/
  read : ScriptReader := SyntaxTree.read

/-- colour is forced by any value but zero -/
def Surroundings.color (s : Surroundings) : Bool := s.forceColor.any (· ≠ "0")

/-- a complaint: what could not be done, and the causes, the nearest first -/
structure Complaint where
  message : String
  causes : List String := []
deriving DecidableEq, Repr

/-- the text for the user; several causes are numbered -/
def Complaint.text (c : Complaint) : String :=
  let causes := match c.causes with
    | [] => ""
    | [cause] => "\nCaused by:\n    " ++ cause ++ "\n"
    | causes => "\nCaused by:\n" ++
        String.join (causes.zipIdx.map fun (cause, i) => "    " ++ toString i ++ ": " ++ cause ++ "\n")
  "Error: " ++ c.message ++ "\n" ++ causes

/-- what the command does in the end -/
structure Outcome where
  exitCode : Nat
  stdout : String := ""
  stderr : Option String := none
  /-- a file that is written, and its content -/
  written : Option (String × String) := none
deriving DecidableEq, Repr

namespace Command

/-- a blank in the sense of Unicode -/
def isWhiteSpace (c : Char) : Bool :=
  ('\t' ≤ c && c ≤ '\r') || ('\u2000' ≤ c && c ≤ '\u200A') ||
    [' ', '\u0085', '\u00A0', '\u1680', '\u2028', '\u2029', '\u202F', '\u205F', '\u3000'].contains c

def trim (cs : List Char) : List Char :=
  ((cs.dropWhile isWhiteSpace).reverse.dropWhile isWhiteSpace).reverse

/-- the lines of a text; a line end at the very end starts no further line -/
def lines (bytes : List UInt8) : List (List UInt8) :=
  match bytes.splitOn 0x0A with
  | [] => []
  | parts => if parts.getLast? = some [] then parts.dropLast else parts

/-- the paths on standard input: one on each line, without blanks around it; empty lines and comments do not count,
and nothing counts behind a line that is no text -/
def stdinPaths (stdin : List UInt8) : List String :=
  (((lines stdin).map Text.decodeStrict).takeWhile (·.isSome)).filterMap fun line =>
    let path := trim (line.getD "").toList
    if path.isEmpty || path.head? = some '#' then none else some (String.ofList path)

/-- the paths to analyse: the first dash stands for standard input, further ones for nothing -/
def expandPaths (stdin : List UInt8) : List String → (isRead : Bool) → List String
  | [], _ => []
  | path :: paths, isRead =>
    if path = "-" then (if isRead then [] else stdinPaths stdin) ++ expandPaths stdin paths true
    else path :: expandPaths stdin paths isRead

def loadFile (files : FileSystem) (path : String) : Except Complaint Options :=
  let message := "Failed to load config '" ++ path ++ "'"
  match files.readText path with
  | .error fault => .error ⟨message, [(Failure.io fault.message).message, fault.message]⟩
  | .ok text =>
    match Options.ofYaml text with
    | .error fault => .error ⟨message, [fault.failure.message]⟩
    | .ok o => .ok o

/-- the settings of a run: from a file if there is one, then from flags -/
def loadOptions (files : FileSystem) (c : AnalyzeCommand) : Except Complaint Options :=
  match (match c.config with
    | some path => loadFile files path
    | none => .ok {}) with
  | .error complaint => .error complaint
  | .ok base =>
    let o : Options :=
      { base with leastLength := c.leastLength.getD base.leastLength, strict := base.strict || c.strict }
    match o.fault? with
    | some fault => .error ⟨fault.failure.message, []⟩
    | none => .ok o

/-- read a script; bytes that are no text are replaced -/
def readScript (files : FileSystem) (path : String) : Except Complaint String :=
  match files.read path with
  | .ok content => .ok (Text.decodeLossy content)
  | .error fault => .error ⟨"Failed to read '" ++ path ++ "'", [fault.message]⟩

/-- read and analyse scripts in order beside one registry -/
def analyzeAll (files : FileSystem) (read : ScriptReader) (a : Analyzer) :
    List String → Registry → Except Complaint (List ScriptReport × Registry)
  | [], r => .ok ([], r)
  | path :: paths, r =>
    match readScript files path with
    | .error complaint => .error complaint
    | .ok source =>
      let (findings, r) := a.analyze read Sink.registry source r
      (analyzeAll files read a paths r).map fun (scripts, r) => (⟨path, findings⟩ :: scripts, r)

def missingPath? (files : FileSystem) (paths : List String) : Option String :=
  paths.find? fun path => !files.hasPath path

def analyzePaths (files : FileSystem) (read : ScriptReader) (paths : List String) (o : Options) :
    Except Complaint Report :=
  match missingPath? files paths with
  | some path => .error ⟨"Path does not exist: " ++ path, []⟩
  | none =>
    match Analyzer.create o none with
    | .error fault => .error ⟨"Failed to create analyzer: " ++ fault.failure.message, []⟩
    | .ok a => (analyzeAll files read a paths ∅).map fun (scripts, r) => ⟨scripts, r.toList⟩

def report (s : Surroundings) (c : AnalyzeCommand) : Except Complaint Report :=
  match loadOptions s.files c with
  | .error complaint => .error complaint
  | .ok o => analyzePaths s.files s.read (expandPaths s.stdin c.paths false) o

def render (format : OutputFormat) (color : Bool) (r : Report) : String :=
  match format with
  | .json => r.toJson.pretty
  | .terminal => r.terminal color

def complain (c : Complaint) : Outcome := { exitCode := 1, stderr := some c.text }

def refuseToWrite (path : String) (fault : FileFault) : Outcome :=
  complain ⟨"Failed to write '" ++ path ++ "'", [fault.message]⟩

/-- hand a text over: to a file if one was named, else to standard output -/
def deliver (files : FileSystem) (output : Option String) (text : String) : Outcome :=
  match output with
  | none => { exitCode := 0, stdout := text }
  | some path =>
    match files.writeFault? path with
    | some fault => refuseToWrite path fault
    | none => { exitCode := 0, written := some (path, text) }

def analyze (s : Surroundings) (c : AnalyzeCommand) : Outcome :=
  match report s c with
  | .error complaint => complain complaint
  | .ok r => deliver s.files c.output (render c.format s.color r)

def run (s : Surroundings) : Outcome :=
  match Invocation.ofArguments? s.arguments with
  | none => { exitCode := 2 }
  | some .version => { exitCode := 0, stdout := versionText }
  | some (.help page) => { exitCode := 0, stdout := page.text }
  | some (.analyze c) => analyze s c

/-- the paths that a command may look at or write to -/
def touchedPaths (arguments : List String) (stdin : List UInt8) : List String :=
  match Invocation.ofArguments? arguments with
  | some (.analyze c) => c.config.toList ++ expandPaths stdin c.paths false ++ c.output.toList
  | _ => []

def readsStdin (arguments : List String) : Bool :=
  match Invocation.ofArguments? arguments with
  | some (.analyze c) => c.paths.contains "-"
  | _ => false

end Command

end ScriptTriage

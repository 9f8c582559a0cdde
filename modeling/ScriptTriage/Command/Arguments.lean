import ScriptTriage.Number.Literal

/-
The command line. Global flags may stand before or behind the word `analyze`; behind it they win. A flag that takes
one value may be given once at each of the two places. Two dashes end the flags, and a single dash is no flag.
-/

namespace ScriptTriage

inductive OutputFormat where
  | json
  | terminal
deriving DecidableEq, Repr, Inhabited

def OutputFormat.ofName? : String → Option OutputFormat
  | "json" => some .json
  | "terminal" => some .terminal
  | _ => none

inductive HelpPage where
  | program
  | programSummary
  | analyze
  | analyzeSummary
  | help
deriving DecidableEq, Repr

/-- what to analyse, and how -/
structure AnalyzeCommand where
  paths : List String
  leastLength : Option Nat
  strict : Bool
  format : OutputFormat
  output : Option String
  config : Option String
deriving DecidableEq, Repr

/-- what the command line asks for -/
inductive Invocation where
  | version
  | help (page : HelpPage)
  | analyze (command : AnalyzeCommand)
deriving DecidableEq, Repr

namespace Arguments

/-- before or behind the word `analyze` -/
inductive Level where
  | program
  | analyze
deriving DecidableEq, Repr

inductive Flag where
  | format
  | output
  | config
  | verbose
  | leastLength
  | strict
  | help
  | summary
  | version
deriving DecidableEq, Repr

def Flag.ofLong? (level : Level) (name : String) : Option Flag :=
  match name with
  | "format" => some .format
  | "output" => some .output
  | "config" => some .config
  | "verbose" => some .verbose
  | "help" => some .help
  | "version" => if level = .program then some .version else none
  | "min-shellcode-length" => if level = .analyze then some .leastLength else none
  | "strict" => if level = .analyze then some .strict else none
  | _ => none

def Flag.ofShort? (level : Level) (name : Char) : Option Flag :=
  match name with
  | 'f' => some .format
  | 'o' => some .output
  | 'c' => some .config
  | 'v' => some .verbose
  | 'h' => some .summary
  | 'V' => if level = .program then some .version else none
  | _ => none

def Flag.takesValue : Flag → Bool
  | .format | .output | .config | .leastLength => true
  | _ => false

/-- what was given at one level -/
structure Given where
  format : Option OutputFormat := none
  output : Option String := none
  config : Option String := none
  verbose : Bool := false
  leastLength : Option Nat := none
  strict : Bool := false
  paths : List String := []

/-- what reading the flags comes to -/
inductive Progress where
  | more (given : Given)
  | done (invocation : Invocation)

/-- take a value for the first time -/
def once {α : Type} (old : Option α) (new : Option α) : Option (Option α) :=
  match old, new with
  | none, some a => some (some a)
  | _, _ => none

/-- take a flag with its value -/
def Given.assign (g : Given) (flag : Flag) (value : String) : Option Given :=
  match flag with
  | .format => (once g.format (OutputFormat.ofName? value)).map fun format => { g with format }
  | .output => (once g.output (some value)).map fun output => { g with output }
  | .config => (once g.config (some value)).map fun config => { g with config }
  | .leastLength =>
    (once g.leastLength (Number.parseBounded 10 Number.wordLimit value.toList)).map fun leastLength =>
      { g with leastLength }
  | _ => none

/-- take a flag without a value -/
def Given.raise (g : Given) (level : Level) (flag : Flag) : Option Progress :=
  match flag with
  | .verbose => if g.verbose then none else some (.more { g with verbose := true })
  | .strict => if g.strict then none else some (.more { g with strict := true })
  | .help => some (.done (.help (if level = .program then .program else .analyze)))
  | .summary => some (.done (.help (if level = .program then .programSummary else .analyzeSummary)))
  | .version => some (.done .version)
  | _ => none

/-- is the word a flag, and so no value? -/
def looksLikeFlag (word : String) : Bool := word.startsWith "-" && word ≠ "-"

/-- an argument as the command reads it -/
inductive Word where
  /-- a flag, and the value attached to it -/
  | flag (flag : Flag) (value : Option String)
  /-- the end of the flags -/
  | separator
  | positional (word : String)
  /-- a flag that is not known -/
  | unknown

/-- a long flag, behind its dashes -/
def Word.ofLong (level : Level) (body : List Char) : Word :=
  let name := String.ofList (body.takeWhile (· ≠ '='))
  let value := match body.dropWhile (· ≠ '=') with
    | _ :: value => some (String.ofList value)
    | [] => none
  match Flag.ofLong? level name with
  | some f => if value.isSome && !f.takesValue then .unknown else .flag f value
  | none => .unknown

/-- short flags in one word, behind its dash; the last one may have its value attached -/
def Word.ofShort (level : Level) : List Char → List Word
  | [] => []
  | c :: rest =>
    match Flag.ofShort? level c with
    | some f =>
      if f.takesValue then
        match rest with
        | [] => [.flag f none]
        | '=' :: value => [.flag f (some (String.ofList value))]
        | value => [.flag f (some (String.ofList value))]
      else .flag f none :: ofShort level rest
    | none => [.unknown]

/-- read one argument -/
def words (level : Level) (argument : String) : List Word :=
  if argument = "--" then [.separator]
  else
    match argument.toList with
    | '-' :: '-' :: body => [.ofLong level body]
    | '-' :: c :: body => Word.ofShort level (c :: body)
    | _ => [.positional argument]

/-- take the flags of one argument; the answer may be a flag that waits for its value -/
def takeWords (level : Level) : List Word → Given → Option (Progress × Option Flag)
  | [], g => some (.more g, none)
  | .flag flag (some value) :: ws, g => (g.assign flag value).bind fun g => takeWords level ws g
  | .flag flag none :: ws, g =>
    if flag.takesValue then some (.more g, some flag)
    else
      match g.raise level flag with
      | some (.more g) => takeWords level ws g
      | some (.done invocation) => some (.done invocation, none)
      | none => none
  | _ :: _, _ => none

/-- put together what was given before and behind the word `analyze` -/
def assemble (outer inner : Given) : Option Invocation :=
  if inner.paths.isEmpty then none
  else
    some (.analyze
      { paths := inner.paths
        leastLength := inner.leastLength
        strict := inner.strict
        format := (inner.format.or outer.format).getD .terminal
        output := inner.output.or outer.output
        config := inner.config.or outer.config })

/-- read the arguments behind the word `analyze` -/
def readAnalyze (outer : Given) : List String → Given → Option Invocation
  | [], g => assemble outer g
  | a :: rest, g =>
    match words .analyze a with
    | [.separator] => assemble outer { g with paths := g.paths ++ rest }
    | [.positional path] => readAnalyze outer rest { g with paths := g.paths ++ [path] }
    | ws =>
      match takeWords .analyze ws g with
      | some (.done invocation, _) => some invocation
      | some (.more g, none) => readAnalyze outer rest g
      | some (.more g, some flag) =>
        match rest with
        | value :: rest =>
          if looksLikeFlag value then none else (g.assign flag value).bind fun g => readAnalyze outer rest g
        | [] => none
      | none => none

/-- the help page that the word `help` asks for -/
def helpPage? : List String → Option HelpPage
  | [] => some .program
  | ["analyze"] => some .analyze
  | ["help"] => some .help
  | _ => none

/-- read the arguments up to the word `analyze` -/
def readProgram : List String → Given → Option Invocation
  | [], _ => none
  | a :: rest, g =>
    match words .program a with
    | [.separator] => none
    | [.positional word] =>
      if word = "analyze" then readAnalyze g rest {}
      else if word = "help" then (helpPage? rest).map .help
      else none
    | ws =>
      match takeWords .program ws g with
      | some (.done invocation, _) => some invocation
      | some (.more g, none) => readProgram rest g
      | some (.more g, some flag) =>
        match rest with
        | value :: rest =>
          if looksLikeFlag value then none else (g.assign flag value).bind fun g => readProgram rest g
        | [] => none
      | none => none

end Arguments

/-- what the command line asks for; nothing if it makes no sense -/
def Invocation.ofArguments? (args : List String) : Option Invocation := Arguments.readProgram args {}

end ScriptTriage

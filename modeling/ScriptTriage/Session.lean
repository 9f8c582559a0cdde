import ScriptTriage.Analysis

/-
Sessions: several analyses, one after the other, beside one registry. The current analyzer may or may not be attached
to the registry; its candidates get there only if it is.
-/

namespace ScriptTriage

/-- where the candidates of an analyzer go -/
inductive Attachment where
  | detached
  | shared
  /-- a registry that refuses everything -/
  | refused
deriving DecidableEq, Repr

/-- an analyzer at work, and where its candidates go -/
structure Attached where
  analyzer : Analyzer
  attachment : Attachment
deriving DecidableEq

/-- analyse a script beside a registry -/
def Attached.analyze (a : Attached) (read : ScriptReader) (source : String) (r : Registry) : Findings × Registry :=
  match a.attachment with
  | .detached => ((a.analyzer.analyze read Sink.none source ()).1, r)
  | .shared => a.analyzer.analyze read Sink.registry source r
  | .refused => ((a.analyzer.analyze read Sink.refusing source ()).1, r)

/-- the registry, the current analyzer, and the reader that every analyzer uses -/
structure Session where
  registry : Registry := ∅
  current : Option Attached := none
  read : ScriptReader := SyntaxTree.read

namespace Session

inductive Request where
  | create (options : Options) (attachment : Attachment) (context : Option String)
  | analyze (source : String)
  | parse (source : String)
  | add (candidate : Candidate)
  | contains (candidate : Candidate)
  | snapshot

inductive Answer where
  | created (analyzer : Analyzer)
  | refused (fault : OptionFault)
  | noAnalyzer
  | findings (findings : Findings)
  | parsed (program : Except Failure Program)
  | flag (value : Bool)
  | candidates (candidates : List Candidate)

def step (s : Session) : Request → Answer × Session
  | .create options attachment context =>
    match Analyzer.create options context with
    | .ok analyzer => (.created analyzer, { s with current := some ⟨analyzer, attachment⟩ })
    | .error fault => (.refused fault, s)
  | .analyze source =>
    match s.current with
    | some a =>
      let (findings, registry) := a.analyze s.read source s.registry
      (.findings findings, { s with registry })
    | none => (.noAnalyzer, s)
  | .parse source =>
    match s.current with
    | some a => (.parsed (a.analyzer.parse source s.read), s)
    | none => (.noAnalyzer, s)
  | .add candidate =>
    let (isNew, registry) := Registry.add candidate s.registry
    (.flag isNew, { s with registry })
  | .contains candidate => (.flag (s.registry.contains candidate), s)
  | .snapshot => (.candidates s.registry.toList, s)

/-- answer requests in turn; each answer comes with the registry behind it -/
def run (s : Session) : List Request → List (Answer × Registry)
  | [] => []
  | r :: rs =>
    let (answer, next) := s.step r
    (answer, next.registry) :: next.run rs

end Session

end ScriptTriage

import ScriptTriage.Lowering
import ScriptTriage.Options
import ScriptTriage.Reader.Script
import ScriptTriage.Walk

/-
Analysis of one script: read, lower, walk. An analyzer has settings that were found valid. The reader is an argument:
it may give a tree, give up, or crash. A script that is not read, or is refused, gives no findings, and never a failure.
-/

namespace ScriptTriage

/-- what comes of reading a script -/
inductive ReadOutcome where
  | tree (tree : SyntaxTree)
  /-- the reader gave up -/
  | noTree
  /-- the reader broke down, and that was caught -/
  | crash

abbrev ScriptReader := String → ReadOutcome

/-- the reader of this library always gives a tree -/
def SyntaxTree.read : ScriptReader := fun source => .tree (.ofString source)

/-- valid settings, and a label that is carried along untouched -/
structure Analyzer where
  options : Options
  valid : options.Valid
  context : Option String := none
deriving DecidableEq

namespace Analyzer

/-- an analyzer with these settings, unless they are refused -/
def create (o : Options) (context : Option String) : Except OptionFault Analyzer :=
  match h : o.fault? with
  | some fault => .error fault
  | none => .ok { options := o, valid := o.fault?_eq_none_iff.1 h, context }

/-- what of a lowered program is accepted: everything, unless the analyzer is strict and there were errors -/
def accept (a : Analyzer) (p : Program) : Except Failure Program :=
  if p.hasErrors && a.options.strict then .error .syntaxErrors else .ok p

/-- read and lower a script -/
def parse (a : Analyzer) (source : String) (read : ScriptReader := SyntaxTree.read) : Except Failure Program :=
  match read source with
  | .tree tree => a.accept (tree.lower source a.options.maxDepth)
  | .noTree => .error .noTree
  | .crash => .error .crash

/-- analyse a script; candidates also go to the sink -/
def analyze {σ : Type} (a : Analyzer) (read : ScriptReader) (sink : Sink σ) (source : String) (state : σ) :
    Findings × σ :=
  match a.parse source read with
  | .ok p => Walk.program ⟨a.options.leastLength, sink⟩ p.body state
  | .error _ => ({}, state)

end Analyzer

end ScriptTriage

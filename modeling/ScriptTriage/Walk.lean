import ScriptTriage.Node
import ScriptTriage.Registry
import ScriptTriage.Walk.Collector
import ScriptTriage.Walk.Operator

/-
The walk over a program. It goes depth first through statement lists, function bodies and the block branches of
`if`, and records what it meets: declared and assigned names, literal initialisers, lines to stop at and payload
candidates. Loop bodies, nested expressions and all other nodes are not entered. Every candidate also goes to a
sink, whose answer changes nothing.
-/

namespace ScriptTriage

/-- what a walk needs besides the program: the least length of a candidate, and the sink for candidates -/
structure WalkConfig (σ : Type) where
  leastLength : Nat
  sink : Sink σ

/-- the state of a walk: what was found, and the state of the sink -/
structure WalkState (σ : Type) where
  collector : Collector
  sink : σ

namespace Walk

variable {σ : Type}

def record (change : Collector → Collector) (s : WalkState σ) : WalkState σ :=
  { s with collector := change s.collector }

/-- report a candidate: first to the sink, whatever it answers, then to the findings -/
def addCandidate (cfg : WalkConfig σ) (c : Candidate) (s : WalkState σ) : WalkState σ :=
  { collector := s.collector.addCandidate c, sink := (cfg.sink.add c s.sink).2 }

/-- inspect a literal: a string that is long enough is a candidate -/
def onLiteral (cfg : WalkConfig σ) (l : Literal) (s : WalkState σ) : WalkState σ :=
  match l.value with
  | .string text =>
    match Candidate.extract? text cfg.leastLength with
    | some c => addCandidate cfg c s
    | none => s
  | _ => s

def onLiteralNode (cfg : WalkConfig σ) (n : Node) (s : WalkState σ) : WalkState σ :=
  match n with
  | .literal l => onLiteral cfg l s
  | _ => s

def onInitialiser (cfg : WalkConfig σ) (scope : Scope) (name : String) (loc : Option Location) (init : Node)
    (s : WalkState σ) : WalkState σ :=
  let s := record (·.addBreakpoint .assignment loc scope) s
  match init with
  | .literal l =>
    let s := match l.raw with
      | some raw => record (·.addValueAssignment name scope raw) s
      | none => s
    onLiteral cfg l s
  | _ => s

/-- a declarator; only those that declare a plain name count -/
def onDeclarator (cfg : WalkConfig σ) (scope : Scope) (d : Declarator) (s : WalkState σ) : WalkState σ :=
  match d.id with
  | some (.identifier i) =>
    let s := record (·.addBinding i.name scope) s
    match d.init with
    | some init => onInitialiser cfg scope i.name d.loc init s
    | none => s
  | _ => s

/-- the name on the left of an assignment is bound -/
def onTarget (scope : Scope) (target : Node) (s : WalkState σ) : WalkState σ :=
  match target with
  | .identifier i => record (·.addBinding i.name scope) s
  | _ => s

/-- is this the token of an operator that the walk follows? -/
def follows (operator : Option String) : Bool :=
  match operator with
  | some token => (AssignmentOperator.ofToken? token).isSome
  | none => false

mutual

def visit (cfg : WalkConfig σ) (scope : Scope) : Node → WalkState σ → WalkState σ
  | .variableDeclaration _ declarators _, s =>
    declarators.foldl (fun s d => onDeclarator cfg scope d s) s
  | .functionDeclaration (some id) _ (some (.mk body _)) _, s => visitAll cfg ⟨id.name⟩ body s
  | .expressionStatement (some (.assignment operator (some left) (some right) _)) loc, s =>
    if follows operator then
      let s := onTarget scope left s
      let s := visit cfg scope left s
      let s := visit cfg scope right s
      record (·.addBreakpoint .assignment loc scope) s
    else s
  | .expressionStatement (some (.call _ arguments _)) _, s =>
    arguments.foldl (fun s n => onLiteralNode cfg n s) s
  | .ifStatement _ consequent alternate _, s =>
    visitBranch cfg scope consequent (visitBranch cfg scope alternate s)
  | .loop kind _ loc, s =>
    if kind = .forOf then s else record (·.addBreakpoint .loop loc scope) s
  | .returnStatement (some argument) _, s => onLiteralNode cfg argument s
  | .literal l, s => onLiteral cfg l s
  | _, s => s

def visitAll (cfg : WalkConfig σ) (scope : Scope) : List Node → WalkState σ → WalkState σ
  | [], s => s
  | n :: ns, s => visitAll cfg scope ns (visit cfg scope n s)

/-- visit a branch of an `if`, which has to be a block -/
def visitBranch (cfg : WalkConfig σ) (scope : Scope) : Option Node → WalkState σ → WalkState σ
  | some (.block (.mk body _)), s => visitAll cfg scope body s
  | _, s => s

end

def start (sink : σ) : WalkState σ := ⟨.empty, sink⟩

/-- walk several lists of statements, each under its own scope, and give the findings and the last sink state -/
def walks (cfg : WalkConfig σ) (parts : List (Scope × List Node)) (sink : σ) : Findings × σ :=
  let s := parts.foldl (fun s p => visitAll cfg p.1 p.2 s) (start sink)
  (s.collector.finish, s.sink)

/-- walk a list of statements in the global scope -/
def program (cfg : WalkConfig σ) (body : List Node) (sink : σ) : Findings × σ :=
  walks cfg [(.global, body)] sink

/-- the findings of a walk without a sink -/
def findings (leastLength : Nat) (body : List Node) : Findings :=
  (program ⟨leastLength, .none⟩ body ()).1

end Walk

end ScriptTriage

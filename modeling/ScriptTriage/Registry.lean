import ScriptTriage.Candidate
import ScriptTriage.OrderedSet

/-
Where candidates go besides the findings of their own script. A sink takes a candidate and answers whether it was
new, or refuses it; the registry that several analyses share is the ordered set of all candidates it was given.
-/

namespace ScriptTriage

/-- a sink refused a candidate -/
structure Refusal where
  message : String
deriving DecidableEq, Repr

/-- a place that takes candidates, with state `σ` -/
structure Sink (σ : Type) where
  add : Candidate → σ → Except Refusal Bool × σ

/-- the sink that is not there -/
def Sink.none : Sink Unit := ⟨fun _ s => (.ok false, s)⟩

def Sink.refusing : Sink Unit := ⟨fun _ s => (.error ⟨"candidate refused"⟩, s)⟩

/-- the candidates of all scripts, in the order in which they were first seen -/
abbrev Registry := OrderedSet Candidate

/-- put a candidate in, and tell whether it was new -/
def Registry.add (c : Candidate) (r : Registry) : Bool × Registry := (!r.contains c, r.insert c)

def Sink.registry : Sink Registry :=
  ⟨fun c r => (.ok (Registry.add c r).1, (Registry.add c r).2)⟩

end ScriptTriage

import ScriptTriage.Reader.Statement

/-
The reader's machine. It takes the first goal, replaces it by a step, and goes on until no goal is left. Where a goal
leads nowhere, the latest open choice is taken up again with its second list of goals. All stacks are data, so how
deeply a script is nested does not matter.
-/

namespace ScriptTriage.Reader

/-- recognise a goal that is not a choice -/
def Goal.step (s : State) : Goal → Option State
  | .build goal => goal.step s
  | .expression goal => goal.step s
  | .member goal => goal.step s
  | .literal goal => goal.step s
  | .statement goal => goal.step s
  | .either first _ => some (s.push first)
  | .commit => some s

/-- run until no goal is left; `choices` are the states to go back to, the latest first -/
def run : (fuel : Nat) → State → (choices : List State) → Option State
  | 0, _, _ => none
  | fuel + 1, s, choices =>
    match s.goals with
    | [] => some s
    | .either first second :: goals =>
      let s := { s with goals }
      run fuel (s.push first) (s.push second :: choices)
    | .commit :: goals => run fuel { s with goals } choices.tail
    | goal :: goals =>
      match goal.step { s with goals } with
      | some s => run fuel s choices
      | none =>
        match choices with
        | s :: choices => run fuel s choices
        | [] => none

/-- read goals at a place; the answer has the pieces that were read, the last one first -/
def readGoals (fuel : Nat) (goals : List Goal) (cursor : Cursor) (markup : Bool) : Option State :=
  run fuel ⟨cursor, markup, goals, [[]]⟩ []

end ScriptTriage.Reader

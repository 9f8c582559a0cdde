import ScriptTriage.Reader.Chars

/-
Automatic semicolons. Where a statement may end without a semicolon, one is taken to stand there if the script ends,
if a closing brace follows, or if a line break follows and the next line does not start with something that goes on
with the statement. Comments count as blanks, but a comment without a line break behind it is only looked through
where no operator could follow.
-/

namespace ScriptTriage.Reader

/-- what lies behind blanks and comments: does a line break allow a semicolon here? -/
inductive Gap where
  /-- a slash that starts no comment: there is no gap -/
  | reject
  /-- a comment without a line break, and more of the same line behind it -/
  | sameLine
  /-- the gap is over -/
  | accept
deriving DecidableEq, Repr

/-- a gap, what comes behind it, and whether a comment was in it -/
structure GapScan where
  gap : Gap
  rest : List Char
  sawComment : Bool

/-- behind the opening of a block comment: is it closed, is there a line break in it, and what comes behind it -/
def skipBlockComment : List Char → Bool → Bool × Bool × List Char
  | [], broken => (false, broken, [])
  | c :: cs, broken =>
    if c = '\x00' then (false, broken, c :: cs)
    else if c = '*' && cs.head? = some '/' then (true, broken, cs.tail)
    else skipBlockComment cs (broken || isLineBreak c)

theorem length_skipBlockComment_le (cs : List Char) (broken : Bool) :
    (skipBlockComment cs broken).2.2.length ≤ cs.length := by
  induction cs generalizing broken with
  | nil => simp [skipBlockComment]
  | cons c cs ih =>
    unfold skipBlockComment
    split
    · simp
    · split
      · simp; omega
      · have := ih (broken || isLineBreak c)
        simp; omega

theorem length_dropWhile_le (p : Char → Bool) (cs : List Char) : (cs.dropWhile p).length ≤ cs.length :=
  (List.dropWhile_suffix p).length_le

/-- skip blanks and comments. With `through` all of them are skipped; otherwise the scan stops behind the first
block comment that has no other comment directly behind it. `broken` tells of a line break in a block comment. -/
def scanGap (through : Bool) (cs : List Char) (broken saw : Bool) : GapScan :=
  match _h : cs.dropWhile isAsciiSpace with
  | '/' :: '/' :: rest =>
    scanGap through (rest.dropWhile fun c => !(c = '\x00' || isLineBreak c)) broken true
  | '/' :: '*' :: rest =>
    let comment := skipBlockComment rest broken
    if comment.1 && !through && comment.2.2.head? != some '/' then
      ⟨if comment.2.1 then .accept else .sameLine, comment.2.2, true⟩
    else scanGap through comment.2.2 comment.2.1 (saw || comment.1)
  | '/' :: rest => ⟨.reject, rest, saw⟩
  | rest => ⟨.accept, rest, saw⟩
termination_by cs.length
decreasing_by
  · have h₁ := length_dropWhile_le isAsciiSpace cs
    have h₂ := length_dropWhile_le (fun c => !(c = '\x00' || isLineBreak c)) rest
    simp [_h] at h₁
    omega
  · have h₁ := length_dropWhile_le isAsciiSpace cs
    have h₂ := length_skipBlockComment_le rest broken
    simp [_h] at h₁
    omega

theorem length_rest_scanGap_le (through : Bool) (cs : List Char) (broken saw : Bool) :
    (scanGap through cs broken saw).rest.length ≤ cs.length := by
  fun_induction scanGap through cs broken saw with
  | case1 cs broken saw rest h ih =>
    have h₁ := length_dropWhile_le isAsciiSpace cs
    have h₂ := length_dropWhile_le (fun c => !(c = '\x00' || isLineBreak c)) rest
    simp [h] at h₁
    omega
  | case2 cs broken saw rest h comment _ =>
    have h₁ := length_dropWhile_le isAsciiSpace cs
    have h₂ := length_skipBlockComment_le rest broken
    simp [h] at h₁
    simp only [comment]
    omega
  | case3 cs broken saw rest h comment _ ih =>
    have h₁ := length_dropWhile_le isAsciiSpace cs
    have h₂ := length_skipBlockComment_le rest broken
    simp [h] at h₁
    simp only [comment] at ih ⊢
    omega
  | case4 cs broken saw rest _ _ h =>
    have h₁ := length_dropWhile_le isAsciiSpace cs
    simp [h] at h₁
    show rest.length ≤ cs.length
    omega
  | case5 cs broken saw =>
    exact length_dropWhile_le isAsciiSpace cs

inductive SemicolonScan where
  | found
  /-- none; a question mark stands there, with no comment before it -/
  | question
  | absent
deriving DecidableEq, Repr

/-- characters that go on with a statement at the start of a line -/
def continuationMarks : List Char := "\x60,:;*%><=[(?^|&/".toList

/-- does a line that starts so begin a new statement? -/
def startsStatement : List Char → Bool
  | [] => true
  | c :: cs =>
    let next := cs.head?
    if continuationMarks.contains c then false
    else if c = '.' then next.any isAsciiDigit
    else if c = '+' then next = some '+'
    else if c = '-' then next = some '-'
    else if c = '!' then next != some '='
    else if c = 'i' then
      match cs with
      | 'n' :: rest =>
        if !(rest.head?.any isAsciiLetter) then false
        else if "stanceof".toList.isPrefixOf rest then (rest.drop 8).head?.any isAsciiLetter
        else true
      | _ => true
    else true

/-- what the answer is where no semicolon is found -/
def absentAt (sawComment : Bool) (rest : List Char) : SemicolonScan :=
  if !sawComment && rest.head? = some '?' then .question else .absent

/-- the part of the search behind a line break -/
def scanNextLine (cs : List Char) (saw : Bool) : SemicolonScan :=
  let scan := scanGap true cs false saw
  if scan.gap = .reject then absentAt scan.sawComment scan.rest
  else if startsStatement scan.rest then .found
  else absentAt scan.sawComment scan.rest

/-- look for an automatic semicolon. `comments` says that a comment alone may end the statement, which is so where no
operator can follow. -/
def scanSemicolon (comments : Bool) (saw : Bool) : List Char → SemicolonScan
  | [] => .found
  | c :: cs =>
    if c = '\x00' then .found
    else
      let scan := if c = '/' then scanGap false (c :: cs) false saw else ⟨.sameLine, c :: cs, saw⟩
      if scan.gap = .reject then absentAt scan.sawComment scan.rest
      else if scan.gap = .accept && comments && !(scan.rest.head?.any fun c => c = ',' || c = '=') then .found
      else
        match _h : scan.rest with
        | [] => .absent
        | d :: rest =>
          if d = '\x7d' then .found
          else if isLineBreak d then scanNextLine rest scan.sawComment
          else if isAsciiSpace d then scanSemicolon comments scan.sawComment rest
          else absentAt scan.sawComment (d :: rest)
termination_by cs => cs.length
decreasing_by
  have h₁ : scan.rest.length ≤ (c :: cs).length := by
    simp only [scan]
    split
    · exact length_rest_scanGap_le ..
    · simp
  simp [_h] at h₁
  simp
  omega

/-- is there an automatic semicolon in front of this text? -/
def semicolonAt (operator : Bool) (cs : List Char) : SemicolonScan := scanSemicolon (!operator) false cs

/-- behind an operand: does a question mark start a conditional? Not if it belongs to `??`, nor to `?.` unless a digit
follows. The blanks in front of it are counted. -/
def ternaryMark? (cs : List Char) : Option Nat :=
  let blanks := (cs.takeWhile isAsciiSpace).length
  match cs.drop blanks with
  | '?' :: '?' :: _ => none
  | '?' :: '.' :: c :: _ => if isAsciiDigit c then some blanks else none
  | ['?', '.'] => none
  | '?' :: _ => some blanks
  | _ => none

end ScriptTriage.Reader

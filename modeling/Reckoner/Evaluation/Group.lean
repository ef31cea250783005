import Reckoner.Evaluation.Term
import Reckoner.Text.Slice

/-!
# Parenthesis groups

A group is replaced by the literal of its value before the text around it is read, the innermost
groups first and from left to right.  A group with commas becomes an argument list in square
brackets instead, for the function before it.  Where a number touches a group, a `*` is written
between them.
-/

namespace Reckoner

/-! ## One group -/

/-- A text around one group. -/
structure Group where
  /-- The text before the opening parenthesis. -/
  before : Text
  /-- The text between the parentheses. -/
  content : Text
  /-- The text after the closing parenthesis. -/
  after : Text
  deriving DecidableEq, Repr

namespace Group

/-- The whole text. -/
def text (g : Group) : Text := g.before ++ '(' :: g.content ++ ')' :: g.after

/-- Whether a group is multiplied with what ends in the character. -/
def joinsLeft (c : Char) : Bool := c.isDigit || c == '.' || c == '!' || c == ']'

/-- Whether a group is multiplied with what begins with the character. -/
def joinsRight (c : Char) : Bool := c.isDigit || c == '.'

/-- The `*` before the value of a group, if there is one. -/
def starBefore (g : Group) : Text := if g.before.getLast?.any joinsLeft then ['*'] else []

/-- The `*` after a group, if there is one. -/
def starAfter (g : Group) : Text := if g.after.head?.any joinsRight then ['*'] else []

end Group

namespace Evaluation

/-- Reports a power of ten that has a sign and no digits. -/
def checkExponents (t : Text) : Evaluation Unit := do
  if hasUnfinishedExponent t then
    let _ ← fail (.unfinishedExponent t)

/-- What the content of a group is replaced with, between the stars it gets; `value` evaluates it,
and the trace shows it in the whole text. -/
def replacementIn (value : Text → Evaluation Float) (whole starBefore content starAfter : Text) :
    Evaluation Text := do
  if ArgumentList.hasComma 0 content then
    trace (.parameters content) whole
    return '[' :: ArgumentList.semicolons 0 content ++ ']' :: starAfter
  else
    checkExponents content
    let x ← value content
    let x ← checkFinite x (.groupOverflow content)
    trace (.group content x) whole
    return starBefore ++ Literal.ofFloat x ++ starAfter

/-- What a group is replaced with; `value` evaluates its content. -/
def replacement (value : Text → Evaluation Float) (g : Group) : Evaluation Text :=
  replacementIn value g.text g.starBefore g.content g.starAfter

/-! ## All groups -/

/-- Cuts a reversed text at its last opening parenthesis: the content after it, and the reversed
text before it. -/
def cutAtOpening (content : Text) : Text → Option (Text × Text)
  | [] => none
  | c :: before => if c = '(' then some (content, before) else cutAtOpening (c :: content) before

section

variable (replace : Group → Evaluation Text)

/-- Replaces every group of a text, whose beginning is given in reverse and holds no closing
parenthesis; `replace` tells what with.  There is no result when the parentheses are not
balanced. -/
def replaceGroupsBy (before : Text) : Text → Evaluation (Option Text)
  | [] =>
    if before.contains '(' then do
      let _ ← fail .unmatchedOpening
      return none
    else return some before.reverse
  | c :: after =>
    if c = ')' then
      match cutAtOpening [] before with
      | none => do
        let _ ← fail .unmatchedClosing
        return none
      | some (content, before) => do
        let new ← replace ⟨before.reverse, content, after⟩
        replaceGroupsBy (new.reverse ++ before) after
    else replaceGroupsBy (c :: before) after

/-- Whether a text holds a parenthesis. -/
def hasParenthesis (t : Text) : Bool := t.contains '(' || t.contains ')'

/-- The value of a text, with or without parentheses; `value` evaluates what has none, and `neutral`
is what the empty text counts as. -/
def evaluateTextBy (value : Float → Text → Evaluation Float) (neutral : Float) (t : Text) :
    Evaluation Float := do
  if hasParenthesis t then
    match ← replaceGroupsBy replace [] t with
    | none => return failedValue
    | some flat => value 1 flat
  else value neutral t

end

variable [MathLibrary] [Stack]

/-- Replaces every group of a text by the value of its content. -/
def replaceGroups (before after : Text) : Evaluation (Option Text) :=
  replaceGroupsBy (replacement (evaluateFlat 1)) before after

theorem replaceGroups_def_nil (before : Text) :
    replaceGroups before [] =
      if before.contains '(' then do
        let _ ← fail .unmatchedOpening
        return none
      else return some before.reverse := rfl

theorem replaceGroups_def_cons (before : Text) (c : Char) (after : Text) :
    replaceGroups before (c :: after) =
      if c = ')' then
        match cutAtOpening [] before with
        | none => do
          let _ ← fail .unmatchedClosing
          return none
        | some (content, before) => do
          let new ← replacement (evaluateFlat 1) ⟨before.reverse, content, after⟩
          replaceGroups (new.reverse ++ before) after
      else replaceGroups (c :: before) after := rfl

/-- The text with every group replaced. -/
def resolve (t : Text) : Evaluation (Option Text) := replaceGroups [] t

/-- The value of a text, with or without parentheses. -/
def evaluateText (neutral : Float) (t : Text) : Evaluation Float :=
  evaluateTextBy (replacement (evaluateFlat 1)) evaluateFlat neutral t

theorem evaluateText_def (neutral : Float) (t : Text) :
    evaluateText neutral t =
      if hasParenthesis t then do
        match ← resolve t with
        | none => return failedValue
        | some flat => evaluateFlat 1 flat
      else evaluateFlat neutral t := rfl

/-- The text with one group replaced, whatever the group holds. -/
def replaceGroup (g : Group) : Evaluation Text := do
  let new ← replacement (evaluateText 1) g
  return g.before ++ new ++ g.after

end Evaluation

/-! ## Groups at any positions -/

/-- A text with two positions, between which a group is said to be, and what the group is said to
hold.  None of it needs to be so. -/
structure Span where
  /-- The text. -/
  text : Text
  /-- What the group is said to hold. -/
  content : Text
  /-- Where the group is said to begin. -/
  opening : Int
  /-- Where the group is said to end. -/
  closing : Int
  deriving DecidableEq, Repr

namespace Span

/-- The group, with what stands before and behind the positions. -/
def group (s : Span) : Group :=
  ⟨takeTo s.opening s.text, s.content, dropTo (s.closing + 1) s.text⟩

/-- The `*` before the value of the group; there is none when the beginning is counted from the
end. -/
def starBefore (s : Span) : Text := if 0 < s.opening then s.group.starBefore else []

/-- Whether one of the characters next to the group is looked for outside of the text. -/
def isOutside (s : Span) : Bool :=
  s.closing + 1 < -(s.text.length : Int) ||
    !ArgumentList.hasComma 0 s.content && (s.text.length : Int) < s.opening

end Span

namespace Evaluation

/-- The text with what stands between two positions replaced as a group.  There is no result when a
character is looked for outside of the text. -/
def replaceSpan [MathLibrary] [Stack] (s : Span) : Evaluation (Option Text) := do
  if s.isOutside then return none
  else
    let new ← replacementIn (evaluateText 1) s.text s.starBefore s.content s.group.starAfter
    return some (s.group.before ++ new ++ s.group.after)

end Evaluation

end Reckoner

import ByteTape.Text.Basic

/-!
# Mistakes and their reports

What can be wrong with a source of the variable language, and how it is told: by the message of the
mistake, an excerpt of the source around its line, and sometimes a hint. The hint is chosen by the
words of the message.
-/

namespace ByteTape.Program

/-! ## Mistakes -/

inductive Mistake
  | name
  | nameAfter (word : String)
  | semicolon
  | operator (name : String)
  /-- Neither a number nor a variable stands behind `=`. -/
  | operand
  | tooLarge (value : Nat)
  /-- A statement uses one variable on both sides. -/
  | repeated (name : String)
  | test (name : String)
  | zero (name : String)
  | openBrace (name : String)
  | closeBrace
deriving DecidableEq, Repr

def Mistake.message : Mistake → String
  | name => "expected variable name"
  | nameAfter word => s!"expected variable name after '{word}'"
  | semicolon => "expected semicolon at the end of the statement"
  | operator x => s!"expected '+=', '-=' or '=' after '{x}'"
  | operand => "expected number (in 0..255) or variable after '='"
  | tooLarge value => s!"expected number (in 0..255), got {value}"
  | repeated x => s!"'{x}' cannot be used on both sides of the same statement"
  | test x => s!"expected '!=' after 'while {x}'"
  | zero x => s!"expected '0' after 'while {x} !='"
  | openBrace x => s!"expected '\x7b' after 'while {x} != 0'"
  | closeBrace => "expected '\x7d' to close the while body"

/-! ## Excerpts -/

/-- A number, filled up with blanks to four characters. -/
def lineNumber (n : Int) : String :=
  let digits := toString n
  String.ofList (List.replicate (4 - digits.length) ' ') ++ digits

def excerptRow (marked : Bool) (number : Int) (line : String) : String :=
  let mark := if marked then ">" else " "
  s!"{mark} {lineNumber number} | {line}"

/-- The line that an excerpt marks: the one asked for, or the nearest there is. -/
def nearestLine (count : Nat) (line : Int) : Int :=
  min (max 1 line) (max 1 count)

/-- The rows of the lines up to `radius` away from the marked one. -/
def excerptRows (lines : List String) (line radius : Int) : List String :=
  let marked := nearestLine lines.length line
  (lines.zipIdx 1).filterMap fun (text, number) =>
    if marked - radius ≤ number ∧ number ≤ marked + radius then
      some (excerptRow (number = marked) number text)
    else none

def excerpt (lines : List String) (line radius : Int) : String :=
  "\n".intercalate (excerptRows lines line radius)

/-! ## Hints -/

/-- Whether one text occurs in another. -/
def occursIn (part : List Char) : List Char → Bool
  | [] => part.isEmpty
  | c :: rest => part.isPrefixOf (c :: rest) || occursIn part rest

def hint? (message : String) : Option String :=
  let text := message.toList.map Char.toLower
  let tells (part : String) : Bool := occursIn part.toList text
  if tells "semicolon" then
    some "Every statement except while ends with \";\". Example: a = 3;"
  else if tells "expected '!='" || tells "expected '0'" then
    some "Loops only test against zero: while name != 0 \x7b ... \x7d"
  else if tells "expected '\x7d'" then
    some "Check for a missing closing \"\x7d\" on a while body."
  else if tells "number" && tells "255" then
    some "Constants are single bytes. Use a value between 0 and 255."
  else if tells "'+=', '-=' or '='" then
    some "Statements are: x = 3; x = y; x += y; x -= y; print x; input x; while x != 0 \x7b \x7d"
  else none

/-! ## Reports -/

/-- What is told about a mistake. -/
structure Report where
  message : String
  source : String
  line : Int
deriving DecidableEq, Repr

namespace Report

def context (report : Report) : String :=
  excerpt ((Text.lines report.source.toList).map String.ofList) report.line 2

def render (report : Report) : String :=
  let hint := match hint? report.message with
    | some hint => s!"\nHint: {hint}"
    | none => ""
  s!"ParseError: {report.message} (line {report.line})\n{report.context}{hint}"

end Report

end ByteTape.Program

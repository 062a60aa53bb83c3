import ByteTape.Program.Block
import ByteTape.Program.Report
import ByteTape.Program.Token
import ByteTape.Text.Numeral

/-!
# Parsing

The tokens of a source are taken one by one. Between two tokens the parser knows what the statement
under way still needs, the blocks that are still open, and the names met so far.

* `print` and `input` give their name a cell at the semicolon, an assignment gives its left side a
  cell at once and its operand a cell when it is read, and a loop gives its variable a cell behind
  its body.
* A mistake is reported on the line of the token that cannot be taken, or on the last line with a
  token when the source ends too early. Names that were met before it keep their cells.

Blocks within blocks are parsed on a stack. Parsing as such knows no limit to it: `nesting` says how
many blocks are open at a time, and whether a stack holds out for a source is asked before the
source is compiled.
-/

namespace ByteTape.Program

/-! ## Names -/

/-- Every variable name has a cell of its own. Cells are given out in the order in which names first
occur. -/
structure Names where
  /-- Names with their cells, in the order of first occurrence. -/
  entries : List (String × Nat) := []
  /-- The cell that the next new name gets. -/
  next : Nat := 0
deriving DecidableEq, Repr

namespace Names

def find? (names : Names) (name : String) : Option Nat :=
  names.entries.lookup name

/-- The cell of a name, and the names afterwards. -/
def cell (names : Names) (name : String) : Nat × Names :=
  match names.find? name with
  | some cell => (cell, names)
  | none => (names.next, ⟨names.entries ++ [(name, names.next)], names.next + 1⟩)

end Names

/-! ## Refusals -/

/-- Why a source is refused. -/
inductive Refusal
  | mistake (mistake : Mistake) (line : Nat)
  /-- A number has more digits than can be read. -/
  | longNumeral (digits : Nat)
deriving DecidableEq, Repr

namespace Refusal

/-- A mistake is told with the part of the source it is in. -/
def report? (source : String) : Refusal → Option Report
  | mistake m line => some { message := m.message, source, line }
  | longNumeral _ => none

def message (source : String) : Refusal → String
  | mistake m line => Report.render { message := m.message, source, line }
  | longNumeral digits => Text.longNumeral s!": value has {digits} digits"

end Refusal

namespace Parser

/-- How much of a statement has been taken. -/
inductive Stage
  | start
  | printName
  | printEnd (name : String)
  | inputName
  | inputEnd (name : String)
  | operator (name : String) (cell : Nat)
  | addend (name : String) (cell : Nat)
  | subtrahend (name : String) (cell : Nat)
  | operand (name : String) (cell : Nat)
  /-- The operand was the variable on the left side. -/
  | repeated (name : String)
  | commandEnd (command : Command)
  | whileName
  | whileTest (name : String)
  | whileZero (name : String)
  | whileBrace (name : String)
deriving DecidableEq, Repr

/-- The mistake made by not going on as a stage asks. -/
def Stage.mistake : Stage → Mistake
  | start => .name
  | printName => .nameAfter "print"
  | printEnd _ => .semicolon
  | inputName => .nameAfter "input"
  | inputEnd _ => .semicolon
  | operator name _ => .operator name
  | addend _ _ => .nameAfter "+="
  | subtrahend _ _ => .nameAfter "-="
  | operand _ _ => .operand
  | repeated name => .repeated name
  | commandEnd _ => .semicolon
  | whileName => .nameAfter "while"
  | whileTest name => .test name
  | whileZero name => .zero name
  | whileBrace name => .openBrace name

structure State where
  stage : Stage := .start
  /-- The innermost open block, last item first. -/
  block : Block := .nil
  /-- The blocks around it, innermost first, each held last item first and with the variable of the
  loop that stands behind it. -/
  outer : List (String × Block) := []
  names : Names
deriving DecidableEq, Repr

/-- Why a symbol is refused. -/
inductive Objection
  | mistake (mistake : Mistake)
  | longNumeral (digits : Nat)
deriving DecidableEq, Repr

namespace State

/-- Ends the statement under way. -/
def emit (s : State) (command : Command) : State :=
  { s with stage := .start, block := .command command s.block }

/-- Takes the variable behind `=`, `+=` or `-=`. -/
def takeOperand (s : State) (dest : String) (make : Int → Command) (name : String) : State :=
  if name = dest then { s with stage := .repeated name }
  else
    let (cell, names) := s.names.cell name
    { s with stage := .commandEnd (make cell), names }

def takeNumber (s : State) (cell : Nat) (digits : String) : Except Objection State :=
  if Text.maxDigits < digits.length then .error (.longNumeral digits.length)
  else
    let value := Text.decimalValue digits.toList
    if 255 < value then .error (.mistake (.tooLarge value))
    else .ok { s with stage := .commandEnd (.set cell value) }

/-- Takes a closing brace between two statements. -/
def closeLoop (s : State) : Except Objection State :=
  match s.outer with
  | [] => .error (.mistake .name)
  | (name, before) :: outer =>
      let (cell, names) := s.names.cell name
      .ok { block := .loop cell s.block.reverse before, outer, names }

def step (s : State) (symbol : Symbol) : Except Objection State :=
  match s.stage, symbol with
  | .start, .printKeyword => .ok { s with stage := .printName }
  | .start, .inputKeyword => .ok { s with stage := .inputName }
  | .start, .whileKeyword => .ok { s with stage := .whileName }
  | .start, .name name =>
      let (cell, names) := s.names.cell name
      .ok { s with stage := .operator name cell, names }
  | .start, .closeBrace => s.closeLoop
  | .printName, .name name => .ok { s with stage := .printEnd name }
  | .printEnd name, .semicolon =>
      let (cell, names) := s.names.cell name
      .ok ({ s with names }.emit (.print cell))
  | .inputName, .name name => .ok { s with stage := .inputEnd name }
  | .inputEnd name, .semicolon =>
      let (cell, names) := s.names.cell name
      .ok ({ s with names }.emit (.input cell))
  | .operator name cell, .addAssign => .ok { s with stage := .addend name cell }
  | .operator name cell, .subAssign => .ok { s with stage := .subtrahend name cell }
  | .operator name cell, .assign => .ok { s with stage := .operand name cell }
  | .addend dest cell, .name name => .ok (s.takeOperand dest (.add cell) name)
  | .subtrahend dest cell, .name name => .ok (s.takeOperand dest (.sub cell) name)
  | .operand dest cell, .name name => .ok (s.takeOperand dest (.copy cell) name)
  | .operand _ cell, .number digits => s.takeNumber cell digits
  | .commandEnd command, .semicolon => .ok (s.emit command)
  | .whileName, .name name => .ok { s with stage := .whileTest name }
  | .whileTest name, .notEqual => .ok { s with stage := .whileZero name }
  | .whileZero name, .number "0" => .ok { s with stage := .whileBrace name }
  | .whileBrace name, .openBrace =>
      .ok { s with stage := .start, block := .nil, outer := (name, s.block) :: s.outer }
  | stage, _ => .error (.mistake stage.mistake)

/-- The block of a state in which the source may end, or the mistake of ending it there. -/
def finish (s : State) : Except Mistake Block :=
  match s.stage, s.outer with
  | .start, [] => .ok s.block.reverse
  | .start, _ :: _ => .error .closeBrace
  | stage, _ => .error stage.mistake

end State

def Objection.toRefusal (line : Nat) : Objection → Refusal
  | mistake m => .mistake m line
  | longNumeral digits => .longNumeral digits

/-- Takes the tokens that follow one on line `last`. -/
def run (s : State) (last : Nat) : List Token → Except Refusal Block × Names
  | [] => (s.finish.mapError fun m => .mistake m last, s.names)
  | token :: rest =>
      match s.step token.symbol with
      | .ok next => run next token.line rest
      | .error objection => (.error (objection.toRefusal token.line), s.names)

/-- The most blocks that are open at a time inside the outermost one, while tokens are taken. -/
def nesting (s : State) : List Token → Nat
  | [] => s.outer.length
  | token :: rest =>
      match s.step token.symbol with
      | .ok next => max s.outer.length (nesting next rest)
      | .error _ => s.outer.length

end Parser

/-- The block of a source, if it is one, and the names afterwards. -/
def parse (source : String) (names : Names) : Except Refusal Block × Names :=
  Parser.run { names } 1 (tokens source.toList)

/-- How deep loops nest in a source, as far as it can be parsed. -/
def nesting (source : String) : Nat :=
  Parser.nesting { names := {} } (tokens source.toList)

end ByteTape.Program

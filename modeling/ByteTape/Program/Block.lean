/-!
# Programs

A program of the variable language is a block of commands and loops over numbered cells. A loop runs
its body while its cell is not zero.

`Block` is one inductive type, a chain of items with loop bodies hanging off it, so that induction on
blocks is plain structural induction.
-/

namespace ByteTape

/-- A statement other than a loop. -/
inductive Command
  | set (cell value : Int)
  | copy (dest source : Int)
  | add (dest operand : Int)
  | sub (dest operand : Int)
  | print (cell : Int)
  | input (cell : Int)
  /-- A word that is no statement. It can stand in a block but has no code. -/
  | unknown (name : String)
deriving DecidableEq, Repr

inductive Block
  | nil
  | command (head : Command) (rest : Block)
  | loop (cell : Int) (body rest : Block)
deriving DecidableEq, Repr

/-- The cells that a command reads or writes, in the order it names them. -/
def Command.cells : Command → List Int
  | .set cell _ => [cell]
  | .copy dest source => [dest, source]
  | .add dest operand => [dest, operand]
  | .sub dest operand => [dest, operand]
  | .print cell => [cell]
  | .input cell => [cell]
  | .unknown _ => []

/-- The numbers that the text of a command shows. -/
def Command.numbers : Command → List Int
  | .set cell value => [cell, value]
  | command => command.cells

def Command.render : Command → String
  | .set cell value => s!"SetConst(cell={cell}, value={value})"
  | .copy dest source => s!"Copy(dest={dest}, src={source})"
  | .add dest operand => s!"AddAssign(dest={dest}, modifier={operand})"
  | .sub dest operand => s!"SubAssign(dest={dest}, modifier={operand})"
  | .print cell => s!"Print(cell={cell})"
  | .input cell => s!"ReadInput(cell={cell})"
  | .unknown name => s!"'{name}'"

namespace Block

instance : Inhabited Block := ⟨nil⟩

def reverseOnto : Block → Block → Block
  | nil, tail => tail
  | command head rest, tail => rest.reverseOnto (command head tail)
  | loop cell body rest, tail => rest.reverseOnto (loop cell body tail)

/-- The items of a block, last one first. Loop bodies stay as they are. -/
def reverse (block : Block) : Block := block.reverseOnto nil

/-- The cells that each item of a block names itself; those in the body of a loop are left out. -/
def itemCells : Block → List (List Int)
  | nil => []
  | command head rest => head.cells :: rest.itemCells
  | loop cell _ rest => [cell] :: rest.itemCells

/-- All cells that a block names, at any depth. -/
def cells : Block → List Int
  | nil => []
  | command head rest => head.cells ++ rest.cells
  | loop cell body rest => cell :: body.cells ++ rest.cells

/-- The numbers that the texts of the items of a block show. -/
def numbers : Block → List Int
  | nil => []
  | command head rest => head.numbers ++ rest.numbers
  | loop cell body rest => cell :: body.numbers ++ rest.numbers

/-- The greatest number of loops in one another. -/
def nesting : Block → Nat
  | nil => 0
  | command _ rest => rest.nesting
  | loop _ body rest => max (body.nesting + 1) rest.nesting

def renderLoop (cell : Int) (items : List String) : String :=
  let body := ", ".intercalate items
  s!"WhileNotZero(cell={cell}, body=[{body}])"

def renderItems : Block → List String
  | nil => []
  | command head rest => head.render :: rest.renderItems
  | loop cell body rest => renderLoop cell body.renderItems :: rest.renderItems

end Block

end ByteTape

import ByteTape.Code.Basic
import ByteTape.Layout.CellSet
import ByteTape.Program.Block
import ByteTape.Text.Numeral

/-!
# Layout

While a block is lowered, its layout tracks where the pointer is, which cells are taken, and which
temporary cells have been given back. Cells are counted from the place of the pointer at the start,
so they may be negative.

An action on a layout either gives a result or stops with a fault; in both cases the layout it
leaves behind is part of the outcome.

What is done can be traced. Noting an event does not fail; whether its text can be made at all is
seen to where blocks are lowered.
-/

namespace ByteTape

/-! ## Events -/

/-- What can be told about the work on a layout. -/
inductive Layout.Event
  | lowerCommand (command : Command) (pointer : Int)
  | lowerLoop (cell : Int) (body : Block) (pointer : Int)
  | claim (cell : Int)
  | reuse (cell : Int)
  | release (cell : Int)
  | enter (pointer : Int)
  | leave (pointer : Int)
  | remark (text : String)
deriving DecidableEq, Repr

/-- The numbers that the text of an event shows. -/
def Layout.Event.numbers : Event → List Int
  | lowerCommand command pointer => command.numbers ++ [pointer]
  | lowerLoop cell body pointer => cell :: body.numbers ++ [pointer]
  | claim cell => [cell]
  | reuse cell => [cell]
  | release cell => [cell]
  | enter pointer => [pointer]
  | leave pointer => [pointer]
  | remark _ => []

def Layout.Event.render : Event → String
  | lowerCommand command pointer => s!"lower {command.render} at {pointer}"
  | lowerLoop cell body pointer =>
      s!"lower {Block.renderLoop cell body.renderItems} at {pointer}"
  | claim cell => s!"alloc temp {cell}"
  | reuse cell => s!"reuse temp {cell}"
  | release cell => s!"free temp {cell}"
  | enter pointer => s!"loop enter at {pointer}"
  | leave pointer => s!"loop exit at {pointer}"
  | remark text => text

/-! ## Layouts -/

structure Layout where
  pointer : Int := 0
  used : CellSet := ∅
  /-- Temporary cells that were given back. -/
  free : CellSet := ∅
  /-- The cell behind all cells taken so far. -/
  next : Int := 0
  tracing : Bool := false
  trace : Array Layout.Event := #[]

namespace Layout

inductive Fault
  /-- A new temporary cell is taken already. -/
  | collision (cell : Int)
  | releasedTwice (cell : Int)
  /-- A loop body ends on another cell than it starts on. -/
  | strayPointer (start finish : Int)
  | unreserved (cell : Int)
  /-- A constant outside the byte range. -/
  | constant (value : Int)
  /-- A cell is to be added to itself, subtracted from itself or copied to itself. -/
  | sameCell (cell : Int)
  | unknown (name : String)
  /-- A number has too many digits for the text of an event. -/
  | longNumeral
  /-- Loops nest too deep for the stack. -/
  | deep
deriving DecidableEq, Repr

def Fault.message : Fault → String
  | collision cell => s!"Compiler Error: temporary cell {cell} collides with a named variable"
  | releasedTwice cell => s!"Compiler Error: temporary cell {cell} freed twice"
  | strayPointer start finish =>
      s!"Compiler Error: loop body moved the pointer from {start} to {finish}"
  | unreserved cell => s!"Compiler Error: cell {cell} was never reserved for a variable"
  | constant value => s!"Constant out of range: {value}"
  | sameCell cell => s!"Operand cell {cell} is also the destination"
  | unknown name => s!"Unknown statement: '{name}'"
  | longNumeral => Text.longNumeral ""
  | deep => "maximum recursion depth exceeded"

abbrev Outcome := EStateM.Result Fault Layout

abbrev Action := EStateM Fault Layout

/-- A fresh layout. Whether it is traced does not change. -/
def reset (layout : Layout) : Layout := { tracing := layout.tracing }

def note (layout : Layout) (event : Event) : Layout :=
  if layout.tracing then { layout with trace := layout.trace.push event } else layout

def markUsed (layout : Layout) (cell : Int) : Layout :=
  { layout with
    next := if layout.next ≤ cell then cell + 1 else layout.next
    used := layout.used.insert cell }

/-- Marks the cells that a block sets, reads into or tests. -/
def markTargets (layout : Layout) : Block → Layout
  | .nil => layout
  | .command (.set cell _) rest => (layout.markUsed cell).markTargets rest
  | .command (.input cell) rest => (layout.markUsed cell).markTargets rest
  | .command _ rest => layout.markTargets rest
  | .loop cell body rest => ((layout.markUsed cell).markTargets body).markTargets rest

/-- Marks the cells that the items of a block name, whatever they do with them. -/
def markOperands (layout : Layout) : Block → Layout
  | .nil => layout
  | .command head rest => (head.cells.foldl markUsed layout).markOperands rest
  | .loop cell body rest => ((layout.markUsed cell).markOperands body).markOperands rest

/-- Marks all cells that a block names: those that it sets, reads into or tests first, then the
others. -/
def reserve (layout : Layout) (block : Block) : Layout :=
  (layout.markTargets block).markOperands block

/-- The temporary cell that is handed out next. -/
def temporary (layout : Layout) : Int := layout.free.min?.getD layout.next

/-- Hands out a temporary cell: the lowest that was given back or, if there is none, a new one. -/
def allocate : Action Int := fun layout =>
  match layout.free.min? with
  | some cell => .ok cell ({ layout with free := layout.free.erase cell }.note (.reuse cell))
  | none =>
      let cell := layout.next
      if cell ∈ layout.used then .error (.collision cell) layout
      else .ok cell ((layout.markUsed cell).note (.claim cell))

/-- Takes a temporary cell back. -/
def release (cell : Int) : Action Unit := fun layout =>
  if cell ∈ layout.free then .error (.releasedTwice cell) layout
  else .ok () ({ layout with free := layout.free.insert cell }.note (.release cell))

/-- The operation that brings the pointer to a cell, if it is not there already. -/
def moveTo (cell : Int) : Action (Option Op) := fun layout =>
  let distance := cell - layout.pointer
  let move :=
    if 0 < distance then some (.right distance)
    else if distance < 0 then some (.left (-distance))
    else none
  .ok move { layout with pointer := cell }

/-- A loop around code that leaves the pointer where it was. -/
def withLoop (body : Action Code) : Action Code := do
  let start := (← get).pointer
  modify (·.note (.enter start))
  let code ← body
  let finish := (← get).pointer
  if finish = start then
    modify (·.note (.leave start))
    return .ofLoop code
  else throw (.strayPointer start finish)

end Layout

end ByteTape

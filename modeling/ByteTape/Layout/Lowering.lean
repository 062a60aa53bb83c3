import ByteTape.Layout.Basic
import ByteTape.Limits

/-!
# Lowering

The code of a block. A constant, an output or an input is a move and one operation. Copying, adding
and subtracting empty the operand into the destination and a temporary cell, and then pour the
temporary cell back. A loop ends with a move back to its cell, so every loop leaves the pointer where
it found it.

Two limits can stop the lowering of a block. Before an item is lowered its text is made, so the
numbers in it must not have too many digits; of all cells that the code of the item then goes to,
only the temporary cell has not been shown by then, so its digits are looked at before it is taken.
And a loop is lowered within the lowering of the loop around it, so the stack may run out.
-/

namespace ByteTape.Layout

/-- Makes the text of an event, and keeps it if there is a trace. -/
def tell (event : Event) : Action Unit := fun layout =>
  if event.numbers.all Text.isPrintable then .ok () (layout.note event)
  else .error .longNumeral layout

/-- The move to a cell, as code. -/
def approach (cell : Int) : Action Code := do
  match ← moveTo cell with
  | some move => return .ofOp move
  | none => return .nil

/-- The move to a cell and one operation there. -/
def opAt (cell : Int) (o : Op) : Action Code := do
  let move ← approach cell
  return move ++ .ofOp o

def requireUsed (cell : Int) : Action Unit := do
  if cell ∈ (← get).used then return () else throw (.unreserved cell)

def requireDistinct (dest operand : Int) : Action Unit :=
  if dest = operand then throw (.sameCell operand) else return ()

/-- The text about the next temporary cell can be made. -/
def requireTemporary : Action Unit := do
  if Text.isPrintable (← get).temporary then return () else throw .longNumeral

/-- Empties `source`, doing `o` at `target` and counting up at `temp` for each unit of it. -/
def drain (source target temp : Int) (o : Op) : Action Code :=
  withLoop do
    let first ← opAt target o
    let second ← opAt temp (.add 1)
    let third ← opAt source (.sub 1)
    return first ++ second ++ third

/-- Empties `temp` into `source`. -/
def restore (source temp : Int) : Action Code :=
  withLoop do
    let first ← opAt source (.add 1)
    let second ← opAt temp (.sub 1)
    return first ++ second

/-- Does `o` at `target` as often as `source` counts, and keeps `source`. The target is cleared
before, if asked for. -/
def transfer (source target : Int) (o : Op) (clearing : Bool) : Action Code := do
  let temp ← allocate
  let clearTemp ← opAt temp .clear
  let clearTarget ← if clearing then opAt target .clear else pure .nil
  let toSource ← approach source
  let draining ← drain source target temp o
  let toTemp ← approach temp
  let restoring ← restore source temp
  release temp
  return clearTemp ++ clearTarget ++ toSource ++ draining ++ toTemp ++ restoring

def lowerCommand : Command → Action Code
  | .set cell value => do
      requireUsed cell
      if 0 ≤ value ∧ value ≤ 255 then opAt cell (.set value) else throw (.constant value)
  | .copy dest source => do
      requireUsed dest
      requireUsed source
      requireDistinct dest source
      requireTemporary
      transfer source dest (.add 1) true
  | .add dest operand => do
      requireUsed dest
      requireUsed operand
      requireDistinct dest operand
      requireTemporary
      transfer operand dest (.add 1) false
  | .sub dest operand => do
      requireUsed dest
      requireUsed operand
      requireDistinct dest operand
      requireTemporary
      transfer operand dest (.sub 1) false
  | .print cell => do
      requireUsed cell
      opAt cell .write
  | .input cell => do
      requireUsed cell
      opAt cell .read
  | .unknown name => throw (.unknown name)

/-- The code of a block whose cells are reserved. -/
def lower : Block → Action Code
  | .nil => return .nil
  | .command head rest => do
      tell (.lowerCommand head (← get).pointer)
      let first ← lowerCommand head
      let others ← lower rest
      return first ++ others
  | .loop cell body rest => do
      tell (.lowerLoop cell body (← get).pointer)
      requireUsed cell
      let first ← approach cell
      let repeated ← withLoop do
        let inner ← lower body
        let back ← approach cell
        return inner ++ back
      let others ← lower rest
      return first ++ repeated ++ others

/-- The code of a block. It starts with the pointer at cell zero of a fresh layout. -/
def compile (stack : Stack Block.nesting) (block : Block) : Action Code := do
  modify reset
  if stack.holds block then
    modify (·.reserve block)
    lower block
  else throw .deep

end ByteTape.Layout

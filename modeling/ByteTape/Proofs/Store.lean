import ByteTape.Layout.CellSet
import ByteTape.Machine.Basic
import ByteTape.Program.Block

/-!
# Blocks on a store

What a block means, without a tape: every cell holds a byte of its own, and nothing but the commands
of the block touches it. `Block.Runs` relates the worlds before and after a block; a block that does
not come to its end is related to nothing.
-/

namespace ByteTape

/-- A byte for each cell. -/
abbrev Store := Int → UInt8

namespace Store

def put (store : Store) (cell : Int) (byte : UInt8) : Store :=
  fun other => if other = cell then byte else store other

@[simp]
theorem put_self (store : Store) (cell : Int) (byte : UInt8) : store.put cell byte cell = byte :=
  if_pos rfl

theorem put_other {cell other : Int} (distinct : other ≠ cell) (store : Store) (byte : UInt8) :
    store.put cell byte other = store other :=
  if_neg distinct

/-- Two stores with the same bytes in some cells. -/
def Agree (cells : CellSet) (first second : Store) : Prop :=
  ∀ cell ∈ cells, first cell = second cell

end Store

/-- A store between a source and a sink. -/
structure World extends Port where
  store : Store

namespace World

def put (w : World) (cell : Int) (byte : UInt8) : World := { w with store := w.store.put cell byte }

/-- One command. There is no world after a command that fails. -/
def perform : Command → World → Option World
  | .set cell value, w => some (w.put cell (UInt8.ofInt value))
  | .copy dest source, w => some (w.put dest (w.store source))
  | .add dest operand, w => some (w.put dest (w.store dest + w.store operand))
  | .sub dest operand, w => some (w.put dest (w.store dest - w.store operand))
  | .print cell, w => some { w with written := w.written.push (w.store cell) }
  | .input cell, w =>
      match w.nextByte with
      | (.ok byte, port) => some { toPort := port, store := w.store.put cell byte }
      | (.error _, _) => none
  | .unknown _, _ => none

end World

/-- The worlds before and after a block. -/
inductive Block.Runs : Block → World → World → Prop
  | nil {w : World} : Runs .nil w w
  | command {head : Command} {rest : Block} {w between w' : World} :
      World.perform head w = some between → Runs rest between w' → Runs (.command head rest) w w'
  | leave {cell : Int} {body rest : Block} {w w' : World} :
      w.store cell = 0 → Runs rest w w' → Runs (.loop cell body rest) w w'
  | round {cell : Int} {body rest : Block} {w between w' : World} :
      w.store cell ≠ 0 → Runs body w between → Runs (.loop cell body rest) between w' →
      Runs (.loop cell body rest) w w'

end ByteTape

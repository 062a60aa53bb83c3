import ByteTape.Code.Primitive
import ByteTape.Code.Size
import ByteTape.Limits
import ByteTape.Text.Numeral

/-!
# Writing code

Code is written as primitives. `clear` is the loop `[-]`, and `set` counts up or down from zero,
whichever is shorter. The writer keeps a stack with what is left of each level, the innermost first;
a bracket is closed when what is left of a body runs out. A run whose count is no index is not
written, and neither is a text whose length is none.
-/

namespace ByteTape

/-- Why code has no written form. -/
inductive Unwritable
  /-- The count of a run is no index, whatever its sign. -/
  | count
  /-- There are too many primitives for one text. -/
  | length
  | value (value : Int)
  | unknown (name : String)
deriving DecidableEq, Repr

def Unwritable.message : Unwritable → String
  | .count => "cannot fit 'int' into an index-sized integer"
  | .length => "join() result is too long for a Python string"
  | .value v => Text.showing v s!"Set value out of range: {v}"
  | .unknown name => s!"Unknown instruction: '{name}'"

namespace Primitive

/-- A run of equal primitives. There is none for a negative count. -/
def run (p : Primitive) (count : Int) : List Primitive :=
  List.replicate count.toNat p

/-- The run that a counted instruction stands for. -/
def counted (p : Primitive) (count : Int) : Except Unwritable (List Primitive) :=
  if Memory.isIndex count then .ok (run p count) else .error .count

def clearing : List Primitive := [opening, decrement, closing]

/-- Primitives that bring the cell to a value, whatever it holds. -/
def setting (value : Int) : Except Unwritable (List Primitive) :=
  if 0 ≤ value ∧ value ≤ 255 then
    if 128 < value then .ok (clearing ++ run decrement (setCost value))
    else .ok (clearing ++ run increment value)
  else .error (.value value)

end Primitive

def Op.primitives : Op → Except Unwritable (List Primitive)
  | .add count => Primitive.counted .increment count
  | .sub count => Primitive.counted .decrement count
  | .left count => Primitive.counted .left count
  | .right count => Primitive.counted .right count
  | .clear => .ok Primitive.clearing
  | .set value => Primitive.setting value
  | .read => .ok [.read]
  | .write => .ok [.write]
  | .unknown name => .error (.unknown name)

namespace Code

/-- Behind a level that has run out: a bracket, unless it was the outermost level. -/
def closeLevel (out : Array Primitive) (stack : List Code) : Array Primitive :=
  if stack.isEmpty then out else out.push .closing

/-- Writes what is left of each level. -/
def write (out : Array Primitive) : List Code → Except Unwritable (Array Primitive)
  | [] => .ok out
  | nil :: stack => write (closeLevel out stack) stack
  | op head rest :: stack =>
      match head.primitives with
      | .error error => .error error
      | .ok text => write (out ++ text) (rest :: stack)
  | loop body rest :: stack => write (out.push .opening) (body :: rest :: stack)
termination_by stack => stackSteps stack
decreasing_by
  all_goals simp only [stackSteps, steps]
  all_goals omega

/-- One text of all primitives, if they are not too many. -/
def join (primitives : List Primitive) : Except Unwritable String :=
  if Memory.indexLimit ≤ primitives.length then .error .length
  else .ok (Primitive.toText primitives)

def toText (code : Code) : Except Unwritable String :=
  match write #[] [code] with
  | .error error => .error error
  | .ok out => join out.toList

end Code

end ByteTape

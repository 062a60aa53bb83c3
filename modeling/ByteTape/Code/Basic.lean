/-!
# Code of the tape machine

The machine has a ring of byte cells and a pointer to one of them. Its code is a sequence of
operations and loops; a loop runs its body while the cell under the pointer is not zero.

`Code` is one inductive type, a chain of items with loop bodies hanging off it, so that induction on
code is plain structural induction.
-/

namespace ByteTape

/-- An instruction other than a loop. Counts and values may be any integer: code that is read from
text has positive counts and no `set`, code that is built by hand need not. -/
inductive Op
  | add (count : Int)
  | sub (count : Int)
  | left (count : Int)
  | right (count : Int)
  /-- Sets the cell to zero. -/
  | clear
  | set (value : Int)
  | read
  | write
  /-- A word that is no instruction. It can stand in code, but can be neither run nor written. -/
  | unknown (name : String)
deriving DecidableEq, Repr

inductive Code
  | nil
  | op (head : Op) (rest : Code)
  | loop (body rest : Code)
deriving DecidableEq, Repr

namespace Code

instance : Inhabited Code := ⟨nil⟩

def ofOp (o : Op) : Code := op o nil

/-- The code that is a single loop. -/
def ofLoop (body : Code) : Code := loop body nil

def append : Code → Code → Code
  | nil, tail => tail
  | op head rest, tail => op head (rest.append tail)
  | loop body rest, tail => loop body (rest.append tail)

instance : Append Code := ⟨append⟩

/-- The items of the first code, last one first, in front of the second. Loop bodies stay as they
are. -/
def reverseOnto : Code → Code → Code
  | nil, tail => tail
  | op head rest, tail => rest.reverseOnto (op head tail)
  | loop body rest, tail => rest.reverseOnto (loop body tail)

def reverse (code : Code) : Code := code.reverseOnto nil

@[simp]
theorem nil_append (tail : Code) : nil ++ tail = tail := rfl

@[simp]
theorem op_append (head : Op) (rest tail : Code) :
    op head rest ++ tail = op head (rest ++ tail) := rfl

@[simp]
theorem loop_append (body rest tail : Code) :
    loop body rest ++ tail = loop body (rest ++ tail) := rfl

@[simp]
theorem append_nil (code : Code) : code ++ nil = code := by
  induction code with
  | nil => rfl
  | op head rest ih => rw [op_append, ih]
  | loop body rest _ ih => rw [loop_append, ih]

theorem append_assoc (first second third : Code) :
    first ++ second ++ third = first ++ (second ++ third) := by
  induction first with
  | nil => rfl
  | op head rest ih => simp only [op_append, ih]
  | loop body rest _ ih => simp only [loop_append, ih]

theorem reverseOnto_eq (code tail : Code) : code.reverseOnto tail = code.reverse ++ tail := by
  induction code generalizing tail with
  | nil => rfl
  | op head rest ih =>
      rw [reverse, reverseOnto, reverseOnto, ih, ih (op head nil), append_assoc]
      rfl
  | loop body rest _ ih =>
      rw [reverse, reverseOnto, reverseOnto, ih, ih (loop body nil), append_assoc]
      rfl

end Code

end ByteTape

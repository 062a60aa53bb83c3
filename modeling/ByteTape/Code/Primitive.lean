/-!
# Primitives

The eight characters that raw code is written with.
-/

namespace ByteTape

inductive Primitive
  | increment
  | decrement
  | left
  | right
  | opening
  | closing
  | read
  | write
deriving DecidableEq, Repr

namespace Primitive

def toChar : Primitive → Char
  | increment => '+'
  | decrement => '-'
  | left => '<'
  | right => '>'
  | opening => '['
  | closing => ']'
  | read => ','
  | write => '.'

def ofChar? : Char → Option Primitive
  | '+' => some increment
  | '-' => some decrement
  | '<' => some left
  | '>' => some right
  | '[' => some opening
  | ']' => some closing
  | ',' => some read
  | '.' => some write
  | _ => none

@[simp]
theorem ofChar?_toChar (p : Primitive) : ofChar? p.toChar = some p := by
  cases p <;> rfl

/-- The primitives of a text. Every other character is a comment. -/
def ofText (text : String) : List Primitive :=
  text.toList.filterMap ofChar?

def toText (primitives : List Primitive) : String :=
  String.ofList (primitives.map toChar)

@[simp]
theorem ofText_toText (primitives : List Primitive) : ofText (toText primitives) = primitives := by
  induction primitives with
  | nil => rfl
  | cons head tail ih =>
      simp only [ofText, toText, String.toList_ofList, List.map_cons, List.filterMap_cons,
        ofChar?_toChar] at ih ⊢
      rw [ih]

end Primitive

end ByteTape

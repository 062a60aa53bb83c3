import ByteTape.Code.Basic
import ByteTape.Code.Primitive

/-!
# Reading code

Primitives become code one at a time. A run of equal primitives is one counted operation, the loops
`[-]` and `[+]` are read as `clear`, and a second `clear` in a row is dropped. Brackets that do not
pair off are reported with their position among the primitives.
-/

namespace ByteTape

/-- A bracket without a partner. -/
inductive Imbalance
  | unclosed (position : Int)
  | unopened (position : Int)
deriving DecidableEq, Repr

namespace Imbalance

def position : Imbalance → Int
  | unclosed position => position
  | unopened position => position

def message : Imbalance → String
  | unclosed position => s!"UnbalancedLoop: Unmatched '[' at primitive {position}"
  | unopened position => s!"UnbalancedLoop: Unmatched ']' at primitive {position}"

end Imbalance

/-- The one operation that does the work of two in a row, if both count in the same direction. -/
def Op.merge : Op → Op → Option Op
  | .add m, .add n => some (.add (m + n))
  | .sub m, .sub n => some (.sub (m + n))
  | .left m, .left n => some (.left (m + n))
  | .right m, .right n => some (.right (m + n))
  | _, _ => none

/-- Code that is being read. Each level is held last item first. -/
structure Draft where
  /-- The innermost level that is still open. -/
  current : Code := .nil
  /-- The levels around it, innermost first, each with the position of the bracket that left it. -/
  outer : List (Nat × Code) := []

namespace Draft

/-- Puts an operation behind a level that is held last item first. -/
def pushOp (level : Code) (o : Op) : Code :=
  match level with
  | .op last before =>
      match last.merge o with
      | some merged => .op merged before
      | none => .op o (.op last before)
  | level => .op o level

/-- Puts a loop behind a level that is held last item first. -/
def pushLoop (level body : Code) : Code :=
  if body = .ofOp (.sub 1) ∨ body = .ofOp (.add 1) then
    match level with
    | .op .clear before => .op .clear before
    | level => .op .clear level
  else .loop body level

def put (draft : Draft) (o : Op) : Draft :=
  { draft with current := pushOp draft.current o }

/-- Takes one more primitive, which stands at `position`. -/
def step (draft : Draft) (position : Nat) : Primitive → Except Imbalance Draft
  | .increment => .ok (draft.put (.add 1))
  | .decrement => .ok (draft.put (.sub 1))
  | .left => .ok (draft.put (.left 1))
  | .right => .ok (draft.put (.right 1))
  | .read => .ok (draft.put .read)
  | .write => .ok (draft.put .write)
  | .opening => .ok { current := .nil, outer := (position, draft.current) :: draft.outer }
  | .closing =>
      match draft.outer with
      | [] => .error (.unopened position)
      | (_, before) :: outer =>
          .ok { current := pushLoop before draft.current.reverse, outer }

/-- The code of a draft. Of the brackets that are still open the outermost is reported. -/
def finish (draft : Draft) : Except Imbalance Code :=
  match draft.outer.getLast? with
  | none => .ok draft.current.reverse
  | some (position, _) => .error (.unclosed position)

def read (draft : Draft) (position : Nat) : List Primitive → Except Imbalance Code
  | [] => draft.finish
  | p :: rest =>
      match draft.step position p with
      | .ok next => next.read (position + 1) rest
      | .error imbalance => .error imbalance

end Draft

namespace Code

def ofPrimitives (primitives : List Primitive) : Except Imbalance Code :=
  Draft.read {} 0 primitives

def ofText (text : String) : Except Imbalance Code :=
  ofPrimitives (Primitive.ofText text)

end Code

end ByteTape

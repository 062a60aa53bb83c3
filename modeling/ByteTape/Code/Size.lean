import ByteTape.Code.Basic

/-!
# Size of code

The number of primitives that code is written with, and how deep its loops nest. Both are measured
on a walk that meets every item of the code, an outer loop before its body. The walk keeps a stack
with what is left of each level, the innermost first, so nesting costs it no more than length.

* `walk_cons`: a walk over code at the top of the stack does what the recursion `fold` does.
* `size_op`, `size_loop`, `depth_op`, `depth_loop`: the measures of code from those of its parts.
-/

namespace ByteTape

/-- How many steps lead from zero to a value, going up or, past the middle of the byte range,
down. The formula is used for every integer, also outside the byte range. -/
def setCost (value : Int) : Int :=
  if value ≤ 128 then value else 256 - value

def Op.size : Op → Int
  | .add count => count
  | .sub count => count
  | .left count => count
  | .right count => count
  | .clear => 3
  | .set value => 3 + setCost value
  | .read => 1
  | .write => 1
  | .unknown _ => 0

namespace Code

/-! ## Walking -/

/-- What a walk meets: an operation, or a loop whose body it is about to enter. -/
inductive Item
  | op (o : Op)
  | loop
deriving DecidableEq, Repr

/-- The number of steps that a walk over code takes. -/
def steps : Code → Nat
  | nil => 1
  | op _ rest => rest.steps + 1
  | loop body rest => body.steps + rest.steps + 1

def stackSteps : List Code → Nat
  | [] => 0
  | code :: stack => code.steps + stackSteps stack

/-- Visits every item with the number of loops around it. The stack holds what is left of each level
and the number of loops around that. -/
def walk {α : Type} (visit : α → Item → Nat → α) (done : α) : List (Code × Nat) → α
  | [] => done
  | (nil, _) :: stack => walk visit done stack
  | (op head rest, depth) :: stack =>
      walk visit (visit done (.op head) depth) ((rest, depth) :: stack)
  | (loop body rest, depth) :: stack =>
      walk visit (visit done .loop depth) ((body, depth + 1) :: (rest, depth) :: stack)
termination_by stack => stackSteps (stack.map Prod.fst)
decreasing_by
  all_goals simp only [List.map_cons, stackSteps, steps]
  all_goals omega

/-- The same visits, by recursion. -/
def fold {α : Type} (visit : α → Item → Nat → α) (depth : Nat) (done : α) : Code → α
  | nil => done
  | op head rest => rest.fold visit depth (visit done (.op head) depth)
  | loop body rest =>
      rest.fold visit depth (body.fold visit (depth + 1) (visit done .loop depth))

theorem walk_cons {α : Type} (visit : α → Item → Nat → α) (done : α) (code : Code) (depth : Nat)
    (stack : List (Code × Nat)) :
    walk visit done ((code, depth) :: stack) = walk visit (code.fold visit depth done) stack := by
  induction code generalizing done depth stack with
  | nil => rw [walk, fold]
  | op head rest ih => rw [walk, ih, fold]
  | loop body rest ihBody ihRest => rw [walk, ihBody, ihRest, fold]

theorem walk_singleton {α : Type} (visit : α → Item → Nat → α) (done : α) (code : Code) :
    walk visit done [(code, 0)] = code.fold visit 0 done := by
  rw [walk_cons, walk]

/-! ## Measures -/

def Item.size : Item → Int
  | .op o => o.size
  | .loop => 2

def countItem (total : Int) (item : Item) (_depth : Nat) : Int := total + item.size

/-- The number of primitives that code is written with. -/
def size (code : Code) : Int := walk countItem 0 [(code, 0)]

def deepenItem (deepest : Nat) (item : Item) (depth : Nat) : Nat :=
  match item with
  | .op _ => deepest
  | .loop => max deepest (depth + 1)

/-- The greatest number of loops in one another. -/
def depth (code : Code) : Nat := walk deepenItem 0 [(code, 0)]

/-- Whether a `read` occurs at any depth. -/
def reads : Code → Bool
  | nil => false
  | op head rest => head = .read || rest.reads
  | loop body rest => body.reads || rest.reads

theorem size_eq_fold (code : Code) : code.size = code.fold countItem 0 0 := walk_singleton ..

theorem depth_eq_fold (code : Code) : code.depth = code.fold deepenItem 0 0 := walk_singleton ..

theorem fold_countItem (code : Code) (depth : Nat) (total : Int) :
    code.fold countItem depth total = total + code.size := by
  induction code generalizing depth total with
  | nil => rw [size_eq_fold, fold, fold, Int.add_zero]
  | op head rest ih =>
      simp only [size_eq_fold (op head rest), fold, ih, countItem]
      omega
  | loop body rest ihBody ihRest =>
      simp only [size_eq_fold (loop body rest), fold, ihBody, ihRest, countItem]
      omega

/-- Once the loops around code are counted, the code adds its own depth to their number. -/
theorem fold_deepenItem (code : Code) {around deepest : Nat} (counted : around ≤ deepest) :
    code.fold deepenItem around deepest = max deepest (around + code.depth) := by
  induction code generalizing around deepest with
  | nil =>
      rw [depth_eq_fold, fold, fold]
      omega
  | op head rest ih =>
      rw [depth_eq_fold (op head rest)]
      simp only [fold, deepenItem]
      rw [ih counted, ih (Nat.zero_le 0)]
      omega
  | loop body rest ihBody ihRest =>
      rw [depth_eq_fold (loop body rest)]
      simp only [fold, deepenItem]
      rw [ihBody (Nat.le_max_right _ _), ihBody (Nat.le_max_right _ _), ihRest (by omega),
        ihRest (Nat.zero_le _)]
      omega

@[simp]
theorem size_nil : nil.size = 0 := by
  rw [size_eq_fold, fold]

@[simp]
theorem size_op (head : Op) (rest : Code) : (op head rest).size = head.size + rest.size := by
  rw [size_eq_fold, fold, fold_countItem]
  simp only [countItem, Item.size, Int.zero_add]

@[simp]
theorem size_ofOp (o : Op) : (ofOp o).size = o.size := by
  rw [ofOp, size_op, size_nil, Int.add_zero]

@[simp]
theorem size_loop (body rest : Code) : (loop body rest).size = 2 + body.size + rest.size := by
  rw [size_eq_fold, fold, fold_countItem, fold_countItem]
  simp only [countItem, Item.size, Int.zero_add]

@[simp]
theorem depth_nil : nil.depth = 0 := by
  rw [depth_eq_fold, fold]

@[simp]
theorem depth_op (head : Op) (rest : Code) : (op head rest).depth = rest.depth := by
  rw [depth_eq_fold, fold, deepenItem, depth_eq_fold]

@[simp]
theorem depth_loop (body rest : Code) :
    (loop body rest).depth = max (body.depth + 1) rest.depth := by
  rw [depth_eq_fold, fold, deepenItem, fold_deepenItem body (Nat.le_max_right _ _),
    fold_deepenItem rest (Nat.zero_le _)]
  omega

end Code

end ByteTape

import ByteTape.Proofs.Scratch
import ByteTape.Proofs.Simulation

/-!
# Balanced code

Lowered code keeps the books on the pointer: its moves lead where the layout says that the pointer
is, every loop comes back to where it started, and no move is idle or split in two. This holds of
lowering from any layout.

* `Code.shift`: how far the moves of code lead, those inside of loops not counted.
* `Code.Balanced`, `Code.Spaced`: no loop shifts the pointer, and no move stands beside another, at
  any depth.
* `Tidy`: code that leads from one cell to another and keeps the books; `Tidy.append`, `Tidy.loop`:
  how it is put together.
* `Block.tidy_code`: the code of a block is tidy, whatever its temporary cell.
* `lower_tidy`: so is all that lowering emits, and its check on loops never fails.
-/

namespace ByteTape

namespace Op

/-- How far an operation moves the pointer to the right. -/
def shift : Op → Int
  | .left count => -count
  | .right count => count
  | _ => 0

def isMove : Op → Bool
  | .left _ => true
  | .right _ => true
  | _ => false

/-- An operation as lowering emits it: a move of at least one cell, a single step up or down, or a
byte. -/
def Measured : Op → Prop
  | .left count => 1 ≤ count
  | .right count => 1 ≤ count
  | .add count => count = 1
  | .sub count => count = 1
  | .set value => 0 ≤ value ∧ value ≤ 255
  | .clear => True
  | .read => True
  | .write => True
  | .unknown _ => False

theorem measured_covers : Covers (fun _ => True) Measured where
  right _ _ further := Int.sub_pos_of_lt further
  left _ _ further := Int.sub_pos_of_lt further
  increment := rfl
  decrement := rfl
  clear := trivial
  set := id
  read := trivial
  write := trivial

theorem shift_of_not_isMove {o : Op} (still : o.isMove = false) : o.shift = 0 := by
  cases o with
  | left count => cases still
  | right count => cases still
  | _ => rfl

end Op

namespace Code

/-- How far the moves of code lead to the right. Those inside of loops are not counted. -/
def shift : Code → Int
  | nil => 0
  | op head rest => head.shift + rest.shift
  | loop _ rest => rest.shift

/-- The moves of every loop body, at any depth, lead back to where they start. -/
def Balanced : Code → Prop
  | nil => True
  | op _ rest => rest.Balanced
  | loop body rest => body.shift = 0 ∧ body.Balanced ∧ rest.Balanced

def startsMove : Code → Bool
  | op head _ => head.isMove
  | _ => false

/-- No move stands right behind another one, at any depth. -/
def Spaced : Code → Prop
  | nil => True
  | op head rest => (head.isMove = true → rest.startsMove = false) ∧ rest.Spaced
  | loop body rest => body.Spaced ∧ rest.Spaced

theorem shift_append (first second : Code) :
    (first ++ second).shift = first.shift + second.shift := by
  induction first with
  | nil => exact (Int.zero_add _).symm
  | op head rest ih => rw [op_append, shift, shift, ih, Int.add_assoc]
  | loop body rest _ ih => exact ih

theorem Balanced.append {first second : Code} (one : first.Balanced) (other : second.Balanced) :
    (first ++ second).Balanced := by
  induction first with
  | nil => exact other
  | op head rest ih => exact ih one
  | loop body rest _ ih => exact ⟨one.1, one.2.1, ih one.2.2⟩

/-! ## Travelling -/

/-- A move to another cell is a single operation, and none is needed to stay. -/
theorem travel_cases (start finish : Int) :
    (start = finish ∧ travel start finish = nil) ∨
      ∃ move : Op, move.isMove = true ∧ move.shift = finish - start ∧
        travel start finish = ofOp move := by
  unfold travel
  by_cases right : 0 < finish - start
  · exact .inr ⟨.right (finish - start), rfl, rfl, if_pos right⟩
  · rw [if_neg right]
    by_cases left : finish - start < 0
    · exact .inr ⟨.left (-(finish - start)), rfl, Int.neg_neg _, if_pos left⟩
    · exact .inl ⟨by omega, if_neg left⟩

theorem shift_travel (start finish : Int) : (travel start finish).shift = finish - start := by
  rcases travel_cases start finish with ⟨rfl, stays⟩ | ⟨move, _, leads, moves⟩
  · rw [stays, Int.sub_self]
    rfl
  · rw [moves, ← leads]
    exact Int.add_zero _

theorem balanced_travel (start finish : Int) : (travel start finish).Balanced := by
  rcases travel_cases start finish with ⟨_, stays⟩ | ⟨move, _, _, moves⟩
  · rw [stays]
    trivial
  · rw [moves]
    trivial

/-- A move may stand in front of all that does not begin with one. -/
theorem spaced_travel_append (start finish : Int) {next : Code} (still : next.startsMove = false)
    (spaced : next.Spaced) : (travel start finish ++ next).Spaced := by
  rcases travel_cases start finish with ⟨_, stays⟩ | ⟨move, _, _, moves⟩
  · rw [stays]
    exact spaced
  · rw [moves]
    exact ⟨fun _ => still, spaced⟩

/-! ## Tidy code -/

/-- Code that leads from one cell to another, with balanced loops, behind which any spaced code can
stand. -/
structure Tidy (code : Code) (start finish : Int) : Prop where
  shift : code.shift = finish - start
  balanced : code.Balanced
  spaced : ∀ next : Code, next.Spaced → (code ++ next).Spaced

theorem tidy_nil (cell : Int) : Tidy nil cell cell where
  shift := (Int.sub_self cell).symm
  balanced := trivial
  spaced _ spaced := spaced

theorem Tidy.append {first second : Code} {start middle finish : Int}
    (one : Tidy first start middle) (other : Tidy second middle finish) :
    Tidy (first ++ second) start finish where
  shift := by
    rw [shift_append, one.shift, other.shift]
    omega
  balanced := one.balanced.append other.balanced
  spaced next spaced := by
    rw [append_assoc]
    exact one.spaced _ (other.spaced next spaced)

theorem tidy_opFrom (start cell : Int) {o : Op} (still : o.isMove = false) :
    Tidy (opFrom start cell o) start cell where
  shift := by
    rw [opFrom, shift_append, shift_travel]
    show cell - start + (o.shift + 0) = cell - start
    rw [Op.shift_of_not_isMove still, Int.add_zero, Int.add_zero]
  balanced := (balanced_travel start cell).append trivial
  spaced next spaced := by
    rw [opFrom, append_assoc]
    refine spaced_travel_append start cell still ⟨fun moves => ?_, spaced⟩
    rw [still] at moves
    cases moves

/-- A loop whose body is tidy and then returns to the cell it starts on. -/
theorem Tidy.loop {inner : Code} {cell middle : Int} (tidy : Tidy inner cell middle) (start : Int) :
    Tidy (travel start cell ++ ofLoop (inner ++ travel middle cell)) start cell := by
  have returns : (inner ++ travel middle cell).shift = 0 := by
    rw [shift_append, tidy.shift, shift_travel]
    omega
  have body : (inner ++ travel middle cell).Spaced := by
    have back := spaced_travel_append middle cell rfl (show Spaced nil from trivial)
    rw [append_nil] at back
    exact tidy.spaced _ back
  constructor
  case shift =>
    rw [shift_append, shift_travel]
    exact Int.add_zero _
  case balanced =>
    have around := tidy.balanced.append (balanced_travel middle cell)
    exact (balanced_travel start cell).append ⟨returns, around, trivial⟩
  case spaced =>
    intro next spaced
    rw [append_assoc]
    exact spaced_travel_append start cell rfl ⟨body, spaced⟩

/-- A loop whose body comes back by itself. -/
theorem Tidy.closedLoop {inner : Code} {cell : Int} (tidy : Tidy inner cell cell) (start : Int) :
    Tidy (travel start cell ++ ofLoop inner) start cell := by
  have looped := tidy.loop start
  rwa [travel_self, append_nil] at looped

theorem tidy_preparing (temp start target : Int) (clearing : Bool) :
    Tidy (preparing temp start target clearing) start (if clearing then target else temp) := by
  cases clearing with
  | false => exact (tidy_opFrom start temp rfl).append (tidy_nil temp)
  | true => exact (tidy_opFrom start temp rfl).append (tidy_opFrom temp target rfl)

theorem tidy_transferring (temp start source target : Int) {o : Op} (still : o.isMove = false)
    (clearing : Bool) : Tidy (transferring temp start source target o clearing) start temp := by
  have drained : Tidy (travel (if clearing then target else temp) source ++
      draining source target temp o) (if clearing then target else temp) source :=
    (((tidy_opFrom source target still).append (tidy_opFrom target temp rfl)).append
      (tidy_opFrom temp source rfl)).closedLoop _
  have restored : Tidy (travel source temp ++ restoring source temp) source temp :=
    ((tidy_opFrom temp source rfl).append (tidy_opFrom source temp rfl)).closedLoop source
  have whole := ((tidy_preparing temp start target clearing).append drained).append restored
  rwa [← append_assoc, ← append_assoc] at whole

end Code

open Code

theorem Command.tidy_code (command : Command) (temp start : Int) :
    Tidy (command.code temp start) start (command.finish temp start) := by
  cases command with
  | set cell value => exact tidy_opFrom start cell rfl
  | copy dest source => exact tidy_transferring temp start source dest rfl true
  | add dest operand => exact tidy_transferring temp start operand dest rfl false
  | sub dest operand => exact tidy_transferring temp start operand dest rfl false
  | print cell => exact tidy_opFrom start cell rfl
  | input cell => exact tidy_opFrom start cell rfl
  | unknown name => exact tidy_nil start

theorem Block.tidy_code (block : Block) (temp start : Int) :
    Tidy (block.code temp start) start (block.finish temp start) := by
  induction block generalizing start with
  | nil => exact tidy_nil start
  | command head rest ih => exact (head.tidy_code temp start).append (ih _)
  | loop cell body rest ihBody ihRest => exact ((ihBody cell).loop start).append (ihRest cell)

/-! ## Lowering -/

namespace Layout

/-- What lowering emits, from any layout: its moves lead as far as the layout says, the body of
every loop comes back, no two moves are adjacent, and every operation is measured. No loop is ever
found to leave the pointer elsewhere. -/
theorem lower_tidy (block : Block) (layout : Layout) :
    (∀ code after, lower block layout = .ok code after →
      code.shift = after.pointer - layout.pointer ∧ code.Balanced ∧ code.Spaced ∧
        code.Every Op.Measured) ∧
    ∀ start finish after, lower block layout ≠ .error (.strayPointer start finish) after := by
  have lowers := lower_lowers block layout
  constructor
  · intro code after done
    rw [done] at lowers
    cases lowers with
    | done sound sequel =>
        have tidy := block.tidy_code layout.temporary layout.pointer
        have spaced := tidy.spaced .nil trivial
        rw [append_nil] at spaced
        have measured : (block.code layout.temporary layout.pointer).Every Op.Measured :=
          (Block.every_code Op.measured_covers (Block.fault?_eq_none_iff.2 sound) trivial trivial
            fun _ _ => trivial).1
        exact ⟨by rw [tidy.shift, sequel.pointer], tidy.balanced, spaced, measured⟩
  · intro start finish after failed
    rw [failed] at lowers
    cases lowers with
    | stopped plain => cases plain

/-- The temporary cell may be one that the transfer works on. -/
theorem lower_tidy_recycled :
    let layout : Layout := { pointer := -4, used := .ofList [0, 1], free := .ofList [1] }
    let block : Block := .loop 0 (.command (.add 0 1) .nil) .nil
    ∃ code after, lower block layout = .ok code after ∧
      code.shift = after.pointer - layout.pointer ∧ code.Balanced ∧ code.Spaced ∧
        code.Every Op.Measured := by
  have ended : (match lower (.loop 0 (.command (.add 0 1) .nil) .nil)
      { pointer := -4, used := .ofList [0, 1], free := .ofList [1] } with
      | .ok .. => true
      | .error .. => false) = true := by
    decide +kernel
  split at ended
  next code after done => exact ⟨code, after, done, (lower_tidy _ _).1 code after done⟩
  next => cases ended

end Layout

end ByteTape

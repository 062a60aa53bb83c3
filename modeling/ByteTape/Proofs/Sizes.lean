import ByteTape.Proofs.Writing
import Mathlib.Data.List.Chain
import Mathlib.Order.Bounds.Defs

/-!
# Size and depth of code

The size of code is the number of primitives that it is written with, and its depth is that of the
innermost of its loops.

* `Code.spelling`: the text of code, item by item; `toText_text`: it is the text of its primitives.
* `Encloses`: a loop among the items of code; `Nest`: loops in one another.
* `isGreatest_depth`: the depth is the greatest number of loops in one another.
* `toText_measured`: the text of code, its size and its depth.
* `longCount_not_written`: code that has a size and no text.
-/

namespace ByteTape

/-! ## Primitives -/

namespace Primitive

theorem toText_append (first second : List Primitive) :
    toText (first ++ second) = toText first ++ toText second := by
  rw [toText, List.map_append, String.ofList_append]
  rfl

theorem toText_brackets (inner later : List Primitive) :
    toText (opening :: (inner ++ closing :: later)) =
      "[" ++ toText inner ++ "]" ++ toText later := by
  have parts : opening :: (inner ++ closing :: later) =
      [opening] ++ inner ++ [closing] ++ later := by simp
  rw [parts, toText_append, toText_append, toText_append]
  rfl

end Primitive

/-! ## Text -/

namespace Code

/-- The text of code: the texts of its items one behind the other, that of a loop in brackets. -/
def spelling : Code → String
  | nil => ""
  | op head rest => Primitive.toText head.text ++ rest.spelling
  | loop body rest => "[" ++ body.spelling ++ "]" ++ rest.spelling

theorem toText_text (code : Code) : Primitive.toText code.text = code.spelling := by
  induction code with
  | nil => rfl
  | op head rest ih => rw [text, Primitive.toText_append, ih, spelling]
  | loop body rest ihBody ihRest =>
      rw [text, List.cons_append, Primitive.toText_brackets, ihBody, ihRest, spelling]

theorem length_spelling {code : Code} (regular : code.Every Op.Regular) :
    (code.spelling.length : Int) = code.size := by
  rw [← toText_text, size_eq_length_text regular, Primitive.toText, String.length_ofList,
    List.length_map]

/-! ## Depth -/

/-- A loop with this body is one of the items of code. -/
inductive Encloses : Code → Code → Prop
  | here {body rest : Code} : Encloses (loop body rest) body
  | behindOp {head : Op} {rest body : Code} : Encloses rest body → Encloses (op head rest) body
  | behindLoop {other rest body : Code} : Encloses rest body → Encloses (loop other rest) body

theorem Encloses.depth_lt {code body : Code} (encloses : Encloses code body) :
    body.depth < code.depth := by
  induction encloses with
  | here =>
      rw [depth_loop]
      exact Nat.le_max_left _ _
  | behindOp _ ih => rwa [depth_op]
  | behindLoop _ ih =>
      rw [depth_loop]
      exact Nat.lt_of_lt_of_le ih (Nat.le_max_right _ _)

/-- Code with loops has a loop in it that is as deep as it can be. -/
theorem exists_encloses {code : Code} (deep : 0 < code.depth) :
    ∃ body, Encloses code body ∧ body.depth + 1 = code.depth := by
  induction code with
  | nil =>
      rw [depth_nil] at deep
      cases deep
  | op head rest ih =>
      rw [depth_op] at deep ⊢
      obtain ⟨body, inside, deepest⟩ := ih deep
      exact ⟨body, .behindOp inside, deepest⟩
  | loop body rest _ ih =>
      rw [depth_loop]
      rcases Nat.le_total rest.depth (body.depth + 1) with shallow | deeper
      · exact ⟨body, .here, (Nat.max_eq_left shallow).symm⟩
      · obtain ⟨inner, inside, deepest⟩ := ih (Nat.lt_of_lt_of_le (Nat.succ_pos _) deeper)
        exact ⟨inner, .behindLoop inside, deepest.trans (Nat.max_eq_right deeper).symm⟩

/-- The bodies of loops in one another, from the outside in. -/
def Nest (code : Code) (bodies : List Code) : Prop := List.IsChain Encloses (code :: bodies)

theorem Nest.length_le {code : Code} {bodies : List Code} (nest : Nest code bodies) :
    bodies.length ≤ code.depth := by
  induction bodies generalizing code with
  | nil => exact Nat.zero_le _
  | cons body inner ih =>
      obtain ⟨encloses, nest⟩ := List.isChain_cons_cons.1 nest
      exact Nat.lt_of_le_of_lt (ih nest) encloses.depth_lt

theorem exists_nest (code : Code) : ∃ bodies, Nest code bodies ∧ bodies.length = code.depth := by
  induction height : code.depth generalizing code with
  | zero => exact ⟨[], .singleton code, rfl⟩
  | succ depth ih =>
      have deep : 0 < code.depth := by rw [height]; exact Nat.succ_pos depth
      obtain ⟨body, encloses, deepest⟩ := exists_encloses deep
      obtain ⟨bodies, nest, length⟩ := ih body (Nat.succ.inj (deepest.trans height))
      exact ⟨body :: bodies, .cons_cons encloses nest, congrArg Nat.succ length⟩

theorem isGreatest_depth (code : Code) :
    IsGreatest {n | ∃ bodies, Nest code bodies ∧ bodies.length = n} code.depth := by
  refine ⟨exists_nest code, ?_⟩
  rintro _ ⟨bodies, nest, rfl⟩
  exact nest.length_le

end Code

/-- Code with counts that are not negative has a text exactly if the number of its primitives is an
index. The text is that of the items of the code one behind the other, with brackets around that of a
body, and the size of the code is its length. What has no text is refused by the loop of the writer
as by the recursion, and the size is the number of primitives also then. The depth of the code is the
greatest number of loops in one another. -/
theorem toText_measured {code : Code} (regular : code.Every Op.Regular) :
    (code.size < Memory.indexLimit →
      code.toText = .ok code.spelling ∧ code.size = code.spelling.length) ∧
    (Memory.indexLimit ≤ code.size →
      code.toText = .error .count ∨ code.toText = .error .length) ∧
    code.size = code.text.length ∧
    code.toText = code.spelled >>= Code.join ∧
    IsGreatest {n | ∃ bodies, code.Nest bodies ∧ bodies.length = n} code.depth := by
  refine ⟨fun short => ⟨?_, (Code.length_spelling regular).symm⟩, Code.toText_error regular,
    Code.size_eq_length_text regular, code.toText_eq_spelled, code.isGreatest_depth⟩
  rw [← Code.toText_text]
  exact (Code.toText_ok_iff regular).2 ⟨short, rfl⟩

/-- Empty loops, one of them in a loop of its own, behind a value that is counted down to. -/
theorem toText_measured_loops :
    let code : Code := .op (.set 253) (.loop (.ofLoop .nil) (.op (.add 2) (.ofLoop .nil)))
    code.Every Op.Regular ∧ code.toText = .ok "[-]---[[]]++[]" ∧
      code.size = "[-]---[[]]++[]".length ∧
      IsGreatest {n | ∃ bodies, code.Nest bodies ∧ bodies.length = n} 2 := by
  intro code
  have regular : code.Every Op.Regular :=
    ⟨⟨by decide, by decide⟩, ⟨trivial, trivial⟩, show (0 : Int) ≤ 2 by decide, trivial, trivial⟩
  have size : code.size = 14 := by simp [code, Code.ofLoop, Op.size, setCost]
  have deep : code.depth = 2 := by simp [code, Code.ofLoop]
  obtain ⟨written, -, -, -, depth⟩ := toText_measured regular
  rw [size, deep] at *
  obtain ⟨written, length⟩ := written (by decide)
  exact ⟨regular, written, rfl, depth⟩

/-- A loop around a run whose count is no index has a size and no text. -/
theorem longCount_not_written :
    let code : Code := .ofLoop (.ofOp (.sub Memory.indexLimit))
    code.Every Op.Regular ∧ code.size = Memory.indexLimit + 2 ∧ code.toText = .error .count ∧
      ¬ ∃ text, code.toText = .ok text ∧ code.size = text.length := by
  intro code
  have failed : code.toText = .error .count := by
    rw [Code.toText_eq_spelled]
    rfl
  have natural : 0 ≤ Memory.indexLimit := by decide
  have size : code.size = Memory.indexLimit + 2 := by
    simp only [code, Code.ofLoop, Code.size_loop, Code.size_ofOp, Code.size_nil, Op.size]
    decide
  refine ⟨⟨⟨natural, trivial⟩, trivial⟩, size, failed, ?_⟩
  rintro ⟨text, written, -⟩
  cases failed.symm.trans written

end ByteTape

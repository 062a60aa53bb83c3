/-!
# The tape

A ring of byte cells with a pointer to one of them. `get` is the view of a tape through which its
operations are described.
-/

namespace ByteTape

structure Tape where
  cells : ByteArray
  pointer : Nat := 0

namespace Tape

/-- Appends cells that hold zero, one by one. -/
def appendBlank : Nat → ByteArray → ByteArray
  | 0, cells => cells
  | count + 1, cells => appendBlank count (cells.push 0)

/-- Appends the same cells again and again. -/
def appendTimes (block : ByteArray) : Nat → ByteArray → ByteArray
  | 0, cells => cells
  | times + 1, cells => appendTimes block times (cells ++ block)

/-- How many cells a tape is made of at a time. -/
def blockSize : Nat := 4096

/-- A tape of cells that hold zero. -/
def blank (size : Nat) : Tape :=
  let start := appendBlank (size % blockSize) (.emptyWithCapacity size)
  { cells := appendTimes (appendBlank blockSize .empty) (size / blockSize) start }

def size (tape : Tape) : Nat := tape.cells.size

/-- The byte in a cell, and zero where there is no cell. -/
def get (tape : Tape) (cell : Nat) : UInt8 :=
  if h : cell < tape.cells.size then tape.cells[cell] else 0

/-- The byte under the pointer. -/
def current (tape : Tape) : UInt8 := tape.get tape.pointer

def put (tape : Tape) (byte : UInt8) : Tape :=
  if h : tape.pointer < tape.cells.size then
    { tape with cells := tape.cells.set tape.pointer byte h }
  else tape

/-- Adds to the current cell, modulo 256. -/
def add (tape : Tape) (amount : Int) : Tape :=
  tape.put (tape.current + UInt8.ofInt amount)

/-- Moves the pointer around the ring, to the right for a positive distance. -/
def move (tape : Tape) (distance : Int) : Tape :=
  { tape with pointer := ((tape.pointer + distance) % (tape.cells.size : Int)).toNat }

theorem size_eq (tape : Tape) : tape.size = tape.cells.data.size := rfl

theorem get_eq (tape : Tape) (cell : Nat) : tape.get cell = tape.cells.data.getD cell 0 := by
  rw [get, Array.getD]
  rfl

theorem data_appendBlank (count : Nat) (cells : ByteArray) :
    (appendBlank count cells).data = cells.data ++ Array.replicate count 0 := by
  induction count generalizing cells with
  | zero => simp [appendBlank]
  | succ count ih =>
      rw [appendBlank, ih, ByteArray.data_push, Array.replicate_succ', Array.push_eq_append]
      simp

theorem data_appendTimes {block cells : ByteArray} {blockCount count : Nat} (times : Nat)
    (blankBlock : block.data = Array.replicate blockCount 0)
    (blankCells : cells.data = Array.replicate count 0) :
    (appendTimes block times cells).data = Array.replicate (count + blockCount * times) 0 := by
  induction times generalizing cells count with
  | zero => rw [appendTimes, blankCells, Nat.mul_zero, Nat.add_zero]
  | succ times ih =>
      have longer : (cells ++ block).data = Array.replicate (count + blockCount) 0 := by
        rw [ByteArray.data_append, blankCells, blankBlock, Array.replicate_append_replicate]
      rw [appendTimes, ih longer, Nat.mul_succ, Nat.add_assoc, Nat.add_comm blockCount]

theorem data_blank (size : Nat) : (blank size).cells.data = Array.replicate size 0 := by
  have block : (appendBlank blockSize .empty).data = Array.replicate blockSize 0 := by
    rw [data_appendBlank]
    exact Array.empty_append
  have start : (appendBlank (size % blockSize) (.emptyWithCapacity size)).data =
      Array.replicate (size % blockSize) 0 := by
    rw [data_appendBlank]
    exact Array.empty_append
  rw [blank, data_appendTimes _ block start, Nat.mod_add_div]

@[simp]
theorem size_blank (size : Nat) : (blank size).size = size := by
  rw [size_eq, data_blank, Array.size_replicate]

@[simp]
theorem get_blank (size cell : Nat) : (blank size).get cell = 0 := by
  simp [get_eq, data_blank, Array.getD]

@[simp]
theorem size_put (tape : Tape) (byte : UInt8) : (tape.put byte).size = tape.size := by
  rw [put]
  split
  · simp [size_eq, ByteArray.data_set]
  · rfl

@[simp]
theorem pointer_put (tape : Tape) (byte : UInt8) : (tape.put byte).pointer = tape.pointer := by
  rw [put]
  split <;> rfl

theorem get_put (tape : Tape) (byte : UInt8) (cell : Nat) :
    (tape.put byte).get cell =
      if cell = tape.pointer ∧ tape.pointer < tape.size then byte else tape.get cell := by
  rw [put]
  split
  next inside =>
    have bound : tape.pointer < tape.cells.data.size := inside
    by_cases equal : cell = tape.pointer
    · subst equal
      rw [if_pos ⟨rfl, inside⟩, get_eq, ByteArray.data_set, Array.getD,
        dif_pos (by simpa using bound)]
      exact Array.getElem_set_self _
    · simp [get_eq, ByteArray.data_set, Array.getD, equal, Array.getElem_set, Ne.symm equal]
  next outside =>
    have : ¬ (cell = tape.pointer ∧ tape.pointer < tape.size) := fun both => outside both.2
    rw [if_neg this]

theorem put_outside {tape : Tape} (outside : ¬ tape.pointer < tape.size) (byte : UInt8) :
    tape.put byte = tape := dif_neg outside

@[simp]
theorem put_put (tape : Tape) (first second : UInt8) :
    (tape.put first).put second = tape.put second := by
  by_cases inside : tape.pointer < tape.size
  · have bound : tape.pointer < tape.cells.size := inside
    have kept : tape.pointer < (tape.cells.set tape.pointer first bound).size := by
      rw [← ByteArray.size_data, ByteArray.data_set, Array.size_set]
      exact bound
    simp only [put, dif_pos bound, dif_pos kept, mk.injEq, and_true]
    apply ByteArray.ext
    simp only [ByteArray.data_set, Array.set_set]
  · rw [put_outside inside, put_outside inside]

theorem current_put {tape : Tape} (inside : tape.pointer < tape.size) (byte : UInt8) :
    (tape.put byte).current = byte := by
  rw [current, pointer_put, get_put, if_pos ⟨rfl, inside⟩]

theorem inside_of_current {tape : Tape} (notZero : tape.current ≠ 0) :
    tape.pointer < tape.size := by
  by_cases inside : tape.pointer < tape.size
  · exact inside
  · exact absurd (dif_neg inside) notZero

theorem put_current (tape : Tape) : tape.put tape.current = tape := by
  by_cases inside : tape.pointer < tape.size
  · have bound : tape.pointer < tape.cells.size := inside
    have found : tape.current = tape.cells[tape.pointer] := dif_pos bound
    rw [put, dif_pos bound, found]
    cases tape with
    | mk cells pointer =>
        simp only [mk.injEq, and_true]
        apply ByteArray.ext
        rw [ByteArray.data_set]
        exact Array.set_getElem_self _
  · exact put_outside inside _

theorem add_add (tape : Tape) (first second : Int) :
    (tape.add first).add second = tape.add (first + second) := by
  by_cases inside : tape.pointer < tape.size
  · rw [add, add, add, current_put inside, put_put, UInt8.ofInt_add, UInt8.add_assoc]
  · rw [add, add, add, put_outside inside, put_outside inside, put_outside inside]

theorem add_zero (tape : Tape) : tape.add 0 = tape := by
  rw [add, show UInt8.ofInt 0 = 0 from rfl, UInt8.add_zero, put_current]

theorem move_zero {tape : Tape} (inside : tape.pointer < tape.size) : tape.move 0 = tape := by
  have bound : tape.pointer < tape.cells.size := inside
  rw [move, Int.add_zero, ← Int.natCast_emod, Nat.mod_eq_of_lt bound, Int.toNat_natCast]

theorem move_move {tape : Tape} (positive : 0 < tape.size) (first second : Int) :
    (tape.move first).move second = tape.move (first + second) := by
  have nonzero : (tape.cells.size : Int) ≠ 0 := by
    have : 0 < tape.cells.size := positive
    omega
  simp only [move, mk.injEq, true_and]
  rw [Int.toNat_of_nonneg (Int.emod_nonneg _ nonzero), Int.emod_add_emod, Int.add_assoc]

theorem pointer_move_lt {tape : Tape} (positive : 0 < tape.size) (distance : Int) :
    (tape.move distance).pointer < tape.size := by
  have size : (0 : Int) < tape.cells.size := by
    have : 0 < tape.cells.size := positive
    omega
  have bound := Int.emod_lt_of_pos (tape.pointer + distance) size
  have lower := Int.emod_nonneg (tape.pointer + distance) (Int.ne_of_gt size)
  show ((tape.pointer + distance) % (tape.cells.size : Int)).toNat < tape.cells.size
  omega

@[simp]
theorem size_move (tape : Tape) (distance : Int) : (tape.move distance).size = tape.size := rfl

@[simp]
theorem get_move (tape : Tape) (distance : Int) (cell : Nat) :
    (tape.move distance).get cell = tape.get cell := rfl

end Tape

end ByteTape

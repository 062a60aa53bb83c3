import ByteTape.Proofs.Tracing

/-!
# Lowered blocks

Lowering threads a layout through a block. What comes out of it depends on little: the code of a
block is a function of the block, of the cell that the pointer starts at and of the one temporary
cell that all its transfers share.

* `Block.code`, `Block.finish`: the code of a block and the cell that it ends at.
* `Block.fault?`: what is wrong with the first command that has no code.
* `Block.stop?`: what stops the lowering of a block: a command that has no code, or a number with too
  many digits for the text about an item or about the temporary cell.
* `lower_ok`, `lower_error`: lowering gives that code, or stops with that fault.
* `compile_ok`, `compile_error`: and so does compiling, whatever the layout was before, if the stack
  holds out.
-/

namespace ByteTape

namespace Code

/-- The move from one cell to another. -/
def travel (start finish : Int) : Code :=
  if 0 < finish - start then ofOp (.right (finish - start))
  else if finish - start < 0 then ofOp (.left (-(finish - start)))
  else nil

/-- A move and one operation at its end. -/
def opFrom (start cell : Int) (o : Op) : Code := travel start cell ++ ofOp o

def draining (source target temp : Int) (o : Op) : Code :=
  ofLoop (opFrom source target o ++ opFrom target temp (.add 1) ++ opFrom temp source (.sub 1))

def restoring (source temp : Int) : Code :=
  ofLoop (opFrom temp source (.add 1) ++ opFrom source temp (.sub 1))

/-- Clears the temporary cell and, if asked for, the target. -/
def preparing (temp start target : Int) (clearing : Bool) : Code :=
  opFrom start temp .clear ++ if clearing then opFrom temp target .clear else nil

def transferring (temp start source target : Int) (o : Op) (clearing : Bool) : Code :=
  preparing temp start target clearing ++ travel (if clearing then target else temp) source ++
    draining source target temp o ++ travel source temp ++ restoring source temp

end Code

namespace Command

open Code

/-- The code of a command, with the pointer at `start`. -/
def code (temp start : Int) : Command → Code
  | .set cell value => opFrom start cell (.set value)
  | .copy dest source => transferring temp start source dest (.add 1) true
  | .add dest operand => transferring temp start operand dest (.add 1) false
  | .sub dest operand => transferring temp start operand dest (.sub 1) false
  | .print cell => opFrom start cell .write
  | .input cell => opFrom start cell .read
  | .unknown _ => nil

/-- Where the pointer is after a command. -/
def finish (temp start : Int) : Command → Int
  | .set cell _ => cell
  | .copy _ _ => temp
  | .add _ _ => temp
  | .sub _ _ => temp
  | .print cell => cell
  | .input cell => cell
  | .unknown _ => start

/-- Whether a command needs a temporary cell. -/
def transfers : Command → Bool
  | .set _ _ => false
  | .copy _ _ => true
  | .add _ _ => true
  | .sub _ _ => true
  | .print _ => false
  | .input _ => false
  | .unknown _ => false

/-- Why a command has no code. -/
def fault? : Command → Option Layout.Fault
  | .set _ value => if 0 ≤ value ∧ value ≤ 255 then none else some (.constant value)
  | .copy dest source => if dest = source then some (.sameCell source) else none
  | .add dest operand => if dest = operand then some (.sameCell operand) else none
  | .sub dest operand => if dest = operand then some (.sameCell operand) else none
  | .print _ => none
  | .input _ => none
  | .unknown name => some (.unknown name)

/-- Why a command is not lowered with the given temporary cell. Its text is made before anything
else, and the temporary cell is looked at last. -/
def stop? (temp : Int) (command : Command) : Option Layout.Fault :=
  if command.numbers.all Text.isPrintable then
    command.fault? <|>
      if command.transfers && !Text.isPrintable temp then some .longNumeral else none
  else some .longNumeral

end Command

namespace Block

open Code

/-- Where the pointer is after a block. -/
def finish (temp start : Int) : Block → Int
  | nil => start
  | command head rest => rest.finish temp (head.finish temp start)
  | loop cell _ rest => rest.finish temp cell

/-- The code of a block, with the pointer at `start`. A loop comes back to its cell. -/
def code (temp start : Int) : Block → Code
  | nil => .nil
  | command head rest => head.code temp start ++ rest.code temp (head.finish temp start)
  | loop cell body rest =>
      travel start cell ++ ofLoop (body.code temp cell ++ travel (body.finish temp cell) cell) ++
        rest.code temp cell

def transfers : Block → Bool
  | nil => false
  | command head rest => head.transfers || rest.transfers
  | loop _ body rest => body.transfers || rest.transfers

/-- The fault of the first command, at any depth, that has no code. -/
def fault? : Block → Option Layout.Fault
  | nil => none
  | command head rest => head.fault? <|> rest.fault?
  | loop _ body rest => body.fault? <|> rest.fault?

/-- Why a block is not lowered with the given temporary cell. The text of a loop shows the whole
body. -/
def stop? (temp : Int) : Block → Option Layout.Fault
  | nil => none
  | command head rest => head.stop? temp <|> rest.stop? temp
  | loop cell body rest =>
      if (cell :: body.numbers).all Text.isPrintable then body.stop? temp <|> rest.stop? temp
      else some .longNumeral

/-- The cell behind all cells that a block names, and at least zero. -/
def top (block : Block) : Int := block.cells.foldl (fun top cell => max top (cell + 1)) 0

end Block

namespace Layout

open Code

/-! ## What stops lowering -/

theorem orElse_eq_none {first second : Option Fault} :
    (first <|> second) = none ↔ first = none ∧ second = none := by
  cases first with
  | none => exact ⟨fun none => ⟨rfl, none⟩, fun both => both.2⟩
  | some fault => exact ⟨nofun, nofun⟩

theorem orElse_eq_some {first second : Option Fault} {fault : Fault}
    (found : (first <|> second) = some fault) :
    first = some fault ∨ first = none ∧ second = some fault := by
  cases first with
  | none => exact .inr ⟨rfl, found⟩
  | some _ => exact .inl found

end Layout

namespace Command

variable {temp : Int} {command : Command}

theorem stop?_eq_none_iff :
    command.stop? temp = none ↔
      (command.numbers.all Text.isPrintable = true ∧ command.fault? = none) ∧
        (command.transfers = true → Text.isPrintable temp = true) := by
  unfold stop?
  split
  next shown =>
    rw [Layout.orElse_eq_none]
    cases command.transfers <;> cases Text.isPrintable temp <;> simp [shown]
  next hidden => simp [hidden]

/-- What stops a command: its text, what is wrong with it, or the temporary cell. -/
theorem stop?_cases {fault : Layout.Fault} (stops : command.stop? temp = some fault) :
    (command.numbers.all Text.isPrintable = false ∧ fault = .longNumeral) ∨
    (command.numbers.all Text.isPrintable = true ∧ command.fault? = some fault) ∨
    (command.numbers.all Text.isPrintable = true ∧ command.fault? = none ∧
      command.transfers = true ∧ Text.isPrintable temp = false ∧ fault = .longNumeral) := by
  unfold stop? at stops
  split at stops
  next shown =>
    rcases Layout.orElse_eq_some stops with faulty | ⟨fine, stops⟩
    · exact .inr (.inl ⟨shown, faulty⟩)
    · split at stops
      next hidden =>
        simp only [Bool.and_eq_true, Bool.not_eq_true'] at hidden
        cases stops
        exact .inr (.inr ⟨shown, fine, hidden.1, hidden.2, rfl⟩)
      next => cases stops
  next hidden =>
    cases stops
    exact .inl ⟨Bool.eq_false_iff.2 hidden, rfl⟩

/-- A command that is lowered leaves the pointer at a cell whose number can be shown. -/
theorem isPrintable_finish (clear : command.stop? temp = none) {start : Int}
    (shown : Text.isPrintable start = true) :
    Text.isPrintable (command.finish temp start) = true := by
  obtain ⟨⟨numbers, -⟩, transfers⟩ := stop?_eq_none_iff.1 clear
  have named := List.all_eq_true.1 numbers
  cases command with
  | set cell value => exact named cell (.head _)
  | copy dest source => exact transfers rfl
  | add dest operand => exact transfers rfl
  | sub dest operand => exact transfers rfl
  | print cell => exact named cell (.head _)
  | input cell => exact named cell (.head _)
  | unknown name => exact shown

end Command

namespace Block

theorem stop?_loop {temp cell : Int} {body rest : Block} :
    (loop cell body rest).stop? temp = none ↔
      (cell :: body.numbers).all Text.isPrintable = true ∧ body.stop? temp = none ∧
        rest.stop? temp = none := by
  rw [stop?]
  split
  next shown => rw [Layout.orElse_eq_none]; exact (and_iff_right shown).symm
  next hidden => exact ⟨nofun, fun clear => absurd clear.1 hidden⟩

theorem fault?_eq_none_of_stop? {temp : Int} {block : Block} (clear : block.stop? temp = none) :
    block.fault? = none := by
  induction block with
  | nil => rfl
  | command head rest ih =>
      obtain ⟨first, others⟩ := Layout.orElse_eq_none.1 clear
      exact Layout.orElse_eq_none.2 ⟨(Command.stop?_eq_none_iff.1 first).1.2, ih others⟩
  | loop cell body rest ihBody ihRest =>
      obtain ⟨-, inner, others⟩ := stop?_loop.1 clear
      exact Layout.orElse_eq_none.2 ⟨ihBody inner, ihRest others⟩

/-- Short numbers stop nothing. -/
theorem stop?_eq_none {temp : Int} (shown : Text.isPrintable temp = true) {block : Block}
    (fine : block.fault? = none) (numbers : ∀ number ∈ block.numbers, Text.isPrintable number) :
    block.stop? temp = none := by
  induction block with
  | nil => rfl
  | command head rest ih =>
      obtain ⟨first, others⟩ := Layout.orElse_eq_none.1 fine
      have here : head.numbers.all Text.isPrintable = true :=
        List.all_eq_true.2 fun number member => numbers number (List.mem_append_left _ member)
      have later := ih others fun number member => numbers number (List.mem_append_right _ member)
      exact Layout.orElse_eq_none.2
        ⟨Command.stop?_eq_none_iff.2 ⟨⟨here, first⟩, fun _ => shown⟩, later⟩
  | loop cell body rest ihBody ihRest =>
      obtain ⟨inner, others⟩ := Layout.orElse_eq_none.1 fine
      have here : (cell :: body.numbers).all Text.isPrintable = true :=
        List.all_eq_true.2 fun number member => numbers number (List.mem_append_left _ member)
      exact stop?_loop.2 ⟨here,
        ihBody inner fun number member =>
          numbers number (List.mem_append_left _ (.tail cell member)),
        ihRest others fun number member => numbers number (List.mem_append_right _ member)⟩

end Block

namespace Layout

open Code

/-! ## Notes -/

section Notes

variable (layout : Layout) (event : Event)

@[simp] theorem pointer_note : (layout.note event).pointer = layout.pointer := by
  unfold note
  split <;> rfl

@[simp] theorem free_note : (layout.note event).free = layout.free := by
  unfold note
  split <;> rfl

/-- A note does not move the pointer. -/
theorem moved_note :
    { layout.note event with pointer := layout.pointer } = layout.note event := by
  unfold note
  split <;> rfl

theorem note_quiet (quiet : layout.tracing = false) : layout.note event = layout := by
  rw [note, quiet]
  rfl

end Notes

/-! ## Single actions -/

theorem approach_eq (cell : Int) (layout : Layout) :
    approach cell layout = .ok (travel layout.pointer cell) { layout with pointer := cell } := by
  refine (bind_ok (show moveTo cell layout = .ok _ _ from rfl)).trans ?_
  unfold travel
  by_cases right : 0 < cell - layout.pointer
  · simp only [if_pos right]
    rfl
  · by_cases left : cell - layout.pointer < 0
    · simp only [if_neg right, if_pos left]
      rfl
    · simp only [if_neg right, if_neg left]
      rfl

theorem opAt_eq (cell : Int) (o : Op) (layout : Layout) :
    opAt cell o layout = .ok (opFrom layout.pointer cell o) { layout with pointer := cell } :=
  bind_ok (approach_eq cell layout)

theorem withLoop_ok {body : Action Code} {code : Code} {layout after : Layout}
    (ran : body (layout.note (.enter layout.pointer)) = .ok code after)
    (stays : after.pointer = layout.pointer) :
    withLoop body layout = .ok (.ofLoop code) (after.note (.leave layout.pointer)) := by
  refine (bind_ok ran).trans ?_
  show (if after.pointer = layout.pointer then _ else _ : Action Code) after = _
  rw [if_pos stays]
  rfl

theorem withLoop_error {body : Action Code} {fault : Fault} {layout after : Layout}
    (failed : body (layout.note (.enter layout.pointer)) = .error fault after) :
    withLoop body layout = .error fault after :=
  (bind_error failed).trans rfl

/-- The layout after a loop whose body changes nothing in it. -/
def looped (layout : Layout) : Layout :=
  (layout.note (.enter layout.pointer)).note (.leave layout.pointer)

@[simp] theorem pointer_looped (layout : Layout) : layout.looped.pointer = layout.pointer := by
  simp [looped]

@[simp] theorem free_looped (layout : Layout) : layout.looped.free = layout.free := by
  simp [looped]

/-- A loop body that comes back to where it started. -/
theorem withLoop_back {body : Action Code} {code : Code} {layout : Layout}
    (ran : body (layout.note (.enter layout.pointer)) =
      .ok code { layout.note (.enter layout.pointer) with pointer := layout.pointer }) :
    withLoop body layout = .ok (.ofLoop code) layout.looped := by
  rw [moved_note] at ran
  exact withLoop_ok ran (pointer_note _ _)

theorem drain_ok (layout : Layout) {source : Int} (starts : layout.pointer = source)
    (target temp : Int) (o : Op) :
    drain source target temp o layout = .ok (draining source target temp o) layout.looped := by
  subst starts
  refine withLoop_back ?_
  refine (bind_ok (opAt_eq _ _ _)).trans <| (bind_ok (opAt_eq _ _ _)).trans <|
    (bind_ok (opAt_eq _ _ _)).trans ?_
  rw [pointer_note]
  rfl

theorem restore_ok (layout : Layout) {temp : Int} (starts : layout.pointer = temp)
    (source : Int) :
    restore source temp layout = .ok (restoring source temp) layout.looped := by
  subst starts
  refine withLoop_back ?_
  refine (bind_ok (opAt_eq _ _ _)).trans <| (bind_ok (opAt_eq _ _ _)).trans ?_
  rw [pointer_note]
  rfl

theorem release_ok {cell : Int} {layout : Layout} (taken : cell ∉ layout.free) :
    release cell layout =
      .ok () ({ layout with free := layout.free.insert cell }.note (.release cell)) :=
  if_neg taken

theorem requireUsed_ok {cell : Int} {layout : Layout} (used : cell ∈ layout.used) :
    requireUsed cell layout = .ok () layout := by
  show (if cell ∈ layout.used then pure () else throw _ : Action Unit) layout = _
  rw [if_pos used]
  rfl

theorem isPrintable_zero : Text.isPrintable 0 = true := rfl

theorem tell_ok {event : Event} (shown : event.numbers.all Text.isPrintable = true)
    (layout : Layout) : tell event layout = .ok () (layout.note event) :=
  if_pos shown

theorem tell_error {event : Event} (hidden : event.numbers.all Text.isPrintable = false)
    (layout : Layout) : tell event layout = .error .longNumeral layout :=
  if_neg (Bool.eq_false_iff.1 hidden)

theorem requireTemporary_ok {layout : Layout} (shown : Text.isPrintable layout.temporary = true) :
    requireTemporary layout = .ok () layout := by
  show (if Text.isPrintable layout.temporary = true then pure () else throw _ : Action Unit) layout =
    _
  rw [if_pos shown]
  rfl

theorem requireTemporary_error {layout : Layout}
    (hidden : Text.isPrintable layout.temporary = false) :
    requireTemporary layout = .error .longNumeral layout := by
  show (if Text.isPrintable layout.temporary = true then pure () else throw _ : Action Unit) layout =
    _
  rw [if_neg (Bool.eq_false_iff.1 hidden)]
  rfl

theorem lower_command (head : Command) (rest : Block) (layout : Layout) :
    lower (.command head rest) layout =
      (tell (.lowerCommand head layout.pointer) >>= fun _ => do
        let first ← lowerCommand head
        let others ← lower rest
        return first ++ others) layout := rfl

theorem lower_loop (cell : Int) (body rest : Block) (layout : Layout) :
    lower (.loop cell body rest) layout =
      (tell (.lowerLoop cell body layout.pointer) >>= fun _ => do
        requireUsed cell
        let first ← approach cell
        let repeated ← withLoop do
          let inner ← lower body
          let back ← approach cell
          return inner ++ back
        let others ← lower rest
        return first ++ repeated ++ others) layout := rfl

/-! ## Transfers -/

/-- The layout after the two loops of a transfer. -/
def poured (taken : Layout) (source temp : Int) : Layout :=
  looped { looped { taken with pointer := source } with pointer := temp }

/-- The layout after a transfer: the temporary cell is given back. -/
def handedBack (taken : Layout) (source temp : Int) : Layout :=
  { taken.poured source temp with free := taken.free.insert temp }.note (.release temp)

@[simp] theorem free_poured (taken : Layout) (source temp : Int) :
    (taken.poured source temp).free = taken.free := by
  simp [poured]

/-- A transfer that gets a temporary cell, from any layout. -/
theorem transfer_ok {layout taken : Layout} {temp : Int}
    (allocated : allocate layout = .ok temp taken) (apart : temp ∉ taken.free) (source target : Int)
    (o : Op) (clearing : Bool) :
    transfer source target o clearing layout =
      .ok (transferring temp taken.pointer source target o clearing)
        (taken.handedBack source temp) := by
  -- all that follows the clearing, from wherever that has left the pointer
  have later (before : Code) (start : Int) : (do
      let toSource ← approach source
      let draining ← drain source target temp o
      let toTemp ← approach temp
      let restoring ← restore source temp
      release temp
      return before ++ toSource ++ draining ++ toTemp ++ restoring : Action Code)
        { taken with pointer := start } =
      .ok (before ++ travel start source ++ draining source target temp o ++ travel source temp ++
        restoring source temp) (taken.handedBack source temp) := by
    have drained := drain_ok { taken with pointer := source } rfl target temp o
    have turned := approach_eq temp (looped { taken with pointer := source })
    rw [pointer_looped] at turned
    have restored :=
      restore_ok { looped { taken with pointer := source } with pointer := temp } rfl source
    have released :
        release temp (taken.poured source temp) = .ok () (taken.handedBack source temp) := by
      rw [handedBack, ← free_poured taken source temp]
      exact release_ok (by rwa [free_poured])
    refine (bind_ok (approach_eq _ _)).trans <| (bind_ok drained).trans ?_
    exact (bind_ok turned).trans <| (bind_ok restored).trans (bind_ok released)
  refine (bind_ok allocated).trans <| (bind_ok (opAt_eq _ _ _)).trans ?_
  cases clearing with
  | false => exact later _ temp
  | true => exact (bind_ok (opAt_eq _ _ _)).trans (later _ target)

/-! ## Lowering -/

/-- A layout in the course of lowering: `named` are the cells of the block, and `temp`, if it was
touched, is the only temporary cell and has been given back. -/
def plan (named : CellSet) (temp : Int) (touched : Bool) (pointer : Int) : Layout where
  pointer := pointer
  used := if touched then named.insert temp else named
  free := if touched then CellSet.insert temp ∅ else ∅
  next := if touched then temp + 1 else temp

variable {named : CellSet} {temp : Int}

theorem mem_used_plan {cell : Int} (reserved : cell ∈ named) (touched : Bool) (pointer : Int) :
    cell ∈ (plan named temp touched pointer).used := by
  cases touched with
  | false => exact reserved
  | true => exact CellSet.mem_insert.2 (.inr reserved)

theorem allocate_plan (fresh : temp ∉ named) (touched : Bool) (pointer : Int) :
    allocate (plan named temp touched pointer) =
      .ok temp { plan named temp true pointer with free := ∅ } := by
  cases touched with
  | false =>
      have untaken : (plan named temp false pointer).next ∉ (plan named temp false pointer).used :=
        fresh
      have marked : (plan named temp false pointer).markUsed temp =
          { plan named temp true pointer with free := ∅ } := by
        simp only [markUsed, plan]
        simp
      show (if (plan named temp false pointer).next ∈ (plan named temp false pointer).used then _
        else EStateM.Result.ok temp _) = _
      rw [if_neg untaken]
      have silent := note_quiet ((plan named temp false pointer).markUsed temp) (.claim temp) rfl
      exact congrArg _ (silent.trans marked)
  | true =>
      have erased : (CellSet.insert temp ∅).erase temp = ∅ := by
        ext cell
        simp
      show EStateM.Result.ok temp { plan named temp true pointer with
        free := (CellSet.insert temp ∅).erase temp } = _
      rw [erased]

@[simp] theorem temporary_plan (touched : Bool) (pointer : Int) :
    (plan named temp touched pointer).temporary = temp := by
  cases touched <;> rfl

theorem transfer_plan (fresh : temp ∉ named) (source target : Int) (o : Op) (clearing : Bool)
    (touched : Bool) (pointer : Int) :
    transfer source target o clearing (plan named temp touched pointer) =
      .ok (transferring temp pointer source target o clearing) (plan named temp true temp) :=
  transfer_ok (allocate_plan fresh touched pointer) (CellSet.not_mem_empty temp) _ _ _ _

theorem requireDistinct_ok {dest operand : Int} (distinct : dest ≠ operand) (layout : Layout) :
    requireDistinct dest operand layout = .ok () layout := by
  rw [requireDistinct, if_neg distinct]
  rfl

section Commands

variable (fresh : temp ∉ named) (touched : Bool) (pointer : Int)

theorem requireUsed_plan (temp : Int) {cell : Int} (reserved : cell ∈ named) :
    requireUsed cell (plan named temp touched pointer) =
      .ok () (plan named temp touched pointer) :=
  requireUsed_ok (mem_used_plan reserved touched pointer)

theorem usedOpAt_plan {cell : Int} (reserved : cell ∈ named) (o : Op) :
    (requireUsed cell >>= fun _ => opAt cell o) (plan named temp touched pointer) =
      .ok (opFrom pointer cell o) (plan named temp touched cell) :=
  (bind_ok (requireUsed_plan touched pointer temp reserved)).trans (opAt_eq cell o _)

include fresh in
theorem checkedTransfer_plan {dest operand : Int} (reservedDest : dest ∈ named)
    (reservedOperand : operand ∈ named) (distinct : dest ≠ operand)
    (shown : Text.isPrintable temp = true) (o : Op) (clearing : Bool) :
    (do requireUsed dest
        requireUsed operand
        requireDistinct dest operand
        requireTemporary
        transfer operand dest o clearing : Action Code) (plan named temp touched pointer) =
      .ok (transferring temp pointer operand dest o clearing) (plan named temp true temp) := by
  refine (bind_ok (requireUsed_plan touched pointer temp reservedDest)).trans ?_
  refine (bind_ok (requireUsed_plan touched pointer temp reservedOperand)).trans ?_
  refine (bind_ok (requireDistinct_ok distinct _)).trans ?_
  refine (bind_ok (requireTemporary_ok (by rwa [temporary_plan]))).trans ?_
  exact transfer_plan fresh operand dest o clearing touched pointer

include fresh in
theorem lowerCommand_ok {command : Command} (reserved : ∀ cell ∈ command.cells, cell ∈ named)
    (clear : command.stop? temp = none) :
    lowerCommand command (plan named temp touched pointer) =
      .ok (command.code temp pointer)
        (plan named temp (touched || command.transfers) (command.finish temp pointer)) := by
  obtain ⟨⟨-, fine⟩, shown⟩ := Command.stop?_eq_none_iff.1 clear
  cases command with
  | set cell value =>
      have byte : 0 ≤ value ∧ value ≤ 255 := by simpa [Command.fault?] using fine
      have used := requireUsed_plan touched pointer temp (reserved cell (.head _))
      rw [lowerCommand, bind_ok used, if_pos byte, opAt_eq, Command.transfers, Bool.or_false]
      rfl
  | copy dest source =>
      have distinct : dest ≠ source := by simpa [Command.fault?] using fine
      rw [Command.transfers, Bool.or_true]
      exact checkedTransfer_plan fresh touched pointer (reserved dest (.head _))
        (reserved source (.tail _ (.head _))) distinct (shown rfl) (.add 1) true
  | add dest operand =>
      have distinct : dest ≠ operand := by simpa [Command.fault?] using fine
      rw [Command.transfers, Bool.or_true]
      exact checkedTransfer_plan fresh touched pointer (reserved dest (.head _))
        (reserved operand (.tail _ (.head _))) distinct (shown rfl) (.add 1) false
  | sub dest operand =>
      have distinct : dest ≠ operand := by simpa [Command.fault?] using fine
      rw [Command.transfers, Bool.or_true]
      exact checkedTransfer_plan fresh touched pointer (reserved dest (.head _))
        (reserved operand (.tail _ (.head _))) distinct (shown rfl) (.sub 1) false
  | print cell =>
      rw [Command.transfers, Bool.or_false]
      exact usedOpAt_plan touched pointer (reserved cell (.head _)) .write
  | input cell =>
      rw [Command.transfers, Bool.or_false]
      exact usedOpAt_plan touched pointer (reserved cell (.head _)) .read
  | unknown name => cases fine

theorem checkedTransfer_error {cell : Int} (reserved : cell ∈ named) (o : Op) (clearing : Bool) :
    (do requireUsed cell
        requireUsed cell
        requireDistinct cell cell
        requireTemporary
        transfer cell cell o clearing : Action Code) (plan named temp touched pointer) =
      .error (.sameCell cell) (plan named temp touched pointer) := by
  have used := requireUsed_plan touched pointer temp reserved
  refine (bind_ok used).trans <| (bind_ok used).trans (bind_error ?_)
  rw [requireDistinct, if_pos rfl]
  rfl

theorem checkedTransfer_hidden {dest operand : Int} (reservedDest : dest ∈ named)
    (reservedOperand : operand ∈ named) (distinct : dest ≠ operand)
    (hidden : Text.isPrintable temp = false) (o : Op) (clearing : Bool) :
    (do requireUsed dest
        requireUsed operand
        requireDistinct dest operand
        requireTemporary
        transfer operand dest o clearing : Action Code) (plan named temp touched pointer) =
      .error .longNumeral (plan named temp touched pointer) := by
  refine (bind_ok (requireUsed_plan touched pointer temp reservedDest)).trans ?_
  refine (bind_ok (requireUsed_plan touched pointer temp reservedOperand)).trans ?_
  refine (bind_ok (requireDistinct_ok distinct _)).trans ?_
  exact bind_error (requireTemporary_error (by rwa [temporary_plan]))

/-- A temporary cell that cannot be shown stops every command that needs one. -/
theorem lowerCommand_hidden {command : Command} (reserved : ∀ cell ∈ command.cells, cell ∈ named)
    (fine : command.fault? = none) (transfers : command.transfers = true)
    (hidden : Text.isPrintable temp = false) :
    lowerCommand command (plan named temp touched pointer) =
      .error .longNumeral (plan named temp touched pointer) := by
  cases command with
  | copy dest source =>
      have distinct : dest ≠ source := by simpa [Command.fault?] using fine
      exact checkedTransfer_hidden touched pointer (reserved dest (.head _))
        (reserved source (.tail _ (.head _))) distinct hidden _ _
  | add dest operand =>
      have distinct : dest ≠ operand := by simpa [Command.fault?] using fine
      exact checkedTransfer_hidden touched pointer (reserved dest (.head _))
        (reserved operand (.tail _ (.head _))) distinct hidden _ _
  | sub dest operand =>
      have distinct : dest ≠ operand := by simpa [Command.fault?] using fine
      exact checkedTransfer_hidden touched pointer (reserved dest (.head _))
        (reserved operand (.tail _ (.head _))) distinct hidden _ _
  | set cell value => cases transfers
  | print cell => cases transfers
  | input cell => cases transfers
  | unknown name => cases transfers

theorem lowerCommand_error (temp : Int) {command : Command}
    (reserved : ∀ cell ∈ command.cells, cell ∈ named) {fault : Fault}
    (faulty : command.fault? = some fault) :
    lowerCommand command (plan named temp touched pointer) =
      .error fault (plan named temp touched pointer) := by
  cases command with
  | set cell value =>
      have used := requireUsed_plan touched pointer temp (reserved cell (.head _))
      obtain ⟨range, rfl⟩ : ¬ (0 ≤ value ∧ value ≤ 255) ∧ .constant value = fault := by
        simpa [Command.fault?] using faulty
      rw [lowerCommand, bind_ok used, if_neg range]
      rfl
  | copy dest source =>
      obtain ⟨rfl, rfl⟩ : dest = source ∧ .sameCell source = fault := by
        simpa [Command.fault?] using faulty
      exact checkedTransfer_error touched pointer (reserved dest (.head _)) _ _
  | add dest operand =>
      obtain ⟨rfl, rfl⟩ : dest = operand ∧ .sameCell operand = fault := by
        simpa [Command.fault?] using faulty
      exact checkedTransfer_error touched pointer (reserved dest (.head _)) _ _
  | sub dest operand =>
      obtain ⟨rfl, rfl⟩ : dest = operand ∧ .sameCell operand = fault := by
        simpa [Command.fault?] using faulty
      exact checkedTransfer_error touched pointer (reserved dest (.head _)) _ _
  | print cell => cases faulty
  | input cell => cases faulty
  | unknown name =>
      cases faulty
      rfl

theorem tellCommand_ok {command : Command} (numbers : command.numbers.all Text.isPrintable = true)
    (shown : Text.isPrintable pointer = true) :
    tell (.lowerCommand command pointer) (plan named temp touched pointer) =
      .ok () (plan named temp touched pointer) :=
  tell_ok (by simp [Event.numbers, numbers, shown]) _

theorem tellLoop_ok {cell : Int} {body : Block}
    (numbers : (cell :: body.numbers).all Text.isPrintable = true)
    (shown : Text.isPrintable pointer = true) :
    tell (.lowerLoop cell body pointer) (plan named temp touched pointer) =
      .ok () (plan named temp touched pointer) := by
  refine tell_ok ?_ _
  rw [Event.numbers, List.all_append, numbers]
  simp [shown]

/-- A command is stopped when its text is made, or behind that when it is lowered. -/
theorem toldCommand_error {command : Command} (reserved : ∀ cell ∈ command.cells, cell ∈ named)
    {fault : Fault} (stops : command.stop? temp = some fault)
    (shown : Text.isPrintable pointer = true) (next : Code → Action Code) :
    (tell (.lowerCommand command pointer) >>= fun _ => lowerCommand command >>= next)
        (plan named temp touched pointer) =
      .error fault (plan named temp touched pointer) := by
  rcases Command.stop?_cases stops with ⟨hidden, rfl⟩ | ⟨numbers, faulty⟩ |
    ⟨numbers, fine, transfers, hidden, rfl⟩
  · exact bind_error (tell_error (by simp [Event.numbers, hidden]) _)
  · have failed := lowerCommand_error touched pointer temp reserved faulty
    exact (bind_ok (tellCommand_ok touched pointer numbers shown)).trans (bind_error failed)
  · have failed := lowerCommand_hidden touched pointer reserved fine transfers hidden
    exact (bind_ok (tellCommand_ok touched pointer numbers shown)).trans (bind_error failed)

end Commands

/-- The body of a lowered loop, with the move back to its cell. -/
theorem loopBody_ok {body : Action Code} {cell finish : Int} {inner : Code} {touched after : Bool}
    (lowered : body (plan named temp touched cell) = .ok inner (plan named temp after finish)) :
    withLoop (do
      let inner ← body
      let back ← approach cell
      return inner ++ back) (plan named temp touched cell) =
        .ok (.ofLoop (inner ++ travel finish cell)) (plan named temp after cell) := by
  -- a plan records nothing, so that a loop is entered and left without a note
  show _ = EStateM.Result.ok _ ((plan named temp after cell).note (.leave cell))
  exact withLoop_ok ((bind_ok lowered).trans (bind_ok (approach_eq cell _))) rfl

theorem lower_ok (fresh : temp ∉ named) {block : Block}
    (reserved : ∀ cell ∈ block.cells, cell ∈ named) (clear : block.stop? temp = none)
    (touched : Bool) {pointer : Int} (shown : Text.isPrintable pointer = true) :
    lower block (plan named temp touched pointer) =
      .ok (block.code temp pointer)
        (plan named temp (touched || block.transfers) (block.finish temp pointer)) := by
  induction block generalizing touched pointer with
  | nil =>
      rw [Block.transfers, Bool.or_false]
      rfl
  | command head rest ih =>
      obtain ⟨clearHead, clearRest⟩ := orElse_eq_none.1 clear
      have reservedHead := fun cell member => reserved cell (List.mem_append_left _ member)
      have reservedRest := fun cell member => reserved cell (List.mem_append_right _ member)
      have numbers := (Command.stop?_eq_none_iff.1 clearHead).1.1
      have first := lowerCommand_ok fresh touched pointer reservedHead clearHead
      have others := ih reservedRest clearRest (touched || head.transfers)
        (Command.isPrintable_finish clearHead shown)
      rw [Bool.or_assoc] at others
      -- a plan records nothing, so the note on the command leaves it as it is
      rw [lower_command]
      exact (bind_ok (tellCommand_ok touched pointer numbers shown)).trans <|
        (bind_ok first).trans (bind_ok others)
  | loop cell body rest ihBody ihRest =>
      obtain ⟨numbers, clearBody, clearRest⟩ := Block.stop?_loop.1 clear
      have reservedBody := fun other member =>
        reserved other (List.mem_append_left _ (.tail cell member))
      have reservedRest := fun other member => reserved other (List.mem_append_right _ member)
      have shownCell : Text.isPrintable cell = true := List.all_eq_true.1 numbers cell (.head _)
      have used := requireUsed_plan touched pointer temp (reserved cell (.head _))
      have repeated := loopBody_ok (ihBody reservedBody clearBody touched shownCell)
      have others := ihRest reservedRest clearRest (touched || body.transfers) shownCell
      rw [Bool.or_assoc] at others
      rw [lower_loop]
      refine (bind_ok (tellLoop_ok touched pointer numbers shown)).trans <|
        (bind_ok used).trans <| (bind_ok (approach_eq cell _)).trans ?_
      exact (bind_ok repeated).trans (bind_ok others)

theorem lower_error (fresh : temp ∉ named) {block : Block}
    (reserved : ∀ cell ∈ block.cells, cell ∈ named) {fault : Fault}
    (stops : block.stop? temp = some fault) (touched : Bool) {pointer : Int}
    (shown : Text.isPrintable pointer = true) :
    ∃ layout, lower block (plan named temp touched pointer) = .error fault layout := by
  induction block generalizing touched pointer with
  | nil => cases stops
  | command head rest ih =>
      have reservedHead := fun cell member => reserved cell (List.mem_append_left _ member)
      have reservedRest := fun cell member => reserved cell (List.mem_append_right _ member)
      rw [lower_command]
      rcases orElse_eq_some stops with stops | ⟨clear, stops⟩
      · exact ⟨_, toldCommand_error touched pointer reservedHead stops shown _⟩
      · have numbers := (Command.stop?_eq_none_iff.1 clear).1.1
        have first := lowerCommand_ok fresh touched pointer reservedHead clear
        obtain ⟨layout, failed⟩ := ih reservedRest stops (touched || head.transfers)
          (Command.isPrintable_finish clear shown)
        exact ⟨layout, (bind_ok (tellCommand_ok touched pointer numbers shown)).trans <|
          (bind_ok first).trans (bind_error failed)⟩
  | loop cell body rest ihBody ihRest =>
      have reservedBody := fun other member =>
        reserved other (List.mem_append_left _ (.tail cell member))
      have reservedRest := fun other member => reserved other (List.mem_append_right _ member)
      have used := requireUsed_plan touched pointer temp (reserved cell (.head _))
      rw [lower_loop]
      rw [Block.stop?] at stops
      split at stops
      next numbers =>
        have shownCell : Text.isPrintable cell = true := List.all_eq_true.1 numbers cell (.head _)
        have told := @tellLoop_ok named temp touched pointer cell body numbers shown
        rcases orElse_eq_some stops with stops | ⟨clear, stops⟩
        · obtain ⟨layout, failed⟩ := ihBody reservedBody stops touched shownCell
          refine ⟨layout, (bind_ok told).trans <| (bind_ok used).trans <|
            (bind_ok (approach_eq cell _)).trans ?_⟩
          exact bind_error (withLoop_error (bind_error failed))
        · have repeated := loopBody_ok (lower_ok fresh reservedBody clear touched shownCell)
          obtain ⟨layout, failed⟩ := ihRest reservedRest stops (touched || body.transfers) shownCell
          refine ⟨layout, (bind_ok told).trans <| (bind_ok used).trans <|
            (bind_ok (approach_eq cell _)).trans ?_⟩
          exact (bind_ok repeated).trans (bind_error failed)
      next hidden =>
        cases stops
        refine ⟨_, bind_error (tell_error ?_ _)⟩
        rw [Event.numbers, List.all_append, Bool.eq_false_iff.2 hidden, Bool.false_and]

/-! ## Compiling -/

/-- The highest cell of a list decides on the cell behind them. -/
theorem foldl_markUsed (cells : List Int) (named : CellSet) (top : Int) :
    cells.foldl markUsed (plan named top false 0) =
      plan (cells.foldl (fun named cell => named.insert cell) named)
        (cells.foldl (fun top cell => max top (cell + 1)) top) false 0 := by
  induction cells generalizing named top with
  | nil => rfl
  | cons head tail ih =>
      have marked : (plan named top false 0).markUsed head =
          plan (named.insert head) (max top (head + 1)) false 0 := by
        have behind : (if top ≤ head then head + 1 else top) = max top (head + 1) := by omega
        rw [← behind]
        rfl
      rw [List.foldl_cons, marked, ih, List.foldl_cons, List.foldl_cons]

theorem mem_foldl_insert {cells : List Int} {named : CellSet} {cell : Int} :
    cell ∈ cells.foldl (fun named cell => named.insert cell) named ↔
      cell ∈ named ∨ cell ∈ cells := by
  induction cells generalizing named with
  | nil => simp
  | cons head tail ih =>
      rw [List.foldl_cons, ih, CellSet.mem_insert, List.mem_cons]
      grind

theorem lt_foldl_max {cells : List Int} {start cell : Int} (member : cell < start ∨ cell ∈ cells) :
    cell < cells.foldl (fun top cell => max top (cell + 1)) start := by
  induction cells generalizing start with
  | nil => simpa using member
  | cons head tail ih =>
      show _ < tail.foldl _ (max start (head + 1))
      refine ih ?_
      rcases member with below | member
      · exact .inl (by omega)
      · rcases List.mem_cons.1 member with rfl | member
        · exact .inl (by omega)
        · exact .inr member

theorem foldl_max_le {cells : List Int} {start bound : Int} (begins : start ≤ bound)
    (below : ∀ cell ∈ cells, cell < bound) :
    cells.foldl (fun top cell => max top (cell + 1)) start ≤ bound := by
  induction cells generalizing start with
  | nil => exact begins
  | cons head tail ih =>
      have first : max start (head + 1) ≤ bound := Int.max_le.2 ⟨begins, below head (.head _)⟩
      exact ih first fun cell member => below cell (.tail _ member)

theorem markUsed_markUsed_self (layout : Layout) (cell : Int) :
    (layout.markUsed cell).markUsed cell = layout.markUsed cell := by
  have next : ¬ (layout.markUsed cell).next ≤ cell := by
    show ¬ (if layout.next ≤ cell then cell + 1 else layout.next) ≤ cell
    split <;> omega
  have used : (layout.used.insert cell).insert cell = layout.used.insert cell := by
    ext other
    simp
  rw [markUsed, if_neg next]
  simp only [markUsed, used]

theorem markUsed_comm (layout : Layout) (first second : Int) :
    (layout.markUsed first).markUsed second = (layout.markUsed second).markUsed first := by
  have used : (layout.used.insert first).insert second =
      (layout.used.insert second).insert first := by
    ext other
    simp only [CellSet.mem_insert]
    exact or_left_comm
  simp only [markUsed, used]
  congr 1
  grind

/-- A cell that is marked anyway need not be marked before. -/
theorem foldl_markUsed_absorb {cells : List Int} {cell : Int} (member : cell ∈ cells)
    (layout : Layout) :
    cells.foldl markUsed (layout.markUsed cell) = cells.foldl markUsed layout := by
  induction cells generalizing layout with
  | nil => cases member
  | cons head tail ih =>
      rw [List.foldl_cons, List.foldl_cons]
      rcases List.mem_cons.1 member with rfl | member
      · rw [markUsed_markUsed_self]
      · rw [markUsed_comm, ih member]

theorem foldl_markUsed_markTargets {block : Block} {cells : List Int}
    (inside : ∀ cell ∈ block.cells, cell ∈ cells) (layout : Layout) :
    cells.foldl markUsed (layout.markTargets block) = cells.foldl markUsed layout := by
  induction block generalizing layout with
  | nil => rfl
  | command head rest ih =>
      have later := ih fun cell member => inside cell (List.mem_append_right _ member)
      have here : ∀ cell ∈ head.cells, cell ∈ cells :=
        fun cell member => inside cell (List.mem_append_left _ member)
      cases head with
      | set cell value =>
          exact (later _).trans (foldl_markUsed_absorb (here cell (.head _)) layout)
      | input cell =>
          exact (later _).trans (foldl_markUsed_absorb (here cell (.head _)) layout)
      | _ => exact later layout
  | loop cell body rest ihBody ihRest =>
      rw [markTargets, ihRest fun other member => inside other (List.mem_append_right _ member),
        ihBody fun other member => inside other (List.mem_append_left _ (.tail _ member)),
        foldl_markUsed_absorb (inside cell (.head _))]

theorem markOperands_eq (layout : Layout) (block : Block) :
    layout.markOperands block = block.cells.foldl markUsed layout := by
  induction block generalizing layout with
  | nil => rfl
  | command head rest ih => rw [markOperands, ih, Block.cells, List.foldl_append]
  | loop cell body rest ihBody ihRest =>
      rw [markOperands, ihRest, ihBody, Block.cells, List.foldl_append, List.foldl_cons]

/-- All that the first pass marks is marked by the second one. -/
theorem reserve_eq (layout : Layout) (block : Block) :
    layout.reserve block = block.cells.foldl markUsed layout := by
  rw [reserve, markOperands_eq]
  exact foldl_markUsed_markTargets (fun _ => id) layout

/-- A fresh layout with the cells of a block is a plan for it. -/
theorem reserve_reset (layout : Layout) (block : Block) :
    (layout.reset.reserve block).untraced =
      plan (CellSet.ofList block.cells) block.top false 0 := by
  have named : block.cells.foldl (fun named cell => named.insert cell) ∅ =
      CellSet.ofList block.cells := by
    ext cell
    simp [mem_foldl_insert]
  rw [reserve_eq, untraced_foldl_markUsed, ← named]
  exact foldl_markUsed block.cells ∅ 0

theorem top_not_mem (block : Block) : block.top ∉ CellSet.ofList block.cells := by
  intro member
  exact Int.lt_irrefl _ (lt_foldl_max (.inr (CellSet.mem_ofList.1 member)))

/-- Compiling is lowering on a layout that has reserved the cells of the block. -/
theorem compile_eq_lower {stack : Stack Block.nesting} {block : Block}
    (holds : stack.holds block = true) (layout : Layout) :
    compile stack block layout = lower block (layout.reset.reserve block) := by
  show (if stack.holds block = true then _ else _ : Action Code) layout.reset = _
  rw [if_pos holds]
  rfl

theorem compile_untraced {stack : Stack Block.nesting} {block : Block}
    (holds : stack.holds block = true) (layout : Layout) :
    Outcome.untraced (compile stack block layout) =
      lower block (plan (CellSet.ofList block.cells) block.top false 0) := by
  rw [compile_eq_lower holds, ← reserve_reset layout block]
  exact (blind_lower block (layout.reset.reserve block)).symm

/-- A block that nothing stops is compiled, whatever the layout was before. -/
theorem compile_ok {stack : Stack Block.nesting} {block : Block}
    (holds : stack.holds block = true) (clear : block.stop? block.top = none) (layout : Layout) :
    ∃ final, compile stack block layout = .ok (block.code block.top 0) final ∧
      final.untraced = plan (CellSet.ofList block.cells) block.top block.transfers
        (block.finish block.top 0) := by
  have lowered :=
    lower_ok (top_not_mem block) (fun _ => CellSet.mem_ofList.2) clear false isPrintable_zero
  rw [← compile_untraced holds layout] at lowered
  cases outcome : compile stack block layout with
  | ok code final =>
      rw [outcome] at lowered
      injection lowered with same rest
      exact ⟨final, by rw [same], rest⟩
  | error fault final =>
      rw [outcome] at lowered
      cases lowered

/-- Compiling stops with the first fault that stops the lowering. -/
theorem compile_error {stack : Stack Block.nesting} {block : Block}
    (holds : stack.holds block = true) {fault : Fault} (stops : block.stop? block.top = some fault)
    (layout : Layout) : ∃ final, compile stack block layout = .error fault final := by
  obtain ⟨after, lowered⟩ :=
    lower_error (top_not_mem block) (fun _ => CellSet.mem_ofList.2) stops false isPrintable_zero
  rw [← compile_untraced holds layout] at lowered
  cases outcome : compile stack block layout with
  | ok code final =>
      rw [outcome] at lowered
      cases lowered
  | error fault final =>
      rw [outcome] at lowered
      injection lowered with same _
      exact ⟨final, by rw [same]⟩

/-- Nothing is compiled when the stack runs out. -/
theorem compile_deep {stack : Stack Block.nesting} {block : Block}
    (runsOut : stack.holds block = false) (layout : Layout) :
    compile stack block layout = .error .deep layout.reset := by
  show (if stack.holds block = true then _ else _ : Action Code) layout.reset = _
  rw [if_neg (Bool.eq_false_iff.1 runsOut)]
  rfl

/-- A block is compiled if and only if the stack holds out and nothing stops the lowering. -/
theorem compile_ok_iff {stack : Stack Block.nesting} {block : Block} {layout : Layout} :
    (∃ code final, compile stack block layout = .ok code final) ↔
      stack.holds block = true ∧ block.stop? block.top = none := by
  constructor
  · rintro ⟨code, final, done⟩
    cases holds : stack.holds block with
    | false => cases done.symm.trans (compile_deep holds layout)
    | true =>
        refine ⟨rfl, ?_⟩
        cases found : block.stop? block.top with
        | none => rfl
        | some fault =>
            obtain ⟨_, failed⟩ := compile_error holds found layout
            cases done.symm.trans failed
  · rintro ⟨holds, clear⟩
    obtain ⟨final, done, _⟩ := compile_ok holds clear layout
    exact ⟨_, final, done⟩

/-- The code of a block, and the layout after compiling it. -/
structure Compiled (block : Block) (code : Code) (final : Layout) : Prop where
  fine : block.fault? = none
  code : code = block.code block.top 0
  pointer : final.pointer = block.finish block.top 0
  used : final.used =
    if block.transfers then (CellSet.ofList block.cells).insert block.top
    else CellSet.ofList block.cells
  next : final.next = if block.transfers then block.top + 1 else block.top

theorem compiled {stack : Stack Block.nesting} {block : Block} {layout final : Layout}
    {code : Code} (done : compile stack block layout = .ok code final) :
    Compiled block code final := by
  obtain ⟨holds, clear⟩ := compile_ok_iff.1 ⟨code, final, done⟩
  obtain ⟨_, compiled, planned⟩ := compile_ok holds clear layout
  rw [done] at compiled
  cases compiled
  have pointer : final.untraced.pointer = _ := congrArg Layout.pointer planned
  have used : final.untraced.used = _ := congrArg Layout.used planned
  have next : final.untraced.next = _ := congrArg Layout.next planned
  exact ⟨Block.fault?_eq_none_of_stop? clear, rfl, pointer, used, next⟩

end Layout

end ByteTape

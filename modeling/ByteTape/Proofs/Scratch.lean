import ByteTape.Proofs.Faults
import ByteTape.Proofs.Lending

/-!
# Lowering from any layout

Lowering may start from any layout, also from one that no compilation leads to. Wherever it starts,
every transfer of a block borrows the same temporary cell and gives it back, so the code of the
block is the one for that cell, and no loop is left with the pointer elsewhere.

* `lent`: the temporary cells that were handed out, as far as the trace records it.
* `Sequel`: how a layout goes on while a block is lowered.
* `Lowers`: what lowering comes to, from any layout; `lowerCommand_lowers`, `lower_lowers`: it comes
  to nothing else.
-/

namespace ByteTape

theorem CellSet.insert_erase {set : CellSet} {cell : Int} (member : cell ∈ set) :
    (set.erase cell).insert cell = set := by
  ext other
  by_cases same : other = cell
  · simp [same, member]
  · simp [same]

namespace Layout

open Code

/-- The temporary cell that an event hands out. -/
def Event.lent? : Event → Option Int
  | .claim cell => some cell
  | .reuse cell => some cell
  | _ => none

/-- The temporary cells that were handed out, as far as the trace tells. -/
def lent (layout : Layout) : List Int := layout.trace.toList.filterMap Event.lent?

/-! ## Notes -/

@[simp] theorem tracing_note (layout : Layout) (event : Event) :
    (layout.note event).tracing = layout.tracing := by
  unfold note
  split <;> rfl

@[simp] theorem temporary_note (layout : Layout) (event : Event) :
    (layout.note event).temporary = layout.temporary := by
  unfold note
  split <;> rfl

theorem lent_note_silent (layout : Layout) {event : Event} (silent : event.lent? = none) :
    (layout.note event).lent = layout.lent := by
  unfold note
  split
  · simp [lent, silent]
  · rfl

theorem lent_note_traced (layout : Layout) (traced : layout.tracing = true) {event : Event}
    {cell : Int} (lends : event.lent? = some cell) :
    (layout.note event).lent = layout.lent ++ [cell] := by
  rw [note, if_pos traced]
  simp [lent, lends]

/-! ## How a layout goes on -/

/-- A layout that another one has come to: the pointer is at `finish`, the temporary cell to be
handed out next is still the same, and it has been handed out so many times. -/
structure Sequel (before : Layout) (finish : Int) (times : Nat) (after : Layout) : Prop where
  pointer : after.pointer = finish
  temporary : after.temporary = before.temporary
  tracing : after.tracing = before.tracing
  lent : before.tracing = true → after.lent = before.lent ++ List.replicate times before.temporary

namespace Sequel

theorem trans {before between after : Layout} {middle finish : Int} {first second : Nat}
    (one : Sequel before middle first between) (other : Sequel between finish second after) :
    Sequel before finish (first + second) after where
  pointer := other.pointer
  temporary := other.temporary.trans one.temporary
  tracing := other.tracing.trans one.tracing
  lent := by
    intro traced
    rw [other.lent (one.tracing.trans traced), one.lent traced, one.temporary,
      ← List.replicate_append_replicate, List.append_assoc]

theorem note (layout : Layout) {event : Event} (silent : event.lent? = none) :
    Sequel layout layout.pointer 0 (layout.note event) where
  pointer := layout.pointer_note event
  temporary := layout.temporary_note event
  tracing := layout.tracing_note event
  lent := fun _ => (lent_note_silent layout silent).trans (List.append_nil _).symm

theorem move (layout : Layout) (cell : Int) :
    Sequel layout cell 0 { layout with pointer := cell } where
  pointer := rfl
  temporary := rfl
  tracing := rfl
  lent := fun _ => (List.append_nil _).symm

theorem loop (layout : Layout) : Sequel layout layout.pointer 0 layout.looped :=
  have entered := note layout (show (Event.enter layout.pointer).lent? = none from rfl)
  entered.pointer ▸ entered.trans (note _ rfl)

theorem poured (taken : Layout) (source temp : Int) :
    Sequel taken temp 0 (taken.poured source temp) :=
  ((move taken source).trans (loop _)).trans ((move _ temp).trans (loop _))

end Sequel

/-! ## Transfers -/

/-- A layout from which the temporary cell has been borrowed. -/
structure Borrowed (before taken : Layout) : Prop where
  pointer : taken.pointer = before.pointer
  apart : before.temporary ∉ taken.free
  temporary : (taken.free.insert before.temporary).min? = some before.temporary
  tracing : taken.tracing = before.tracing
  lent : before.tracing = true → taken.lent = before.lent ++ [before.temporary]

theorem allocate_cases (layout : Layout) :
    (∃ taken, allocate layout = .ok layout.temporary taken ∧ Borrowed layout taken) ∨
      allocate layout = .error (.collision layout.next) layout := by
  unfold allocate
  cases lowest : layout.free.min? with
  | some cell =>
      have next : layout.temporary = cell := by rw [temporary, lowest, Option.getD_some]
      refine .inl ⟨_, by rw [next], ?_⟩
      constructor
      case pointer => simp
      case apart => simp [next]
      case temporary =>
        rw [free_note, next, CellSet.insert_erase (CellSet.mem_of_min? lowest)]
        exact lowest
      case tracing => simp
      case lent =>
        intro traced
        rw [next]
        exact lent_note_traced { layout with free := layout.free.erase cell } traced rfl
  | none =>
      have next : layout.temporary = layout.next := by rw [temporary, lowest, Option.getD_none]
      by_cases taken : layout.next ∈ layout.used
      · exact .inr (if_pos taken)
      · refine .inl ⟨_, (if_neg taken).trans (by rw [next]), ?_⟩
        have empty : (layout.markUsed layout.next).free = ∅ := by
          ext cell
          simp [markUsed, CellSet.not_mem_of_min? lowest]
        constructor
        case pointer => simp [markUsed]
        case apart =>
          rw [free_note, empty]
          exact CellSet.not_mem_empty _
        case temporary =>
          rw [free_note, empty]
          rfl
        case tracing => simp [markUsed]
        case lent =>
          intro traced
          rw [next]
          exact lent_note_traced (layout.markUsed layout.next) traced rfl

theorem Borrowed.sequel {before taken : Layout} (borrowed : Borrowed before taken) (source : Int) :
    Sequel before before.temporary 1 (taken.handedBack source before.temporary) := by
  have loops := Sequel.poured taken source before.temporary
  constructor
  case pointer => exact (pointer_note _ _).trans loops.pointer
  case temporary =>
    refine (temporary_note _ _).trans ?_
    show (taken.free.insert before.temporary).min?.getD _ = _
    rw [borrowed.temporary, Option.getD_some]
  case tracing => exact (tracing_note _ _).trans (loops.tracing.trans borrowed.tracing)
  case lent =>
    intro traced
    calc
      (taken.handedBack source before.temporary).lent
      _ = (taken.poured source before.temporary).lent := lent_note_silent _ rfl
      _ = taken.lent ++ [] := loops.lent (borrowed.tracing.trans traced)
      _ = before.lent ++ [before.temporary] := by rw [List.append_nil, borrowed.lent traced]

/-! ## What lowering comes to -/

/-- A loop body ends on another cell than it starts on. -/
def Fault.stray : Fault → Bool
  | strayPointer _ _ => true
  | _ => false

/-- What lowering something from a layout comes to. It gives the code, which only what is `sound`
has, brings the pointer to `finish` and hands out the temporary cell so many times; or it stops, but
not for a stray pointer. -/
inductive Lowers (layout : Layout) (sound : Prop) (code : Code) (finish : Int) (times : Nat) :
    Outcome Code → Prop
  | done {after : Layout} : sound → Sequel layout finish times after →
      Lowers layout sound code finish times (.ok code after)
  | stopped {fault : Fault} {after : Layout} : fault.stray = false →
      Lowers layout sound code finish times (.error fault after)

namespace Lowers

variable {layout : Layout} {sound : Prop} {code : Code} {finish : Int} {times : Nat}
  {action : Action Code}

theorem used (cell : Int) (lowers : Lowers layout sound code finish times (action layout)) :
    Lowers layout sound code finish times ((requireUsed cell >>= fun _ => action) layout) := by
  by_cases used : cell ∈ layout.used
  · rw [bind_ok (requireUsed_ok used)]
    exact lowers
  · have unused : requireUsed cell layout = .error (.unreserved cell) layout := by
      show (if cell ∈ layout.used then pure () else throw _ : Action Unit) layout = _
      rw [if_neg used]
      rfl
    rw [bind_error unused]
    exact .stopped rfl

theorem distinct (dest operand : Int) (lowers : dest ≠ operand →
      Lowers layout sound code finish times (action layout)) :
    Lowers layout sound code finish times
      ((requireDistinct dest operand >>= fun _ => action) layout) := by
  by_cases same : dest = operand
  · have refused : requireDistinct dest operand layout = .error (.sameCell operand) layout := by
      rw [requireDistinct, if_pos same]
      rfl
    rw [bind_error refused]
    exact .stopped rfl
  · rw [bind_ok (requireDistinct_ok same layout)]
    exact lowers same

theorem borrowing (lowers : Lowers layout sound code finish times (action layout)) :
    Lowers layout sound code finish times ((requireTemporary >>= fun _ => action) layout) := by
  cases shown : Text.isPrintable layout.temporary with
  | true =>
      rw [bind_ok (requireTemporary_ok shown)]
      exact lowers
  | false =>
      rw [bind_error (requireTemporary_error shown)]
      exact .stopped rfl

/-- Steps before that hand out nothing do not count. -/
theorem after {before : Layout} {start : Int} (sequel : Sequel before start 0 layout)
    {outcome : Outcome Code} (lowers : Lowers layout sound code finish times outcome) :
    Lowers before sound code finish times outcome := by
  cases lowers with
  | done holds further =>
      have whole := sequel.trans further
      rw [Nat.zero_add] at whole
      exact .done holds whole
  | stopped plain => exact .stopped plain

theorem told {event : Event} (silent : event.lent? = none)
    (lowers : Lowers (layout.note event) sound code finish times (action (layout.note event))) :
    Lowers layout sound code finish times ((tell event >>= fun _ => action) layout) := by
  cases shown : event.numbers.all Text.isPrintable with
  | true =>
      rw [bind_ok (tell_ok shown layout)]
      exact lowers.after (.note layout silent)
  | false =>
      rw [bind_error (tell_error shown layout)]
      exact .stopped rfl

theorem imp {sound' : Prop} (weaker : sound → sound') {outcome : Outcome Code}
    (lowers : Lowers layout sound code finish times outcome) :
    Lowers layout sound' code finish times outcome := by
  cases lowers with
  | done holds sequel => exact .done (weaker holds) sequel
  | stopped plain => exact .stopped plain

/-- One thing lowered after another, behind code that there is already. -/
theorem append {sound' : Prop} {code' : Code} {finish' : Int} {times' : Nat} {next : Action Code}
    (before : Code) (first : Lowers layout sound code finish times (action layout))
    (second : ∀ between, Sequel layout finish times between →
      Lowers between sound' code' finish' times' (next between)) :
    Lowers layout (sound ∧ sound') (before ++ code ++ code') finish' (times + times')
      ((do
        let one ← action
        let other ← next
        return before ++ one ++ other : Action Code) layout) := by
  generalize ran : action layout = outcome at first
  cases first with
  | @done between holds sequel =>
      rw [bind_ok ran]
      have others := second between sequel
      generalize ran' : next between = outcome at others
      cases others with
      | done holds' sequel' =>
          rw [bind_ok ran']
          exact .done ⟨holds, holds'⟩ (sequel.trans sequel')
      | stopped plain =>
          rw [bind_error ran']
          exact .stopped plain
  | stopped plain =>
      rw [bind_error ran]
      exact .stopped plain

theorem approached {cell : Int} {next : Code → Action Code}
    (lowers : Lowers { layout with pointer := cell } sound code finish times
      (next (travel layout.pointer cell) { layout with pointer := cell })) :
    Lowers layout sound code finish times ((approach cell >>= next) layout) := by
  rw [bind_ok (approach_eq cell layout)]
  exact lowers.after (.move layout cell)

theorem opAt (layout : Layout) (holds : sound) (cell : Int) (o : Op) :
    Lowers layout sound (opFrom layout.pointer cell o) cell 0 (Layout.opAt cell o layout) := by
  rw [opAt_eq]
  exact .done holds (.move layout cell)

theorem transfer (layout : Layout) (holds : sound) (source target : Int) (o : Op)
    (clearing : Bool) :
    Lowers layout sound (transferring layout.temporary layout.pointer source target o clearing)
      layout.temporary 1 (Layout.transfer source target o clearing layout) := by
  rcases allocate_cases layout with ⟨taken, allocated, borrowed⟩ | refused
  · rw [transfer_ok allocated borrowed.apart, borrowed.pointer]
    exact .done holds (borrowed.sequel source)
  · rw [show Layout.transfer source target o clearing layout = _ from bind_error refused]
    exact .stopped rfl

end Lowers

/-- A command is lowered to its code for the temporary cell that is next. -/
theorem lowerCommand_lowers (command : Command) (layout : Layout) :
    Lowers layout command.Lowerable (command.code layout.temporary layout.pointer)
      (command.finish layout.temporary layout.pointer) command.transfers.toNat
      (lowerCommand command layout) := by
  cases command with
  | set cell value =>
      apply Lowers.used
      split
      next byte => exact .opAt layout byte cell _
      next => exact .stopped rfl
  | copy dest source =>
      exact .used _ <| .used _ <| .distinct dest source fun differ =>
        .borrowing (.transfer layout differ ..)
  | add dest operand =>
      exact .used _ <| .used _ <| .distinct dest operand fun differ =>
        .borrowing (.transfer layout differ ..)
  | sub dest operand =>
      exact .used _ <| .used _ <| .distinct dest operand fun differ =>
        .borrowing (.transfer layout differ ..)
  | print cell => exact .used _ <| .opAt layout trivial cell _
  | input cell => exact .used _ <| .opAt layout trivial cell _
  | unknown name => exact .stopped rfl

/-- The body of a loop starts and ends on the cell of the loop. -/
theorem Lowers.loop {body : Action Code} {layout : Layout} {cell middle : Int} {sound : Prop}
    {inner : Code} {times : Nat} (starts : layout.pointer = cell)
    (lowers : Lowers (layout.note (.enter cell)) sound inner middle times
      (body (layout.note (.enter cell)))) :
    Lowers layout sound (ofLoop (inner ++ travel middle cell)) cell times
      (withLoop (do
        let inner ← body
        let back ← approach cell
        return inner ++ back) layout) := by
  subst starts
  generalize ran : body (layout.note (.enter layout.pointer)) = outcome at lowers
  cases lowers with
  | @done after holds sequel =>
      have back := approach_eq layout.pointer after
      rw [sequel.pointer] at back
      have closed : (do
          let inner ← body
          let back ← approach layout.pointer
          return inner ++ back : Action Code) (layout.note (.enter layout.pointer)) =
          .ok (inner ++ travel middle layout.pointer) { after with pointer := layout.pointer } :=
        (bind_ok ran).trans (bind_ok back)
      rw [withLoop_ok closed rfl]
      have entered := Sequel.note layout (show (Event.enter layout.pointer).lent? = none from rfl)
      have left := Sequel.note { after with pointer := layout.pointer }
        (show (Event.leave layout.pointer).lent? = none from rfl)
      have whole := (entered.trans sequel).trans ((Sequel.move after layout.pointer).trans left)
      rw [Nat.zero_add] at whole
      exact .done holds whole
  | stopped plain =>
      rw [withLoop_error (bind_error ran)]
      exact .stopped plain

/-- Lowering a block gives its code for the temporary cell that is next, from any layout. -/
theorem lower_lowers (block : Block) (layout : Layout) :
    Lowers layout (∀ command ∈ block.commands, command.Lowerable)
      (block.code layout.temporary layout.pointer) (block.finish layout.temporary layout.pointer)
      (block.commands.countP Command.transfers) (lower block layout) := by
  induction block generalizing layout with
  | nil => exact .done (fun _ member => absurd member List.not_mem_nil) (.move layout _)
  | command head rest ih =>
      have counts : (Block.command head rest).commands.countP Command.transfers =
          head.transfers.toNat + rest.commands.countP Command.transfers := by
        rw [Block.commands, List.countP_cons, Nat.add_comm]
        cases head.transfers <;> rfl
      have first := lowerCommand_lowers head (layout.note (.lowerCommand head layout.pointer))
      have whole := first.append .nil fun between sequel => by
        have others := ih between
        rwa [sequel.temporary, sequel.pointer] at others
      rw [temporary_note, pointer_note, ← counts] at whole
      exact .imp List.forall_mem_cons.2 (.told rfl whole)
  | loop cell body rest ihBody ihRest =>
      let noted := layout.note (.lowerLoop cell body layout.pointer)
      let entered := { noted with pointer := cell }.note (.enter cell)
      have inner := ihBody entered
      have temporary : entered.temporary = layout.temporary :=
        (temporary_note _ _).trans (temporary_note layout _)
      rw [temporary, show entered.pointer = cell from pointer_note _ _] at inner
      have whole := (Lowers.loop rfl inner).append (travel noted.pointer cell)
        fun between sequel => by
          have others := ihRest between
          rw [sequel.temporary, sequel.pointer] at others
          exact temporary_note layout _ ▸ others
      rw [Block.commands, List.countP_append, Block.code,
        ← pointer_note layout (.lowerLoop cell body layout.pointer)]
      refine .imp List.forall_mem_append.2 (.told rfl (.used cell ?_))
      exact .approached whole

end Layout

end ByteTape

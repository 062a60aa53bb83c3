import ByteTape.Proofs.Safety
import ByteTape.Proofs.Writing

/-!
# Two ways to run a program

A program can be compiled and run, or compiled, written as raw code and run from its text. Both ways
lead to the same output, on tapes of every size.

* `regular_code`: the counts of compiled code are not negative.
* `Agree`: neither run stops, or both give the same bytes, or both stop for want of a tape or of a
  line with bytes.
* `runs_agree`: the two ways agree.
-/

namespace ByteTape

open Behaviour Bounded

/-! ## Compiled code can be written -/

theorem Op.regular_covers : Op.Covers (fun _ => True) Op.Regular where
  right _ _ less := Int.sub_nonneg_of_le (Int.le_of_lt less)
  left _ _ less := Int.sub_nonneg_of_le (Int.le_of_lt less)
  increment := Int.one_nonneg
  decrement := Int.one_nonneg
  clear := trivial
  set := id
  read := trivial
  write := trivial

namespace Compilation

variable {host : Host} {program : Text} {tracing : Bool} {compilation : Compilation}

theorem regular_code (compiled : ofSource host program.chars tracing = .ok compilation) :
    compilation.code.Every Op.Regular := by
  obtain ⟨block, final, -, done, -⟩ := exists_block compiled
  have compiled := Layout.compiled done
  rw [compiled.code]
  exact (Block.every_code Op.regular_covers compiled.fine trivial trivial fun _ _ => trivial).1

/-- Every host whose stacks hold out compiles a program to the same code, traced or not. -/
theorem exists_untraced (compiled : ofSource host program.chars tracing = .ok compilation)
    {other : Host} (holds : other.Holds program.chars) :
    ∃ quiet, ofSource other program.chars false = .ok quiet ∧ quiet.code = compilation.code := by
  obtain ⟨block, final, parsed, done, -⟩ := exists_block compiled
  rcases ofSource_cases other program false with ⟨_, _, refused, -⟩ | ⟨quiet, compiled', -⟩ |
    ⟨_, -, -, deep⟩
  · cases (Prod.mk.inj (parsed.symm.trans refused)).1
  · obtain ⟨block', final', parsed', done', -⟩ := exists_block compiled'
    cases (Prod.mk.inj (parsed.symm.trans parsed')).1
    exact ⟨quiet, compiled', (Layout.compiled done').code.trans (Layout.compiled done).code.symm⟩
  · exact absurd holds deep

end Compilation

/-! ## Agreement -/

theorem Primitive.ofText_newline (text : String) : ofText (text ++ "\n") = ofText text := by
  rw [ofText, ofText, String.toList_append, List.filterMap_append]
  exact List.append_nil _

/-- Two runs that never stop, or that give the same bytes, or that stop with the same fault, which is
the want of a tape or of a line with bytes. -/
def Agree (host : Host) (source : Source) (size : Int)
    (first second : Nat → Option (Except RunError (List UInt8))) : Prop :=
  (Diverges first ∧ Diverges second) ∨
    (∃ bytes, Stops first (.ok bytes) ∧ Stops second (.ok bytes)) ∨
    ∃ fault : Machine.Fault, fault.OfRun host source size ∧
      Stops first (.error (.fault fault)) ∧ Stops second (.error (.fault fault))

section Output

variable {host : Host} {size : Int} {source : Source} {m : Machine} {code : Code}

theorem diverges_runCode (created : Machine.create host.room size source .unlimited = .ok m)
    (never : Diverges (Machine.run · [⟨code, none⟩] m)) :
    Diverges (runCode host · code source size) := by
  intro steps
  have unfinished : Machine.run steps [⟨code, none⟩] m = none := never steps
  simp only [runCode, Machine.output, created, Machine.execute, unfinished, Option.map_none]

theorem stops_runCode (created : Machine.create host.room size source .unlimited = .ok m)
    {m' m'' : Machine} (stops : Stops (Machine.run · [⟨code, none⟩] m) (.ok () m'))
    (flushed : Machine.flush m' = .ok () m'') :
    Stops (runCode host · code source size) (.ok m''.sink.taken.toList) := by
  obtain ⟨steps, ended⟩ := stops
  refine ⟨steps, ?_⟩
  simp only [runCode, Machine.output, created, Machine.execute, ended, flushed, Option.map_some]
  rfl

theorem fails_runCode (created : Machine.create host.room size source .unlimited = .ok m)
    {fault : Machine.Fault} {m' : Machine}
    (stops : Stops (Machine.run · [⟨code, none⟩] m) (.error fault m')) :
    Stops (runCode host · code source size) (.error (.fault fault)) := by
  obtain ⟨steps, ended⟩ := stops
  refine ⟨steps, ?_⟩
  simp only [runCode, Machine.output, created, Machine.execute, ended, Option.map_some]
  rfl

theorem runCode_refused {fault : Machine.Fault}
    (refused : Machine.create host.room size source .unlimited = .error fault) (steps : Nat)
    (code : Code) : runCode host steps code source size = some (.error (.fault fault)) := by
  simp only [runCode, Machine.output, refused, Option.map_some]
  rfl

end Output

/-- Equivalent codes that fail with their source only have the same output. -/
theorem Code.Equivalent.agree {first second : Code} (same : first.Equivalent second)
    (unfailing : first.Unfailing) (host : Host) {source : Source} (answers : source.Open)
    {size : Int} (positive : 0 < size) :
    Agree host source size (runCode host · first source size)
      (runCode host · second source size) := by
  rcases Machine.create_cases host.room positive source .unlimited with ⟨fault, large, refused⟩ |
    ⟨m, created, inside, rfl, unlimited⟩
  · exact .inr (.inr ⟨fault, .refused large, ⟨0, runCode_refused refused 0 first⟩,
      ⟨0, runCode_refused refused 0 second⟩⟩)
  · have outcomes := same.stops_iff inside
    rcases diverges_or_stops (Machine.run · [⟨first, none⟩] m) with never | ⟨outcome, stops⟩
    · exact .inl ⟨diverges_runCode created never,
        diverges_runCode created (diverges_of_iff outcomes never)⟩
    · have stops' := (outcomes outcome).1 stops
      have gives := Machine.stops_iff_gives.1 stops
      rcases unfailing inside gives with ⟨m', rfl⟩ | ⟨cause, m', i, rfl, failure⟩
      · obtain ⟨m'', flushed⟩ :=
          Machine.flush_unlimited ((Code.sink_of_gives gives).trans unlimited)
        exact .inr (.inl ⟨_, stops_runCode created stops flushed,
          stops_runCode created stops' flushed⟩)
      · cases cause with
        | closed => exact absurd failure (answers i)
        | unencodable point first last =>
            exact .inr (.inr ⟨_, .unencodable failure, fails_runCode created stops,
              fails_runCode created stops'⟩)

/-- A program and the text of its code agree on every tape and on every source that refuses no read,
also if a line feed stands behind the text. The code has a text exactly if the number of its
primitives is an index. -/
theorem runs_agree {host : Host} {program : Text} {tracing : Bool} {compilation : Compilation}
    (compiled : Compilation.ofSource host program.chars tracing = .ok compilation) :
    host.Holds program.chars ∧
    ((∃ text, compilation.code.toText = .ok text) ↔ compilation.code.size < Memory.indexLimit) ∧
    ∀ text written, compilation.code.toText = .ok text →
      (written = text ∨ written = text ++ "\n") →
      ∀ (other : Host) (source : Source) (size : Int), other.Holds program.chars → source.Open →
        0 < size → Agree other source size (runProgram other · program.chars source size)
          (runText other · written source size) := by
  have regular := Compilation.regular_code compiled
  refine ⟨Compilation.holds_of_ofSource compiled, Code.exists_toText_iff regular, ?_⟩
  intro text written writes behind other source size holds answers positive
  obtain ⟨-, rfl⟩ := (Code.toText_ok_iff regular).1 writes
  have primitives : Primitive.ofText written = compilation.code.text := by
    rcases behind with rfl | rfl
    · exact Primitive.ofText_toText _
    · rw [Primitive.ofText_newline, Primitive.ofText_toText]
  obtain ⟨reread, read, same⟩ := Code.exists_equivalent regular primitives
  obtain ⟨quiet, untraced, code⟩ := Compilation.exists_untraced compiled holds
  have unfailing : compilation.code.Unfailing := fun _ _ _ gives =>
    Code.gives_permits (regular.imp Op.Regular.executable) gives
  have agree := same.agree unfailing other answers positive
  simp only [runProgram, untraced, code, runText, read]
  exact agree

/-- On a tape with one place for all three cells the copy is lost, in both ways. -/
theorem runs_agree_shared :
    ∃ compilation text,
      Compilation.ofSource .ample "a = 2; b = a; print b;" false = .ok compilation ∧
      compilation.cellsUsed = 3 ∧ compilation.code.toText = .ok text ∧
      Stops (runProgram .ample · "a = 2; b = a; print b;" .empty 1) (.ok [0]) ∧
      Agree .ample .empty 1 (runProgram .ample · "a = 2; b = a; print b;" .empty 1)
        (runText .ample · (text ++ "\n") .empty 1) := by
  have tokens : Program.tokens "a = 2; b = a; print b;".toList =
      ["a", "=", "2", ";", "b", "=", "a", ";", "print", "b", ";"].map fun text => ⟨text, 1⟩ := by
    decide +kernel
  obtain ⟨block, same⟩ : ∃ block : Block, block =
      .command (.set 0 2) (.command (.copy 1 0) (.command (.print 1) .nil)) := ⟨_, rfl⟩
  have parsed : Program.parse "a = 2; b = a; print b;" {} =
      (.ok block, ⟨[("a", 0), ("b", 1)], 2⟩) := by
    rw [Program.parse, tokens, same]
    rfl
  have clear : block.stop? block.top = none := by
    rw [same]
    rfl
  obtain ⟨final, done, -⟩ :=
    @Layout.compile_ok Host.ample.lowering block rfl clear { tracing := false }
  obtain ⟨compilation, compiled, code, cells⟩ : ∃ compilation,
      Compilation.ofSource .ample "a = 2; b = a; print b;" false = .ok compilation ∧
      compilation.code = block.code block.top 0 ∧ compilation.cellsUsed = final.next := by
    rw [Compilation.ofSource, parsed]
    simp only [done]
    exact ⟨_, rfl, rfl, rfl⟩
  have three : final.next = 3 := by
    rw [(Layout.compiled done).next, same]
    decide
  let program : Text := ⟨"a = 2; b = a; print b;", by decide⟩
  have short : compilation.code.size < Memory.indexLimit := by
    rw [Code.size_eq_length_text (@Compilation.regular_code _ program _ _ compiled), code, same]
    decide
  obtain ⟨holds, writes, agree⟩ := @runs_agree .ample program false compilation compiled
  obtain ⟨text, written⟩ := writes.2 short
  refine ⟨compilation, text, compiled, cells.trans three, written, ⟨40, ?_⟩, ?_⟩
  · show runProgram .ample 40 "a = 2; b = a; print b;" .empty 1 = _
    rw [runProgram, compiled]
    show runCode .ample 40 compilation.code .empty 1 = _
    rw [code, same]
    rfl
  · exact agree text _ written (.inr rfl) .ample .empty 1 holds Source.open_empty (by decide)

/-- There is no tape for a size that is no index, so there are no bytes either. -/
theorem hugeTape_no_output :
    ∃ compilation, Compilation.ofSource .ample "print a;" false = .ok compilation ∧
      compilation.code.toText = .ok "." ∧ 0 < Memory.indexLimit ∧
      (∀ steps, runProgram .ample steps "print a;" .empty Memory.indexLimit =
        some (.error (.fault .dimension))) ∧
      (∀ steps, runText .ample steps "." .empty Memory.indexLimit =
        some (.error (.fault .dimension))) ∧
      ¬ ((Diverges (runProgram .ample · "print a;" .empty Memory.indexLimit) ∧
          Diverges (runText .ample · "." .empty Memory.indexLimit)) ∨
        ∃ bytes, Stops (runProgram .ample · "print a;" .empty Memory.indexLimit) (.ok bytes) ∧
          Stops (runText .ample · "." .empty Memory.indexLimit) (.ok bytes)) := by
  have refused : Machine.create Host.ample.room Memory.indexLimit .empty .unlimited =
      .error .dimension := rfl
  have tokens : Program.tokens "print a;".toList =
      ["print", "a", ";"].map fun text => ⟨text, 1⟩ := by decide +kernel
  obtain ⟨compilation, compiled, code⟩ : ∃ compilation,
      Compilation.ofSource .ample "print a;" false = .ok compilation ∧
      compilation.code = .ofOp .write := by
    rw [Compilation.ofSource, Program.parse, tokens]
    exact ⟨_, rfl, rfl⟩
  have written : compilation.code.toText = .ok "." := by
    rw [code, Code.toText_eq_spelled]
    rfl
  have program (steps : Nat) : runProgram .ample steps "print a;" .empty Memory.indexLimit =
      some (.error (.fault .dimension)) := by
    rw [runProgram, compiled]
    exact runCode_refused refused steps compilation.code
  have text (steps : Nat) : runText .ample steps "." .empty Memory.indexLimit =
      some (.error (.fault .dimension)) :=
    runCode_refused refused steps (.ofOp .write)
  refine ⟨compilation, compiled, written, by decide, program, text, ?_⟩
  rintro (⟨never, _⟩ | ⟨bytes, ⟨steps, ended⟩, _⟩)
  · cases (program 0).symm.trans (never 0)
  · cases (program steps).symm.trans ended

end ByteTape

import ByteTape.Compilation
import ByteTape.Proofs.Lexing
import ByteTape.Proofs.Simulation
import ByteTape.Proofs.Stepwise

/-!
# What can go wrong

Running a source gives its output, goes on for ever or refuses the source. Nothing else happens but
that the host has no room for the tape or for loops that nest deep, or that a line of the input has
no bytes.

* `Block.stop?_of_parse`: nothing stops the lowering of a parsed program.
* `Host.Holds`: the stacks of a host hold out for a source.
* `Compilation.exists_block`: where the parts of a compilation come from.
* `Code.Unfailing`: code that fails with its source only. Compiled code and code read from a text are
  unfailing.
* `output_error`: the output of unfailing code is missing only for the tape or for the source.
* `run_error`: all errors of a run.
-/

namespace ByteTape

open Behaviour Bounded

/-! ## Parsed programs -/

theorem Command.Proper.fault?_eq_none {names : Program.Names} {command : Command}
    (proper : command.Proper names) : command.fault? = none := by
  cases command with
  | set cell value => exact if_pos proper.2
  | copy dest source => exact if_neg proper.2.2
  | add dest operand => exact if_neg proper.2.2
  | sub dest operand => exact if_neg proper.2.2
  | print cell => rfl
  | input cell => rfl
  | unknown name => exact proper.elim

theorem Block.Proper.fault?_eq_none {names : Program.Names} {block : Block}
    (proper : block.Proper names) : block.fault? = none := by
  induction block with
  | nil => rfl
  | command head rest ih =>
      exact Layout.orElse_eq_none.2 ⟨proper.1.fault?_eq_none, ih proper.2⟩
  | loop cell body rest ihBody ihRest =>
      exact Layout.orElse_eq_none.2 ⟨ihBody proper.2.1, ihRest proper.2.2⟩

/-- The cells of a parsed program lie below the number of names. -/
theorem Block.Proper.top_le {names : Program.Names} {block : Block} (proper : block.Proper names)
    (orderly : names.Orderly) : block.top ≤ names.next :=
  Layout.foldl_max_le (Int.natCast_nonneg _) fun cell member =>
    (proper.holds cell member).lt_next orderly

/-! ## Short numbers -/

theorem Command.Proper.numbers {names : Program.Names} {command : Command}
    (proper : command.Proper names) :
    ∀ number ∈ command.numbers, names.Holds number ∨ 0 ≤ number ∧ number ≤ 255 := by
  cases command with
  | set cell value =>
      exact List.forall_mem_cons.2 ⟨.inl proper.1, List.forall_mem_singleton.2 (.inr proper.2)⟩
  | unknown name => exact proper.elim
  | _ => exact fun number member => .inl (proper.holds number member)

/-- A parsed program shows the cells of names, and bytes. -/
theorem Block.Proper.numbers {names : Program.Names} {block : Block} (proper : block.Proper names) :
    ∀ number ∈ block.numbers, names.Holds number ∨ 0 ≤ number ∧ number ≤ 255 := by
  induction block with
  | nil => exact fun _ member => absurd member List.not_mem_nil
  | command head rest ih =>
      intro number member
      rcases List.mem_append.1 member with member | member
      · exact proper.1.numbers number member
      · exact ih proper.2 number member
  | loop cell body rest ihBody ihRest =>
      intro number member
      rcases List.mem_append.1 member with member | member
      · rcases List.mem_cons.1 member with rfl | member
        · exact .inl proper.1
        · exact ihBody proper.2.1 number member
      · exact ihRest proper.2.2 number member

/-- Indices can be written. -/
theorem Text.isPrintable_of_index {n : Int} (natural : 0 ≤ n) (index : n < Memory.indexLimit) :
    isPrintable n = true := by
  have limit : Memory.indexLimit = 9223372036854775808 := rfl
  have digits : firstLonger 19 ≤ firstLonger maxDigits := firstLonger_mono (by decide)
  have nineteen : firstLonger 19 = 10000000000000000000 := rfl
  have short : n.natAbs < firstLonger 19 := by omega
  exact isPrintable_iff.2 (Nat.lt_of_lt_of_le short digits)

/-- A program has no more names than characters. -/
theorem Program.next_lt_indexLimit {program : Text} {block : Block} {names : Names}
    (parsed : parse program.chars {} = (.ok block, names)) :
    (names.next : Int) < Memory.indexLimit := by
  have counted : names.next ≤ 0 + (tokens program.chars.toList).length :=
    Parser.next_le_of_run parsed
  have fewer := length_tokens_le program.chars.toList
  have short := program.short
  rw [String.length_toList] at fewer
  omega

theorem Block.stop?_of_parse {program : Text} {block : Block} {names : Program.Names}
    (parsed : Program.parse program.chars {} = (.ok block, names)) :
    block.stop? block.top = none := by
  obtain ⟨orderly, proper⟩ := Program.parse_proper Program.Names.orderly_empty parsed
  have few := Program.next_lt_indexLimit parsed
  have top := proper.top_le orderly
  refine stop?_eq_none ?_ proper.fault?_eq_none fun number member => ?_
  · exact Text.isPrintable_of_index block.top_nonneg (by omega)
  · rcases proper.numbers number member with holds | ⟨low, high⟩
    · have below := holds.lt_next orderly
      exact Text.isPrintable_of_index holds.natural (by omega)
    · exact Text.isPrintable_of_index low (Int.lt_of_le_of_lt high (by decide))

/-! ## Compiling a source -/

/-- The stacks hold out for a source: that of the parser, and that of the compiler for the block. -/
def Host.Holds (host : Host) (program : String) : Prop :=
  host.parsing.holds program = true ∧
    ∀ block names, Program.parse program {} = (.ok block, names) → host.lowering.holds block = true

namespace Compilation

/-- The errors of running out of a stack, for a program that nests deep enough. -/
inductive Deep (host : Host) (program : String) : Error → Prop
  | parsing : host.parsing.depth < Program.nesting program → Deep host program .deep
  | lowering : host.lowering.depth < Program.nesting program → Deep host program (.fault .deep)

/-- A source that is compiled has a block, from which its parts come. -/
theorem exists_block {host : Host} {program : String} {tracing : Bool} {compilation : Compilation}
    (compiled : ofSource host program tracing = .ok compilation) :
    ∃ block final, Program.parse program {} = (.ok block, compilation.names) ∧
      Layout.compile host.lowering block { tracing } = .ok compilation.code final ∧
      compilation.cellsUsed = final.next := by
  unfold ofSource at compiled
  split at compiled
  next =>
    split at compiled
    next => cases compiled
    next block names parsed =>
      split at compiled
      next => cases compiled
      next code final done =>
        cases compiled
        exact ⟨block, final, parsed, done, rfl⟩
  next => cases compiled

theorem holds_of_ofSource {host : Host} {program : String} {tracing : Bool}
    {compilation : Compilation} (compiled : ofSource host program tracing = .ok compilation) :
    host.Holds program := by
  obtain ⟨block, final, parsed, done, -⟩ := exists_block compiled
  constructor
  · unfold ofSource at compiled
    split at compiled
    next holds => exact holds
    next => cases compiled
  · intro other names parsed'
    cases parsed.symm.trans parsed'
    exact (Layout.compile_ok_iff.1 ⟨_, final, done⟩).1

end Compilation

/-! ## Unfailing code -/

/-- Code that comes to its end or stops with a failure of its source. -/
def Code.Unfailing (code : Code) : Prop :=
  ∀ ⦃m : Machine⦄ ⦃outcome : Machine.Outcome Unit⦄, m.tape.pointer < m.tape.size →
    code.Gives m outcome → m.source.Permits outcome

theorem Code.unfailing_of_ofText {text : String} {code : Code} (read : ofText text = .ok code) :
    code.Unfailing := by
  intro m outcome inside gives
  obtain ⟨plain, spelled, rfl⟩ := exists_coalesce read
  exact gives_permits (executable_of_spells spelled)
    ((plain.coalesce_equiv m inside outcome).1 gives)

/-- A source is refused by the parser, or it is compiled to unfailing code, or a stack does not hold
out for it. -/
theorem Compilation.ofSource_cases (host : Host) (program : Text) (tracing : Bool) :
    (∃ refusal names, Program.parse program.chars {} = (.error refusal, names) ∧
      ofSource host program.chars tracing = .error (.refused refusal)) ∨
    (∃ compilation, ofSource host program.chars tracing = .ok compilation ∧
      compilation.code.Unfailing) ∨
    ∃ error, ofSource host program.chars tracing = .error error ∧ Deep host program.chars error ∧
      ¬ host.Holds program.chars := by
  unfold ofSource
  cases parses : host.parsing.holds program.chars with
  | false =>
      refine .inr (.inr ⟨.deep, rfl, .parsing (Stack.depth_lt parses), fun holds => ?_⟩)
      cases parses.symm.trans holds.1
  | true =>
      rw [if_pos rfl]
      split
      next refusal names parsed => exact .inl ⟨refusal, names, parsed, rfl⟩
      next block names parsed =>
        cases lowers : host.lowering.holds block with
        | false =>
            have deep := Stack.depth_lt lowers
            have nested := Program.nesting_le_of_parse parsed
            rw [Layout.compile_deep lowers]
            refine .inr (.inr ⟨_, rfl, .lowering (Nat.lt_of_lt_of_le deep nested), fun holds => ?_⟩)
            cases lowers.symm.trans (holds.2 block names parsed)
        | true =>
            have clear := Block.stop?_of_parse parsed
            obtain ⟨final, compiled, _⟩ := Layout.compile_ok lowers clear { tracing }
            have executable :=
              Block.executable_code (Block.fault?_eq_none_of_stop? clear) block.top 0
            rw [compiled]
            exact .inr (.inl ⟨_, rfl, fun _ _ _ gives => Code.gives_permits executable gives⟩)

/-! ## Output -/

namespace Machine

theorem flush_unlimited {m : Machine} (unlimited : m.sink = .unlimited) :
    ∃ m', flush m = .ok () m' := by
  unfold flush flushSink
  rw [unlimited]
  split
  · exact ⟨_, rfl⟩
  · exact ⟨_, rfl⟩

/-- Why there is no machine with so many cells: their number is no index, or there is no room. -/
def Refused (room : Nat → Bool) (size : Int) (fault : Fault) : Prop :=
  Memory.indexLimit ≤ size ∧ fault = .dimension ∨
    size < Memory.indexLimit ∧ room size.toNat = false ∧ fault = .memory size

theorem create_cases (room : Nat → Bool) {size : Int} (positive : 0 < size) (source : Source)
    (sink : Sink) :
    (∃ fault, Refused room size fault ∧ create room size source sink = .error fault) ∨
    ∃ m, create room size source sink = .ok m ∧ m.tape.pointer < m.tape.size ∧
      m.source = source ∧ m.sink = sink := by
  unfold create
  rw [if_neg (Int.not_le.2 positive)]
  by_cases index : Memory.indexLimit ≤ size
  · rw [if_pos index]
    exact .inl ⟨_, .inl ⟨index, rfl⟩, rfl⟩
  · rw [if_neg index]
    cases free : room size.toNat with
    | false => exact .inl ⟨_, .inr ⟨Int.not_le.1 index, free, rfl⟩, rfl⟩
    | true =>
        refine .inr ⟨_, rfl, ?_, rfl, rfl⟩
        show 0 < (Tape.blank size.toNat).size
        rw [Tape.size_blank]
        omega

/-- Unfailing code comes to its end, stops with its source or does not end. -/
theorem execute_cases {code : Code} (unfailing : code.Unfailing) {m : Machine}
    (inside : m.tape.pointer < m.tape.size) (unlimited : m.sink = .unlimited) (steps : Nat) :
    execute steps code m = none ∨
      ∃ outcome, execute steps code m = some outcome ∧ m.source.Permits outcome := by
  cases ran : run steps [⟨code, none⟩] m with
  | none => exact .inl (by simp only [execute, ran])
  | some outcome =>
      have gives := stops_iff_gives.1 ⟨steps, ran⟩
      rcases unfailing inside gives with ⟨m', rfl⟩ | ⟨cause, m', i, rfl, failure⟩
      · obtain ⟨flushed, done⟩ := flush_unlimited ((Code.sink_of_gives gives).trans unlimited)
        exact .inr ⟨_, by simp only [execute, ran, done], .inl ⟨flushed, rfl⟩⟩
      · exact .inr ⟨_, by simp only [execute, ran], .inr ⟨cause, m', i, rfl, failure⟩⟩

/-- Unfailing code gives its output, unless there is no tape for it or its source fails. -/
theorem output_error {code : Code} (unfailing : code.Unfailing) {room : Nat → Bool}
    {source : Source} {size : Int} (positive : 0 < size) {steps : Nat} {fault : Fault}
    (failed : output steps room size source code = some (.error fault)) :
    Refused room size fault ∨ ∃ cause i, fault = .source cause ∧
      source.reading i = .failure cause := by
  unfold output at failed
  rcases create_cases room positive source .unlimited with ⟨refused, large, created⟩ |
    ⟨m, created, inside, rfl, unlimited⟩
  · simp only [created, Option.some.injEq, Except.error.injEq] at failed
    exact .inl (failed ▸ large)
  · rcases execute_cases unfailing inside unlimited steps with never |
      ⟨_, ended, ⟨m', rfl⟩ | ⟨cause, m', i, rfl, failure⟩⟩
    · simp only [created, never, reduceCtorEq] at failed
    · simp only [created, ended, Option.some.injEq, reduceCtorEq] at failed
    · simp only [created, ended, Option.some.injEq, Except.error.injEq] at failed
      exact .inr ⟨cause, i, failed.symm, failure⟩

end Machine

/-- A source that refuses no read. A line of it may still have no bytes. -/
def Source.Open (source : Source) : Prop := ∀ i, source.reading i ≠ .failure .closed

theorem Source.open_empty : Source.empty.Open := fun i => reliable_empty i .closed

/-- What code that does not fail can end with in place of an output: there is no tape, or a line of
the input has no bytes. -/
inductive Machine.Fault.OfRun (host : Host) (source : Source) (size : Int) : Machine.Fault → Prop
  | refused {fault : Machine.Fault} : Machine.Refused host.room size fault →
      OfRun host source size fault
  | unencodable {i point first last : Nat} :
      source.reading i = .failure (.unencodable point first last) →
      OfRun host source size (.source (.unencodable point first last))

theorem runCode_error {code : Code} (unfailing : code.Unfailing) {host : Host} {source : Source}
    (answers : source.Open) {size : Int} (positive : 0 < size) {steps : Nat} {error : RunError}
    (failed : runCode host steps code source size = some (.error error)) :
    ∃ fault, error = .fault fault ∧ fault.OfRun host source size := by
  obtain ⟨result, produced, same⟩ := Option.map_eq_some_iff.1 failed
  cases result with
  | ok bytes => cases same
  | error fault =>
      cases same
      rcases Machine.output_error unfailing positive produced with
        refused | ⟨cause, i, rfl, failure⟩
      · exact ⟨fault, rfl, .refused refused⟩
      · cases cause with
        | closed => exact absurd failure (answers i)
        | unencodable point first last => exact ⟨_, rfl, .unencodable failure⟩

/-- The errors that a program can end with on a source that refuses no read. -/
inductive RunError.OfProgram (host : Host) (program : String) (source : Source) (size : Int) :
    RunError → Prop
  | mistake (mistake : Program.Mistake) (line : Nat) :
      OfProgram host program source size (.compilation (.refused (.mistake mistake line)))
  /-- A number with too many digits stands right behind `=`. -/
  | longNumeral {count : Nat} {before after : List Program.Token} {first second : Program.Token} :
      Program.tokens program.toList = before ++ first :: second :: after →
      first.symbol = .assign → Program.Parser.LongNumeral count second →
      OfProgram host program source size (.compilation (.refused (.longNumeral count)))
  | deep {error : Compilation.Error} : Compilation.Deep host program error →
      OfProgram host program source size (.compilation error)
  | fault {fault : Machine.Fault} : fault.OfRun host source size →
      OfProgram host program source size (.fault fault)

/-- The errors that raw code can end with on a source that refuses no read. -/
inductive RunError.OfText (host : Host) (source : Source) (size : Int) : RunError → Prop
  | imbalance (imbalance : Imbalance) : OfText host source size (.imbalance imbalance)
  | fault {fault : Machine.Fault} : fault.OfRun host source size →
      OfText host source size (.fault fault)

/-- A run on a source that refuses no read ends with an output or does not end, unless it is refused:
a program for a mistake, for a long numeral behind `=` or for nesting deeper than the stacks are sure
to hold, raw code for its brackets, and both when there is no tape, or when a line of the input has
no bytes. -/
theorem run_error (host : Host) {source : Source} (answers : source.Open) {size : Int}
    (positive : 0 < size) (steps : Nat) :
    (∀ (program : Text) error,
      runProgram host steps program.chars source size = some (.error error) →
        error.OfProgram host program.chars source size) ∧
    ∀ text error, runText host steps text source size = some (.error error) →
      error.OfText host source size := by
  constructor
  · intro program error failed
    unfold runProgram at failed
    rcases Compilation.ofSource_cases host program false with ⟨refusal, names, parsed, refused⟩ |
      ⟨compilation, compiled, unfailing⟩ | ⟨cause, stopped, deep, -⟩
    · rw [refused] at failed
      cases failed
      cases refusal with
      | mistake mistake line => exact .mistake mistake line
      | longNumeral count =>
          -- the parser does not start behind a `=`
          rcases Program.Parser.longNumeral_of_run parsed with ⟨_, _, _, _, _, _, stage⟩ |
            ⟨before, first, second, after, tokens, assign, long⟩
          · cases stage
          · exact .longNumeral tokens assign long
    · rw [compiled] at failed
      obtain ⟨fault, rfl, ofRun⟩ := runCode_error unfailing answers positive failed
      exact .fault ofRun
    · rw [stopped] at failed
      cases failed
      exact .deep deep
  · intro text error failed
    unfold runText at failed
    cases read : Code.ofText text with
    | error imbalance =>
        rw [read] at failed
        cases failed
        exact .imbalance imbalance
    | ok code =>
        rw [read] at failed
        obtain ⟨fault, rfl, ofRun⟩ :=
          runCode_error (Code.unfailing_of_ofText read) answers positive failed
        exact .fault ofRun

theorem run_error_refused :
    Source.empty.Open ∧ (0 : Int) < 1 ∧
      (∃ error, runProgram .ample 9 "a=a;" .empty 1 = some (.error error) ∧
        error.OfProgram .ample "a=a;" .empty 1) ∧
      ∃ error, runText .ample 9 "[.]]" .empty 1 = some (.error error) ∧
        error.OfText .ample .empty 1 := by
  have tokens : Program.tokens "a=a;".toList = ["a", "=", "a", ";"].map fun text => ⟨text, 1⟩ := by
    decide +kernel
  have parsed : Program.parse "a=a;" {} =
      (.error (.mistake (.repeated "a") 1), ⟨[("a", 0)], 1⟩) := by
    rw [Program.parse, tokens]
    rfl
  have failed : runProgram .ample 9 "a=a;" .empty 1 =
      some (.error (.compilation (.refused (.mistake (.repeated "a") 1)))) := by
    rw [runProgram, Compilation.ofSource, parsed]
    rfl
  have safe := run_error .ample Source.open_empty (show (0 : Int) < 1 by decide) 9
  exact ⟨Source.open_empty, by decide, ⟨_, failed, safe.1 ⟨"a=a;", by decide⟩ _ failed⟩,
    _, rfl, safe.2 "[.]]" _ rfl⟩

/-- A tape whose size is no index is refused, also for a program that does nothing. -/
theorem hugeTape_refused :
    0 < Memory.indexLimit ∧
      runProgram .ample 9 "" .empty Memory.indexLimit = some (.error (.fault .dimension)) ∧
      runText .ample 9 "" .empty Memory.indexLimit = some (.error (.fault .dimension)) :=
  ⟨by decide, rfl, rfl⟩

end ByteTape

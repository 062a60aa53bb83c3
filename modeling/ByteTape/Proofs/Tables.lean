import ByteTape.Proofs.Faults
import ByteTape.Proofs.Naming

/-!
# Tables of names

A table of names is used again and again: names are looked up in it and sources are parsed with it,
some of which are refused halfway. It only ever grows at its end, and it stays a numbered list of
distinct names.

* `Use`: one use of a table.
* `names_of_run`: what every step of the parser preserves holds of the names it leaves, also when
  the source is refused.
* `Orderly.after`: every use keeps a table orderly; `entries_prefix_after`: and continues it.
* `table_numbered`: the table after any uses, and the blocks parsed with it.
-/

namespace ByteTape

theorem Block.Proper.of_mem_commands {names : Program.Names} {block : Block}
    (proper : block.Proper names) {command : Command} (member : command ∈ block.commands) :
    command.Proper names := by
  induction block with
  | nil => cases member
  | command head rest ih =>
      rcases List.mem_cons.1 member with rfl | member
      · exact proper.1
      · exact ih proper.2 member
  | loop cell body rest ihBody ihRest =>
      rcases List.mem_append.1 member with member | member
      · exact ihBody proper.2.1 member
      · exact ihRest proper.2.2 member

namespace Program

/-! ## What the parser leaves -/

namespace Names

theorem entries_prefix_cell (names : Names) (name : String) :
    names.entries <+: (names.cell name).2.entries := by
  unfold Names.cell
  cases names.find? name with
  | some place => exact List.prefix_rfl
  | none => exact List.prefix_append _ _

/-- An orderly table is a list of names with their positions. -/
theorem Orderly.entries_eq_zipIdx {names : Names} (orderly : names.Orderly) :
    names.entries = (names.entries.map Prod.fst).zipIdx := by
  have positions : (List.range names.next) = List.range' 0 names.entries.length := by
    rw [orderly.length_entries, List.range_eq_range']
  rw [List.zipIdx_eq_zip_range', List.length_map, ← positions, ← orderly.cells]
  exact List.zip_of_prod rfl rfl

end Names

namespace Parser

/-- What every step preserves holds of a state with the names that are left, also when the source is
refused. -/
theorem names_of_run (invariant : State → Prop)
    (step : ∀ {s symbol next}, Taken s symbol next → invariant s → invariant next) {s : State}
    (start : invariant s) (last : Nat) (tokens : List Token) :
    ∃ final, invariant final ∧ (run s last tokens).2 = final.names := by
  induction tokens generalizing s last with
  | nil => exact ⟨s, start, rfl⟩
  | cons token rest ih =>
      rw [run]
      cases stepped : s.step token.symbol with
      | ok next => exact ih (step (taken_of_step stepped) start) token.line
      | error objection => exact ⟨s, start, rfl⟩

theorem entries_prefix_takeOperand (s : State) (dest : String) (make : Int → Command)
    (name : String) : s.names.entries <+: (s.takeOperand dest make name).names.entries := by
  unfold State.takeOperand
  split
  · exact List.prefix_rfl
  · exact s.names.entries_prefix_cell name

theorem Taken.entries_prefix {s next : State} {symbol : Symbol} (taken : Taken s symbol next) :
    s.names.entries <+: next.names.entries := by
  cases taken with
  | dest name => exact s.names.entries_prefix_cell name
  | close => exact s.names.entries_prefix_cell _
  | printEnd => exact s.names.entries_prefix_cell _
  | inputEnd => exact s.names.entries_prefix_cell _
  | addend name => exact entries_prefix_takeOperand s ..
  | subtrahend name => exact entries_prefix_takeOperand s ..
  | operand name => exact entries_prefix_takeOperand s ..
  | _ => exact List.prefix_rfl

end Parser

/-! ## Using a table -/

/-- One use of a table of names. -/
inductive Use
  | look (name : String)
  | parse (source : String)
deriving DecidableEq, Repr

/-- The table after a use of it. -/
def Use.after (names : Names) : Use → Names
  | look name => (names.cell name).2
  | parse source => (Program.parse source names).2

/-- The table after some uses, beginning with an empty one. -/
def Names.afterAll (uses : List Use) : Names := uses.foldl Use.after {}

theorem Names.Orderly.after {names : Names} (orderly : names.Orderly) (use : Use) :
    (use.after names).Orderly := by
  cases use with
  | look name => exact orderly.cell name
  | parse source =>
      have start : Parser.State.Orderly { names } :=
        ⟨orderly, trivial, trivial, fun _ member => absurd member List.not_mem_nil⟩
      obtain ⟨final, kept, left⟩ :=
        Parser.names_of_run _ Parser.Taken.orderly start 1 (tokens source.toList)
      show (Parser.run _ _ _).2.Orderly
      rw [left]
      exact kept.names

theorem Names.orderly_foldl {names : Names} (orderly : names.Orderly) (uses : List Use) :
    (uses.foldl Use.after names).Orderly := by
  induction uses generalizing names with
  | nil => exact orderly
  | cons use rest ih => exact ih (orderly.after use)

theorem entries_prefix_after (names : Names) (use : Use) :
    names.entries <+: (use.after names).entries := by
  cases use with
  | look name => exact names.entries_prefix_cell name
  | parse source =>
      obtain ⟨final, kept, left⟩ := Parser.names_of_run (fun s => names.entries <+: s.names.entries)
        (fun taken before => before.trans taken.entries_prefix) (s := { names }) List.prefix_rfl 1
        (tokens source.toList)
      show _ <+: (Parser.run _ _ _).2.entries
      rw [left]
      exact kept

/-- After any uses, a table is a list of distinct names, numbered from zero on, and the next use
continues it. A block that is parsed with it stands on cells of names, and no command of it uses one
cell for both sides. -/
theorem table_numbered (uses : List Use) :
    let names := Names.afterAll uses
    (∃ listed : List String, listed.Nodup ∧ names.entries = listed.zipIdx ∧
      names.next = listed.length) ∧
    (∀ name other place, names.find? name = some place → names.find? other = some place →
      name = other) ∧
    (∀ use : Use, names.entries <+: (use.after names).entries) ∧
    ∀ source block after, parse source names = (.ok block, after) →
      (∀ cell ∈ block.cells, ∃ (name : String) (place : Nat),
        after.find? name = some place ∧ cell = place) ∧
      ∀ dest operand, (.copy dest operand ∈ block.commands ∨ .add dest operand ∈ block.commands ∨
        .sub dest operand ∈ block.commands) → dest ≠ operand := by
  intro names
  have orderly : names.Orderly := Names.orderly_foldl Names.orderly_empty uses
  refine ⟨⟨names.entries.map Prod.fst, orderly.distinct, orderly.entries_eq_zipIdx, ?_⟩,
    fun _ _ _ => Names.find?_inj orderly, entries_prefix_after names, ?_⟩
  · rw [List.length_map, orderly.length_entries]
  · intro source block after parsed
    have proper := (parse_proper orderly parsed).2
    refine ⟨proper.holds, fun dest operand member => ?_⟩
    rcases member with member | member | member
    · exact (proper.of_mem_commands member).2.2
    · exact (proper.of_mem_commands member).2.2
    · exact (proper.of_mem_commands member).2.2

/-- The names of a source that is refused at its end stay, and a loop that follows continues the
table with its own. -/
theorem table_numbered_refused :
    let uses : List Use := [.look "x", .parse "a = b"]
    let source := "while c != 0 \x7b a += x; \x7d"
    let names := Names.afterAll uses
    let after : Names := ⟨[("x", 0), ("a", 1), ("b", 2), ("c", 3)], 4⟩
    let block : Block := .loop 3 (.command (.add 1 0) .nil) .nil
    parse source names = (.ok block, after) ∧ names.entries <+: after.entries ∧
      (∀ cell ∈ block.cells, ∃ (name : String) (place : Nat),
        after.find? name = some place ∧ cell = place) ∧ (1 : Int) ≠ 0 := by
  intro uses source names after block
  have lexed : tokens "a = b".toList = ["a", "=", "b"].map fun text => ⟨text, 1⟩ := by
    decide +kernel
  have refused : Program.parse "a = b" ⟨[("x", 0)], 1⟩ =
      (.error (.mistake .semicolon 1), ⟨[("x", 0), ("a", 1), ("b", 2)], 3⟩) := by
    rw [Program.parse, lexed]
    rfl
  have table : names = ⟨[("x", 0), ("a", 1), ("b", 2)], 3⟩ := congrArg Prod.snd refused
  have lexed' : tokens source.toList =
      ["while", "c", "!=", "0", "\x7b", "a", "+=", "x", ";", "\x7d"].map fun text => ⟨text, 1⟩ := by
    decide +kernel
  have parsed : Program.parse source names = (.ok block, after) := by
    rw [table, Program.parse, lexed']
    rfl
  obtain ⟨-, -, continued, stands⟩ := table_numbered uses
  have further := continued (.parse source)
  rw [show Use.after _ (.parse source) = after from congrArg Prod.snd parsed] at further
  obtain ⟨held, apart⟩ := stands source block after parsed
  exact ⟨parsed, further, held, apart 1 0 (.inr (.inl (.head _)))⟩

end Program

end ByteTape

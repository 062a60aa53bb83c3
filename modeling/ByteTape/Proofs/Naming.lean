import ByteTape.Proofs.Parsing

/-!
# Names and cells

Every name has a cell of its own, and the parser uses no other cells.

* `Names.Orderly`: the names of a table are distinct, and their cells are counted from zero.
* `Names.find?_inj`: so different names have different cells.
* `Block.Proper`: every command of a block stands on cells of a table, has a constant that is a
  byte, and does not use one cell twice.
* `parse_proper`: what is parsed is proper.
* `next_le_of_run`: a token brings one new name at most.
-/

namespace ByteTape

namespace Program.Names

/-- Distinct names, with the cells from zero on in the order of the names. -/
structure Orderly (names : Names) : Prop where
  cells : names.entries.map Prod.snd = List.range names.next
  distinct : (names.entries.map Prod.fst).Nodup

theorem orderly_empty : Orderly {} := ⟨rfl, List.nodup_nil⟩

variable {names : Names} {name other : String} {place : Nat}

theorem find?_cell (names : Names) (name : String) :
    (names.cell name).2.find? name = some (names.cell name).1 := by
  unfold Names.cell
  cases found : names.find? name with
  | some place => exact found
  | none =>
      show (names.entries ++ [(name, names.next)]).lookup name = _
      rw [List.lookup_append, show names.entries.lookup name = none from found]
      simp

/-- A name keeps its cell. -/
theorem find?_cell_of_find? (known : names.find? other = some place) (name : String) :
    (names.cell name).2.find? other = some place := by
  unfold Names.cell
  cases names.find? name with
  | some _ => exact known
  | none =>
      show (names.entries ++ [(name, names.next)]).lookup other = _
      rw [List.lookup_append, show names.entries.lookup other = some place from known]
      rfl

theorem Orderly.cell (orderly : names.Orderly) (name : String) : (names.cell name).2.Orderly := by
  unfold Names.cell
  cases found : names.find? name with
  | some place => exact orderly
  | none =>
      have fresh : name ∉ names.entries.map Prod.fst := by
        intro member
        obtain ⟨entry, inside, same⟩ := List.mem_map.1 member
        have differs := List.lookup_eq_none_iff.1 found entry inside
        rw [same, bne_self_eq_false] at differs
        cases differs
      constructor
      · simp [orderly.cells, List.range_succ]
      · rw [List.map_append, List.nodup_append]
        refine ⟨orderly.distinct, by simp, fun known member new isNew same => ?_⟩
        have equal : known = name := same.trans (List.mem_singleton.1 isNew)
        exact fresh (equal ▸ member)

/-- The cell of a name is its position in the table. -/
theorem getElem?_of_find? (orderly : names.Orderly) (found : names.find? name = some place) :
    names.entries[place]? = some (name, place) := by
  obtain ⟨before, after, split, _⟩ := List.lookup_eq_some_iff.1 found
  have cells := orderly.cells
  have here : (names.entries.map Prod.snd)[before.length]? = some place := by simp [split]
  rw [cells] at here
  obtain ⟨_, same⟩ := List.getElem?_eq_some_iff.1 here
  rw [List.getElem_range] at same
  subst same
  simp [split]

/-- Different names have different cells. -/
theorem find?_inj (orderly : names.Orderly) (one : names.find? name = some place)
    (another : names.find? other = some place) : name = other := by
  have first := getElem?_of_find? orderly one
  rw [getElem?_of_find? orderly another] at first
  exact (Prod.mk.inj (Option.some.inj first)).1.symm

/-- A cell that belongs to a name. -/
def Holds (names : Names) (cell : Int) : Prop :=
  ∃ (name : String) (place : Nat), names.find? name = some place ∧ cell = place

/-- A table that has all entries of another. -/
def Extends (names earlier : Names) : Prop :=
  ∀ (name : String) (place : Nat), earlier.find? name = some place → names.find? name = some place

theorem Holds.extend {earlier : Names} {cell : Int} (holds : earlier.Holds cell)
    (more : names.Extends earlier) : names.Holds cell := by
  obtain ⟨name, place, found, same⟩ := holds
  exact ⟨name, place, more name place found, same⟩

theorem Holds.natural {cell : Int} (holds : names.Holds cell) : 0 ≤ cell := by
  obtain ⟨_, place, _, rfl⟩ := holds
  exact Int.natCast_nonneg place

theorem extends_cell (names : Names) (name : String) : (names.cell name).2.Extends names :=
  fun _ _ known => find?_cell_of_find? known name

theorem holds_cell (names : Names) (name : String) :
    (names.cell name).2.Holds (names.cell name).1 :=
  ⟨name, _, find?_cell names name, rfl⟩

theorem Orderly.length_entries (orderly : names.Orderly) : names.entries.length = names.next := by
  rw [← List.length_map Prod.snd, orderly.cells, List.length_range]

theorem Holds.lt_next (orderly : names.Orderly) {cell : Int} (holds : names.Holds cell) :
    cell < names.next := by
  obtain ⟨name, place, found, rfl⟩ := holds
  obtain ⟨inside, _⟩ := List.getElem?_eq_some_iff.1 (getElem?_of_find? orderly found)
  rw [orderly.length_entries] at inside
  exact Int.ofNat_lt.2 inside

theorem next_cell_le (names : Names) (name : String) :
    (names.cell name).2.next ≤ names.next + 1 := by
  unfold Names.cell
  split
  · exact Nat.le_succ _
  · exact Nat.le_refl _

end Program.Names

open Program

/-! ## Proper blocks -/

/-- A command on cells of a table, with nothing that could be objected to. -/
def Command.Proper (names : Names) : Command → Prop
  | .set cell value => names.Holds cell ∧ 0 ≤ value ∧ value ≤ 255
  | .copy dest source => names.Holds dest ∧ names.Holds source ∧ dest ≠ source
  | .add dest operand => names.Holds dest ∧ names.Holds operand ∧ dest ≠ operand
  | .sub dest operand => names.Holds dest ∧ names.Holds operand ∧ dest ≠ operand
  | .print cell => names.Holds cell
  | .input cell => names.Holds cell
  | .unknown _ => False

theorem Command.Proper.extend {names earlier : Names} {command : Command}
    (proper : command.Proper earlier) (more : names.Extends earlier) : command.Proper names := by
  cases command with
  | set cell value => exact ⟨proper.1.extend more, proper.2⟩
  | copy dest source => exact ⟨proper.1.extend more, proper.2.1.extend more, proper.2.2⟩
  | add dest operand => exact ⟨proper.1.extend more, proper.2.1.extend more, proper.2.2⟩
  | sub dest operand => exact ⟨proper.1.extend more, proper.2.1.extend more, proper.2.2⟩
  | print cell => exact Names.Holds.extend proper more
  | input cell => exact Names.Holds.extend proper more
  | unknown name => exact proper.elim

theorem Command.Proper.holds {names : Names} {command : Command} (proper : command.Proper names) :
    ∀ cell ∈ command.cells, names.Holds cell := by
  cases command with
  | set cell value => simpa [Command.cells] using proper.1
  | copy dest source => simpa [Command.cells] using ⟨proper.1, proper.2.1⟩
  | add dest operand => simpa [Command.cells] using ⟨proper.1, proper.2.1⟩
  | sub dest operand => simpa [Command.cells] using ⟨proper.1, proper.2.1⟩
  | print cell => simpa [Command.cells, Command.Proper] using proper
  | input cell => simpa [Command.cells, Command.Proper] using proper
  | unknown name => exact proper.elim

namespace Block

/-- Proper commands, and loops on cells of the table. -/
def Proper (names : Names) : Block → Prop
  | nil => True
  | command head rest => head.Proper names ∧ rest.Proper names
  | loop cell body rest => names.Holds cell ∧ body.Proper names ∧ rest.Proper names

theorem Proper.extend {names earlier : Names} {block : Block} (proper : block.Proper earlier)
    (more : names.Extends earlier) : block.Proper names := by
  induction block with
  | nil => trivial
  | command head rest ih => exact ⟨proper.1.extend more, ih proper.2⟩
  | loop cell body rest ihBody ihRest =>
      exact ⟨proper.1.extend more, ihBody proper.2.1, ihRest proper.2.2⟩

theorem Proper.reverseOnto {names : Names} {block tail : Block} (proper : block.Proper names)
    (properTail : tail.Proper names) : (block.reverseOnto tail).Proper names := by
  induction block generalizing tail with
  | nil => exact properTail
  | command head rest ih => exact ih proper.2 ⟨proper.1, properTail⟩
  | loop cell body rest _ ih => exact ih proper.2.2 ⟨proper.1, proper.2.1, properTail⟩

theorem Proper.reverse {names : Names} {block : Block} (proper : block.Proper names) :
    block.reverse.Proper names :=
  proper.reverseOnto trivial

theorem Proper.holds {names : Names} {block : Block} (proper : block.Proper names) :
    ∀ cell ∈ block.cells, names.Holds cell := by
  induction block with
  | nil => exact fun _ member => absurd member List.not_mem_nil
  | command head rest ih =>
      intro cell member
      rcases List.mem_append.1 member with member | member
      · exact proper.1.holds cell member
      · exact ih proper.2 cell member
  | loop cell body rest ihBody ihRest =>
      intro other member
      rcases List.mem_append.1 member with member | member
      · rcases List.mem_cons.1 member with rfl | member
        · exact proper.1
        · exact ihBody proper.2.1 other member
      · exact ihRest proper.2.2 other member

/-- The cells of names are not negative. -/
theorem Proper.natural {names : Names} {block : Block} (proper : block.Proper names) :
    ∀ cell ∈ block.cells, 0 ≤ cell :=
  fun cell member => (proper.holds cell member).natural

end Block

/-! ## What the parser keeps -/

namespace Program.Parser

/-- A left side that has been given its cell, or a command that is proper. -/
def Stage.Orderly (names : Names) : Stage → Prop
  | .operator name cell => names.find? name = some cell
  | .addend name cell => names.find? name = some cell
  | .subtrahend name cell => names.find? name = some cell
  | .operand name cell => names.find? name = some cell
  | .commandEnd command => command.Proper names
  | _ => True

structure State.Orderly (s : State) : Prop where
  names : s.names.Orderly
  stage : s.stage.Orderly s.names
  block : s.block.Proper s.names
  outer : ∀ level ∈ s.outer, level.2.Proper s.names

namespace State.Orderly

variable {s : State}

/-- A name that is looked up may get a cell; nothing else changes. -/
theorem named (orderly : s.Orderly) (name : String) :
    (s.names.cell name).2.Orderly ∧ s.block.Proper (s.names.cell name).2 ∧
      ∀ level ∈ s.outer, level.2.Proper (s.names.cell name).2 :=
  have more := s.names.extends_cell name
  ⟨orderly.names.cell name, orderly.block.extend more,
    fun level member => (orderly.outer level member).extend more⟩

/-- A stage that asks for no cell. -/
theorem at_stage (orderly : s.Orderly) {stage : Stage} (fits : stage.Orderly s.names) :
    { s with stage }.Orderly :=
  ⟨orderly.names, fits, orderly.block, orderly.outer⟩

theorem emit (orderly : s.Orderly) {command : Command} (proper : command.Proper s.names) :
    (s.emit command).Orderly :=
  ⟨orderly.names, trivial, ⟨proper, orderly.block⟩, orderly.outer⟩

theorem emit_named (orderly : s.Orderly) (name : String) {make : Int → Command}
    (makes : ∀ {names : Names} {cell : Int}, names.Holds cell → (make cell).Proper names) :
    ({ s with names := (s.names.cell name).2 }.emit (make (s.names.cell name).1)).Orderly := by
  obtain ⟨names, block, outer⟩ := orderly.named name
  exact ⟨names, trivial, ⟨makes (s.names.holds_cell name), block⟩, outer⟩

theorem takeOperand (orderly : s.Orderly) {dest : String} {cell : Nat}
    (known : s.names.find? dest = some cell) (make : Int → Command)
    (makes : ∀ {names : Names} {operand : Int}, names.Holds cell → names.Holds operand →
      (cell : Int) ≠ operand → (make operand).Proper names) (name : String) :
    (s.takeOperand dest make name).Orderly := by
  unfold State.takeOperand
  split
  next => exact orderly.at_stage trivial
  next differs =>
    obtain ⟨names, block, outer⟩ := orderly.named name
    have kept := Names.find?_cell_of_find? known name
    -- one cell for both would make them one name
    have distinct : (cell : Int) ≠ (s.names.cell name).1 := by
      intro same
      have found := s.names.find?_cell name
      rw [← Int.ofNat.inj same] at found
      exact differs (Names.find?_inj names found kept)
    exact ⟨names, makes ⟨dest, cell, kept, rfl⟩ (s.names.holds_cell name) distinct, block, outer⟩

end State.Orderly

/-- Every step keeps a state orderly. -/
theorem Taken.orderly {s next : State} {symbol : Symbol} (taken : Taken s symbol next)
    (orderly : s.Orderly) : next.Orderly := by
  have fits := orderly.stage
  cases taken with
  | print => exact orderly.at_stage trivial
  | input => exact orderly.at_stage trivial
  | loop => exact orderly.at_stage trivial
  | dest name =>
      obtain ⟨names, block, outer⟩ := orderly.named name
      exact ⟨names, s.names.find?_cell name, block, outer⟩
  | @close name before outer _ levels =>
      obtain ⟨names, block, properOuter⟩ := orderly.named name
      rw [levels] at properOuter
      refine ⟨names, trivial, ⟨s.names.holds_cell name, block.reverse, ?_⟩, fun level member => ?_⟩
      · exact properOuter _ (.head _)
      · exact properOuter level (.tail _ member)
  | printName name => exact orderly.at_stage trivial
  | printEnd => exact orderly.emit_named _ id
  | inputName name => exact orderly.at_stage trivial
  | inputEnd => exact orderly.emit_named _ id
  | addAssign stage =>
      rw [stage] at fits
      exact orderly.at_stage fits
  | subAssign stage =>
      rw [stage] at fits
      exact orderly.at_stage fits
  | assign stage =>
      rw [stage] at fits
      exact orderly.at_stage fits
  | @addend dest cell name stage =>
      rw [stage] at fits
      exact orderly.takeOperand fits (.add cell) (fun dest operand distinct =>
        ⟨dest, operand, distinct⟩) name
  | @subtrahend dest cell name stage =>
      rw [stage] at fits
      exact orderly.takeOperand fits (.sub cell) (fun dest operand distinct =>
        ⟨dest, operand, distinct⟩) name
  | @operand dest cell name stage =>
      rw [stage] at fits
      exact orderly.takeOperand fits (.copy cell) (fun dest operand distinct =>
        ⟨dest, operand, distinct⟩) name
  | @number dest cell digits stage _ small =>
      rw [stage] at fits
      exact orderly.at_stage ⟨⟨dest, cell, fits, rfl⟩, Int.natCast_nonneg _, Int.ofNat_le.2 small⟩
  | commandEnd stage =>
      rw [stage] at fits
      exact orderly.emit fits
  | whileName name => exact orderly.at_stage trivial
  | whileTest => exact orderly.at_stage trivial
  | whileZero => exact orderly.at_stage trivial
  | @whileBrace name _ =>
      refine ⟨orderly.names, trivial, trivial, fun level member => ?_⟩
      rcases List.mem_cons.1 member with rfl | member
      · exact orderly.block
      · exact orderly.outer level member

theorem next_takeOperand_le (s : State) (dest : String) (make : Int → Command) (name : String) :
    (s.takeOperand dest make name).names.next ≤ s.names.next + 1 := by
  unfold State.takeOperand
  split
  · exact Nat.le_succ _
  · exact s.names.next_cell_le name

theorem Taken.next_le {s next : State} {symbol : Symbol} (taken : Taken s symbol next) :
    next.names.next ≤ s.names.next + 1 := by
  cases taken with
  | dest name => exact s.names.next_cell_le name
  | close => exact s.names.next_cell_le _
  | printEnd => exact s.names.next_cell_le _
  | inputEnd => exact s.names.next_cell_le _
  | addend name => exact next_takeOperand_le s ..
  | subtrahend name => exact next_takeOperand_le s ..
  | operand name => exact next_takeOperand_le s ..
  | _ => exact Nat.le_succ _

/-- A token brings one new name at most. -/
theorem next_le_of_run {s : State} {last : Nat} {tokens : List Token} {block : Block}
    {names : Names} (done : run s last tokens = (.ok block, names)) :
    names.next ≤ s.names.next + tokens.length := by
  induction tokens generalizing s last with
  | nil =>
      obtain ⟨_, rfl⟩ := Prod.mk.inj done
      exact Nat.le_refl _
  | cons token rest ih =>
      rw [run] at done
      cases stepped : s.step token.symbol with
      | ok next =>
          rw [stepped] at done
          have one := (taken_of_step stepped).next_le
          have more := ih done
          rw [List.length_cons]
          omega
      | error objection =>
          rw [stepped] at done
          cases (Prod.mk.inj done).1

end Program.Parser

/-- What is parsed is proper, and the names stay orderly. -/
theorem Program.parse_proper {source : String} {earlier names : Names} {block : Block}
    (orderly : earlier.Orderly) (parsed : parse source earlier = (.ok block, names)) :
    names.Orderly ∧ block.Proper names := by
  have start : Parser.State.Orderly { names := earlier } :=
    ⟨orderly, trivial, trivial, fun _ member => absurd member List.not_mem_nil⟩
  obtain ⟨final, orderly, -, -, rfl, rfl⟩ := Parser.run_ok Parser.State.Orderly
    Parser.Taken.orderly parsed start
  exact ⟨orderly.names, orderly.block.reverse⟩

end ByteTape

import ByteTape.Program.Parser

/-!
# The steps of the parser

The parser takes one symbol after another. `Taken` lists all it can do with a symbol, so that what
holds of a parse is shown step by step, without looking at the parser again.

* `taken_of_step`: the parser does nothing else.
* `run_ok`: what every step preserves holds of the state in which a source ends.
* `longNumeral_of_run`: only a number behind `=` can be too long.
* `nesting_le_of_run`: a block nests no deeper than blocks were open while it was parsed.
-/

namespace ByteTape

namespace Program.Parser

/-- A state, a symbol and the state after it. -/
inductive Taken (s : State) : Symbol → State → Prop
  | print : s.stage = .start → Taken s .printKeyword { s with stage := .printName }
  | input : s.stage = .start → Taken s .inputKeyword { s with stage := .inputName }
  | loop : s.stage = .start → Taken s .whileKeyword { s with stage := .whileName }
  | dest (name : String) : s.stage = .start →
      Taken s (.name name)
        { s with stage := .operator name (s.names.cell name).1, names := (s.names.cell name).2 }
  | close {name : String} {before : Block} {outer : List (String × Block)} :
      s.stage = .start → s.outer = (name, before) :: outer →
      Taken s .closeBrace
        { block := .loop (s.names.cell name).1 s.block.reverse before, outer,
          names := (s.names.cell name).2 }
  | printName (name : String) : s.stage = .printName →
      Taken s (.name name) { s with stage := .printEnd name }
  | printEnd {name : String} : s.stage = .printEnd name →
      Taken s .semicolon
        ({ s with names := (s.names.cell name).2 }.emit (.print (s.names.cell name).1))
  | inputName (name : String) : s.stage = .inputName →
      Taken s (.name name) { s with stage := .inputEnd name }
  | inputEnd {name : String} : s.stage = .inputEnd name →
      Taken s .semicolon
        ({ s with names := (s.names.cell name).2 }.emit (.input (s.names.cell name).1))
  | addAssign {name : String} {cell : Nat} : s.stage = .operator name cell →
      Taken s .addAssign { s with stage := .addend name cell }
  | subAssign {name : String} {cell : Nat} : s.stage = .operator name cell →
      Taken s .subAssign { s with stage := .subtrahend name cell }
  | assign {name : String} {cell : Nat} : s.stage = .operator name cell →
      Taken s .assign { s with stage := .operand name cell }
  | addend {dest : String} {cell : Nat} (name : String) : s.stage = .addend dest cell →
      Taken s (.name name) (s.takeOperand dest (.add cell) name)
  | subtrahend {dest : String} {cell : Nat} (name : String) : s.stage = .subtrahend dest cell →
      Taken s (.name name) (s.takeOperand dest (.sub cell) name)
  | operand {dest : String} {cell : Nat} (name : String) : s.stage = .operand dest cell →
      Taken s (.name name) (s.takeOperand dest (.copy cell) name)
  | number {dest : String} {cell : Nat} {digits : String} : s.stage = .operand dest cell →
      digits.length ≤ Text.maxDigits → Text.decimalValue digits.toList ≤ 255 →
      Taken s (.number digits)
        { s with stage := .commandEnd (.set cell (Text.decimalValue digits.toList)) }
  | commandEnd {command : Command} : s.stage = .commandEnd command →
      Taken s .semicolon (s.emit command)
  | whileName (name : String) : s.stage = .whileName →
      Taken s (.name name) { s with stage := .whileTest name }
  | whileTest {name : String} : s.stage = .whileTest name →
      Taken s .notEqual { s with stage := .whileZero name }
  | whileZero {name : String} : s.stage = .whileZero name →
      Taken s (.number "0") { s with stage := .whileBrace name }
  | whileBrace {name : String} : s.stage = .whileBrace name →
      Taken s .openBrace
        { s with stage := .start, block := .nil, outer := (name, s.block) :: s.outer }

theorem taken_of_takeNumber {s next : State} {dest : String} {cell : Nat} {digits : String}
    (stage : s.stage = .operand dest cell) (took : s.takeNumber cell digits = .ok next) :
    Taken s (.number digits) next := by
  unfold State.takeNumber at took
  split at took
  next => cases took
  next short =>
    dsimp only at took
    split at took
    next => cases took
    next small =>
      cases took
      exact .number stage (Nat.not_lt.1 short) (Nat.not_lt.1 small)

theorem taken_of_closeLoop {s next : State} (stage : s.stage = .start)
    (closed : s.closeLoop = .ok next) : Taken s .closeBrace next := by
  unfold State.closeLoop at closed
  split at closed
  next => cases closed
  next level =>
    cases closed
    exact .close stage level

theorem taken_of_step {s next : State} {symbol : Symbol} (stepped : s.step symbol = .ok next) :
    Taken s symbol next := by
  unfold State.step at stepped
  split at stepped
  next stage =>
    cases stepped
    exact .print stage
  next stage =>
    cases stepped
    exact .input stage
  next stage =>
    cases stepped
    exact .loop stage
  next stage =>
    cases stepped
    exact .dest _ stage
  next stage => exact taken_of_closeLoop stage stepped
  next stage =>
    cases stepped
    exact .printName _ stage
  next stage =>
    cases stepped
    exact .printEnd stage
  next stage =>
    cases stepped
    exact .inputName _ stage
  next stage =>
    cases stepped
    exact .inputEnd stage
  next stage =>
    cases stepped
    exact .addAssign stage
  next stage =>
    cases stepped
    exact .subAssign stage
  next stage =>
    cases stepped
    exact .assign stage
  next stage =>
    cases stepped
    exact .addend _ stage
  next stage =>
    cases stepped
    exact .subtrahend _ stage
  next stage =>
    cases stepped
    exact .operand _ stage
  next stage => exact taken_of_takeNumber stage stepped
  next stage =>
    cases stepped
    exact .commandEnd stage
  next stage =>
    cases stepped
    exact .whileName _ stage
  next stage =>
    cases stepped
    exact .whileTest stage
  next stage =>
    cases stepped
    exact .whileZero stage
  next stage =>
    cases stepped
    exact .whileBrace stage
  next => cases stepped

/-- What every step preserves holds of the state in which a source ends. -/
theorem run_ok (invariant : State → Prop)
    (step : ∀ {s symbol next}, Taken s symbol next → invariant s → invariant next) {s : State}
    {last : Nat} {tokens : List Token} {block : Block} {names : Names}
    (done : run s last tokens = (.ok block, names)) (start : invariant s) :
    ∃ final, invariant final ∧ final.stage = .start ∧ final.outer = [] ∧
      block = final.block.reverse ∧ names = final.names := by
  induction tokens generalizing s last with
  | nil =>
      obtain ⟨ended, rfl⟩ := Prod.mk.inj done
      unfold State.finish at ended
      split at ended
      next stage outer => exact ⟨s, start, stage, outer, (Except.ok.inj ended).symm, rfl⟩
      next => cases ended
      next => cases ended
  | cons token rest ih =>
      rw [run] at done
      cases stepped : s.step token.symbol with
      | ok next =>
          rw [stepped] at done
          exact ih done (step (taken_of_step stepped) start)
      | error objection =>
          rw [stepped] at done
          cases (Prod.mk.inj done).1

/-! ## Long numerals -/

/-- A number with more digits than can be read. -/
def LongNumeral (count : Nat) (token : Token) : Prop :=
  ∃ digits, token.symbol = .number digits ∧ digits.length = count ∧ Text.maxDigits < count

theorem longNumeral_of_step {s : State} {symbol : Symbol} {count : Nat}
    (refused : s.step symbol = .error (.longNumeral count)) :
    ∃ digits, symbol = .number digits ∧ digits.length = count ∧ Text.maxDigits < count ∧
      ∃ dest cell, s.stage = .operand dest cell := by
  unfold State.step at refused
  split at refused <;> try cases refused
  next stage =>
    unfold State.closeLoop at refused
    split at refused <;> cases refused
  next dest cell digits stage =>
    unfold State.takeNumber at refused
    split at refused
    next long =>
      cases refused
      exact ⟨digits, rfl, rfl, long, dest, cell, stage⟩
    next =>
      dsimp only at refused
      split at refused <;> cases refused

/-- The parser waits for an operand only right behind `=`. -/
theorem assign_of_taken {s next : State} {symbol : Symbol} (taken : Taken s symbol next)
    {dest : String} {cell : Nat} (stage : next.stage = .operand dest cell) : symbol = .assign := by
  have operand : ∀ {other make name},
      (s.takeOperand other make name).stage ≠ .operand dest cell := by
    intro other make name
    unfold State.takeOperand
    split
    · exact nofun
    · exact nofun
  cases taken with
  | assign => rfl
  | addend => exact absurd stage operand
  | subtrahend => exact absurd stage operand
  | operand => exact absurd stage operand
  | _ => cases stage

/-- A source that is refused for a long numeral has one right behind `=`. -/
theorem longNumeral_of_run {s : State} {last count : Nat} {tokens : List Token} {names : Names}
    (refused : run s last tokens = (.error (.longNumeral count), names)) :
    (∃ token rest, tokens = token :: rest ∧ LongNumeral count token ∧
      ∃ dest cell, s.stage = .operand dest cell) ∨
    ∃ before first second after, tokens = before ++ first :: second :: after ∧
      first.symbol = .assign ∧ LongNumeral count second := by
  induction tokens generalizing s last with
  | nil =>
      have ended := (Prod.mk.inj refused).1
      cases found : s.finish with
      | ok block =>
          rw [found] at ended
          cases ended
      | error mistake =>
          rw [found] at ended
          cases ended
  | cons token rest ih =>
      rw [run] at refused
      cases stepped : s.step token.symbol with
      | error objection =>
          rw [stepped] at refused
          cases objection with
          | mistake mistake => cases (Prod.mk.inj refused).1
          | longNumeral digits =>
              cases (Prod.mk.inj refused).1
              obtain ⟨digits, number, length, long, stage⟩ := longNumeral_of_step stepped
              exact .inl ⟨token, rest, rfl, ⟨digits, number, length, long⟩, stage⟩
      | ok next =>
          rw [stepped] at refused
          right
          rcases ih refused with ⟨second, after, rfl, long, dest, cell, stage⟩ |
            ⟨before, first, second, after, rfl, assign, long⟩
          · have assign := assign_of_taken (taken_of_step stepped) stage
            exact ⟨[], token, second, after, rfl, assign, long⟩
          · exact ⟨token :: before, first, second, after, rfl, assign, long⟩

end Program.Parser

/-! ## Nesting -/

namespace Block

theorem nesting_reverseOnto (block tail : Block) :
    (block.reverseOnto tail).nesting = max block.nesting tail.nesting := by
  induction block generalizing tail with
  | nil => exact (Nat.zero_max _).symm
  | command head rest ih => exact ih (command head tail)
  | loop cell body rest _ ih =>
      rw [reverseOnto, ih, nesting, nesting]
      omega

theorem nesting_reverse (block : Block) : block.reverse.nesting = block.nesting := by
  rw [reverse, nesting_reverseOnto, nesting, Nat.max_zero]

end Block

namespace Program.Parser

/-- No loop of an open block, or of the blocks around it, is more than so many loops deep. -/
def Within (bound : Nat) (block : Block) : List (String × Block) → Prop
  | [] => block.nesting ≤ bound
  | (_, before) :: outer =>
      block.nesting + (outer.length + 1) ≤ bound ∧ Within bound before outer

theorem Within.command {bound : Nat} {block : Block} {outer : List (String × Block)}
    (within : Within bound block outer) (command : Command) :
    Within bound (.command command block) outer := by
  cases outer with
  | nil => exact within
  | cons level outer => exact within

/-- A loop that is closed is one loop deeper in the block that it then stands in. -/
theorem Within.close {bound : Nat} {name : String} {block before : Block}
    {outer : List (String × Block)} (within : Within bound block ((name, before) :: outer))
    (cell : Int) : Within bound (.loop cell block.reverse before) outer := by
  obtain ⟨inner, within⟩ := within
  cases outer with
  | nil =>
      have around : before.nesting ≤ bound := within
      rw [List.length_nil] at inner
      show (Block.loop cell block.reverse before).nesting ≤ bound
      rw [Block.nesting, Block.nesting_reverse]
      omega
  | cons level outer =>
      have around : before.nesting + (outer.length + 1) ≤ bound := within.1
      rw [List.length_cons] at inner
      refine ⟨?_, within.2⟩
      rw [Block.nesting, Block.nesting_reverse]
      omega

theorem Within.takeOperand {bound : Nat} {s : State} (within : Within bound s.block s.outer)
    (dest : String) (make : Int → Command) (name : String) :
    Within bound (s.takeOperand dest make name).block (s.takeOperand dest make name).outer := by
  unfold State.takeOperand
  split
  · exact within
  · exact within

theorem Taken.within {s next : State} {symbol : Symbol} (taken : Taken s symbol next) {bound : Nat}
    (within : Within bound s.block s.outer) (few : next.outer.length ≤ bound) :
    Within bound next.block next.outer := by
  cases taken with
  | close _ level =>
      rw [level] at within
      exact within.close _
  | printEnd => exact within.command _
  | inputEnd => exact within.command _
  | commandEnd => exact within.command _
  | addend name => exact within.takeOperand _ _ name
  | subtrahend name => exact within.takeOperand _ _ name
  | operand name => exact within.takeOperand _ _ name
  | whileBrace =>
      refine ⟨?_, within⟩
      rw [Block.nesting, Nat.zero_add]
      exact few
  | _ => exact within

theorem length_le_nesting (s : State) (tokens : List Token) : s.outer.length ≤ nesting s tokens := by
  cases tokens with
  | nil => exact Nat.le_refl _
  | cons token rest =>
      rw [nesting]
      cases s.step token.symbol with
      | ok next => exact Nat.le_max_left _ _
      | error objection => exact Nat.le_refl _

/-- A block nests no deeper than blocks were open while it was parsed. -/
theorem nesting_le_of_run {s : State} {last bound : Nat} {tokens : List Token} {block : Block}
    {names : Names} (done : run s last tokens = (.ok block, names))
    (within : Within bound s.block s.outer) (shallow : nesting s tokens ≤ bound) :
    block.nesting ≤ bound := by
  induction tokens generalizing s last with
  | nil =>
      obtain ⟨ended, -⟩ := Prod.mk.inj done
      unfold State.finish at ended
      split at ended
      next stage outer =>
        obtain rfl := Except.ok.inj ended
        rw [outer] at within
        rw [Block.nesting_reverse]
        exact within
      next => cases ended
      next => cases ended
  | cons token rest ih =>
      rw [run] at done
      rw [nesting] at shallow
      cases stepped : s.step token.symbol with
      | ok next =>
          rw [stepped] at done shallow
          have later : nesting next rest ≤ bound := Nat.le_trans (Nat.le_max_right _ _) shallow
          have few := Nat.le_trans (length_le_nesting next rest) later
          exact ih done ((taken_of_step stepped).within within few) later
      | error objection =>
          rw [stepped] at done
          cases (Prod.mk.inj done).1

end Program.Parser

/-- The block of a source nests as deep as the source at most. -/
theorem Program.nesting_le_of_parse {source : String} {block : Block} {names : Program.Names}
    (parsed : Program.parse source {} = (.ok block, names)) :
    block.nesting ≤ Program.nesting source :=
  Parser.nesting_le_of_run parsed (Nat.zero_le _) (Nat.le_refl _)

end ByteTape

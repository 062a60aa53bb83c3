import ByteTape.Proofs.Grammar

/-!
# Parsing and the grammar

The parser accepts the texts of programs and no others, and builds the program that they are the
texts of.

* `takes_phrase`: the parser takes the texts of a program wherever a statement can begin.
* `Closes`: the texts with which a source can end inside a number of open loops.
* `Stage.Owes`: what a stage leaves to the texts behind it; `owes_of_taken`: every step hands it on.
* `Derives.unique`: a list of texts has one derivation at most.
* `parse_ok_iff_derives`: a source is accepted if and only if its tokens have a derivation, and what
  is parsed is that derivation with every name replaced by its cell.
-/

namespace ByteTape

theorem Block.reverse_reverseOnto (block tail : Block) :
    (block.reverseOnto tail).reverse = tail.reverseOnto block := by
  induction block generalizing tail with
  | nil => rfl
  | command head rest ih => exact ih _
  | loop cell body rest _ ih => exact ih _

theorem Block.reverse_reverse (block : Block) : block.reverse.reverse = block :=
  block.reverse_reverseOnto .nil

namespace Program

/-- No number is too long to be read. -/
def ShortNumbers (texts : List String) : Prop :=
  ∀ text ∈ texts, isNumber text = true → text.length ≤ Text.maxDigits

namespace Parser

/-! ## Taking texts -/

/-- Takes texts one after another. -/
def State.takeAll (s : State) (texts : List String) : Except Objection State :=
  texts.foldlM (fun s text => s.step (.ofText text)) s

theorem State.takeAll_cons {s next : State} {text : String} {symbol : Symbol}
    (reads : Symbol.ofText text = symbol) (stepped : s.step symbol = .ok next)
    (texts : List String) : s.takeAll (text :: texts) = next.takeAll texts := by
  rw [takeAll, List.foldlM_cons, reads, stepped]
  rfl

theorem State.takeAll_cons_error {s : State} {text : String} {objection : Objection}
    (refused : s.step (.ofText text) = .error objection) (texts : List String) :
    s.takeAll (text :: texts) = .error objection := by
  rw [takeAll, List.foldlM_cons, refused]
  rfl

theorem State.takeAll_append {s next : State} {first : List String}
    (taken : s.takeAll first = .ok next) (second : List String) :
    s.takeAll (first ++ second) = next.takeAll second := by
  unfold takeAll at taken ⊢
  rw [List.foldlM_append, taken]
  rfl

/-- A source is accepted if all its texts can be taken and it can end behind them. -/
theorem run_ok_iff {s : State} {last : Nat} {tokens : List Token} {block : Block} {names : Names} :
    run s last tokens = (.ok block, names) ↔
      ∃ final, s.takeAll (tokens.map Token.text) = .ok final ∧ final.finish = .ok block ∧
        final.names = names := by
  induction tokens generalizing s last with
  | nil =>
      have ends : s.finish.mapError (fun m => Refusal.mistake m last) = .ok block ↔
          s.finish = .ok block := by
        cases s.finish with
        | ok found =>
            exact ⟨fun same => congrArg _ (Except.ok.inj same),
              fun same => congrArg _ (Except.ok.inj same)⟩
        | error mistake => exact ⟨nofun, nofun⟩
      rw [run, Prod.mk.injEq, ends]
      constructor
      · rintro ⟨ended, names⟩
        exact ⟨s, rfl, ended, names⟩
      · rintro ⟨_, ⟨⟩, ended, names⟩
        exact ⟨ended, names⟩
  | cons token rest ih =>
      rw [run, List.map_cons]
      cases stepped : s.step token.symbol with
      | ok next =>
          rw [State.takeAll_cons rfl stepped]
          exact ih
      | error objection =>
          rw [State.takeAll_cons_error stepped]
          simp

theorem finish_ok_iff {s : State} {block : Block} :
    s.finish = .ok block ↔ s.stage = .start ∧ s.outer = [] ∧ block = s.block.reverse := by
  unfold State.finish
  split
  next stage outer => simp [stage, outer, eq_comm]
  next stage outer => simp [stage, outer]
  next started _ => exact ⟨nofun, fun ⟨stage, outer, _⟩ => (started stage outer).elim⟩

/-! ## The texts of a program are taken -/

/-- Behind an operator stands the name of another variable. -/
theorem takes_operand {s : State} {dest operand : String} {make : Int → Command}
    (isVariable : IsVariable operand) (differs : operand ≠ dest)
    (awaited : s.step (.name operand) = .ok (s.takeOperand dest make operand)) :
    s.takeAll [operand, ";"] =
      .ok ⟨.start, .command (make (s.names.cell operand).1) s.block, s.outer,
        (s.names.cell operand).2⟩ := by
  have taken : s.takeOperand dest make operand =
      { s with
        stage := .commandEnd (make (s.names.cell operand).1), names := (s.names.cell operand).2 } :=
    if_neg differs
  rw [taken] at awaited
  rw [State.takeAll_cons (Symbol.ofText_variable isVariable) awaited, State.takeAll_cons rfl rfl]
  rfl

/-- Behind `=` may stand a number. -/
theorem takes_number {s : State} {digits dest : String} {cell : Nat}
    (number : isNumber digits = true) (short : digits.length ≤ Text.maxDigits)
    (small : Text.decimalValue digits.toList ≤ 255) (stage : s.stage = .operand dest cell) :
    s.takeAll [digits, ";"] =
      .ok ⟨.start, .command (.set cell (Text.decimalValue digits.toList)) s.block, s.outer,
        s.names⟩ := by
  have stepped : s.step (.number digits) = .ok
      { s with stage := .commandEnd (.set cell (Text.decimalValue digits.toList)) } := by
    unfold State.step
    rw [stage]
    show s.takeNumber cell digits = _
    unfold State.takeNumber
    rw [if_neg (Nat.not_lt.2 short)]
    exact if_neg (Nat.not_lt.2 small)
  rw [State.takeAll_cons (Symbol.ofText_number number) stepped, State.takeAll_cons rfl rfl]
  rfl

theorem takes_statement {statement : Statement} {texts : List String}
    (derives : statement.Derives texts) (short : ShortNumbers texts) (block : Block)
    (outer : List (String × Block)) (names : Names) :
    ∃ command,
      State.takeAll ⟨.start, block, outer, names⟩ texts =
        .ok ⟨.start, .command command block, outer, names.enter statement.mentions⟩ ∧
      statement.place? (names.enter statement.mentions) = some command := by
  have known {dest operand : String} :
      ((names.cell dest).2.cell operand).2.find? dest = some (names.cell dest).1 :=
    Names.find?_cell_of_find? (names.find?_cell dest) operand
  cases derives with
  | @set dest digits isVariable number small =>
      refine ⟨.set (names.cell dest).1 (Text.decimalValue digits.toList), ?_, ?_⟩
      · rw [State.takeAll_cons (Symbol.ofText_variable isVariable) rfl, State.takeAll_cons rfl rfl]
        exact takes_number number (short digits (by simp) number) small rfl
      · simp [Statement.place?, Statement.mentions, Names.enter, Names.find?_cell]
  | @copy dest operand isVariable isOperand differs =>
      refine ⟨.copy (names.cell dest).1 ((names.cell dest).2.cell operand).1, ?_, ?_⟩
      · rw [State.takeAll_cons (Symbol.ofText_variable isVariable) rfl, State.takeAll_cons rfl rfl]
        exact takes_operand isOperand differs rfl
      · simp [Statement.place?, Statement.mentions, Names.enter, Names.find?_cell, known]
  | @add dest operand isVariable isOperand differs =>
      refine ⟨.add (names.cell dest).1 ((names.cell dest).2.cell operand).1, ?_, ?_⟩
      · rw [State.takeAll_cons (Symbol.ofText_variable isVariable) rfl, State.takeAll_cons rfl rfl]
        exact takes_operand isOperand differs rfl
      · simp [Statement.place?, Statement.mentions, Names.enter, Names.find?_cell, known]
  | @sub dest operand isVariable isOperand differs =>
      refine ⟨.sub (names.cell dest).1 ((names.cell dest).2.cell operand).1, ?_, ?_⟩
      · rw [State.takeAll_cons (Symbol.ofText_variable isVariable) rfl, State.takeAll_cons rfl rfl]
        exact takes_operand isOperand differs rfl
      · simp [Statement.place?, Statement.mentions, Names.enter, Names.find?_cell, known]
  | @print name isVariable =>
      refine ⟨.print (names.cell name).1, ?_, ?_⟩
      · rw [State.takeAll_cons rfl rfl, State.takeAll_cons (Symbol.ofText_variable isVariable) rfl,
          State.takeAll_cons rfl rfl]
        rfl
      · simp [Statement.place?, Statement.mentions, Names.enter, Names.find?_cell]
  | @input name isVariable =>
      refine ⟨.input (names.cell name).1, ?_, ?_⟩
      · rw [State.takeAll_cons rfl rfl, State.takeAll_cons (Symbol.ofText_variable isVariable) rfl,
          State.takeAll_cons rfl rfl]
        rfl
      · simp [Statement.place?, Statement.mentions, Names.enter, Names.find?_cell]

theorem takes_header {name : String} (isVariable : IsVariable name) (block : Block)
    (outer : List (String × Block)) (names : Names) :
    State.takeAll ⟨.start, block, outer, names⟩ ["while", name, "!=", "0", "\x7b"] =
      .ok ⟨.start, .nil, (name, block) :: outer, names⟩ := by
  rw [State.takeAll_cons rfl rfl, State.takeAll_cons (Symbol.ofText_variable isVariable) rfl,
    State.takeAll_cons rfl rfl, State.takeAll_cons rfl rfl, State.takeAll_cons rfl rfl]
  rfl

theorem step_closeBrace (name : String) (body before : Block) (outer : List (String × Block))
    (names : Names) :
    State.step ⟨.start, body.reverse, (name, before) :: outer, names⟩ .closeBrace =
      .ok ⟨.start, .loop (names.cell name).1 body before, outer, (names.cell name).2⟩ := by
  show Except.ok (State.mk .start (.loop (names.cell name).1 body.reverse.reverse before) outer
    (names.cell name).2) = _
  rw [Block.reverse_reverse]

/-- Where a statement can begin, the texts of a program are taken, and the program is put behind
what has been parsed. -/
theorem takes_phrase {phrase : Phrase} {texts : List String} (derives : phrase.Derives texts)
    (short : ShortNumbers texts) (block : Block) (outer : List (String × Block)) (names : Names) :
    ∃ placed,
      State.takeAll ⟨.start, block, outer, names⟩ texts =
        .ok ⟨.start, placed.reverseOnto block, outer, names.enter phrase.mentions⟩ ∧
      phrase.place? (names.enter phrase.mentions) = some placed := by
  induction derives generalizing block outer names with
  | nil => exact ⟨.nil, rfl, rfl⟩
  | @statement head rest first texts derives _ ih =>
      obtain ⟨command, taken, placed⟩ := takes_statement derives
        (fun text member => short text (List.mem_append_left _ member)) block outer names
      obtain ⟨later, takenRest, placedRest⟩ := ih
        (fun text member => short text (List.mem_append_right _ member)) (.command command block)
        outer (names.enter head.mentions)
      rw [Phrase.mentions, Names.enter_append]
      refine ⟨.command command later, ?_, ?_⟩
      · rw [State.takeAll_append taken, takenRest]
        rfl
      · have more := Statement.place?_extends
          ((names.enter head.mentions).extends_enter rest.mentions) placed
        simp [Phrase.place?, more, placedRest]
  | @loop name body rest inner texts isVariable _ _ ihBody ihRest =>
      obtain ⟨placedBody, takenBody, placed⟩ := ihBody
        (fun text member => short text (by simp [member])) .nil ((name, block) :: outer) names
      obtain ⟨later, takenRest, placedRest⟩ := ihRest
        (fun text member => short text (by simp [member]))
        (.loop ((names.enter body.mentions).cell name).1 placedBody block) outer
        ((names.enter body.mentions).cell name).2
      have mentions : names.enter (Phrase.loop name body rest).mentions =
          ((names.enter body.mentions).cell name).2.enter rest.mentions := by
        rw [Phrase.mentions, Names.enter_append]
        rfl
      rw [mentions]
      -- the body is parsed with the level around it put away, so it starts from an empty block
      refine ⟨.loop ((names.enter body.mentions).cell name).1 placedBody later, ?_, ?_⟩
      · rw [State.takeAll_append (takes_header isVariable block outer names),
          State.takeAll_append takenBody, State.takeAll_cons rfl (step_closeBrace ..), takenRest]
        rfl
      · have more := ((names.enter body.mentions).cell name).2.extends_enter rest.mentions
        have moreBody := more.trans ((names.enter body.mentions).extends_cell name)
        have found := more _ _ ((names.enter body.mentions).find?_cell name)
        simp [Phrase.place?, found, Phrase.place?_extends moreBody placed, placedRest]

/-! ## Nothing else is taken -/

/-- The texts with which a source can end inside a number of open loops. -/
def Closes : Nat → List String → Prop
  | 0, texts => ∃ phrase : Phrase, phrase.Derives texts
  | depth + 1, texts => ∃ (phrase : Phrase) (inner rest : List String),
      phrase.Derives inner ∧ texts = inner ++ "\x7d" :: rest ∧ Closes depth rest

theorem Closes.statement {depth : Nat} {texts first : List String} {statement : Statement}
    (derives : statement.Derives first) (closes : Closes depth texts) :
    Closes depth (first ++ texts) := by
  cases depth with
  | zero =>
      obtain ⟨phrase, behind⟩ := closes
      exact ⟨.statement statement phrase, .statement derives behind⟩
  | succ depth =>
      obtain ⟨phrase, inner, rest, behind, rfl, closes⟩ := closes
      refine ⟨.statement statement phrase, _, rest, .statement derives behind, ?_, closes⟩
      rw [List.append_assoc]

theorem Closes.loop {depth : Nat} {texts : List String} {name : String}
    (isVariable : IsVariable name) (closes : Closes (depth + 1) texts) :
    Closes depth ("while" :: name :: "!=" :: "0" :: "\x7b" :: texts) := by
  obtain ⟨body, inner, rest, inside, rfl, closes⟩ := closes
  cases depth with
  | zero =>
      obtain ⟨phrase, behind⟩ := closes
      exact ⟨.loop name body phrase, .loop isVariable inside behind⟩
  | succ depth =>
      obtain ⟨phrase, texts, rest, behind, rfl, closes⟩ := closes
      refine ⟨.loop name body phrase, _, rest, .loop isVariable inside behind, ?_, closes⟩
      simp

/-- What a stage leaves to the texts behind it: together with those that it stands behind they have
to close all open loops. -/
def Stage.Owes (depth : Nat) (texts : List String) : Stage → Prop
  | .start => Closes depth texts
  | .printName => Closes depth ("print" :: texts)
  | .printEnd name => IsVariable name → Closes depth ("print" :: name :: texts)
  | .inputName => Closes depth ("input" :: texts)
  | .inputEnd name => IsVariable name → Closes depth ("input" :: name :: texts)
  | .operator name _ => IsVariable name → Closes depth (name :: texts)
  | .addend name _ => IsVariable name → Closes depth (name :: "+=" :: texts)
  | .subtrahend name _ => IsVariable name → Closes depth (name :: "-=" :: texts)
  | .operand name _ => IsVariable name → Closes depth (name :: "=" :: texts)
  | .repeated _ => False
  | .commandEnd _ => ∃ rest, texts = ";" :: rest ∧ Closes depth rest
  | .whileName => Closes depth ("while" :: texts)
  | .whileTest name => IsVariable name → Closes depth ("while" :: name :: texts)
  | .whileZero name => IsVariable name → Closes depth ("while" :: name :: "!=" :: texts)
  | .whileBrace name => IsVariable name → Closes depth ("while" :: name :: "!=" :: "0" :: texts)

def State.Owes (s : State) (texts : List String) : Prop :=
  s.stage.Owes s.outer.length texts

/-- A variable that has been taken as operand ends a statement with its semicolon. -/
theorem owes_of_operand {s : State} {dest operand : String} {make : Int → Command}
    {texts : List String} (owes : (s.takeOperand dest make operand).Owes texts) :
    operand ≠ dest ∧ ∃ rest, texts = ";" :: rest ∧ Closes s.outer.length rest := by
  unfold State.takeOperand at owes
  split at owes
  next => exact owes.elim
  next differs => exact ⟨differs, owes⟩

/-- A step takes one text of what is owed. -/
theorem owes_of_taken {s next : State} {symbol : Symbol} {texts : List String}
    (taken : Taken s symbol next) (sound : symbol.Sound) (owes : next.Owes texts) :
    s.Owes (symbol.text :: texts) := by
  unfold State.Owes
  cases taken with
  | print stage => rw [stage]; exact owes
  | input stage => rw [stage]; exact owes
  | loop stage => rw [stage]; exact owes
  | dest name stage => rw [stage]; exact owes sound
  | close stage levels =>
      rw [stage, levels]
      exact ⟨.nil, [], texts, .nil, rfl, owes⟩
  | printName name stage => rw [stage]; exact owes sound
  | printEnd stage =>
      rw [stage]
      exact fun isVariable => Closes.statement (.print isVariable) owes
  | inputName name stage => rw [stage]; exact owes sound
  | inputEnd stage =>
      rw [stage]
      exact fun isVariable => Closes.statement (.input isVariable) owes
  | addAssign stage => rw [stage]; exact owes
  | subAssign stage => rw [stage]; exact owes
  | assign stage => rw [stage]; exact owes
  | addend name stage =>
      obtain ⟨differs, rest, rfl, closes⟩ := owes_of_operand owes
      rw [stage]
      exact fun isVariable => Closes.statement (.add isVariable sound differs) closes
  | subtrahend name stage =>
      obtain ⟨differs, rest, rfl, closes⟩ := owes_of_operand owes
      rw [stage]
      exact fun isVariable => Closes.statement (.sub isVariable sound differs) closes
  | operand name stage =>
      obtain ⟨differs, rest, rfl, closes⟩ := owes_of_operand owes
      rw [stage]
      exact fun isVariable => Closes.statement (.copy isVariable sound differs) closes
  | number stage _ small =>
      obtain ⟨rest, rfl, closes⟩ := owes
      rw [stage]
      exact fun isVariable => Closes.statement (.set isVariable sound small) closes
  | commandEnd stage =>
      rw [stage]
      exact ⟨texts, rfl, owes⟩
  | whileName name stage => rw [stage]; exact owes sound
  | whileTest stage => rw [stage]; exact owes
  | whileZero stage => rw [stage]; exact owes
  | whileBrace stage =>
      rw [stage]
      exact fun isVariable => Closes.loop isVariable owes

/-- Texts that lead to where a source can end are what is owed. -/
theorem owes_of_takeAll {s final : State} {texts : List String} {block : Block}
    (taken : s.takeAll texts = .ok final) (ended : final.finish = .ok block) : s.Owes texts := by
  induction texts generalizing s with
  | nil =>
      cases taken
      obtain ⟨stage, outer, _⟩ := finish_ok_iff.1 ended
      rw [State.Owes, stage, outer]
      exact ⟨.nil, .nil⟩
  | cons text rest ih =>
      cases stepped : s.step (.ofText text) with
      | ok next =>
          rw [State.takeAll_cons rfl stepped] at taken
          have owes := owes_of_taken (taken_of_step stepped) (Symbol.sound_ofText text) (ih taken)
          rw [Symbol.text_ofText] at owes
          exact owes
      | error objection =>
          rw [State.takeAll_cons_error stepped] at taken
          cases taken

end Parser

/-! ## Derivations -/

/-- A list of texts has one derivation at most. -/
theorem Phrase.Derives.unique {phrase other : Phrase} {texts : List String}
    (short : ShortNumbers texts) (derives : phrase.Derives texts) (derives' : other.Derives texts) :
    other = phrase := by
  obtain ⟨placed, taken, found⟩ := Parser.takes_phrase derives short .nil [] {}
  obtain ⟨placed', taken', found'⟩ := Parser.takes_phrase derives' short .nil [] {}
  -- the parser is a function of the texts, so both have the same cells in the same places
  obtain ⟨_, blocks, _, names⟩ := Parser.State.mk.inj (Except.ok.inj (taken.symm.trans taken'))
  have same : placed = placed' := by
    rw [← placed.reverse_reverse, ← placed'.reverse_reverse]
    exact congrArg Block.reverse blocks
  rw [← names, ← same] at found'
  exact Phrase.place?_inj (Names.orderly_empty.enter phrase.mentions) found' found

/-- The parser accepts what has a derivation and nothing else. What is parsed is the only derivation
with every name replaced by its cell, where new names have got the next cells in their order. -/
theorem parse_ok_iff_derives (source : String) (names : Names)
    (short : ShortNumbers ((tokens source.toList).map Token.text)) :
    ((∃ block final, parse source names = (.ok block, final)) ↔
      ∃ phrase : Phrase, phrase.Derives ((tokens source.toList).map Token.text)) ∧
    ∀ block final, parse source names = (.ok block, final) →
      ∃ phrase : Phrase, phrase.Derives ((tokens source.toList).map Token.text) ∧
        (∀ other : Phrase, other.Derives ((tokens source.toList).map Token.text) → other = phrase) ∧
        final = names.extend phrase.mentions ∧ phrase.place? final = some block := by
  have accepted {phrase : Phrase}
      (derives : phrase.Derives ((tokens source.toList).map Token.text)) :
      ∃ block, parse source names = (.ok block, names.extend phrase.mentions) ∧
        phrase.place? (names.extend phrase.mentions) = some block := by
    obtain ⟨placed, taken, found⟩ := Parser.takes_phrase derives short .nil [] names
    rw [Names.enter_eq_extend] at taken found
    refine ⟨placed, Parser.run_ok_iff.2 ⟨_, taken, ?_, rfl⟩, found⟩
    exact Parser.finish_ok_iff.2 ⟨rfl, rfl, placed.reverse_reverse.symm⟩
  have derived {block : Block} {final : Names} (parsed : parse source names = (.ok block, final)) :
      ∃ phrase : Phrase, phrase.Derives ((tokens source.toList).map Token.text) := by
    obtain ⟨_, taken, ended, _⟩ := Parser.run_ok_iff.1 parsed
    exact Parser.owes_of_takeAll taken ended
  refine ⟨⟨?_, ?_⟩, ?_⟩
  · rintro ⟨block, final, parsed⟩
    exact derived parsed
  · rintro ⟨phrase, derives⟩
    obtain ⟨block, parsed, _⟩ := accepted derives
    exact ⟨block, _, parsed⟩
  · intro block final parsed
    obtain ⟨phrase, derives⟩ := derived parsed
    obtain ⟨placed, parsed', found⟩ := accepted derives
    obtain ⟨same, rfl⟩ := Prod.mk.inj (parsed.symm.trans parsed')
    cases same
    exact ⟨phrase, derives, fun other => derives.unique short, rfl, found⟩

/-- The variable of a loop gets its cell behind those of its body. A known name keeps its own. -/
theorem parse_ok_iff_derives_loops :
    let names : Names := ⟨[("c", 5)], 9⟩
    let source := "a = 007; while d != 0 \x7b b -= a; while c != 0 \x7b c -= b; \x7d \x7d print d;"
    let texts := (tokens source.toList).map Token.text
    let block := Block.command (.set 9 7) (.loop 11 (.command (.sub 10 9)
      (.loop 5 (.command (.sub 5 10) .nil) .nil)) (.command (.print 11) .nil))
    let final : Names := ⟨[("c", 5), ("a", 9), ("b", 10), ("d", 11)], 12⟩
    ShortNumbers texts ∧ parse source names = (.ok block, final) ∧
      ∃ phrase : Phrase, phrase.Derives texts ∧
        (∀ other : Phrase, other.Derives texts → other = phrase) ∧
        final = names.extend phrase.mentions ∧ phrase.place? final = some block := by
  intro names source texts block final
  have lexed : tokens source.toList = ["a", "=", "007", ";", "while", "d", "!=", "0", "\x7b", "b",
      "-=", "a", ";", "while", "c", "!=", "0", "\x7b", "c", "-=", "b", ";", "\x7d", "\x7d", "print",
      "d", ";"].map fun text => ⟨text, 1⟩ := by decide +kernel
  have short : ShortNumbers ((tokens source.toList).map Token.text) := by
    rw [lexed, ShortNumbers]
    decide
  have parsed : parse source names = (.ok block, final) := by
    rw [parse, lexed]
    rfl
  exact ⟨short, parsed, (parse_ok_iff_derives source names short).2 block final parsed⟩

end Program

end ByteTape

import ByteTape.Proofs.Derivations

/-!
# The line of a mistake

A mistake is told with a line. This should be the line of the first token behind which no program
can go on, or the last line with a token when the source ends too early. It is, with one exception:
when an operand repeats the variable on the left side, the token behind the operand gives the line.

* `Viable`: the texts with which a program can begin.
* `viable_iff`: the parser takes these, and no others but those that end in a repeated operand.
* `Repeats`: an operand that repeats the left side; `repeated_last`: it is the first token behind
  which no program can go on, and the parser refuses the one behind it.
* `mistake_line`: the line of a mistake.
-/

namespace ByteTape.Program

/-- The texts with which a program can begin. -/
def Viable (texts : List String) : Prop :=
  ∃ (rest : List String) (phrase : Phrase), phrase.Derives (texts ++ rest)

/-- A text behind these is an operand that repeats the left side of its statement. -/
def Repeats (before : List String) (text : String) : Prop :=
  ∃ earlier operator, before = earlier ++ [text, operator] ∧ operator ∈ ["=", "+=", "-="]

/-! ## Short numbers -/

theorem ShortNumbers.of_append {first second : List String}
    (short : ShortNumbers (first ++ second)) : ShortNumbers first :=
  fun text member => short text (List.mem_append_left _ member)

/-- A text, or zero in the place of a number that is too long to be read. -/
def shortened (text : String) : String :=
  if isNumber text ∧ Text.maxDigits < text.length then "0" else text

theorem shortened_of_short {text : String}
    (short : isNumber text = true → text.length ≤ Text.maxDigits) : shortened text = text :=
  if_neg fun long => Nat.not_lt.2 (short long.1) long.2

theorem shortened_variable {name : String} (isVariable : IsVariable name) :
    shortened name = name := by
  refine shortened_of_short fun number => ?_
  have named := isVariable.1
  rw [Symbol.not_isName number] at named
  cases named

theorem shortened_sign :
    ∀ text ∈ ["=", "+=", "-=", "!=", ";", "0", "\x7b", "\x7d", "print", "input", "while"],
      shortened text = text := by
  decide

theorem shortened_number {digits : String} (number : isNumber digits = true)
    (small : Text.decimalValue digits.toList ≤ 255) :
    isNumber (shortened digits) = true ∧ Text.decimalValue (shortened digits).toList ≤ 255 := by
  unfold shortened
  split
  · decide
  · exact ⟨number, small⟩

theorem shortNumbers_shortened (texts : List String) : ShortNumbers (texts.map shortened) := by
  intro text member number
  obtain ⟨long, -, rfl⟩ := List.mem_map.1 member
  unfold shortened at number ⊢
  split
  next => decide
  next short =>
    rw [if_neg short] at number
    exact Nat.not_lt.1 fun more => short ⟨number, more⟩

theorem map_shortened {texts : List String} (short : ShortNumbers texts) :
    texts.map shortened = texts := by
  calc
    texts.map shortened = texts.map id :=
      List.map_congr_left fun text member => shortened_of_short (short text member)
    _ = texts := List.map_id texts

theorem Statement.Derives.shortened {statement : Statement} {texts : List String}
    (derives : statement.Derives texts) :
    ∃ other : Statement, other.Derives (texts.map shortened) := by
  have same := derives
  cases derives with
  | set isVariable number small =>
      obtain ⟨number', small'⟩ := shortened_number number small
      have texts := Statement.Derives.set isVariable number' small'
      exact ⟨_, by simpa [shortened_variable isVariable, shortened_sign] using texts⟩
  | copy isVariable isOperand | add isVariable isOperand | sub isVariable isOperand =>
      have fixed := shortened_variable isOperand
      exact ⟨_, by simpa [shortened_variable isVariable, fixed, shortened_sign] using same⟩
  | print isVariable | input isVariable =>
      exact ⟨_, by simpa [shortened_variable isVariable, shortened_sign] using same⟩

theorem Phrase.Derives.shortened {phrase : Phrase} {texts : List String}
    (derives : phrase.Derives texts) : ∃ other : Phrase, other.Derives (texts.map shortened) := by
  induction derives with
  | nil => exact ⟨.nil, .nil⟩
  | statement derives _ ih =>
      obtain ⟨head, derives⟩ := derives.shortened
      obtain ⟨rest, behind⟩ := ih
      rw [List.map_append]
      exact ⟨.statement head rest, .statement derives behind⟩
  | @loop name _ _ inner texts isVariable _ _ ihBody ihRest =>
      obtain ⟨body, inside⟩ := ihBody
      obtain ⟨rest, behind⟩ := ihRest
      have whole := Phrase.Derives.loop isVariable inside behind
      refine ⟨.loop name body rest, ?_⟩
      simpa [shortened_variable isVariable, shortened_sign] using whole

/-- If short texts are the beginning of a program, then of one with short numbers. -/
theorem Viable.exists_short {texts : List String} (viable : Viable texts)
    (short : ShortNumbers texts) :
    ∃ (rest : List String) (phrase : Phrase), phrase.Derives (texts ++ rest) ∧
      ShortNumbers (texts ++ rest) := by
  obtain ⟨rest, phrase, derives⟩ := viable
  obtain ⟨other, derives⟩ := derives.shortened
  have short' := shortNumbers_shortened (texts ++ rest)
  rw [List.map_append, map_shortened short] at derives short'
  exact ⟨_, other, derives, short'⟩

/-! ## Completing a program -/

namespace Parser

/-- Some texts lead from a state to one in which the source can end. -/
def State.Completes (s : State) : Prop :=
  ∃ rest final block, s.takeAll rest = .ok final ∧ final.finish = .ok block

namespace State

theorem Completes.step {s next : State} (text : String)
    (stepped : s.step (.ofText text) = .ok next) (completes : next.Completes) : s.Completes := by
  obtain ⟨rest, final, block, taken, ended⟩ := completes
  refine ⟨text :: rest, final, block, ?_, ended⟩
  rw [takeAll_cons rfl stepped, taken]

/-- Where a statement can begin, closing braces are enough. -/
theorem completes_start (block : Block) (outer : List (String × Block)) (names : Names) :
    Completes ⟨.start, block, outer, names⟩ := by
  induction outer generalizing block names with
  | nil => exact ⟨[], _, block.reverse, rfl, rfl⟩
  | cons level outer ih => exact .step "\x7d" rfl (ih _ _)

theorem completes_commandEnd (command : Command) (block : Block) (outer : List (String × Block))
    (names : Names) : Completes ⟨.commandEnd command, block, outer, names⟩ :=
  .step ";" rfl (completes_start ..)

/-- There is always another variable. -/
theorem exists_other (name : String) : ∃ other, IsVariable other ∧ other ≠ name := by
  by_cases same : name = "a"
  · exact ⟨"b", ⟨rfl, by decide⟩, by simp [same]⟩
  · exact ⟨"a", ⟨rfl, by decide⟩, fun again => same again.symm⟩

theorem completes_operand {s : State} {dest : String} {make : Int → Command}
    (awaits : ∀ name, s.step (.name name) = .ok (s.takeOperand dest make name)) : s.Completes := by
  obtain ⟨other, isVariable, differs⟩ := exists_other dest
  refine .step other ?_ (completes_commandEnd (make (s.names.cell other).1) s.block s.outer
    (s.names.cell other).2)
  rw [Symbol.ofText_variable isVariable, awaits, takeOperand, if_neg differs]

theorem completes_of_stage {s : State} (goesOn : ∀ name, s.stage ≠ .repeated name) :
    s.Completes := by
  obtain ⟨stage, block, outer, names⟩ := s
  have brace (name : String) : Completes ⟨.whileBrace name, block, outer, names⟩ :=
    .step "\x7b" rfl (completes_start ..)
  cases stage with
  | start => exact completes_start ..
  | printName => exact .step "a" rfl (.step ";" rfl (completes_start ..))
  | printEnd name => exact .step ";" rfl (completes_start ..)
  | inputName => exact .step "a" rfl (.step ";" rfl (completes_start ..))
  | inputEnd name => exact .step ";" rfl (completes_start ..)
  | operator name cell => exact .step "=" rfl (completes_operand fun _ => rfl)
  | addend name cell => exact completes_operand fun _ => rfl
  | subtrahend name cell => exact completes_operand fun _ => rfl
  | operand name cell => exact completes_operand fun _ => rfl
  | repeated name => exact absurd rfl (goesOn name)
  | commandEnd command => exact completes_commandEnd ..
  | whileName => exact .step "a" rfl (.step "!=" rfl (.step "0" rfl (brace "a")))
  | whileTest name => exact .step "!=" rfl (.step "0" rfl (brace name))
  | whileZero name => exact .step "0" rfl (brace name)
  | whileBrace name => exact brace name

theorem step_repeated {s : State} {name : String} (stage : s.stage = .repeated name)
    (symbol : Symbol) : s.step symbol = .error (.mistake (.repeated name)) := by
  obtain ⟨_, block, outer, names⟩ := s
  cases stage
  cases symbol <;> rfl

theorem finish_repeated {s : State} {name : String} (stage : s.stage = .repeated name) :
    s.finish = .error (.repeated name) := by
  obtain ⟨_, block, outer, names⟩ := s
  cases stage
  cases outer <;> rfl

theorem Completes.not_repeated {s : State} (completes : s.Completes) (name : String) :
    s.stage ≠ .repeated name := by
  intro stage
  obtain ⟨rest, final, block, taken, ended⟩ := completes
  cases rest with
  | nil =>
      cases taken
      rw [finish_repeated stage] at ended
      cases ended
  | cons text rest =>
      rw [takeAll_cons_error (step_repeated stage _)] at taken
      cases taken

theorem takeAll_append_ok {s final : State} {first second : List String} :
    s.takeAll (first ++ second) = .ok final ↔
      ∃ next, s.takeAll first = .ok next ∧ next.takeAll second = .ok final := by
  unfold takeAll
  rw [List.foldlM_append]
  cases first.foldlM (fun s text => s.step (.ofText text)) s with
  | ok next => simp [bind, Except.bind]
  | error objection => simp [bind, Except.bind]

theorem takeAll_concat_ok {s final : State} {texts : List String} {text : String} :
    s.takeAll (texts ++ [text]) = .ok final ↔
      ∃ next, s.takeAll texts = .ok next ∧ next.step (.ofText text) = .ok final := by
  have single (next : State) : next.takeAll [text] = next.step (.ofText text) := by
    rw [takeAll, List.foldlM_cons]
    cases next.step (.ofText text) with
    | ok last => rfl
    | error objection => rfl
  simp only [takeAll_append_ok, single]

end State

/-- Texts can begin a program if and only if the parser takes them all, and the last of them does
not repeat the left side of its statement. -/
theorem viable_iff {texts : List String} (short : ShortNumbers texts) (names : Names) :
    Viable texts ↔
      ∃ s, State.takeAll { names } texts = .ok s ∧ ∀ name, s.stage ≠ .repeated name := by
  constructor
  · intro viable
    obtain ⟨rest, phrase, derives, short⟩ := viable.exists_short short
    obtain ⟨placed, taken, -⟩ := takes_phrase derives short .nil [] names
    obtain ⟨s, first, second⟩ := State.takeAll_append_ok.1 taken
    have completes : s.Completes := ⟨rest, _, _, second, rfl⟩
    exact ⟨s, first, completes.not_repeated⟩
  · rintro ⟨s, taken, goesOn⟩
    obtain ⟨rest, final, block, taken', ended⟩ := State.completes_of_stage goesOn
    exact ⟨rest, owes_of_takeAll (State.takeAll_append_ok.2 ⟨s, taken, taken'⟩) ended⟩

/-! ## Repeated operands -/

/-- The variable on the left side, where an operand is awaited. -/
def Stage.dest? : Stage → Option String
  | .addend name _ => some name
  | .subtrahend name _ => some name
  | .operand name _ => some name
  | _ => none

theorem takeOperand_stage {s : State} {dest : String} {make : Int → Command} {name : String}
    {stage : Stage} (found : (s.takeOperand dest make name).stage = stage) :
    (name = dest ∧ stage = .repeated dest) ∨ ∃ command, stage = .commandEnd command := by
  unfold State.takeOperand at found
  split at found
  next same => exact .inl ⟨same, found.symm.trans (congrArg Stage.repeated same)⟩
  next => exact .inr ⟨_, found.symm⟩

theorem Taken.of_repeated {s next : State} {symbol : Symbol} (taken : Taken s symbol next)
    {name : String} (stage : next.stage = .repeated name) :
    symbol = .name name ∧ s.stage.dest? = some name := by
  cases taken with
  | addend _ before | subtrahend _ before | operand _ before =>
      rcases takeOperand_stage stage with ⟨rfl, ⟨⟩⟩ | ⟨command, ⟨⟩⟩
      rw [before]
      exact ⟨rfl, rfl⟩
  | _ => cases stage

theorem Taken.of_dest {s next : State} {symbol : Symbol} (taken : Taken s symbol next)
    {name : String} (dest : next.stage.dest? = some name) :
    symbol.text ∈ ["=", "+=", "-="] ∧ ∃ cell, s.stage = .operator name cell := by
  cases taken with
  | addAssign before | subAssign before | assign before =>
      cases dest
      exact ⟨by decide, _, before⟩
  | addend | subtrahend | operand =>
      generalize found : (State.takeOperand ..).stage = stage at dest
      rcases takeOperand_stage found with ⟨_, rfl⟩ | ⟨command, rfl⟩
      · cases dest
      · cases dest
  | _ => cases dest

theorem Taken.of_operator {s next : State} {symbol : Symbol} (taken : Taken s symbol next)
    {name : String} {cell : Nat} (stage : next.stage = .operator name cell) :
    symbol = .name name := by
  cases taken with
  | dest =>
      cases stage
      rfl
  | addend | subtrahend | operand =>
      obtain ⟨_, ⟨⟩⟩ | ⟨_, other⟩ := takeOperand_stage stage
      cases other
  | _ => cases stage

/-- Behind an operator the variable in front of it is on the left side. -/
theorem Taken.dest_of_sign {s next : State} {text : String} (taken : Taken s (.ofText text) next)
    (sign : text ∈ ["=", "+=", "-="]) :
    ∃ name cell, s.stage = .operator name cell ∧ next.stage.dest? = some name := by
  simp only [List.mem_cons, List.not_mem_nil, or_false] at sign
  rcases sign with rfl | rfl | rfl
  · cases taken with
    | assign before => exact ⟨_, _, before, rfl⟩
  · cases taken with
    | addAssign before => exact ⟨_, _, before, rfl⟩
  · cases taken with
    | subAssign before => exact ⟨_, _, before, rfl⟩

theorem step_of_dest {s : State} {dest : String} (awaits : s.stage.dest? = some dest)
    (name : String) : ∃ next, s.step (.name name) = .ok next := by
  obtain ⟨stage, block, outer, names⟩ := s
  cases stage with
  | addend | subtrahend | operand => exact ⟨_, rfl⟩
  | _ => cases awaits

theorem eq_of_ofText {text name : String} (reads : Symbol.ofText text = .name name) :
    text = name := by
  rw [← Symbol.text_ofText text, reads]
  rfl

theorem dest_of_repeats {s final : State} {before : List String} {text : String}
    (taken : s.takeAll before = .ok final) (repeats : Repeats before text) :
    final.stage.dest? = some text ∧ Symbol.ofText text = .name text := by
  obtain ⟨earlier, operator, rfl, sign⟩ := repeats
  have split : earlier ++ [text, operator] = earlier ++ [text] ++ [operator] := by simp
  rw [split] at taken
  obtain ⟨second, taken, stepped'⟩ := State.takeAll_concat_ok.1 taken
  obtain ⟨first, -, stepped⟩ := State.takeAll_concat_ok.1 taken
  obtain ⟨name, cell, stage, dest⟩ := (taken_of_step stepped').dest_of_sign sign
  have reads := (taken_of_step stepped).of_operator stage
  obtain rfl := eq_of_ofText reads
  exact ⟨dest, reads⟩

/-- The parser got to a stage other than the first by its last text. -/
theorem exists_last {names : Names} {texts : List String} {s : State}
    (taken : State.takeAll { names } texts = .ok s) (moved : s.stage ≠ .start) :
    ∃ before text previous, texts = before ++ [text] ∧
      State.takeAll { names } before = .ok previous ∧ Taken previous (.ofText text) s := by
  rcases List.eq_nil_or_concat texts with rfl | ⟨before, text, rfl⟩
  · cases taken
    exact absurd rfl moved
  · rw [List.concat_eq_append] at taken ⊢
    obtain ⟨previous, taken, stepped⟩ := State.takeAll_concat_ok.1 taken
    exact ⟨before, text, previous, rfl, taken, taken_of_step stepped⟩

theorem repeats_of_dest {names : Names} {before : List String} {s : State} {text : String}
    (taken : State.takeAll { names } before = .ok s) (dest : s.stage.dest? = some text) :
    Repeats before text := by
  have moved : s.stage ≠ .start := by
    intro stage
    rw [stage] at dest
    cases dest
  obtain ⟨before, operator, previous, rfl, taken, step⟩ := exists_last taken moved
  obtain ⟨sign, cell, stage⟩ := step.of_dest dest
  have moved : previous.stage ≠ .start := by
    rw [stage]
    nofun
  obtain ⟨earlier, left, _, rfl, -, step⟩ := exists_last taken moved
  obtain rfl := eq_of_ofText (step.of_operator stage)
  rw [Symbol.text_ofText] at sign
  exact ⟨earlier, operator, by simp, sign⟩

/-- A repeated operand is the first text behind which no program can go on. -/
theorem repeated_last {names : Names} {tokens : List Token} {s : State} {name : String}
    (short : ShortNumbers (tokens.map Token.text))
    (taken : State.takeAll { names } (tokens.map Token.text) = .ok s)
    (stage : s.stage = .repeated name) :
    ∃ before operand, tokens = before ++ [operand] ∧ Viable (before.map Token.text) ∧
      ¬ Viable (tokens.map Token.text) ∧ Repeats (before.map Token.text) operand.text := by
  have stuck : ¬ Viable (tokens.map Token.text) := by
    rw [viable_iff short names]
    rintro ⟨s', taken', goesOn⟩
    cases taken.symm.trans taken'
    exact goesOn name stage
  rcases List.eq_nil_or_concat tokens with rfl | ⟨before, operand, rfl⟩
  · cases taken
    cases stage
  · rw [List.concat_eq_append, List.map_append] at taken
    obtain ⟨previous, taken, stepped⟩ := State.takeAll_concat_ok.1 taken
    obtain ⟨reads, dest⟩ := (taken_of_step stepped).of_repeated stage
    have shortBefore : ShortNumbers (before.map Token.text) := by
      rw [List.concat_eq_append, List.map_append] at short
      exact short.of_append
    obtain rfl := eq_of_ofText reads
    refine ⟨before, operand, by simp, ?_, stuck, repeats_of_dest taken dest⟩
    refine (viable_iff shortBefore names).2 ⟨previous, taken, fun name again => ?_⟩
    rw [again] at dest
    cases dest

/-- A token that is refused is the first behind which no program can go on. -/
theorem refused_last {names : Names} {before : List Token} {token : Token} {s : State}
    {objection : Objection} (short : ShortNumbers ((before ++ [token]).map Token.text))
    (taken : State.takeAll { names } (before.map Token.text) = .ok s)
    (goesOn : ∀ name, s.stage ≠ .repeated name) (wrong : s.step token.symbol = .error objection) :
    Viable (before.map Token.text) ∧ ¬ Viable ((before ++ [token]).map Token.text) ∧
      ¬ Repeats (before.map Token.text) token.text := by
  refine ⟨?_, ?_, fun repeats => ?_⟩
  · rw [List.map_append] at short
    exact (viable_iff short.of_append names).2 ⟨s, taken, goesOn⟩
  · rw [viable_iff short names, List.map_append]
    rintro ⟨_, taken', -⟩
    obtain ⟨_, again, stepped⟩ := State.takeAll_concat_ok.1 taken'
    cases taken.symm.trans again
    cases wrong.symm.trans stepped
  · -- a name is taken where an operand is awaited, even that of the left side
    obtain ⟨dest, reads⟩ := dest_of_repeats taken repeats
    obtain ⟨_, stepped⟩ := step_of_dest dest token.text
    rw [Token.symbol, reads, stepped] at wrong
    cases wrong

/-! ## Lines -/

/-- A mistake is made by a token that cannot be taken, or by ending the source. -/
theorem run_mistake {s : State} {last line : Nat} {tokens : List Token} {mistake : Mistake}
    {final : Names} (refused : run s last tokens = (.error (.mistake mistake line), final)) :
    (∃ before token after next, tokens = before ++ token :: after ∧
      s.takeAll (before.map Token.text) = .ok next ∧
      next.step token.symbol = .error (.mistake mistake) ∧ line = token.line) ∨
    ∃ next, s.takeAll (tokens.map Token.text) = .ok next ∧ next.finish = .error mistake ∧
      line = (tokens.getLast?.map Token.line).getD last := by
  induction tokens generalizing s last with
  | nil =>
      refine .inr ⟨s, rfl, ?_⟩
      rw [run] at refused
      cases found : s.finish with
      | ok block =>
          rw [found] at refused
          cases refused
      | error mistake =>
          rw [found] at refused
          cases refused
          exact ⟨rfl, rfl⟩
  | cons token rest ih =>
      rw [run] at refused
      cases stepped : s.step token.symbol with
      | error objection =>
          rw [stepped] at refused
          cases objection with
          | longNumeral digits => cases refused
          | mistake mistake =>
              cases refused
              exact .inl ⟨[], token, rest, s, rfl, rfl, stepped, rfl⟩
      | ok next =>
          rw [stepped] at refused
          rcases ih refused with ⟨before, bad, after, stuck, rfl, taken, wrong, same⟩ |
            ⟨ended, taken, wrong, same⟩
          · refine .inl ⟨token :: before, bad, after, stuck, rfl, ?_, wrong, same⟩
            rw [List.map_cons, State.takeAll_cons rfl stepped, taken]
          · refine .inr ⟨ended, ?_, wrong, ?_⟩
            · rw [List.map_cons, State.takeAll_cons rfl stepped, taken]
            · rw [same, List.getLast?_cons]
              cases rest.getLast? <;> rfl

end Parser

open ByteTape.Program.Parser in
/-- The line of a mistake is that of the first token behind which no program can go on. If this
token repeats the variable on the left side of its statement, it is the line of the token behind it
instead, if there is one. If the source only ends too early, it is the line of its last token. -/
theorem mistake_line {source : String} {names final : Names} {mistake : Mistake} {line : Nat}
    (short : ShortNumbers ((tokens source.toList).map Token.text))
    (refused : parse source names = (.error (.mistake mistake line), final)) :
    (∃ before token after, tokens source.toList = before ++ token :: after ∧
      Viable (before.map Token.text) ∧ ¬ Viable ((before ++ [token]).map Token.text) ∧
      (¬ Repeats (before.map Token.text) token.text → line = token.line) ∧
      (Repeats (before.map Token.text) token.text → line = (after.head?.getD token).line)) ∨
    (Viable ((tokens source.toList).map Token.text) ∧
      ∃ last, (tokens source.toList).getLast? = some last ∧ line = last.line) := by
  unfold parse at refused
  generalize tokens source.toList = tokens at short refused
  rcases run_mistake refused with ⟨before, token, after, s, rfl, taken, wrong, rfl⟩ |
    ⟨s, taken, wrong, rfl⟩
  · have split : before ++ token :: after = before ++ [token] ++ after := by simp
    rw [split, List.map_append] at short
    by_cases stage : ∃ name, s.stage = .repeated name
    · have shortBefore := short.of_append
      rw [List.map_append] at shortBefore
      obtain ⟨name, stage⟩ := stage
      obtain ⟨earlier, operand, rfl, viable, stuck, repeats⟩ :=
        repeated_last shortBefore.of_append taken stage
      refine .inl ⟨earlier, operand, token :: after, by simp, viable, stuck, ?_, fun _ => rfl⟩
      exact fun other => absurd repeats other
    · obtain ⟨viable, stuck, other⟩ := refused_last short.of_append taken (not_exists.1 stage) wrong
      refine .inl ⟨before, token, after, rfl, viable, stuck, fun _ => rfl, ?_⟩
      exact fun repeats => absurd repeats other
  · by_cases stage : ∃ name, s.stage = .repeated name
    · obtain ⟨name, stage⟩ := stage
      obtain ⟨before, operand, rfl, viable, stuck, repeats⟩ := repeated_last short taken stage
      refine .inl ⟨before, operand, [], rfl, viable, stuck, fun other => absurd repeats other, ?_⟩
      simp
    · refine .inr ⟨(viable_iff short names).2 ⟨s, taken, not_exists.1 stage⟩, ?_⟩
      cases found : tokens.getLast? with
      | some last => exact ⟨last, rfl, rfl⟩
      | none =>
          -- nothing is wrong with an empty source
          rw [List.getLast?_eq_none_iff.1 found] at taken
          cases taken
          cases wrong

/-- A statement over several lines, with the name of a third variable in the place of its
semicolon. -/
theorem mistake_line_semicolon :
    let source := "while c != 0 \x7b\n b +=\n a\n c\n; \x7d"
    let texts := (tokens source.toList).map Token.text
    ShortNumbers texts ∧
      parse source {} = (.error (.mistake .semicolon 4), ⟨[("b", 0), ("a", 1)], 2⟩) ∧
      ((∃ before token after, tokens source.toList = before ++ token :: after ∧
        Viable (before.map Token.text) ∧ ¬ Viable ((before ++ [token]).map Token.text) ∧
        (¬ Repeats (before.map Token.text) token.text → 4 = token.line) ∧
        (Repeats (before.map Token.text) token.text → 4 = (after.head?.getD token).line)) ∨
      (Viable texts ∧ ∃ last, (tokens source.toList).getLast? = some last ∧ 4 = last.line)) := by
  intro source texts
  have lexed : tokens source.toList = [⟨"while", 1⟩, ⟨"c", 1⟩, ⟨"!=", 1⟩, ⟨"0", 1⟩, ⟨"\x7b", 1⟩,
      ⟨"b", 2⟩, ⟨"+=", 2⟩, ⟨"a", 3⟩, ⟨"c", 4⟩, ⟨";", 5⟩, ⟨"\x7d", 5⟩] := by decide +kernel
  have short : ShortNumbers ((tokens source.toList).map Token.text) := by
    rw [lexed, ShortNumbers]
    decide
  have refused : parse source {} =
      (.error (.mistake .semicolon 4), ⟨[("b", 0), ("a", 1)], 2⟩) := by
    rw [parse, lexed]
    rfl
  exact ⟨short, refused, mistake_line short refused⟩

/-- No program goes on behind the second `a`, which is on line 2, and the mistake is told with line
3. -/
theorem mistake_line_repeated :
    let source := "a =\na\n;"
    tokens source.toList = [⟨"a", 1⟩, ⟨"=", 1⟩, ⟨"a", 2⟩, ⟨";", 3⟩] ∧
      Viable ["a", "="] ∧ ¬ Viable ["a", "=", "a"] ∧
      parse source {} = (.error (.mistake (.repeated "a") 3), ⟨[("a", 0)], 1⟩) := by
  intro source
  have lexed : tokens source.toList = [⟨"a", 1⟩, ⟨"=", 1⟩, ⟨"a", 2⟩, ⟨";", 3⟩] := by decide +kernel
  have short : ShortNumbers ["a", "=", "a"] := by
    rw [ShortNumbers]
    decide
  refine ⟨lexed, ?_, ?_, ?_⟩
  · have shortBefore : ShortNumbers (["a", "="] ++ ["a"]) := short
    refine (Parser.viable_iff shortBefore.of_append {}).2 ⟨_, rfl, fun name stage => ?_⟩
    cases stage
  · rw [Parser.viable_iff short {}]
    rintro ⟨s, taken, goesOn⟩
    cases taken
    exact goesOn "a" rfl
  · rw [parse, lexed]
    rfl

end ByteTape.Program

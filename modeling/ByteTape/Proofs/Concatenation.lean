import ByteTape.Proofs.Derivations
import ByteTape.Proofs.Lexing

/-!
# Joined sources

A source that is accepted can be continued on a new line: the rest is parsed as it would be alone,
with the names met so far, and its items come behind those of the first part.

* `State.step_atop`: the parser does not look at the items that it has behind it.
* `run_below`: a refusal of the same tokens on later lines names the later line.
* `slash_notMem_stripComments`: no accepted source has a slash outside its comments, so that no
  comment reaches into the second part.
* `parse_append`: the parse of a joined source from the parse of its second part.
-/

namespace ByteTape

/-! ## Blocks -/

namespace Block

/-- The items of one block and then those of another. -/
def append : Block → Block → Block
  | nil, other => other
  | command head rest, other => command head (rest.append other)
  | loop cell body rest, other => loop cell body (rest.append other)

instance : Append Block := ⟨append⟩

@[simp] theorem nil_append (other : Block) : nil ++ other = other := rfl

@[simp] theorem command_append (head : Command) (rest other : Block) :
    command head rest ++ other = command head (rest ++ other) := rfl

@[simp] theorem loop_append (cell : Int) (body rest other : Block) :
    loop cell body rest ++ other = loop cell body (rest ++ other) := rfl

theorem append_assoc (first second third : Block) :
    first ++ second ++ third = first ++ (second ++ third) := by
  induction first with
  | nil => rfl
  | command head rest ih => exact congrArg (command head) ih
  | loop cell body rest _ ih => exact congrArg (loop cell body) ih

theorem reverseOnto_eq (block tail : Block) : block.reverseOnto tail = block.reverse ++ tail := by
  induction block generalizing tail with
  | nil => rfl
  | command head rest ih =>
      rw [reverse, reverseOnto, reverseOnto, ih, ih, append_assoc]
      rfl
  | loop cell body rest _ ih =>
      rw [reverse, reverseOnto, reverseOnto, ih, ih, append_assoc]
      rfl

theorem reverseOnto_append (first second tail : Block) :
    (first ++ second).reverseOnto tail = second.reverseOnto (first.reverseOnto tail) := by
  induction first generalizing tail with
  | nil => rfl
  | command head rest ih => exact ih _
  | loop cell body rest _ ih => exact ih _

theorem reverse_append (first second : Block) :
    (first ++ second).reverse = second.reverse ++ first.reverse := by
  rw [reverse, reverseOnto_append, reverseOnto_eq]
  rfl

end Block

namespace Program

/-! ## Items behind the parser -/

namespace Parser.State

/-- The blocks that are open, with more items at the beginning of the outermost one. -/
def deepen (base : Block) : Block → List (String × Block) → Block × List (String × Block)
  | block, [] => (block ++ base, [])
  | block, (name, before) :: outer =>
      (block, (name, (deepen base before outer).1) :: (deepen base before outer).2)

/-- The same state with more items behind it. -/
def atop (base : Block) (s : State) : State :=
  { s with
    block := (deepen base s.block s.outer).1
    outer := (deepen base s.block s.outer).2 }

theorem emit_atop (base : Block) (s : State) (command : Command) :
    (s.atop base).emit command = (s.emit command).atop base := by
  obtain ⟨stage, block, outer, names⟩ := s
  cases outer with
  | nil => rfl
  | cons level outer => rfl

theorem takeOperand_atop (base : Block) (s : State) (dest : String) (make : Int → Command)
    (name : String) :
    (s.atop base).takeOperand dest make name = (s.takeOperand dest make name).atop base := by
  unfold takeOperand
  split
  · rfl
  · rfl

theorem takeNumber_atop (base : Block) (s : State) (cell : Nat) (digits : String) :
    (s.atop base).takeNumber cell digits = (s.takeNumber cell digits).map (atop base) := by
  unfold takeNumber
  split
  · rfl
  · dsimp only
    split
    · rfl
    · rfl

theorem closeLoop_atop (base : Block) (s : State) :
    (s.atop base).closeLoop = s.closeLoop.map (atop base) := by
  obtain ⟨stage, block, outer, names⟩ := s
  match outer with
  | [] => rfl
  | [(name, before)] => rfl
  | (name, before) :: second :: outer => rfl

theorem step_nonzero {s : State} {name digits : String} (stage : s.stage = .whileZero name)
    (nonzero : digits ≠ "0") : s.step (.number digits) = .error (.mistake (.zero name)) := by
  obtain ⟨_, block, outer, names⟩ := s
  cases stage
  simp [step, nonzero, Stage.mistake]

/-- The parser does not look at the items behind it. -/
theorem step_atop (base : Block) (s : State) (symbol : Symbol) :
    (s.atop base).step symbol = (s.step symbol).map (atop base) := by
  obtain ⟨stage, block, outer, names⟩ := s
  -- Only a statement that ends and a closing brace touch the items; a stage alone is seen by `rfl`.
  cases stage with
  | start =>
      cases symbol with
      | closeBrace => exact closeLoop_atop base _
      | _ => rfl
  | printEnd name =>
      cases symbol with
      | semicolon =>
          let named : State := ⟨.printEnd name, block, outer, (names.cell name).2⟩
          exact congrArg Except.ok (emit_atop base named _)
      | _ => rfl
  | inputEnd name =>
      cases symbol with
      | semicolon =>
          let named : State := ⟨.inputEnd name, block, outer, (names.cell name).2⟩
          exact congrArg Except.ok (emit_atop base named _)
      | _ => rfl
  | commandEnd command =>
      cases symbol with
      | semicolon => exact congrArg Except.ok (emit_atop base _ _)
      | _ => rfl
  | addend dest cell =>
      cases symbol with
      | name name => exact congrArg Except.ok (takeOperand_atop base _ _ _ _)
      | _ => rfl
  | subtrahend dest cell =>
      cases symbol with
      | name name => exact congrArg Except.ok (takeOperand_atop base _ _ _ _)
      | _ => rfl
  | operand dest cell =>
      cases symbol with
      | name name => exact congrArg Except.ok (takeOperand_atop base _ _ _ _)
      | number digits => exact takeNumber_atop base _ _ _
      | _ => rfl
  | whileZero name =>
      cases symbol with
      | number digits =>
          by_cases zero : digits = "0"
          · subst zero
            rfl
          · rw [step_nonzero rfl zero, step_nonzero rfl zero]
            rfl
      | _ => rfl
  | _ => cases symbol <;> rfl

theorem finish_atop (base : Block) (s : State) :
    (s.atop base).finish = s.finish.map (base.reverse ++ ·) := by
  obtain ⟨stage, block, outer, names⟩ := s
  cases stage with
  | start =>
      cases outer with
      | nil => exact congrArg Except.ok (Block.reverse_append block base)
      | cons level outer => rfl
  | _ => cases outer <;> rfl

end Parser.State

namespace Parser

theorem run_atop (base : Block) (s : State) (last : Nat) (tokens : List Token) :
    run (s.atop base) last tokens =
      ((run s last tokens).1.map (base.reverse ++ ·), (run s last tokens).2) := by
  induction tokens generalizing s last with
  | nil =>
      rw [run, run, State.finish_atop]
      cases s.finish with
      | ok block => rfl
      | error mistake => rfl
  | cons token rest ih =>
      rw [run, run, State.step_atop]
      cases s.step token.symbol with
      | ok next => exact ih next token.line
      | error objection => rfl

end Parser

/-! ## Later lines -/

/-- A refusal of a text behind so many lines. -/
def Refusal.below (lines : Nat) : Refusal → Refusal
  | mistake m line => .mistake m (line + lines)
  | longNumeral digits => .longNumeral digits

namespace Parser

theorem run_below (lines : Nat) (s : State) (last : Nat) (tokens : List Token) :
    run s (last + lines) (tokens.map (Token.below lines)) =
      ((run s last tokens).1.mapError (Refusal.below lines), (run s last tokens).2) := by
  induction tokens generalizing s last with
  | nil =>
      rw [List.map_nil, run, run]
      cases s.finish with
      | ok block => rfl
      | error mistake => rfl
  | cons token rest ih =>
      have symbol : (token.below lines).symbol = token.symbol := rfl
      rw [List.map_cons, run, run, symbol]
      cases s.step token.symbol with
      | ok next => exact ih next token.line
      | error objection => cases objection <;> rfl

/-- Where a source may end, the line of the token before does not matter. -/
theorem run_last {s : State} {block : Block} (ends : s.finish = .ok block) (last other : Nat)
    (tokens : List Token) : run s last tokens = run s other tokens := by
  cases tokens with
  | nil =>
      rw [run, run, ends]
      rfl
  | cons token rest => rfl

theorem run_append {s next : State} {first : List Token}
    (taken : s.takeAll (first.map Token.text) = .ok next) (last : Nat) (second : List Token) :
    ∃ later, run s last (first ++ second) = run next later second := by
  induction first generalizing s last with
  | nil =>
      cases taken
      exact ⟨last, rfl⟩
  | cons token rest ih =>
      rw [List.map_cons] at taken
      rw [List.cons_append, run]
      cases stepped : s.step token.symbol with
      | ok between =>
          rw [State.takeAll_cons rfl stepped] at taken
          exact ih taken token.line
      | error objection =>
          rw [State.takeAll_cons_error stepped] at taken
          cases taken

/-! ## Slashes -/

theorem not_stray_of_takeAll {s final : State} {texts : List String}
    (taken : s.takeAll texts = .ok final) {text : String} (inside : text ∈ texts) :
    Symbol.ofText text ≠ .stray text := by
  induction texts generalizing s with
  | nil => cases inside
  | cons first rest ih =>
      cases stepped : s.step (.ofText first) with
      | error objection =>
          rw [State.takeAll_cons_error stepped] at taken
          cases taken
      | ok next =>
          rcases List.mem_cons.1 inside with rfl | later
          · intro stray
            rw [stray] at stepped
            cases taken_of_step stepped
          · rw [State.takeAll_cons rfl stepped] at taken
            exact ih taken later

end Parser

theorem alphanumeric_of_isName {text : String} (named : isName text = true) {c : Char}
    (found : c ∈ text.toList) : (c.isAlphanum || c == '_') = true := by
  unfold isName at named
  split at named
  next => cases named
  next chars =>
    rw [chars] at found
    obtain ⟨starts, goesOn⟩ := Bool.and_eq_true_iff.1 named
    rcases List.mem_cons.1 found with rfl | within
    · rcases Bool.or_eq_true_iff.1 starts with letter | underscore
      · simp [Char.isAlphanum, letter]
      · simp [underscore]
    · exact List.all_eq_true.1 goesOn _ within

theorem not_isName_of_slash {text : String} (slash : '/' ∈ text.toList) : isName text ≠ true :=
  fun named => absurd (alphanumeric_of_isName named slash) (by decide)

theorem not_isNumber_of_slash {text : String} (slash : '/' ∈ text.toList) :
    isNumber text ≠ true := by
  intro number
  have digits := (Bool.and_eq_true_iff.1 number).2
  exact absurd (List.all_eq_true.1 digits _ slash) (by decide)

theorem Symbol.stray_of_slash {text : String} (slash : '/' ∈ text.toList) :
    ofText text = .stray text := by
  unfold ofText
  split
  case h_11 => rw [if_neg (not_isName_of_slash slash), if_neg (not_isNumber_of_slash slash)]
  all_goals exact absurd slash (by decide)

theorem slash_notMem_stripComments {source : String} {names final : Names} {block : Block}
    (parsed : parse source names = (.ok block, final)) : '/' ∉ stripComments source.toList := by
  intro slash
  obtain ⟨token, found, within⟩ := mem_tokens slash rfl
  obtain ⟨_, taken, -, -⟩ := Parser.run_ok_iff.1 parsed
  exact Parser.not_stray_of_takeAll taken (List.mem_map_of_mem found) (Symbol.stray_of_slash within)

/-! ## Parsing joined sources -/

theorem parse_append {first : String} {names between : Names} {block : Block}
    (parsed : parse first names = (.ok block, between)) (second : String) :
    parse (first ++ "\n" ++ second) names =
      (((parse second between).1.mapError (Refusal.below (Text.lines first.toList).length)).map
        (block ++ ·), (parse second between).2) := by
  have clean := slash_notMem_stripComments parsed
  have chars : (first ++ "\n" ++ second).toList = first.toList ++ '\n' :: second.toList := by simp
  obtain ⟨final, taken, ended, rfl⟩ := Parser.run_ok_iff.1 parsed
  obtain ⟨stage, outer, rfl⟩ := Parser.finish_ok_iff.1 ended
  -- The parser is then as it is at the start, but for the items and the names of the first part.
  have placed : Parser.State.atop final.block { names := final.names } = final := by
    obtain ⟨_, _, _, _⟩ := final
    cases stage
    cases outer
    rfl
  generalize height : (Text.lines first.toList).length = lines
  obtain ⟨last, goesOn⟩ :=
    Parser.run_append taken 1 ((tokens second.toList).map (Token.below lines))
  calc
    parse (first ++ "\n" ++ second) names
    _ = Parser.run final last ((tokens second.toList).map (Token.below lines)) := by
      rw [parse, chars, tokens_joined clean, height, goesOn]
    _ = Parser.run (Parser.State.atop final.block { names := final.names }) (1 + lines)
          ((tokens second.toList).map (Token.below lines)) := by
      rw [Parser.run_last ended last (1 + lines), placed]
    _ = _ := by
      rw [Parser.run_atop, Parser.run_below]
      rfl

/-- A source that is accepted can be continued on a new line. The whole is accepted if and only if
the rest is with the names met so far, and is parsed to the items of both. If the rest is refused,
so is the whole, as many lines further down as there are before it. -/
theorem parse_joined {first : String} {names between : Names} {block : Block}
    (parsed : parse first names = (.ok block, between)) (second : String) :
    (∀ whole final, parse (first ++ "\n" ++ second) names = (.ok whole, final) ↔
      ∃ rest, parse second between = (.ok rest, final) ∧ whole = block ++ rest) ∧
    ∀ mistake line final, parse second between = (.error (.mistake mistake line), final) →
      parse (first ++ "\n" ++ second) names =
        (.error (.mistake mistake (line + (Text.lines first.toList).length)), final) := by
  rw [parse_append parsed second]
  rcases parse second between with ⟨refusal | rest, names⟩
  · constructor
    · intro whole final
      exact ⟨nofun, nofun⟩
    · rintro mistake line final ⟨⟩
      rfl
  · constructor
    · intro whole final
      constructor
      · rintro ⟨⟩
        exact ⟨rest, rfl, rfl⟩
      · rintro ⟨_, ⟨⟩, rfl⟩
        rfl
    · exact nofun

/-- A comment over two lines and one that ends with the first part, and a second part that ends too
early. -/
theorem parse_joined_unfinished :
    let first := "a = 1; /* two\nlines */ print a; // rest"
    let second := "b = a; /* c */\nprint"
    let between : Names := ⟨[("a", 0)], 1⟩
    let final : Names := ⟨[("a", 0), ("b", 1)], 2⟩
    parse first {} = (.ok (.command (.set 0 1) (.command (.print 0) .nil)), between) ∧
      parse second between = (.error (.mistake (.nameAfter "print") 2), final) ∧
      parse (first ++ "\n" ++ second) {} =
        (.error (.mistake (.nameAfter "print") 4), final) := by
  intro first second between final
  have lexed : tokens first.toList = [⟨"a", 1⟩, ⟨"=", 1⟩, ⟨"1", 1⟩, ⟨";", 1⟩, ⟨"print", 2⟩,
      ⟨"a", 2⟩, ⟨";", 2⟩] := by decide +kernel
  have parsed : parse first {} =
      (.ok (.command (.set 0 1) (.command (.print 0) .nil)), between) := by
    rw [parse, lexed]
    rfl
  have lexed' : tokens second.toList = [⟨"b", 1⟩, ⟨"=", 1⟩, ⟨"a", 1⟩, ⟨";", 1⟩, ⟨"print", 2⟩] := by
    decide +kernel
  have refused : parse second between = (.error (.mistake (.nameAfter "print") 2), final) := by
    rw [parse, lexed']
    rfl
  have lines : (Text.lines first.toList).length = 2 := by decide +kernel
  have joined := (parse_joined parsed second).2 _ _ _ refused
  rw [lines] at joined
  exact ⟨parsed, refused, joined⟩

end Program

end ByteTape

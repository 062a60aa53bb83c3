import ByteTape.Proofs.Concatenation
import ByteTape.Proofs.Safety

/-!
# Renamed variables

Names matter to the compiler only in that it can tell one from another. When the variables of a
source get other names, distinct ones for distinct ones, the parser takes the same steps and gives
the same cells, so that the code is the same. A source that is refused is refused at the same token.

* `Renaming`: other names for all variables.
* `Names.cell_mapNames`: a name under which a cell is kept may be changed.
* `State.step_mapNames`: the parser takes the same step with other names.
* `Symbol.ofText_renamed`: a renamed text is the symbol that it was, with the other name.
* `parse_renamed`: a renamed source gives the same block or the same mistake.
* `ofSource_renamed`: and the same code, with the other names in the table.
-/

namespace ByteTape

namespace Program

/-- Other names for variables. Distinct variables get distinct names, and a text that is no variable
stays as it is. -/
structure Renaming where
  text : String → String
  isVariable : ∀ {name}, IsVariable name → IsVariable (text name)
  distinct : ∀ {name other}, IsVariable name → IsVariable other → text name = text other →
    name = other
  fixed : ∀ {word}, ¬ IsVariable word → text word = word

namespace Renaming

/-- Two variables that take each other's name. -/
def swap {first second : String} (isFirst : IsVariable first) (isSecond : IsVariable second) :
    Renaming where
  text word := if word = first then second else if word = second then first else word
  isVariable := by
    intro name isVariable
    split
    · exact isSecond
    · split
      · exact isFirst
      · exact isVariable
  distinct := by
    intro name other _ _ same
    grind
  fixed := by
    intro word other
    rw [if_neg (by rintro rfl; exact other isFirst), if_neg (by rintro rfl; exact other isSecond)]

variable (renames : Renaming)

theorem injective : Function.Injective renames.text := by
  intro first second same
  by_cases isFirst : IsVariable first
  · by_cases isSecond : IsVariable second
    · exact renames.distinct isFirst isSecond same
    · -- the new name of a variable would be no variable
      rw [renames.fixed isSecond] at same
      exact absurd (same ▸ renames.isVariable isFirst) isSecond
  · by_cases isSecond : IsVariable second
    · rw [renames.fixed isFirst] at same
      exact absurd (same ▸ renames.isVariable isSecond) isFirst
    · rwa [renames.fixed isFirst, renames.fixed isSecond] at same

def token (token : Token) : Token := { token with text := renames.text token.text }

end Renaming

/-! ## Other names -/

/-- The same table under other names. -/
def Names.mapNames (f : String → String) (names : Names) : Names :=
  { names with entries := names.entries.map (Prod.map f id) }

def Symbol.mapNames (f : String → String) : Symbol → Symbol
  | name text => name (f text)
  | symbol => symbol

def Mistake.mapNames (f : String → String) : Mistake → Mistake
  | operator x => operator (f x)
  | repeated x => repeated (f x)
  | test x => test (f x)
  | zero x => zero (f x)
  | openBrace x => openBrace (f x)
  | mistake => mistake

def Refusal.mapNames (f : String → String) : Refusal → Refusal
  | mistake m line => mistake (m.mapNames f) line
  | longNumeral digits => longNumeral digits

namespace Parser

def Stage.mapNames (f : String → String) : Stage → Stage
  | printEnd name => printEnd (f name)
  | inputEnd name => inputEnd (f name)
  | operator name cell => operator (f name) cell
  | addend name cell => addend (f name) cell
  | subtrahend name cell => subtrahend (f name) cell
  | operand name cell => operand (f name) cell
  | repeated name => repeated (f name)
  | whileTest name => whileTest (f name)
  | whileZero name => whileZero (f name)
  | whileBrace name => whileBrace (f name)
  | stage => stage

def State.mapNames (f : String → String) (s : State) : State where
  stage := s.stage.mapNames f
  block := s.block
  outer := s.outer.map (Prod.map f id)
  names := s.names.mapNames f

def Objection.mapNames (f : String → String) : Objection → Objection
  | mistake m => mistake (m.mapNames f)
  | longNumeral digits => longNumeral digits

end Parser

/-! ## The steps of the parser -/

section

variable {f : String → String} (injective : Function.Injective f)

include injective

theorem Names.find?_mapNames (names : Names) (name : String) :
    (names.mapNames f).find? (f name) = names.find? name := by
  unfold find? mapNames
  induction names.entries with
  | nil => rfl
  | cons entry rest ih =>
      have same : (f name == f entry.1) = (name == entry.1) := by
        rw [Bool.eq_iff_iff, beq_iff_eq, beq_iff_eq]
        exact ⟨fun equal => injective equal, congrArg f⟩
      rw [List.map_cons, Prod.map, List.lookup_cons, List.lookup_cons, same, ih]
      rfl

/-- A name gets the cell that it would get under its other name. -/
theorem Names.cell_mapNames (names : Names) (name : String) :
    (names.mapNames f).cell (f name) =
      ((names.cell name).1, (names.cell name).2.mapNames f) := by
  rw [Names.cell, Names.find?_mapNames injective, Names.cell]
  cases names.find? name with
  | some place => rfl
  | none => simp [mapNames]

namespace Parser.State

theorem takeOperand_mapNames (s : State) (dest : String) (make : Int → Command) (name : String) :
    (s.mapNames f).takeOperand (f dest) make (f name) =
      (s.takeOperand dest make name).mapNames f := by
  unfold takeOperand
  by_cases same : name = dest
  · rw [if_pos same, if_pos (congrArg f same)]
    rfl
  · rw [if_neg same, if_neg fun equal => same (injective equal), mapNames,
      Names.cell_mapNames injective]
    rfl

omit injective in
theorem takeNumber_mapNames (s : State) (cell : Nat) (digits : String) :
    (s.mapNames f).takeNumber cell digits =
      ((s.takeNumber cell digits).mapError (Objection.mapNames f)).map (mapNames f) := by
  unfold takeNumber
  split
  · rfl
  · dsimp only
    split
    · rfl
    · rfl

theorem closeLoop_mapNames (s : State) :
    (s.mapNames f).closeLoop =
      (s.closeLoop.mapError (Objection.mapNames f)).map (mapNames f) := by
  obtain ⟨stage, block, outer, names⟩ := s
  cases outer with
  | nil => rfl
  | cons level outer =>
      simp only [closeLoop, mapNames, List.map_cons, Prod.map, Names.cell_mapNames injective]
      rfl

/-- The parser takes the same step, or makes the same objection, with other names. -/
theorem step_mapNames (s : State) (symbol : Symbol) :
    (s.mapNames f).step (symbol.mapNames f) =
      ((s.step symbol).mapError (Objection.mapNames f)).map (mapNames f) := by
  obtain ⟨stage, block, outer, names⟩ := s
  have cell := Names.cell_mapNames injective names
  -- Only where a name is looked up or compared is there more to see than the stage.
  cases stage with
  | start =>
      cases symbol with
      | name name =>
          simp only [step, mapNames, Stage.mapNames, Symbol.mapNames, cell]
          rfl
      | closeBrace => exact closeLoop_mapNames injective _
      | _ => rfl
  | printEnd name =>
      cases symbol with
      | semicolon =>
          simp only [step, mapNames, Stage.mapNames, Symbol.mapNames, cell]
          rfl
      | _ => rfl
  | inputEnd name =>
      cases symbol with
      | semicolon =>
          simp only [step, mapNames, Stage.mapNames, Symbol.mapNames, cell]
          rfl
      | _ => rfl
  | addend dest place =>
      cases symbol with
      | name name => exact congrArg Except.ok (takeOperand_mapNames injective _ _ _ _)
      | _ => rfl
  | subtrahend dest place =>
      cases symbol with
      | name name => exact congrArg Except.ok (takeOperand_mapNames injective _ _ _ _)
      | _ => rfl
  | operand dest place =>
      cases symbol with
      | name name => exact congrArg Except.ok (takeOperand_mapNames injective _ _ _ _)
      | number digits => exact takeNumber_mapNames _ _ _
      | _ => rfl
  | whileZero name =>
      cases symbol with
      | number digits =>
          by_cases zero : digits = "0"
          · subst zero
            rfl
          · rw [step_nonzero rfl zero]
            exact step_nonzero rfl zero
      | _ => rfl
  | _ => cases symbol <;> rfl

end Parser.State

end

theorem Parser.State.finish_mapNames (f : String → String) (s : State) :
    (s.mapNames f).finish = s.finish.mapError (Mistake.mapNames f) := by
  obtain ⟨stage, block, outer, names⟩ := s
  cases stage <;> cases outer <;> rfl

/-! ## Renamed sources -/

section

variable (renames : Renaming)

/-- A renamed text is the symbol that it was, with the other name. -/
theorem Symbol.ofText_renamed (text : String) :
    ofText (renames.text text) = (ofText text).mapNames renames.text := by
  by_cases isVariable : IsVariable text
  · rw [ofText_variable isVariable, ofText_variable (renames.isVariable isVariable)]
    rfl
  · rw [renames.fixed isVariable]
    have sound := sound_ofText text
    have same := text_ofText text
    cases found : ofText text with
    | name name =>
        rw [found] at sound same
        exact absurd (same ▸ sound) isVariable
    | _ => rfl

theorem Parser.run_renamed (s : State) (last : Nat) (tokens : List Token) :
    run (s.mapNames renames.text) last (tokens.map renames.token) =
      ((run s last tokens).1.mapError (Refusal.mapNames renames.text),
        (run s last tokens).2.mapNames renames.text) := by
  induction tokens generalizing s last with
  | nil =>
      rw [List.map_nil, run, run, State.finish_mapNames]
      cases s.finish with
      | ok block => rfl
      | error mistake => rfl
  | cons token rest ih =>
      have symbol : (renames.token token).symbol = token.symbol.mapNames renames.text :=
        Symbol.ofText_renamed renames token.text
      rw [List.map_cons, run, run, symbol, State.step_mapNames renames.injective]
      cases s.step token.symbol with
      | ok next => exact ih next token.line
      | error objection => cases objection <;> rfl

variable {source other : String}
  (renamed : tokens other.toList = (tokens source.toList).map renames.token)

include renamed

/-- A renamed source is parsed to the same block with the other names in the table, or refused for
the same mistake. -/
theorem parse_renamed (names : Names) :
    parse other (names.mapNames renames.text) =
      ((parse source names).1.mapError (Refusal.mapNames renames.text),
        (parse source names).2.mapNames renames.text) := by
  rw [parse, renamed]
  exact Parser.run_renamed renames { names } 1 (tokens source.toList)

end

/-- A source without long numbers is not refused for one. -/
theorem ShortNumbers.not_longNumeral {source : String} {names final : Names} {count : Nat}
    (short : ShortNumbers ((tokens source.toList).map Token.text))
    (refused : parse source names = (.error (.longNumeral count), final)) : False := by
  rcases Parser.longNumeral_of_run refused with ⟨_, _, _, _, _, _, stage⟩ |
    ⟨before, first, token, after, split, -, digits, number, rfl, long⟩
  · cases stage
  · have same := Symbol.text_ofText token.text
    have sound := Symbol.sound_ofText token.text
    rw [show Symbol.ofText token.text = .number digits from number] at same sound
    have inside : digits ∈ (tokens source.toList).map Token.text := by
      rw [split, show digits = token.text from same]
      simp
    exact Nat.not_lt.2 (short digits inside sound) long

end Program

namespace Compilation

open Program

/-- The same compilation under other names. -/
def mapNames (f : String → String) (compilation : Compilation) : Compilation :=
  { compilation with names := compilation.names.mapNames f }

def Error.mapNames (f : String → String) : Error → Error
  | refused refusal => refused (refusal.mapNames f)
  | deep => deep
  | fault cause => fault cause

theorem ofSource_mapNames (renames : Renaming) {source other : String}
    (renamed : tokens other.toList = (tokens source.toList).map renames.token) {host : Host}
    (holds : host.parsing.holds source = true) (holds' : host.parsing.holds other = true)
    (tracing : Bool) :
    ofSource host other tracing =
      ((ofSource host source tracing).mapError (Error.mapNames renames.text)).map
        (mapNames renames.text) := by
  have parsed : parse other {} = ((parse source {}).1.mapError (Refusal.mapNames renames.text),
      (parse source {}).2.mapNames renames.text) := parse_renamed renames renamed {}
  rw [ofSource, if_pos holds', parsed, ofSource, if_pos holds]
  rcases parse source {} with ⟨refusal | block, names⟩
  · rfl
  · dsimp only [Except.mapError]
    cases Layout.compile host.lowering block { tracing } with
    | ok code layout => rfl
    | error fault layout => rfl

/-- Two sources that differ in the names of their variables only are both compiled, to the same code
with the same number of cells and with tables that differ in the names only, or both refused for a
mistake on the same line, on any host whose stacks hold out for them. -/
theorem ofSource_renamed (renames : Renaming) {source other : Text}
    (renamed : tokens other.chars.toList = (tokens source.chars.toList).map renames.token)
    (short : ShortNumbers ((tokens source.chars.toList).map Token.text)) {host : Host}
    (holds : host.Holds source.chars) (holds' : host.Holds other.chars) (tracing : Bool) :
    (∃ first second, ofSource host source.chars tracing = .ok first ∧
      ofSource host other.chars tracing = .ok second ∧
      second.code = first.code ∧ second.cellsUsed = first.cellsUsed ∧
      second.names.entries = first.names.entries.map (Prod.map renames.text id)) ∨
    ∃ mistake line,
      ofSource host source.chars tracing = .error (.refused (.mistake mistake line)) ∧
      ofSource host other.chars tracing =
        .error (.refused (.mistake (mistake.mapNames renames.text) line)) := by
  have same := ofSource_mapNames renames renamed holds.1 holds'.1 tracing
  rcases ofSource_cases host source tracing with ⟨refusal, names, parsed, refused⟩ |
    ⟨compilation, compiled, -⟩ | ⟨_, -, -, deep⟩
  · rw [refused] at same
    cases refusal with
    | mistake mistake line => exact .inr ⟨mistake, line, refused, same⟩
    | longNumeral count => exact (short.not_longNumeral parsed).elim
  · rw [compiled] at same
    exact .inl ⟨compilation, _, compiled, same, rfl, rfl, rfl⟩
  · exact absurd holds deep

/-- A loop whose variables take each other's name, and with it each other's place in the table. -/
theorem ofSource_renamed_swapped :
    let source : Text := ⟨"while x != 0 \x7b y += x; \x7d", by decide +kernel⟩
    let other : Text := ⟨"while y != 0 \x7b\tx+=y; \x7d // swapped", by decide +kernel⟩
    ∃ renames : Renaming,
      tokens other.chars.toList = (tokens source.chars.toList).map renames.token ∧
      ShortNumbers ((tokens source.chars.toList).map Token.text) ∧
      ∃ first second, ofSource .ample source.chars false = .ok first ∧
        ofSource .ample other.chars false = .ok second ∧
        second.code = first.code ∧ second.cellsUsed = first.cellsUsed ∧
        first.names.entries = [("y", 0), ("x", 1)] ∧
        second.names.entries = [("x", 0), ("y", 1)] := by
  intro source other
  have isX : IsVariable "x" := ⟨rfl, by decide⟩
  have isY : IsVariable "y" := ⟨rfl, by decide⟩
  have lexed : tokens source.chars.toList =
      ["while", "x", "!=", "0", "\x7b", "y", "+=", "x", ";", "\x7d"].map fun text => ⟨text, 1⟩ := by
    decide +kernel
  have lexed' : tokens other.chars.toList =
      ["while", "y", "!=", "0", "\x7b", "x", "+=", "y", ";", "\x7d"].map fun text => ⟨text, 1⟩ := by
    decide +kernel
  have renamed : tokens other.chars.toList =
      (tokens source.chars.toList).map (Renaming.swap isX isY).token := by
    rw [lexed, lexed']
    rfl
  have short : ShortNumbers ((tokens source.chars.toList).map Token.text) := by
    rw [lexed, ShortNumbers]
    decide
  have parsed : parse source.chars {} =
      (.ok (.loop 1 (.command (.add 0 1) .nil) .nil), ⟨[("y", 0), ("x", 1)], 2⟩) := by
    rw [parse, lexed]
    rfl
  refine ⟨Renaming.swap isX isY, renamed, short, ?_⟩
  have holds (program : String) : Host.ample.Holds program := ⟨rfl, fun _ _ _ => rfl⟩
  rcases ofSource_renamed _ renamed short (holds _) (holds _) false with
    ⟨first, second, compiled, compiled', code, cells, entries⟩ | ⟨mistake, line, refused, -⟩
  · obtain ⟨_, _, again, -, -⟩ := exists_block compiled
    obtain ⟨-, table⟩ := Prod.mk.inj (parsed.symm.trans again)
    rw [← table] at entries
    exact ⟨first, second, compiled, compiled', code, cells, by rw [← table], entries⟩
  · rcases ofSource_cases .ample source false with ⟨_, _, again, -⟩ | ⟨_, compiled, -⟩ |
      ⟨_, -, -, deep⟩
    · cases parsed.symm.trans again
    · cases refused.symm.trans compiled
    · exact absurd (holds _) deep

end Compilation

end ByteTape

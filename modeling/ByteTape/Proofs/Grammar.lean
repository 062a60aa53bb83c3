import ByteTape.Proofs.Naming

/-!
# The grammar

Programs with names in place of cells, and the texts of the tokens they are written with. The
grammar says nothing of how a program is parsed.

* `Phrase.Derives`: the rules of the grammar.
* `Phrase.mentions`: the names of a program in the order in which they get their cells.
* `Names.extend`: a table with the new ones among some names; `enter_eq_extend`: looking them up one
  after another gives this table.
* `Phrase.place?`: a program with every name replaced by its cell.
* `place?_inj`: no two programs become the same in that way.
* `Symbol.text`: symbols are nothing but the texts of tokens, sorted.
-/

namespace ByteTape.Program

/-! ## Rules -/

/-- A text that can be the name of a variable. -/
def IsVariable (text : String) : Prop :=
  isName text = true ∧ text ∉ ["print", "input", "while"]

/-- A statement other than a loop, with names. -/
inductive Statement
  | set (dest : String) (value : Nat)
  | copy (dest source : String)
  | add (dest operand : String)
  | sub (dest operand : String)
  | print (name : String)
  | input (name : String)
deriving DecidableEq, Repr

/-- A program with names. -/
inductive Phrase
  | nil
  | statement (head : Statement) (rest : Phrase)
  | loop (name : String) (body rest : Phrase)
deriving DecidableEq, Repr

/-- The texts of a statement. -/
inductive Statement.Derives : Statement → List String → Prop
  | set {dest digits : String} :
      IsVariable dest → isNumber digits = true → Text.decimalValue digits.toList ≤ 255 →
      Derives (.set dest (Text.decimalValue digits.toList)) [dest, "=", digits, ";"]
  | copy {dest source : String} : IsVariable dest → IsVariable source → source ≠ dest →
      Derives (.copy dest source) [dest, "=", source, ";"]
  | add {dest operand : String} : IsVariable dest → IsVariable operand → operand ≠ dest →
      Derives (.add dest operand) [dest, "+=", operand, ";"]
  | sub {dest operand : String} : IsVariable dest → IsVariable operand → operand ≠ dest →
      Derives (.sub dest operand) [dest, "-=", operand, ";"]
  | print {name : String} : IsVariable name → Derives (.print name) ["print", name, ";"]
  | input {name : String} : IsVariable name → Derives (.input name) ["input", name, ";"]

/-- The texts of a program. -/
inductive Phrase.Derives : Phrase → List String → Prop
  | nil : Derives .nil []
  | statement {head : Statement} {rest : Phrase} {first texts : List String} :
      head.Derives first → Derives rest texts → Derives (.statement head rest) (first ++ texts)
  | loop {name : String} {body rest : Phrase} {inner texts : List String} :
      IsVariable name → Derives body inner → Derives rest texts →
      Derives (.loop name body rest)
        (["while", name, "!=", "0", "\x7b"] ++ (inner ++ "\x7d" :: texts))

/-! ## Names and cells -/

/-- The names of a statement, the left side first. -/
def Statement.mentions : Statement → List String
  | .set dest _ => [dest]
  | .copy dest source => [dest, source]
  | .add dest operand => [dest, operand]
  | .sub dest operand => [dest, operand]
  | .print name => [name]
  | .input name => [name]

/-- The names of a program. The variable of a loop comes behind its body. -/
def Phrase.mentions : Phrase → List String
  | .nil => []
  | .statement head rest => head.mentions ++ rest.mentions
  | .loop name body rest => body.mentions ++ name :: rest.mentions

def Statement.place? (names : Names) : Statement → Option Command
  | .set dest value => do return .set (← names.find? dest) value
  | .copy dest source => do return .copy (← names.find? dest) (← names.find? source)
  | .add dest operand => do return .add (← names.find? dest) (← names.find? operand)
  | .sub dest operand => do return .sub (← names.find? dest) (← names.find? operand)
  | .print name => do return .print (← names.find? name)
  | .input name => do return .input (← names.find? name)

/-- A program with every name replaced by its cell, if all names have one. -/
def Phrase.place? (names : Names) : Phrase → Option Block
  | .nil => some .nil
  | .statement head rest => do return .command (← head.place? names) (← rest.place? names)
  | .loop name body rest => do
      return .loop (← names.find? name) (← body.place? names) (← rest.place? names)

namespace Names

/-- The names that a table does not have, each once, in the order of their first occurrence. -/
def unknown (names : Names) (mentions : List String) : List String :=
  (mentions.filter fun name => (names.find? name).isNone).eraseDups

/-- A table with new names behind its own. They get the cells from the next free one on. -/
def extend (names : Names) (mentions : List String) : Names where
  entries := names.entries ++ (names.unknown mentions).zipIdx names.next
  next := names.next + (names.unknown mentions).length

/-- The table after looking up names one by one. -/
def enter (names : Names) (mentions : List String) : Names :=
  mentions.foldl (fun names name => (names.cell name).2) names

theorem enter_append (names : Names) (first second : List String) :
    names.enter (first ++ second) = (names.enter first).enter second :=
  List.foldl_append

theorem cell_known {names : Names} {name : String} {place : Nat}
    (known : names.find? name = some place) : names.cell name = (place, names) := by
  rw [Names.cell, known]

theorem cell_unknown {names : Names} {name : String} (fresh : names.find? name = none) :
    names.cell name =
      (names.next, ⟨names.entries ++ [(name, names.next)], names.next + 1⟩) := by
  rw [Names.cell, fresh]

/-- A name that has got its cell is no longer new. -/
theorem unknown_cons {names : Names} {name : String} (fresh : names.find? name = none)
    (rest : List String) :
    names.unknown (name :: rest) = name :: (names.cell name).2.unknown rest := by
  have known (other : String) : ((names.cell name).2.find? other).isNone =
      (!(other == name) && (names.find? other).isNone) := by
    rw [cell_unknown fresh]
    show ((names.entries ++ [(name, names.next)]).lookup other).isNone =
      (!(other == name) && (names.entries.lookup other).isNone)
    rw [List.lookup_append, List.lookup_cons]
    cases other == name <;> simp
  simp only [unknown, known]
  rw [List.filter_cons_of_pos (by rw [fresh]; rfl), List.eraseDups_cons, List.filter_filter]

theorem enter_eq_extend (names : Names) (mentions : List String) :
    names.enter mentions = names.extend mentions := by
  induction mentions generalizing names with
  | nil => simp [enter, extend, unknown]
  | cons name rest ih =>
      show (names.cell name).2.enter rest = _
      rw [ih]
      cases found : names.find? name with
      | some place =>
          have same : names.unknown (name :: rest) = names.unknown rest := by
            rw [unknown, unknown, List.filter_cons_of_neg (by simp [found])]
          rw [cell_known found, extend, extend, same]
      | none =>
          have more := unknown_cons found rest
          rw [cell_unknown found] at more ⊢
          simp only [extend, more, List.zipIdx_cons, List.length_cons, List.append_assoc,
            List.singleton_append, Nat.add_assoc, Nat.add_comm 1]

theorem Extends.refl (names : Names) : names.Extends names := fun _ _ => id

theorem Extends.trans {later names earlier : Names} (more : later.Extends names)
    (most : names.Extends earlier) : later.Extends earlier :=
  fun name place known => more name place (most name place known)

theorem extends_enter (names : Names) (mentions : List String) :
    (names.enter mentions).Extends names := by
  induction mentions generalizing names with
  | nil => exact .refl names
  | cons name rest ih => exact (ih _).trans (names.extends_cell name)

theorem Orderly.enter {names : Names} (orderly : names.Orderly) (mentions : List String) :
    (names.enter mentions).Orderly := by
  induction mentions generalizing names with
  | nil => exact orderly
  | cons name rest ih => exact ih (orderly.cell name)

/-- The name that a cell belongs to. -/
def nameOf? (names : Names) (cell : Int) : Option String :=
  (names.entries[cell.toNat]?).map Prod.fst

theorem nameOf?_of_find? {names : Names} (orderly : names.Orderly) {name : String} {place : Nat}
    (found : names.find? name = some place) : names.nameOf? place = some name := by
  rw [nameOf?, Int.toNat_natCast, getElem?_of_find? orderly found]
  rfl

end Names

theorem Statement.place?_extends {names later : Names} (more : later.Extends names)
    {statement : Statement} {command : Command} (placed : statement.place? names = some command) :
    statement.place? later = some command := by
  cases statement
  case set | print | input =>
    obtain ⟨cell, found, ⟨⟩⟩ := Option.bind_eq_some_iff.1 placed
    simp [place?, more _ _ found]
  case copy | add | sub =>
    obtain ⟨cell, found, placed⟩ := Option.bind_eq_some_iff.1 placed
    obtain ⟨cell', found', ⟨⟩⟩ := Option.bind_eq_some_iff.1 placed
    simp [place?, more _ _ found, more _ _ found']

/-- A program keeps its cells when a table gets more names. -/
theorem Phrase.place?_extends {names later : Names} (more : later.Extends names) {phrase : Phrase}
    {block : Block} (placed : phrase.place? names = some block) :
    phrase.place? later = some block := by
  induction phrase generalizing block with
  | nil => exact placed
  | statement head rest ih =>
      obtain ⟨command, first, placed⟩ := Option.bind_eq_some_iff.1 placed
      obtain ⟨rest, second, ⟨⟩⟩ := Option.bind_eq_some_iff.1 placed
      simp [place?, Statement.place?_extends more first, ih second]
  | loop name body rest ihBody ihRest =>
      obtain ⟨cell, found, placed⟩ := Option.bind_eq_some_iff.1 placed
      obtain ⟨inner, first, placed⟩ := Option.bind_eq_some_iff.1 placed
      obtain ⟨later, second, ⟨⟩⟩ := Option.bind_eq_some_iff.1 placed
      simp [place?, more _ _ found, ihBody first, ihRest second]

/-- The statement that a command stands for. -/
def Statement.ofCommand? (names : Names) : Command → Option Statement
  | .set dest value => do return .set (← names.nameOf? dest) value.toNat
  | .copy dest source => do return .copy (← names.nameOf? dest) (← names.nameOf? source)
  | .add dest operand => do return .add (← names.nameOf? dest) (← names.nameOf? operand)
  | .sub dest operand => do return .sub (← names.nameOf? dest) (← names.nameOf? operand)
  | .print cell => do return .print (← names.nameOf? cell)
  | .input cell => do return .input (← names.nameOf? cell)
  | .unknown _ => none

/-- The program that a block stands for. -/
def Phrase.ofBlock? (names : Names) : Block → Option Phrase
  | .nil => some .nil
  | .command head rest => do
      return .statement (← Statement.ofCommand? names head) (← ofBlock? names rest)
  | .loop cell body rest => do
      return .loop (← names.nameOf? cell) (← ofBlock? names body) (← ofBlock? names rest)

theorem Statement.ofCommand?_place? {names : Names} (orderly : names.Orderly)
    {statement : Statement} {command : Command} (placed : statement.place? names = some command) :
    ofCommand? names command = some statement := by
  cases statement
  case set | print | input =>
    obtain ⟨cell, found, ⟨⟩⟩ := Option.bind_eq_some_iff.1 placed
    simp [ofCommand?, Names.nameOf?_of_find? orderly found]
  case copy | add | sub =>
    obtain ⟨cell, found, placed⟩ := Option.bind_eq_some_iff.1 placed
    obtain ⟨cell', found', ⟨⟩⟩ := Option.bind_eq_some_iff.1 placed
    simp [ofCommand?, Names.nameOf?_of_find? orderly found, Names.nameOf?_of_find? orderly found']

theorem Phrase.ofBlock?_place? {names : Names} (orderly : names.Orderly) {phrase : Phrase}
    {block : Block} (placed : phrase.place? names = some block) :
    ofBlock? names block = some phrase := by
  induction phrase generalizing block with
  | nil =>
      cases placed
      rfl
  | statement head rest ih =>
      obtain ⟨command, first, placed⟩ := Option.bind_eq_some_iff.1 placed
      obtain ⟨later, second, ⟨⟩⟩ := Option.bind_eq_some_iff.1 placed
      simp [ofBlock?, Statement.ofCommand?_place? orderly first, ih second]
  | loop name body rest ihBody ihRest =>
      obtain ⟨cell, found, placed⟩ := Option.bind_eq_some_iff.1 placed
      obtain ⟨inner, first, placed⟩ := Option.bind_eq_some_iff.1 placed
      obtain ⟨later, second, ⟨⟩⟩ := Option.bind_eq_some_iff.1 placed
      simp [ofBlock?, Names.nameOf?_of_find? orderly found, ihBody first, ihRest second]

/-- Programs that have the same cells in the same places have the same names there. -/
theorem Phrase.place?_inj {names : Names} (orderly : names.Orderly) {phrase other : Phrase}
    {block : Block} (placed : phrase.place? names = some block)
    (placed' : other.place? names = some block) : phrase = other := by
  have back := ofBlock?_place? orderly placed
  rw [ofBlock?_place? orderly placed'] at back
  exact (Option.some.inj back).symm

/-! ## Texts and symbols -/

namespace Symbol

/-- The text that is read as a symbol. -/
def text : Symbol → String
  | printKeyword => "print"
  | inputKeyword => "input"
  | whileKeyword => "while"
  | name text => text
  | number digits => digits
  | assign => "="
  | addAssign => "+="
  | subAssign => "-="
  | notEqual => "!="
  | semicolon => ";"
  | openBrace => "\x7b"
  | closeBrace => "\x7d"
  | stray text => text

/-- Names are names of variables, and numbers are numbers. -/
def Sound : Symbol → Prop
  | name text => IsVariable text
  | number digits => isNumber digits = true
  | _ => True

theorem text_ofText (text : String) : (ofText text).text = text := by
  unfold ofText
  split
  case h_11 =>
    split
    · rfl
    · split
      · rfl
      · rfl
  all_goals rfl

theorem sound_ofText (text : String) : (ofText text).Sound := by
  unfold ofText
  split
  case h_11 notPrint notInput notWhile _ _ _ _ _ _ _ =>
    split
    next named =>
      refine ⟨named, fun keyword => ?_⟩
      simp only [List.mem_cons, List.not_mem_nil, or_false] at keyword
      rcases keyword with same | same | same
      · exact notPrint same
      · exact notInput same
      · exact notWhile same
    next =>
      split
      next numbered => exact numbered
      next => trivial
  all_goals trivial

theorem ofText_variable {name : String} (isVariable : IsVariable name) :
    ofText name = .name name := by
  obtain ⟨named, notKeyword⟩ := isVariable
  unfold ofText
  split
  case h_1 | h_2 | h_3 => exact absurd (by decide) notKeyword
  case h_11 => rw [if_pos named]
  all_goals exact absurd named (by decide)

theorem not_startsName {c : Char} (digit : c.isDigit = true) : (c.isAlpha || c == '_') = false := by
  have small : c.toNat ≤ 57 := (Char.isDigit_iff_toNat.1 digit).2
  rw [Bool.eq_false_iff]
  intro starts
  rcases Bool.or_eq_true_iff.1 starts with letter | underscore
  · rcases Bool.or_eq_true_iff.1 letter with upper | lower
    · have large : 65 ≤ c.toNat := UInt32.le_iff_toNat_le.1 (of_decide_eq_true upper).1
      omega
    · have large : 97 ≤ c.toNat :=
        UInt32.le_iff_toNat_le.1 (of_decide_eq_true (Bool.and_eq_true_iff.1 lower).1)
      omega
  · cases eq_of_beq underscore
    exact absurd small (by decide)

/-- No text is both a name and a number. -/
theorem not_isName {digits : String} (number : isNumber digits = true) : isName digits = false := by
  obtain ⟨_, all⟩ := Bool.and_eq_true_iff.1 number
  unfold isName
  split
  next => rfl
  next c rest chars =>
    rw [chars, List.all_cons, Bool.and_eq_true] at all
    rw [not_startsName all.1]
    rfl

theorem ofText_number {digits : String} (number : isNumber digits = true) :
    ofText digits = .number digits := by
  unfold ofText
  split
  case h_11 => rw [if_neg (by rw [not_isName number]; decide), if_pos number]
  all_goals exact absurd number (by decide)

end Symbol

end ByteTape.Program

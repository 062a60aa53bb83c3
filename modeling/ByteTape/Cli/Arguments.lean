import ByteTape.Text.Numeral
import ByteTape.Text.Quoted

/-!
# Command line arguments

A command has switches, which may stand anywhere and be abbreviated, and one operand. Each argument
is first classified by its looks; then the arguments are taken from left to right, and the first one
that asks for help or cannot be taken ends the matter. What no one asked for is collected.

Behind the argument `--` nothing is a switch. Arguments that look like negative numbers or contain a
space are no switches either, unless they name one.
-/

namespace ByteTape.Cli

inductive Effect
  | help
  | flag
  /-- The switch takes an integer. -/
  | integer
deriving DecidableEq, Repr

structure Switch where
  names : List String
  effect : Effect
deriving DecidableEq, Repr

def Switch.title (switch : Switch) : String := "/".intercalate switch.names

/-- What is wrong with the arguments. -/
inductive Misuse
  | ambiguous (argument : String) (names : List String)
  | unwantedValue (switch : Switch) (value : String)
  | missingValue (switch : Switch)
  | notInteger (switch : Switch) (value : String)
  | missing (operand : String)
  | unknownCommand (name : String) (commands : List String)
  | unrecognized (arguments : List String)
  | rawTrace
  | tapeSize (size : Int)
deriving DecidableEq, Repr

def Misuse.message : Misuse → String
  | ambiguous argument names =>
      s!"ambiguous option: {argument} could match " ++ ", ".intercalate names
  | unwantedValue switch value =>
      s!"argument {switch.title}: ignored explicit argument {Text.quoted value}"
  | missingValue switch => s!"argument {switch.title}: expected one argument"
  | notInteger switch value => s!"argument {switch.title}: invalid int value: {Text.quoted value}"
  | missing operand => s!"the following arguments are required: {operand}"
  | unknownCommand name commands =>
      s!"argument command: invalid choice: {Text.quoted name} (choose from " ++
        ", ".intercalate (commands.map Text.quoted) ++ ")"
  | unrecognized arguments => "unrecognized arguments: " ++ " ".intercalate arguments
  | rawTrace => "--trace needs --lang (raw programs are not compiled)"
  | tapeSize size => s!"--tape-size must be positive, got {size}"

/-! ## Looks -/

inductive Look
  | plain
  /-- The first `--`. -/
  | separator
  /-- A switch, the name that stands for it, and a value in the same argument. -/
  | switch (switch : Switch) (name : String) (value : Option String)
  /-- It looks like a switch but is none. -/
  | unknown
deriving DecidableEq, Repr

/-- All names of the switches, each with its switch. -/
def switchNames (switches : List Switch) : List (String × Switch) :=
  switches.flatMap fun switch => switch.names.map (·, switch)

/-- The text before the first equals sign, and the text behind it. -/
def splitEquals (argument : String) : String × Option String :=
  match argument.toList.span (· ≠ '=') with
  | (_, []) => (argument, none)
  | (name, _ :: value) => (String.ofList name, some (String.ofList value))

/-- The switches that an argument may abbreviate or, after a single dash, start with. -/
def candidates (switches : List Switch) (argument : String) :
    List (String × Switch × Option String) :=
  match argument.toList with
  | '-' :: '-' :: _ =>
      let (start, value) := splitEquals argument
      (switchNames switches).filterMap fun (name, switch) =>
        if start.isPrefixOf name then some (name, switch, value) else none
  | '-' :: letter :: value =>
      (switchNames switches).filterMap fun (name, switch) =>
        if name = String.ofList ['-', letter] then some (name, switch, some (String.ofList value))
        else if argument.isPrefixOf name then some (name, switch, none)
        else none
  | _ => []

/-- A dash alone is no switch. -/
def look (switches : List Switch) (argument : String) : Except Misuse Look :=
  let named (name : String) : Option Switch := (switchNames switches).lookup name
  let (name, value) := splitEquals argument
  if !"-".isPrefixOf argument || argument = "-" then .ok .plain
  else
    match named argument, named name with
    | some switch, _ => .ok (.switch switch argument none)
    | none, some switch => .ok (.switch switch name value)
    | none, none =>
        match candidates switches argument with
        | [(name, switch, value)] => .ok (.switch switch name value)
        | [] =>
            if Text.isNegativeNumeral argument || argument.contains ' ' then .ok .plain
            else .ok .unknown
        | several => .error (.ambiguous argument (several.map (·.1)))

def looks (switches : List Switch) : List String → Except Misuse (List (String × Look))
  | [] => .ok []
  | "--" :: rest => .ok (("--", .separator) :: rest.map (·, .plain))
  | argument :: rest => do
      let first ← look switches argument
      let others ← looks switches rest
      return (argument, first) :: others

/-! ## Taking arguments -/

/-- What the arguments taken so far have brought. -/
structure Taken where
  /-- The first names of the flags given. -/
  flags : List String := []
  /-- The first names of the switches with an integer, each with its value if it has one. -/
  integers : List (String × Option Int) := []
  operand : Option String := none
  extras : List String := []
deriving DecidableEq, Repr

/-- Why no more arguments are taken. -/
inductive Stop
  | help
  | misuse (misuse : Misuse)
deriving DecidableEq, Repr

namespace Taken

def addExtra (taken : Taken) (argument : String) : Taken :=
  { taken with extras := taken.extras ++ [argument] }

/-- Takes a switch that stands for itself. -/
def apply (taken : Taken) (switch : Switch) : Except Stop Taken :=
  match switch.effect with
  | .help => .error .help
  | .flag => .ok { taken with flags := taken.flags ++ switch.names.take 1 }
  | .integer => .error (.misuse (.missingValue switch))

/-- The separator is never a value: a switch that is given it is left without one. -/
def applyInteger (taken : Taken) (switch : Switch) (value : String) : Except Stop Taken :=
  let record (n : Option Int) : Taken :=
    { taken with integers := taken.integers ++ (switch.names.take 1).map (·, n) }
  if value = "--" then .ok (record none)
  else
    match Text.integer? value with
    | some n => .ok (record (some n))
    | none => .error (.misuse (.notInteger switch value))

/-- Takes letters that stand behind the letter of a switch without a value: they are switches of
their own. `before` are the switches that precede `last`; no effect takes place before all letters
have been read. -/
def applyLetters (switches : List Switch) (taken : Taken) (before : List Switch) (last : Switch) :
    List Char → Except Stop Taken
  | [] => (before ++ [last]).foldlM apply taken
  | letter :: rest =>
      match (switchNames switches).lookup (String.ofList ['-', letter]) with
      | some switch => applyLetters switches taken (before ++ [last]) switch rest
      | none => .error (.misuse (.unwantedValue last (String.ofList (letter :: rest))))

/-- Takes a switch with the value that stands in the same argument. -/
def applyValue (switches : List Switch) (taken : Taken) (switch : Switch) (name : String) :
    Option String → Except Stop Taken
  | none => taken.apply switch
  | some value =>
      if switch.effect = .integer then taken.applyInteger switch value
      else if "--".isPrefixOf name || value.isEmpty then
        .error (.misuse (.unwantedValue switch value))
      else applyLetters switches taken [] switch value.toList

/-- Takes arguments up to the end. The separator goes with the operand beside it. -/
def takeAll (switches : List Switch) (taken : Taken) :
    List (String × Look) → Except Stop Taken
  | [] => .ok taken
  | (argument, .unknown) :: rest => takeAll switches (taken.addExtra argument) rest
  | (_, .switch switch _ none) :: (value, .plain) :: rest =>
      if switch.effect = .integer then do
        takeAll switches (← taken.applyInteger switch value) rest
      else do
        takeAll switches (← taken.apply switch) ((value, .plain) :: rest)
  | (_, .switch switch name value) :: rest => do
      takeAll switches (← taken.applyValue switches switch name value) rest
  | (argument, .plain) :: (separator, .separator) :: rest =>
      match taken.operand with
      | none => takeAll switches { taken with operand := some argument } rest
      | some _ => takeAll switches (taken.addExtra argument) ((separator, .separator) :: rest)
  | (argument, .plain) :: rest =>
      match taken.operand with
      | none => takeAll switches { taken with operand := some argument } rest
      | some _ => takeAll switches (taken.addExtra argument) rest
  | (separator, .separator) :: (argument, .plain) :: rest =>
      match taken.operand with
      | none => takeAll switches { taken with operand := some argument } rest
      | some _ => takeAll switches (taken.addExtra separator) ((argument, .plain) :: rest)
  | (separator, .separator) :: rest => takeAll switches (taken.addExtra separator) rest

end Taken

end ByteTape.Cli

import ByteTape.Cli.Arguments
import ByteTape.Machine.Basic

/-!
# Requests

What a command line asks for: to run a program, to compile one, or to be told how to ask.
-/

namespace ByteTape.Cli

/-- A command as its users see it. -/
structure Manual where
  program : String
  usage : String
  /-- What the help says behind the usage. -/
  details : String
  switches : List Switch

def Manual.help (manual : Manual) : String := manual.usage ++ "\n" ++ manual.details

def helpSwitch : Switch := ⟨["-h", "--help"], .help⟩

def manual : Manual where
  program := "tapec"
  usage := "usage: tapec [-h] \x7brun,compile\x7d ...\n"
  details := "Compile and run programs for the byte tape machine.

positional arguments:
  \x7brun,compile\x7d
    run          Run a raw primitive program (or a variable-language one with
                 --lang)
    compile      Print the raw primitive program for a variable-language
                 source

options:
  -h, --help     show this help message and exit
"
  switches := [helpSwitch]

def sizeSwitch : Switch := ⟨["--tape-size"], .integer⟩

def runManual : Manual where
  program := "tapec run"
  usage := "usage: tapec run [-h] [--lang] [--tape-size TAPE_SIZE] [--dump] [--stats]
                 [--trace]
                 file
"
  details := "positional arguments:
  file                  Source file ('-' reads stdin)

options:
  -h, --help            show this help message and exit
  --lang                Treat the source as the variable language
  --tape-size TAPE_SIZE
                        Number of cells (default 30000)
  --dump                Print the first 100 cells after execution
  --stats               Print timing and size information
  --trace               Print the compiler trace (with --lang)
"
  switches := [helpSwitch, ⟨["--lang"], .flag⟩, sizeSwitch, ⟨["--dump"], .flag⟩,
    ⟨["--stats"], .flag⟩, ⟨["--trace"], .flag⟩]

def compileManual : Manual where
  program := "tapec compile"
  usage := "usage: tapec compile [-h] [--trace] [--stats] file\n"
  details := "positional arguments:
  file        Source file ('-' reads stdin)

options:
  -h, --help  show this help message and exit
  --trace     Print the compiler trace
  --stats     Print timing and size information
"
  switches := [helpSwitch, ⟨["--trace"], .flag⟩, ⟨["--stats"], .flag⟩]

/-- How to run a program once it is loaded. -/
structure RunOptions where
  size : Int
  dump : Bool
deriving DecidableEq, Repr

structure Request where
  file : String
  /-- Whether the source is in the variable language. -/
  lang : Bool
  trace : Bool
  stats : Bool
  /-- Without it the program is only compiled. -/
  run : Option RunOptions
deriving DecidableEq, Repr

/-- What becomes of a command line. -/
inductive Reply
  | request (request : Request)
  | help (text : String)
  | misuse (text : String)
  /-- The tape size was given without a number. -/
  | unsized
deriving DecidableEq, Repr

def Manual.complain (manual : Manual) (misuse : Misuse) : Reply :=
  .misuse s!"{manual.usage}{manual.program}: error: {misuse.message}\n"

def Manual.stop (manual : Manual) : Stop → Reply
  | .help => .help manual.help
  | .misuse misuse => manual.complain misuse

/-- Reads the arguments of one command. `extras` are arguments before the command that no one asked
for. -/
def readCommand (command : Manual) (extras arguments : List String)
    (finish : String → Taken → Reply) : Reply :=
  match looks command.switches arguments with
  | .error misuse => command.complain misuse
  | .ok found =>
      match Taken.takeAll command.switches {} found with
      | .error stop => command.stop stop
      | .ok taken =>
          match taken.operand with
          | none => command.complain (.missing "file")
          | some file =>
              match extras ++ taken.extras with
              | [] => finish file taken
              | unrecognized => manual.complain (.unrecognized unrecognized)

/-- The tape size asked for last, if it is a number. -/
def lastSize (taken : Taken) : Option Int :=
  match taken.integers.getLast? with
  | some (_, n) => n
  | none => some Machine.defaultSize

def finishRun (file : String) (taken : Taken) : Reply :=
  let given (flag : String) : Bool := flag ∈ taken.flags
  if given "--trace" && !given "--lang" then manual.complain .rawTrace
  else
    match lastSize taken with
    | none => .unsized
    | some size =>
        if size ≤ 0 then manual.complain (.tapeSize size)
        else .request {
          file, lang := given "--lang", trace := given "--trace", stats := given "--stats",
          run := some { size, dump := given "--dump" } }

def finishCompile (file : String) (taken : Taken) : Reply :=
  let given (flag : String) : Bool := flag ∈ taken.flags
  .request { file, lang := true, trace := given "--trace", stats := given "--stats", run := none }

def chooseCommand (name : String) (extras arguments : List String) : Reply :=
  match name with
  | "run" => readCommand runManual extras arguments finishRun
  | "compile" => readCommand compileManual extras arguments finishCompile
  | name => manual.complain (.unknownCommand name ["run", "compile"])

/-- Takes arguments up to the name of the command. A separator in front of it counts as its name. -/
def findCommand (taken : Taken) : List (String × Look) → Reply
  | [] => manual.complain (.missing "command")
  | (argument, .unknown) :: rest => findCommand (taken.addExtra argument) rest
  | (_, .switch switch name value) :: rest =>
      match taken.applyValue manual.switches switch name value with
      | .error stop => manual.stop stop
      | .ok taken => findCommand taken rest
  | (name, .plain) :: rest => chooseCommand name taken.extras (rest.map (·.1))
  | [(_, .separator)] => manual.complain (.missing "command")
  | (name, .separator) :: rest => chooseCommand name taken.extras (rest.map (·.1))

def Reply.ofArguments (arguments : List String) : Reply :=
  match looks manual.switches arguments with
  | .error wrong => manual.complain wrong
  | .ok found => findCommand {} found

end ByteTape.Cli

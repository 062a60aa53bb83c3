import ByteTape.Code.Reader
import ByteTape.Code.Writer
import ByteTape.Layout.Lowering
import ByteTape.Machine.Run
import ByteTape.Program.Parser

/-!
# Compiling and running sources

A source of the variable language is parsed and lowered to code of the tape machine. Raw code is
read as it is. What can be compiled and run depends on the host: on the room that it has for tapes
and for the stacks of the parser and the compiler.
-/

namespace ByteTape

/-- What there is room for where programs are compiled and run. -/
structure Host where
  /-- Whether there is room for a tape of so many cells. -/
  room : Nat → Bool
  parsing : Stack Program.nesting
  lowering : Stack Block.nesting

/-- A host that runs out of nothing. -/
def Host.ample : Host where
  room := fun _ => true
  parsing := .endless 0
  lowering := .endless 0

structure Compilation where
  code : Code
  names : Program.Names
  /-- How many cells from the start on the code may use. -/
  cellsUsed : Int
  trace : Array Layout.Event

namespace Compilation

inductive Error
  | refused (refusal : Program.Refusal)
  /-- Loops nest too deep for the stack of the parser. -/
  | deep
  | fault (fault : Layout.Fault)
deriving DecidableEq, Repr

def ofSource (host : Host) (source : String) (tracing : Bool) : Except Error Compilation :=
  if host.parsing.holds source then
    match Program.parse source {} with
    | (.error refusal, _) => .error (.refused refusal)
    | (.ok block, names) =>
        match Layout.compile host.lowering block { tracing } with
        | .error fault _ => .error (.fault fault)
        | .ok code layout =>
            .ok { code, names, cellsUsed := layout.next, trace := layout.trace }
  else .error .deep

end Compilation

/-- Why there is no output. -/
inductive RunError
  | compilation (error : Compilation.Error)
  | imbalance (imbalance : Imbalance)
  | fault (fault : Machine.Fault)
deriving DecidableEq, Repr

/-- The output of code on a fresh machine with a tape of the given size. -/
def runCode (host : Host) (steps : Nat) (code : Code) (source : Source) (size : Int) :
    Option (Except RunError (List UInt8)) :=
  (Machine.output steps host.room size source code).map (·.mapError .fault)

/-- The output of a program in the variable language. -/
def runProgram (host : Host) (steps : Nat) (program : String) (source : Source) (size : Int) :
    Option (Except RunError (List UInt8)) :=
  match Compilation.ofSource host program false with
  | .error error => some (.error (.compilation error))
  | .ok compilation => runCode host steps compilation.code source size

/-- The output of raw code. -/
def runText (host : Host) (steps : Nat) (text : String) (source : Source) (size : Int) :
    Option (Except RunError (List UInt8)) :=
  match Code.ofText text with
  | .error imbalance => some (.error (.imbalance imbalance))
  | .ok code => runCode host steps code source size

end ByteTape

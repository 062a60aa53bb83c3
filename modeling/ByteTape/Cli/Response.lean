import ByteTape.Cli.Directory
import ByteTape.Cli.Request
import ByteTape.Compilation
import ByteTape.Text.Encoding

/-!
# Responses

What a command line gives: bytes for the output, notes for the error channel, and how it ends. The
work is cut into steps, loading a source and running what was loaded, so that each can be timed.
-/

namespace ByteTape.Cli

/-- An error that is not told as a note but ends everything. -/
inductive Crash
  | isDirectory (path : String)
  | throughFile (path : String)
  | tooLong (path : String)
  | nullByte
  /-- The tape size was given without a number. -/
  | unsized
  | decoding (fault : Text.DecodingFault)
  | longNumeral (message : String)
  /-- Loops nest too deep for the stack of the parser. -/
  | deep
  | layout (fault : Layout.Fault)
  | machine (fault : Machine.Fault)
  | unwritable (error : Unwritable)
deriving DecidableEq, Repr

def Crash.message : Crash → String
  | isDirectory path => s!"[Errno 21] Is a directory: {Text.quoted path}"
  | throughFile path => s!"[Errno 20] Not a directory: {Text.quoted path}"
  | tooLong path => s!"[Errno 36] File name too long: {Text.quoted path}"
  | nullByte => "embedded null byte"
  | unsized => "'<=' not supported between instances of 'list' and 'int'"
  | decoding fault => fault.message
  | longNumeral text => text
  | deep => Layout.Fault.deep.message
  | layout fault => fault.message
  | machine fault => fault.message
  | unwritable error => error.message

inductive Ending
  | done (code : Nat)
  /-- The arguments alone decided it. -/
  | exit (code : Nat)
  | crash (crash : Crash)
deriving DecidableEq, Repr

inductive Note
  | text (text : String)
  | loadingTime
  | runningTime
deriving DecidableEq, Repr

/-- A note as text, with the given times in milliseconds. -/
def Note.render (loading running : String) : Note → String
  | text t => t
  | loadingTime => s!"Compilation took {loading} ms\n"
  | runningTime => s!"Execution took {running} ms\n"

structure Response where
  ending : Ending
  output : List UInt8 := []
  notes : List Note := []
deriving DecidableEq, Repr

/-- Why there is nothing to run or print. -/
inductive Failure
  /-- It is the source's fault, and told so. -/
  | told (message : String)
  | crash (crash : Crash)
deriving DecidableEq, Repr

def Failure.response : Failure → Response
  | told message => { ending := .done 1, notes := [.text s!"{message}\n"] }
  | crash c => { ending := .crash c }

namespace Request

/-! ## Finding the source -/

/-- The bytes of the source, from the input or from a file. -/
def sourceBytes (request : Request) (directory : Directory) (stdin : List UInt8) :
    Except Failure (List UInt8) :=
  if request.file = "-" then .ok stdin
  else
    let path := Path.ofText request.file
    match directory.lookup path with
    | .entry (.file bytes) => .ok bytes
    | .entry .directory => .error (.crash (.isDirectory path.toText))
    | .throughFile => .error (.crash (.throughFile path.toText))
    | .tooLong => .error (.crash (.tooLong path.toText))
    | .nullByte => .error (.crash .nullByte)
    | .missing => .error (.told s!"Couldn't find file: {request.file}")

/-- What is left of the input for the program. -/
def programInput (request : Request) (stdin : List UInt8) : Source :=
  if request.file = "-" then .empty else .ofBytes stdin

/-! ## Loading -/

structure Loaded where
  code : Code
  trace : List String := []

def load (host : Host) (request : Request) (bytes : List UInt8) : Except Failure Loaded :=
  match Text.ofFile .utf8 bytes with
  | .error fault => .error (.crash (.decoding fault))
  | .ok source =>
      if request.lang then
        match Compilation.ofSource host source request.trace with
        | .ok c => .ok { code := c.code, trace := c.trace.toList.map (·.render) }
        | .error (.refused refusal) =>
            match refusal with
            | .mistake .. => .error (.told (refusal.message source))
            | .longNumeral _ => .error (.crash (.longNumeral (refusal.message source)))
        | .error .deep => .error (.crash .deep)
        | .error (.fault fault) => .error (.crash (.layout fault))
      else
        match Code.ofText source with
        | .ok code => .ok { code }
        | .error imbalance => .error (.told imbalance.message)

def loadNotes (request : Request) (loaded : Loaded) : List Note :=
  let trace := loaded.trace.map fun line => Note.text s!"{line}\n"
  if request.stats then
    trace ++ [.loadingTime,
      .text s!"Primitives: {loaded.code.size}, loop depth: {loaded.code.depth}\n"]
  else trace

/-! ## Printing and running -/

def printLoaded (loaded : Loaded) : Except Crash (List UInt8) :=
  match loaded.code.toText with
  | .ok text => .ok (s!"{text}\n").toUTF8.toList
  | .error error => .error (.unwritable error)

def runLoaded (host : Host) (steps : Nat) (options : RunOptions) (loaded : Loaded)
    (source : Source) : Option (Except Crash Machine) :=
  match Machine.create host.room options.size source .unlimited with
  | .error fault => some (.error (.machine fault))
  | .ok m =>
      match m.execute steps loaded.code with
      | none => none
      | some (.error fault _) => some (.error (.machine fault))
      | some (.ok _ m) => some (.ok m)

def runNotes (request : Request) (options : RunOptions) (m : Machine) : List Note :=
  let time := if request.stats then [Note.runningTime] else []
  let dump := if options.dump then
      match m.dump 100 8 with
      | .ok text => [Note.text s!"\n================\n{text}\n"]
      | .error _ => []
    else []
  time ++ dump

/-- The response to a request. There is none if the program does not stop within the given number
of steps. -/
def respond (host : Host) (steps : Nat) (directory : Directory) (stdin : List UInt8)
    (request : Request) : Option Response :=
  match request.sourceBytes directory stdin with
  | .error failure => some failure.response
  | .ok bytes =>
      match request.load host bytes with
      | .error failure => some failure.response
      | .ok loaded =>
          let notes := request.loadNotes loaded
          match request.run with
          | none =>
              match printLoaded loaded with
              | .error c => some { ending := .crash c, notes }
              | .ok output => some { ending := .done 0, output, notes }
          | some options =>
              match runLoaded host steps options loaded (request.programInput stdin) with
              | none => none
              | some (.error c) => some { ending := .crash c, notes }
              | some (.ok m) =>
                  some { ending := .done 0, output := m.sink.taken.toList,
                         notes := notes ++ request.runNotes options m }

end Request

def Response.ofArguments (host : Host) (steps : Nat) (directory : Directory) (stdin : List UInt8)
    (arguments : List String) : Option Response :=
  match Reply.ofArguments arguments with
  | .help text => some { ending := .exit 0, output := text.toUTF8.toList }
  | .misuse text => some { ending := .exit 2, notes := [.text text] }
  | .unsized => some { ending := .crash .unsized }
  | .request request => request.respond host steps directory stdin

end ByteTape.Cli

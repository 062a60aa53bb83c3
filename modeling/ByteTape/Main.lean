import ByteTape.Cli.Response

/-!
# The command line program
-/

namespace ByteTape.Cli

/-- More steps than any run takes. -/
def unlimitedSteps : Nat := 0x4000000000000000

/-- Nanoseconds as milliseconds with two decimals. -/
def milliseconds (nanoseconds : Nat) : String :=
  let hundredths := (nanoseconds + 5000) / 10000
  let fraction := toString (hundredths % 100)
  let padding := if fraction.length < 2 then "0" else ""
  s!"{hundredths / 100}.{padding}{fraction}"

def putNotes (loading running : Nat) (notes : List Note) : IO Unit :=
  notes.forM fun note => IO.eprint (note.render (milliseconds loading) (milliseconds running))

def putBytes (bytes : List UInt8) : IO Unit := do
  let output ← IO.getStdout
  output.write ⟨bytes.toArray⟩
  output.flush

partial def readAll (stream : IO.FS.Stream) (done : List UInt8) : IO (List UInt8) := do
  let bytes ← stream.read 65536
  if bytes.isEmpty then return done else readAll stream (done ++ bytes.toList)

def readStdin : IO (List UInt8) := do
  readAll (← IO.getStdin) []

/-- The bytes of the source, unless there is no such file. -/
def readSource (file : String) : IO (Option (List UInt8)) := do
  if file = "-" then return some (← readStdin)
  try
    return some (← IO.FS.readBinFile (Path.ofText file).toText).toList
  catch
    | .noFileOrDirectory .. => return none
    | error => throw error

def crash (c : Crash) : IO UInt32 := do
  IO.eprintln c.message
  return 1

/-- Runs what was loaded. The input is read only for a program that reads. -/
def runRequest (request : Request) (options : RunOptions) (loaded : Request.Loaded) :
    IO UInt32 := do
  let stdin ← if request.file ≠ "-" && loaded.code.reads then readStdin else pure []
  let started ← IO.monoNanosNow
  match Request.runLoaded .ample unlimitedSteps options loaded (request.programInput stdin) with
  | some (.ok m) =>
      let finished ← IO.monoNanosNow
      putBytes m.sink.taken.toList
      putNotes 0 (finished - started) (request.runNotes options m)
      return 0
  | some (.error c) => crash c
  | none => return 1

def serve (request : Request) : IO UInt32 := do
  match ← readSource request.file with
  | none =>
      IO.eprintln s!"Couldn't find file: {request.file}"
      return 1
  | some bytes =>
      let started ← IO.monoNanosNow
      match request.load .ample bytes with
      | .error (.told message) =>
          IO.eprintln message
          return 1
      | .error (.crash c) => crash c
      | .ok loaded =>
          let finished ← IO.monoNanosNow
          putNotes (finished - started) 0 (request.loadNotes loaded)
          match request.run with
          | some options => runRequest request options loaded
          | none =>
              match Request.printLoaded loaded with
              | .ok bytes =>
                  putBytes bytes
                  return 0
              | .error c => crash c

end ByteTape.Cli

def main (arguments : List String) : IO UInt32 := do
  match ByteTape.Cli.Reply.ofArguments arguments with
  | .help text =>
      IO.print text
      return 0
  | .misuse text =>
      IO.eprint text
      return 2
  | .unsized => ByteTape.Cli.crash .unsized
  | .request request => ByteTape.Cli.serve request

import ByteTape.Code.Basic
import ByteTape.Machine.Port
import ByteTape.Machine.Tape
import ByteTape.Limits
import ByteTape.Text.ByteSize
import ByteTape.Text.Numeral

/-!
# The machine

A machine is a tape between a source and a sink. Output is collected, and passed to the sink when it
is flushed. The first cells of the tape can be dumped in decimal, a fixed number of them in each
row.

An action on a machine either gives a result or stops with a fault; in both cases the machine it
leaves behind is part of the outcome.
-/

namespace ByteTape

structure Machine extends Port where
  tape : Tape

namespace Machine

inductive Fault
  | tapeSize (size : Int)
  /-- The number of cells is no index. -/
  | dimension
  /-- There is no memory for so many cells. -/
  | memory (size : Int)
  /-- A `set` outside the byte range. -/
  | value (value : Int)
  /-- A written byte outside the byte range. -/
  | byte
  | unknown (name : String)
  | source (cause : Source.Failure)
  | sinkClosed
  /-- The sink has taken all bytes but does not flush itself. -/
  | sinkUnflushed
  /-- A dump with rows of no cells. -/
  | emptyRows
deriving DecidableEq, Repr

def Fault.message : Fault → String
  | tapeSize size => Text.showing size s!"Tape size must be positive: {size}"
  | dimension => "Maximum allowed dimension exceeded"
  | memory size =>
      s!"Unable to allocate {Text.byteSize size.toNat} for an array with shape ({size},) " ++
        "and data type uint8"
  | value v =>
      if Memory.isIndex v then s!"Python integer {v} out of bounds for uint8"
      else "Python int too large to convert to C long"
  | byte => "byte must be in range(0, 256)"
  | unknown name => s!"Unknown instruction: '{name}'"
  | source cause => cause.message
  | sinkClosed => "sink closed"
  | sinkUnflushed => "sink not flushed"
  | emptyRows => "range() arg 3 must not be zero"

abbrev Outcome := EStateM.Result Fault Machine

abbrev Action := EStateM Fault Machine

def defaultSize : Int := 30000

/-- A fresh machine. `room` says for how many cells there is memory. -/
def create (room : Nat → Bool) (size : Int) (source : Source) (sink : Sink) :
    Except Fault Machine :=
  if size ≤ 0 then .error (.tapeSize size)
  else if Memory.indexLimit ≤ size then .error .dimension
  else if room size.toNat then .ok { tape := .blank size.toNat, source, sink }
  else .error (.memory size)

def readByte : Action UInt8 := fun m =>
  match m.nextByte with
  | (.ok byte, port) => .ok byte { m with toPort := port }
  | (.error cause, port) => .error (.source cause) { m with toPort := port }

def writeByte (value : Int) : Action Unit := fun m =>
  if 0 ≤ value ∧ value ≤ 255 then
    .ok () { m with written := m.written.push (UInt8.ofNat value.toNat) }
  else .error .byte m

/-- Asks the sink to flush itself. -/
def flushSink : Action Unit := fun m =>
  let asked := { m with sink := { m.sink with requests := m.sink.requests + 1 } }
  if m.sink.flushes m.sink.requests then .ok () asked else .error .sinkUnflushed asked

/-- Passes collected bytes to the sink. A sink that refuses takes nothing, and the bytes stay
collected. -/
def flush : Action Unit := fun m =>
  if m.written.isEmpty then flushSink m
  else if m.sink.accepts m.sink.calls then
    flushSink { m with
      written := #[]
      sink := { m.sink with calls := m.sink.calls + 1, taken := m.sink.taken ++ m.written } }
  else .error .sinkClosed { m with sink := { m.sink with calls := m.sink.calls + 1 } }

/-- Clears the tape and forgets pending input and output. The source goes on where it is. There has
been memory for the tape, so there is. -/
def reset (m : Machine) : Machine :=
  { tape := .blank m.tape.size, source := m.source, sink := m.sink }

def perform : Op → Action Unit
  | .add count => fun m => .ok () { m with tape := m.tape.add count }
  | .sub count => fun m => .ok () { m with tape := m.tape.add (-count) }
  | .left count => fun m => .ok () { m with tape := m.tape.move (-count) }
  | .right count => fun m => .ok () { m with tape := m.tape.move count }
  | .clear => fun m => .ok () { m with tape := m.tape.put 0 }
  | .set value => fun m =>
      if 0 ≤ value ∧ value ≤ 255 then
        .ok () { m with tape := m.tape.put (UInt8.ofNat value.toNat) }
      else .error (.value value) m
  | .read => fun m =>
      match readByte m with
      | .ok byte m => .ok () { m with tape := m.tape.put byte }
      | .error fault m => .error fault m
  | .write => fun m => .ok () { m with written := m.written.push m.tape.current }
  | .unknown name => fun m => .error (.unknown name) m

/-! ## Dumps -/

/-- How many cells "the first `count`" are. A negative count leaves out that many at the end. -/
def dumpLength (size : Nat) (count : Int) : Nat :=
  min size (if count < 0 then (size + count).toNat else count.toNat)

def dumpRow (cells : List UInt8) : String :=
  " ".intercalate (cells.map fun cell => toString cell.toNat)

/-- Rows of a negative width hold nothing, so there are none. No row is longer than what is shown. -/
def dump (count width : Int) (m : Machine) : Except Fault String :=
  let shown := m.tape.cells.extract 0 (dumpLength m.tape.size count)
  if width = 0 then .error .emptyRows
  else if width < 0 then .ok ""
  else
    let step := min width.toNat shown.size
    let rows := (List.range ((shown.size + step - 1) / step)).map fun row =>
      dumpRow (shown.extract (row * step) (row * step + step)).toList
    .ok ("\n".intercalate rows)

end Machine

end ByteTape

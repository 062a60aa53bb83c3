import ByteTape.Text.Quoted

/-!
# Sources, sinks and ports

What a running program reads from and writes to.

* A source is known by what its successive line reads give, without a bound on their number, and
  counts the reads made so far. A read may fail: the source refuses it, or the line is a text that
  has no bytes because there are surrogates in it.
* A sink takes all bytes of a write call or refuses the call. It is known by which of its successive
  calls it accepts, and by which of the requests to flush itself it meets.
* A port is a source and a sink with the bytes on their way from the one and to the other. Input
  comes line by line: when no byte is pending, a whole line is fetched and its bytes are handed out
  one by one, followed by one more line feed. Behind the end of the input every read gives zero.
-/

namespace ByteTape

/-! ## Sources -/

/-- Why a line read gives no line. -/
inductive Source.Failure
  | closed
  /-- The characters from `first` to `last` of the line are surrogates, the first of them the code
  point `point`. -/
  | unencodable (point first last : Nat)
deriving DecidableEq, Repr

/-- Where surrogates are: a single one is shown. -/
def Source.Failure.place (point first last : Nat) : String :=
  if first = last then
    let digits := String.ofList (Text.hexDigits 4 point)
    s!"character '\\u{digits}' in position {first}"
  else s!"characters in position {first}-{last}"

def Source.Failure.message : Source.Failure → String
  | closed => "source closed"
  | unencodable point first last =>
      s!"'utf-8' codec can't encode {place point first last}: surrogates not allowed"

/-- What one line read gives. No bytes mean the end of the input. -/
inductive Reading
  | line (bytes : List UInt8)
  | failure (cause : Source.Failure)
deriving DecidableEq, Repr

structure Source where
  reading : Nat → Reading
  used : Nat := 0

namespace Source

def next (source : Source) : Reading × Source :=
  (source.reading source.used, { source with used := source.used + 1 })

/-- After the last of the given readings there is no more input. -/
def ofReadings (readings : List Reading) : Source :=
  let table := readings.toArray
  { reading := fun i => table.getD i (.line []) }

def empty : Source := ofReadings []

/-- Cuts a list behind each of its items that end a line. -/
def cutLines {α : Type} (endsLine : α → Bool) : List α → List (List α)
  | [] => []
  | item :: rest =>
      if endsLine item then [item] :: cutLines endsLine rest
      else
        match cutLines endsLine rest with
        | [] => [[item]]
        | line :: lines => (item :: line) :: lines

def ofBytes (bytes : List UInt8) : Source :=
  ofReadings ((cutLines (· == 10) bytes).map .line)

/-- A text is read line by line, each line as its UTF-8 bytes. -/
def ofText (text : String) : Source :=
  ofReadings ((cutLines (· == '\n') text.toList).map fun line =>
    .line (String.ofList line).toUTF8.toList)

end Source

/-! ## Sinks -/

structure Sink where
  accepts : Nat → Bool
  /-- Which of the requests to flush itself it meets. -/
  flushes : Nat → Bool := fun _ => true
  /-- The number of write calls made so far, refused ones included. -/
  calls : Nat := 0
  /-- The number of requests to flush itself made so far. -/
  requests : Nat := 0
  /-- All bytes accepted so far. -/
  taken : Array UInt8 := #[]

/-- A sink that takes everything. -/
def Sink.unlimited : Sink := { accepts := fun _ => true }

/-! ## Ports -/

structure Port where
  /-- Bytes fetched from the source and not yet handed out. -/
  pending : List UInt8 := []
  /-- Whether the end of the input has been seen. -/
  ended : Bool := false
  /-- Bytes written and not yet passed to the sink. -/
  written : Array UInt8 := #[]
  source : Source
  sink : Sink

namespace Port

def lineFeed : UInt8 := 10

/-- The next byte of the input, unless a read fails, and the port afterwards. -/
def nextByte (port : Port) : Except Source.Failure UInt8 × Port :=
  match port.pending with
  | byte :: rest => (.ok byte, { port with pending := rest })
  | [] =>
      if port.ended then (.ok 0, port)
      else
        match port.source.next with
        | (.failure cause, source) => (.error cause, { port with source })
        | (.line [], source) => (.ok 0, { port with source, ended := true })
        | (.line (byte :: rest), source) =>
            (.ok byte, { port with source, pending := rest ++ [lineFeed] })

end Port

end ByteTape

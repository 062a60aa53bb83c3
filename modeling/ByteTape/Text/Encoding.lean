import ByteTape.Text.Basic

/-!
# Text encodings

Decoding bytes, with the place and the reason of the first fault.
-/

namespace ByteTape.Text

inductive Encoding
  | utf8
  | latin1
  | ascii
deriving DecidableEq, Repr

inductive DecodingFault
  | notAscii (byte : UInt8) (position : Nat)
  /-- No character starts with the byte. -/
  | invalidStart (byte : UInt8) (position : Nat)
  /-- The bytes from `first` to `last` start a character, and what follows does not go on with it. -/
  | invalidContinuation (byte : UInt8) (first last : Nat)
  /-- The bytes from `first` to `last` start a character, and nothing follows. -/
  | unexpectedEnd (byte : UInt8) (first last : Nat)
deriving DecidableEq, Repr

namespace DecodingFault

def hexByte (byte : UInt8) : String :=
  String.ofList [Nat.digitChar (byte.toNat / 16), Nat.digitChar (byte.toNat % 16)]

/-- Where a fault is: a single byte is shown. -/
def place (byte : UInt8) (first last : Nat) : String :=
  if first = last then s!"byte 0x{hexByte byte} in position {first}"
  else s!"bytes in position {first}-{last}"

def message : DecodingFault → String
  | notAscii byte position =>
      s!"'ascii' codec can't decode {place byte position position}: ordinal not in range(128)"
  | invalidStart byte position =>
      s!"'utf-8' codec can't decode {place byte position position}: invalid start byte"
  | invalidContinuation byte first last =>
      s!"'utf-8' codec can't decode {place byte first last}: invalid continuation byte"
  | unexpectedEnd byte first last =>
      s!"'utf-8' codec can't decode {place byte first last}: unexpected end of data"

end DecodingFault

/-- The least and the greatest byte that may come next in a character. -/
abbrev ByteRange := UInt8 × UInt8

def continuation : ByteRange := (0x80, 0xbf)

/-- What the first byte of a character brings to its code point, and the bytes that must follow. -/
def utf8Start? (byte : UInt8) : Option (Nat × List ByteRange) :=
  let low (bits : Nat) : Nat := byte.toNat % Nat.pow 2 bits
  if byte < 0x80 then some (byte.toNat, [])
  else if byte < 0xc2 then none
  else if byte < 0xe0 then some (low 5, [continuation])
  else if byte = 0xe0 then some (low 4, [(0xa0, 0xbf), continuation])
  else if byte = 0xed then some (low 4, [(0x80, 0x9f), continuation])
  else if byte < 0xf0 then some (low 4, [continuation, continuation])
  else if byte = 0xf0 then some (low 3, [(0x90, 0xbf), continuation, continuation])
  else if byte < 0xf4 then some (low 3, [continuation, continuation, continuation])
  else if byte = 0xf4 then some (low 3, [(0x80, 0x8f), continuation, continuation])
  else none

/-- A character that has been started. -/
structure PartialChar where
  start : UInt8
  first : Nat
  /-- The code point, as far as it is known. -/
  value : Nat
  /-- The byte that must follow. -/
  wanted : ByteRange
  /-- The bytes that must follow that one. -/
  later : List ByteRange

/-- Decodes the bytes from `position` on. The characters decoded before are held last one first. -/
def decodeUtf8From (position : Nat) (done : List Char) :
    Option PartialChar → List UInt8 → Except DecodingFault (List Char)
  | none, [] => .ok done.reverse
  | some p, [] => .error (.unexpectedEnd p.start p.first (position - 1))
  | none, byte :: rest =>
      match utf8Start? byte with
      | none => .error (.invalidStart byte position)
      | some (value, []) => decodeUtf8From (position + 1) (Char.ofNat value :: done) none rest
      | some (value, wanted :: later) =>
          decodeUtf8From (position + 1) done
            (some { start := byte, first := position, value, wanted, later }) rest
  | some p, byte :: rest =>
      if p.wanted.1 ≤ byte ∧ byte ≤ p.wanted.2 then
        let value := p.value * 64 + byte.toNat % 64
        match p.later with
        | [] => decodeUtf8From (position + 1) (Char.ofNat value :: done) none rest
        | wanted :: later =>
            decodeUtf8From (position + 1) done (some { p with value, wanted, later }) rest
      else .error (.invalidContinuation p.start p.first (position - 1))

def decodeAsciiFrom (position : Nat) (done : List Char) :
    List UInt8 → Except DecodingFault (List Char)
  | [] => .ok done.reverse
  | byte :: rest =>
      if byte < 0x80 then decodeAsciiFrom (position + 1) (Char.ofNat byte.toNat :: done) rest
      else .error (.notAscii byte position)

def Encoding.decode (bytes : List UInt8) : Encoding → Except DecodingFault (List Char)
  | utf8 => decodeUtf8From 0 [] none bytes
  | latin1 => .ok (bytes.map fun byte => Char.ofNat byte.toNat)
  | ascii => decodeAsciiFrom 0 [] bytes

/-- The text of a file: decoded, and with line feeds for all line ends. -/
def ofFile (encoding : Encoding) (bytes : List UInt8) : Except DecodingFault String :=
  (encoding.decode bytes).map fun chars => String.ofList (unifyLineEnds chars)

end ByteTape.Text

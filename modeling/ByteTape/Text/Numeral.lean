import ByteTape.Text.Basic

/-!
# Numerals

Reading integers from decimal digits. In a program numerals are ASCII digits; on the command line
they may have a sign, blanks around them, single underscores between their digits, and digits of any
script. The table of digits follows Unicode 14.

A number with more than `maxDigits` digits is neither read nor written. A text that would have to
show such a number is not made, and the attempt ends with `longNumeral`.
-/

namespace ByteTape.Text

/-- The most digits that a numeral may have. -/
def maxDigits : Nat := 4300

/-- What is told about a number with too many digits, with a remark on it. -/
def longNumeral (remark : String) : String :=
  s!"Exceeds the limit ({maxDigits} digits) for integer string conversion{remark}; " ++
    "use sys.set_int_max_str_digits() to increase the limit"

/-- Whether a number has so few digits that it can be written. -/
def isPrintable (n : Int) : Bool := (Nat.toDigits 10 n.natAbs).length ≤ maxDigits

/-- A text that shows a number, or what is told instead if it has too many digits. -/
def showing (n : Int) (text : String) : String :=
  if isPrintable n then text else longNumeral ""

/-- The least number with more than so many digits. -/
def firstLonger (digits : Nat) : Nat := Nat.pow 10 digits

theorem firstLonger_mono {few more : Nat} (fewer : few ≤ more) :
    firstLonger few ≤ firstLonger more :=
  Nat.pow_le_pow_right (by decide) fewer

theorem length_toDigits_le_iff {n digits : Nat} (positive : 0 < digits) :
    (Nat.toDigits 10 n).length ≤ digits ↔ n < firstLonger digits :=
  Nat.length_toDigits_le_iff (by decide) positive

theorem isPrintable_iff {n : Int} :
    isPrintable n = true ↔ n.natAbs < firstLonger maxDigits := by
  rw [isPrintable, decide_eq_true_iff, length_toDigits_le_iff (by decide)]

/-- The number written with the given ASCII digits. -/
def decimalValue (digits : List Char) : Nat :=
  digits.foldl (fun value c => value * 10 + (c.toNat - '0'.toNat)) 0

/-- The digit zero of every script. Each is followed by the digits one to nine. -/
def zeros : List Nat :=
  [0x30, 0x660, 0x6f0, 0x7c0, 0x966, 0x9e6, 0xa66, 0xae6, 0xb66, 0xbe6, 0xc66, 0xce6, 0xd66, 0xde6,
   0xe50, 0xed0, 0xf20, 0x1040, 0x1090, 0x17e0, 0x1810, 0x1946, 0x19d0, 0x1a80, 0x1a90, 0x1b50,
   0x1bb0, 0x1c40, 0x1c50, 0xa620, 0xa8d0, 0xa900, 0xa9d0, 0xa9f0, 0xaa50, 0xabf0, 0xff10,
   0x104a0, 0x10d30, 0x11066, 0x110f0, 0x11136, 0x111d0, 0x112f0, 0x11450, 0x114d0, 0x11650,
   0x116c0, 0x11730, 0x118e0, 0x11950, 0x11c50, 0x11d50, 0x11da0, 0x16a60, 0x16ac0, 0x16b50,
   0x1d7ce, 0x1d7d8, 0x1d7e2, 0x1d7ec, 0x1d7f6, 0x1e140, 0x1e2f0, 0x1e950, 0x1fbf0]

def digit? (c : Char) : Option Nat :=
  (zeros.find? fun start => start ≤ c.toNat && c.toNat < start + 10).map (c.toNat - ·)

def isDigit (c : Char) : Bool := (digit? c).isSome

/-- The values of digits that single underscores may divide. -/
def digits? : List Char → Option (List Nat)
  | [] => none
  | [c] => (digit? c).map ([·])
  | c :: '_' :: rest => do return (← digit? c) :: (← digits? rest)
  | c :: rest => do return (← digit? c) :: (← digits? rest)

def natural? (chars : List Char) : Option Nat := do
  let digits ← digits? chars
  if maxDigits < digits.length then none
  else return digits.foldl (fun value digit => value * 10 + digit) 0

/-- Blanks that may stand around a numeral: all but the four record separators. -/
def isMargin (c : Char) : Bool :=
  isBlank c && !(0x1c ≤ c.toNat && c.toNat ≤ 0x1f)

def trimMargins (chars : List Char) : List Char :=
  ((chars.dropWhile isMargin).reverse.dropWhile isMargin).reverse

def integer? (text : String) : Option Int :=
  match trimMargins text.toList with
  | '-' :: rest => (natural? rest).map fun n => -(n : Int)
  | '+' :: rest => (natural? rest).map fun n => (n : Int)
  | chars => (natural? chars).map fun n => (n : Int)

/-- Whether a text is a minus sign and then digits, of which some may stand behind a point. A line
feed may follow. -/
def isNegativeNumeral (text : String) : Bool :=
  match text.toList with
  | '-' :: rest =>
      let chars := if rest.getLast? = some '\n' then rest.dropLast else rest
      match chars.dropWhile isDigit with
      | [] => !chars.isEmpty
      | '.' :: fraction => !fraction.isEmpty && fraction.all isDigit
      | _ => false
  | _ => false

end ByteTape.Text

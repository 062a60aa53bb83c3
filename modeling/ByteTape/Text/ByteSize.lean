/-!
# Sizes in bytes

A number of bytes as people read it: three significant digits and a binary unit. The number is first
rounded to 53 significant bits, and halves go to the even neighbour in both roundings.
-/

namespace ByteTape.Text

/-- The quotient of two numbers, rounded to the nearest; a half goes to the even neighbour. -/
def roundDiv (num den : Nat) : Nat :=
  let quotient := num / den
  let rest := num % den
  if den < 2 * rest ∨ (den = 2 * rest ∧ quotient % 2 = 1) then quotient + 1 else quotient

/-- A number, rounded to 53 significant bits. -/
def roundBits (n : Nat) : Nat :=
  let excess := Nat.pow 2 (n.log2 - 52)
  roundDiv n excess * excess

def byteUnits : List String := ["bytes", "KiB", "MiB", "GiB", "TiB", "PiB", "EiB"]

/-- A quotient with a fixed number of decimals. The point is written also before none. -/
def fixedPoint (decimals scaled : Nat) : String :=
  let fraction := (Nat.toDigits 10 (scaled % Nat.pow 10 decimals)).take decimals
  let padding := List.replicate (decimals - fraction.length) '0'
  toString (scaled / Nat.pow 10 decimals) ++ "." ++ String.ofList (padding ++ fraction)

/-- A quotient of at least one half with three significant digits, or with all its digits before
the point if there are more. -/
def threeDigits (num den : Nat) : String :=
  let decimals := if num < 10 * den then 2 else if num < 100 * den then 1 else 0
  let scaled := roundDiv (num * Nat.pow 10 decimals) den
  if scaled = 1000 ∧ 0 < decimals then fixedPoint (decimals - 1) 100 else fixedPoint decimals scaled

/-- The unit is the largest that is not more than the size, or the next one if the size rounds to
it. -/
def byteSize (size : Nat) : String :=
  let exact := roundBits size
  let unit := size.log2 / 10
  let unit := if roundDiv exact (Nat.pow 1024 unit) = 1024 then unit + 1 else unit
  let number :=
    if unit = 0 then toString size else threeDigits exact (Nat.pow 1024 unit)
  number ++ " " ++ byteUnits.getD unit ""

end ByteTape.Text

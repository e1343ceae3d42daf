/-!
# Hexadecimal numbers in messages

Addresses are written in lower case after `0x`, effect codes and offsets of modules in upper case.
-/

namespace ChipScore.Hexadecimal

/-- Zeros in front fill the number up to `width` digits. -/
def digits (width n : Nat) : List Char :=
  let shown := Nat.toDigits 16 n
  List.replicate (width - shown.length) '0' ++ shown

def address (width n : Nat) : String := "0x" ++ String.ofList (digits width n)

def upper (width n : Nat) : String := String.ofList ((digits width n).map Char.toUpper)

end ChipScore.Hexadecimal

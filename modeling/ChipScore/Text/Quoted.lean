import ChipScore.Text.Hexadecimal
import ChipScore.Text.Unprintable

/-!
# Quoted text in messages

Text that came from a file is shown between double quotes, with escapes for all that a reader could
not see or that would end the quotation.
-/

namespace ChipScore.Text

def escape (c : Char) : List Char :=
  if c = '\x00' then ['\\', '0']
  else if c = '\t' then ['\\', 't']
  else if c = '\r' then ['\\', 'r']
  else if c = '\n' then ['\\', 'n']
  else if c = '\\' ∨ c = '"' then ['\\', c]
  else if isUnprintable c then ['\\', 'u', '\x7b'] ++ Hexadecimal.digits 1 c.toNat ++ ['\x7d']
  else [c]

def quote (text : String) : String :=
  String.ofList ('"' :: text.toList.flatMap escape ++ ['"'])

end ChipScore.Text

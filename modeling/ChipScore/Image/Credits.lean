import ChipScore.Image.Header
import ChipScore.Text.Blank
import ChipScore.Text.Utf8

/-!
# Credits

A score ends in texts that are divided by NUL bytes: its title, who wrote it, who arranged it, and
memos. Nothing says where they start, so the end of the data is searched for what looks like text.
-/

namespace ChipScore

structure Credits where
  title : String := ""
  composer : String := ""
  arranger : String := ""
  memos : List String := []
  deriving DecidableEq, Repr

namespace Credits

def window : Nat := 500

def maxTexts : Nat := 10

/-- Signs that stand in the source of a score but not in its credits. -/
def isSourceSign (c : Char) : Bool :=
  c ∈ ['=', '<', '>', '{', '}', '[', ']']

/-- More than seven tenths of a text can be seen. -/
def isVisible (text : List Char) : Bool :=
  7 * text.length < 10 * (text.countP fun c => !Text.isControl c)

/-- The text of a piece without the blanks around it, if it looks like text. -/
def accept? (piece : List UInt8) : Option String :=
  (Utf8.decode? piece).bind fun decoded =>
    let text := Text.trim decoded.toList
    if 2 ≤ text.length ∧ !text.any isSourceSign ∧ isVisible text then some (String.ofList text)
    else none

/-- The last texts of a window that is given from its end, in the order in which they stand. `piece`
is what was read since the last NUL byte. -/
def lastTexts (found : List String) (piece : List UInt8) : List UInt8 → List String
  | [] => if found.length < maxTexts then ((accept? piece).toList ++ found) else found
  | b :: bytes =>
    if found.length < maxTexts then
      if b = 0 then lastTexts ((accept? piece).toList ++ found) [] bytes
      else lastTexts found (b :: piece) bytes
    else found

/-- The texts at the end of the data, in the order in which they stand. The header is not
searched. -/
def texts (data : List UInt8) : List String :=
  let searched := data.drop (max Header.size (data.length - window))
  lastTexts [] [] (searched.reverse.dropWhile (· = 0))

/-- One or two texts are a title after something else, three or four are all but the memos, and from
five on the memos are two. -/
def ofTexts (texts : List String) : Credits :=
  match texts.reverse with
  | [] => {}
  | [title] | [title, _] => { title }
  | [arranger, composer, title] | [arranger, composer, title, _] => { title, composer, arranger }
  | memo₂ :: memo₁ :: arranger :: composer :: title :: _ =>
    { title, composer, arranger, memos := [memo₁, memo₂] }

def ofData (data : List UInt8) : Credits := ofTexts (texts data)

end Credits

end ChipScore

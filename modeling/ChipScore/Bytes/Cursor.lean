import ChipScore.Text.Hexadecimal

/-!
# Reading bytes in order

A cursor stands at an offset of some data and reads up to a stop offset. The bytes ahead of it are a
list, so reading on is recursion on that list and jumping back is keeping an older cursor.
-/

namespace ChipScore

/-- A place in a range of bytes. `rest` holds the bytes from `offset` to `stop`, and none past the
stop. -/
structure Cursor where
  offset : Nat
  stop : Nat
  rest : List UInt8
  length_rest : rest.length = stop - offset

namespace Cursor

/-- Stands at any offset, also past the end of the data. -/
def seek (data : List UInt8) (stop offset : Nat) : Cursor where
  offset := offset
  stop := min stop data.length
  rest := (data.take stop).drop offset
  length_rest := by simp

/-- Both ends are cut to the data, and a start past the stop is moved to the stop. -/
def ofRange (data : List UInt8) (start stop : Nat) : Cursor :=
  seek data stop (min start (min stop data.length))

def ofOffset (data : List UInt8) (offset : Nat) : Cursor where
  offset := offset
  stop := data.length
  rest := data.drop offset
  length_rest := by simp

def ofList (data : List UInt8) : Cursor := ofOffset data 0

def atEnd (c : Cursor) : Bool := c.stop ≤ c.offset

def skip (n : Nat) (c : Cursor) : Cursor where
  offset := c.offset + n
  stop := c.stop
  rest := c.rest.drop n
  length_rest := by simp [c.length_rest]; omega

/-- The next `n` bytes. Past the stop not even zero bytes can be read. -/
def take? (n : Nat) (c : Cursor) : Option (List UInt8 × Cursor) :=
  if c.offset + n ≤ c.stop then some (c.rest.take n, c.skip n) else none

def peek? (c : Cursor) : Option UInt8 := c.rest.head?

def next? (c : Cursor) : Option (UInt8 × Cursor) :=
  c.peek?.map fun b => (b, c.skip 1)

/-- What to say when the bytes ahead of a cursor are too few. -/
def endMessage (c : Cursor) : String :=
  s!"unexpected end of data at offset {Hexadecimal.address 4 c.offset}"

theorem atEnd_iff (c : Cursor) : c.atEnd = true ↔ c.rest = [] := by
  have := c.length_rest
  rw [atEnd, decide_eq_true_iff, ← List.length_eq_zero_iff]
  omega

@[simp] theorem rest_skip (n : Nat) (c : Cursor) : (c.skip n).rest = c.rest.drop n := rfl

@[simp] theorem offset_skip (n : Nat) (c : Cursor) : (c.skip n).offset = c.offset + n := rfl

@[simp] theorem skip_zero (c : Cursor) : c.skip 0 = c := rfl

@[simp] theorem skip_skip (m n : Nat) (c : Cursor) : (c.skip m).skip n = c.skip (m + n) := by
  simp [skip, Nat.add_assoc]

theorem rest_skip_append {c : Cursor} {bytes rest : List UInt8} (h : c.rest = bytes ++ rest) :
    (c.skip bytes.length).rest = rest := by
  rw [rest_skip, h, List.drop_left]

@[simp] theorem rest_ofList (bytes : List UInt8) : (ofList bytes).rest = bytes := rfl

end Cursor

end ChipScore

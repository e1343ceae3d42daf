import ChipScore.Row
import ChipScore.Warning

/-!
# Effect columns

A row has only so many effect columns. An effect that finds none is carried to the next row, where
it comes before that row's own effects. Urgent effects are never carried.
-/

namespace ChipScore.Columns

/-- The first `urgent` urgent effects and the first `free` others, in their order. -/
def keep : Nat → Nat → List Effect → List Effect
  | _, _, [] => []
  | urgent, free, e :: effects =>
    if e.isUrgent then
      match urgent with
      | 0 => keep 0 free effects
      | urgent + 1 => e :: keep urgent free effects
    else
      match free with
      | 0 => keep urgent 0 effects
      | free + 1 => e :: keep urgent free effects

structure Split where
  kept : List Effect
  carried : List Effect
  dropped : List Effect
  deriving DecidableEq, Repr

/-- Urgent effects take what columns they need, and what is too many of them is dropped, the last
first. The others get the columns that are left, and the rest of them is carried. -/
def split (columns : Nat) (effects : List Effect) : Split :=
  let free := columns - effects.countP Effect.isUrgent
  { kept := keep columns free effects
    carried := (effects.filter (!·.isUrgent)).drop free
    dropped := ((effects.filter Effect.isUrgent).drop columns).reverse }

def losses (row : Nat) (effects : List Effect) : List Loss :=
  effects.map fun e => .effectDropped e.code e.value row

variable {Note Instrument : Type}

/-- Rows from `row` on, to which `carried` effects come. Nothing is carried past the last row. -/
def fitFrom (columns row : Nat) (carried : List Effect) (fitted : Array (Row Note Instrument))
    (lost : List Loss) : List (Row Note Instrument) → List (Row Note Instrument) × List Loss
  | [] => (fitted.toList, lost.reverse)
  | r :: rows =>
    let s := split columns (carried ++ r.effects)
    let fitted := fitted.push { r with effects := s.kept }
    if rows.isEmpty then
      fitFrom columns (row + 1) [] fitted
        ((losses row (s.carried.reverse ++ s.dropped)).reverse ++ lost) rows
    else
      fitFrom columns (row + 1) s.carried fitted ((losses row s.dropped).reverse ++ lost) rows

def fit (columns : Nat) (rows : List (Row Note Instrument)) :
    List (Row Note Instrument) × List Loss :=
  fitFrom columns 0 [] #[] [] rows

end ChipScore.Columns

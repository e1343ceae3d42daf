/-!
# SSG envelopes

A software envelope holds full volume, falls by its decay, and then sinks level by level while the
key is held and, from the decayed level again, after it is released. The tracker plays it as a list
of levels, one per tick, that waits at the release point until the key is let go.
-/

namespace ChipScore

/-- `attack` is in ticks, `decay` in levels, and `sustain` and `release` in ticks per level. -/
structure Envelope where
  attack : UInt8 := 0
  decay : Int8 := 0
  sustain : UInt8 := 0
  release : UInt8 := 0
  deriving DecidableEq, Repr

structure Segment where
  level : UInt8
  hold : Nat
  deriving DecidableEq, Repr

/-- The release point is the step that the macro waits on. -/
structure VolumeMacro where
  steps : List UInt8
  releasePoint : Option UInt8
  deriving DecidableEq, Repr

namespace Envelope

def fullLevel : Nat := 15

def stepLimit : Nat := 255

def name (e : Envelope) : String :=
  s!"E{e.attack},{e.decay},{e.sustain},{e.release}"

def decayed (e : Envelope) : Nat := min (fullLevel + e.decay.toInt).toNat fullLevel

def silence : Segment := ⟨0, 1⟩

/-- The levels from `top - 1` down to `floor`, each held for as long. -/
def fall (top floor hold : Nat) : List Segment :=
  ((List.range' floor (top - floor)).reverse).map fun n => ⟨UInt8.ofNat n, hold⟩

def attackSegments (e : Envelope) : List Segment :=
  if e.attack = 0 then [] else [⟨UInt8.ofNat fullLevel, e.attack.toNat⟩]

/-- A sustain of zero keeps the decayed level. -/
def sustainSegments (e : Envelope) : List Segment :=
  if e.sustain = 0 then [⟨UInt8.ofNat e.decayed, 1⟩]
  else fall (e.decayed + 1) 1 e.sustain.toNat ++ [silence]

def held (e : Envelope) : List Segment := e.attackSegments ++ e.sustainSegments

/-- A release of zero is silent at once. -/
def released (e : Envelope) : List Segment :=
  if e.release = 0 ∨ e.decayed = 0 then [silence] else fall e.decayed 0 e.release.toNat

def expand (segments : List Segment) : List UInt8 :=
  segments.flatMap fun s => List.replicate s.hold s.level

def steps (e : Envelope) : List UInt8 := expand e.held ++ expand e.released

def isCut (e : Envelope) : Bool := stepLimit < e.steps.length

/-- Steps past the limit are cut. A macro whose held part does not fit has no release point. -/
def volumeMacro (e : Envelope) : VolumeMacro :=
  let heldLength := (expand e.held).length
  { steps := e.steps.take stepLimit
    releasePoint :=
      if heldLength ≤ stepLimit then some (UInt8.ofNat (heldLength - 1)) else none }

end Envelope

end ChipScore

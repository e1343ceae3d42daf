import ChipScore.Row
import ChipScore.Tracker.Instrument
import ChipScore.Warning

/-!
# Instrument banks

A module numbers its instruments from zero, 256 at the most: first the FM voices in the order of
their numbers in the score, each voice once, then one instrument for each SSG envelope in the order
in which the envelopes are first asked for.
-/

namespace ChipScore.Tracker

/-- `voices` says at which index the voice with a number stands, the latest entry first. -/
structure Bank where
  entries : Array Instrument := #[]
  voices : List (UInt8 × Nat) := []
  fallback : Option Nat := none
  deriving DecidableEq, Repr

namespace Bank

def maxSize : Nat := 256

def size (b : Bank) : Nat := b.entries.size

def isFull (b : Bank) : Bool := maxSize ≤ b.size

def voiceIndex? (b : Bank) (voice : Voice) : Option Nat :=
  b.entries.findIdx? fun
    | .fm _ v => v = voice
    | .ssg .. => false

def envelopeIndex? (b : Bank) (envelope : Envelope) : Option Nat :=
  b.entries.findIdx? fun
    | .fm .. => false
    | .ssg _ e => e = envelope

/-- The index of the instrument for a timbre. A voice number that the score does not define
gets the fallback. -/
def resolve? (b : Bank) : Timbre → Option UInt8
  | .fm number => ((b.voices.lookup number).or b.fallback).map UInt8.ofNat
  | .ssg envelope => (b.envelopeIndex? envelope).map UInt8.ofNat

/-! ## Filling a bank -/

def add (b : Bank) (i : Instrument) : Bank × List Loss :=
  if b.isFull then (b, [.instrumentDropped i.name])
  else ({ b with entries := b.entries.push i }, [])

def assign (b : Bank) (number : UInt8) (index : Nat) : Bank :=
  { b with voices := (number, index) :: b.voices }

/-- A voice that is there already is used again. -/
def addVoice (b : Bank) (r : VoiceRecord) : Bank × List Loss :=
  match b.voiceIndex? r.voice with
  | some index => (b.assign r.id index, [])
  | none =>
    let (added, losses) := b.add (.fm ("FM " ++ Hexadecimal.upper 2 r.id.toNat) r.voice)
    (if b.isFull then added else added.assign r.id b.size, losses)

/-- Without any voice, a plain one is added as soon as a row asks for one. -/
def addFallback (b : Bank) (needed : Bool) : Bank × List Loss :=
  if b.entries.isEmpty then
    if needed then
      let (added, losses) := b.add (.fm "FM default" .plain)
      ({ added with fallback := some 0 }, losses)
    else (b, [])
  else ({ b with fallback := some 0 }, [])

def addEnvelope (b : Bank) (envelope : Envelope) : Bank × List Loss :=
  if (b.envelopeIndex? envelope).isSome then (b, [])
  else
    let name := "SSG " ++ envelope.name
    let cut := if envelope.isCut then [.volumeMacroCut name Envelope.stepLimit] else []
    let (added, losses) := b.add (.ssg name envelope)
    (added, cut ++ losses)

def addTimbre (b : Bank) : Timbre → Bank × List Loss
  | .fm _ => (b, [])
  | .ssg envelope => b.addEnvelope envelope

def isFm : Timbre → Bool
  | .fm _ => true
  | .ssg _ => false

def addAll {α : Type} (add : Bank → α → Bank × List Loss) (b : Bank) (xs : List α) :
    Bank × Array Loss :=
  xs.foldl (fun (b, lost) x =>
      let (b, losses) := add b x
      (b, lost.appendList losses)) (b, #[])

/-- The bank for the voices of a score and the timbres that its rows ask for, and what was lost. -/
def build (voices : List VoiceRecord) (timbres : List Timbre) : Bank × List Loss :=
  let (fm, fmLosses) := addAll addVoice {} (voices.mergeSort fun r s => r.id ≤ s.id)
  let (fm, fallbackLosses) := fm.addFallback (timbres.any isFm)
  let (all, ssgLosses) := addAll addTimbre fm timbres
  (all, fmLosses.toList ++ fallbackLosses ++ ssgLosses.toList)

end Bank

end ChipScore.Tracker

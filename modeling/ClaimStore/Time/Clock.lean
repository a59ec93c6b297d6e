import ClaimStore.Time.Timestamp

/-!
Clocks that are moved by hand.

A clock can have copies; they all show the same time and are moved together.
-/
namespace ClaimStore

/-- Clocks in the order in which they were made. Each shows one of the `times`. -/
structure Clocks where
  times : List Timestamp
  shown : List Nat
  deriving DecidableEq

namespace Clocks

def start (time : Timestamp) : Clocks := ⟨[time], [0]⟩

def now? (clocks : Clocks) (clock : Nat) : Option Timestamp := do
  clocks.times[← clocks.shown[clock]?]?

def change (clocks : Clocks) (clock : Nat) (step : Timestamp → Timestamp) : Clocks :=
  match clocks.shown[clock]? with
  | none => clocks
  | some place => { clocks with times := clocks.times.modify place step }

def set (clocks : Clocks) (clock : Nat) (time : Timestamp) : Clocks :=
  clocks.change clock fun _ => time

def advance (clocks : Clocks) (clock : Nat) (millis : UInt64) : Clocks :=
  clocks.change clock fun time => time.advance millis

def copy (clocks : Clocks) (clock : Nat) : Clocks :=
  { clocks with shown := clocks.shown ++ clocks.shown[clock]?.toList }

/-- Appends a clock of its own that starts at the time of a clock. -/
def separate (clocks : Clocks) (clock : Nat) : Clocks :=
  match clocks.now? clock with
  | none => clocks
  | some time => ⟨clocks.times ++ [time], clocks.shown ++ [clocks.times.length]⟩

end Clocks

end ClaimStore

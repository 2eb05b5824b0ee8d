/-!
Sinks with limited room. A sink takes units, characters or bytes, while they fit; at the
first that does not fit it stops, and it takes nothing after that.
-/

namespace SeqStore

structure Sink (υ : Type) where
  room : Nat
  taken : Array υ := #[]
  stopped : Bool := false

namespace Sink

variable {υ : Type}

def offer (cost : υ → Nat) (s : Sink υ) (u : υ) : Sink υ :=
  if s.stopped then s
  else if cost u ≤ s.room then ⟨s.room - cost u, s.taken.push u, false⟩
  else { s with stopped := true }

/-- Offer the units of one piece, in order. -/
def write (cost : υ → Nat) (s : Sink υ) (piece : List υ) : Sink υ := piece.foldl (offer cost) s

/-- Write piece after piece. -/
def writeAll (cost : υ → Nat) (s : Sink υ) (pieces : List (List υ)) : Sink υ :=
  pieces.foldl (write cost) s

end Sink

/-- A sink of bytes could not take all that was written. -/
inductive WriteError where
  | noRoom
  deriving DecidableEq, Repr

def WriteError.message : WriteError → String
  | .noRoom => "WriteZero: failed to write whole buffer"

end SeqStore

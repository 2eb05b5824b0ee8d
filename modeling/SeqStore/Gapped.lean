import SeqStore.Container

/-!
Gapped sequences: a row of places, some of them empty, under a length that is only claimed.
They have nothing but a length and access, and so show what the default search makes of
both; they write no log.
-/

namespace SeqStore

structure Gapped (α : Type) where
  places : Array (Option α)
  claimed : UInt64

namespace Gapped

variable {α : Type}

/-- An empty place has no element to find, and past the last place the position is out of
the range of places there are. -/
def get (g : Gapped α) (idx : UInt64) : Except AccessError α :=
  match g.places[idx.toNat]? with
  | some (some x) => .ok x
  | some none => .error .notFound
  | none => .error (.outOfRange idx g.places.size.toUInt64)

instance : Container (Gapped α) α where
  len g := g.claimed
  get g idx := return g.get idx

end Gapped

end SeqStore

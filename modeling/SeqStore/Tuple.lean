import SeqStore.Container

/-!
Tuples: sequences that are fixed once they are built.
-/

namespace SeqStore

structure Tuple (α : Type) where
  elements : Array α

namespace Tuple

variable {α : Type}

def ofList (xs : List α) : Tuple α := ⟨xs.toArray⟩

def toList (t : Tuple α) : List α := t.elements.toList

def count (t : Tuple α) : UInt64 := t.elements.size.toUInt64

/-- Position of the first element equal to `x`. -/
def index [BEq α] (t : Tuple α) (x : α) : Option UInt64 :=
  (t.elements.findIdx? (· == x)).map (·.toUInt64)

def contains [BEq α] (t : Tuple α) (x : α) : Bool := t.elements.any (· == x)

/-- The element at `idx`. -/
def get (t : Tuple α) (idx : UInt64) : Traced (Except AccessError α) :=
  match t.elements[idx.toNat]? with
  | some x => return .ok x
  | none => return .error (← reject idx t.count)

/-- The element at a position that has to exist. -/
def getOrAbort (t : Tuple α) (idx : UInt64) : Traced (Except Abort α) :=
  return (← t.get idx).mapError .position

/-- Tuples are equal when they have the same size and their elements are equal, pairwise. -/
instance [BEq α] : BEq (Tuple α) where
  beq a b := a.elements == b.elements

instance : Container (Tuple α) α where
  len := count
  get := get
  index t x := return t.index x

end Tuple

end SeqStore

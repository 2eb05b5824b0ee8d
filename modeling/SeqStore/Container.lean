import SeqStore.LinkedList

/-!
The interfaces that containers share. A `Container` has a length and positional access;
whether it is empty, where an element stands and whether it has one follow from these two by
default. A `MutableContainer` can also append, remove by value and write at a position.
-/

namespace SeqStore

/-- The first position, from `pos` on and among the next `count`, that passes `test`. -/
def firstPosition (test : UInt64 → Traced Bool) (pos : UInt64) : Nat → Traced (Option UInt64)
  | 0 => return none
  | count + 1 => do
      if ← test pos then return some pos
      else firstPosition test (pos + 1) count

/-- Search by length and access alone: the first position below `len` at which `get` succeeds
with an element equal to `x`. Positions at which it fails are passed over. -/
def search {α : Type} [BEq α] (len : UInt64) (get : UInt64 → Traced (Except AccessError α))
    (x : α) : Traced (Option UInt64) :=
  firstPosition (fun pos => do
    match ← get pos with
    | .ok stored => return stored == x
    | .error _ => return false) 0 len.toNat

class Container (γ : Type) (α : outParam Type) where
  len : γ → UInt64
  get : γ → UInt64 → Traced (Except AccessError α)
  isEmpty : γ → Bool := fun c => len c == 0
  index : [BEq α] → γ → α → Traced (Option UInt64) := fun c x => search (len c) (get c) x
  contains : [BEq α] → γ → α → Traced Bool := fun c x => return (← index c x).isSome

class MutableContainer (γ : Type) (α : outParam Type) extends Container γ α where
  append : γ → α → Traced (Change Abort Unit γ)
  remove : [BEq α] → γ → α → Traced (Change AccessError α γ)
  set : γ → UInt64 → α → Traced (Change AccessError α γ)

/-- A list searches by walking its nodes. -/
instance {α : Type} : MutableContainer (LinkedList α) α where
  len l := l.len
  get := LinkedList.get
  index l x := return l.index x
  append l x := return ⟨.ok (), ← l.append x⟩
  remove := LinkedList.remove
  set := LinkedList.set

end SeqStore

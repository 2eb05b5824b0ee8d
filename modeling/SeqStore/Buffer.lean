import SeqStore.Container

/-!
Buffers: sequences in consecutive storage. They differ in where the storage lies and in
whether it can grow; only storage of fixed capacity can be full. Searching is the default
search over length and access.
-/

namespace SeqStore

inductive Storage where
  /-- Grows without a limit. -/
  | growable
  /-- Holds at most `capacity` elements, in place. -/
  | fixed (capacity : Nat)
  /-- Starts in place with room for `capacity` and moves out when that is used up. -/
  | small (capacity : Nat)
  /-- Like `small`, with every unused place filled. -/
  | tiny (capacity : Nat)
  deriving DecidableEq, Repr

/-- The most elements the storage can ever hold. -/
def Storage.limit : Storage → Option Nat
  | .fixed capacity => some capacity
  | .growable | .small _ | .tiny _ => none

structure Buffer (α : Type) where
  storage : Storage
  items : Array α

namespace Buffer

variable {α : Type}

def empty (storage : Storage) : Buffer α := ⟨storage, #[]⟩

def toList (b : Buffer α) : List α := b.items.toList

def len (b : Buffer α) : UInt64 := b.items.size.toUInt64

def isFull (b : Buffer α) : Bool :=
  match b.storage.limit with
  | some capacity => decide (capacity ≤ b.items.size)
  | none => false

/-- The element at `idx`. -/
def get (b : Buffer α) (idx : UInt64) : Traced (Except AccessError α) :=
  match b.items[idx.toNat]? with
  | some x => return .ok x
  | none => return .error (← reject idx b.len)

/-- Add `x` after the last element. -/
def append (b : Buffer α) (x : α) : Traced (Change Abort Unit (Buffer α)) :=
  if b.isFull then return ⟨.error .full, b⟩
  else return ⟨.ok (), { b with items := b.items.push x }⟩

/-- Append the elements of `xs` one by one, up to the first that finds no room. -/
def appendAll (b : Buffer α) : List α → Traced (Change Abort Unit (Buffer α))
  | [] => return ⟨.ok (), b⟩
  | x :: xs => do
      let change ← b.append x
      match change.answer with
      | .ok _ => change.after.appendAll xs
      | .error abort => return ⟨.error abort, change.after⟩

/-- Remove the first element equal to `x` and hand it out. -/
def remove [BEq α] (b : Buffer α) (x : α) : Traced (Change AccessError α (Buffer α)) :=
  match b.items.findFinIdx? (· == x) with
  | some pos => return ⟨.ok b.items[pos], { b with items := b.items.eraseIdx pos }⟩
  | none => do
      Traced.emit (.absentFromBuffer b.len)
      return ⟨.error .notFound, b⟩

/-- Write `x` at `idx`; the element that stood there is handed out. -/
def set (b : Buffer α) (idx : UInt64) (x : α) : Traced (Change AccessError α (Buffer α)) :=
  if h : idx.toNat < b.items.size then
    return ⟨.ok b.items[idx.toNat], { b with items := b.items.set idx.toNat x }⟩
  else return ⟨.error (← reject idx b.len), b⟩

instance : MutableContainer (Buffer α) α where
  len := len
  get := get
  append := append
  remove := remove
  set := set

end Buffer

end SeqStore

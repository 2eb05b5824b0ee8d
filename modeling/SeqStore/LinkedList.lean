import SeqStore.AccessError
import SeqStore.Source

/-!
Linked lists: a chain of nodes and a counter of its length. The counter is kept by every
operation on its own and is trusted by `append`, which walks that many links to find the
end. The plain view of a list is `toList`, the elements of its chain.
-/

namespace SeqStore

structure LinkedList (α : Type) where
  head : Chain α
  len : UInt64

namespace LinkedList

variable {α : Type}

def empty : LinkedList α := ⟨.empty, 0⟩

def toList (l : LinkedList α) : List α := l.head.toList

def isEmpty (l : LinkedList α) : Bool := l.len == 0

/-- Position of the first element equal to `x`. -/
def index [BEq α] (l : LinkedList α) (x : α) : Option UInt64 := l.head.indexFrom x 0

def contains [BEq α] (l : LinkedList α) (x : α) : Bool := (l.index x).isSome

/-- Add `x` after the last element. -/
def append (l : LinkedList α) (x : α) : Traced (LinkedList α) := do
  let head := (l.head.atLink (fun _ => ((), .node x .empty)) l.len.toNat).2
  let len := l.len + 1
  Traced.emit (.appended len)
  return ⟨head, len⟩

/-- Take the node at `pos` out, its successors moving up to its predecessor. -/
def unlink (l : LinkedList α) (pos : UInt64) : Traced (Change AccessError α (LinkedList α)) :=
  let take : Chain α → Option α × Chain α
    | .empty => (none, .empty)
    | .node data next => (some data, next)
  match l.head.atLink take pos.toNat with
  | (some data, head) => return ⟨.ok data, ⟨head, l.len - 1⟩⟩
  | (none, head) => do
      let error ← reject pos l.len
      return ⟨.error error, ⟨head, l.len⟩⟩

/-- Remove the first element equal to `x` and hand it out. -/
def remove [BEq α] (l : LinkedList α) (x : α) :
    Traced (Change AccessError α (LinkedList α)) :=
  match l.index x with
  | none => do
      Traced.emit (.absentFromList l.len)
      return ⟨.error .notFound, l⟩
  | some pos => do
      let change ← l.unlink pos
      match change.answer with
      | .error _ => return change
      | .ok _ =>
          Traced.emit (.removed pos change.after.len)
          return change

/-- The element at `idx`. -/
def get (l : LinkedList α) (idx : UInt64) : Traced (Except AccessError α) :=
  match l.head.getFrom idx 0 with
  | some x => return .ok x
  | none => return .error (← reject idx l.len)

/-- Write `x` at `idx`; the element that stood there is handed out. -/
def set (l : LinkedList α) (idx : UInt64) (x : α) :
    Traced (Change AccessError α (LinkedList α)) :=
  match l.head.setFrom idx x 0 with
  | some (old, head) => return ⟨.ok old, ⟨head, l.len⟩⟩
  | none => return ⟨.error (← reject idx l.len), l⟩

/-- The element at a position that has to exist. -/
def getOrAbort (l : LinkedList α) (idx : UInt64) : Traced (Except Abort α) :=
  return (← l.get idx).mapError .position

/-- Write at a position that has to exist. -/
def setOrAbort (l : LinkedList α) (idx : UInt64) (x : α) :
    Traced (Change Abort α (LinkedList α)) := do
  let change ← l.set idx x
  return ⟨change.answer.mapError .position, change.after⟩

def clear (l : LinkedList α) : Traced (LinkedList α) := do
  Traced.emit (.cleared l.len)
  return empty

/-- Add all that `source` delivers after the last element, which is looked up once. What was
delivered stays when the source breaks off. -/
def extend (l : LinkedList α) (source : Source α) : Traced (Change Abort Unit (LinkedList α)) :=
  let (tail, len) := source.link l.len
  let extended : LinkedList α := ⟨l.head.joinEnd tail, len⟩
  match source.failure with
  | some reason => return ⟨.error (.source reason), extended⟩
  | none => do
      Traced.emit (.extended (len - l.len) len)
      return ⟨.ok (), extended⟩

/-- The list of the elements of `xs`, built in one go. -/
def ofList (xs : List α) : Traced (LinkedList α) :=
  return (← empty.extend (.ofList xs)).after

/-- The list of the copies of the elements, with the counter taken over. -/
def clone (l : LinkedList α) (copy : α → α) : LinkedList α := ⟨l.head.clone copy, l.len⟩

/-- Lists are equal when their lengths are and their elements are, pairwise. -/
instance [BEq α] : BEq (LinkedList α) where
  beq a b := a.len == b.len && a.head.agree b.head

end LinkedList

end SeqStore

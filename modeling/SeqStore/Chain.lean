/-!
Chains of nodes. A chain is a link: empty, or a node with its element and the link to the
rest. Walks count their steps in 64-bit words, as the lists built on chains do, and compare
with the stored element on the left. The plain view of a chain is `toList`.
-/

namespace SeqStore

inductive Chain (α : Type) where
  | empty
  | node (data : α) (next : Chain α)

namespace Chain

variable {α β : Type}

def toList : Chain α → List α
  | .empty => []
  | .node data next => data :: next.toList

def ofList : List α → Chain α
  | [] => .empty
  | x :: xs => .node x (ofList xs)

/-- Work on the link that lies `steps` nodes ahead: `f` sees that link, answers, and says
what to put in its place. A shorter chain is worked on at its last, empty link. -/
def atLink (f : Chain α → β × Chain α) : Nat → Chain α → β × Chain α
  | 0, link => f link
  | _ + 1, .empty => f .empty
  | steps + 1, .node data next =>
      let (answer, next') := atLink f steps next
      (answer, .node data next')

/-- Put `tail` in the place of the last, empty link. -/
def joinEnd : Chain α → Chain α → Chain α
  | .empty, tail => tail
  | .node data next, tail => .node data (next.joinEnd tail)

/-- The chain of the copies of the elements, node by node. -/
def clone (copy : α → α) : Chain α → Chain α
  | .empty => .empty
  | .node data next => .node (copy data) (next.clone copy)

/-- Position of the first element equal to `x`, the first node of the chain being at `pos`. -/
def indexFrom [BEq α] (x : α) (pos : UInt64) : Chain α → Option UInt64
  | .empty => none
  | .node data next => if data == x then some pos else indexFrom x (pos + 1) next

/-- The element at `idx`, the first node of the chain being at `pos`. -/
def getFrom (idx pos : UInt64) : Chain α → Option α
  | .empty => none
  | .node data next => if pos = idx then some data else getFrom idx (pos + 1) next

/-- Write `x` at `idx`, the first node of the chain being at `pos`; the element that stood
there is handed out. -/
def setFrom (idx : UInt64) (x : α) (pos : UInt64) : Chain α → Option (α × Chain α)
  | .empty => none
  | .node data next =>
      if pos = idx then some (data, .node x next)
      else (setFrom idx x (pos + 1) next).map fun (old, next') => (old, .node data next')

/-- The elements agree pairwise for as long as both chains last. -/
def agree [BEq α] : Chain α → Chain α → Bool
  | .node a as, .node b bs => a == b && agree as bs
  | _, _ => true

@[simp] theorem toList_ofList (xs : List α) : (ofList xs).toList = xs := by
  induction xs with
  | nil => rfl
  | cons x xs ih => simp [ofList, toList, ih]

@[simp] theorem toList_joinEnd (c tail : Chain α) :
    (c.joinEnd tail).toList = c.toList ++ tail.toList := by
  induction c with
  | empty => rfl
  | node a c ih => simp [joinEnd, toList, ih]

end Chain

end SeqStore

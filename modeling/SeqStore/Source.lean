import SeqStore.Chain

/-!
Sources of elements. A source hands out elements one by one; in the end it is exhausted, or
it breaks off with a reason before it has delivered all it was asked for.
-/

namespace SeqStore

inductive Source (α : Type) where
  | exhausted
  | broken (reason : String)
  | next (x : α) (rest : Source α)

namespace Source

variable {α : Type}

def ofList : List α → Source α
  | [] => .exhausted
  | x :: xs => .next x (ofList xs)

/-- Delivers `xs` but breaks off when asked for the element at position `after`, if there is
one. -/
def breakAt (reason : String) : Nat → List α → Source α
  | _, [] => .exhausted
  | 0, _ :: _ => .broken reason
  | after + 1, x :: xs => .next x (breakAt reason after xs)

/-- All elements the source hands out. -/
def delivered : Source α → List α
  | .exhausted => []
  | .broken _ => []
  | .next x rest => x :: rest.delivered

/-- Why the source breaks off, if it does. -/
def failure : Source α → Option String
  | .exhausted => none
  | .broken reason => some reason
  | .next _ rest => rest.failure

/-- Link the delivered elements up, counting each on top of `len` as it comes. -/
def link : Source α → UInt64 → Chain α × UInt64
  | .exhausted, len => (.empty, len)
  | .broken _, len => (.empty, len)
  | .next x rest, len =>
      let (chain, total) := rest.link (len + 1)
      (.node x chain, total)

@[simp] theorem delivered_ofList (xs : List α) : (ofList xs).delivered = xs := by
  induction xs with
  | nil => rfl
  | cons x xs ih => simp [ofList, delivered, ih]

@[simp] theorem failure_ofList (xs : List α) : (ofList xs).failure = none := by
  induction xs with
  | nil => rfl
  | cons x xs ih => simp [ofList, failure, ih]

end Source

end SeqStore

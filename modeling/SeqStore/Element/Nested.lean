import SeqStore.Element.Basic

/-!
Nested values: an integer, a list of nested values or a tuple of nested values. Each is
compared, shown and encoded as what it holds; values of different kinds are never equal.
JSON does not tell lists and tuples apart, so an array is always decoded as a list.
-/

namespace SeqStore

inductive Nested where
  | int (n : Int64)
  | list (l : LinkedList Nested)
  | tuple (t : Tuple Nested)

namespace Nested

/-! ## Equality -/

mutual

def beq : Nested → Nested → Bool
  | .int m, .int n => m == n
  | .list ⟨a, m⟩, .list ⟨b, n⟩ => m == n && chainBeq a b
  | .tuple ⟨⟨a⟩⟩, .tuple ⟨⟨b⟩⟩ => listBeq a b
  | _, _ => false

/-- Chains agree pairwise for as long as both last. -/
def chainBeq : Chain Nested → Chain Nested → Bool
  | .node a as, .node b bs => beq a b && chainBeq as bs
  | _, _ => true

def listBeq : List Nested → List Nested → Bool
  | [], [] => true
  | a :: as, b :: bs => beq a b && listBeq as bs
  | _, _ => false

end

instance : BEq Nested := ⟨beq⟩

/-! ## Text and JSON -/

section

variable {β : Type} (int : Int64 → β) (list tuple : List β → β)

mutual

/-- The value from what integers come to and from what lists and tuples make of their elements. -/
def fold : Nested → β
  | .int n => int n
  | .list ⟨c, _⟩ => list (foldChain c)
  | .tuple ⟨⟨xs⟩⟩ => tuple (foldList xs)

def foldChain : Chain Nested → List β
  | .empty => []
  | .node x next => fold x :: foldChain next

def foldList : List Nested → List β
  | [] => []
  | x :: xs => fold x :: foldList xs

end

end

def pieces : Nested → List String := fold Display.pieces Display.bracketed Display.parenthesised

instance : Display Nested := ⟨pieces⟩

/-- Elements are shown one level deeper than what they lie in, and those of a tuple another. -/
def debug (style : Text.Style) (depth : Nat) (x : Nested) : String :=
  x.fold (fun n depth => Debug.debug style depth n)
    (fun elements depth => Debug.sequence style depth (elements.map (· (depth + 1))))
    (fun elements depth =>
      Debug.record style depth
        (Debug.sequence style (depth + 1) (elements.map (· (depth + 2)))))
    depth

/-- Every nested value has a JSON value. -/
def toJson : Nested → Json := fold (fun n => .int n.toInt) .array .array

mutual

def decode : Json → Decoder Nested
  | .int n =>
      if Element.FitsInt64 n then return .int (Int64.ofInt n)
      else throw (.wrongType (.int n) .sequence)
  | .array items => do
      let xs ← decodeEach items
      let l ← LinkedList.ofList xs
      return .list l
  | v => throw (.wrongType v .sequence)

def decodeEach : List Json → Decoder (List Nested)
  | [] => return []
  | v :: vs => do
      let x ← decode v
      let xs ← decodeEach vs
      return x :: xs

end

instance : Element Nested where
  debug := debug
  encode x := return x.toJson
  decode := decode
  feed? := none

end Nested

end SeqStore

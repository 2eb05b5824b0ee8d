import SeqStore.Json.Basic
import SeqStore.Tuple

/-!
Containers as JSON: a list and a tuple are both the array of their elements. The first
element that cannot be encoded gives the error.
-/

namespace SeqStore

inductive EncodeError where
  /-- A caseless text may not be empty. -/
  | emptyCaseless
  deriving DecidableEq, Repr

def EncodeError.message : EncodeError → String
  | .emptyCaseless => "empty ci"

class Encode (α : Type) where
  encode : α → Except EncodeError Json

namespace Encode

variable {α : Type}

/-- Encode one element after the other. -/
def each [Encode α] : List α → Except EncodeError (List Json)
  | [] => return []
  | x :: xs => do
      let v ← encode x
      let vs ← each xs
      return v :: vs

/-- A list announces its counter as the number of elements to come. That does not show in the
array where the counter is right, as in all lists that operations build, and is left out. -/
instance [Encode α] : Encode (LinkedList α) where
  encode l := .array <$> each l.toList

instance [Encode α] : Encode (Tuple α) where
  encode t := .array <$> each t.toList

/-- The compact JSON text of a value. -/
def toText [Encode α] (x : α) : Except EncodeError String := Json.render <$> encode x

end Encode

end SeqStore

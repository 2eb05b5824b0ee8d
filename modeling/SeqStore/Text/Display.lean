import SeqStore.Sink
import SeqStore.Tuple

/-!
Display texts. A value is shown as a sequence of pieces that go to a sink one after another;
its text is the pieces joined. A list stands in square brackets, a tuple in round ones,
elements are divided by a comma and a blank.
-/

namespace SeqStore

class Display (α : Type) where
  pieces : α → List String

namespace Display

variable {α : Type}

/-- The text of a value. -/
def text [Display α] (x : α) : String := String.join (pieces x)

/-- The pieces of several values with a comma and a blank between neighbours. -/
def separated : List (List String) → List String
  | [] => []
  | [p] => p
  | p :: q :: rest => p ++ ", " :: separated (q :: rest)

def bracketed (parts : List (List String)) : List String := "[" :: separated parts ++ ["]"]

def parenthesised (parts : List (List String)) : List String := "(" :: separated parts ++ [")"]

instance [Display α] : Display (LinkedList α) where
  pieces l := bracketed (l.toList.map pieces)

instance [Display α] : Display (Tuple α) where
  pieces t := parenthesised (t.toList.map pieces)

/-- Show `x` in a sink of `limit` bytes that takes whole characters. -/
def into [Display α] (limit : Nat) (x : α) : Sink Char :=
  Sink.writeAll Char.utf8Size ⟨limit, #[], false⟩ ((pieces x).map String.toList)

/-- The bytes of a piece of text. -/
def utf8 (s : String) : List UInt8 := s.toList.flatMap String.utf8EncodeChar

/-- The text of `x` as a line of its own, piece by piece. -/
def line [Display α] (x : α) : List String := pieces x ++ ["\n"]

/-- All bytes of the line of `x`. -/
def lineBytes [Display α] (x : α) : List UInt8 := (line x).flatMap utf8

/-- Write the line of `x` to a sink of `limit` bytes. -/
def lineInto [Display α] (limit : Nat) (x : α) : Sink UInt8 :=
  Sink.writeAll (fun _ => 1) ⟨limit, #[], false⟩ ((line x).map utf8)

end Display

end SeqStore

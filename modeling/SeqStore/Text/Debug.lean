import SeqStore.Text.Integer
import SeqStore.Tuple

/-!
Debug texts. In the compact form a sequence stands on one line; in the pretty form each
element has a line of its own, four blanks deeper than the brackets around it, and ends in a
comma. A tuple is written as a record with one field.
-/

namespace SeqStore

class Debug (α : Type) where
  /-- The text of a value whose first line stands `depth` levels deep. -/
  debug : Text.Style → (depth : Nat) → α → String

namespace Debug

variable {α : Type}

def indent (depth : Nat) : String := String.ofList (List.replicate (4 * depth) ' ')

/-- The pretty form of the inside of a pair of brackets. -/
def lines (depth : Nat) (parts : List String) : String :=
  "\n" ++ String.join (parts.map fun p => indent (depth + 1) ++ p ++ ",\n") ++ indent depth

/-- A sequence of parts, each of them written for one level below `depth`. -/
def sequence (style : Text.Style) (depth : Nat) (parts : List String) : String :=
  if style.pretty then
    if parts.isEmpty then "[]" else "[" ++ lines depth parts ++ "]"
  else "[" ++ ", ".intercalate parts ++ "]"

/-- The record around the elements of a tuple; `elements` is written one level below. -/
def record (style : Text.Style) (depth : Nat) (elements : String) : String :=
  if style.pretty then "Tuple \x7b" ++ lines depth ["elements: " ++ elements] ++ "\x7d"
  else "Tuple \x7b elements: " ++ elements ++ " \x7d"

instance [Debug α] : Debug (LinkedList α) where
  debug style depth l := sequence style depth (l.toList.map (debug style (depth + 1)))

instance [Debug α] : Debug (Tuple α) where
  debug style depth t :=
    record style depth (sequence style (depth + 1) (t.toList.map (debug style (depth + 2))))

end Debug

end SeqStore

import SeqStore.Json.Reader
import SeqStore.Text.Quoted
import SeqStore.Tuple

/-!
Containers from JSON. Elements are decoded from left to right and the first that is refused
gives the error; lists report their completion to the log even if something after them
fails.
-/

namespace SeqStore

/-- What a place in a JSON value should hold. -/
inductive Shape where
  | integer
  | byte
  | real
  | text
  | sequence
  deriving DecidableEq, Repr

def Shape.word : Shape → String
  | .integer => "i64"
  | .byte => "u8"
  | .real => "f64"
  | .text => "a string"
  | .sequence => "a sequence"

/-- How a JSON value is named in a message. -/
def Json.describe : Json → String
  | .null => "null"
  | .bool true => "boolean `true`"
  | .bool false => "boolean `false`"
  | .int n => "integer `" ++ Text.integer n ++ "`"
  | .float x => "floating point `" ++ Decimal.json.text x ++ "`"
  | .string s => "string " ++ Text.quoted s
  | .array _ => "sequence"
  | .object _ => "map"

inductive DecodeError where
  /-- A value of another kind. -/
  | wrongType (found : Json) (expected : Shape)
  /-- A whole number beyond the range of the kind. -/
  | beyondRange (found : Int) (expected : Shape)
  /-- A caseless text may not be empty. -/
  | emptyCaseless

def DecodeError.message : DecodeError → String
  | .wrongType found expected => "invalid type: " ++ found.describe ++ ", expected " ++ expected.word
  | .beyondRange found expected =>
      "invalid value: " ++ (Json.int found).describe ++ ", expected " ++ expected.word
  | .emptyCaseless => "empty ci"

/-- A decoding may fail; the log of what it built before stays. -/
abbrev Decoder := ExceptT DecodeError Traced

class Decode (α : Type) where
  decode : Json → Decoder α

namespace Decode

variable {α : Type}

/-- Decode one value after the other. -/
def each (decode : Json → Decoder α) : List Json → Decoder (List α)
  | [] => return []
  | v :: vs => do
      let x ← decode v
      let xs ← each decode vs
      return x :: xs

/-- The elements of an array. -/
def sequence [Decode α] : Json → Decoder (List α)
  | .array items => each decode items
  | v => throw (.wrongType v .sequence)

instance [Decode α] : Decode (LinkedList α) where
  decode v := do
    let xs ← sequence v
    LinkedList.ofList xs

instance [Decode α] : Decode (Tuple α) where
  decode v := return Tuple.ofList (← sequence v)

/-- Decode the array a text starts with. Elements are decoded as they are read, so those in
front of the place where a text breaks off leave their log; the container is built at the
end of the array, and only then must blanks follow. -/
def ofText {γ : Type} [Decode α] (build : List α → Traced γ) (text : String) :
    Traced (Option γ) := do
  let (items, rest) := Json.elementsUntil Json.maxDepth text.toList
  match ← (each decode items).run, rest with
  | .ok xs, some rest => do
      let c ← build xs
      return if (Json.skipBlanks rest).isEmpty then some c else none
  | _, _ => return none

/-- A list from the text of an array. -/
def listOfText [Decode α] (text : String) : Traced (Option (LinkedList α)) :=
  ofText LinkedList.ofList text

/-- A tuple from the text of an array. -/
def tupleOfText [Decode α] (text : String) : Traced (Option (Tuple α)) :=
  ofText (fun xs => return Tuple.ofList xs) text

end Decode

end SeqStore

import SeqStore.Decode
import SeqStore.Encode
import SeqStore.Feed
import SeqStore.Text.Debug
import SeqStore.Text.Display

/-!
What containers may hold, and the plain kinds of elements: integers of 64 bits, bytes, texts
and real numbers.
-/

namespace SeqStore

/-- Elements can be compared, shown, and put into and taken out of JSON. Some kinds can also
be hashed. -/
class Element (α : Type) extends BEq α, Display α, Debug α, Encode α, Decode α where
  feed? : Option (α → List UInt8)

namespace Element

/-! ## Integers -/

/-- Whether a whole number has a place among the integers of 64 bits. -/
def FitsInt64 (n : Int) : Prop := Int64.minValue.toInt ≤ n ∧ n ≤ Int64.maxValue.toInt

instance (n : Int) : Decidable (FitsInt64 n) := inferInstanceAs (Decidable (_ ∧ _))

/-- The integer in a JSON value, if it fits. -/
def int64 : Json → Decoder Int64
  | .int n =>
      if FitsInt64 n then return Int64.ofInt n
      else throw (.beyondRange n .integer)
  | v => throw (.wrongType v .integer)

instance : Display Int64 where
  pieces n := [Text.integer n.toInt]

instance : Feed Int64 where
  feed n := Feed.word n.toUInt64

instance : Element Int64 where
  debug style _ n := style.integer n.toInt n.toUInt64.toNat
  encode n := return .int n.toInt
  decode := int64
  feed? := some Feed.feed

/-! ## Bytes -/

/-- The byte in a JSON value, if it fits. -/
def byte : Json → Decoder UInt8
  | .int n =>
      if 0 ≤ n ∧ n ≤ 255 then return UInt8.ofNat n.toNat
      else throw (.beyondRange n .byte)
  | v => throw (.wrongType v .byte)

instance : Display UInt8 where
  pieces n := [Text.natural n.toNat]

instance : Feed UInt8 where
  feed n := [n]

instance : Element UInt8 where
  debug style _ n := style.integer n.toNat n.toNat
  encode n := return .int n.toNat
  decode := byte
  feed? := some Feed.feed

/-! ## Texts -/

/-- The text in a JSON value. -/
def text : Json → Decoder String
  | .string s => return s
  | v => throw (.wrongType v .text)

instance : Display String where
  pieces s := [s]

instance : Feed String where
  feed := Feed.text

instance : Element String where
  debug _ _ s := Text.quoted s
  encode s := return .string s
  decode := text
  feed? := some Feed.feed

/-! ## Real numbers -/

/-- The number in a JSON value, rounded if it is a whole number of too many digits. -/
def real : Json → Decoder Float
  | .int n => return if n < 0 then -(Float.ofNat n.natAbs) else Float.ofNat n.natAbs
  | .float x => return x
  | v => throw (.wrongType v .real)

instance : Display Float where
  pieces x := [Decimal.display.text x]

/-- Numbers compare as numbers: the zeros are equal, and what is no number equals nothing. -/
instance : Element Float where
  debug _ _ x := Decimal.debug.text x
  encode x := return .float x
  decode := real
  feed? := none

end Element

end SeqStore

import SeqStore.Tuple

/-!
Hash feeds: the bytes a value hands to a hasher. A word is fed with its lowest byte first, a
text is closed by a byte that no text contains, and a tuple is opened by its number of
elements, so that no feed is the start of another.
-/

namespace SeqStore

class Feed (α : Type) where
  feed : α → List UInt8

namespace Feed

variable {α : Type}

/-- The eight bytes of a word, the lowest first. -/
def word (w : UInt64) : List UInt8 :=
  [w, w >>> 8, w >>> 16, w >>> 24, w >>> 32, w >>> 40, w >>> 48, w >>> 56].map UInt64.toUInt8

/-- The bytes of a text and the byte that closes it. -/
def text (s : String) : List UInt8 := s.toList.flatMap String.utf8EncodeChar ++ [0xff]

/-- The number of elements, then each element. -/
def tuple (feed : α → List UInt8) (t : Tuple α) : List UInt8 :=
  word t.count ++ t.toList.flatMap feed

instance [Feed α] : Feed (Tuple α) := ⟨tuple feed⟩

end Feed

end SeqStore

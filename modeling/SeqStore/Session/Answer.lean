import SeqStore.Decode
import SeqStore.Encode
import SeqStore.Sink

/-!
What comes of a command: an answer, or a failure with its cause. Failures inside the
containers have words of their own; a text that cannot be read and a command that does not
apply have none.
-/

namespace SeqStore

inductive Answer (α : Type) where
  | done
  | count (n : UInt64)
  | flag (b : Bool)
  | position (pos : Option UInt64)
  | element (x : α)
  | elements (xs : List α)
  | text (s : String)
  /-- What a sink of characters took, and whether that was all. -/
  | shown (taken : String) (complete : Bool)
  | bytes (bs : List UInt8)
  /-- What a sink of bytes took, and why not all. -/
  | written (bs : List UInt8) (error : Option WriteError)

inductive Failure where
  | access (error : AccessError)
  | abort (cause : Abort)
  | decode (error : DecodeError)
  /-- A text that is not JSON, or not of the elements asked for. -/
  | unreadable
  | encode (error : EncodeError)
  | noSuchVariable
  | unsupported

namespace Failure

/-- What went wrong, where there are words for it. -/
def message : Failure → Option String
  | .access error => some error.message
  | .abort cause => some cause.message
  | .decode error => some error.message
  | .encode error => some error.message
  | .unreadable | .noSuchVariable | .unsupported => none

end Failure

namespace Answer

variable {α : Type}

/-- The answer of a character sink. -/
def ofText (s : Sink Char) : Answer α := .shown (String.ofList s.taken.toList) (!s.stopped)

/-- The answer of a byte sink. -/
def ofBytes (s : Sink UInt8) : Answer α :=
  .written s.taken.toList (if s.stopped then some .noRoom else none)

end Answer

end SeqStore

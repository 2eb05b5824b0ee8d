import SeqStore.Traced

/-!
Why a container turns a request down: as an `AccessError` that the caller receives, or as
an `Abort` that ends the operation on the spot. Both have one text each, and the text of an
abort over a position is that of the error behind it.
-/

namespace SeqStore

inductive AccessError where
  /-- Position `index` of a container of `len` elements. -/
  | outOfRange (index len : UInt64)
  /-- No element matched the one to remove. -/
  | notFound
  deriving DecidableEq, Repr

namespace AccessError

def message : AccessError → String
  | .outOfRange index len =>
      "index out of range: the len is " ++ toString len.toNat ++ " but the index is "
        ++ toString index.toNat
  | .notFound => "element not found"

/-- The error on one line, its fields by name. -/
def debug : AccessError → String
  | .outOfRange index len =>
      "IndexOutOfRange \x7b index: " ++ toString index.toNat ++ ", len: " ++ toString len.toNat
        ++ " \x7d"
  | .notFound => "ElementNotFound"

/-- The error with one field a line, four blanks deep. -/
def prettyDebug : AccessError → String
  | .outOfRange index len =>
      "IndexOutOfRange \x7b\n    index: " ++ toString index.toNat ++ ",\n    len: "
        ++ toString len.toNat ++ ",\n\x7d"
  | .notFound => "ElementNotFound"

/-- The error that lies behind this one: each kind stands for itself, so there is none. -/
def source? (_ : AccessError) : Option AccessError := none

end AccessError

/-- Turn down position `index` of a container of `len` elements, with a note in the log. -/
def reject (index len : UInt64) : Traced AccessError := do
  Traced.emit (.rejected index len)
  return .outOfRange index len

inductive Abort where
  /-- A position that had to exist does not. -/
  | position (cause : AccessError)
  /-- A buffer of fixed capacity has no room left. -/
  | full
  /-- The source of elements broke off, for this reason. -/
  | source (reason : String)
  deriving DecidableEq, Repr

def Abort.message : Abort → String
  | .position cause => cause.message
  | .full =>
      "called `Result::unwrap()` on an `Err` value: CapacityError: insufficient capacity"
  | .source reason => reason

end SeqStore

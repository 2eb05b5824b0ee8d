import SeqStore.Source
import SeqStore.Text.Spec

/-!
What can be done with one container.
-/

namespace SeqStore

/-- Lists and tuples can be asked directly or through the shared interface; the other kinds
have the interface only. -/
inductive Route where
  | own
  | shared
  deriving DecidableEq, Repr

inductive Action (α : Type) where
  | len (route : Route)
  | isEmpty (route : Route)
  | index (route : Route) (x : α)
  | contains (route : Route) (x : α)
  | get (route : Route) (idx : UInt64)
  | append (route : Route) (x : α)
  | remove (route : Route) (x : α)
  | set (route : Route) (idx : UInt64) (x : α)
  /-- The element at a position that has to exist. -/
  | getOrAbort (idx : UInt64)
  /-- Write at a position that has to exist. -/
  | setOrAbort (idx : UInt64) (x : α)
  | clear
  /-- Copy the elements of a list. -/
  | copyOut
  /-- See the elements of a tuple. -/
  | view
  /-- Turn a tuple into a growable buffer, and see the elements. -/
  | release
  | extend (source : Source α)
  | format (spec : Text.Spec)
  /-- Show the container in a sink of characters with room for `limit` bytes. -/
  | formatInto (limit : Nat)
  /-- The bytes of the container's line. -/
  | writeLine
  /-- Write the container's line to a sink of `limit` bytes. -/
  | writeLineInto (limit : Nat)
  /-- The container's line as text. -/
  | print
  | toJson
  | feed

end SeqStore

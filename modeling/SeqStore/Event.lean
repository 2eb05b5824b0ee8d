/-!
Log events. A container reports what it did to its elements and which requests it
turned down; an event carries only lengths and positions, never an element.
-/

namespace SeqStore

/-- How loud an event is: changes are traced, refusals are for debugging. -/
inductive Level where
  | trace
  | debug
  deriving DecidableEq, Repr

def Level.word : Level → String
  | .trace => "TRACE"
  | .debug => "DEBUG"

inductive Event where
  /-- A list grew by one element, to `len`. -/
  | appended (len : UInt64)
  /-- The element at `pos` left a list, which now has `len`. -/
  | removed (pos len : UInt64)
  /-- A list of `dropped` elements was emptied. -/
  | cleared (dropped : UInt64)
  /-- A list grew by `added` elements, to `len`. -/
  | extended (added len : UInt64)
  /-- No element of a list of `len` matched the one to remove. -/
  | absentFromList (len : UInt64)
  /-- No element of a buffer of `len` matched the one to remove. -/
  | absentFromBuffer (len : UInt64)
  /-- Position `index` was asked of a container of `len`. -/
  | rejected (index len : UInt64)
  deriving DecidableEq, Repr

namespace Event

def level : Event → Level
  | .appended _ | .removed _ _ | .cleared _ | .extended _ _ => .trace
  | .absentFromList _ | .absentFromBuffer _ | .rejected _ _ => .debug

/-- The part of the program that speaks. -/
def origin : Event → String
  | .appended _ | .removed _ _ | .cleared _ | .extended _ _ | .absentFromList _ => "containers::list"
  | .absentFromBuffer _ => "containers::impls"
  | .rejected _ _ => "containers::error"

def message : Event → String
  | .appended _ => "appended list node"
  | .removed _ _ => "removed list node"
  | .cleared _ => "cleared list"
  | .extended _ _ => "extended list"
  | .absentFromList _ => "element to remove is not in list"
  | .absentFromBuffer _ => "element to remove is not in vector"
  | .rejected _ _ => "rejected out-of-range position"

/-- The numbers of an event under their names. -/
def fields : Event → List (String × UInt64)
  | .appended len => [("len", len)]
  | .removed pos len => [("pos", pos), ("len", len)]
  | .cleared dropped => [("dropped", dropped)]
  | .extended added len => [("added", added), ("len", len)]
  | .absentFromList len => [("len", len)]
  | .absentFromBuffer len => [("len", len)]
  | .rejected index len => [("index", index), ("len", len)]

end Event

end SeqStore

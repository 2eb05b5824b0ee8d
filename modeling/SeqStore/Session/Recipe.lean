import SeqStore.Session.Vessel

/-!
How containers come into being: empty, from given elements, or from JSON.
-/

namespace SeqStore

/-- The two kinds of container that can be read from JSON. -/
inductive Readable where
  | list
  | tuple
  deriving DecidableEq, Repr

/-- How a container is made. -/
inductive Recipe (α : Type) where
  | emptyList
  | list (xs : List α)
  | tuple (xs : List α)
  | buffer (storage : Storage) (xs : List α)
  | gapped (places : List (Option α)) (claimed : UInt64)
  | json (kind : Readable) (v : Json)
  | text (kind : Readable) (s : String)

namespace Recipe

variable {α : Type} [Element α]

def build : Recipe α → Traced (Except Failure (Vessel α))
  | .emptyList => return .ok (.list .empty)
  | .list xs => return .ok (.list (← LinkedList.ofList xs))
  | .tuple xs => return .ok (.tuple (.ofList xs))
  | .buffer storage xs => do
      let change ← (Buffer.empty storage).appendAll xs
      match change.answer with
      | .ok _ => return .ok (.buffer change.after)
      | .error cause => return .error (.abort cause)
  | .gapped places claimed => return .ok (.gapped ⟨places.toArray, claimed⟩)
  | .json .list v => do
      match ← (Decode.decode v).run with
      | .ok l => return .ok (.list l)
      | .error error => return .error (.decode error)
  | .json .tuple v => do
      match ← (Decode.decode v).run with
      | .ok t => return .ok (.tuple t)
      | .error error => return .error (.decode error)
  | .text .list s => do
      match ← Decode.listOfText s with
      | some l => return .ok (.list l)
      | none => return .error .unreadable
  | .text .tuple s => do
      match ← Decode.tupleOfText s with
      | some t => return .ok (.tuple t)
      | none => return .error .unreadable

end Recipe

end SeqStore

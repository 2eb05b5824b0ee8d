import SeqStore.Buffer
import SeqStore.Element.Basic
import SeqStore.Gapped
import SeqStore.Session.Action
import SeqStore.Session.Answer

/-!
One container of any kind, and how it takes an action. Not every kind has every action; a
missing one fails and changes nothing.
-/

namespace SeqStore

/-- A container of any kind. -/
inductive Vessel (α : Type) where
  | list (l : LinkedList α)
  | tuple (t : Tuple α)
  | gapped (g : Gapped α)
  | buffer (b : Buffer α)

namespace Vessel

variable {α : Type}

/-- An answer that leaves the container as it is. -/
def keep (v : Vessel α) (answer : Except Failure (Answer α)) :
    Change Failure (Answer α) (Vessel α) := ⟨answer, v⟩

/-- An element, or the error of the access. -/
def access : Except AccessError α → Except Failure (Answer α)
  | .ok x => .ok (.element x)
  | .error error => .error (.access error)

/-- An element, or the abort of the access. -/
def demand : Except Abort α → Except Failure (Answer α)
  | .ok x => .ok (.element x)
  | .error cause => .error (.abort cause)

/-- Nothing, or the abort of the operation. -/
def finish : Except Abort Unit → Except Failure (Answer α)
  | .ok _ => .ok .done
  | .error cause => .error (.abort cause)

/-- A container in the format of a specification. -/
def formatted {γ : Type} [Display γ] [Debug γ] (x : γ) : Text.Spec → String
  | .display => Display.text x
  | .debug style => Debug.debug style 0 x

/-- The JSON text of a container, or why there is none. -/
def encoded {γ : Type} [Encode γ] (x : γ) : Except Failure (Answer α) :=
  match Encode.toText x with
  | .ok s => .ok (.text s)
  | .error error => .error (.encode error)

section

variable [Element α]

/-- Actions of the shared interface for reading. -/
def read {γ : Type} [Container γ α] (c : γ) : Action α → Traced (Except Failure (Answer α))
  | .len _ => return .ok (.count (Container.len c))
  | .isEmpty _ => return .ok (.flag (Container.isEmpty c))
  | .index _ x => return .ok (.position (← Container.index c x))
  | .contains _ x => return .ok (.flag (← Container.contains c x))
  | .get _ idx => return access (← Container.get c idx)
  | _ => return .error .unsupported

/-- Actions of the shared interface for reading and changing. -/
def edit {γ : Type} [MutableContainer γ α] (wrap : γ → Vessel α) (c : γ) :
    Action α → Traced (Change Failure (Answer α) (Vessel α))
  | .append _ x => do
      let change ← MutableContainer.append c x
      return ⟨finish change.answer, wrap change.after⟩
  | .remove _ x => do
      let change ← MutableContainer.remove c x
      return ⟨access change.answer, wrap change.after⟩
  | .set _ idx x => do
      let change ← MutableContainer.set c idx x
      return ⟨access change.answer, wrap change.after⟩
  | action => return (wrap c).keep (← read c action)

/-- Actions of lists. -/
def actOnList (l : LinkedList α) : Action α → Traced (Change Failure (Answer α) (Vessel α))
  | .len .own => return keep (.list l) (.ok (.count l.len))
  | .isEmpty .own => return keep (.list l) (.ok (.flag l.isEmpty))
  | .index .own x => return keep (.list l) (.ok (.position (l.index x)))
  | .contains .own x => return keep (.list l) (.ok (.flag (l.contains x)))
  | .get .own idx => return keep (.list l) (access (← l.get idx))
  | .append .own x => return ⟨.ok .done, .list (← l.append x)⟩
  | .remove .own x => do
      let change ← l.remove x
      return ⟨access change.answer, .list change.after⟩
  | .set .own idx x => do
      let change ← l.set idx x
      return ⟨access change.answer, .list change.after⟩
  | .getOrAbort idx => return keep (.list l) (demand (← l.getOrAbort idx))
  | .setOrAbort idx x => do
      let change ← l.setOrAbort idx x
      return ⟨demand change.answer, .list change.after⟩
  | .clear => return ⟨.ok .done, .list (← l.clear)⟩
  | .copyOut => return keep (.list l) (.ok (.elements l.toList))
  | .extend source => do
      let change ← l.extend source
      return ⟨finish change.answer, .list change.after⟩
  | .format spec => return keep (.list l) (.ok (.text (formatted l spec)))
  | .formatInto limit => return keep (.list l) (.ok (.ofText (Display.into limit l)))
  | .writeLine => return keep (.list l) (.ok (.bytes (Display.lineBytes l)))
  | .writeLineInto limit => return keep (.list l) (.ok (.ofBytes (Display.lineInto limit l)))
  | .print => return keep (.list l) (.ok (.text (String.join (Display.line l))))
  | .toJson => return keep (.list l) (encoded l)
  | action => edit .list l action

/-- Actions of tuples. -/
def actOnTuple (t : Tuple α) : Action α → Traced (Change Failure (Answer α) (Vessel α))
  | .len .own => return keep (.tuple t) (.ok (.count t.count))
  | .index .own x => return keep (.tuple t) (.ok (.position (t.index x)))
  | .contains .own x => return keep (.tuple t) (.ok (.flag (t.contains x)))
  | .get .own idx => return keep (.tuple t) (access (← t.get idx))
  | .getOrAbort idx => return keep (.tuple t) (demand (← t.getOrAbort idx))
  | .view => return keep (.tuple t) (.ok (.elements t.toList))
  | .release => return ⟨.ok (.elements t.toList), .buffer ⟨.growable, t.elements⟩⟩
  | .format spec => return keep (.tuple t) (.ok (.text (formatted t spec)))
  | .formatInto limit => return keep (.tuple t) (.ok (.ofText (Display.into limit t)))
  | .toJson => return keep (.tuple t) (encoded t)
  | .feed =>
      match (Element.feed? : Option (α → List UInt8)) with
      | some feed => return keep (.tuple t) (.ok (.bytes (Feed.tuple feed t)))
      | none => return keep (.tuple t) (.error .unsupported)
  | action => return keep (.tuple t) (← read t action)

/-- Do something with a container. -/
def act (action : Action α) : Vessel α → Traced (Change Failure (Answer α) (Vessel α))
  | .list l => actOnList l action
  | .tuple t => actOnTuple t action
  | .gapped g => return keep (.gapped g) (← read g action)
  | .buffer b => edit .buffer b action

end

end Vessel

end SeqStore

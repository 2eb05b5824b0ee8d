import SeqStore.Event

/-!
Computations with a log. `Traced α` is a value together with the events that led to it,
oldest first; sequencing two computations appends their logs.
-/

namespace SeqStore

structure Traced (α : Type) where
  value : α
  log : List Event
  deriving Repr

namespace Traced

variable {α β : Type}

@[inline] def pure (value : α) : Traced α := ⟨value, []⟩

@[inline] def bind : Traced α → (α → Traced β) → Traced β
  | ⟨value, log⟩, f =>
      let next := f value
      ⟨next.value, log ++ next.log⟩

instance : Monad Traced where
  pure := pure
  bind := bind

instance : LawfulMonad Traced := LawfulMonad.mk' Traced
  (by intro α x; simp [Functor.map, bind, pure])
  (by intro α β x f; simp [Bind.bind, Pure.pure, bind, pure])
  (by intro α β γ x f g; simp [Bind.bind, bind, List.append_assoc])

/-- Add one event to the log. -/
def emit (e : Event) : Traced Unit := ⟨(), [e]⟩

@[simp] theorem value_pure (x : α) : (Pure.pure x : Traced α).value = x := rfl
@[simp] theorem log_pure (x : α) : (Pure.pure x : Traced α).log = [] := rfl
@[simp] theorem value_bind (x : Traced α) (f : α → Traced β) :
    (x >>= f).value = (f x.value).value := rfl
@[simp] theorem log_bind (x : Traced α) (f : α → Traced β) :
    (x >>= f).log = x.log ++ (f x.value).log := rfl
@[simp] theorem value_map (f : α → β) (x : Traced α) : (f <$> x).value = f x.value := rfl
@[simp] theorem log_map (f : α → β) (x : Traced α) : (f <$> x).log = x.log :=
  List.append_nil x.log
@[simp] theorem value_emit (e : Event) : (emit e).value = () := rfl
@[simp] theorem log_emit (e : Event) : (emit e).log = [e] := rfl

end Traced

/-- What a changing operation leaves behind: its answer or its failure, and in both cases
the container as it now is. -/
structure Change (ε β γ : Type) where
  answer : Except ε β
  after : γ

end SeqStore

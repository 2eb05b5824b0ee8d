import SeqStore.Session.Recipe

/-!
Sessions: containers under names. A session starts without any and is changed by one command
at a time; a command that fails answers with its failure, and the session goes on.
-/

namespace SeqStore

/-- Named containers, in the order in which the names came up. -/
structure Session (α : Type) where
  vars : List (String × Vessel α)

/-- What is done to the container of one name, possibly with that of another. -/
inductive Command (α : Type) where
  | make (recipe : Recipe α)
  | drop
  | act (action : Action α)
  /-- Store a copy under the name `dst`. -/
  | clone (dst : String)
  /-- Leave an empty list behind and store the old one under the name `dst`. -/
  | take (dst : String)
  | eq (other : String)
  /-- Extend a list by a copy of the elements of another container. -/
  | extendFrom (other : String)

namespace Session

variable {α : Type}

def empty : Session α := ⟨[]⟩

def find? (s : Session α) (name : String) : Option (Vessel α) := s.vars.lookup name

/-- Give `name` the value `v`, where it stands or else at the end. -/
def assign (name : String) (v : Vessel α) : List (String × Vessel α) → List (String × Vessel α)
  | [] => [(name, v)]
  | (n, w) :: rest => if name == n then (n, v) :: rest else (n, w) :: assign name v rest

/-- Store a container under a name, in the place of the one that was there. -/
def put (s : Session α) (name : String) (v : Vessel α) : Session α := ⟨assign name v s.vars⟩

def erase (s : Session α) (name : String) : Session α :=
  ⟨s.vars.filter fun (n, _) => !(name == n)⟩

/-- A failure that leaves the session as it is. -/
def fail (s : Session α) (failure : Failure) : Change Failure (Answer α) (Session α) :=
  ⟨.error failure, s⟩

/-- Extend the list `l`, which is called `name`, by the elements of `xs`. -/
def extendBy (s : Session α) (name : String) (l : LinkedList α) (xs : List α) :
    Traced (Change Failure (Answer α) (Session α)) := do
  let change ← l.extend (.ofList xs)
  return ⟨Vessel.finish change.answer, s.put name (.list change.after)⟩

variable [Element α]

/-- Run a command on the container called `name`. -/
def exec (s : Session α) (name : String) :
    Command α → Traced (Change Failure (Answer α) (Session α))
  | .make recipe => do
      match ← recipe.build with
      | .ok v => return ⟨.ok .done, s.put name v⟩
      | .error failure => return s.fail failure
  | .drop => return ⟨.ok (.flag (s.find? name).isSome), s.erase name⟩
  | .act action =>
      match s.find? name with
      | none => return s.fail .noSuchVariable
      | some v => do
          let change ← v.act action
          return ⟨change.answer, s.put name change.after⟩
  | .clone dst =>
      match s.find? name with
      | none => return s.fail .noSuchVariable
      -- elements are values, and the copy of a value is that value
      | some (.list l) => return ⟨.ok .done, s.put dst (.list (l.clone id))⟩
      | some (.tuple t) => return ⟨.ok .done, s.put dst (.tuple t)⟩
      | some _ => return s.fail .unsupported
  | .take dst =>
      match s.find? name with
      | none => return s.fail .noSuchVariable
      | some (.list l) => return ⟨.ok .done, (s.put name (.list .empty)).put dst (.list l)⟩
      | some _ => return s.fail .unsupported
  | .eq other =>
      match s.find? name, s.find? other with
      | some (.list a), some (.list b) => return ⟨.ok (.flag (a == b)), s⟩
      | some (.tuple a), some (.tuple b) => return ⟨.ok (.flag (a == b)), s⟩
      | some _, some _ => return s.fail .unsupported
      | _, _ => return s.fail .noSuchVariable
  | .extendFrom other =>
      match s.find? name, s.find? other with
      | some (.list l), some (.list source) => s.extendBy name l source.toList
      | some (.list l), some (.tuple source) => s.extendBy name l source.toList
      | some _, some _ => return s.fail .unsupported
      | _, _ => return s.fail .noSuchVariable

end Session

end SeqStore

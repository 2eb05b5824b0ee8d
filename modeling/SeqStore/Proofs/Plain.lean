import Mathlib.Logic.Function.Basic
import SeqStore.Proofs.Rendering
import SeqStore.Proofs.Request
import SeqStore.Session.Basic

/-!
Sessions in which every list is a plain sequence. There are no nodes and no counter here:
a name stands for a sequence, or for a container of another kind as it is, and a command is
read off the sequences it concerns.
-/

namespace SeqStore

variable {α : Type}

/-! ## Sequences -/

namespace Sequence

/-- The texts of the elements, in square brackets. -/
def text [Display α] (xs : List α) : String :=
  "[" ++ ", ".intercalate (xs.map Display.text) ++ "]"

/-- The debug texts of the elements, in square brackets. In the pretty form each element has a line
of its own, if there is any. -/
def debugText [Debug α] (style : Text.Style) (xs : List α) : String :=
  let texts := xs.map (Debug.debug style 1)
  if style.pretty ∧ xs ≠ [] then
    "[\n" ++ String.join (texts.map fun s => "    " ++ s ++ ",\n") ++ "]"
  else "[" ++ ", ".intercalate texts ++ "]"

def formatted [Display α] [Debug α] (xs : List α) : Text.Spec → String
  | .display => text xs
  | .debug style => debugText style xs

/-- The longest start of the text that fits into `limit` bytes, and whether that is all. -/
def shown [Display α] (limit : Nat) (xs : List α) : Answer α :=
  .shown (String.ofList (Sink.fitting Char.utf8Size limit (text xs).toList))
    (decide ((text xs).utf8ByteSize ≤ limit))

/-- The text as a line of its own. -/
def line [Display α] (xs : List α) : String := text xs ++ "\n"

def lineBytes [Display α] (xs : List α) : List UInt8 := (line xs).toUTF8.data.toList

/-- As many bytes of the line as the limit allows, and an error if there are more. -/
def written [Display α] (limit : Nat) (xs : List α) : Answer α :=
  .written ((lineBytes xs).take limit)
    (if limit < (lineBytes xs).length then some .noRoom else none)

/-- The JSON texts of the elements, in square brackets, unless one of them has none. -/
def json [Encode α] (xs : List α) : Except Failure (Answer α) :=
  match xs.mapM Encode.encode with
  | .ok values => .ok (.text ("[" ++ ",".intercalate (values.map Json.render) ++ "]"))
  | .error error => .error (.encode error)

end Sequence

/-- What an action on a list means for a plain sequence. -/
def actOnSequence [Element α] (xs : List α) : Action α → Change Failure (Answer α) (List α)
  | .len _ => Request.len.plain xs
  | .isEmpty _ => Request.isEmpty.plain xs
  | .index _ x => (Request.index x).plain xs
  | .contains _ x => (Request.contains x).plain xs
  | .get _ idx => (Request.get idx).plain xs
  | .append _ x => (Request.append x).plain xs
  | .remove _ x => (Request.remove x).plain xs
  | .set _ idx x => (Request.set idx x).plain xs
  | .getOrAbort idx => ⟨Vessel.demand ((Request.entry xs idx).mapError .position), xs⟩
  | .setOrAbort idx x =>
      ⟨Vessel.demand ((Request.entry xs idx).mapError .position), xs.set idx.toNat x⟩
  | .clear => ⟨.ok .done, []⟩
  | .copyOut => ⟨.ok (.elements xs), xs⟩
  | .extend source =>
      let answer := match source.failure with
        | some reason => .error (.abort (.source reason))
        | none => .ok .done
      ⟨answer, xs ++ source.delivered⟩
  | .format spec => ⟨.ok (.text (Sequence.formatted xs spec)), xs⟩
  | .formatInto limit => ⟨.ok (Sequence.shown limit xs), xs⟩
  | .writeLine => ⟨.ok (.bytes (Sequence.lineBytes xs)), xs⟩
  | .writeLineInto limit => ⟨.ok (Sequence.written limit xs), xs⟩
  | .print => ⟨.ok (.text (Sequence.line xs)), xs⟩
  | .toJson => ⟨Sequence.json xs, xs⟩
  | .view | .release | .feed => ⟨.error .unsupported, xs⟩

/-! ## What a name stands for -/

inductive Content (α : Type) where
  | sequence (xs : List α)
  /-- A container that is not a list. -/
  | other (v : Vessel α)

namespace Content

/-- Few enough elements for a word to count. -/
def Short : Content α → Prop
  | .sequence xs => xs.length < UInt64.size
  | .other _ => True

instance : (c : Content α) → Decidable c.Short
  | .sequence xs => inferInstanceAs (Decidable (xs.length < UInt64.size))
  | .other _ => inferInstanceAs (Decidable True)

variable [Element α]

def act (action : Action α) : Content α → Change Failure (Answer α) (Content α)
  | .sequence xs =>
      let change := actOnSequence xs action
      ⟨change.answer, .sequence change.after⟩
  | .other v =>
      let change := (v.act action).value
      ⟨change.answer, .other change.after⟩

def build : Recipe α → Except Failure (Content α)
  | .emptyList => .ok (.sequence [])
  | .list xs => .ok (.sequence xs)
  | .json .list v =>
      match (Decode.sequence v).run.value with
      | .ok xs => .ok (.sequence xs)
      | .error error => .error (.decode error)
  | .text .list s =>
      match (Decode.ofText (pure : List α → Traced (List α)) s).value with
      | some xs => .ok (.sequence xs)
      | none => .error .unreadable
  | recipe => recipe.build.value.map .other

end Content

/-! ## Plain sessions -/

/-- Contents under names. -/
abbrev Store (α : Type) : Type := String → Option (Content α)

namespace Store

def empty : Store α := fun _ => none

def put (p : Store α) (name : String) (c : Content α) : Store α := Function.update p name (some c)

def erase (p : Store α) (name : String) : Store α := Function.update p name none

/-- No sequence is longer than a word can count. -/
def Short (p : Store α) : Prop := ∀ name c, p name = some c → c.Short

theorem short_empty : (empty : Store α).Short := nofun

theorem Short.put {p : Store α} (h : p.Short) {name : String} {c : Content α}
    (hc : c.Short) : (p.put name c).Short := by
  intro other d hd
  rw [Store.put, Function.update_apply] at hd
  by_cases ho : other = name
  · simp only [ho, ↓reduceIte, Option.some.injEq] at hd
    exact hd ▸ hc
  · exact h other d (by simpa [ho] using hd)

variable [Element α]

/-- Run a command on what is called `name`. -/
def exec (p : Store α) (name : String) : Command α → Change Failure (Answer α) (Store α)
  | .make recipe =>
      match Content.build recipe with
      | .ok c => ⟨.ok .done, p.put name c⟩
      | .error failure => ⟨.error failure, p⟩
  | .drop => ⟨.ok (.flag (p name).isSome), p.erase name⟩
  | .act action =>
      match p name with
      | none => ⟨.error .noSuchVariable, p⟩
      | some c => ⟨(c.act action).answer, p.put name (c.act action).after⟩
  | .clone dst =>
      match p name with
      | none => ⟨.error .noSuchVariable, p⟩
      | some (.sequence xs) => ⟨.ok .done, p.put dst (.sequence xs)⟩
      | some (.other (.tuple t)) => ⟨.ok .done, p.put dst (.other (.tuple t))⟩
      | some _ => ⟨.error .unsupported, p⟩
  | .take dst =>
      match p name with
      | none => ⟨.error .noSuchVariable, p⟩
      | some (.sequence xs) =>
          ⟨.ok .done, (p.put name (.sequence [])).put dst (.sequence xs)⟩
      | some _ => ⟨.error .unsupported, p⟩
  | .eq other =>
      match p name, p other with
      | some (.sequence xs), some (.sequence ys) => ⟨.ok (.flag (xs == ys)), p⟩
      | some (.other (.tuple a)), some (.other (.tuple b)) => ⟨.ok (.flag (a == b)), p⟩
      | some _, some _ => ⟨.error .unsupported, p⟩
      | _, _ => ⟨.error .noSuchVariable, p⟩
  | .extendFrom other =>
      match p name, p other with
      | some (.sequence xs), some (.sequence ys) =>
          ⟨.ok .done, p.put name (.sequence (xs ++ ys))⟩
      | some (.sequence xs), some (.other (.tuple t)) =>
          ⟨.ok .done, p.put name (.sequence (xs ++ t.toList))⟩
      | some _, some _ => ⟨.error .unsupported, p⟩
      | _, _ => ⟨.error .noSuchVariable, p⟩

/-- What each command of a run comes to, and what it leaves. -/
def run (p : Store α) : List (String × Command α) → List (Change Failure (Answer α) (Store α))
  | [] => []
  | (name, command) :: rest =>
      let step := p.exec name command
      step :: run step.after rest

end Store

namespace Session

variable [Element α]

/-- What each command of a run comes to, and what it leaves. -/
def run (s : Session α) :
    List (String × Command α) → List (Traced (Change Failure (Answer α) (Session α)))
  | [] => []
  | (name, command) :: rest =>
      let step := s.exec name command
      step :: run step.value.after rest

end Session

end SeqStore

import SeqStore.Text.Integer

/-!
Format specifications, such as `{:05?}`: after a colon an alignment with an optional
fill, a plus sign, `#` for the pretty form, a zero for zero filling, a width, a precision
and the kind of text. A display text ignores all of them, so only its kind is kept.
-/

namespace SeqStore.Text

inductive Spec where
  | display
  | debug (style : Style)
  deriving DecidableEq, Repr

namespace Spec

private def alignOf : Char → Option Align
  | '<' => some .left
  | '^' => some .center
  | '>' => some .right
  | _ => none

/-- The alignment at the front of a specification, with the character to fill with. -/
private def alignment : List Char → Style × List Char
  | fill :: c :: rest =>
      match alignOf c, alignOf fill with
      | some align, _ => ({ fill, align }, rest)
      | none, some align => ({ align }, c :: rest)
      | none, none => ({}, fill :: c :: rest)
  | [c] =>
      match alignOf c with
      | some align => ({ align }, [])
      | none => ({}, [c])
  | [] => ({}, [])

/-- Whether `c` comes next, and what follows it. -/
private def flag (c : Char) : List Char → Bool × List Char
  | d :: rest => if d = c then (true, rest) else (false, d :: rest)
  | [] => (false, [])

private def digits (cs : List Char) : Nat × List Char :=
  (Nat.ofDigitChars 10 (cs.takeWhile Char.isDigit) 0, cs.dropWhile Char.isDigit)

/-- What may stand after the colon. -/
private def afterColon (cs : List Char) : Option Spec :=
  let (style, cs) := alignment cs
  let (plus, cs) := flag '+' cs
  let (pretty, cs) := flag '#' cs
  let (zeroFill, cs) := flag '0' cs
  let (width, cs) := digits cs
  let (precise, cs) := flag '.' cs
  let cs := if precise then (digits cs).2 else cs
  let style := { style with plus, pretty, zeroFill, width }
  match cs with
  | [] => some .display
  | ['?'] => some (.debug style)
  | ['x', '?'] => some (.debug { style with hex := true })
  | _ => none

def ofString? (s : String) : Option Spec :=
  match s.toList with
  | '\x7b' :: rest =>
      match rest.getLast?, rest.dropLast with
      | some '\x7d', [] => some .display
      | some '\x7d', ':' :: inner => afterColon inner
      | _, _ => none
  | _ => none

end Spec

end SeqStore.Text

/-!
Integers as text: in base ten with a minus sign, and padded to a width in a given style.
-/

namespace SeqStore.Text

def natural (n : Nat) : String := String.ofList (Nat.toDigits 10 n)

def integer : Int → String
  | .ofNat n => natural n
  | .negSucc n => "-" ++ natural (n + 1)

/-- What integers are written with. -/
def isNumeral (c : Char) : Bool := c.isDigit || c == '-'

theorem isDigit_of_mem_natural {n : Nat} {c : Char} (h : c ∈ (natural n).toList) : c.isDigit := by
  rw [natural, String.toList_ofList] at h
  exact Nat.isDigit_of_mem_toDigits (by decide) (by decide) h

theorem isNumeral_of_mem_integer {n : Int} {c : Char} (h : c ∈ (integer n).toList) :
    isNumeral c := by
  cases n with
  | ofNat n => simp [isNumeral, isDigit_of_mem_natural h]
  | negSucc n =>
    rw [integer, String.toList_append, List.mem_append] at h
    rcases h with hminus | hdigit
    · obtain rfl : c = '-' := by simpa using hminus
      rfl
    · simp [isNumeral, isDigit_of_mem_natural hdigit]

/-- The text of an integer begins, with a digit or the minus sign. -/
theorem integer_begins (n : Int) : ∃ c cs, (integer n).toList = c :: cs ∧ isNumeral c := by
  have hne : (integer n).toList ≠ [] := by
    cases n with
    | ofNat n =>
      rw [integer, natural, String.toList_ofList]
      exact Nat.toDigits_ne_nil
    | negSucc n => simp [integer]
  obtain ⟨c, cs, hchars⟩ := List.exists_cons_of_ne_nil hne
  exact ⟨c, cs, hchars, isNumeral_of_mem_integer (n := n) (by simp [hchars])⟩

inductive Align where
  | left
  | center
  | right
  deriving DecidableEq, Repr

/-- How debug texts look: whether nested values get a line each, and how integers are
written. -/
structure Style where
  pretty : Bool := false
  fill : Char := ' '
  align : Align := .right
  plus : Bool := false
  zeroFill : Bool := false
  width : Nat := 0
  hex : Bool := false
  deriving DecidableEq, Repr

/-- Bring `lead ++ digits` to the width of the style. Zeros go between the two, other filling
goes outside. -/
def Style.pad (s : Style) (lead digits : String) : String :=
  let missing := s.width - (lead.length + digits.length)
  let filling (n : Nat) : String := String.ofList (List.replicate n s.fill)
  if s.zeroFill then lead ++ String.ofList (List.replicate missing '0') ++ digits
  else match s.align with
    | .left => lead ++ digits ++ filling missing
    | .right => filling missing ++ lead ++ digits
    | .center => filling (missing / 2) ++ lead ++ digits ++ filling (missing - missing / 2)

/-- An integer in a style. In base sixteen a negative number stands as its word, `bits`. -/
def Style.integer (s : Style) (value : Int) (bits : Nat) : String :=
  let plus := if s.plus then "+" else ""
  if s.hex then
    s.pad (plus ++ if s.pretty then "0x" else "") (String.ofList (Nat.toDigits 16 bits))
  else if value < 0 then s.pad "-" (natural value.natAbs)
  else s.pad plus (natural value.natAbs)

end SeqStore.Text

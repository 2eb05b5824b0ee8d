import SeqStore.Decimal.Scaled
import SeqStore.Json.Basic

/-!
Reading JSON text, strictly: blanks only between tokens, no comma at the end of a series, no
raw control character in a string, surrogates only in pairs. A reader takes a value off the
front of the text and returns what follows. Arrays and objects may lie in one another as
deep as the reader is told to follow.
-/

namespace SeqStore.Json

abbrev Reader (β : Type) := List Char → Option (β × List Char)

def isBlank (c : Char) : Bool := c == ' ' || c == '\n' || c == '\t' || c == '\r'

def skipBlanks (cs : List Char) : List Char := cs.dropWhile isBlank

/-! ## Strings -/

def hexValue (c : Char) : Option Nat :=
  if '0' ≤ c ∧ c ≤ '9' then some (c.toNat - '0'.toNat)
  else if 'a' ≤ c ∧ c ≤ 'f' then some (c.toNat - 'a'.toNat + 10)
  else if 'A' ≤ c ∧ c ≤ 'F' then some (c.toNat - 'A'.toNat + 10)
  else none

/-- Four digits of base sixteen. -/
def hexUnit : Reader Nat
  | a :: b :: c :: d :: rest => do
      let a ← hexValue a
      let b ← hexValue b
      let c ← hexValue c
      let d ← hexValue d
      return (((a * 16 + b) * 16 + c) * 16 + d, rest)
  | _ => none

/-- The second half of a surrogate pair, put together with the first. -/
def lowSurrogate (high : Nat) : Reader Char
  | '\\' :: 'u' :: rest => do
      let (low, rest) ← hexUnit rest
      if 0xdc00 ≤ low ∧ low < 0xe000 then
        return (Char.ofNat (0x10000 + (high - 0xd800) * 0x400 + (low - 0xdc00)), rest)
      else none
  | _ => none

/-- A character given by its number, after the escape has been opened. -/
def numbered (cs : List Char) : Option (Char × List Char) := do
  let (unit, rest) ← hexUnit cs
  if 0xd800 ≤ unit ∧ unit < 0xdc00 then lowSurrogate unit rest
  else if 0xdc00 ≤ unit ∧ unit < 0xe000 then none
  else return (Char.ofNat unit, rest)

/-- What a backslash stands for together with what follows it. -/
def escaped : Reader Char
  | '"' :: rest => some ('"', rest)
  | '\\' :: rest => some ('\\', rest)
  | '/' :: rest => some ('/', rest)
  | 'b' :: rest => some ('\x08', rest)
  | 'f' :: rest => some ('\x0c', rest)
  | 'n' :: rest => some ('\n', rest)
  | 'r' :: rest => some ('\r', rest)
  | 't' :: rest => some ('\t', rest)
  | 'u' :: rest => numbered rest
  | _ => none

/-- The inside of a string up to the closing quote, of at most `budget` characters. -/
def stringRest : (budget : Nat) → Reader (List Char)
  | 0, _ => none
  | _ + 1, [] => none
  | budget + 1, c :: rest =>
      if c = '"' then some ([], rest)
      else if c = '\\' then do
        let (x, rest) ← escaped rest
        let (xs, rest) ← stringRest budget rest
        return (x :: xs, rest)
      else if c.toNat < 0x20 then none
      else do
        let (xs, rest) ← stringRest budget rest
        return (c :: xs, rest)

/-- A string, after its opening quote. -/
def stringBody (cs : List Char) : Option (String × List Char) := do
  let (xs, rest) ← stringRest (cs.length + 1) cs
  return (String.ofList xs, rest)

/-! ## Numbers -/

/-- A run of digits, at least one. -/
def digits1 (cs : List Char) : Option (List Char × List Char) :=
  match cs.takeWhile Char.isDigit with
  | [] => none
  | ds => some (ds, cs.dropWhile Char.isDigit)

/-- The whole part: a lone zero, or digits that do not start with zero. -/
def wholePart (cs : List Char) : Option (List Char × List Char) := do
  let (ds, rest) ← digits1 cs
  match ds with
  | '0' :: _ :: _ => none
  | _ => return (ds, rest)

/-- The digits after a point, if there is one. -/
def fractionPart : Reader (Option (List Char))
  | '.' :: rest => do
      let (ds, rest) ← digits1 rest
      return (some ds, rest)
  | cs => some (none, cs)

/-- The power of ten after the mark, if there is one. -/
def exponentPart : Reader (Option Int)
  | [] => some (none, [])
  | c :: cs =>
      if c = 'e' ∨ c = 'E' then do
        let (negative, cs) := match cs with
          | '+' :: rest => (false, rest)
          | '-' :: rest => (true, rest)
          | cs => (false, cs)
        let (ds, rest) ← digits1 cs
        let n : Int := Nat.ofDigitChars 10 ds 0
        return (some (if negative then -n else n), rest)
      else some (none, c :: cs)

/-- A number that is not kept whole: its digits before and after the point, and its power of
ten. -/
def realNumber (negative : Bool) (whole fraction : List Char) (exponent : Int) : Option Json := do
  let (word, left) := Decimal.intoWord 0 whole
  let (word, ignored) := Decimal.intoWord word fraction
  let taken := fraction.length - ignored
  let x ← Decimal.scaled? word ((left : Int) - (taken : Int) + exponent)
  return .float (if negative then -x else x)

/-- A whole number as it stands if it fits a word, as a float if it does not. The negative
zero is a float. -/
def wholeNumber (negative : Bool) (digits : List Char) : Option Json :=
  let n := Nat.ofDigitChars 10 digits 0
  if negative then
    if 0 < n ∧ n ≤ 0x8000000000000000 then some (.int (-(n : Int)))
    else realNumber true digits [] 0
  else if n < UInt64.size then some (.int n)
  else realNumber false digits [] 0

/-- A number after its sign. -/
def unsignedNumber (negative : Bool) (cs : List Char) : Option (Json × List Char) := do
  let (whole, cs) ← wholePart cs
  let (fraction, cs) ← fractionPart cs
  let (exponent, cs) ← exponentPart cs
  match fraction, exponent with
  | none, none => return (← wholeNumber negative whole, cs)
  | fraction, exponent =>
      return (← realNumber negative whole (fraction.getD []) (exponent.getD 0), cs)

def number : Reader Json
  | '-' :: rest => unsignedNumber true rest
  | cs => unsignedNumber false cs

/-! ## Values -/

/-- A value that has no parts. -/
def scalar : Reader Json
  | 'n' :: 'u' :: 'l' :: 'l' :: rest => some (.null, rest)
  | 't' :: 'r' :: 'u' :: 'e' :: rest => some (.bool true, rest)
  | 'f' :: 'a' :: 'l' :: 's' :: 'e' :: rest => some (.bool false, rest)
  | '"' :: rest => (stringBody rest).map fun (s, rest) => (.string s, rest)
  | cs => number cs

/-- Items divided by commas, at most `budget` of them, as far as the text goes right. The
second component is what follows the closing mark, if the text gets there. -/
def itemsUntil {β : Type} (read : Reader β) (close : Char) :
    (budget : Nat) → List Char → List β × Option (List Char)
  | 0, _ => ([], none)
  | budget + 1, cs =>
      match read cs with
      | none => ([], none)
      | some (x, cs) =>
          match skipBlanks cs with
          | [] => ([x], none)
          | c :: rest =>
              if c = close then ([x], some rest)
              else if c = ',' then
                let (xs, rest) := itemsUntil read close budget rest
                (x :: xs, rest)
              else ([x], none)

/-- A series of items as far as it goes right, after its opening mark. -/
def seriesUntil {β : Type} (read : Reader β) (close : Char) (cs : List Char) :
    List β × Option (List Char) :=
  match skipBlanks cs with
  | [] => ([], none)
  | c :: rest =>
      if c = close then ([], some rest) else itemsUntil read close (cs.length + 1) (c :: rest)

/-- A series of items, after its opening mark. -/
def series {β : Type} (read : Reader β) (close : Char) (cs : List Char) :
    Option (List β × List Char) :=
  match seriesUntil read close cs with
  | (xs, some rest) => some (xs, rest)
  | (_, none) => none

/-- A name, a colon and a value. -/
def member (read : Reader Json) (cs : List Char) : Option ((String × Json) × List Char) :=
  match skipBlanks cs with
  | '"' :: rest => do
      let (name, rest) ← stringBody rest
      match skipBlanks rest with
      | ':' :: rest =>
          let (v, rest) ← read rest
          return ((name, v), rest)
      | _ => none
  | _ => none

/-- The value at the front of the text, blanks skipped, with at most `depth` arrays and
objects in one another. -/
def value : (depth : Nat) → Reader Json
  | 0, cs => scalar (skipBlanks cs)
  | depth + 1, cs =>
      match skipBlanks cs with
      | '[' :: rest => (series (value depth) ']' rest).map fun (vs, rest) => (.array vs, rest)
      | '\x7b' :: rest =>
          (series (member (value depth)) '\x7d' rest).map fun (ms, rest) => (.object ms, rest)
      | cs => scalar cs

/-- The elements of the array at the front of the text, as far as the text goes right, and
what follows the array. Without an array there are no elements. -/
def elementsUntil : (depth : Nat) → List Char → List Json × Option (List Char)
  | 0, _ => ([], none)
  | depth + 1, cs =>
      match skipBlanks cs with
      | '[' :: rest => seriesUntil (value depth) ']' rest
      | _ => ([], none)

/-- Deeper texts are refused. -/
def maxDepth : Nat := 127

/-- The value of a text that holds nothing else. -/
def read? (text : String) : Option Json :=
  match value maxDepth text.toList with
  | some (v, rest) => if (skipBlanks rest).isEmpty then some v else none
  | none => none

end SeqStore.Json

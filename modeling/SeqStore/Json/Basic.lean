import SeqStore.Decimal.Form

/-!
JSON values and their compact text. Whole numbers that fit a 64-bit word, signed or not, are
`int`; every other number is a `float`. Numbers that are not finite have no JSON text and
are written as `null`.
-/

namespace SeqStore

inductive Json where
  | null
  | bool (b : Bool)
  | int (n : Int)
  | float (x : Float)
  | string (s : String)
  | array (items : List Json)
  | object (members : List (String × Json))
  deriving Inhabited

namespace Json

/-- A character inside a string: quotes, backslashes and all below the blank are escaped. -/
def escape (c : Char) : List Char :=
  match c with
  | '"' => ['\\', '"']
  | '\\' => ['\\', '\\']
  | '\x08' => ['\\', 'b']
  | '\x0c' => ['\\', 'f']
  | '\n' => ['\\', 'n']
  | '\r' => ['\\', 'r']
  | '\t' => ['\\', 't']
  | c =>
      if c.toNat < 0x20 then
        ['\\', 'u', '0', '0', Nat.digitChar (c.toNat / 16), Nat.digitChar (c.toNat % 16)]
      else [c]

def stringChars (s : String) : List Char := '"' :: s.toList.flatMap escape ++ ['"']

def floatChars (x : Float) : List Char :=
  if x.isNaN || x.isInf then ['n', 'u', 'l', 'l'] else (Decimal.json.text x).toList

/-- Several texts with a comma between neighbours. -/
def separated : List (List Char) → List Char
  | [] => []
  | [p] => p
  | p :: q :: rest => p ++ ',' :: separated (q :: rest)

mutual

/-- The text of a value, without blanks. -/
def chars : Json → List Char
  | .null => ['n', 'u', 'l', 'l']
  | .bool true => ['t', 'r', 'u', 'e']
  | .bool false => ['f', 'a', 'l', 's', 'e']
  | .int n => (Text.integer n).toList
  | .float x => floatChars x
  | .string s => stringChars s
  | .array items => '[' :: separated (charsEach items) ++ [']']
  | .object members => '\x7b' :: separated (memberChars members) ++ ['\x7d']

def charsEach : List Json → List (List Char)
  | [] => []
  | v :: vs => chars v :: charsEach vs

def memberChars : List (String × Json) → List (List Char)
  | [] => []
  | (name, v) :: rest => (stringChars name ++ ':' :: chars v) :: memberChars rest

end

def render (v : Json) : String := String.ofList v.chars

end Json

end SeqStore

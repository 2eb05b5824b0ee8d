import SeqStore.Text.Grapheme
import SeqStore.Text.Printable

/-!
Quoted text, as strings appear in debug texts and in messages: between double quotes, with
quotes, backslashes and every character escaped that is not visible on its own.
-/

namespace SeqStore.Text

/-- The character itself, a short escape where there is one, or its number. -/
def escape (c : Char) : List Char :=
  match c with
  | '"' => ['\\', '"']
  | '\\' => ['\\', '\\']
  | '\n' => ['\\', 'n']
  | '\r' => ['\\', 'r']
  | '\t' => ['\\', 't']
  | '\x00' => ['\\', '0']
  | c =>
      if isPrintable c && !extendsGrapheme c then [c]
      else ['\\', 'u', '\x7b'] ++ Nat.toDigits 16 c.toNat ++ ['\x7d']

def quoted (s : String) : String :=
  String.ofList ('"' :: s.toList.flatMap escape ++ ['"'])

end SeqStore.Text

import ClaimStore.Text.Unprintable

/-!
Texts in quotes.

Every character of a quoted text can be seen: the ones that cannot be shown are written as escapes,
and so are the backslash and the quote.
-/
namespace ClaimStore.Text

def codeEscape (char : Char) : List Char :=
  ['\\', 'u', '\x7b'] ++ Nat.toDigits 16 char.toNat ++ ['\x7d']

def quotedChar : Char → List Char
  | '\\' => ['\\', '\\']
  | '"' => ['\\', '"']
  | '\x00' => ['\\', '0']
  | '\t' => ['\\', 't']
  | '\n' => ['\\', 'n']
  | '\r' => ['\\', 'r']
  | char => if isUnprintable char then codeEscape char else [char]

def quoted (text : String) : String :=
  String.ofList ('"' :: (text.toList.flatMap quotedChar ++ ['"']))

end ClaimStore.Text

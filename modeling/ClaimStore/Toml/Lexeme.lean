import ClaimStore.Text.Digits

/-!
The smallest parts of TOML documents: blanks, comments and strings.

A reader takes characters from the front of a text. It gives what it has read and the rest of the
text, or nothing if the text does not start with what is wanted.
-/
namespace ClaimStore.Toml

abbrev Reader (α : Type) := List Char → Option (α × List Char)

def isSpace (char : Char) : Bool := char = ' ' || char = '\t'

def isPrintable (char : Char) : Bool := char = '\t' || (' ' ≤ char && char ≠ '\x7f')

def skipSpace (text : List Char) : List Char := text.dropWhile isSpace

def newline? : List Char → Option (List Char)
  | '\n' :: rest => some rest
  | '\r' :: '\n' :: rest => some rest
  | _ => none

/-- The text after a comment, if there is one. -/
def skipComment : List Char → List Char
  | '#' :: rest => rest.dropWhile isPrintable
  | text => text

def skipLinesFrom : (fuel : Nat) → List Char → List Char
  | 0, text => text
  | fuel + 1, text =>
      let text := skipComment (skipSpace text)
      match newline? text with
      | some rest => skipLinesFrom fuel rest
      | none => text

def skipLines (text : List Char) : List Char := skipLinesFrom text.length text

/-- The text after the end of a line, at which a comment may stand. -/
def lineEnd? (text : List Char) : Option (List Char) :=
  match skipComment (skipSpace text) with
  | [] => some []
  | text => newline? text

def codePoint (count : Nat) : Reader Char := fun text =>
  let digits := text.take count
  let number := Text.ofDigits 16 digits
  if digits.length = count ∧ digits.all (Text.isDigitIn 16) ∧ number.isValidChar then
    some (Char.ofNat number, text.drop count)
  else none

def escaped : Reader Char
  | 'b' :: rest => some ('\x08', rest)
  | 't' :: rest => some ('\t', rest)
  | 'n' :: rest => some ('\n', rest)
  | 'f' :: rest => some ('\x0c', rest)
  | 'r' :: rest => some ('\r', rest)
  | '"' :: rest => some ('"', rest)
  | '\\' :: rest => some ('\\', rest)
  | 'u' :: rest => codePoint 4 rest
  | 'U' :: rest => codePoint 8 rest
  | _ => none

/-- What a string starts and ends with, and whether it has escapes. -/
structure Quoting where
  mark : Char
  hasEscapes : Bool

def Quoting.basic : Quoting := ⟨'"', true⟩

def Quoting.literal : Quoting := ⟨'\'', false⟩

def lineString (quoting : Quoting) : (fuel : Nat) → Reader (List Char)
  | 0, _ => none
  | _ + 1, [] => none
  | fuel + 1, char :: rest =>
      if char = quoting.mark then some ([], rest)
      else if char = '\\' ∧ quoting.hasEscapes then do
        let (char, rest) ← escaped rest
        let (chars, rest) ← lineString quoting fuel rest
        some (char :: chars, rest)
      else if isPrintable char then do
        let (chars, rest) ← lineString quoting fuel rest
        some (char :: chars, rest)
      else none

/-- The text after a backslash that ends its line: the blanks and line breaks after it are
dropped. -/
def continuedLine? (text : List Char) : Option (List Char) :=
  (newline? (skipSpace text)).map fun rest =>
    rest.dropWhile fun char => isSpace char || char = '\n' || char = '\r'

/-- The rest of a string of several lines, up to three closing marks. Up to two marks more belong
to the string. -/
def blockString (quoting : Quoting) : (fuel : Nat) → Reader (List Char)
  | 0, _ => none
  | _ + 1, [] => none
  | fuel + 1, char :: rest =>
      let continueWith (chars : List Char) (rest : List Char) : Option (List Char × List Char) :=
        (blockString quoting fuel rest).map fun (more, rest) => (chars ++ more, rest)
      let text := char :: rest
      let marks := min 5 (text.takeWhile (· = quoting.mark)).length
      if 3 ≤ marks then some (List.replicate (marks - 3) quoting.mark, text.drop marks)
      else if 0 < marks then continueWith (text.take marks) (text.drop marks)
      else if char = '\\' ∧ quoting.hasEscapes then
        match continuedLine? rest with
        | some rest => continueWith [] rest
        | none => do
            let (char, rest) ← escaped rest
            continueWith [char] rest
      else
        match newline? text with
        | some rest => continueWith ['\n'] rest
        | none => if isPrintable char then continueWith [char] rest else none

def quotedLine (quoting : Quoting) : Reader String
  | [] => none
  | char :: rest =>
      if char = quoting.mark then
        (lineString quoting (rest.length + 1) rest).map fun (chars, rest) =>
          (String.ofList chars, rest)
      else none

/-- A string in one or several lines. Three opening marks start the latter; a line break after them
is dropped. -/
def quoted (quoting : Quoting) : Reader String := fun text =>
  if List.replicate 3 quoting.mark = text.take 3 then
    let body := text.drop 3
    let body := (newline? body).getD body
    (blockString quoting (body.length + 1) body).map fun (chars, rest) =>
      (String.ofList chars, rest)
  else quotedLine quoting text

def isBareKeyChar (char : Char) : Bool := char.isAlphanum || char = '_' || char = '-'

def keyPart : Reader String := fun text =>
  match text with
  | '"' :: _ => quotedLine .basic text
  | '\'' :: _ => quotedLine .literal text
  | _ =>
      let word := text.takeWhile isBareKeyChar
      if word = [] then none else some (String.ofList word, text.drop word.length)

def keyDepth : Nat := 79

def keyParts : (depth : Nat) → Reader (List String)
  | 0, _ => none
  | depth + 1, text => do
      let (part, rest) ← keyPart (skipSpace text)
      match skipSpace rest with
      | '.' :: rest => do
          let (parts, rest) ← keyParts depth rest
          some (part :: parts, rest)
      | rest => some ([part], rest)

def key : Reader (List String) := keyParts keyDepth

end ClaimStore.Toml

/-!
Names of token pools.

A pool key has five components. Its text joins them with `:` and escapes `:` and `\` inside a
component with `\`, so that distinct keys have distinct texts. Reading splits the text at the
separators that are not escaped.
-/
namespace ClaimStore

/-- The holder, token type, issuer, notary and symbol shared by the tokens of one pool. -/
structure PoolKey where
  holdingId : String
  tokenType : String
  issuerHash : String
  notary : String
  symbol : String
  deriving DecidableEq, Inhabited

namespace PoolKey

/-- The components of a key, in the order of its text. -/
inductive Component
  | holdingId
  | tokenType
  | issuerHash
  | notary
  | symbol
  deriving DecidableEq

def Component.name : Component → String
  | .holdingId => "holding-id"
  | .tokenType => "token-type"
  | .issuerHash => "issuer-hash"
  | .notary => "notary"
  | .symbol => "symbol"

def Component.all : List Component :=
  [.holdingId, .tokenType, .issuerHash, .notary, .symbol]

def components (key : PoolKey) : List String :=
  [key.holdingId, key.tokenType, key.issuerHash, key.notary, key.symbol]

/-- Keys are ordered component by component, each by its characters. -/
instance : Ord PoolKey :=
  ⟨fun left right => (compare left.holdingId right.holdingId).then
    ((compare left.tokenType right.tokenType).then
      ((compare left.issuerHash right.issuerHash).then
        ((compare left.notary right.notary).then
          (compare left.symbol right.symbol))))⟩

def separator : Char := ':'

def escapeMark : Char := '\\'

/-- Writes the escape mark before every separator and every escape mark. -/
def escape : List Char → List Char
  | [] => []
  | char :: rest =>
      if char = separator ∨ char = escapeMark then escapeMark :: char :: escape rest
      else char :: escape rest

def join : List (List Char) → List Char
  | [] => []
  | [component] => escape component
  | component :: rest => escape component ++ separator :: join rest

def chars (key : PoolKey) : List Char := join (key.components.map String.toList)

/-- The text of the key, under which the pool's record is stored. -/
def text (key : PoolKey) : String := String.ofList key.chars

def extend (char : Char) : List (List Char) → List (List Char)
  | [] => [[char]]
  | component :: rest => (char :: component) :: rest

/-- The components of a text, with the escapes removed, or `none` if the text ends in an escape
mark that escapes nothing. -/
def split : List Char → Option (List (List Char))
  | [] => some [[]]
  | char :: rest =>
      if char = escapeMark then
        match rest with
        | [] => none
        | escaped :: rest => (split rest).map (extend escaped)
      else if char = separator then (split rest).map ([] :: ·)
      else (split rest).map (extend char)

/-- Why a text is no pool key. -/
inductive ParseError
  | danglingEscape
  | componentCount (found : Nat)
  | emptyComponent (component : Component)
  deriving DecidableEq

def ParseError.message : ParseError → String
  | .danglingEscape => "escape character at the end of the input"
  | .componentCount found => s!"expected 5 ':'-separated components but found {found}"
  | .emptyComponent component => s!"component '{component.name}' must not be empty"

def firstEmpty? (key : PoolKey) : Option Component :=
  ((Component.all.zip key.components).find? fun part => part.2.isEmpty).map Prod.fst

def ofComponents : List (List Char) → Except ParseError PoolKey
  | [holdingId, tokenType, issuerHash, notary, symbol] =>
      let key : PoolKey :=
        { holdingId := String.ofList holdingId
          tokenType := String.ofList tokenType
          issuerHash := String.ofList issuerHash
          notary := String.ofList notary
          symbol := String.ofList symbol }
      match key.firstEmpty? with
      | some component => .error (.emptyComponent component)
      | none => .ok key
  | components => .error (.componentCount components.length)

/-- The key with the given text. An escape mark at the end is noticed before a wrong number of
components, and that before an empty component. -/
def parse (text : String) : Except ParseError PoolKey :=
  match split text.toList with
  | none => .error .danglingEscape
  | some components => ofComponents components

theorem split_escaped (char : Char) (rest : List Char) :
    split (escapeMark :: char :: rest) = (split rest).map (extend char) := by
  simp [split]

theorem split_separator (rest : List Char) :
    split (separator :: rest) = (split rest).map ([] :: ·) := by
  have different : separator ≠ escapeMark := by decide
  cases rest <;> simp [split, different]

theorem split_plain {char : Char} (rest : List Char)
    (plain : char ≠ separator) (unmarked : char ≠ escapeMark) :
    split (char :: rest) = (split rest).map (extend char) := by
  cases rest <;> simp [split, plain, unmarked]

theorem split_escape_append (word tail : List Char) :
    split (escape word ++ tail) = (split tail).map fun parts => word.foldr extend parts := by
  induction word with
  | nil => simp [escape]
  | cons char word ih =>
      by_cases special : char = separator ∨ char = escapeMark
      · simp [escape, special, split_escaped, ih, Function.comp_def]
      · have plain := not_or.mp special
        simp [escape, plain.1, plain.2, split_plain, ih, Function.comp_def]

theorem foldr_extend (word first : List Char) (parts : List (List Char)) :
    word.foldr extend (first :: parts) = (word ++ first) :: parts := by
  induction word with
  | nil => rfl
  | cons char word ih => simp [ih, extend]

theorem split_join (component : List Char) (rest : List (List Char)) :
    split (join (component :: rest)) = some (component :: rest) := by
  induction rest generalizing component with
  | nil =>
      have alone := split_escape_append component []
      simpa [join, split, foldr_extend] using alone
  | cons next rest ih =>
      simp [join, split_escape_append, split_separator, ih, foldr_extend]

end PoolKey

end ClaimStore

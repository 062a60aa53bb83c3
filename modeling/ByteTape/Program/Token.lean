import ByteTape.Text.Alphanumeric
import ByteTape.Text.Basic

/-!
# Tokens

A line comment runs from `//` to the end of its line, a block comment from `/*` to the next `*/`.
Line comments go first, also inside block comments; then block comments go, but their line feeds
stay, so that every line keeps its number. A `/*` that is never closed is no comment.

What is left of a source is cut into words, the operators `+=`, `-=` and `!=`, and single
characters. Words are as long as possible. Blanks only separate.
-/

namespace ByteTape.Program

/-! ## Comments -/

/-- Removes line comments. The flag says whether the text starts inside one. -/
def stripLineComments : Bool → List Char → List Char
  | _, [] => []
  | true, '\n' :: rest => '\n' :: stripLineComments false rest
  | true, _ :: rest => stripLineComments true rest
  | false, '/' :: '/' :: rest => stripLineComments true rest
  | false, c :: rest => c :: stripLineComments false rest

/-- Whether a block comment that starts here ends somewhere. -/
def closesComment : List Char → Bool
  | '*' :: '/' :: _ => true
  | _ :: rest => closesComment rest
  | [] => false

/-- Removes block comments. The flag says whether the text starts inside one. -/
def stripBlockComments : Bool → List Char → List Char
  | _, [] => []
  | true, '*' :: '/' :: rest => stripBlockComments false rest
  | true, '\n' :: rest => '\n' :: stripBlockComments true rest
  | true, _ :: rest => stripBlockComments true rest
  | false, '/' :: '*' :: rest =>
      if closesComment rest then stripBlockComments true rest
      else '/' :: '*' :: stripBlockComments false rest
  | false, c :: rest => c :: stripBlockComments false rest

def stripComments (source : List Char) : List Char :=
  stripBlockComments false (stripLineComments false source)

/-! ## Lexemes -/

def isWordChar (c : Char) : Bool :=
  Text.isAlphanumeric c || c == '_'

/-- Whether two characters are an operator together. -/
def isOperator (first second : Char) : Bool :=
  second == '=' && (first == '+' || first == '-' || first == '!')

def startsWord : List Char → Bool
  | [] => false
  | c :: _ => isWordChar c

/-- Puts a character in front of the first of some lexemes. -/
def lengthenFirst (c : Char) : List (List Char) → List (List Char)
  | [] => [[c]]
  | first :: others => (c :: first) :: others

/-- The texts of the tokens, comments not regarded. -/
def lexemes : List Char → List (List Char)
  | [] => []
  | c :: rest =>
      if Text.isBlank c then lexemes rest
      else if isWordChar c then
        if startsWord rest then lengthenFirst c (lexemes rest) else [c] :: lexemes rest
      else
        match rest with
        | [] => [[c]]
        | d :: others =>
            if isOperator c d then [c, d] :: lexemes others else [c] :: lexemes (d :: others)

/-! ## Tokens -/

/-- A token with the number of its line, counted from one. -/
structure Token where
  text : String
  line : Nat
deriving DecidableEq, Repr

def lineTokens (line : Nat) (text : List Char) : List Token :=
  (lexemes text).map fun lexeme => { text := String.ofList lexeme, line }

/-- The tokens of successive lines, the first of which has the given number. -/
def tokensFrom (line : Nat) : List (List Char) → List Token
  | [] => []
  | text :: others => lineTokens line text ++ tokensFrom (line + 1) others

def tokens (source : List Char) : List Token :=
  tokensFrom 1 (Text.lines (stripComments source))

/-- What a token is to the grammar. -/
inductive Symbol
  | printKeyword
  | inputKeyword
  | whileKeyword
  | name (text : String)
  | number (digits : String)
  | assign
  | addAssign
  | subAssign
  | notEqual
  | semicolon
  | openBrace
  | closeBrace
  /-- Anything else; no statement contains it. -/
  | stray (text : String)
deriving DecidableEq, Repr

/-- Variable names are words of ASCII letters, digits and underscores that do not start with a
digit. -/
def isName (text : String) : Bool :=
  match text.toList with
  | [] => false
  | c :: rest => (c.isAlpha || c == '_') && rest.all fun c => c.isAlphanum || c == '_'

def isNumber (text : String) : Bool :=
  !text.isEmpty && text.toList.all Char.isDigit

def Symbol.ofText (text : String) : Symbol :=
  match text with
  | "print" => printKeyword
  | "input" => inputKeyword
  | "while" => whileKeyword
  | "=" => assign
  | "+=" => addAssign
  | "-=" => subAssign
  | "!=" => notEqual
  | ";" => semicolon
  | "\x7b" => openBrace
  | "\x7d" => closeBrace
  | text => if isName text then name text else if isNumber text then number text else stray text

def Token.symbol (token : Token) : Symbol := .ofText token.text

end ByteTape.Program

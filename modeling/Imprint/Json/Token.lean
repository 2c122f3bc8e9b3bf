/-
Module: Imprint.Json.Token
Purpose: The tokens of a JSON text. One character at a time moves a scanner; a number or a word ends
  with the first character that cannot belong to it.
Main exports: Token, Token.ofChars?
-/
import Imprint.Json.Numeral

namespace Imprint

/-- A token of JSON text. A string has no content when its escapes leave half of a surrogate pair,
and a number has no value when it exceeds every finite number; both are well-formed all the same. -/
inductive Token where
  | openObject
  | closeObject
  | openArray
  | closeArray
  | comma
  | colon
  | null
  | bool (value : Bool)
  | number (value : Option Number)
  | text (content : Option String)
deriving DecidableEq, Repr

namespace Token

/-! ### String content -/

/-- The content of a string up to some place: its characters, the last one first, an upper surrogate
that still waits for its partner, and whether every surrogate before had one. -/
structure Content where
  reversed : List Char
  upper : Option Nat
  paired : Bool
deriving DecidableEq, Repr

namespace Content

/-- Nothing yet. -/
def empty : Content := ⟨[], none, true⟩

/-- A further character; an upper surrogate before it stays alone. -/
def push (content : Content) (c : Char) : Content :=
  ⟨c :: content.reversed, none, content.paired && content.upper.isNone⟩

/-- Code units that open a surrogate pair. -/
def isUpper (unit : Nat) : Bool := 0xD800 ≤ unit && unit < 0xDC00

/-- Code units that close a surrogate pair. -/
def isLower (unit : Nat) : Bool := 0xDC00 ≤ unit && unit < 0xE000

/-- The character of a surrogate pair. -/
def ofPair (upper lower : Nat) : Char :=
  Char.ofNat (0x10000 + (upper - 0xD800) * 0x400 + (lower - 0xDC00))

/-- A further code unit, written as a hexadecimal escape. -/
def pushUnit (content : Content) (unit : Nat) : Content :=
  match content.upper with
  | some upper =>
      if isLower unit then
        ⟨ofPair upper unit :: content.reversed, none, content.paired⟩
      else
        ⟨content.reversed, none, false⟩
  | none =>
      if isUpper unit then ⟨content.reversed, some unit, content.paired⟩
      else if isLower unit then ⟨content.reversed, none, false⟩
      else content.push (Char.ofNat unit)

/-- The string, if every surrogate found its partner. -/
def string? (content : Content) : Option String :=
  if content.paired && content.upper.isNone then
    some (String.ofList content.reversed.reverse)
  else
    none

end Content

/-! ### Characters -/

/-- White space between tokens. -/
def isBlank (c : Char) : Bool := c == ' ' || c == '\t' || c == '\n' || c == '\r'

/-- Characters that number texts are made of. -/
def isNumeralChar (c : Char) : Bool :=
  c.isDigit || c == '-' || c == '+' || c == '.' || c == 'e' || c == 'E'

/-- The token that is a single character. -/
def punctuation? : Char → Option Token
  | '\x7b' => some .openObject
  | '\x7d' => some .closeObject
  | '[' => some .openArray
  | ']' => some .closeArray
  | ',' => some .comma
  | ':' => some .colon
  | _ => none

/-- The token of a word. -/
def word? (cs : List Char) : Option Token :=
  if cs = "null".toList then some .null
  else if cs = "true".toList then some (.bool true)
  else if cs = "false".toList then some (.bool false)
  else none

/-- The character that a one-letter escape stands for. -/
def escaped? : Char → Option Char
  | '"' => some '"'
  | '\\' => some '\\'
  | '/' => some '/'
  | 'b' => some '\x08'
  | 'f' => some '\x0c'
  | 'n' => some '\n'
  | 'r' => some '\r'
  | 't' => some '\t'
  | _ => none

/-- The value of a hexadecimal digit of either case. -/
def hexDigit? (c : Char) : Option Nat :=
  if '0' ≤ c ∧ c ≤ '9' then some (c.toNat - '0'.toNat)
  else if 'a' ≤ c ∧ c ≤ 'f' then some (c.toNat - 'a'.toNat + 10)
  else if 'A' ≤ c ∧ c ≤ 'F' then some (c.toNat - 'A'.toNat + 10)
  else none

/-! ### The scanner -/

/-- Where the scanner stands; texts that are still open are kept with their last character first. -/
inductive Place where
  | between
  | word (reversed : List Char)
  | numeral (reversed : List Char)
  | string (content : Content)
  | escape (content : Content)
  | unit (content : Content) (value digits : Nat)
deriving DecidableEq, Repr

/-- The scanner: its place, and the tokens so far, the last one first. -/
structure Scanner where
  place : Place
  tokens : List Token
deriving DecidableEq, Repr

namespace Scanner

/-- Before the first character. -/
def start : Scanner := ⟨.between, []⟩

/-- The tokens with a word or number that ends here; a string cannot end here. -/
def close? : Scanner → Option (List Token)
  | ⟨.between, tokens⟩ => some tokens
  | ⟨.word reversed, tokens⟩ => (word? reversed.reverse).map (· :: tokens)
  | ⟨.numeral reversed, tokens⟩ =>
      (Numeral.ofChars? reversed.reverse).map fun numeral => .number numeral.number? :: tokens
  | _ => none

/-- One character between tokens. -/
def begin? (tokens : List Token) (c : Char) : Option Scanner :=
  if isBlank c then some ⟨.between, tokens⟩
  else if c = '"' then some ⟨.string .empty, tokens⟩
  else if isNumeralChar c && c != 'e' && c != 'E' then some ⟨.numeral [c], tokens⟩
  else if c.isAlpha then some ⟨.word [c], tokens⟩
  else (punctuation? c).map fun token => ⟨.between, token :: tokens⟩

/-- One character inside a string. -/
def string? (content : Content) (tokens : List Token) (c : Char) : Option Scanner :=
  if c = '"' then some ⟨.between, .text content.string? :: tokens⟩
  else if c = '\\' then some ⟨.escape content, tokens⟩
  else if c < ' ' then none
  else some ⟨.string (content.push c), tokens⟩

/-- One character. -/
def step? (scanner : Scanner) (c : Char) : Option Scanner :=
  match scanner with
  | ⟨.between, tokens⟩ => begin? tokens c
  | ⟨.word reversed, tokens⟩ =>
      if c.isAlpha then some ⟨.word (c :: reversed), tokens⟩
      else (close? ⟨.word reversed, tokens⟩).bind fun tokens => begin? tokens c
  | ⟨.numeral reversed, tokens⟩ =>
      if isNumeralChar c then some ⟨.numeral (c :: reversed), tokens⟩
      else (close? ⟨.numeral reversed, tokens⟩).bind fun tokens => begin? tokens c
  | ⟨.string content, tokens⟩ => string? content tokens c
  | ⟨.escape content, tokens⟩ =>
      if c = 'u' then some ⟨.unit content 0 0, tokens⟩
      else (escaped? c).map fun plain => ⟨.string (content.push plain), tokens⟩
  | ⟨.unit content value digits, tokens⟩ =>
      (hexDigit? c).map fun digit =>
        let value := 16 * value + digit
        if digits = 3 then ⟨.string (content.pushUnit value), tokens⟩
        else ⟨.unit content value (digits + 1), tokens⟩

end Scanner

/-- The tokens of a text, or nothing when it has a part that is no token. -/
def ofChars? (cs : List Char) : Option (List Token) :=
  (cs.foldlM Scanner.step? Scanner.start).bind fun scanner =>
    scanner.close?.map List.reverse

end Token

end Imprint

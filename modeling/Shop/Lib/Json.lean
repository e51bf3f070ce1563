import Mathlib.Data.List.Basic

/-!
# JSON texts

`JSON.parse` as an automaton over the characters of a text: the lexer cuts the text into tokens, the
parser keeps the containers that are open on a stack.  Both take one step for each character or
token, and reading ends with the text.

* `Json`                   a parsed value;
* `lex`, `readTokens`      the two automata;
* `JSON.parse`             the value of a text, nothing if it is not JSON;
* `Json.read`              a property access: the value may have none, or throw;
* `Json.textThrows`        a template literal with the value throws.

Strings are lists of UTF-16 code units, as escapes may write a half of a surrogate pair.  A number
is kept as it is written.
-/

set_option linter.unusedSectionVars false

namespace Lib

/-- UTF-16 code units -/
abbrev Units := List Nat

def unitsOf (c : Char) : Units :=
  let n := c.toNat
  if n < 0x10000 then [n] else [0xD800 + (n - 0x10000) / 0x400, 0xDC00 + (n - 0x10000) % 0x400]

def units (s : String) : Units := s.toList.flatMap unitsOf

inductive Json where
  | null
  | bool (b : Bool)
  | number (text : List Char)
  | string (text : Units)
  | array (items : List Json)
  | object (fields : List (Units × Json))

/-! ## tokens -/

inductive Token where
  | lbrace | rbrace | lbrack | rbrack | comma | colon
  | null
  | bool (b : Bool)
  | number (text : List Char)
  | string (text : Units)

/-- where a number is, as far as it has been read -/
inductive NumberState where
  | start | minus | zero | int | point | frac | exp | expSign | expDigits
deriving DecidableEq, Repr

def NumberState.next (s : NumberState) (c : Char) : Option NumberState :=
  let digit := c.isDigit
  match s with
  | .start => if c = '-' then some .minus else if c = '0' then some .zero else
      if digit then some .int else none
  | .minus => if c = '0' then some .zero else if digit then some .int else none
  | .zero => if c = '.' then some .point else if c = 'e' ∨ c = 'E' then some .exp else none
  | .int => if digit then some .int else if c = '.' then some .point else
      if c = 'e' ∨ c = 'E' then some .exp else none
  | .point => if digit then some .frac else none
  | .frac => if digit then some .frac else if c = 'e' ∨ c = 'E' then some .exp else none
  | .exp => if c = '+' ∨ c = '-' then some .expSign else if digit then some .expDigits else none
  | .expSign => if digit then some .expDigits else none
  | .expDigits => if digit then some .expDigits else none

def isNumber (text : List Char) : Bool :=
  match text.foldlM NumberState.next .start with
  | some s => decide (s = .zero ∨ s = .int ∨ s = .frac ∨ s = .expDigits)
  | none => false

/-- what the lexer is in; the characters of a token so far, the last one first -/
inductive Lexing where
  | blank
  | word (text : List Char)
  | number (text : List Char)
  | string (text : Units)
  | escape (text : Units)
  | hex (text : Units) (digits value : Nat)

def closeWord (text : List Char) : Option Token :=
  if text.reverse = ['n', 'u', 'l', 'l'] then some .null
  else if text.reverse = ['t', 'r', 'u', 'e'] then some (.bool true)
  else if text.reverse = ['f', 'a', 'l', 's', 'e'] then some (.bool false)
  else none

def closeNumber (text : List Char) : Option Token :=
  if isNumber text.reverse then some (.number text.reverse) else none

def isNumberChar (c : Char) : Bool :=
  c.isDigit || decide (c ∈ ['+', '-', '.', 'e', 'E'])

/-- the first character of a token, or white space -/
def startToken (c : Char) : Option (List Token × Lexing) :=
  if c ∈ [' ', '\t', '\n', '\r'] then some ([], .blank)
  else if c = '\x7b' then some ([.lbrace], .blank)
  else if c = '\x7d' then some ([.rbrace], .blank)
  else if c = '[' then some ([.lbrack], .blank)
  else if c = ']' then some ([.rbrack], .blank)
  else if c = ',' then some ([.comma], .blank)
  else if c = ':' then some ([.colon], .blank)
  else if c = '\x22' then some ([], .string [])
  else if c.isLower then some ([], .word [c])
  else if c.isDigit ∨ c = '-' then some ([], .number [c])
  else none

def hexValue (c : Char) : Option Nat :=
  if c.isDigit then some (c.toNat - '0'.toNat)
  else if 'a' ≤ c ∧ c ≤ 'f' then some (c.toNat - 'a'.toNat + 10)
  else if 'A' ≤ c ∧ c ≤ 'F' then some (c.toNat - 'A'.toNat + 10)
  else none

/-- the unit that an escape of one character stands for -/
def escaped (c : Char) : Option Nat :=
  if c ∈ ['\x22', '\\', '/'] then some c.toNat
  else if c = 'b' then some 8
  else if c = 'f' then some 12
  else if c = 'n' then some 10
  else if c = 'r' then some 13
  else if c = 't' then some 9
  else none

def Lexing.next (m : Lexing) (c : Char) : Option (List Token × Lexing) :=
  match m with
  | .blank => startToken c
  | .word text =>
    if c.isLower then some ([], .word (c :: text))
    else do
      let token ← closeWord text
      let (tokens, m') ← startToken c
      return (token :: tokens, m')
  | .number text =>
    if isNumberChar c then some ([], .number (c :: text))
    else do
      let token ← closeNumber text
      let (tokens, m') ← startToken c
      return (token :: tokens, m')
  | .string text =>
    if c = '\x22' then some ([.string text.reverse], .blank)
    else if c = '\\' then some ([], .escape text)
    else if c.toNat < 0x20 then none
    else some ([], .string ((unitsOf c).reverse ++ text))
  | .escape text =>
    if c = 'u' then some ([], .hex text 0 0)
    else do
      let unit ← escaped c
      return ([], .string (unit :: text))
  | .hex text digits value => do
    let d ← hexValue c
    if digits = 3 then return ([], .string ((16 * value + d) :: text))
    else return ([], .hex text (digits + 1) (16 * value + d))

/-- the end of the text -/
def Lexing.close : Lexing → Option (List Token)
  | .blank => some []
  | .word text => (closeWord text).map fun t => [t]
  | .number text => (closeNumber text).map fun t => [t]
  | _ => none

def lex : Lexing → List Char → Option (List Token)
  | m, [] => m.close
  | m, c :: cs => do
    let (tokens, m') ← m.next c
    let rest ← lex m' cs
    return tokens ++ rest

/-! ## values -/

/-- a container that is open: what it holds so far, the last one first -/
inductive Frame where
  | array (items : List Json)
  | object (fields : List (Units × Json)) (key : Units)

/-- what the parser waits for: a value, a value or the end of an array, a key (or the end of an
object), a colon, or what follows a value -/
inductive Parsing where
  | value (stack : List Frame)
  | opened (stack : List Frame)
  | key (orEnd : Bool) (fields : List (Units × Json)) (stack : List Frame)
  | colon (fields : List (Units × Json)) (key : Units) (stack : List Frame)
  | after (v : Json) (stack : List Frame)

def Parsing.readValue (stack : List Frame) : Token → Option Parsing
  | .null => some (.after .null stack)
  | .bool b => some (.after (.bool b) stack)
  | .number text => some (.after (.number text) stack)
  | .string text => some (.after (.string text) stack)
  | .lbrack => some (.opened stack)
  | .lbrace => some (.key true [] stack)
  | _ => none

def Parsing.next : Parsing → Token → Option Parsing
  | .value stack, token => readValue stack token
  | .opened stack, .rbrack => some (.after (.array []) stack)
  | .opened stack, token => readValue (.array [] :: stack) token
  | .key _ fields stack, .string text => some (.colon fields text stack)
  | .key true _ stack, .rbrace => some (.after (.object []) stack)
  | .colon fields k stack, .colon => some (.value (.object fields k :: stack))
  | .after v (.array items :: stack), .comma => some (.value (.array (v :: items) :: stack))
  | .after v (.array items :: stack), .rbrack => some (.after (.array (v :: items).reverse) stack)
  | .after v (.object fields k :: stack), .comma => some (.key false ((k, v) :: fields) stack)
  | .after v (.object fields k :: stack), .rbrace =>
    some (.after (.object ((k, v) :: fields).reverse) stack)
  | _, _ => none

def readTokens (tokens : List Token) : Option Json :=
  match tokens.foldlM Parsing.next (.value []) with
  | some (.after v []) => some v
  | _ => none

/-- the value of a text; nothing where `JSON.parse` throws a SyntaxError -/
def JSON.parse (text : String) : Option Json := do
  let tokens ← lex .blank text.toList
  readTokens tokens

/-! ## what a program does with a value -/

inductive JsError where
  | typeError (message : String)
deriving DecidableEq, Repr

/-- `v.key`: null has no properties, a value that is no object has none of that name, and of two
fields of an object the later one counts -/
def Json.read (v : Json) (key : String) : Except JsError (Option Json) :=
  match v with
  | .null => .error (.typeError ("Cannot read properties of null (reading '" ++ key ++ "')"))
  | .object fields => .ok ((fields.reverse.find? fun f => decide (f.1 = units key)).map Prod.snd)
  | _ => .ok none

mutual
/-- the conversion of the value to a string throws a TypeError: a field `toString` of an object
stands in the way of the inherited function, and an array converts its items -/
def Json.textThrows : Json → Bool
  | .object fields => fields.any fun f => decide (f.1 = units "toString")
  | .array items => Json.textThrowsAny items
  | _ => false

def Json.textThrowsAny : List Json → Bool
  | [] => false
  | v :: vs => v.textThrows || Json.textThrowsAny vs
end

end Lib

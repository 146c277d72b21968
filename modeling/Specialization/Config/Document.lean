import Specialization.Config.Basic
import Specialization.Json.Reader

/-!
Reading settings from a TOML document. All settings are top-level booleans and integers, so an
acceptable document is a sequence of lines, each of them blank, a comment, or one assignment of a
scalar to the name of a setting. A table header, a dotted key, an unknown name, a value of another
type and a name that is assigned twice all refuse the document.
-/

namespace Specialization.Config

inductive Scalar where
  | bool (value : Bool)
  | integer (value : Int)

/-- The lines of a text. A line ends with a line feed that a carriage return may precede. -/
def lines : List Char → List (List Char)
  | [] => [[]]
  | '\r' :: '\n' :: rest => [] :: lines rest
  | '\n' :: rest => [] :: lines rest
  | c :: rest =>
    match lines rest with
    | [] => [[c]]
    | line :: more => (c :: line) :: more

def isSpace (c : Char) : Bool :=
  c == ' ' || c == '\t'

def skipSpace (text : List Char) : List Char :=
  text.dropWhile isSpace

/-- Whether a character may stand in a comment or between quotes. -/
def isTextual (c : Char) : Bool :=
  c == '\t' || (0x20 ≤ c.toNat && c.toNat != 0x7F)

/-- Whether nothing but blanks and a comment remains of a line. -/
def isRest (text : List Char) : Bool :=
  match skipSpace text with
  | [] => true
  | '#' :: comment => comment.all isTextual
  | _ => false

def isBareKeyChar (c : Char) : Bool :=
  c.isAlphanum || c == '_' || c == '-'

/-- The character with the code that a run of hexadecimal digits denotes. -/
def codePoint? (digits : List Char) : Option Char := do
  let values ← digits.mapM Json.hexDigit?
  let code := values.foldl (fun code digit => 16 * code + digit) 0
  if h : code.isValidChar then some (.ofNatAux code h) else none

/-- The rest of a key between double quotes, after the opening one. -/
def readBasicKey : Nat → Json.Reader (List Char)
  | 0, _ => none
  | fuel + 1, text =>
    let continueWith (c : Char) (rest : List Char) : Option (List Char × List Char) :=
      (readBasicKey fuel rest).map fun (key, after) => (c :: key, after)
    match text with
    | '"' :: rest => some ([], rest)
    | '\\' :: 'b' :: rest => continueWith '\x08' rest
    | '\\' :: 't' :: rest => continueWith '\t' rest
    | '\\' :: 'n' :: rest => continueWith '\n' rest
    | '\\' :: 'f' :: rest => continueWith '\x0c' rest
    | '\\' :: 'r' :: rest => continueWith '\r' rest
    | '\\' :: '"' :: rest => continueWith '"' rest
    | '\\' :: '\\' :: rest => continueWith '\\' rest
    | '\\' :: 'u' :: rest =>
      if rest.length < 4 then none
      else (codePoint? (rest.take 4)).bind fun c => continueWith c (rest.drop 4)
    | '\\' :: 'U' :: rest =>
      if rest.length < 8 then none
      else (codePoint? (rest.take 8)).bind fun c => continueWith c (rest.drop 8)
    | '\\' :: _ => none
    | c :: rest => if isTextual c then continueWith c rest else none
    | [] => none

/-- The key at the start of a line: bare, between double quotes with escapes, or between single
quotes as it stands. -/
def readKey (text : List Char) : Option (List Char × List Char) :=
  match text with
  | '"' :: rest => readBasicKey text.length rest
  | '\x27' :: rest =>
    let key := rest.takeWhile (· != '\x27')
    match rest.dropWhile (· != '\x27') with
    | _ :: after => if key.all isTextual then some (key, after) else none
    | [] => none
  | text =>
    let key := text.takeWhile isBareKeyChar
    if key.isEmpty then none else some (key, text.dropWhile isBareKeyChar)

/-- Digits with single underscores between them, without the underscores. -/
def joinDigits? (isDigit : Char → Bool) : List Char → Option (List Char)
  | [] => none
  | [c] => if isDigit c then some [c] else none
  | c :: '_' :: rest => if isDigit c then (joinDigits? isDigit rest).map (c :: ·) else none
  | c :: rest => if isDigit c then (joinDigits? isDigit rest).map (c :: ·) else none

/-- The number after the sign of a decimal integer; a leading zero stands alone. -/
def decimalInteger? (text : List Char) : Option Nat := do
  let digits ← joinDigits? Decimal.isDigit text
  if digits.head? == some '0' && 1 < digits.length then none else some (Decimal.value digits)

def integerIn? (base : Nat) (text : List Char) : Option Nat := do
  let isDigit (c : Char) : Bool := (Json.hexDigit? c).any (· < base)
  let digits ← joinDigits? isDigit text
  return Decimal.valueIn base (fun c => (Json.hexDigit? c).getD 0) digits

def integer? : List Char → Option Int
  | '0' :: 'x' :: digits => (integerIn? 16 digits).map Int.ofNat
  | '0' :: 'o' :: digits => (integerIn? 8 digits).map Int.ofNat
  | '0' :: 'b' :: digits => (integerIn? 2 digits).map Int.ofNat
  | '+' :: digits => (decimalInteger? digits).map Int.ofNat
  | '-' :: digits => (decimalInteger? digits).map fun size => -(size : Int)
  | digits => (decimalInteger? digits).map Int.ofNat

/-- A scalar as it is written, if it is a boolean or an integer of 64 bits. -/
def scalar? (text : List Char) : Option Scalar :=
  if text = ['t', 'r', 'u', 'e'] then some (.bool true)
  else if text = ['f', 'a', 'l', 's', 'e'] then some (.bool false)
  else (integer? text).bind fun value =>
    let bound : Int := Nat.pow 2 63
    if -bound ≤ value ∧ value < bound then some (.integer value) else none

/-- The assignment on a line; `some none` for a line without one. -/
def assignment? (line : List Char) : Option (Option (String × Scalar)) :=
  if isRest line then some none
  else do
    let (key, rest) ← readKey (skipSpace line)
    match skipSpace rest with
    | '=' :: rest =>
      let text := skipSpace rest
      let isEnd (c : Char) : Bool := isSpace c || c == '#'
      let value ← scalar? (text.takeWhile fun c => !isEnd c)
      if isRest (text.dropWhile fun c => !isEnd c) then
        return some (String.ofList key, value)
      else none
    | _ => none

/-- The settings with one more of them assigned. -/
def assign (config : Config) (name : String) (value : Scalar) : Option Config :=
  match name, value with
  | "synthesize_backing_types", .bool value => some { config with synthesizeBackingTypes := value }
  | "max_supertype_depth", .integer (.ofNat value) =>
    some { config with maxSupertypeDepth := value }
  | "trace_cache_hits", .bool value => some { config with traceCacheHits := value }
  | _, _ => none

/-- The settings that a TOML document gives, `none` if it is refused. A byte order mark may open
the document. -/
def ofToml? (text : String) : Option Config := do
  let characters := match text.toList with
    | '\uFEFF' :: rest => rest
    | characters => characters
  let assignments := (← (lines characters).mapM assignment?).filterMap id
  let names := assignments.map Prod.fst
  if names.eraseDups.length = names.length then
    assignments.foldlM (fun config (name, value) => assign config name value) {}
  else none

/-- The settings under the names that documents use. -/
def toJson (config : Config) : Json :=
  .object [("synthesize_backing_types", .bool config.synthesizeBackingTypes),
    ("max_supertype_depth", .integer config.maxSupertypeDepth),
    ("trace_cache_hits", .bool config.traceCacheHits)]

end Specialization.Config

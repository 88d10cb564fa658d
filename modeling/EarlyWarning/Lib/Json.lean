/-
# `Lib.Json` — the `json` module of Python

`loads` reads more than JSON: `NaN`, `Infinity` and `-Infinity` are numbers, an integer of any
size is one of Python's if it has at most 4,300 digits, a key may stand twice (the last value
counts), and a lone half of a surrogate pair may be escaped.  Objects and lists that are nested
deeper than the interpreter's stack allows end it with a `RecursionError`; here the levels that
are left are an argument.

A floating point number is whatever the interpreter makes of its literal (`Floats`).

`loads_dumps`: what `dumps` writes is read back.
-/
import EarlyWarning.Lib.OrderedDict
import EarlyWarning.Lib.PyText

namespace Lib

/-- A value that `loads` builds, with floating point numbers `φ`. -/
inductive Json (φ : Type)
  | null
  | bool (b : Bool)
  | int (n : Int)
  | float (x : φ)
  | str (t : PyText)
  | list (items : List (Json φ))
  | dict (fields : List (PyText × Json φ))

namespace Json

/-- What `int` raises. -/
inductive IntError
  /-- `TypeError` or `ValueError` -/
  | notANumber
  | overflowError
deriving DecidableEq

/-- The floating point numbers of the interpreter. -/
structure Floats (φ : Type) where
  /-- `float(literal)` -/
  parse : List Char → φ
  nan : φ
  inf : φ
  negInf : φ
  /-- `int(x)`, which raises for a number that is not finite -/
  toInt : φ → Except IntError Int
  /-- `x == 1` -/
  isOne : φ → Bool
  /-- `bool(x)` -/
  truth : φ → Bool
  repr : φ → List Char

inductive LoadError
  /-- `JSONDecodeError` -/
  | decodeError
  /-- the `ValueError` of an integer with this many digits -/
  | tooManyDigits (digits : Nat)
  | recursionError
deriving DecidableEq

variable {φ : Type}

/-! ## `loads` -/

/-- The whitespace of JSON. -/
def isBlank (c : PyChar) : Bool :=
  c ∈ [PyChar.char ' ', PyChar.char '\t', PyChar.char '\n', PyChar.char '\r']

def skipBlanks (cs : PyText) : PyText := cs.dropWhile isBlank

/-- A code point of the first plane. -/
def codeUnit (n : Nat) : PyChar :=
  if h : 0xd800 ≤ n ∧ n < 0xe000 then .surrogate ⟨n - 0xd800, by omega⟩ else .char (Char.ofNat n)

def hexDigit? : PyChar → Option Nat
  | .surrogate _ => none
  | .char c =>
      if '0' ≤ c ∧ c ≤ '9' then some (c.toNat - '0'.toNat)
      else if 'a' ≤ c ∧ c ≤ 'f' then some (c.toNat - 'a'.toNat + 10)
      else if 'A' ≤ c ∧ c ≤ 'F' then some (c.toNat - 'A'.toNat + 10)
      else none

/-- The number after `\u`. -/
def hex? (a b c d : PyChar) : Option Nat :=
  match hexDigit? a, hexDigit? b, hexDigit? c, hexDigit? d with
  | some a, some b, some c, some d => some (((a * 16 + b) * 16 + c) * 16 + d)
  | _, _, _, _ => none

/-- The character after a backslash, but for `u`. -/
def unescape? : PyChar → Option PyChar
  | .char '"' => some (.char '"')
  | .char '\\' => some (.char '\\')
  | .char '/' => some (.char '/')
  | .char 'b' => some (.char '\x08')
  | .char 'f' => some (.char '\x0c')
  | .char 'n' => some (.char '\n')
  | .char 'r' => some (.char '\r')
  | .char 't' => some (.char '\t')
  | _ => none

/-- What stands in a string: a character, or the number of an escape. -/
inductive Piece
  | char (c : PyChar)
  | unit (n : Nat)

/-- The character of two halves. -/
def join? (high low : Nat) : Option PyChar :=
  if 0xd800 ≤ high ∧ high < 0xdc00 ∧ 0xdc00 ≤ low ∧ low < 0xe000 then
    some (.char (Char.ofNat (0x10000 + (high - 0xd800) * 0x400 + (low - 0xdc00))))
  else none

def joinPieces : List Piece → PyText
  | [] => []
  | .char c :: rest => c :: joinPieces rest
  | .unit high :: .unit low :: rest =>
      match join? high low with
      | some c => c :: joinPieces rest
      | none => codeUnit high :: joinPieces (.unit low :: rest)
  | .unit n :: rest => codeUnit n :: joinPieces rest

abbrev Scan (α : Type) := Except LoadError (α × PyText)

def push (piece : Piece) : Scan (List Piece) → Scan (List Piece) :=
  Except.map fun (pieces, rest) => (piece :: pieces, rest)

def isControl : PyChar → Bool
  | .char c => c.toNat < 0x20
  | .surrogate _ => false

/-- A string, after its first quote. -/
def scanPieces : PyText → Scan (List Piece)
  | [] => .error .decodeError
  | .char '"' :: rest => .ok ([], rest)
  | .char '\\' :: .char 'u' :: a :: b :: c :: d :: rest =>
      match hex? a b c d with
      | some n => push (.unit n) (scanPieces rest)
      | none => .error .decodeError
  | .char '\\' :: c :: rest =>
      match unescape? c with
      | some c => push (.char c) (scanPieces rest)
      | none => .error .decodeError
  | c :: rest => if isControl c then .error .decodeError else push (.char c) (scanPieces rest)

/-- `scanstring` -/
def scanString (cs : PyText) : Scan PyText :=
  (scanPieces cs).map fun (pieces, rest) => (joinPieces pieces, rest)

/-- The digits that `cs` starts with. -/
def takeDigits : PyText → List Char × PyText
  | .char c :: rest =>
      if c.isDigit then
        let (digits, rest) := takeDigits rest
        (c :: digits, rest)
      else ([], .char c :: rest)
  | rest => ([], rest)

/-- `0`, or digits that do not start with it. -/
def scanInteger : PyText → Scan (List Char)
  | .char '0' :: rest => .ok (['0'], rest)
  | cs =>
      match takeDigits cs with
      | ([], _) => .error .decodeError
      | (digits, rest) => .ok (digits, rest)

/-- The fraction, with its point; nothing when no digit stands after the point. -/
def scanFraction : PyText → List Char × PyText
  | .char '.' :: rest =>
      match takeDigits rest with
      | ([], _) => ([], .char '.' :: rest)
      | (digits, rest) => ('.' :: digits, rest)
  | rest => ([], rest)

def scanSign : PyText → List Char × PyText
  | .char '-' :: rest => (['-'], rest)
  | .char '+' :: rest => (['+'], rest)
  | rest => ([], rest)

/-- The exponent, with its letter. -/
def scanExponent : PyText → List Char × PyText
  | .char c :: rest =>
      if c = 'e' ∨ c = 'E' then
        match scanSign rest with
        | (sign, rest') =>
            match takeDigits rest' with
            | ([], _) => ([], .char c :: rest)
            | (digits, rest') => (c :: (sign ++ digits), rest')
      else ([], .char c :: rest)
  | rest => ([], rest)

/-- `_match_number`, of a number without its sign. -/
def scanUnsigned (floats : Floats φ) (negative : Bool) (cs : PyText) : Scan (Json φ) :=
  match scanInteger cs with
  | .error error => .error error
  | .ok (digits, rest) =>
      match scanFraction rest with
      | (fraction, rest) =>
          match scanExponent rest with
          | (exponent, rest) =>
              if fraction = [] ∧ exponent = [] then
                match PyInt.nat? digits with
                | some n => .ok (.int (if negative then -n else n), rest)
                | none => .error (.tooManyDigits digits.length)
              else
                .ok (.float (floats.parse
                  ((if negative then ['-'] else []) ++ digits ++ fraction ++ exponent)), rest)

def scanNumber (floats : Floats φ) : PyText → Scan (Json φ)
  | .char '-' :: rest => scanUnsigned floats true rest
  | cs => scanUnsigned floats false cs

/-- The words that are values. -/
def words (floats : Floats φ) : List (String × Json φ) :=
  [("null", .null), ("true", .bool true), ("false", .bool false), ("NaN", .float floats.nan),
    ("Infinity", .float floats.inf), ("-Infinity", .float floats.negInf)]

def scanAtom (floats : Floats φ) (cs : PyText) : Scan (Json φ) :=
  match (words floats).find? fun (word, _) => (PyText.ofString word).isPrefixOf cs with
  | some (word, value) => .ok (value, cs.drop word.length)
  | none => scanNumber floats cs

/-- The values of a list up to its bracket.  Each takes a character at least. -/
def scanItems (scan : PyText → Scan (Json φ)) : Nat → PyText → Scan (List (Json φ))
  | 0, _ => .error .decodeError
  | fuel + 1, cs =>
      match scan cs with
      | .error error => .error error
      | .ok (value, rest) =>
          match skipBlanks rest with
          | .char ']' :: rest => .ok ([value], rest)
          | .char ',' :: rest =>
              (scanItems scan fuel (skipBlanks rest)).map fun (values, rest) =>
                (value :: values, rest)
          | _ => .error .decodeError

/-- A key, its colon and its value. -/
def scanField (scan : PyText → Scan (Json φ)) : PyText → Scan (PyText × Json φ)
  | .char '"' :: rest =>
      match scanString rest with
      | .error error => .error error
      | .ok (key, rest) =>
          match skipBlanks rest with
          | .char ':' :: rest =>
              (scan (skipBlanks rest)).map fun (value, rest) => ((key, value), rest)
          | _ => .error .decodeError
  | _ => .error .decodeError

/-- The fields of an object up to its brace. -/
def scanFields (scan : PyText → Scan (Json φ)) : Nat → PyText → Scan (List (PyText × Json φ))
  | 0, _ => .error .decodeError
  | fuel + 1, cs =>
      match scanField scan cs with
      | .error error => .error error
      | .ok (field, rest) =>
          match skipBlanks rest with
          | .char '}' :: rest => .ok ([field], rest)
          | .char ',' :: rest =>
              (scanFields scan fuel (skipBlanks rest)).map fun (fields, rest) =>
                (field :: fields, rest)
          | _ => .error .decodeError

/-- `dict(pairs)` -/
def ofPairs (pairs : List (PyText × Json φ)) : Json φ :=
  .dict (OrderedDict.collect (fun pair => some pair.1) Prod.snd pairs).entries

/-- `scan_once`, where lists and objects may be nested `depth` levels more. -/
def scanOnce (floats : Floats φ) : Nat → PyText → Scan (Json φ)
  | _, [] => .error .decodeError
  | _, .char '"' :: rest => (scanString rest).map fun (t, rest) => (.str t, rest)
  | 0, .char '[' :: _ => .error .recursionError
  | 0, .char '{' :: _ => .error .recursionError
  | depth + 1, .char '[' :: rest =>
      match skipBlanks rest with
      | .char ']' :: rest => .ok (.list [], rest)
      | rest =>
          (scanItems (scanOnce floats depth) rest.length rest).map fun (items, rest) =>
            (.list items, rest)
  | depth + 1, .char '{' :: rest =>
      match skipBlanks rest with
      | .char '}' :: rest => .ok (.dict [], rest)
      | rest =>
          (scanFields (scanOnce floats depth) rest.length rest).map fun (fields, rest) =>
            (ofPairs fields, rest)
  | _, cs => scanAtom floats cs

/-- `loads(text)` -/
def loads (floats : Floats φ) (depth : Nat) (text : PyText) : Except LoadError (Json φ) :=
  if text.head? = some (.char '\ufeff') then .error .decodeError
  else
    match scanOnce floats depth (skipBlanks text) with
    | .error error => .error error
    | .ok (value, rest) => if skipBlanks rest = [] then .ok value else .error .decodeError

/-! ## `dumps` -/

def escapeChar : PyChar → List Char
  | .surrogate _ => []
  | .char '"' => ['\\', '"']
  | .char '\\' => ['\\', '\\']
  | .char '\n' => ['\\', 'n']
  | .char '\r' => ['\\', 'r']
  | .char '\t' => ['\\', 't']
  | .char '\x0c' => ['\\', 'f']
  | .char '\x08' => ['\\', 'b']
  | .char c => if c.toNat < 0x20 then '\\' :: 'u' :: PyText.hex 4 c.toNat else []

/-- A character of a string, escaped where JSON needs it. -/
def dumpChar (c : PyChar) : PyText :=
  match escapeChar c with
  | [] => [c]
  | escaped => escaped.map .char

def dumpString (t : PyText) : PyText := .char '"' :: (t.flatMap dumpChar ++ [.char '"'])

def dumpInt (n : Int) : PyText := PyText.ofString (toString n)

mutual

/-- `dumps(value, ensure_ascii=False, separators=(",", ":"))` -/
def dumps (floats : Floats φ) : Json φ → PyText
  | .null => PyText.ofString "null"
  | .bool true => PyText.ofString "true"
  | .bool false => PyText.ofString "false"
  | .int n => dumpInt n
  | .float x => (floats.repr x).map .char
  | .str t => dumpString t
  | .list [] => PyText.ofString "[]"
  | .list (item :: items) => .char '[' :: (dumps floats item ++ dumpItems floats items)
  | .dict [] => PyText.ofString "\x7b\x7d"
  | .dict ((key, value) :: fields) =>
      .char '{' :: (dumpString key ++ .char ':' :: (dumps floats value ++ dumpFields floats fields))

/-- The other items of a list. -/
def dumpItems (floats : Floats φ) : List (Json φ) → PyText
  | [] => [.char ']']
  | item :: items => .char ',' :: (dumps floats item ++ dumpItems floats items)

/-- The other fields of an object. -/
def dumpFields (floats : Floats φ) : List (PyText × Json φ) → PyText
  | [] => [.char '}']
  | (key, value) :: fields =>
      .char ',' :: (dumpString key ++ .char ':' :: (dumps floats value ++ dumpFields floats fields))

end

/-! ## Conversions -/

/-- `d.get(key)` -/
def get? (fields : List (PyText × Json φ)) (key : String) : Option (Json φ) :=
  (fields.find? fun field => field.1 = PyText.ofString key).map Prod.snd

/-- `value == 1` -/
def isOne (floats : Floats φ) : Json φ → Bool
  | .int n => n == 1
  | .bool b => b
  | .float x => floats.isOne x
  | _ => false

/-- `bool(value)` -/
def truth (floats : Floats φ) : Json φ → Bool
  | .null => false
  | .bool b => b
  | .int n => n != 0
  | .float x => floats.truth x
  | .str t => !t.isEmpty
  | .list items => !items.isEmpty
  | .dict fields => !fields.isEmpty

/-- `int(value)` -/
def toInt (floats : Floats φ) : Json φ → Except IntError Int
  | .int n => .ok n
  | .bool b => .ok (if b then 1 else 0)
  | .float x => floats.toInt x
  | .str t =>
      match PyText.int? t with
      | some n => .ok n
      | none => .error .notANumber
  | _ => .error .notANumber

mutual

/-- `repr(value)` -/
def repr (floats : Floats φ) (isPrintable : Char → Bool) : Json φ → List Char
  | .null => "None".toList
  | .bool true => "True".toList
  | .bool false => "False".toList
  | .int n => (toString n).toList
  | .float x => floats.repr x
  | .str t => PyText.repr isPrintable t
  | .list [] => "[]".toList
  | .list (item :: items) =>
      '[' :: (repr floats isPrintable item ++ reprItems floats isPrintable items)
  | .dict [] => "\x7b\x7d".toList
  | .dict ((key, value) :: fields) =>
      '{' :: (PyText.repr isPrintable key ++ ": ".toList ++ repr floats isPrintable value ++
        reprFields floats isPrintable fields)

def reprItems (floats : Floats φ) (isPrintable : Char → Bool) : List (Json φ) → List Char
  | [] => [']']
  | item :: items =>
      ", ".toList ++ repr floats isPrintable item ++ reprItems floats isPrintable items

def reprFields (floats : Floats φ) (isPrintable : Char → Bool) :
    List (PyText × Json φ) → List Char
  | [] => ['}']
  | (key, value) :: fields =>
      ", ".toList ++ PyText.repr isPrintable key ++ ": ".toList ++ repr floats isPrintable value ++
        reprFields floats isPrintable fields

end

/-- `value if isinstance(value, str) else str(value)` -/
def toText (floats : Floats φ) (isPrintable : Char → Bool) : Json φ → PyText
  | .str t => t
  | value => (repr floats isPrintable value).map .char

end Json

end Lib

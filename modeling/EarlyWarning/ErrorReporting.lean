/-
# `ErrorReporting` — what is taken out of a text before it is logged

`redact_sensitive_text` (`app/error_reporting.py`): three substitutions take connection strings
and assignments out, a scan for the keys of mappings redacts their values, a last substitution
takes encryption keys out, and the text is cut short.

The scan finds the next sensitive name, whatever it stands in.  A name before `=` is passed over; a
name before `:` has a value, which is redacted up to where the scan takes it to end; after any other
name nothing of the text is left.  The value ends at its closing bracket or quote, or, when it opens
with neither, at the next `,`, `}` or `]`.

What counts as a letter is a table of the interpreter.  The functions go over lists of any
characters that can be read (`Letter`): the program's texts, or texts whose characters say where
they are from.
-/
import EarlyWarning.Lib.PyText
import EarlyWarning.Lib.Regex

namespace EarlyWarning.ErrorReporting

open Lib

/-- A character of a text, and what a character is that the program writes itself. -/
class Letter (α : Type) where
  char : α → PyChar
  printed : PyChar → α

instance : Letter PyChar := ⟨id, id⟩

/-- The tables of the interpreter. -/
structure Unicode where
  /-- `\w` -/
  isWord : PyChar → Bool

/-! ## The patterns -/

section Patterns

/-- How a character compares when case does not count.  Four letters outside ASCII are the other
case of one of ASCII. -/
def fold (c : Char) : Char :=
  if c.isUpper then c.toLower
  else if c = '\u017f' then 's'
  else if c = '\u212a' then 'k'
  else if c = '\u0130' ∨ c = '\u0131' then 'i'
  else c

/-- A character of a class, whatever its case. -/
def ignoringCase (p : Char → Bool) : PyChar → Bool
  | .char c => p (fold c)
  | .surrogate _ => false

def lit (c : Char) : Regex PyChar := .one (ignoringCase (· == c))

def literal (s : String) : Regex PyChar := .all (s.toList.map lit)

def noneOf (cs : List Char) : Regex PyChar := .one fun c => c ∉ cs.map PyChar.char

/-- `.` -/
def dot : Regex PyChar := noneOf ['\n']

/-- `\s` -/
def space : Regex PyChar := .one PyText.isSpace

/-- `\b` -/
def wordBoundary (u : Unicode) : Regex PyChar :=
  .assert fun prev next => prev.any u.isWord != next.any u.isWord

/-- `(?=[;\s]|\Z)` -/
def valueEnd : Regex PyChar :=
  .assert fun _ next => next.all fun c => c == .char ';' || PyText.isSpace c

def quotedValue (quote : Char) : Regex PyChar :=
  .all [lit quote, .star (.any [.all [lit '\\', dot], noneOf [quote, '\\']]), lit quote, valueEnd]

def doubleQuotedValue : Regex PyChar := quotedValue '"'

def singleQuotedValue : Regex PyChar := quotedValue '\''

def odbcBracedValue : Regex PyChar :=
  .all [lit '{', .star (.any [literal "\x7d\x7d", noneOf ['}']]), lit '}',
    .assert fun _ next => next != some (.char '}'), valueEnd]

def unterminatedValue (opening : Char) : Regex PyChar :=
  .all [lit opening, .star (noneOf ['\r', '\n'])]

def unterminatedDoubleQuotedValue : Regex PyChar := unterminatedValue '"'

def unterminatedSingleQuotedValue : Regex PyChar := unterminatedValue '\''

def unterminatedOdbcBracedValue : Regex PyChar := unterminatedValue '{'

def assignmentValue : Regex PyChar :=
  .any [doubleQuotedValue, singleQuotedValue, odbcBracedValue, unterminatedDoubleQuotedValue,
    unterminatedSingleQuotedValue, unterminatedOdbcBracedValue,
    .plus (.one fun c => !(c == .char ';' || PyText.isSpace c))]

/-- `\s*=\s*` and a value -/
def assigned : Regex PyChar := .all [.star space, lit '=', .star space, assignmentValue]

def sensitiveNames : List String := ["pwd", "password", "secret", "secret_key", "session_secret"]

def sensitiveFieldName : Regex PyChar :=
  .all [.star (.all [.plus (.one (ignoringCase Char.isAlphanum)), lit '_']),
    .any (sensitiveNames.map literal)]

def sensitiveAssignment (u : Unicode) : Substitution PyChar where
  kept := .all [wordBoundary u, sensitiveFieldName]
  replaced := assigned
  replacement := PyText.ofString "=[REDACTED]"

/-- `[A-Za-z0-9_]` -/
def isNameChar : PyChar → Bool := ignoringCase fun c => c.isAlphanum || c == '_'

def noNameCharBefore : Regex PyChar := .assert fun prev _ => !prev.any isNameChar

def noNameCharAfter : Regex PyChar := .assert fun _ next => !next.any isNameChar

/-- A name in quotes, the same on both sides, or in none. -/
def sensitiveMappingKey : Regex PyChar :=
  .all [noNameCharBefore,
    .any [.all [lit '\'', sensitiveFieldName, noNameCharAfter, lit '\''],
      .all [lit '"', sensitiveFieldName, noNameCharAfter, lit '"'],
      .all [sensitiveFieldName, noNameCharAfter]]]

def odbcSensitiveAssignment (u : Unicode) : Substitution PyChar where
  kept := .all [wordBoundary u,
    .any [literal "server", .all [literal "data", .plus space, literal "source"], literal "uid",
      .all [literal "user", .star space, literal "id"], literal "database",
      .all [literal "initial", .plus space, literal "catalog"], literal "pwd", literal "password"]]
  replaced := assigned
  replacement := PyText.ofString "=[REDACTED]"

/-- `[A-Za-z0-9_-]`, case and all -/
def isFernetChar : PyChar → Bool
  | .char c => c.isAlphanum || c == '_' || c == '-'
  | .surrogate _ => false

def fernetValue : Substitution PyChar where
  kept := .assert fun prev _ => !prev.any isFernetChar
  replaced := .all [.times 43 (.one isFernetChar), .one (· == .char '='),
    .assert fun _ next => !next.any isFernetChar]
  replacement := PyText.ofString "[REDACTED KEY]"

def odbcConnectionString (u : Unicode) : Substitution PyChar where
  kept := wordBoundary u
  replaced := .all [literal "driver=", lit '{', .star (noneOf ['\r', '\n'])]
  replacement := PyText.ofString "[REDACTED CONNECTION STRING]"

end Patterns

/-! ## Values -/

def structuredValueScanLimit : Nat := 32768

def structuredValueDepthLimit : Nat := 64

def isOneOf (cs : List Char) (c : PyChar) : Bool := c ∈ cs.map PyChar.char

/-- `_MAPPING_WHITESPACE` -/
def isMappingWhitespace : PyChar → Bool := isOneOf [' ', '\t', '\r', '\n']

/-- Where the characters of a class end that stand at `position`. -/
def skip (p : PyChar → Bool) (text : PyText) (position stop : Nat) : Nat :=
  position + (((text.take stop).drop position).takeWhile p).length

/-- The character at `position`, when it is before `stop`. -/
def charBefore (text : PyText) (position stop : Nat) : Option PyChar := (text.take stop)[position]?

inductive ValueStart
  | assignment
  | missing
  | at (position : Nat)
deriving DecidableEq

def mappingValueStart (text : PyText) (keyEnd scanEnd : Nat) : ValueStart :=
  let position := skip isMappingWhitespace text keyEnd scanEnd
  if charBefore text position scanEnd = some (.char '=') then .assignment
  else if charBefore text position scanEnd = some (.char ':') then
    .at (skip isMappingWhitespace text (position + 1) scanEnd)
  else .missing

/-- `,}]` -/
def isDelimiter : PyChar → Bool := isOneOf [',', '}', ']']

def isLineEnd : PyChar → Bool := isOneOf ['\r', '\n']

def consumeTrailingFragment (text : PyText) (start stop : Nat) : Nat :=
  let position := skip isMappingWhitespace text start stop
  if (charBefore text position stop).any isDelimiter then position
  else
    let fragmentEnd := skip (fun c => !isDelimiter c && !isLineEnd c) text position stop
    if (charBefore text fragmentEnd stop).any isDelimiter then fragmentEnd else text.length

def closingFor : PyChar → Option PyChar
  | .char '[' => some (.char ']')
  | .char '{' => some (.char '}')
  | _ => none

/-- How much is left up to the closing of the bracket, for which `stack` waits at last. -/
def bracketEnd : List PyChar → Option PyChar → Bool → PyText → Option Nat
  | _, _, _, [] => none
  | stack, some quote, escaped, c :: rest =>
      (if isLineEnd c then none
      else if escaped then bracketEnd stack (some quote) false rest
      else if c = .char '\\' then bracketEnd stack (some quote) true rest
      else if c = quote then bracketEnd stack none false rest
      else bracketEnd stack (some quote) false rest).map (· + 1)
  | stack, none, escaped, c :: rest =>
      if isOneOf ['\'', '"'] c then (bracketEnd stack (some c) escaped rest).map (· + 1)
      else
        match closingFor c with
        | some closing =>
            if structuredValueDepthLimit ≤ stack.length then none
            else (bracketEnd (closing :: stack) none escaped rest).map (· + 1)
        | none =>
            if isOneOf [']', '}'] c then
              if stack.head? ≠ some c then none
              else if stack.tail = [] then some 1
              else (bracketEnd stack.tail none escaped rest).map (· + 1)
            else (bracketEnd stack none escaped rest).map (· + 1)

/-- How much is left up to the closing quote. -/
def quoteEnd (quote : PyChar) : Bool → PyText → Option Nat
  | _, [] => none
  | escaped, c :: rest =>
      if isLineEnd c then none
      else if escaped then (quoteEnd quote false rest).map (· + 1)
      else if c = .char '\\' then (quoteEnd quote true rest).map (· + 1)
      else if c = quote then some 1
      else (quoteEnd quote false rest).map (· + 1)

/-- The scan reads no further than `scanEnd`, which is not after the end of the text. -/
def structuredValueEnd (text : PyText) (start scanEnd : Nat) : Nat :=
  match (text.take scanEnd).drop start with
  | [] => text.length
  | first :: rest =>
      match closingFor first with
      | some closing =>
          match bracketEnd [closing] none false rest with
          | some n => consumeTrailingFragment text (start + 1 + n) scanEnd
          | none => text.length
      | none =>
          if isOneOf ['\'', '"'] first then
            match quoteEnd first false rest with
            | some n => consumeTrailingFragment text (start + 1 + n) scanEnd
            | none => text.length
          else
            let position := skip (fun c => !isDelimiter c) text start scanEnd
            if position < scanEnd then position else text.length

/-! ## The scan -/

section Scan

variable {α : Type} [Letter α]

def chars (text : List α) : PyText := text.map Letter.char

/-- What the program writes. -/
def printed (s : String) : List α := (PyText.ofString s).map Letter.printed

/-- `text[start:stop]` -/
def slice (text : List α) (start stop : Nat) : List α := (text.take stop).drop start

/-- The next name from `position` on, where it starts and where it ends. -/
def searchKey (text : PyText) (position : Nat) : Option (Nat × Nat) :=
  (sensitiveMappingKey.search (text.take position).getLast? (text.drop position)).map
    fun (offset, length) => (position + offset, position + offset + length)

/-- The loop of `_redact_sensitive_mapping_values`: what is rendered from `cursor` on. -/
def redactFrom (text : List α) : Nat → Nat → Nat → List α
  | 0, cursor, _ => text.drop cursor
  | fuel + 1, cursor, searchPosition =>
      match searchKey (chars text) searchPosition with
      | none => text.drop cursor
      | some (start, stop) =>
          let scanEnd := min text.length (start + structuredValueScanLimit)
          match mappingValueStart (chars text) stop scanEnd with
          | .assignment => redactFrom text fuel cursor stop
          | .missing => slice text cursor stop ++ printed "[REDACTED]"
          | .at valueStart =>
              let valueEnd := structuredValueEnd (chars text) valueStart scanEnd
              let next := max valueEnd valueStart
              slice text cursor valueStart ++ (printed "[REDACTED]" ++ redactFrom text fuel next next)

/-- A name takes a character at least. -/
def redactSensitiveMappingValues (text : List α) : List α :=
  redactFrom text (text.length + 1) 0 0

/-- `pattern.sub(replacement, text)` -/
def sub (p : Substitution PyChar) (text : List α) : List α :=
  cut (p.replacement.map Letter.printed) (p.spans 0 none (chars text)) text

/-- What the scan goes over. -/
def substituted (u : Unicode) (text : List α) : List α :=
  sub (sensitiveAssignment u) (sub (odbcSensitiveAssignment u) (sub (odbcConnectionString u) text))

def redactSensitiveText (u : Unicode) (text : List α) (limit : Nat := 300) : List α :=
  (sub fernetValue (redactSensitiveMappingValues (substituted u text))).take limit

end Scan

end EarlyWarning.ErrorReporting

/-
# `Lib.Odbc` — connection strings of ODBC

A connection string is a list of attributes `key=value`, with a semicolon after each.  A value
that starts with a brace extends to the first closing brace that is not doubled, and a doubled one
stands for itself; any other value extends to the semicolon.  Of two attributes with one key the
first counts, and the case of a key does not matter.

`quote` writes a value in braces.  Whatever the value is, it is read back, and what comes after it
is read as if the value were another one (`attributes_append`).
-/
import Mathlib.Data.List.Basic

namespace Lib.Odbc

/-- Where the parser stands. -/
inductive Mode
  /-- in a key, of which this is read -/
  | key (read : List Char)
  /-- at the start of a value -/
  | value (key : List Char)
  /-- in a value without braces -/
  | plain (key read : List Char)
  | braced (key read : List Char)
  /-- after a closing brace in a braced value -/
  | closing (key read : List Char)
  /-- after a value, up to its semicolon -/
  | after (key value : List Char)

abbrev Attribute := List Char × List Char

def parse : Mode → List Char → List Attribute
  | .key _, [] => []
  | .key read, c :: rest =>
      if c = ';' then parse (.key []) rest
      else if c = '=' then parse (.value read) rest
      else parse (.key (read ++ [c])) rest
  | .value key, [] => [(key, [])]
  | .value key, c :: rest =>
      if c = ';' then (key, []) :: parse (.key []) rest
      else if c = '{' then parse (.braced key []) rest
      else parse (.plain key [c]) rest
  | .plain key read, [] => [(key, read)]
  | .plain key read, c :: rest =>
      if c = ';' then (key, read) :: parse (.key []) rest
      else parse (.plain key (read ++ [c])) rest
  | .braced key read, [] => [(key, read)]
  | .braced key read, c :: rest =>
      if c = '}' then parse (.closing key read) rest
      else parse (.braced key (read ++ [c])) rest
  | .closing key read, [] => [(key, read)]
  | .closing key read, c :: rest =>
      if c = '}' then parse (.braced key (read ++ [c])) rest
      else if c = ';' then (key, read) :: parse (.key []) rest
      else parse (.after key read) rest
  | .after key value, [] => [(key, value)]
  | .after key value, c :: rest =>
      if c = ';' then (key, value) :: parse (.key []) rest
      else parse (.after key value) rest

/-- The attributes of a connection string. -/
def attributes (connection : List Char) : List Attribute := parse (.key []) connection

def sameKey (a b : List Char) : Bool := a.map Char.toLower = b.map Char.toLower

/-- The value of a key: the first one. -/
def value? (key : List Char) (attributes : List Attribute) : Option (List Char) :=
  (attributes.find? fun a => sameKey a.1 key).map Prod.snd

/-- Closing braces doubled. -/
def escape (value : List Char) : List Char :=
  value.flatMap fun c => if c = '}' then ['}', '}'] else [c]

def quote (value : List Char) : List Char := '{' :: (escape value ++ ['}'])

/-- A key that ends where its equals sign is. -/
def IsKey (key : List Char) : Prop := ';' ∉ key ∧ '=' ∉ key

instance (key : List Char) : Decidable (IsKey key) := inferInstanceAs (Decidable (_ ∧ _))

example : attributes "PWD=\x7ba\x7d\x7d;b\x7d;UID=c;pwd=d".toList =
    [("PWD".toList, "a\x7d;b".toList), ("UID".toList, ['c']), ("pwd".toList, ['d'])] := by decide

variable {key read w rest : List Char}

theorem parse_key (h : IsKey key) :
    parse (.key read) (key ++ '=' :: rest) = parse (.value (read ++ key)) rest := by
  induction key generalizing read with
  | nil => simp [parse]
  | cons c key ih =>
      have hsemicolon : c ≠ ';' := fun heq => h.1 (heq ▸ List.mem_cons_self)
      have hequals : c ≠ '=' := fun heq => h.2 (heq ▸ List.mem_cons_self)
      have hkey : IsKey key :=
        ⟨fun hc => h.1 (List.mem_cons_of_mem c hc), fun hc => h.2 (List.mem_cons_of_mem c hc)⟩
      rw [List.cons_append, parse, if_neg hsemicolon, if_neg hequals, ih hkey, List.append_assoc]
      rfl

theorem value?_cons_of_same {name : List Char} {others : List Attribute}
    (h : sameKey key name = true) : value? name ((key, w) :: others) = some w := by
  simp only [value?, List.find?_cons, h, Option.map_some]

theorem value?_cons_of_other {name : List Char} {others : List Attribute}
    (h : sameKey key name = false) : value? name ((key, w) :: others) = value? name others := by
  simp only [value?, List.find?_cons, h]

/-- An escaped value is read to its end, and no further. -/
theorem parse_escape : parse (.braced key read) (escape w ++ '}' :: ';' :: rest) =
    (key, read ++ w) :: attributes rest := by
  induction w generalizing read with
  | nil => simp [escape, parse, attributes]
  | cons c w ih =>
      have hescape : escape (c :: w) = (if c = '}' then ['}', '}'] else [c]) ++ escape w :=
        List.flatMap_cons
      have happend : read ++ c :: w = read ++ [c] ++ w := by simp
      rw [hescape, happend]
      by_cases hc : c = '}'
      · rw [if_pos hc, List.append_assoc, ← ih]
        simp [parse, hc]
      · rw [if_neg hc, List.append_assoc, ← ih]
        simp [parse, hc]

/-- **A quoted value is one attribute**, whatever it is and whatever follows. -/
theorem attributes_append (h : IsKey key) (w rest : List Char) :
    attributes (key ++ '=' :: (quote w ++ ';' :: rest)) = (key, w) :: attributes rest := by
  have hvalue : parse (.value key) (quote w ++ ';' :: rest) = (key, w) :: attributes rest := by
    rw [quote, List.cons_append, parse, List.append_assoc]
    exact parse_escape
  rw [attributes, parse_key h]
  exact hvalue

end Lib.Odbc

/-
# `Lib.PyText` — strings of Python that need not be text

A `str` of Python is a list of code points, and half of a surrogate pair may stand in it alone:
the escapes of a JSON document write such strings.  They behave like any other string until they
are encoded, which is what a database does with its parameters.
-/
import EarlyWarning.Lib.PyInt
import Mathlib.Data.List.DropRight

namespace Lib

/-- A code point. -/
inductive PyChar
  | char (c : Char)
  /-- `U+D800 + n` -/
  | surrogate (n : Fin 0x800)
deriving DecidableEq

abbrev PyText := List PyChar

namespace PyText

def ofString (s : String) : PyText := s.toList.map .char

def scalar? : PyChar → Option Char
  | .char c => some c
  | .surrogate _ => none

/-- `t.encode("utf-8")`; `none` when it raises `UnicodeEncodeError`. -/
def encode? (t : PyText) : Option String := (t.mapM scalar?).map String.ofList

def isSpace : PyChar → Bool
  | .char c => PyStr.isSpace c
  | .surrogate _ => false

/-- `t.strip()` -/
def strip (t : PyText) : PyText := (t.dropWhile isSpace).rdropWhile isSpace

/-- `int(t)` -/
def int? (t : PyText) : Option Int := (encode? t).bind PyInt.int?

/-- `n` in hexadecimal, with `width` digits. -/
def hex (width n : Nat) : List Char :=
  (List.range width).reverse.map fun i => Nat.digitChar (n / 16 ^ i % 16)

/-- What `repr` writes for a code point that is not printable. -/
def escape (n : Nat) : List Char :=
  if n ≤ 0xff then '\\' :: 'x' :: hex 2 n
  else if n ≤ 0xffff then '\\' :: 'u' :: hex 4 n
  else '\\' :: 'U' :: hex 8 n

def reprChar (isPrintable : Char → Bool) (quote : Char) : PyChar → List Char
  | .surrogate n => escape (0xd800 + n)
  | .char c =>
      if c = quote ∨ c = '\\' then ['\\', c]
      else if c = '\t' then ['\\', 't']
      else if c = '\n' then ['\\', 'n']
      else if c = '\r' then ['\\', 'r']
      else if isPrintable c then [c]
      else escape c.toNat

/-- `repr(t)`.  Which characters are printable is a table of the interpreter. -/
def repr (isPrintable : Char → Bool) (t : PyText) : List Char :=
  let quote := if .char '\'' ∈ t ∧ .char '"' ∉ t then '"' else '\''
  quote :: (t.flatMap (reprChar isPrintable quote) ++ [quote])

example : repr (fun _ => true) [.char 'a', .char '\'', .surrogate 0x10] =
    "\"a'\\ud810\"".toList := by decide

variable {t : PyText} {s s' : String} {c : PyChar}

theorem mapM_scalar? : ∀ cs : List Char, (cs.map PyChar.char).mapM scalar? = some cs
  | [] => rfl
  | c :: cs => by
      rw [List.map_cons, List.mapM_cons, mapM_scalar? cs]
      rfl

@[simp] theorem encode?_ofString : encode? (ofString s) = some s := by
  rw [encode?, ofString, mapM_scalar?]
  exact congrArg some String.ofList_toList

theorem ofString_injective (h : ofString s = ofString s') : s = s' := by
  have hsome := congrArg encode? h
  rw [encode?_ofString, encode?_ofString] at hsome
  exact Option.some.inj hsome

/-- A character is at most four bytes long. -/
theorem utf8ByteSize_le (h : t = ofString s) : s.utf8ByteSize ≤ 4 * t.length := by
  have hlist : ∀ cs : List Char, (String.ofList cs).utf8ByteSize ≤ 4 * cs.length := by
    intro cs
    induction cs with
    | nil => exact Nat.le_refl 0
    | cons c cs ih =>
        have hsize : c.utf8Size ≤ 4 := Char.utf8Size_le_four c
        rw [String.ofList_cons, String.utf8ByteSize_append, String.utf8ByteSize_singleton,
          List.length_cons]
        omega
  rw [h, ofString, List.length_map]
  simpa using hlist s.toList

theorem mapM_scalar?_eq_some : ∀ {t : PyText} {cs : List Char},
    t.mapM scalar? = some cs → t = cs.map PyChar.char
  | [], cs, h => by
      cases h
      rfl
  | .surrogate _ :: _, cs, h => by
      rw [List.mapM_cons] at h
      cases h
  | .char c :: t, cs, h => by
      rw [List.mapM_cons] at h
      obtain ⟨_, ⟨⟩, hrest⟩ := Option.bind_eq_some_iff.mp h
      obtain ⟨rest, ht, ⟨⟩⟩ := Option.bind_eq_some_iff.mp hrest
      rw [List.map_cons, ← mapM_scalar?_eq_some ht]

/-- A string is encoded when it is text. -/
theorem encode?_eq_some : encode? t = some s ↔ t = ofString s := by
  constructor
  · intro h
    obtain ⟨cs, hcs, rfl⟩ := Option.map_eq_some_iff.mp h
    rw [ofString, String.toList_ofList, ← mapM_scalar?_eq_some hcs]
  · rintro rfl
    exact encode?_ofString

@[simp] theorem ofString_eq_nil : ofString s = [] ↔ s = "" := by
  constructor
  · intro h
    exact ofString_injective (h.trans rfl : ofString s = ofString "")
  · rintro rfl
    rfl

theorem strip_ofString : strip (ofString s) = ofString (PyStr.strip s) := by
  rw [strip, ofString, ofString, PyStr.strip, PyStr.stripChars, String.toList_ofList,
    List.rdropWhile, List.dropWhile_map, ← List.map_reverse, List.dropWhile_map, List.map_reverse]
  rfl

theorem strip_strip (t : PyText) : strip (strip t) = strip t := by
  have hhead : (strip t).dropWhile isSpace = strip t := by
    rw [List.dropWhile_eq_self_iff]
    intro hpos
    obtain ⟨tail, htail⟩ := List.rdropWhile_prefix isSpace (t.dropWhile isSpace)
    have hdrop : 0 < (t.dropWhile isSpace).length := by
      rw [← htail, List.length_append]
      exact Nat.lt_add_right _ hpos
    have hnot := List.dropWhile_get_zero_not isSpace t hdrop
    have hsame : (t.dropWhile isSpace)[0] = (strip t)[0] :=
      (List.getElem_of_eq htail.symm hdrop).trans (List.getElem_append_left hpos)
    rwa [List.get_eq_getElem, hsame] at hnot
  rw [strip, hhead]
  exact List.rdropWhile_idempotent isSpace _

theorem splitOnP_map {α β : Type*} {p : β → Bool} {f : α → β} (l : List α) :
    (l.map f).splitOnP p = (l.splitOnP (p ∘ f)).map (List.map f) := by
  induction l with
  | nil => rfl
  | cons a l ih =>
      rw [List.map_cons, List.splitOnP_cons_eq_if_modifyHead, List.splitOnP_cons_eq_if_modifyHead,
        ih]
      cases hpieces : l.splitOnP (p ∘ f) with
      | nil => exact absurd hpieces (List.splitOnP_ne_nil _ _)
      | cons piece pieces =>
          by_cases hp : p (f a) = true
          · simp [hp]
          · simp [hp]

end PyText

end Lib

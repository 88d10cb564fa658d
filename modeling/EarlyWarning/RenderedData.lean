/-
# `RenderedData` — data as `json.dumps` and `repr` write it, and what of it is sensitive

A style says how strings and bytes are written and where blanks stand; `jsonStyle` is that of
`json.dumps` with its options, `reprStyle` that of `repr`.  `render` writes data in a style, and
`traced` says of every character whether it belongs to a sensitive field: to its key, to its value,
or to what stands between and after.  A field inside a sensitive value is part of the value.
-/
import EarlyWarning.ErrorReporting
import EarlyWarning.Lib.Json

namespace EarlyWarning.ErrorReporting

open Lib

/-! ## Sensitive keys -/

def lower : PyChar → PyChar
  | .char c => .char c.toLower
  | .surrogate n => .surrogate n

/-- Words of letters and digits, each with an underscore after it; in one of them, when `inWord`. -/
def isPrefixes (inWord : Bool) : PyText → Bool
  | [] => !inWord
  | .surrogate _ :: _ => false
  | .char c :: rest =>
      if c = '_' then inWord && isPrefixes false rest
      else c.isAlphanum && isPrefixes true rest

/-- `pwd`, `password`, `secret`, `secret_key` or `session_secret` in letters of any case, with
prefixes. -/
def isSensitiveName (t : PyText) : Bool :=
  sensitiveNames.any fun name =>
    isPrefixes false (t.take (t.length - name.length)) &&
      (t.drop (t.length - name.length)).map lower == PyText.ofString name

/-! ## Data -/

/-- A number, `None`, or one of `True` and `False`, as it is written. -/
structure Atom where
  text : PyText
  ne_nil : text ≠ []
  plain : ∀ c ∈ text, ∃ c', c = .char c' ∧ (c'.isAlphanum ∨ c' = '+' ∨ c' = '-' ∨ c' = '.')

inductive Data
  | atom (a : Atom)
  | str (t : PyText)
  | bytes (b : List UInt8)
  | list (items : List Data)
  | tuple (items : List Data)
  | dict (entries : List (Data × Data))

/-- A key whose value is to be redacted. -/
def Data.isSensitiveKey : Data → Bool
  | .str t => isSensitiveName t
  | _ => false

/-! ## Styles -/

/-- Characters of a string literal: no line ends, and no quote but after a backslash. -/
inductive Literal (quote : PyChar) : PyText → Prop
  | nil : Literal quote []
  | char {c : PyChar} {rest : PyText} (hquote : c ≠ quote) (hescape : c ≠ .char '\\')
      (hline : isLineEnd c = false) (h : Literal quote rest) : Literal quote (c :: rest)
  | escape {c : PyChar} {rest : PyText} (hline : isLineEnd c = false) (h : Literal quote rest) :
      Literal quote (.char '\\' :: c :: rest)

/-- A string literal. -/
def Quoted (t : PyText) : Prop :=
  ∃ quote body, isOneOf ['\'', '"'] quote = true ∧ Literal quote body ∧ t = quote :: (body ++ [quote])

/-- A name as a string literal. -/
def QuotedName (name t : PyText) : Prop :=
  ∃ quote, isOneOf ['\'', '"'] quote = true ∧ t = quote :: (name ++ [quote])

/-- Text of blanks. -/
abbrev Blank := { t : PyText // ∀ c ∈ t, isMappingWhitespace c = true }

def Blank.none : Blank := ⟨[], fun _ h => (List.not_mem_nil h).elim⟩

def Blank.space : Blank := ⟨[.char ' '], by decide⟩

/-- A new line, and the indentation of a level. -/
def Blank.line (indent depth : Nat) : Blank :=
  ⟨.char '\n' :: List.replicate (indent * depth) (.char ' '), fun c hc => by
    rcases List.mem_cons.mp hc with rfl | hc
    · decide
    · rw [List.eq_of_mem_replicate hc]
      decide⟩

/-- Where blanks stand, at a depth. -/
structure Layout where
  afterOpening : Nat → Blank
  beforeComma : Blank
  afterComma : Nat → Blank
  beforeClosing : Nat → Blank
  beforeColon : Blank
  afterColon : Blank

/-- `{"a": 1, "b": 2}` -/
def Layout.oneLine : Layout where
  afterOpening _ := .none
  beforeComma := .none
  afterComma _ := .space
  beforeClosing _ := .none
  beforeColon := .none
  afterColon := .space

/-- A line for every item. -/
def Layout.indented (indent : Nat) : Layout where
  afterOpening := .line indent
  beforeComma := .none
  afterComma := .line indent
  beforeClosing := .line indent
  beforeColon := .none
  afterColon := .space

structure Style where
  layout : Layout
  string : PyText → PyText
  bytes : List UInt8 → PyText
  /-- A tuple has parentheses, and a comma after a single item; else it is written as a list. -/
  tuples : Bool
  string_quoted : ∀ t, Quoted (string t)
  string_name : ∀ t, isSensitiveName t = true → QuotedName t (string t)
  bytes_quoted : ∀ b, ∃ t, Quoted t ∧ bytes b = .char 'b' :: t

/-! ## The styles of Python -/

section Styles

/-- `\uXXXX` -/
def unicodeEscape (n : Nat) : PyText := ('\\' :: 'u' :: PyText.hex 4 n).map .char

/-- A character of a string with `ensure_ascii`. -/
def asciiChar : PyChar → PyText
  | .surrogate n => unicodeEscape (0xd800 + n)
  | .char c =>
      match Json.escapeChar (.char c) with
      | [] =>
          if c.toNat < 0x7f then [.char c]
          else if c.toNat < 0x10000 then unicodeEscape c.toNat
          else unicodeEscape (0xd800 + (c.toNat - 0x10000) / 0x400) ++
            unicodeEscape (0xdc00 + (c.toNat - 0x10000) % 0x400)
      | escaped => escaped.map .char

def dumpAscii (t : PyText) : PyText := .char '"' :: (t.flatMap asciiChar ++ [.char '"'])

/-- The characters that `repr` writes as they are. -/
structure Printable where
  isPrintable : Char → Bool
  ascii : ∀ c : Char, c.isAlphanum ∨ c = '_' → isPrintable c = true

def asciiPrintable (c : Char) : Bool := 0x20 ≤ c.toNat && c.toNat < 0x7f

/-- `repr` of a `bytes` object -/
def reprBytes (b : List UInt8) : PyText :=
  .char 'b' ::
    (PyText.repr asciiPrintable (b.map fun n => .char (Char.ofNat n.toNat))).map .char

variable {quote : PyChar} {t w : PyText}

theorem Literal.append (h : Literal quote t) (h' : Literal quote w) : Literal quote (t ++ w) := by
  induction h with
  | nil => exact h'
  | char hquote hescape hline _ ih => exact .char hquote hescape hline ih
  | escape hline _ ih => exact .escape hline ih

theorem literal_flatMap {α : Type} {f : α → PyText} (hf : ∀ a, Literal quote (f a)) :
    ∀ l : List α, Literal quote (l.flatMap f)
  | [] => .nil
  | a :: l => (hf a).append (literal_flatMap hf l)

/-- A letter or a digit is no character of syntax. -/
theorem alphanum_ne {c : Char} (h : c.isAlphanum = true) :
    c ∉ ['\'', '"', '\\', '\n', '\r', '[', ']', '{', '}', ',', ' ', '\t', ':', '='] := by
  intro hmem
  simp only [List.mem_cons, List.not_mem_nil, or_false] at hmem
  rcases hmem with rfl | rfl | rfl | rfl | rfl | rfl | rfl | rfl | rfl | rfl | rfl | rfl | rfl | rfl
  all_goals exact absurd h (by decide)

theorem isAlphanum_hex {width n : Nat} : ∀ c ∈ PyText.hex width n, c.isAlphanum = true := by
  intro c hc
  obtain ⟨i, -, rfl⟩ := List.mem_map.mp hc
  have hdigit : ∀ k < 16, (Nat.digitChar k).isAlphanum = true := by decide
  exact hdigit _ (Nat.mod_lt _ (by decide))

theorem literal_plain (hquote : isOneOf ['\'', '"'] quote = true) : ∀ {cs : List Char},
    (∀ c ∈ cs, c.isAlphanum = true) → Literal quote (cs.map .char)
  | [], _ => .nil
  | c :: cs, h => by
      have hne := alphanum_ne (h c List.mem_cons_self)
      simp only [List.mem_cons, List.not_mem_nil, or_false, not_or] at hne
      refine .char ?_ ?_ ?_ (literal_plain hquote fun c' hc' => h c' (List.mem_cons_of_mem c hc'))
      · rintro rfl
        simp [isOneOf, hne] at hquote
      · simpa using hne.2.2.1
      · simp [isLineEnd, isOneOf, hne]

theorem literal_escape (hquote : isOneOf ['\'', '"'] quote = true) {c : Char} {cs : List Char}
    (hline : isLineEnd (.char c) = false) (h : ∀ c ∈ cs, c.isAlphanum = true) :
    Literal quote (('\\' :: c :: cs).map .char) :=
  .escape hline (literal_plain hquote h)

theorem literal_one {c : PyChar} (hquote : c ≠ quote) (hescape : c ≠ .char '\\')
    (hline : isLineEnd c = false) : Literal quote [c] :=
  .char hquote hescape hline .nil

theorem literal_unicodeEscape (hquote : isOneOf ['\'', '"'] quote = true) (n : Nat) :
    Literal quote (unicodeEscape n) :=
  literal_escape hquote (by decide) isAlphanum_hex

/-- What `escapeChar` writes, and what it leaves. -/
theorem escapeChar_cases (c : Char) :
    (Json.escapeChar (.char c) = [] ∧ c ≠ '"' ∧ c ≠ '\\' ∧ c ≠ '\n' ∧ c ≠ '\r') ∨
      ∃ d cs, Json.escapeChar (.char c) = '\\' :: d :: cs ∧ d ≠ '\n' ∧ d ≠ '\r' ∧
        ∀ x ∈ cs, x.isAlphanum = true := by
  have hshort : ∀ d : Char, d ≠ '\n' → d ≠ '\r' →
      Json.escapeChar (.char c) = ['\\', d] → ∃ d cs, Json.escapeChar (.char c) =
        '\\' :: d :: cs ∧ d ≠ '\n' ∧ d ≠ '\r' ∧ ∀ x ∈ cs, x.isAlphanum = true :=
    fun d hn hr heq => ⟨d, [], heq, hn, hr, fun _ h => (List.not_mem_nil h).elim⟩
  by_cases hq : c = '"'
  · subst hq
    exact .inr (hshort '"' (by decide) (by decide) rfl)
  by_cases hb : c = '\\'
  · subst hb
    exact .inr (hshort '\\' (by decide) (by decide) rfl)
  by_cases hn : c = '\n'
  · subst hn
    exact .inr (hshort 'n' (by decide) (by decide) rfl)
  by_cases hr : c = '\r'
  · subst hr
    exact .inr (hshort 'r' (by decide) (by decide) rfl)
  by_cases ht : c = '\t'
  · subst ht
    exact .inr (hshort 't' (by decide) (by decide) rfl)
  by_cases hf : c = '\x0c'
  · subst hf
    exact .inr (hshort 'f' (by decide) (by decide) rfl)
  by_cases hbs : c = '\x08'
  · subst hbs
    exact .inr (hshort 'b' (by decide) (by decide) rfl)
  have hrest : Json.escapeChar (.char c) =
      if c.toNat < 0x20 then '\\' :: 'u' :: PyText.hex 4 c.toNat else [] := by
    rw [Json.escapeChar] <;> simp_all
  by_cases hcontrol : c.toNat < 0x20
  · rw [if_pos hcontrol] at hrest
    exact .inr ⟨'u', PyText.hex 4 c.toNat, hrest, by decide, by decide, isAlphanum_hex⟩
  · rw [if_neg hcontrol] at hrest
    exact .inl ⟨hrest, hq, hb, hn, hr⟩

theorem literal_kept {c : Char} (h : c ≠ '"' ∧ c ≠ '\\' ∧ c ≠ '\n' ∧ c ≠ '\r') :
    Literal (.char '"') [.char c] := by
  obtain ⟨hq, hb, hn, hr⟩ := h
  refine literal_one ?_ ?_ ?_
  · simpa using hq
  · simpa using hb
  · simp [isLineEnd, isOneOf, hn, hr]

theorem literal_escaped {d : Char} {cs : List Char} (hn : d ≠ '\n') (hr : d ≠ '\r')
    (h : ∀ x ∈ cs, x.isAlphanum = true) :
    Literal (.char '"') (('\\' :: d :: cs).map .char) :=
  literal_escape (by decide) (by simp [isLineEnd, isOneOf, hn, hr]) h

theorem literal_dumpChar (c : PyChar) : Literal (.char '"') (Json.dumpChar c) := by
  cases c with
  | surrogate n => exact literal_one (by simp) (by simp) (by simp [isLineEnd, isOneOf])
  | char c =>
      rw [Json.dumpChar]
      obtain ⟨hnil, hkept⟩ | ⟨d, cs, hescaped, hn, hr, hcs⟩ := escapeChar_cases c
      · rw [hnil]
        exact literal_kept hkept
      · rw [hescaped]
        exact literal_escaped hn hr hcs

theorem literal_asciiChar (c : PyChar) : Literal (.char '"') (asciiChar c) := by
  cases c with
  | surrogate n => exact literal_unicodeEscape (by decide) _
  | char c =>
      rw [asciiChar]
      obtain ⟨hnil, hkept⟩ | ⟨d, cs, hescaped, hn, hr, hcs⟩ := escapeChar_cases c
      · rw [hnil]
        by_cases hascii : c.toNat < 0x7f
        · simpa only [if_pos hascii] using literal_kept hkept
        · by_cases hplane : c.toNat < 0x10000
          · simpa only [if_neg hascii, if_pos hplane] using
              literal_unicodeEscape (by decide) c.toNat
          · simp only [if_neg hascii, if_neg hplane]
            exact (literal_unicodeEscape (by decide) _).append (literal_unicodeEscape (by decide) _)
      · rw [hescaped]
        exact literal_escaped hn hr hcs

theorem literal_escapePoint {quote : PyChar} (hquote : isOneOf ['\'', '"'] quote = true) (n : Nat) :
    Literal quote ((PyText.escape n).map .char) := by
  rw [PyText.escape]
  split
  case isTrue => exact literal_escape hquote (by decide) isAlphanum_hex
  case isFalse =>
    split
    case isTrue => exact literal_escape hquote (by decide) isAlphanum_hex
    case isFalse => exact literal_escape hquote (by decide) isAlphanum_hex

theorem literal_reprChar (isPrintable : Char → Bool) {quote : Char}
    (hquote : isOneOf ['\'', '"'] (.char quote) = true) (c : PyChar) :
    Literal (.char quote) ((PyText.reprChar isPrintable quote c).map .char) := by
  have hline : isLineEnd (.char quote) = false := by
    simp only [isOneOf, List.map_cons, List.map_nil, List.mem_cons, PyChar.char.injEq,
      List.not_mem_nil, or_false, decide_eq_true_eq] at hquote
    rcases hquote with rfl | rfl
    · decide
    · decide
  cases c with
  | surrogate n => exact literal_escapePoint hquote _
  | char c =>
      rw [PyText.reprChar]
      by_cases hspecial : c = quote ∨ c = '\\'
      · rw [if_pos hspecial]
        refine .escape ?_ .nil
        rcases hspecial with rfl | rfl
        · exact hline
        · decide
      rw [if_neg hspecial]
      rw [not_or] at hspecial
      by_cases ht : c = '\t'
      · rw [if_pos ht]
        exact .escape (by decide) .nil
      rw [if_neg ht]
      by_cases hn : c = '\n'
      · rw [if_pos hn]
        exact .escape (by decide) .nil
      rw [if_neg hn]
      by_cases hr : c = '\r'
      · rw [if_pos hr]
        exact .escape (by decide) .nil
      rw [if_neg hr]
      split
      case isTrue =>
        refine literal_one ?_ ?_ ?_
        · simpa using hspecial.1
        · simpa using hspecial.2
        · simp [isLineEnd, isOneOf, hn, hr]
      case isFalse => exact literal_escapePoint hquote _

theorem quoted_dump {f : PyChar → PyText} (hf : ∀ c, Literal (.char '"') (f c)) (t : PyText) :
    Quoted (.char '"' :: (t.flatMap f ++ [.char '"'])) :=
  ⟨.char '"', t.flatMap f, by decide, literal_flatMap hf t, rfl⟩

theorem quoted_repr (isPrintable : Char → Bool) (t : PyText) :
    Quoted ((PyText.repr isPrintable t).map .char) := by
  have hall : ∀ quote : Char, isOneOf ['\'', '"'] (.char quote) = true →
      Quoted ((quote :: (t.flatMap (PyText.reprChar isPrintable quote) ++ [quote])).map .char) := by
    intro quote hquote
    refine ⟨.char quote, _, hquote, literal_flatMap (literal_reprChar isPrintable hquote) t, ?_⟩
    rw [List.map_cons, List.map_append, List.map_flatMap]
    rfl
  rw [PyText.repr]
  split
  case isTrue => exact hall '"' (by decide)
  case isFalse => exact hall '\'' (by decide)

/-! ### Names -/

/-- The characters of a sensitive name. -/
def IsNameText (t : PyText) : Prop :=
  ∀ c ∈ t, ∃ c', c = .char c' ∧ (c'.isAlphanum = true ∨ c' = '_')

theorem isNameText_of_isPrefixes : ∀ {t : PyText} {inWord : Bool},
    isPrefixes inWord t = true → IsNameText t
  | [], _, _ => fun _ h => (List.not_mem_nil h).elim
  | .surrogate _ :: _, _, h => by cases h
  | .char c :: rest, inWord, h => by
      rw [isPrefixes] at h
      split at h
      case isTrue hunder =>
        obtain ⟨-, hrest⟩ := Bool.and_eq_true_iff.mp h
        exact List.forall_mem_cons.mpr ⟨⟨c, rfl, .inr hunder⟩, isNameText_of_isPrefixes hrest⟩
      case isFalse =>
        obtain ⟨hc, hrest⟩ := Bool.and_eq_true_iff.mp h
        exact List.forall_mem_cons.mpr ⟨⟨c, rfl, .inl hc⟩, isNameText_of_isPrefixes hrest⟩

theorem isUpper_of_toLower_ne {c : Char} (h : c.toLower ≠ c) : c.isUpper = true := by
  unfold Char.toLower at h
  split at h
  case isTrue hupper =>
    exact decide_eq_true hupper
  case isFalse => exact absurd rfl h

theorem isSensitiveName_eq_true (h : isSensitiveName t = true) :
    ∃ p n name, t = p ++ n ∧ isPrefixes false p = true ∧ name ∈ sensitiveNames ∧
      n.map lower = PyText.ofString name := by
  obtain ⟨name, hname, h⟩ := List.any_eq_true.mp h
  obtain ⟨hpieces, hlower⟩ := Bool.and_eq_true_iff.mp h
  exact ⟨_, _, name, (List.take_append_drop _ _).symm, hpieces, hname, beq_iff_eq.mp hlower⟩

/-- A letter of a name, in any case. -/
theorem lower_eq_char {c : PyChar} {x : Char} (h : lower c = .char x) :
    ∃ c', c = .char c' ∧ c'.toLower = x := by
  cases c with
  | surrogate n => cases h
  | char c => exact ⟨c, rfl, PyChar.char.inj h⟩

theorem sensitiveNames_letters :
    ∀ name ∈ sensitiveNames, ∀ x ∈ name.toList, x.isAlphanum = true ∨ x = '_' := by
  have hall : (sensitiveNames.all fun name =>
      name.toList.all fun x => x.isAlphanum || x == '_') = true := by decide
  intro name hname x hx
  simpa using List.all_eq_true.mp (List.all_eq_true.mp hall name hname) x hx

theorem isNameText_of_isSensitiveName (h : isSensitiveName t = true) : IsNameText t := by
  obtain ⟨p, n, name, rfl, hpieces, hname, hlower⟩ := isSensitiveName_eq_true h
  intro c hc
  rcases List.mem_append.mp hc with hc | hc
  · exact isNameText_of_isPrefixes hpieces c hc
  · have hmem : lower c ∈ PyText.ofString name := by
      rw [← hlower]
      exact List.mem_map_of_mem hc
    obtain ⟨x, hx, heq⟩ := List.mem_map.mp hmem
    obtain ⟨c', rfl, hc'⟩ := lower_eq_char heq.symm
    refine ⟨c', rfl, ?_⟩
    by_cases hsame : c'.toLower = c'
    · rw [← hsame, hc']
      exact sensitiveNames_letters name hname x hx
    · left
      show (c'.isUpper || c'.isLower || c'.isDigit) = true
      rw [isUpper_of_toLower_ne hsame]
      rfl

theorem nameChar_range {c : Char} (h : c.isAlphanum = true ∨ c = '_') :
    0x20 ≤ c.toNat ∧ c.toNat < 0x7f := by
  rcases h with h | rfl
  · unfold Char.isAlphanum Char.isAlpha Char.isUpper Char.isLower Char.isDigit at h
    simp only [Bool.or_eq_true, Bool.and_eq_true, decide_eq_true_eq, ge_iff_le,
      UInt32.le_iff_toNat_le] at h
    have hA : 'A'.val.toNat = 65 := rfl
    have hZ : 'Z'.val.toNat = 90 := rfl
    have ha : 'a'.val.toNat = 97 := rfl
    have hz : 'z'.val.toNat = 122 := rfl
    have h0 : '0'.val.toNat = 48 := rfl
    have h9 : '9'.val.toNat = 57 := rfl
    have hc : c.toNat = c.val.toNat := rfl
    omega
  · decide

theorem nameChar_ne {c : Char} (h : c.isAlphanum = true ∨ c = '_') :
    c ∉ ['\'', '"', '\\', '\n', '\r', '[', ']', '{', '}', ',', ' ', '\t', ':', '='] := by
  rcases h with h | rfl
  · exact alphanum_ne h
  · decide

theorem flatMap_singleton {f : PyChar → PyText} (h : ∀ c ∈ t, f c = [c]) : t.flatMap f = t := by
  induction t with
  | nil => rfl
  | cons c t ih =>
      rw [List.flatMap_cons, h c List.mem_cons_self,
        ih fun c' hc' => h c' (List.mem_cons_of_mem c hc')]
      rfl

/-- JSON writes a name as it is. -/
theorem escapeChar_nameChar {c : Char} (h : c.isAlphanum = true ∨ c = '_') :
    Json.escapeChar (.char c) = [] := by
  have hne := nameChar_ne h
  have hrange := nameChar_range h
  simp only [List.mem_cons, List.not_mem_nil, or_false, not_or] at hne
  have hcontrol : ¬ c.toNat < 0x20 := by omega
  have hf : c ≠ '\x0c' := by
    rintro rfl
    exact absurd hrange (by decide)
  have hb : c ≠ '\x08' := by
    rintro rfl
    exact absurd hrange (by decide)
  rw [Json.escapeChar]
  · exact if_neg hcontrol
  all_goals simp_all

theorem quotedName_dump {f : PyChar → PyText} (hf : ∀ c : Char, c.isAlphanum = true ∨ c = '_' →
    f (.char c) = [.char c]) (h : isSensitiveName t = true) :
    QuotedName t (.char '"' :: (t.flatMap f ++ [.char '"'])) := by
  refine ⟨.char '"', by decide, ?_⟩
  rw [flatMap_singleton fun c hc => ?_]
  obtain ⟨c', rfl, hc'⟩ := isNameText_of_isSensitiveName h c hc
  exact hf c' hc'

/-- So does `repr`. -/
theorem quotedName_repr {isPrintable : Char → Bool}
    (hprintable : ∀ c : Char, c.isAlphanum = true ∨ c = '_' → isPrintable c = true)
    (h : isSensitiveName t = true) : QuotedName t ((PyText.repr isPrintable t).map .char) := by
  have hname := isNameText_of_isSensitiveName h
  have hquote : PyChar.char '\'' ∉ t := by
    intro hmem
    obtain ⟨c, hc, hc'⟩ := hname _ hmem
    cases hc
    exact absurd hc' (by decide)
  refine ⟨.char '\'', by decide, ?_⟩
  have hkept : (t.flatMap (PyText.reprChar isPrintable '\'')).map PyChar.char = t := by
    rw [List.map_flatMap]
    refine flatMap_singleton fun c hc => ?_
    obtain ⟨c', rfl, hc'⟩ := hname c hc
    have hne := nameChar_ne hc'
    simp only [List.mem_cons, List.not_mem_nil, or_false, not_or] at hne
    simp [PyText.reprChar, hne, hprintable c' hc']
  rw [PyText.repr]
  simp only [hquote, false_and, if_false, List.map_cons, List.map_append, List.map_nil, hkept]

/-- `json.dumps(obj, ensure_ascii=…, indent=…, separators=…)`, which refuses `bytes`: the data it
writes has none. -/
def jsonStyle (ensureAscii : Bool) (layout : Layout) : Style where
  layout
  string := if ensureAscii then dumpAscii else Json.dumpString
  bytes b := .char 'b' :: Json.dumpString (b.map fun n => .char (Char.ofNat n.toNat))
  tuples := false
  string_quoted t := by
    cases ensureAscii with
    | true => exact quoted_dump literal_asciiChar t
    | false => exact quoted_dump literal_dumpChar t
  string_name t h := by
    have hdump : ∀ c : Char, c.isAlphanum = true ∨ c = '_' → Json.dumpChar (.char c) = [.char c] := by
      intro c hc
      rw [Json.dumpChar, escapeChar_nameChar hc]
    have hascii : ∀ c : Char, c.isAlphanum = true ∨ c = '_' → asciiChar (.char c) = [.char c] := by
      intro c hc
      rw [asciiChar, escapeChar_nameChar hc]
      exact if_pos (nameChar_range hc).2
    cases ensureAscii with
    | true => exact quotedName_dump hascii h
    | false => exact quotedName_dump hdump h
  bytes_quoted _ := ⟨_, quoted_dump literal_dumpChar _, rfl⟩

/-- `repr` -/
def reprStyle (p : Printable) : Style where
  layout := .oneLine
  string t := (PyText.repr p.isPrintable t).map .char
  bytes := reprBytes
  tuples := true
  string_quoted := quoted_repr p.isPrintable
  string_name _ h := quotedName_repr p.ascii h
  bytes_quoted _ := ⟨_, quoted_repr asciiPrintable _, rfl⟩

end Styles

/-! ## Rendering -/

section Render

variable (s : Style)

def tupleOpening : PyChar := .char (if s.tuples then '(' else '[')

def tupleClosing : PyChar := .char (if s.tuples then ')' else ']')

/-- The comma of a tuple with one item. -/
def tupleComma (items : List Data) : PyText :=
  if s.tuples && items.isEmpty then [.char ','] else []

def colon : PyText := s.layout.beforeColon.val ++ .char ':' :: s.layout.afterColon.val

def comma : PyText := s.layout.beforeComma.val ++ [.char ',']

def closing (depth : Nat) (bracket : PyChar) : PyText :=
  (s.layout.beforeClosing depth).val ++ [bracket]

mutual

/-- Data as it is written, inside `depth` brackets. -/
def render (depth : Nat) : Data → PyText
  | .atom a => a.text
  | .str t => s.string t
  | .bytes b => s.bytes b
  | .list [] => PyText.ofString "[]"
  | .list (item :: items) =>
      .char '[' :: ((s.layout.afterOpening (depth + 1)).val ++
        (render (depth + 1) item ++ renderItems depth (.char ']') items))
  | .tuple [] => [tupleOpening s, tupleClosing s]
  | .tuple (item :: items) =>
      tupleOpening s :: ((s.layout.afterOpening (depth + 1)).val ++
        (render (depth + 1) item ++ (tupleComma s items ++ renderItems depth (tupleClosing s) items)))
  | .dict [] => PyText.ofString "\x7b\x7d"
  | .dict ((key, value) :: entries) =>
      .char '{' :: ((s.layout.afterOpening (depth + 1)).val ++
        (render (depth + 1) key ++ (colon s ++ (render (depth + 1) value ++
          renderEntries depth entries))))

/-- The other items, and the bracket. -/
def renderItems (depth : Nat) (bracket : PyChar) : List Data → PyText
  | [] => closing s depth bracket
  | item :: items =>
      comma s ++ ((s.layout.afterComma (depth + 1)).val ++
        (render (depth + 1) item ++ renderItems depth bracket items))

/-- The other entries, and the bracket. -/
def renderEntries (depth : Nat) : List (Data × Data) → PyText
  | [] => closing s depth (.char '}')
  | (key, value) :: entries =>
      comma s ++ ((s.layout.afterComma (depth + 1)).val ++
        (render (depth + 1) key ++ (colon s ++ (render (depth + 1) value ++
          renderEntries depth entries))))

end

/-- The delimiter is not of the value: it opens with a bracket or a quote, or has none inside. -/
def isDelimited (t : PyText) : Bool :=
  t.head?.any (fun c => (closingFor c).isSome || isOneOf ['\'', '"'] c) ||
    t.all fun c => !isDelimiter c

mutual

/-- Every sensitive value can be told from what follows. -/
def delimited (depth : Nat) : Data → Bool
  | .list (item :: items) => delimited (depth + 1) item && itemsDelimited depth items
  | .tuple (item :: items) => delimited (depth + 1) item && itemsDelimited depth items
  | .dict ((key, value) :: entries) =>
      (if key.isSensitiveKey then isDelimited (render s (depth + 1) value)
        else delimited (depth + 1) value) && entriesDelimited depth entries
  | _ => true

def itemsDelimited (depth : Nat) : List Data → Bool
  | [] => true
  | item :: items => delimited (depth + 1) item && itemsDelimited depth items

def entriesDelimited (depth : Nat) : List (Data × Data) → Bool
  | [] => true
  | (key, value) :: entries =>
      (if key.isSensitiveKey then isDelimited (render s (depth + 1) value)
        else delimited (depth + 1) value) && entriesDelimited depth entries

end

end Render

/-! ## Where a character is from -/

inductive Origin
  | outside
  /-- the opening quote of a sensitive key -/
  | key
  /-- of a sensitive field, up to its value -/
  | field
  /-- of a sensitive value -/
  | secret
  /-- after a sensitive value, up to its comma or brace -/
  | after
  /-- written by the program -/
  | mark
deriving DecidableEq

/-- A text whose characters say where they are from. -/
abbrev Traced := List (PyChar × Origin)

instance : Letter (PyChar × Origin) := ⟨Prod.fst, fun c => (c, .mark)⟩

def tagged (origin : Origin) (t : PyText) : Traced := t.map fun c => (c, origin)

section Trace

variable (s : Style)

def tracedKey : PyText → Traced
  | [] => []
  | quote :: rest => (quote, .key) :: tagged .field rest

def sensitiveField (depth : Nat) (key value : Data) : Traced :=
  tracedKey (render s (depth + 1) key) ++
    (tagged .field (colon s) ++ tagged .secret (render s (depth + 1) value))

/-- What follows an entry. -/
def follows (key : Data) : Origin := if key.isSensitiveKey then .after else .outside

mutual

def traced (depth : Nat) : Data → Traced
  | .list (item :: items) =>
      tagged .outside (.char '[' :: (s.layout.afterOpening (depth + 1)).val) ++
        (traced (depth + 1) item ++ tracedItems depth (.char ']') items)
  | .tuple (item :: items) =>
      tagged .outside (tupleOpening s :: (s.layout.afterOpening (depth + 1)).val) ++
        (traced (depth + 1) item ++
          (tagged .outside (tupleComma s items) ++ tracedItems depth (tupleClosing s) items))
  | .dict ((key, value) :: entries) =>
      tagged .outside (.char '{' :: (s.layout.afterOpening (depth + 1)).val) ++
        ((if key.isSensitiveKey then sensitiveField s depth key value
          else tagged .outside (render s (depth + 1) key ++ colon s) ++ traced (depth + 1) value) ++
            tracedEntries depth (follows key) entries)
  | data => tagged .outside (render s depth data)

def tracedItems (depth : Nat) (bracket : PyChar) : List Data → Traced
  | [] => tagged .outside (closing s depth bracket)
  | item :: items =>
      tagged .outside (comma s ++ (s.layout.afterComma (depth + 1)).val) ++
        (traced (depth + 1) item ++ tracedItems depth bracket items)

def tracedEntries (depth : Nat) (origin : Origin) : List (Data × Data) → Traced
  | [] => tagged origin (closing s depth (.char '}'))
  | (key, value) :: entries =>
      tagged origin (comma s) ++ (tagged .outside (s.layout.afterComma (depth + 1)).val ++
        ((if key.isSensitiveKey then sensitiveField s depth key value
          else tagged .outside (render s (depth + 1) key ++ colon s) ++ traced (depth + 1) value) ++
            tracedEntries depth (follows key) entries))

end

end Trace

end EarlyWarning.ErrorReporting

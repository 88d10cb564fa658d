/-
# `Redaction` — what the scan keeps of a sensitive value

A text is a rendering with prose around it, each character with its origin (`document`).  It is
`Legible` when its sensitive values can be told from what follows, no substitution finds anything in
it, and the sensitive names before a colon are the keys of its fields.  Then the scan keeps nothing
of a sensitive value (`redactSensitiveText_hides`).

The loop keeps one invariant: the text that waits to be kept has nothing of a sensitive value, and
what is to be searched has every one behind its key.  A field that stands in the text as it was
rendered keeps it, since its value is taken to end at its delimiter.
-/
import EarlyWarning.SensitiveKey
import EarlyWarning.StructuredValue

namespace EarlyWarning.ErrorReporting

open Lib

/-- Data in a text. -/
def document (s : Style) (before : PyText) (data : Data) (after : PyText) : Traced :=
  tagged .outside before ++ (traced s 0 data ++ tagged .outside after)

/-- Wherever it stands in the text, it is in a sensitive value. -/
def OnlySecret (t : Traced) (w : PyText) : Prop :=
  ∀ v, v <:+: t → chars v = w → ∀ c ∈ v, c.2 = .secret

/-- Nothing that occurs only in sensitive values is left, but over a mark of the program. -/
def Hides (u : Unicode) (t : Traced) (limit : Nat) : Prop :=
  ∀ w, w ≠ [] → OnlySecret t w →
    ∀ v, v <:+: redactSensitiveText u t limit → chars v = w → ∃ c ∈ v, c.2 = .mark

variable {text name w : PyText} {t v : Traced} {i p q start stop valueStart : Nat}

/-! ## Keys in a text -/

/-- A sensitive name in quotes with a colon after it: where it starts and ends, and where its value
starts. -/
def KeyAt (text : PyText) (start stop valueStart : Nat) : Prop :=
  ∃ (quote : PyChar) (name : PyText) (blanks blanks' : Blank) (first : PyChar) (rest : PyText),
    text.drop start = quote :: (name ++ quote :: (blanks.val ++ .char ':' ::
      (blanks'.val ++ first :: rest))) ∧
    isOneOf ['\'', '"'] quote = true ∧ isSensitiveName name = true ∧
    isMappingWhitespace first = false ∧ (text.take start).getLast?.any isNameChar = false ∧
    stop = start + (name.length + 2) ∧
    valueStart = stop + blanks.val.length + 1 + blanks'.val.length

/-- Where the window of a key ends. -/
def scanEnd (text : PyText) (start : Nat) : Nat :=
  min text.length (start + structuredValueScanLimit)

/-- Where the scan goes on after a value. -/
def resume (text : PyText) (start valueStart : Nat) : Nat :=
  max (structuredValueEnd text valueStart (scanEnd text start)) valueStart

/-- Every character of a sensitive value from `p` on has a key from `p` on, and nothing but the
value and marks in between. -/
def BehindKey (t : Traced) (p : Nat) : Prop :=
  ∀ i c, t[i]? = some c → c.2 = .secret → p ≤ i →
    ∃ start stop valueStart, p ≤ start ∧ KeyAt (chars t) start stop valueStart ∧ valueStart ≤ i ∧
      ∀ q d, valueStart ≤ q → q ≤ i → t[q]? = some d → d.2 = .secret ∨ d.2 = .mark

/-- The field at `start` stands in the text as it was rendered, its delimiter after it, and its
value can be told from what follows. -/
def Stands (s : Style) (t : Traced) (start : Nat) : Prop :=
  ∃ stop valueStart depth value v ws e rest, KeyAt (chars t) start stop valueStart ∧
    t.drop valueStart = v ++ (ws ++ e :: rest) ∧ chars v = render s depth value ∧
    isDelimited (render s depth value) = true ∧
    (∀ c ∈ chars ws, isMappingWhitespace c = true) ∧ isDelimiter e.1 = true ∧
    e.2 ≠ .secret ∧ e.2 ≠ .mark

/-- The scan can tell where the sensitive values are: it goes on before the key of the next. -/
structure Redactable (t : Traced) : Prop where
  behindKey : BehindKey t 0
  resumes : ∀ p start stop valueStart, BehindKey t p →
    searchKey (chars t) p = some (start, stop) →
    mappingValueStart (chars t) stop (scanEnd (chars t) start) = .at valueStart →
    BehindKey t (resume (chars t) start valueStart)

/-- A sensitive name starts at `start`, with a colon after it. -/
def namesValue (text : PyText) (start : Nat) : Bool :=
  (sensitiveMappingKey.first (.of text start)).any fun length =>
    ((text.drop (start + length)).dropWhile isMappingWhitespace).head? = some (.char ':')

/-- **A document that reads like one.** -/
structure Legible (u : Unicode) (s : Style) (before : PyText) (data : Data) (after : PyText) :
    Prop where
  /-- the sensitive values can be told from what follows -/
  delimited : delimited s 0 data = true
  /-- no connection string and no assignment is in the text -/
  connectionString : (odbcConnectionString u).Absent (before ++ (render s 0 data ++ after))
  odbcAssignment : (odbcSensitiveAssignment u).Absent (before ++ (render s 0 data ++ after))
  assignment : (sensitiveAssignment u).Absent (before ++ (render s 0 data ++ after))
  /-- a sensitive name with a colon is the key of a field, in a sensitive value, or after all of
  them -/
  names : ∀ start c, (document s before data after)[start]? = some c →
    namesValue (before ++ (render s 0 data ++ after)) start = true →
      c.2 = .key ∨ c.2 = .secret ∨
        ∀ i d, start ≤ i → (document s before data after)[i]? = some d → d.2 ≠ .secret

/-! ## The search -/

theorem getLast?_take_append (hp : p ≤ start) :
    (text.take start).getLast? =
      ((text.drop p).take (start - p)).getLast?.or (text.take p).getLast? := by
  have hsplit : text.take start = text.take p ++ (text.drop p).take (start - p) := by
    have hsum : p + (start - p) = start := Nat.add_sub_cancel' hp
    rw [← hsum, List.take_add, hsum]
  rw [hsplit, List.getLast?_append]

theorem searchKey_lt (h : searchKey text p = some (start, stop)) : p ≤ start ∧ start < stop := by
  obtain ⟨⟨o, n⟩, hsearch, heq⟩ := Option.map_eq_some_iff.mp h
  cases heq
  have hpos := search_pos hsearch
  exact ⟨Nat.le_add_right p o, Nat.lt_add_of_pos_right hpos⟩

/-- The search finds the key, or something that ends before it. -/
theorem searchKey_keyAt {keyStart keyStop : Nat} (h : KeyAt text keyStart keyStop valueStart)
    (hp : p ≤ keyStart) :
    ∃ start stop, searchKey text p = some (start, stop) ∧
      (start = keyStart ∧ stop = keyStop ∨ start < keyStart ∧ stop ≤ keyStart) := by
  obtain ⟨quote, name, blanks, blanks', first, rest, hdrop, hquote, hname, -, hprev, rfl, -⟩ := h
  have hlong : keyStart < text.length := by
    by_contra hle
    rw [List.drop_eq_nil_of_le (Nat.not_lt.mp hle)] at hdrop
    cases hdrop
  have hlength : ((text.drop p).take (keyStart - p)).length = keyStart - p := by
    rw [List.length_take, List.length_drop]
    omega
  rw [getLast?_take_append hp] at hprev
  obtain ⟨o, n, hsearch, hcases⟩ :=
    search_key (blanks.val ++ .char ':' :: (blanks'.val ++ first :: rest)) hquote hname hprev
  have hwhole : (text.drop p).take (keyStart - p) ++ quote :: (name ++ quote ::
      (blanks.val ++ .char ':' :: (blanks'.val ++ first :: rest))) = text.drop p := by
    rw [← hdrop, ← Nat.add_sub_cancel' hp, ← List.drop_drop, Nat.add_sub_cancel_left,
      List.take_append_drop]
  rw [hwhole] at hsearch
  rw [hlength] at hcases
  refine ⟨p + o, p + o + n, by rw [searchKey, hsearch]; rfl, ?_⟩
  rcases hcases with ⟨rfl, rfl⟩ | ⟨hlt, hle⟩
  · left
    omega
  · right
    omega

/-- What is skipped is of the class. -/
theorem of_lt_skip {class' : PyChar → Bool} (hq : start ≤ q)
    (h : q < skip class' text start stop) : ∃ c, text[q]? = some c ∧ class' c = true := by
  rw [skip] at h
  have hlt : q - start < (((text.take stop).drop start).takeWhile class').length := by omega
  obtain ⟨tail, htail⟩ := List.takeWhile_prefix (l := (text.take stop).drop start) class'
  refine ⟨_, ?_, List.mem_takeWhile_imp (List.getElem_mem hlt)⟩
  have hget : ((text.take stop).drop start)[q - start]? =
      some ((((text.take stop).drop start).takeWhile class')[q - start]) := by
    conv => lhs; rw [← htail]
    rw [List.getElem?_append_left hlt, List.getElem?_eq_getElem hlt]
  rw [List.getElem?_drop, Nat.add_sub_cancel' hq, List.getElem?_take] at hget
  split at hget
  case isTrue => exact hget
  case isFalse => cases hget

theorem le_skip {class' : PyChar → Bool} : start ≤ skip class' text start stop :=
  Nat.le_add_right start _

/-- Between a name and the value are blanks and a colon. -/
theorem of_mappingValueStart {limit : Nat}
    (h : mappingValueStart text stop limit = .at valueStart) :
    stop < valueStart ∧ ∀ q, stop ≤ q → q < valueStart →
      ∃ c, text[q]? = some c ∧ (isMappingWhitespace c = true ∨ c = .char ':') := by
  rw [mappingValueStart] at h
  split at h
  case isTrue => cases h
  case isFalse =>
    split at h
    case isFalse => cases h
    case isTrue hcolon =>
      cases h
      rw [charBefore_eq] at hcolon
      have hle : stop ≤ skip isMappingWhitespace text stop limit := le_skip
      refine ⟨Nat.lt_of_lt_of_le (Nat.lt_succ_of_le hle) le_skip, fun q hq hlt => ?_⟩
      rcases Nat.lt_trichotomy q (skip isMappingWhitespace text stop limit) with
        hbefore | heq | hafter
      · obtain ⟨c, hc, hblank⟩ := of_lt_skip hq hbefore
        exact ⟨c, hc, .inl hblank⟩
      · rw [heq]
        split at hcolon
        case isTrue => exact ⟨_, hcolon, .inr rfl⟩
        case isFalse => cases hcolon
      · obtain ⟨c, hc, hblank⟩ := of_lt_skip hafter hlt
        exact ⟨c, hc, .inl hblank⟩

/-- After the blanks that follow the name is the colon. -/
theorem colon_of_mappingValueStart {limit : Nat}
    (h : mappingValueStart text stop limit = .at valueStart) :
    ((text.drop stop).dropWhile isMappingWhitespace).head? = some (.char ':') := by
  rw [mappingValueStart] at h
  split at h
  case isTrue => cases h
  case isFalse =>
    split at h
    case isFalse => cases h
    case isTrue hcolon =>
      obtain ⟨tail, htail⟩ : (text.take limit).drop stop <+: text.drop stop := by
        rw [List.drop_take]
        exact List.take_prefix _ _
      have hhead : (((text.take limit).drop stop).dropWhile isMappingWhitespace).head? =
          some (.char ':') := by
        have hdrop : ∀ w : PyText, w.drop (w.takeWhile isMappingWhitespace).length =
            w.dropWhile isMappingWhitespace := by
          intro w
          conv_lhs => arg 2; rw [← List.takeWhile_append_dropWhile (p := isMappingWhitespace)
            (l := w)]
          exact List.drop_left
        rwa [charBefore, skip, ← List.getElem?_drop, ← List.head?_drop, hdrop] at hcolon
      rw [← htail, List.dropWhile_append, if_neg ?_, List.head?_append, hhead]
      · rfl
      · intro hempty
        rw [List.isEmpty_iff.mp hempty] at hhead
        cases hhead

/-- What is found has a value when a colon comes after it. -/
theorem namesValue_of_searchKey {limit : Nat} (hkey : searchKey text p = some (start, stop))
    (hvalue : mappingValueStart text stop limit = .at valueStart) :
    namesValue text start = true := by
  obtain ⟨⟨o, n⟩, hsearch, heq⟩ := Option.map_eq_some_iff.mp hkey
  cases heq
  obtain ⟨a, b, hsplit, rfl, hfirst⟩ := Regex.search_eq_some hsearch
  have hplace : Place.of text (p + a.length) = ⟨a.getLast?.or (text.take p).getLast?, b⟩ := by
    rw [Place.of, getLast?_take_append (Nat.le_add_right p _), Nat.add_sub_cancel_left, hsplit,
      List.take_left, ← List.drop_drop, hsplit, List.drop_left]
  have hcolon : ((text.drop (p + a.length + n)).dropWhile isMappingWhitespace).head? =
      some (.char ':') := by
    exact colon_of_mappingValueStart hvalue
  rw [namesValue, hplace, hfirst]
  simpa using hcolon

theorem drop_of_drop_append {a b : PyText} (h : text.drop start = a ++ b) :
    text.drop (start + a.length) = b := by
  rw [← List.drop_drop, h, List.drop_left]

theorem mem_of_drop_append {a b : PyText} (h : text.drop start = a ++ b) (hstart : start ≤ q)
    (hq : q < start + a.length) : ∃ c ∈ a, text[q]? = some c := by
  have hlt : q - start < a.length := by omega
  refine ⟨a[q - start], List.getElem_mem hlt, ?_⟩
  rw [← List.getElem?_eq_getElem hlt, ← List.getElem?_append_left hlt, ← h, List.getElem?_drop,
    Nat.add_sub_cancel' hstart]

theorem keyAt_colon (h : KeyAt text start stop valueStart) :
    ∃ (blanks blanks' : Blank) (first : PyChar) (rest : PyText),
      text.drop stop = blanks.val ++ .char ':' :: (blanks'.val ++ first :: rest) ∧
      isMappingWhitespace first = false ∧
      valueStart = stop + blanks.val.length + 1 + blanks'.val.length := by
  obtain ⟨quote, name, blanks, blanks', first, rest, hdrop, -, -, hfirst, -, rfl, rfl⟩ := h
  refine ⟨blanks, blanks', first, rest, ?_, hfirst, rfl⟩
  have hkey : text.drop start = (quote :: (name ++ [quote])) ++
      (blanks.val ++ .char ':' :: (blanks'.val ++ first :: rest)) := by
    rw [hdrop]
    simp
  have hafter := drop_of_drop_append hkey
  simpa using hafter

/-- After the key of a field comes its value, if the window goes so far. -/
theorem mappingValueStart_keyAt (limit : Nat) (h : KeyAt text start stop valueStart) :
    mappingValueStart text stop limit = .missing ∨
      ∃ position, mappingValueStart text stop limit = .at position ∧ position ≤ valueStart ∧
        (position = valueStart ∨ limit ≤ position) := by
  obtain ⟨blanks, blanks', first, rest, hdrop, hfirst, rfl⟩ := keyAt_colon h
  have hskip : skip isMappingWhitespace text stop limit =
      if stop + blanks.val.length ≤ limit then stop + blanks.val.length else max stop limit :=
    skip_eq hdrop blanks.property fun c hc => by
      cases hc
      decide
  by_cases hlimit : stop + blanks.val.length < limit
  · right
    rw [if_pos (Nat.le_of_lt hlimit)] at hskip
    have hcolon : charBefore text (stop + blanks.val.length) limit = some (.char ':') := by
      rw [charBefore_eq, if_pos hlimit, getElem?_of_drop hdrop]
    have hvalue : text.drop (stop + blanks.val.length + 1) = blanks'.val ++ first :: rest := by
      have hcut : text.drop stop =
          (blanks.val ++ [.char ':']) ++ (blanks'.val ++ first :: rest) := by
        rw [hdrop]
        simp
      have hafter := drop_of_drop_append hcut
      rwa [List.length_append, List.length_singleton, ← Nat.add_assoc] at hafter
    have hskip' : skip isMappingWhitespace text (stop + blanks.val.length + 1) limit =
        if stop + blanks.val.length + 1 + blanks'.val.length ≤ limit
          then stop + blanks.val.length + 1 + blanks'.val.length
          else max (stop + blanks.val.length + 1) limit :=
      skip_eq hvalue blanks'.property fun c hc => by
        cases hc
        exact hfirst
    refine ⟨skip isMappingWhitespace text (stop + blanks.val.length + 1) limit, ?_, ?_⟩
    · simp [mappingValueStart, hskip, hcolon]
    · rw [hskip']
      split
      case isTrue => exact ⟨Nat.le_refl _, .inl rfl⟩
      case isFalse hlong =>
        have hmax : max (stop + blanks.val.length + 1) limit = limit := Nat.max_eq_right hlimit
        rw [hmax]
        exact ⟨by omega, .inr (Nat.le_refl _)⟩
  · left
    have hle : limit ≤ skip isMappingWhitespace text stop limit := by
      rw [hskip]
      split
      case isTrue => omega
      case isFalse => exact Nat.le_max_right _ _
    have hnone : charBefore text (skip isMappingWhitespace text stop limit) limit = none := by
      rw [charBefore_eq, if_neg (Nat.not_lt.mpr hle)]
    simp [mappingValueStart, hnone]

theorem not_isDelimiter_nameChar {c : PyChar} (h : isNameChar c = true) :
    isDelimiter c = false := by
  have hall : ∀ c ∈ [',', '}', ']'].map PyChar.char, isNameChar c = false := by decide
  by_contra hdelimiter
  rw [Bool.not_eq_false] at hdelimiter
  rw [hall c (of_decide_eq_true hdelimiter)] at h
  cases h

/-- No delimiter is in a key. -/
theorem keyAt_char (h : KeyAt text start stop valueStart) (hstart : start ≤ q)
    (hq : q < valueStart) : ∃ c, text[q]? = some c ∧ isDelimiter c = false := by
  obtain ⟨quote, name, blanks, blanks', first, rest, hdrop, hquote, hname, -, -, rfl, rfl⟩ := h
  have hcut : text.drop start = (quote :: (name ++ quote :: (blanks.val ++ .char ':' ::
      blanks'.val))) ++ first :: rest := by
    rw [hdrop]
    simp
  obtain ⟨c, hmem, hc⟩ := mem_of_drop_append hcut hstart (by
    simp only [List.length_cons, List.length_append]
    omega)
  refine ⟨c, hc, ?_⟩
  have hnone := (quote_ne hquote).2.2.2.1
  simp only [List.mem_cons, List.mem_append] at hmem
  rcases hmem with rfl | hmem | rfl | hmem | rfl | hmem
  · exact hnone
  · exact not_isDelimiter_nameChar (isNameChar_of_isSensitiveName hname c hmem)
  · exact hnone
  · exact not_isDelimiter_of_whitespace (blanks.property c hmem)
  · decide
  · exact not_isDelimiter_of_whitespace (blanks'.property c hmem)

theorem keyAt_lt (h : KeyAt text start stop valueStart) : start < stop ∧ stop < valueStart := by
  obtain ⟨quote, name, blanks, blanks', first, rest, -, -, -, -, -, rfl, rfl⟩ := h
  omega

/-- The key is a quote, which is no blank and no colon. -/
theorem keyAt_start (h : KeyAt text start stop valueStart) :
    ∃ c, text[start]? = some c ∧ isMappingWhitespace c = false ∧ c ≠ .char ':' := by
  obtain ⟨quote, name, blanks, blanks', first, rest, hdrop, hquote, -⟩ := h
  have hget := getElem?_of_drop (w := []) hdrop
  exact ⟨quote, hget, (quote_ne hquote).2.2.1, (quote_ne hquote).2.2.2.2.1⟩

/-! ## The loop -/

theorem length_chars : (chars t).length = t.length := List.length_map _

theorem getElem?_chars : (chars t)[i]? = (t[i]?).map Prod.fst := List.getElem?_map

/-- Nothing of a sensitive value is in the range. -/
def Clean (t : Traced) (start stop : Nat) : Prop :=
  ∀ i c, t[i]? = some c → start ≤ i → i < stop → c.2 ≠ .secret

theorem Clean.trans (h : Clean t p q) (h' : Clean t q stop) : Clean t p stop := by
  intro i c hi hp hstop
  rcases Nat.lt_or_ge i q with hlt | hle
  · exact h i c hi hp hlt
  · exact h' i c hi hle hstop

theorem Clean.slice (h : Clean t start stop) : ∀ c ∈ slice t start stop, c.2 ≠ .secret := by
  intro c hc
  obtain ⟨k, hk⟩ := List.mem_iff_getElem?.mp hc
  rw [ErrorReporting.slice, List.getElem?_drop, List.getElem?_take] at hk
  split at hk
  case isTrue hlt => exact h _ c hk (Nat.le_add_right start k) hlt
  case isFalse => cases hk

theorem clean_drop (h : Clean t start p) (hrest : Clean t p t.length) :
    ∀ c ∈ t.drop start, c.2 ≠ .secret := by
  intro c hc
  obtain ⟨k, hk⟩ := List.mem_iff_getElem?.mp hc
  rw [List.getElem?_drop] at hk
  have hlt : start + k < t.length := (List.getElem?_eq_some_iff.mp hk).1
  exact h.trans hrest _ c hk (Nat.le_add_right start k) hlt

theorem behindKey_of_length_le (h : t.length ≤ p) : BehindKey t p := by
  intro i c hi _ hp
  have hlt : i < t.length := (List.getElem?_eq_some_iff.mp hi).1
  omega

/-- What is searched has nothing of a sensitive value, when no key is found. -/
theorem clean_of_searchKey_none (hb : BehindKey t p) (hkey : searchKey (chars t) p = none) :
    Clean t p t.length := by
  intro i c hi hp _ hsecret
  obtain ⟨start, stop, valueStart, hle, hat, -⟩ := hb i c hi hsecret hp
  obtain ⟨start', stop', hfound, -⟩ := searchKey_keyAt hat hle
  rw [hkey] at hfound
  cases hfound

/-- The key that is found is that of the next sensitive value, or it ends before that one. -/
theorem BehindKey.next {c : PyChar × Origin} (hb : BehindKey t p)
    (hkey : searchKey (chars t) p = some (start, stop)) (hi : t[i]? = some c)
    (hsecret : c.2 = .secret) (hp : p ≤ i) :
    ∃ keyStart keyStop valueStart, KeyAt (chars t) keyStart keyStop valueStart ∧ valueStart ≤ i ∧
      (∀ q d, valueStart ≤ q → q ≤ i → t[q]? = some d → d.2 = .secret ∨ d.2 = .mark) ∧
      (start = keyStart ∧ stop = keyStop ∨ start < keyStart ∧ stop ≤ keyStart) := by
  obtain ⟨keyStart, keyStop, valueStart, hle, hat, hvalue, hall⟩ := hb i c hi hsecret hp
  obtain ⟨start', stop', hfound, hcases⟩ := searchKey_keyAt hat hle
  rw [hkey] at hfound
  cases hfound
  exact ⟨keyStart, keyStop, valueStart, hat, hvalue, hall, hcases⟩

/-- What is found is in no sensitive value, as these have their keys after the search position. -/
theorem BehindKey.not_secret {c : PyChar × Origin} (hb : BehindKey t p)
    (hkey : searchKey (chars t) p = some (start, stop)) (hc : t[start]? = some c) :
    c.2 ≠ .secret := by
  intro hsecret
  obtain ⟨keyStart, keyStop, valueStart, hat, hle, -, hcases⟩ :=
    hb.next hkey hc hsecret (searchKey_lt hkey).1
  obtain ⟨hlt, hlt'⟩ := keyAt_lt hat
  omega

/-- The text up to the end of the key is kept. -/
theorem clean_key (hb : BehindKey t p) (hkey : searchKey (chars t) p = some (start, stop)) :
    Clean t p stop := by
  intro i c hi hp hstop hsecret
  obtain ⟨keyStart, keyStop, valueStart, hat, hvalue, -, hcases⟩ := hb.next hkey hi hsecret hp
  obtain ⟨hlt, hlt'⟩ := keyAt_lt hat
  omega

/-- So is the text up to the value. -/
theorem clean_value (hb : BehindKey t p) (hkey : searchKey (chars t) p = some (start, stop))
    (hvalue : mappingValueStart (chars t) stop (scanEnd (chars t) start) = .at valueStart) :
    Clean t p valueStart := by
  intro i c hi hp hlt hsecret
  obtain ⟨keyStart, keyStop, valueStart', hat, hle, -, ⟨rfl, rfl⟩ | ⟨-, hstop⟩⟩ :=
    hb.next hkey hi hsecret hp
  · rcases mappingValueStart_keyAt (scanEnd (chars t) start) hat with
      hmissing | ⟨position, hposition, hbound, -⟩
    · rw [hmissing] at hvalue
      cases hvalue
    · rw [hposition] at hvalue
      cases hvalue
      omega
  · -- the quote of the key is neither a blank nor a colon
    obtain ⟨-, hbetween⟩ := of_mappingValueStart hvalue
    obtain ⟨hkeyLt, hkeyLt'⟩ := keyAt_lt hat
    obtain ⟨d, hd, hblank, hcolon⟩ := keyAt_start hat
    obtain ⟨d', hd', hclass⟩ := hbetween keyStart hstop (by omega)
    rw [hd] at hd'
    cases hd'
    rcases hclass with h | h
    · rw [hblank] at h
      cases h
    · exact hcolon h

/-- An assignment is passed over, and it is none of the keys. -/
theorem behindKey_assignment (hb : BehindKey t p)
    (hkey : searchKey (chars t) p = some (start, stop))
    (hvalue : mappingValueStart (chars t) stop (scanEnd (chars t) start) = .assignment) :
    BehindKey t stop := by
  intro i c hi hsecret hstop
  have hp : p ≤ i := by
    have hbounds := searchKey_lt hkey
    omega
  obtain ⟨keyStart, keyStop, valueStart, hat, hle, hall, ⟨rfl, rfl⟩ | ⟨-, hafter⟩⟩ :=
    hb.next hkey hi hsecret hp
  · rcases mappingValueStart_keyAt (scanEnd (chars t) start) hat with
      hmissing | ⟨position, hposition, -⟩
    · rw [hmissing] at hvalue
      cases hvalue
    · rw [hposition] at hvalue
      cases hvalue
  · exact ⟨keyStart, keyStop, valueStart, hafter, hat, hle, hall⟩

/-- The value of a field that stands is taken to end at its delimiter, or at the end of the text. -/
theorem resume_stands {s : Style} (hstands : Stands s t start)
    (hkey : searchKey (chars t) p = some (start, stop))
    (hvalue : mappingValueStart (chars t) stop (scanEnd (chars t) start) = .at valueStart) :
    (∃ e, t[resume (chars t) start valueStart]? = some e ∧ isDelimiter e.1 = true ∧
      e.2 ≠ .secret ∧ e.2 ≠ .mark) ∨ t.length ≤ resume (chars t) start valueStart := by
  obtain ⟨keyStop, valueStart', depth, value, v, ws, e, rest, hat, hdrop, hv, hdelimited, hws, he,
    hsecret, hmark⟩ := hstands
  have hstop : stop = keyStop := by
    obtain ⟨start', stop', hfound, hcases⟩ := searchKey_keyAt hat (searchKey_lt hkey).1
    rw [hkey] at hfound
    cases hfound
    omega
  subst hstop
  have hgone : structuredValueEnd (chars t) valueStart (scanEnd (chars t) start) =
      (chars t).length → t.length ≤ resume (chars t) start valueStart := by
    intro hend
    rw [resume, hend, length_chars]
    exact Nat.le_max_left _ _
  rcases mappingValueStart_keyAt (scanEnd (chars t) start) hat with
    hmissing | ⟨position, hposition, hle, hwindow⟩
  · rw [hmissing] at hvalue
    cases hvalue
  rw [hposition] at hvalue
  cases hvalue
  rcases hwindow with rfl | hout
  · have hchars : (chars t).drop valueStart = chars v ++ (chars ws ++ e.1 :: chars rest) := by
      have hmap := congrArg chars hdrop
      simp only [chars, List.map_drop, List.map_append, List.map_cons] at hmap
      exact hmap
    have hvalueText : ValueText (chars v) := hv ▸ valueText_render s depth value hdelimited
    have hends : structuredValueEnd (chars t) valueStart (scanEnd (chars t) start) =
        valueStart + (chars v).length + (chars ws).length ∨
          structuredValueEnd (chars t) valueStart (scanEnd (chars t) start) = (chars t).length :=
      structuredValueEnd_eq hvalueText hchars hws he
    rcases hends with hend | hend
    · left
      rw [resume, hend, Nat.max_eq_left (by omega), length_chars, length_chars]
      refine ⟨e, ?_, he, hsecret, hmark⟩
      have hget : (t.drop valueStart)[v.length + ws.length]? = some e := by
        rw [hdrop, ← List.append_assoc, List.getElem?_append_right (by simp)]
        simp
      rwa [List.getElem?_drop, ← Nat.add_assoc] at hget
    · exact .inr (hgone hend)
  · exact .inr (hgone (structuredValueEnd_of_le hout))

/-- A delimiter that is of no value is inside no field: it is in no key either. -/
theorem behindKey_delimiter {e : PyChar × Origin} (hb : BehindKey t p) (hp : p ≤ q)
    (hq : t[q]? = some e) (he : isDelimiter e.1 = true) (hsecret : e.2 ≠ .secret)
    (hmark : e.2 ≠ .mark) : BehindKey t q := by
  intro i c hi hc hafter
  obtain ⟨keyStart, keyStop, valueStart, hle, hat, hvalue, hall⟩ :=
    hb i c hi hc (Nat.le_trans hp hafter)
  refine ⟨keyStart, keyStop, valueStart, ?_, hat, hvalue, hall⟩
  by_contra hbefore
  rcases Nat.lt_or_ge q valueStart with hlt | hge
  · obtain ⟨d, hd, hnone⟩ := keyAt_char hat (Nat.le_of_not_le hbefore) hlt
    rw [getElem?_chars, hq] at hd
    cases hd
    rw [he] at hnone
    cases hnone
  · rcases hall q e hge hafter hq with h | h
    · exact hsecret h
    · exact hmark h

theorem behindKey_stands {s : Style} (hstands : Stands s t start) (hb : BehindKey t p)
    (hkey : searchKey (chars t) p = some (start, stop))
    (hvalue : mappingValueStart (chars t) stop (scanEnd (chars t) start) = .at valueStart) :
    BehindKey t (resume (chars t) start valueStart) := by
  rcases resume_stands hstands hkey hvalue with ⟨e, hq, he, hsecret, hmark⟩ | hgone
  · have hp : p ≤ resume (chars t) start valueStart := by
      have hstart := searchKey_lt hkey
      have hstop := (of_mappingValueStart hvalue).1
      have hresume : valueStart ≤ resume (chars t) start valueStart := Nat.le_max_right _ _
      omega
    exact behindKey_delimiter hb hp hq he hsecret hmark
  · exact behindKey_of_length_le hgone

/-- **The loop** renders nothing of a sensitive value: by induction on the rounds that are left. -/
theorem redactFrom_no_secret (h : Redactable t) :
    ∀ {fuel cursor p : Nat}, BehindKey t p → Clean t cursor p →
      t.length < p + fuel → ∀ c ∈ redactFrom t fuel cursor p, c.2 ≠ .secret := by
  intro fuel
  induction fuel with
  | zero =>
      intro cursor p _ hclean hfuel
      rw [redactFrom]
      refine clean_drop hclean fun i c _ hp hi => ?_
      omega
  | succ fuel ih =>
      intro cursor p hb hclean hfuel c hc
      rw [redactFrom] at hc
      cases hkey : searchKey (chars t) p with
      | none =>
          rw [hkey] at hc
          exact clean_drop hclean (clean_of_searchKey_none hb hkey) c hc
      | some found =>
          obtain ⟨start, stop⟩ := found
          obtain ⟨hstart, hstop⟩ := searchKey_lt hkey
          have hwindow : min t.length (start + structuredValueScanLimit) =
              scanEnd (chars t) start := by
            rw [scanEnd, length_chars]
          simp only [hkey, hwindow] at hc
          have hprinted : ∀ {c : PyChar × Origin} {text : String}, c ∈ printed text →
              c.2 ≠ .secret := by
            intro c text hmem
            obtain ⟨d, -, rfl⟩ := List.mem_map.mp hmem
            exact fun heq => by cases heq
          cases hvalue : mappingValueStart (chars t) stop (scanEnd (chars t) start) with
          | assignment =>
              rw [hvalue] at hc
              exact ih (behindKey_assignment hb hkey hvalue) (hclean.trans (clean_key hb hkey))
                (by omega) c hc
          | missing =>
              rw [hvalue] at hc
              rcases List.mem_append.mp hc with hc | hc
              · exact (hclean.trans (clean_key hb hkey)).slice c hc
              · exact hprinted hc
          | «at» valueStart =>
              rw [hvalue] at hc
              have hlt : stop < valueStart := (of_mappingValueStart hvalue).1
              have hresume : valueStart ≤ resume (chars t) start valueStart := Nat.le_max_right _ _
              have hnext : BehindKey t (resume (chars t) start valueStart) :=
                h.resumes p start stop valueStart hb hkey hvalue
              rcases List.mem_append.mp hc with hc | hc
              · exact (hclean.trans (clean_value hb hkey hvalue)).slice c hc
              · rcases List.mem_append.mp hc with hc | hc
                · exact hprinted hc
                · refine ih hnext ?_ (by omega) c hc
                  intro i d _ hle hlt
                  have hsame : resume (chars t) start valueStart ≤ i := hle
                  omega

/-! ## Marks -/

theorem mark_of_mem_printed {c : PyChar × Origin} {ts : List PyChar}
    (h : c ∈ ts.map Letter.printed) : c.2 = .mark := by
  obtain ⟨d, -, rfl⟩ := List.mem_map.mp h
  rfl

section Marks

variable (hv : ∀ c ∈ v, c.2 ≠ .mark)
include hv

/-- What has no mark was in the text before a substitution. -/
theorem infix_sub {p : Substitution PyChar} (hp : p.replacement ≠ []) (h : v <:+: sub p t) :
    v <:+: t := by
  refine infix_cut ?_ (fun x hx hmem => hv x hmem (mark_of_mem_printed hx)) h
  rwa [ne_eq, List.map_eq_nil_iff]

theorem infix_redactFrom :
    ∀ {fuel cursor p : Nat}, v <:+: redactFrom t fuel cursor p → v <:+: t := by
  have hslice : ∀ {start stop : Nat}, v <:+: slice t start stop → v <:+: t := fun h =>
    h.trans ((List.drop_suffix _ _).isInfix.trans (List.take_prefix _ t).isInfix)
  have hdrop : ∀ {start : Nat}, v <:+: t.drop start → v <:+: t := fun h =>
    h.trans (List.drop_suffix _ t).isInfix
  have hmark : (printed "[REDACTED]" : Traced) ≠ [] := by
    rw [printed, ne_eq, List.map_eq_nil_iff]
    decide
  have hnone : ∀ c ∈ (printed "[REDACTED]" : Traced), c ∉ v := fun c hc hmem =>
    hv c hmem (mark_of_mem_printed hc)
  intro fuel
  induction fuel with
  | zero => exact hdrop
  | succ fuel ih =>
      intro cursor p h
      rw [redactFrom] at h
      cases hkey : searchKey (chars t) p with
      | none =>
          rw [hkey] at h
          exact hdrop h
      | some found =>
          obtain ⟨start, stop⟩ := found
          simp only [hkey] at h
          cases hvalue : mappingValueStart (chars t) stop
              (min t.length (start + structuredValueScanLimit)) with
          | assignment =>
              rw [hvalue] at h
              exact ih h
          | missing =>
              rw [hvalue, ← List.append_nil (printed "[REDACTED]")] at h
              rcases infix_of_marked hmark hnone h with h | h
              · exact hslice h
              · rw [List.infix_nil.mp h]
                exact List.nil_infix
          | «at» valueStart =>
              rw [hvalue] at h
              rcases infix_of_marked hmark hnone h with h | h
              · exact hslice h
              · exact ih h

theorem infix_substituted {u : Unicode} (h : v <:+: substituted u t) : v <:+: t := by
  have hassigned : PyText.ofString "=[REDACTED]" ≠ [] := by decide
  have hconnection : PyText.ofString "[REDACTED CONNECTION STRING]" ≠ [] := by decide
  exact infix_sub hv (p := odbcConnectionString u) hconnection
    (infix_sub hv (p := odbcSensitiveAssignment u) hassigned
      (infix_sub hv (p := sensitiveAssignment u) hassigned h))

/-- What has no mark was in the text. -/
theorem infix_redactSensitiveText {u : Unicode} {limit : Nat}
    (h : v <:+: redactSensitiveText u t limit) : v <:+: t := by
  have htake : v <:+: sub fernetValue (redactSensitiveMappingValues (substituted u t)) :=
    h.trans (List.take_prefix _ _).isInfix
  have hscanned : v <:+: redactSensitiveMappingValues (substituted u t) :=
    infix_sub hv (p := fernetValue) (by decide) htake
  exact infix_substituted hv (infix_redactFrom hv hscanned)

end Marks

/-! ## The program's run -/

theorem chars_chars : chars (chars t) = chars t := List.map_id _

theorem chars_printed {ts : PyText} :
    chars (ts.map Letter.printed : Traced) = ts.map Letter.printed := by
  rw [chars, List.map_map]
  rfl

/-- The run over a text with origins is the run over the text. -/
theorem chars_sub {p : Substitution PyChar} : chars (sub p t) = sub p (chars t) := by
  have hcut : ∀ (mark : Traced) (spans : List (Nat × Nat)),
      chars (cut mark spans t) = cut (chars mark) spans (chars t) :=
    fun mark spans => map_cut Letter.char spans t
  rw [sub, sub, chars_chars, hcut, chars_printed]

theorem chars_redactFrom : ∀ {fuel cursor p : Nat},
    chars (redactFrom t fuel cursor p) = redactFrom (chars t) fuel cursor p := by
  have hslice : ∀ {start stop : Nat}, chars (slice t start stop) = slice (chars t) start stop := by
    intro start stop
    rw [slice, slice, chars, List.map_drop, List.map_take]
    rfl
  have happend : ∀ {a b : Traced}, chars (a ++ b) = chars a ++ chars b := List.map_append
  have hprinted : chars (printed "[REDACTED]" : Traced) = printed "[REDACTED]" := chars_printed
  intro fuel
  induction fuel with
  | zero =>
      intro cursor p
      exact List.map_drop
  | succ fuel ih =>
      intro cursor p
      rw [redactFrom, redactFrom, chars_chars, length_chars]
      cases hkey : searchKey (chars t) p with
      | none => exact List.map_drop
      | some found =>
          obtain ⟨start, stop⟩ := found
          simp only
          cases hvalue : mappingValueStart (chars t) stop
              (min t.length (start + structuredValueScanLimit)) with
          | assignment => exact ih
          | missing =>
              rw [happend, hslice, hprinted]
          | «at» valueStart =>
              simp only
              rw [happend, happend, hslice, hprinted, ih]

theorem chars_redactSensitiveText {u : Unicode} {limit : Nat} :
    chars (redactSensitiveText u t limit) = redactSensitiveText u (chars t) limit := by
  have hmapping : ∀ {t : Traced}, chars (redactSensitiveMappingValues t) =
      redactSensitiveMappingValues (chars t) := by
    intro t
    rw [redactSensitiveMappingValues, redactSensitiveMappingValues, chars_redactFrom, length_chars]
  have hsubstituted : chars (substituted u t) = substituted u (chars t) := by
    rw [substituted, substituted, chars_sub, chars_sub, chars_sub]
  rw [redactSensitiveText, redactSensitiveText, chars, List.map_take, ← hsubstituted, ← hmapping,
    ← chars_sub]
  rfl

/-! ## What is left -/

/-- **Nothing of a sensitive value is left** of a text in which the scan can tell where the values
are. -/
theorem no_secret_left {u : Unicode} {limit : Nat} (h : Redactable (substituted u t)) :
    ∀ c ∈ redactSensitiveText u t limit, c.2 ≠ .secret := by
  intro c hc
  have hclean : Clean (substituted u t) 0 0 := fun i d _ _ hlt => absurd hlt (Nat.not_lt_zero i)
  have hscanned : ∀ d ∈ redactSensitiveMappingValues (substituted u t), d.2 ≠ .secret :=
    redactFrom_no_secret h h.behindKey hclean (by omega)
  rcases mem_cut (List.mem_of_mem_take hc) with hc | hc
  · exact hscanned c hc
  · rw [mark_of_mem_printed hc]
    exact fun heq => by cases heq

theorem hides_of_no_secret {u : Unicode} {limit : Nat}
    (h : ∀ c ∈ redactSensitiveText u t limit, c.2 ≠ .secret) : Hides u t limit := by
  intro w hw honly v hv hchars
  by_contra hmark
  have hunmarked : ∀ c ∈ v, c.2 ≠ .mark := fun c hc heq => hmark ⟨c, hc, heq⟩
  have hsecret := honly v (infix_redactSensitiveText hunmarked hv) hchars
  have hne : v ≠ [] := by
    rintro rfl
    exact hw hchars.symm
  obtain ⟨c, hc⟩ := List.exists_mem_of_ne_nil v hne
  exact h c (hv.subset hc) (hsecret c hc)

/-! ## Documents -/

theorem chars_cons {c : PyChar} {origin : Origin} : chars ((c, origin) :: t) = c :: chars t := rfl

theorem chars_append {a b : Traced} : chars (a ++ b) = chars a ++ chars b := List.map_append

theorem chars_tagged {origin : Origin} : chars (tagged origin text) = text := by
  rw [chars, tagged, List.map_map]
  exact List.map_id _

section Documents

variable (s : Style)

theorem chars_tracedKey : chars (tracedKey text) = text := by
  cases text with
  | nil => rfl
  | cons quote rest => exact congrArg (quote :: ·) chars_tagged

theorem chars_sensitiveField (depth : Nat) (key value : Data) :
    chars (sensitiveField s depth key value) =
      render s (depth + 1) key ++ (colon s ++ render s (depth + 1) value) := by
  rw [sensitiveField, chars_append, chars_append, chars_tracedKey, chars_tagged, chars_tagged]

mutual

theorem chars_traced : ∀ (depth : Nat) (data : Data),
    chars (traced s depth data) = render s depth data
  | depth, .list (item :: items) => by
      rw [traced, render, chars_append, chars_append, chars_tagged, chars_traced (depth + 1) item,
        chars_tracedItems depth _ items, List.cons_append]
  | depth, .tuple (item :: items) => by
      rw [traced, render, chars_append, chars_append, chars_append, chars_tagged, chars_tagged,
        chars_traced (depth + 1) item, chars_tracedItems depth _ items, List.cons_append]
  | depth, .dict ((key, value) :: entries) => by
      rw [traced, render, chars_append, chars_append, chars_tagged,
        chars_tracedEntries depth _ entries, List.cons_append]
      split
      case isTrue => rw [chars_sensitiveField, List.append_assoc, List.append_assoc]
      case isFalse =>
        rw [chars_append, chars_tagged, chars_traced (depth + 1) value, List.append_assoc,
          List.append_assoc]
  | depth, .list [] | depth, .tuple [] | depth, .dict []
  | depth, .atom _ | depth, .str _ | depth, .bytes _ => by
      rw [traced, chars_tagged] <;> simp

theorem chars_tracedItems : ∀ (depth : Nat) (bracket : PyChar) (items : List Data),
    chars (tracedItems s depth bracket items) = renderItems s depth bracket items
  | depth, bracket, [] => by rw [tracedItems, renderItems, chars_tagged]
  | depth, bracket, item :: items => by
      rw [tracedItems, renderItems, chars_append, chars_append, chars_tagged,
        chars_traced (depth + 1) item, chars_tracedItems depth bracket items, List.append_assoc]

theorem chars_tracedEntries : ∀ (depth : Nat) (origin : Origin) (entries : List (Data × Data)),
    chars (tracedEntries s depth origin entries) = renderEntries s depth entries
  | depth, origin, [] => by rw [tracedEntries, renderEntries, chars_tagged]
  | depth, origin, (key, value) :: entries => by
      rw [tracedEntries, renderEntries, chars_append, chars_append, chars_append, chars_tagged,
        chars_tagged, chars_tracedEntries depth _ entries]
      split
      case isTrue => rw [chars_sensitiveField, List.append_assoc, List.append_assoc]
      case isFalse =>
        rw [chars_append, chars_tagged, chars_traced (depth + 1) value, List.append_assoc,
          List.append_assoc]

end

theorem chars_document (before : PyText) (data : Data) (after : PyText) :
    chars (document s before data after) = before ++ (render s 0 data ++ after) := by
  rw [document, chars_append, chars_append, chars_tagged, chars_tagged, chars_traced]

/-! ## Documents whose fields stand -/

/-- A text in which every sensitive field can be told from what follows. -/
inductive Fields : Option PyChar → Traced → Prop
  | nil {prev : Option PyChar} : Fields prev []
  | other {prev : Option PyChar} {c : PyChar × Origin} {rest : Traced} (hsecret : c.2 ≠ .secret)
      (hkey : c.2 ≠ .key) (h : Fields (some c.1) rest) : Fields prev (c :: rest)
  | field {prev : Option PyChar} {depth : Nat} {key value : Data} {ws : PyText} {e : PyChar}
      {rest : Traced} (hprev : prev.any isNameChar = false) (hkey : key.isSensitiveKey = true)
      (hvalue : isDelimited (render s (depth + 1) value) = true)
      (hws : ∀ c ∈ ws, isMappingWhitespace c = true) (he : isDelimiter e = true)
      (h : Fields (some e) rest) :
      Fields prev (sensitiveField s depth key value ++ (tagged .after ws ++ (e, .after) :: rest))

/-- Fields after blanks and a delimiter. -/
def Delimits (origin : Origin) (m : Traced) : Prop :=
  ∃ ws e rest, m = tagged origin ws ++ (e, origin) :: rest ∧
    (∀ c ∈ ws, isMappingWhitespace c = true) ∧ isDelimiter e = true ∧ Fields s (some e) rest

variable {s} {origin : Origin} {m b : Traced} {prev : Option PyChar}

theorem fields_tagged (hsecret : origin ≠ .secret) (hkey : origin ≠ .key)
    (hrest : ∀ prev, Fields s prev m) : ∀ prev, Fields s prev (tagged origin text ++ m) := by
  induction text with
  | nil => exact hrest
  | cons c text ih => exact fun prev => .other hsecret hkey (ih (some c))

/-- A key stands after no part of a name. -/
theorem fields_separators (hsecret : origin ≠ .secret) (hkey : origin ≠ .key)
    (htext : ∀ c ∈ text, isNameChar c = false)
    (hrest : ∀ prev, prev.any isNameChar = false → Fields s prev m) :
    ∀ prev, prev.any isNameChar = false → Fields s prev (tagged origin text ++ m) := by
  induction text with
  | nil => exact hrest
  | cons c text ih =>
      intro prev _
      exact .other hsecret hkey (ih (fun d hd => htext d (List.mem_cons_of_mem c hd)) (some c)
        (htext c List.mem_cons_self))

theorem not_isNameChar_blank (blank : Blank) : ∀ c ∈ blank.val, isNameChar c = false := by
  have hall : ∀ c ∈ [' ', '\t', '\r', '\n'].map PyChar.char, isNameChar c = false := by decide
  intro c hc
  exact hall c (of_decide_eq_true (blank.property c hc))

theorem Delimits.fields (h : Delimits s .outside m) : ∀ prev, Fields s prev m := by
  obtain ⟨ws, e, rest, rfl, -, -, hrest⟩ := h
  exact fields_tagged (by decide) (by decide) fun prev => .other nofun nofun hrest

theorem follows_of_not_sensitive {key : Data} (h : ¬ key.isSensitiveKey = true) :
    follows key = .outside := if_neg h

theorem fields_entry {depth : Nat} {key value : Data}
    (hvalue : (if key.isSensitiveKey then isDelimited (render s (depth + 1) value)
      else delimited s (depth + 1) value) = true)
    (hother : delimited s (depth + 1) value = true → ∀ b, (∀ prev, Fields s prev b) →
      ∀ prev, Fields s prev (traced s (depth + 1) value ++ b))
    (hm : Delimits s (follows key) m) (hprev : prev.any isNameChar = false) :
    Fields s prev ((if key.isSensitiveKey then sensitiveField s depth key value
      else tagged .outside (render s (depth + 1) key ++ colon s) ++
        traced s (depth + 1) value) ++ m) := by
  by_cases hkey : key.isSensitiveKey = true
  · rw [if_pos hkey] at hvalue ⊢
    obtain ⟨ws, e, rest, rfl, hws, he, hrest⟩ := hm
    rw [follows, if_pos hkey]
    exact .field hprev hkey hvalue hws he hrest
  · rw [if_neg hkey] at hvalue ⊢
    rw [follows_of_not_sensitive hkey] at hm
    rw [List.append_assoc]
    exact fields_tagged (by decide) (by decide) (hother hvalue m hm.fields) prev

mutual

theorem fields_traced : ∀ (depth : Nat) (data : Data), delimited s depth data = true →
    ∀ b, (∀ prev, Fields s prev b) → ∀ prev, Fields s prev (traced s depth data ++ b)
  | depth, .list (item :: items), h, b, hb, prev => by
      rw [delimited, Bool.and_eq_true] at h
      rw [traced, List.append_assoc, List.append_assoc]
      exact fields_tagged (by decide) (by decide) (fields_traced (depth + 1) item h.1 _
        (fields_tracedItems depth _ items h.2 b hb)) prev
  | depth, .tuple (item :: items), h, b, hb, prev => by
      rw [delimited, Bool.and_eq_true] at h
      rw [traced, List.append_assoc, List.append_assoc, List.append_assoc]
      exact fields_tagged (by decide) (by decide) (fields_traced (depth + 1) item h.1 _
        (fields_tagged (by decide) (by decide) (fields_tracedItems depth _ items h.2 b hb))) prev
  | depth, .dict ((key, value) :: entries), h, b, hb, prev => by
      rw [delimited, Bool.and_eq_true] at h
      rw [traced, List.append_assoc, List.append_assoc]
      have hentry := fields_separators (show Origin.outside ≠ .secret by decide) (by decide)
        (not_isNameChar_blank (s.layout.afterOpening (depth + 1)))
        fun prev hprev => fields_entry h.1 (fields_traced (depth + 1) value)
          (fields_tracedEntries depth (follows key) entries h.2 b hb) hprev
      exact .other nofun nofun (hentry (some (.char '{')) (by decide))
  | depth, .list [], _, b, hb, prev | depth, .tuple [], _, b, hb, prev
  | depth, .dict [], _, b, hb, prev | depth, .atom _, _, b, hb, prev
  | depth, .str _, _, b, hb, prev | depth, .bytes _, _, b, hb, prev => by
      rw [traced]
      · exact fields_tagged (by decide) (by decide) hb prev
      all_goals simp

theorem fields_tracedItems : ∀ (depth : Nat) (bracket : PyChar) (items : List Data),
    itemsDelimited s depth items = true → ∀ b, (∀ prev, Fields s prev b) →
      ∀ prev, Fields s prev (tracedItems s depth bracket items ++ b)
  | depth, bracket, [], _, b, hb, prev => by
      rw [tracedItems]
      exact fields_tagged (by decide) (by decide) hb prev
  | depth, bracket, item :: items, h, b, hb, prev => by
      rw [itemsDelimited, Bool.and_eq_true] at h
      rw [tracedItems, List.append_assoc, List.append_assoc]
      exact fields_tagged (by decide) (by decide) (fields_traced (depth + 1) item h.1 _
        (fields_tracedItems depth bracket items h.2 b hb)) prev

theorem fields_tracedEntries : ∀ (depth : Nat) (origin : Origin) (entries : List (Data × Data)),
    entriesDelimited s depth entries = true → ∀ b, (∀ prev, Fields s prev b) →
      Delimits s origin (tracedEntries s depth origin entries ++ b)
  | depth, origin, [], _, b, hb => by
      refine ⟨(s.layout.beforeClosing depth).val, .char '}', b, ?_,
        (s.layout.beforeClosing depth).property, by decide, hb _⟩
      rw [tracedEntries, closing, tagged, List.map_append, List.append_assoc]
      rfl
  | depth, origin, (key, value) :: entries, h, b, hb => by
      rw [entriesDelimited, Bool.and_eq_true] at h
      have hentry := fields_separators (show Origin.outside ≠ .secret by decide) (by decide)
        (not_isNameChar_blank (s.layout.afterComma (depth + 1)))
        fun prev hprev => fields_entry h.1 (fields_traced (depth + 1) value)
          (fields_tracedEntries depth (follows key) entries h.2 b hb) hprev
      refine ⟨s.layout.beforeComma.val, .char ',', _, ?_, s.layout.beforeComma.property, by decide,
        hentry (some (.char ',')) (by decide)⟩
      rw [tracedEntries, comma, tagged, List.map_append]
      simp only [List.append_assoc]
      rfl

end

theorem getElem?_tagged_append {c : PyChar × Origin} (h : (tagged origin text ++ m)[i]? = some c) :
    i < text.length ∧ c.2 = origin ∨ text.length ≤ i ∧ m[i - text.length]? = some c := by
  have hlength : (tagged origin text).length = text.length := List.length_map _
  rcases Nat.lt_or_ge i text.length with hlt | hle
  · left
    rw [List.getElem?_append_left (by omega), tagged, List.getElem?_map] at h
    obtain ⟨d, -, rfl⟩ := Option.map_eq_some_iff.mp h
    exact ⟨hlt, rfl⟩
  · right
    rw [List.getElem?_append_right (by omega), hlength] at h
    exact ⟨hle, h⟩

/-- The key of a field, as it is written. -/
theorem sensitiveField_eq (depth : Nat) {key : Data} (value : Data)
    (hkey : key.isSensitiveKey = true) :
    ∃ quote name, isOneOf ['\'', '"'] quote = true ∧ isSensitiveName name = true ∧
      sensitiveField s depth key value =
        (quote, .key) :: (tagged .field (name ++ quote :: colon s) ++
          tagged .secret (render s (depth + 1) value)) := by
  cases key with
  | str name =>
      obtain ⟨quote, hquote, hname⟩ := s.string_name name hkey
      refine ⟨quote, name, hquote, hkey, ?_⟩
      rw [sensitiveField, render, hname]
      simp [tracedKey, tagged]
  | atom _ | bytes _ | list _ | tuple _ | dict _ => cases hkey

/-- The character is of a value that is behind its key. -/
def HasKey (t : Traced) (i : Nat) : Prop :=
  ∃ start stop valueStart, KeyAt (chars t) start stop valueStart ∧ valueStart ≤ i ∧
    ∀ q d, valueStart ≤ q → q ≤ i → t[q]? = some d → d.2 = .secret ∨ d.2 = .mark

section Field

variable {quote : PyChar} {a : Traced} {depth : Nat} {value : Data} {e : PyChar} {ws' : PyText}

/-- A text with a field in it. -/
def fieldIn (s : Style) (a : Traced) (quote : PyChar) (name w : PyText) (m : Traced) : Traced :=
  a ++ (quote, .key) :: (tagged .field (name ++ quote :: colon s) ++ (tagged .secret w ++ m))

variable (hquote : isOneOf ['\'', '"'] quote = true) (hname : isSensitiveName name = true)
  (hprev : (chars a).getLast?.any isNameChar = false)
include hquote hname hprev

theorem keyAt_fieldIn (hw : ValueText w) :
    KeyAt (chars (fieldIn s a quote name w m)) a.length (a.length + (name.length + 2))
      (a.length + (name.length + 2) + (colon s).length) := by
  obtain ⟨first, w', rfl, hfirst⟩ := hw.head
  refine ⟨quote, name, s.layout.beforeColon, s.layout.afterColon, first, w' ++ chars m, ?_, hquote,
    hname, hfirst, ?_, rfl, ?_⟩
  · rw [fieldIn, chars_append, ← length_chars, List.drop_left, chars_cons, chars_append,
      chars_append, chars_tagged, chars_tagged, colon]
    simp
  · rwa [fieldIn, chars_append, ← length_chars, List.take_left]
  · rw [colon, List.length_append, List.length_cons]
    omega

theorem hasKey_fieldIn (hw : ValueText w)
    (hi : a.length + (name.length + 2) + (colon s).length ≤ i)
    (hlt : i < a.length + (name.length + 2) + (colon s).length + w.length) :
    HasKey (fieldIn s a quote name w m) i := by
  refine ⟨_, _, _, keyAt_fieldIn hquote hname hprev hw, hi, fun q d hq hle hd => .inl ?_⟩
  rw [fieldIn, List.getElem?_append_right (by omega), List.getElem?_cons, if_neg (by omega)] at hd
  rcases getElem?_tagged_append hd with ⟨hshort, -⟩ | ⟨-, hd⟩
  · simp only [List.length_append, List.length_cons] at hshort
    omega
  · rcases getElem?_tagged_append hd with ⟨-, hsecret⟩ | ⟨hlong, -⟩
    · exact hsecret
    · simp only [List.length_append, List.length_cons] at hlong
      omega

theorem stands_fieldIn (hvalue : isDelimited (render s depth value) = true)
    (hws : ∀ c ∈ ws', isMappingWhitespace c = true) (he : isDelimiter e = true) :
    Stands s (fieldIn s a quote name (render s depth value)
      (tagged .after ws' ++ (e, .after) :: m)) a.length := by
  have hat := keyAt_fieldIn (s := s) (m := tagged .after ws' ++ (e, .after) :: m) hquote hname hprev
    (valueText_render s depth value hvalue)
  refine ⟨_, _, depth, value, tagged .secret (render s depth value), tagged .after ws', (e, .after),
    m, hat, ?_, chars_tagged, hvalue, ?_, he, nofun, nofun⟩
  · have hlength : a.length + (name.length + 2) + (colon s).length =
        (a ++ (quote, Origin.key) :: tagged .field (name ++ quote :: colon s)).length := by
      simp only [tagged, List.length_append, List.length_cons, List.length_map]
      omega
    rw [hlength, fieldIn, ← List.cons_append, ← List.append_assoc, List.drop_left]
  · rwa [chars_tagged]

end Field

/-- Every character of a sensitive value is behind its key, and every such field stands. -/
theorem Fields.stand (h : Fields s prev m) : ∀ {a : Traced}, prev = (chars a).getLast? →
    ∀ i c, (a ++ m)[i]? = some c → a.length ≤ i →
      (c.2 = .secret → HasKey (a ++ m) i) ∧ (c.2 = .key → Stands s (a ++ m) i) := by
  induction h with
  | nil =>
      intro a _ i c hi ha
      rw [List.append_nil] at hi
      have hlt : i < a.length := (List.getElem?_eq_some_iff.mp hi).1
      omega
  | @other prev d rest hsecret hkey _ ih =>
      intro a ha i c hi hle
      rcases Nat.lt_or_eq_of_le hle with hlt | rfl
      · have happend : a ++ d :: rest = (a ++ [d]) ++ rest := by simp
        have hlast : some d.1 = (chars (a ++ [d])).getLast? := by
          rw [chars_append, List.getLast?_append]
          rfl
        rw [happend] at hi ⊢
        exact ih hlast i c hi (by rwa [List.length_append])
      · rw [List.getElem?_append_right (Nat.le_refl _), Nat.sub_self] at hi
        cases hi
        exact ⟨fun heq => absurd heq hsecret, fun heq => absurd heq hkey⟩
  | @field prev depth key value ws e rest hprev hkey hvalue hws he _ ih =>
      intro a ha i c hi hle
      obtain ⟨quote, name, hquote, hname, hfield⟩ :=
        sensitiveField_eq (s := s) depth value hkey
      have hfieldIn : a ++ (sensitiveField s depth key value ++
          (tagged .after ws ++ (e, .after) :: rest)) =
            fieldIn s a quote name (render s (depth + 1) value)
              (tagged .after ws ++ (e, .after) :: rest) := by
        rw [hfield, fieldIn, List.cons_append, List.append_assoc]
      rw [ha] at hprev
      rw [hfieldIn] at hi ⊢
      have hvalueText := valueText_render s (depth + 1) value hvalue
      have hget := hi
      rw [fieldIn, List.getElem?_append_right hle, List.getElem?_cons] at hget
      split at hget
      case isTrue hzero =>
        cases hget
        have hsame : i = a.length := by omega
        rw [hsame]
        exact ⟨nofun, fun _ => stands_fieldIn hquote hname hprev hvalue hws he⟩
      case isFalse hpos =>
        rcases getElem?_tagged_append hget with ⟨-, hc⟩ | ⟨hlong, hget⟩
        · rw [hc]
          exact ⟨nofun, nofun⟩
        rcases getElem?_tagged_append hget with ⟨hlt, hc⟩ | ⟨hlong', hget⟩
        · rw [hc]
          simp only [List.length_append, List.length_cons] at hlong hlt
          exact ⟨fun _ => hasKey_fieldIn hquote hname hprev hvalueText (by omega) (by omega), nofun⟩
        rcases getElem?_tagged_append hget with ⟨-, hc⟩ | ⟨hlong'', hget⟩
        · rw [hc]
          exact ⟨nofun, nofun⟩
        rw [List.getElem?_cons] at hget
        split at hget
        case isTrue =>
          cases hget
          exact ⟨nofun, nofun⟩
        case isFalse =>
          have hrest : a ++ (sensitiveField s depth key value ++
              (tagged .after ws ++ (e, .after) :: rest)) =
                (a ++ (sensitiveField s depth key value ++
                  (tagged .after ws ++ [(e, .after)]))) ++ rest := by
            simp
          have hlast : some e = (chars (a ++ (sensitiveField s depth key value ++
              (tagged .after ws ++ [(e, .after)])))).getLast? := by
            rw [chars_append, chars_append, chars_append, ← List.append_assoc, ← List.append_assoc,
              List.getLast?_append]
            rfl
          rw [← hfieldIn, hrest] at hi ⊢
          refine ih hlast i c hi ?_
          rw [hfield]
          simp only [tagged, List.length_append, List.length_cons, List.length_map,
            List.length_nil] at *
          omega

/-- Every sensitive value in a rendering is behind its key, with prose around it. -/
theorem fields_document (before : PyText) {data : Data} (after : PyText)
    (h : delimited s 0 data = true) : Fields s none (document s before data after) := by
  have hafter : ∀ prev, Fields s prev (tagged .outside after) := by
    have hnil : ∀ prev, Fields s prev (tagged .outside after ++ []) :=
      fields_tagged (by decide) (by decide) fun _ => .nil
    simpa using hnil
  exact fields_tagged (by decide) (by decide) (fields_traced 0 data h _ hafter) none

theorem redactable_document {u : Unicode} {before : PyText} {data : Data} {after : PyText}
    (h : Legible u s before data after) : Redactable (document s before data after) := by
  have hstand := (fields_document before after h.delimited).stand (a := []) rfl
  refine ⟨fun i c hi hsecret _ => ?_, fun p start stop valueStart hb hkey hvalue => ?_⟩
  · obtain ⟨start, stop, valueStart, hat, hle, hall⟩ := (hstand i c hi (Nat.zero_le i)).1 hsecret
    exact ⟨start, stop, valueStart, Nat.zero_le start, hat, hle, hall⟩
  · have hfound := searchKey_lt hkey
    have hcolon := of_mappingValueStart hvalue
    have hlt : start < (document s before data after).length := by
      obtain ⟨c, hc, -⟩ := hcolon.2 stop (Nat.le_refl stop) hcolon.1
      rw [← length_chars]
      exact Nat.lt_trans hfound.2 (List.getElem?_eq_some_iff.mp hc).1
    have hc := List.getElem?_eq_getElem hlt
    have hnames := namesValue_of_searchKey hkey hvalue
    rw [chars_document] at hnames
    rcases h.names start _ hc hnames with hfield | hsecret | hnone
    · exact behindKey_stands ((hstand start _ hc (Nat.zero_le start)).2 hfield) hb hkey hvalue
    · exact absurd hsecret (hb.not_secret hkey hc)
    · intro i d hi hsecret hle
      have hresume : valueStart ≤ resume (chars (document s before data after)) start valueStart :=
        Nat.le_max_right _ _
      exact absurd hsecret (hnone i d (by omega) hi)

/-- A text without connection strings and assignments goes to the scan as it is. -/
theorem substituted_document {u : Unicode} {before : PyText} {data : Data} {after : PyText}
    (h : Legible u s before data after) :
    substituted u (document s before data after) = document s before data after := by
  have hsub : ∀ {p : Substitution PyChar}, p.Absent (before ++ (render s 0 data ++ after)) →
      sub p (document s before data after) = document s before data after := by
    intro p hp
    rw [sub, chars_document, Substitution.spans_of_absent hp, cut]
  rw [substituted, hsub h.connectionString, hsub h.odbcAssignment, hsub h.assignment]

end Documents

/-! ## Two texts -/

def asciiUnicode : Unicode := ⟨isNameChar⟩

def asciiRepr : Style := reprStyle ⟨asciiPrintable, fun c h => by
  obtain ⟨hlow, hhigh⟩ := nameChar_range h
  simp [asciiPrintable, hlow, hhigh]⟩

/-- `{'user': 'bob', 'password': 'a, b'}` -/
def stringSecret : Data :=
  .dict [(.str (PyText.ofString "user"), .str (PyText.ofString "bob")),
    (.str (PyText.ofString "password"), .str (PyText.ofString "a, b"))]

/-- `{'password': ('alpha', 'xyz')}` -/
def tupleSecret : Data :=
  .dict [(.str (PyText.ofString "password"),
    .tuple [.str (PyText.ofString "alpha"), .str (PyText.ofString "xyz")])]

theorem legible_stringSecret : Legible asciiUnicode asciiRepr [] stringSecret [] := by
  have hnames : ∀ start < ([] ++ (render asciiRepr 0 stringSecret ++ [])).length,
      namesValue ([] ++ (render asciiRepr 0 stringSecret ++ [])) start = true → start = 16 := by
    decide +kernel
  have hkey : (document asciiRepr [] stringSecret [])[16]? = some (.char '\'', .key) := by
    decide +kernel
  refine ⟨by decide, by decide +kernel, by decide +kernel, by decide +kernel,
    fun start c hc hvalue => .inl ?_⟩
  have hlt : start < ([] ++ (render asciiRepr 0 stringSecret ++ [])).length := by
    rw [← chars_document, length_chars]
    exact (List.getElem?_eq_some_iff.mp hc).1
  rw [hnames start hlt hvalue, hkey] at hc
  cases hc
  rfl

theorem onlySecret_of_forall (h : ∀ c ∈ t, c.1 ∈ w → c.2 = .secret) : OnlySecret t w := by
  intro v hv hchars c hc
  refine h c (hv.subset hc) ?_
  rw [← hchars]
  exact List.mem_map_of_mem hc

end EarlyWarning.ErrorReporting

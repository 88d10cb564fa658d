/-
# `SensitiveKey` — the keys that the scan finds

The key of a sensitive field is matched where it stands, quotes and all (`first_key`), so that the
scan finds it or something before it; what it finds before it ends before it (`search_key`).
-/
import EarlyWarning.RenderedData
import Mathlib.Data.Bool.AllAny

namespace EarlyWarning.ErrorReporting

open Lib

variable {t w rest after : PyText} {c quote : PyChar} {prev : Option PyChar}

/-! ## Letters of any case -/

/-- A capital letter, and the small one. -/
theorem toLower_of_isUpper {c : Char} (h : c.isUpper = true) :
    c.isAlphanum = true ∧ c.toLower.isAlphanum = true ∧ c.toLower ∉ ['\'', '"'] := by
  have hval : 'A'.val ≤ c.val ∧ c.val ≤ 'Z'.val := of_decide_eq_true h
  have hrange : 65 ≤ c.toNat ∧ c.toNat ≤ 90 :=
    ⟨UInt32.le_iff_toNat_le.mp hval.1, UInt32.le_iff_toNat_le.mp hval.2⟩
  have hall : ∀ n < 91, 65 ≤ n → (Char.ofNat n).isAlphanum = true ∧
      (Char.ofNat n).toLower.isAlphanum = true ∧ (Char.ofNat n).toLower ∉ ['\'', '"'] := by
    decide
  have hc : Char.ofNat c.toNat = c := Char.ofNat_toNat c
  rw [← hc]
  exact hall c.toNat (Nat.lt_succ_of_le hrange.2) hrange.1

theorem fold_eq_self {c : Char} (hupper : c.isUpper = false)
    (hplain : c ∉ ['\u017f', '\u212a', '\u0130', '\u0131']) : fold c = c := by
  simp only [List.mem_cons, List.not_mem_nil, or_false, not_or] at hplain
  simp [fold, hupper, hplain]

/-- A letter of a sensitive name matches in any case. -/
theorem fold_of_toLower {c x : Char} (h : c.toLower = x) (hplain : fold x = x) : fold c = x := by
  cases hupper : c.isUpper with
  | true => rw [fold, if_pos hupper, h]
  | false =>
      have hsame : c.toLower = c := by
        by_contra hne
        rw [isUpper_of_toLower_ne hne] at hupper
        cases hupper
      rw [← hsame, h, hplain]

theorem isAlphanum_fold {c : Char} (h : c.isAlphanum = true) : (fold c).isAlphanum = true := by
  cases hupper : c.isUpper with
  | true =>
      rw [fold, if_pos hupper]
      exact (toLower_of_isUpper hupper).2.1
  | false =>
      rw [fold_eq_self hupper]
      · exact h
      · intro hmem
        simp only [List.mem_cons, List.not_mem_nil, or_false] at hmem
        rcases hmem with rfl | rfl | rfl | rfl
        all_goals exact absurd h (by decide)

theorem isNameChar_char {c : Char} (h : c.isAlphanum = true ∨ c = '_') :
    isNameChar (.char c) = true := by
  rcases h with h | rfl
  · have hfold := isAlphanum_fold h
    simp [isNameChar, ignoringCase, hfold]
  · decide

/-- A quote has no other case. -/
theorem of_fold_eq_quote {c x : Char} (hx : x ∈ ['\'', '"']) (h : fold c = x) : c = x := by
  rw [fold] at h
  split at h
  case isTrue hupper =>
    rw [← h] at hx
    exact absurd hx (toLower_of_isUpper hupper).2.2
  case isFalse =>
    split at h
    case isTrue => exact absurd (h ▸ hx) (by decide)
    case isFalse =>
      split at h
      case isTrue => exact absurd (h ▸ hx) (by decide)
      case isFalse =>
        split at h
        case isTrue => exact absurd (h ▸ hx) (by decide)
        case isFalse => exact h

/-! ## What a name is -/

theorem takes_letter {x : Char} (h : lower c = .char x) (hplain : fold x = x) :
    (lit x).Takes [c] := by
  obtain ⟨c', rfl, hc'⟩ := lower_eq_char h
  refine Regex.takes_one ?_
  rw [ignoringCase, fold_of_toLower hc' hplain, beq_iff_eq]

theorem takes_literal {name : String} (hplain : ∀ x ∈ name.toList, fold x = x)
    (h : w.map lower = PyText.ofString name) : (literal name).Takes w := by
  refine Regex.takes_all ?_
  rw [PyText.ofString] at h
  generalize name.toList = xs at hplain h
  induction xs generalizing w with
  | nil =>
      rw [List.map_nil, List.map_eq_nil_iff] at h
      rw [h]
      exact .nil
  | cons x xs ih =>
      obtain ⟨c, w', rfl, hc, hw'⟩ := List.map_eq_cons_iff.mp h
      exact .cons (takes_letter hc (hplain x List.mem_cons_self))
        (ih (fun y hy => hplain y (List.mem_cons_of_mem x hy)) hw')

/-- A word of a prefix, with its underscore. -/
def IsWord (w : PyText) : Prop :=
  ∃ c cs, w = c :: (cs ++ [.char '_']) ∧ ∀ d ∈ c :: cs, ignoringCase Char.isAlphanum d = true

/-- Words, after the rest of the one that has begun. -/
def Words : Bool → PyText → Prop
  | true, t => ∃ (cs : PyText) (ws : List PyText), t = cs ++ .char '_' :: ws.flatten ∧
      (∀ d ∈ cs, ignoringCase Char.isAlphanum d = true) ∧ ∀ w ∈ ws, IsWord w
  | false, t => ∃ ws : List PyText, t = ws.flatten ∧ ∀ w ∈ ws, IsWord w

theorem words_of_isPrefixes : ∀ {t : PyText} {inWord : Bool}, isPrefixes inWord t = true →
    Words inWord t
  | [], false, _ => ⟨[], rfl, fun _ h => (List.not_mem_nil h).elim⟩
  | [], true, h => by cases h
  | .surrogate _ :: _, _, h => by cases h
  | .char c :: rest, inWord, h => by
      rw [isPrefixes] at h
      split at h
      case isTrue hunder =>
        subst hunder
        obtain ⟨hin, hrest⟩ := Bool.and_eq_true_iff.mp h
        obtain ⟨ws, rfl, hws⟩ := words_of_isPrefixes hrest
        rw [hin]
        exact ⟨[], ws, rfl, fun _ h => (List.not_mem_nil h).elim, hws⟩
      case isFalse =>
        obtain ⟨hc, hrest⟩ := Bool.and_eq_true_iff.mp h
        obtain ⟨cs, ws, rfl, hcs, hws⟩ := words_of_isPrefixes hrest
        have hall : ∀ d ∈ PyChar.char c :: cs, ignoringCase Char.isAlphanum d = true :=
          List.forall_mem_cons.mpr ⟨isAlphanum_fold hc, hcs⟩
        cases inWord with
        | true => exact ⟨_ :: cs, ws, rfl, hall, hws⟩
        | false =>
            refine ⟨(.char c :: (cs ++ [.char '_'])) :: ws, ?_, ?_⟩
            · simp
            · exact List.forall_mem_cons.mpr ⟨⟨_, cs, rfl, hall⟩, hws⟩

theorem takes_class {p : PyChar → Bool} : ∀ {cs : List PyChar}, (∀ d ∈ cs, p d = true) →
    (Regex.star (.one p)).Takes cs := by
  intro cs h
  have htakes : (Regex.star (.one p)).Takes (cs.map fun d => [d]).flatten := Regex.takes_star
    (by simp) (fun w hw => by
      obtain ⟨d, hd, rfl⟩ := List.mem_map.mp hw
      exact Regex.takes_one (h d hd))
  rwa [← List.flatMap_def, List.flatMap_singleton'] at htakes

theorem takes_word (h : IsWord w) :
    (Regex.all [.plus (.one (ignoringCase Char.isAlphanum)), lit '_']).Takes w := by
  obtain ⟨c, cs, rfl, hall⟩ := h
  have hunder : (lit '_').Takes [.char '_'] := Regex.takes_one (by decide)
  exact ((Regex.takes_one (hall c List.mem_cons_self)).seq
    (takes_class fun d hd => hall d (List.mem_cons_of_mem c hd))).seq hunder

theorem fold_sensitiveNames : ∀ name ∈ sensitiveNames, ∀ x ∈ name.toList, fold x = x := by
  have hall : (sensitiveNames.all fun name => name.toList.all fun x => fold x == x) = true := by
    decide
  intro name hname x hx
  simpa using List.all_eq_true.mp (List.all_eq_true.mp hall name hname) x hx

/-- The pattern of the names takes a sensitive name. -/
theorem takes_sensitiveFieldName (h : isSensitiveName t = true) : sensitiveFieldName.Takes t := by
  obtain ⟨p, n, name, rfl, hpieces, hname, hlower⟩ := isSensitiveName_eq_true h
  obtain ⟨ws, rfl, hws⟩ := words_of_isPrefixes hpieces
  have hne : [] ∉ ws := by
    intro hmem
    obtain ⟨c, cs, heq, -⟩ := hws [] hmem
    cases heq
  refine (Regex.takes_star hne fun w hw => takes_word (hws w hw)).seq ?_
  exact Regex.takes_any (List.mem_map_of_mem hname)
    (takes_literal (fold_sensitiveNames name hname) hlower)

theorem isNameChar_of_ignoringCase {p : Char → Bool} (hp : ∀ x, p x = true → x.isAlphanum = true ∨
    x = '_') (h : ignoringCase p c = true) : isNameChar c = true := by
  cases c with
  | surrogate n => cases h
  | char c =>
      rcases hp _ h with hfold | hfold
      · simp [isNameChar, ignoringCase, hfold]
      · simp [isNameChar, ignoringCase, hfold]

theorem isNameChar_of_lit {x : Char} (hx : x.isAlphanum = true ∨ x = '_')
    (h : (lit x).Uses c) : isNameChar c = true :=
  isNameChar_of_ignoringCase (p := (· == x)) (fun _ hy => beq_iff_eq.mp hy ▸ hx) h

/-- A name has no other characters. -/
theorem isNameChar_of_uses (h : sensitiveFieldName.Uses c) : isNameChar c = true := by
  have halnum : (Regex.one (ignoringCase Char.isAlphanum)).Uses c → isNameChar c = true :=
    isNameChar_of_ignoringCase fun x hx => .inl hx
  rcases h with (h | h) | h
  · exact h.elim halnum halnum
  · exact isNameChar_of_lit (.inr rfl) h
  · obtain ⟨r, hr, h⟩ := Regex.uses_any h
    obtain ⟨name, hname, rfl⟩ := List.mem_map.mp hr
    obtain ⟨r, hr, h⟩ := Regex.uses_all h
    obtain ⟨x, hx, rfl⟩ := List.mem_map.mp hr
    exact isNameChar_of_lit (sensitiveNames_letters name hname x hx) h

theorem consumes_sensitiveFieldName : sensitiveFieldName.Consumes := by
  refine .inr ⟨?_, ?_, ?_, ?_, ?_⟩
  all_goals exact .inl trivial

/-! ## The match of a key -/

theorem run_sensitiveFieldName {l m : Place PyChar} (h : m ∈ sensitiveFieldName.run l) :
    ∃ v, l.rest = v ++ m.rest ∧ v ≠ [] ∧ ∀ c ∈ v, isNameChar c = true := by
  obtain ⟨v, hv, huses⟩ := Regex.over_run sensitiveFieldName l m h
  refine ⟨v, hv, ?_, fun c hc => isNameChar_of_uses (huses c hc)⟩
  rintro rfl
  have hlt := consumes_sensitiveFieldName.length_lt h
  rw [hv, List.nil_append] at hlt
  exact Nat.lt_irrefl _ hlt

theorem run_lit_quote {l m : Place PyChar} {x : Char} (hx : x ∈ ['\'', '"'])
    (h : m ∈ (lit x).run l) : l.rest = .char x :: m.rest := by
  obtain ⟨c, hrest, hc⟩ := Regex.mem_run_one h
  cases c with
  | surrogate n => cases hc
  | char c =>
      rw [of_fold_eq_quote hx (beq_iff_eq.mp hc)] at hrest
      exact hrest

/-- A name in quotes. -/
theorem run_quotedName {l m : Place PyChar} {x : Char} (hx : x ∈ ['\'', '"'])
    (h : m ∈ (Regex.all [lit x, sensitiveFieldName, noNameCharAfter, lit x]).run l) :
    ∃ v, l.rest = .char x :: (v ++ .char x :: m.rest) ∧ v ≠ [] ∧
      ∀ c ∈ v, isNameChar c = true := by
  obtain ⟨k₁, hk₁, h₁⟩ := List.mem_flatMap.mp h
  obtain ⟨k₂, hk₂, h₂⟩ := List.mem_flatMap.mp h₁
  obtain ⟨k₃, hk₃, h₃⟩ := List.mem_flatMap.mp h₂
  obtain ⟨v, hv, hne, hname⟩ := run_sensitiveFieldName hk₂
  obtain ⟨heq, -⟩ := Regex.mem_run_assert hk₃
  rw [heq] at h₃
  refine ⟨v, ?_, hne, hname⟩
  rw [run_lit_quote hx hk₁, hv, run_lit_quote hx h₃]

/-- What a match takes: a name, in two quotes or in none, and no part of a name is before it. -/
theorem key_shape {l m : Place PyChar} (h : m ∈ sensitiveMappingKey.run l) :
    ∃ q v, l.rest = q ++ (v ++ (q ++ m.rest)) ∧ v ≠ [] ∧ (∀ c ∈ v, isNameChar c = true) ∧
      (q = [] ∨ ∃ c, isOneOf ['\'', '"'] c = true ∧ q = [c]) := by
  obtain ⟨k, hk, hany⟩ := List.mem_flatMap.mp h
  obtain ⟨hkl, -⟩ := Regex.mem_run_assert hk
  rw [hkl] at hany
  obtain ⟨r, hr, hm⟩ := Regex.mem_run_any hany
  simp only [List.mem_cons, List.not_mem_nil, or_false] at hr
  rcases hr with rfl | rfl | rfl
  · obtain ⟨v, hv, hne, hname⟩ := run_quotedName (by decide) hm
    exact ⟨[.char '\''], v, hv, hne, hname, .inr ⟨_, by decide, rfl⟩⟩
  · obtain ⟨v, hv, hne, hname⟩ := run_quotedName (by decide) hm
    exact ⟨[.char '"'], v, hv, hne, hname, .inr ⟨_, by decide, rfl⟩⟩
  · obtain ⟨k', hk', hm'⟩ := List.mem_flatMap.mp hm
    obtain ⟨rfl, -⟩ := Regex.mem_run_assert hm'
    obtain ⟨v, hv, hne, hname⟩ := run_sensitiveFieldName hk'
    exact ⟨[], v, hv, hne, hname, .inl rfl⟩

/-- The name in quotes is matched. -/
theorem mem_run_key {x : Char} (hx : x ∈ ['\'', '"']) (ht : isSensitiveName t = true)
    (hprev : prev.any isNameChar = false) :
    ∃ m ∈ sensitiveMappingKey.run ⟨prev, .char x :: (t ++ .char x :: after)⟩, m.rest = after := by
  have hlit : (lit x).Takes [.char x] := by
    refine Regex.takes_one ?_
    have hall : ∀ x ∈ ['\'', '"'], ignoringCase (· == x) (.char x) = true :=
      List.all_iff_forall_prop.mp (by decide)
    exact hall x hx
  have hnot : isNameChar (.char x) = false := by
    have hall : ∀ x ∈ ['\'', '"'], isNameChar (.char x) = false :=
      List.all_iff_forall_prop.mp (by decide)
    exact hall x hx
  obtain ⟨⟨p₁, r₁⟩, hk₁, rfl⟩ := hlit prev (t ++ .char x :: after)
  obtain ⟨⟨p₂, r₂⟩, hk₂, rfl⟩ := takes_sensitiveFieldName ht p₁ (.char x :: after)
  obtain ⟨m, hm, hrest⟩ := hlit p₂ after
  have hassert : (⟨p₂, .char x :: after⟩ : Place PyChar) ∈
      noNameCharAfter.run ⟨p₂, .char x :: after⟩ := by
    rw [noNameCharAfter, Regex.run]
    simp [hnot]
  have hbranch : m ∈ (Regex.all [lit x, sensitiveFieldName, noNameCharAfter, lit x]).run
      ⟨prev, .char x :: (t ++ .char x :: after)⟩ :=
    List.mem_flatMap.mpr ⟨_, hk₁, List.mem_flatMap.mpr ⟨_, hk₂, List.mem_flatMap.mpr
      ⟨_, hassert, hm⟩⟩⟩
  have hbefore : (⟨prev, .char x :: (t ++ .char x :: after)⟩ : Place PyChar) ∈
      noNameCharBefore.run ⟨prev, .char x :: (t ++ .char x :: after)⟩ := by
    rw [noNameCharBefore, Regex.run]
    simp [hprev]
  refine ⟨m, List.mem_flatMap.mpr ⟨_, hbefore, ?_⟩, hrest⟩
  simp only [List.mem_cons, List.not_mem_nil, or_false] at hx
  rcases hx with rfl | rfl
  · exact List.mem_append_left _ hbranch
  · exact List.mem_append_right _ (List.mem_append_left _ hbranch)

theorem append_eq_append_of_class {p : PyChar → Bool} {a b x y : PyText} {d d' : PyChar}
    (ha : ∀ c ∈ a, p c = true) (hb : ∀ c ∈ b, p c = true) (hd : p d = false) (hd' : p d' = false)
    (h : a ++ d :: x = b ++ d' :: y) : a = b ∧ x = y := by
  have htake : ∀ {a x : PyText} {d : PyChar}, (∀ c ∈ a, p c = true) → p d = false →
      (a ++ d :: x).takeWhile p = a := by
    intro a x d ha hd
    rw [List.takeWhile_append_of_pos ha, List.takeWhile_cons_of_neg (by simp [hd]), List.append_nil]
  have hab : a = b := by
    rw [← htake (x := x) ha hd, h, htake hb hd']
  subst hab
  exact ⟨rfl, (List.cons.inj (List.append_cancel_left h)).2⟩

theorem isOneOf_quote (h : isOneOf ['\'', '"'] quote = true) :
    ∃ x, x ∈ ['\'', '"'] ∧ quote = .char x := by
  obtain ⟨x, hx, rfl⟩ := List.mem_map.mp (of_decide_eq_true h)
  exact ⟨x, hx, rfl⟩

theorem not_isNameChar_quote (h : isOneOf ['\'', '"'] quote = true) : isNameChar quote = false := by
  have hall : ∀ q ∈ ['\'', '"'].map PyChar.char, isNameChar q = false := by decide
  exact hall quote (of_decide_eq_true h)

theorem isNameChar_of_isSensitiveName (h : isSensitiveName t = true) :
    ∀ c ∈ t, isNameChar c = true := by
  intro c hc
  obtain ⟨c', rfl, hc'⟩ := isNameText_of_isSensitiveName h c hc
  exact isNameChar_char hc'

/-- **The key of a field** is matched, with its quotes. -/
theorem first_key (hquote : isOneOf ['\'', '"'] quote = true) (ht : isSensitiveName t = true)
    (hprev : prev.any isNameChar = false) :
    sensitiveMappingKey.first ⟨prev, quote :: (t ++ quote :: after)⟩ = some (t.length + 2) := by
  have hends : ∃ m ∈ sensitiveMappingKey.run ⟨prev, quote :: (t ++ quote :: after)⟩,
      m.rest = after := by
    obtain ⟨x, hx, rfl⟩ := isOneOf_quote hquote
    exact mem_run_key hx ht hprev
  have hsplit : quote :: (t ++ quote :: after) = (quote :: (t ++ [quote])) ++ after := by simp
  have hlength : (quote :: (t ++ [quote])).length = t.length + 2 := by simp
  rw [← hlength]
  refine Regex.first_eq hsplit hends fun m hm => ?_
  obtain ⟨q, v, hshape, hne, hname, rfl | ⟨c, hc, rfl⟩⟩ := key_shape hm
  · obtain ⟨d, v, rfl⟩ := List.exists_cons_of_ne_nil hne
    obtain ⟨rfl, -⟩ := List.cons.inj hshape
    have hfalse := not_isNameChar_quote hquote
    rw [hname _ List.mem_cons_self] at hfalse
    cases hfalse
  · obtain ⟨rfl, htail⟩ := List.cons.inj hshape
    exact (append_eq_append_of_class hname (isNameChar_of_isSensitiveName ht)
      (not_isNameChar_quote hc) (not_isNameChar_quote hc) htail.symm).2

/-- A match takes a character. -/
theorem first_pos {l : Place PyChar} {n : Nat} (h : sensitiveMappingKey.first l = some n) :
    0 < n := by
  obtain ⟨w, m, hm, hw, rfl⟩ := Regex.first_eq_some h
  obtain ⟨q, v, hshape, hne, -⟩ := key_shape hm
  rw [hw] at hshape
  have hlength := congrArg List.length hshape
  have hv : 0 < v.length := List.length_pos_iff.mpr hne
  simp only [List.length_append] at hlength
  omega

theorem search_pos {n o : Nat} (h : sensitiveMappingKey.search prev t = some (o, n)) : 0 < n := by
  obtain ⟨a, b, -, -, hfirst⟩ := Regex.search_eq_some h
  exact first_pos hfirst

theorem not_isNameChar_getLast? {x v : PyText} (h : (x.getLast?.or prev).any isNameChar = false)
    (hx : ∃ a, x = a ++ v) (hne : v ≠ []) : ¬ ∀ c ∈ v, isNameChar c = true := by
  intro hname
  obtain ⟨a, rfl⟩ := hx
  rw [List.getLast?_append, List.getLast?_eq_some_getLast hne] at h
  have hlast := hname _ (List.getLast_mem hne)
  simp [hlast] at h

/-- What is matched before a quote that no part of a name is before ends there at the latest. -/
theorem first_le {l : Place PyChar} {x : PyText} {n : Nat} (hx : x ≠ [])
    (hl : l.rest = x ++ quote :: rest) (hquote : isOneOf ['\'', '"'] quote = true)
    (hlast : ∀ v, v ≠ [] → (∃ a, x = a ++ v) → ¬ ∀ c ∈ v, isNameChar c = true)
    (h : sensitiveMappingKey.first l = some n) : n ≤ x.length := by
  obtain ⟨w, m, hm, hw, rfl⟩ := Regex.first_eq_some h
  by_contra hlong
  rw [Nat.not_le] at hlong
  have hnot := not_isNameChar_quote hquote
  -- the quote is in what the match takes
  obtain ⟨y, hy⟩ : ∃ y, w = x ++ quote :: y := by
    have hpre : x ++ [quote] <+: w := by
      have hrest : x ++ [quote] <+: l.rest := by
        rw [hl]
        exact ⟨rest, by simp⟩
      have htaken : w <+: l.rest := by
        rw [hw]
        exact List.prefix_append w m.rest
      refine List.prefix_of_prefix_length_le hrest htaken ?_
      rw [List.length_append, List.length_singleton]
      exact hlong
    obtain ⟨y, hy⟩ := hpre
    exact ⟨y, by simp [← hy]⟩
  obtain ⟨q, v, hshape, hne, hname, rfl | ⟨c, hc, rfl⟩⟩ := key_shape hm
  · have hwv : w = v := by
      rw [hw, List.nil_append, List.nil_append] at hshape
      exact List.append_cancel_right hshape
    rw [← hwv, hy] at hname
    rw [hname quote (by simp)] at hnot
    cases hnot
  · have hwv : w = c :: (v ++ [c]) := by
      have hsame : w ++ m.rest = (c :: (v ++ [c])) ++ m.rest := by
        rw [← hw, hshape]
        simp
      exact List.append_cancel_right hsame
    obtain ⟨d, x', rfl⟩ := List.exists_cons_of_ne_nil hx
    rw [hwv] at hy
    obtain ⟨rfl, htail⟩ := List.cons.inj hy
    -- the quote is the closing one, after a name
    have hend : x' = v := by
      rcases List.append_eq_append_iff.mp htail with ⟨a, ha, hb⟩ | ⟨a, ha, hb⟩
      · cases a with
        | nil => simpa using ha
        | cons e a =>
            obtain ⟨-, hnil⟩ := List.cons.inj hb
            simp at hnil
      · cases a with
        | nil => simpa using ha.symm
        | cons e a =>
            obtain ⟨rfl, -⟩ := List.cons.inj hb
            rw [hname quote (by rw [ha]; simp)] at hnot
            cases hnot
    exact hlast v hne ⟨[c], by rw [hend]; rfl⟩ hname

/-- **The search** finds the key of the field, or something that ends before it. -/
theorem search_key {x : PyText} (after : PyText) (hquote : isOneOf ['\'', '"'] quote = true)
    (ht : isSensitiveName t = true) (hprev : (x.getLast?.or prev).any isNameChar = false) :
    ∃ o n, sensitiveMappingKey.search prev (x ++ quote :: (t ++ quote :: after)) = some (o, n) ∧
      (o = x.length ∧ n = t.length + 2 ∨ o < x.length ∧ o + n ≤ x.length) := by
  have hkey : sensitiveMappingKey.first ⟨x.getLast?.or prev, quote :: (t ++ quote :: after)⟩ =
      some (t.length + 2) := first_key hquote ht hprev
  obtain ⟨o, n, hsearch, hle⟩ := Regex.search_of_first hkey
  refine ⟨o, n, hsearch, ?_⟩
  obtain ⟨a, b, hab, rfl, hfirst⟩ := Regex.search_eq_some hsearch
  rcases Nat.lt_or_eq_of_le hle with hlt | heq
  · right
    refine ⟨hlt, ?_⟩
    obtain ⟨x', rfl⟩ : ∃ x', x = a ++ x' := by
      have hbefore : a <+: x ++ quote :: (t ++ quote :: after) := hab ▸ List.prefix_append a b
      have hpre : a <+: x :=
        List.prefix_of_prefix_length_le hbefore (List.prefix_append x _) hle
      obtain ⟨x', hx'⟩ := hpre
      exact ⟨x', hx'.symm⟩
    have hb : b = x' ++ quote :: (t ++ quote :: after) := by
      rw [List.append_assoc] at hab
      exact (List.append_cancel_left hab).symm
    have hx' : x' ≠ [] := by
      rintro rfl
      simp at hlt
    have hbound := first_le hx' (l := ⟨a.getLast?.or prev, b⟩) hb hquote (fun v hv hsuffix => by
      refine not_isNameChar_getLast? hprev ?_ hv
      obtain ⟨a', rfl⟩ := hsuffix
      exact ⟨a ++ a', by simp⟩) hfirst
    rw [List.length_append]
    omega
  · left
    refine ⟨heq, ?_⟩
    obtain ⟨rfl, rfl⟩ := List.append_inj hab.symm heq
    rw [hkey] at hfirst
    exact (Option.some.inj hfirst).symm

end EarlyWarning.ErrorReporting

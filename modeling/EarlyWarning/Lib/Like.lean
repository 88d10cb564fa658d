/-
# `Lib.Like` — the LIKE of SQLite

In a pattern `%` stands for any text and `_` for any character; every other character, the
backslash among them, stands for itself and its other ASCII case.  Pattern and text are C strings:
they end at a NUL.

`'%' || keyword || '%'` is how a search for a keyword is written.  It finds the keyword
(`containsPattern_iff`) as long as no wildcard stands in it, and a text without the keyword when
one does (`like_misread`).
-/
import Mathlib.Data.List.Basic
import Mathlib.Data.Bool.AllAny
import Mathlib.Data.List.Infix
import Mathlib.Data.List.TakeWhile

namespace Lib.Like

/-- Up to the NUL. -/
def cString (cs : List Char) : List Char := cs.takeWhile fun c => c ≠ '\x00'

/-- The pattern comes first, and neither has a NUL. -/
def patternCompare : List Char → List Char → Bool
  | [], text => text.isEmpty
  | '%' :: pattern, text => text.tails.any (patternCompare pattern)
  | p :: pattern, text =>
      match text with
      | [] => false
      | c :: text => (p = '_' || p.toLower = c.toLower) && patternCompare pattern text

/-- `text LIKE pattern` -/
def like (text pattern : List Char) : Bool := patternCompare (cString pattern) (cString text)

/-- `'%' || keyword || '%'` -/
def containsPattern (keyword : String) : List Char := '%' :: (keyword.toList ++ ['%'])

/-- The keyword stands in the text, up to the case of ASCII letters. -/
def OccursIn (keyword text : String) : Prop :=
  keyword.toList.map Char.toLower <:+: text.toList.map Char.toLower

instance (keyword text : String) : Decidable (OccursIn keyword text) :=
  inferInstanceAs (Decidable (_ <:+: _))

def isWildcard (c : Char) : Bool := c = '%' || c = '_'

/-- No character of the keyword means anything to LIKE but itself. -/
def Plain (keyword : String) : Prop :=
  '%' ∉ keyword.toList ∧ '_' ∉ keyword.toList ∧ '\x00' ∉ keyword.toList

instance (keyword : String) : Decidable (Plain keyword) := inferInstanceAs (Decidable (_ ∧ _))

/-- A text that LIKE takes for the keyword: it ends at the NUL and has blanks for the wildcards. -/
def misread (keyword : String) : String :=
  String.ofList ((cString keyword.toList).map fun c => if isWildcard c then ' ' else c)

variable {p c : Char} {pattern text : List Char} {keyword s : String}

example : like "user@example.com".toList (containsPattern "_") = true := by decide

example : like "100%".toList (containsPattern "0%") = true := by decide

/-! ## One character -/

@[simp] theorem patternCompare_nil : patternCompare [] text = text.isEmpty := by
  simp [patternCompare]

@[simp] theorem patternCompare_percent :
    patternCompare ('%' :: pattern) text = text.tails.any (patternCompare pattern) := by
  simp [patternCompare]

theorem patternCompare_cons_nil (h : p ≠ '%') : patternCompare (p :: pattern) [] = false := by
  simp [patternCompare]

theorem patternCompare_cons_cons (h : p ≠ '%') : patternCompare (p :: pattern) (c :: text) =
    ((p = '_' || p.toLower = c.toLower) && patternCompare pattern text) := by
  simp [patternCompare]

theorem patternCompare_percent_nil : patternCompare ['%'] text = true := by
  rw [patternCompare_percent, List.any_eq_true]
  exact ⟨[], (List.mem_tails _ _).mpr List.nil_suffix, rfl⟩

/-! ## Without a wildcard -/

theorem cString_eq_self (h : '\x00' ∉ text) : cString text = text := by
  rw [cString, List.takeWhile_eq_self_iff]
  intro c hc
  exact decide_eq_true fun heq => h (heq ▸ hc)

theorem nul_notMem_cString (cs : List Char) : '\x00' ∉ cString cs := by
  intro h
  have hne := List.mem_takeWhile_imp (p := fun c => decide (c ≠ '\x00')) h
  exact of_decide_eq_true hne rfl

theorem patternCompare_prefix_iff (hpercent : '%' ∉ pattern) (hunderscore : '_' ∉ pattern) :
    patternCompare (pattern ++ ['%']) text ↔
      pattern.map Char.toLower <+: text.map Char.toLower := by
  induction pattern generalizing text with
  | nil =>
      rw [List.nil_append, patternCompare_percent_nil]
      exact ⟨fun _ => List.nil_prefix, fun _ => rfl⟩
  | cons p pattern ih =>
      have hp : p ≠ '%' := fun heq => hpercent (heq ▸ List.mem_cons_self)
      have hp' : p ≠ '_' := fun heq => hunderscore (heq ▸ List.mem_cons_self)
      have hrest : ∀ {text : List Char}, patternCompare (pattern ++ ['%']) text ↔
          pattern.map Char.toLower <+: text.map Char.toLower :=
        ih (fun h => hpercent (List.mem_cons_of_mem _ h))
          fun h => hunderscore (List.mem_cons_of_mem _ h)
      cases text with
      | nil =>
          rw [List.cons_append, patternCompare_cons_nil hp]
          simp
      | cons c text =>
          rw [List.cons_append, patternCompare_cons_cons hp, List.map_cons, List.map_cons,
            List.cons_prefix_cons, ← hrest]
          simp [hp']

/-- A search for a plain keyword is a search for its letters. -/
theorem containsPattern_iff (hplain : Plain keyword) (hs : '\x00' ∉ s.toList) :
    like s.toList (containsPattern keyword) ↔ OccursIn keyword s := by
  obtain ⟨hpercent, hunderscore, hnul⟩ := hplain
  have hpattern : cString (containsPattern keyword) = containsPattern keyword :=
    cString_eq_self (by simp [containsPattern, hnul])
  rw [like, hpattern, cString_eq_self hs, containsPattern, patternCompare_percent,
    List.any_eq_true, OccursIn, List.infix_iff_prefix_suffix]
  constructor
  · rintro ⟨tail, htail, hmatch⟩
    exact ⟨tail.map Char.toLower, (patternCompare_prefix_iff hpercent hunderscore).mp hmatch,
      ((List.mem_tails _ _).mp htail).map Char.toLower⟩
  · rintro ⟨tail, hprefix, hsuffix⟩
    obtain ⟨pre, hpre⟩ := hsuffix
    obtain ⟨init, tail', hs', rfl, rfl⟩ := List.map_eq_append_iff.mp hpre.symm
    refine ⟨tail', (List.mem_tails _ _).mpr ⟨init, hs'.symm⟩, ?_⟩
    exact (patternCompare_prefix_iff hpercent hunderscore).mpr hprefix

/-! ## With one -/

theorem patternCompare_misread (rest : List Char) (hrest : patternCompare rest [] = true) :
    patternCompare (pattern ++ rest) (pattern.map fun c => if isWildcard c then ' ' else c) =
      true := by
  induction pattern with
  | nil => exact hrest
  | cons p pattern ih =>
      by_cases hp : p = '%'
      · subst hp
        rw [List.cons_append, patternCompare_percent, List.any_eq_true]
        exact ⟨_, (List.mem_tails _ _).mpr (List.suffix_cons _ _), ih⟩
      · rw [List.cons_append, List.map_cons, patternCompare_cons_cons hp, ih, Bool.and_true]
        by_cases hp' : p = '_'
        · simp [hp']
        · simp [isWildcard, hp, hp']

/-- What LIKE reads of the pattern of a keyword. -/
theorem cString_containsPattern (keyword : String) :
    ∃ rest, cString (containsPattern keyword) = '%' :: (cString keyword.toList ++ rest) ∧
      patternCompare rest [] = true := by
  have hcons : cString (containsPattern keyword) = '%' :: cString (keyword.toList ++ ['%']) :=
    List.takeWhile_cons_of_pos (by decide)
  rw [hcons, cString, List.takeWhile_append]
  split
  case isTrue h =>
    have hall : cString keyword.toList = keyword.toList :=
      (List.takeWhile_prefix _).eq_of_length h
    exact ⟨['%'], by rw [hall]; rfl, by decide⟩
  case isFalse => exact ⟨[], by rw [List.append_nil]; rfl, rfl⟩

theorem nul_notMem_misread (keyword : String) : '\x00' ∉ (misread keyword).toList := by
  rw [misread, String.toList_ofList]
  intro h
  obtain ⟨c, hc, heq⟩ := List.mem_map.mp h
  split at heq
  case isTrue => exact absurd heq (by decide)
  case isFalse => exact nul_notMem_cString _ (heq ▸ hc)

theorem like_misread (keyword : String) :
    like (misread keyword).toList (containsPattern keyword) = true := by
  obtain ⟨rest, hpattern, hrest⟩ := cString_containsPattern keyword
  rw [like, hpattern, cString_eq_self (nul_notMem_misread keyword), misread,
    String.toList_ofList, patternCompare_percent, List.any_eq_true]
  exact ⟨_, (List.mem_tails _ _).mpr List.suffix_rfl, patternCompare_misread rest hrest⟩

/-- A character below the small letters is the small form of none but itself. -/
theorem toLower_eq_of_lt (h : c.toLower = p) (hp : p.toNat < 'a'.toNat) : c = p := by
  subst h
  unfold Char.toLower at hp ⊢
  split at hp
  case isTrue hupper =>
    exfalso
    have hlower : 'A'.val.toNat ≤ c.val.toNat ∧ c.val.toNat ≤ 'Z'.val.toNat := hupper
    have hdiff : ('a'.val - 'A'.val).toNat = 32 := by decide
    simp only [Char.toNat, UInt32.toNat_add, hdiff] at hp
    have hbounds : 'A'.val.toNat = 65 ∧ 'Z'.val.toNat = 90 ∧ 'a'.val.toNat = 97 := by decide
    omega
  case isFalse hupper => rw [dif_neg hupper]

theorem notMem_misread (hp : isWildcard p ∨ p = '\x00') : p ∉ (misread keyword).toList := by
  rcases hp with hp | rfl
  · rw [misread, String.toList_ofList]
    intro h
    obtain ⟨c, _, heq⟩ := List.mem_map.mp h
    split at heq
    case isTrue =>
      subst heq
      exact absurd hp (by decide)
    case isFalse hc => exact hc (heq ▸ hp)
  · exact nul_notMem_misread keyword

/-- It is not the keyword. -/
theorem not_occursIn_misread (h : ¬ Plain keyword) : ¬ OccursIn keyword (misread keyword) := by
  intro hoccurs
  have hnone : ∀ w : Char, w ∈ ['%', '_', '\x00'] → w ∉ keyword.toList := by
    intro w hspecial hw
    have hlower : w.toLower ∈ (misread keyword).toList.map Char.toLower :=
      hoccurs.subset (List.mem_map_of_mem hw)
    obtain ⟨c, hc, heq⟩ := List.mem_map.mp hlower
    have hfacts : ∀ w ∈ ['%', '_', '\x00'],
        w.toLower = w ∧ w.toNat < 'a'.toNat ∧ (isWildcard w ∨ w = '\x00') :=
      List.all_iff_forall_prop.mp (by decide)
    obtain ⟨hself, hlt, hkind⟩ := hfacts w hspecial
    rw [hself] at heq
    exact notMem_misread hkind (toLower_eq_of_lt heq hlt ▸ hc)
  exact h ⟨hnone '%' (by decide), hnone '_' (by decide), hnone '\x00' (by decide)⟩

end Lib.Like

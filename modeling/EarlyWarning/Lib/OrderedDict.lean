/-
# `Lib.OrderedDict` — a dictionary that keeps insertion order

The insertion-ordered dictionary of Python: assigning to a key it holds replaces the
value in place, assigning to a new key appends, `popFirst` takes the oldest entry.
The keys are distinct by the field `nodup`, so every operation below is one that can
only build dictionaries.

Everything is read through `get?`: `get?_eq_some` says a lookup is membership of the
entry, and each operation has one lemma giving the lookups after it and one giving the
size after it.
-/
import Mathlib.Data.List.Induction
import Mathlib.Data.List.Nodup
import Mathlib.Tactic.TypeStar

namespace Lib

/-- Entries in insertion order, with distinct keys. -/
structure OrderedDict (κ ν : Type*) where
  entries : List (κ × ν)
  nodup : (entries.map Prod.fst).Nodup

namespace OrderedDict

variable {κ ν : Type*}

def empty : OrderedDict κ ν := ⟨[], List.nodup_nil⟩

instance : Inhabited (OrderedDict κ ν) := ⟨empty⟩

/-- `len(d)` -/
def size (d : OrderedDict κ ν) : Nat := d.entries.length

/-- `list(d.keys())` -/
def keys (d : OrderedDict κ ν) : List κ := d.entries.map Prod.fst

@[ext] theorem ext {d d' : OrderedDict κ ν} (h : d.entries = d'.entries) : d = d' := by
  cases d; cases d'; cases h; rfl

/-- `d.popitem(last=False)`; `none` when the dictionary is empty. -/
def popFirst (d : OrderedDict κ ν) : Option ((κ × ν) × OrderedDict κ ν) :=
  match d with
  | ⟨[], _⟩ => none
  | ⟨e :: rest, h⟩ => some (e, ⟨rest, (List.nodup_cons.mp h).2⟩)

variable [DecidableEq κ]

instance [DecidableEq ν] : DecidableEq (OrderedDict κ ν) := fun d d' =>
  decidable_of_iff (d.entries = d'.entries) ⟨ext, fun h => h ▸ rfl⟩

/-- `d.get(k)` -/
def get? (d : OrderedDict κ ν) (k : κ) : Option ν :=
  (d.entries.find? fun e => e.1 = k).map Prod.snd

theorem get?_eq_some {d : OrderedDict κ ν} {k : κ} {v : ν} :
    d.get? k = some v ↔ (k, v) ∈ d.entries := by
  constructor
  · intro h
    obtain ⟨e, he, hv⟩ := Option.map_eq_some_iff.mp h
    have hk : e.1 = k := by simpa using List.find?_some he
    have : e = (k, v) := Prod.ext hk hv
    exact this ▸ List.mem_of_find?_eq_some he
  · intro h
    cases hf : d.entries.find? fun e => e.1 = k with
    | none => exact absurd (List.find?_eq_none.mp hf (k, v) h) (by simp)
    | some e =>
        have hk : e.1 = k := by simpa using List.find?_some hf
        have : e = (k, v) := List.inj_on_of_nodup_map d.nodup
          (List.mem_of_find?_eq_some hf) h hk
        simp [get?, hf, this]

theorem get?_eq_none {d : OrderedDict κ ν} {k : κ} :
    d.get? k = none ↔ ∀ v, (k, v) ∉ d.entries := by
  rw [Option.eq_none_iff_forall_ne_some]
  exact forall_congr' fun v => not_congr get?_eq_some

theorem mem_keys {d : OrderedDict κ ν} {k : κ} :
    k ∈ d.keys ↔ ∃ v, d.get? k = some v := by
  simp only [keys, List.mem_map, get?_eq_some, Prod.exists]
  exact exists_comm.trans (by simp)

theorem get?_eq_none_iff_not_mem {d : OrderedDict κ ν} {k : κ} :
    d.get? k = none ↔ k ∉ d.keys := by
  rw [mem_keys, not_exists, Option.eq_none_iff_forall_ne_some]

theorem ext_get? {d : OrderedDict κ ν} {k : κ} {o : Option ν}
    (h : ∀ v, (k, v) ∈ d.entries ↔ o = some v) : d.get? k = o := by
  cases o with
  | none => exact get?_eq_none.mpr fun v hv => by simpa using (h v).mp hv
  | some v => exact get?_eq_some.mpr ((h v).mpr rfl)

/-! ## Assignment -/

/-- `d[k] = v` -/
def set (d : OrderedDict κ ν) (k : κ) (v : ν) : OrderedDict κ ν :=
  if h : k ∈ d.keys then
    ⟨d.entries.map fun e => if e.1 = k then (k, v) else e, by
      have : ∀ e : κ × ν, (if e.1 = k then (k, v) else e).1 = e.1 := fun e => by
        split
        · exact (by assumption : e.1 = k).symm
        · rfl
      simpa [List.map_map, Function.comp_def, this] using d.nodup⟩
  else
    ⟨d.entries ++ [(k, v)], by
      rw [List.map_append, List.nodup_append]
      refine ⟨d.nodup, by simp, fun a ha b hb => ?_⟩
      simp only [List.map_cons, List.map_nil, List.mem_singleton] at hb
      exact fun hab => h (hb ▸ hab ▸ ha)⟩

theorem get?_set {d : OrderedDict κ ν} {k k' : κ} {v : ν} :
    (d.set k v).get? k' = if k' = k then some v else d.get? k' := by
  refine ext_get? fun w => ?_
  unfold set
  split
  case isTrue hk =>
    obtain ⟨u, hu⟩ := mem_keys.mp hk
    simp only [List.mem_map, Prod.exists]
    constructor
    · rintro ⟨a, b, hab, h⟩
      by_cases ha : a = k
      · rw [if_pos ha] at h
        cases h
        rw [if_pos rfl]
      · rw [if_neg ha] at h
        cases h
        rw [if_neg ha]
        exact get?_eq_some.mpr hab
    · intro h
      by_cases hk' : k' = k
      · rw [if_pos hk'] at h
        cases h
        exact ⟨k, u, get?_eq_some.mp hu, by rw [if_pos rfl, hk']⟩
      · rw [if_neg hk'] at h
        exact ⟨k', w, get?_eq_some.mp h, by rw [if_neg hk']⟩
  case isFalse hk =>
    simp only [List.mem_append, List.mem_singleton, Prod.mk.injEq]
    by_cases hk' : k' = k
    · subst hk'
      have : (k', w) ∉ d.entries := get?_eq_none.mp (get?_eq_none_iff_not_mem.mpr hk) w
      simp [this, eq_comm]
    · simp [hk', ← get?_eq_some]

@[simp] theorem get?_set_self {d : OrderedDict κ ν} {k : κ} {v : ν} :
    (d.set k v).get? k = some v := by rw [get?_set, if_pos rfl]

theorem get?_set_ne {d : OrderedDict κ ν} {k k' : κ} {v : ν} (h : k' ≠ k) :
    (d.set k v).get? k' = d.get? k' := by rw [get?_set, if_neg h]

theorem keys_set_of_mem {d : OrderedDict κ ν} {k : κ} {v : ν} (h : k ∈ d.keys) :
    (d.set k v).keys = d.keys := by
  unfold set
  rw [dif_pos h]
  simp only [keys, List.map_map]
  refine List.map_congr_left fun e _ => ?_
  simp only [Function.comp_apply]
  split
  case isTrue hk => exact hk.symm
  case isFalse => rfl

theorem keys_set_of_not_mem {d : OrderedDict κ ν} {k : κ} {v : ν} (h : k ∉ d.keys) :
    (d.set k v).keys = d.keys ++ [k] := by
  unfold set
  rw [dif_neg h]
  simp [keys]

/-- Assigning the value there is. -/
theorem set_eq_self {d : OrderedDict κ ν} {k : κ} {v : ν} (h : d.get? k = some v) :
    d.set k v = d := by
  unfold set
  rw [dif_pos (mem_keys.mpr ⟨v, h⟩)]
  refine ext ((List.map_congr_left fun e he => ?_).trans (List.map_id _))
  by_cases hk : e.1 = k
  · have hv : some e.2 = some v := by
      rw [← h, ← hk]
      exact (get?_eq_some.mpr he).symm
    rw [if_pos hk, ← hk, ← Option.some.inj hv]
    rfl
  · rw [if_neg hk]
    rfl

/-- The later of two assignments. -/
theorem set_set {d : OrderedDict κ ν} {k : κ} {v w : ν} : (d.set k v).set k w = d.set k w := by
  have hk : k ∈ (d.set k v).keys := mem_keys.mpr ⟨v, get?_set_self⟩
  refine ext ?_
  unfold set at hk ⊢
  rw [dif_pos hk]
  by_cases h : k ∈ d.keys
  · simp only [dif_pos h, List.map_map]
    refine List.map_congr_left fun e _ => ?_
    by_cases he : e.1 = k <;> simp [he]
  · simp only [dif_neg h, List.map_append]
    congr 1
    · refine (List.map_congr_left fun e he => ?_).trans (List.map_id _)
      have hne : e.1 ≠ k := by
        rintro rfl
        exact h (List.mem_map_of_mem he)
      rw [if_neg hne]
      rfl
    · simp

/-- `if k in d: d[k] = f(d[k])` -/
def adjust (d : OrderedDict κ ν) (k : κ) (f : ν → ν) : OrderedDict κ ν :=
  match d.get? k with
  | none => d
  | some v => d.set k (f v)

theorem adjust_of_get? {d : OrderedDict κ ν} {k : κ} {v : ν} {f : ν → ν}
    (h : d.get? k = some v) : d.adjust k f = d.set k (f v) := by
  unfold adjust
  rw [h]

theorem get?_adjust_self {d : OrderedDict κ ν} {k : κ} {f : ν → ν} :
    (d.adjust k f).get? k = (d.get? k).map f := by
  unfold adjust
  cases h : d.get? k with
  | none => exact h
  | some v => exact get?_set_self

theorem get?_adjust_ne {d : OrderedDict κ ν} {k k' : κ} {f : ν → ν} (hne : k' ≠ k) :
    (d.adjust k f).get? k' = d.get? k' := by
  unfold adjust
  cases d.get? k with
  | none => rfl
  | some v => exact get?_set_ne hne

theorem adjust_eq_self {d : OrderedDict κ ν} {k : κ} {f : ν → ν}
    (h : ∀ v, d.get? k = some v → f v = v) : d.adjust k f = d := by
  cases hk : d.get? k with
  | none =>
      unfold adjust
      rw [hk]
  | some v => rw [adjust_of_get? hk, h v hk, set_eq_self hk]

/-- `d.setdefault(k, v)` -/
def setDefault (d : OrderedDict κ ν) (k : κ) (v : ν) : OrderedDict κ ν :=
  if (d.get? k).isSome then d else d.set k v

theorem get?_setDefault {d : OrderedDict κ ν} {k k' : κ} {v : ν} :
    (d.setDefault k v).get? k' = (d.get? k').or (if k' = k then some v else none) := by
  unfold setDefault
  by_cases hk : k' = k
  · subst hk
    cases h : d.get? k' with
    | none => simp
    | some w => simp [h]
  · rw [if_neg hk, Option.or_none]
    split
    · rfl
    · exact get?_set_ne hk

/-- `d.setdefault(k, v)` for every pair of a list. -/
def setDefaults (d : OrderedDict κ ν) (pairs : List (κ × ν)) : OrderedDict κ ν :=
  pairs.foldl (fun d e => d.setDefault e.1 e.2) d

theorem setDefaults_append {d : OrderedDict κ ν} {pairs pairs' : List (κ × ν)} :
    d.setDefaults (pairs ++ pairs') = (d.setDefaults pairs).setDefaults pairs' :=
  List.foldl_append

/-- What is there stays, and the first of the pairs counts for the rest. -/
theorem get?_setDefaults {pairs : List (κ × ν)} : ∀ {d : OrderedDict κ ν} {k : κ},
    (d.setDefaults pairs).get? k =
      (d.get? k).or ((pairs.find? fun e => e.1 = k).map Prod.snd) := by
  induction pairs with
  | nil => simp [setDefaults]
  | cons e pairs ih =>
      intro d k
      show ((d.setDefault e.1 e.2).setDefaults pairs).get? k = _
      rw [ih, get?_setDefault, Option.or_assoc, List.find?_cons]
      by_cases hk : k = e.1
      · simp [hk]
      · simp [hk, Ne.symm hk]

theorem setDefaults_of_get? {d : OrderedDict κ ν} {pairs : List (κ × ν)} {k : κ} {v : ν}
    (h : d.get? k = some v) : (d.setDefaults pairs).get? k = some v := by
  rw [get?_setDefaults, h, Option.some_or]

/-- What is new is one of the pairs. -/
theorem of_get?_setDefaults {d : OrderedDict κ ν} {pairs : List (κ × ν)} {k : κ} {v : ν}
    (h : (d.setDefaults pairs).get? k = some v) : d.get? k = some v ∨ (k, v) ∈ pairs := by
  rw [get?_setDefaults, Option.or_eq_some_iff] at h
  refine h.imp_right fun hnew => ?_
  obtain ⟨e, he, rfl⟩ := Option.map_eq_some_iff.mp hnew.2
  have hk : e.1 = k := by simpa using List.find?_some he
  exact hk ▸ List.mem_of_find?_eq_some he

theorem isSome_setDefaults {d : OrderedDict κ ν} {pairs : List (κ × ν)} {e : κ × ν}
    (h : e ∈ pairs) : ((d.setDefaults pairs).get? e.1).isSome = true := by
  rw [get?_setDefaults, Option.isSome_or, Option.isSome_map, Bool.or_eq_true,
    List.find?_isSome]
  exact .inr ⟨e, h, by simp⟩

theorem setDefaults_eq_self {d : OrderedDict κ ν} {pairs : List (κ × ν)}
    (h : ∀ e ∈ pairs, (d.get? e.1).isSome = true) : d.setDefaults pairs = d := by
  induction pairs with
  | nil => rfl
  | cons e pairs ih =>
      show (d.setDefault e.1 e.2).setDefaults pairs = d
      rw [setDefault, if_pos (h e List.mem_cons_self)]
      exact ih fun e' he' => h e' (List.mem_cons_of_mem e he')

theorem size_set_new {d : OrderedDict κ ν} {k : κ} {v : ν} (h : d.get? k = none) :
    (d.set k v).size = d.size + 1 := by
  unfold set
  rw [dif_neg (get?_eq_none_iff_not_mem.mp h)]
  simp [size]

/-! ## Filling -/

section

variable {α : Type*} {key : α → Option κ} {value : α → ν} {l : List α} {a : α} {k : κ} {v : ν}

/-- `d[key(a)] = value(a)` for every `a` of a list that has a key. -/
def collect (key : α → Option κ) (value : α → ν) (l : List α) : OrderedDict κ ν :=
  l.foldl (fun d a =>
    match key a with
    | some k => d.set k (value a)
    | none => d) empty

theorem get?_collect_concat : (collect key value (l ++ [a])).get? k =
    if key a = some k then some (value a) else (collect key value l).get? k := by
  simp only [collect, List.foldl_concat]
  cases ha : key a with
  | none => simp
  | some k' => simp [get?_set, eq_comm]

theorem mem_of_get?_collect (h : (collect key value l).get? k = some v) :
    ∃ a ∈ l, key a = some k ∧ value a = v := by
  induction l using List.reverseRecOn with
  | nil => cases h
  | append_singleton l a ih =>
      rw [get?_collect_concat] at h
      split at h
      case isTrue hkey => exact ⟨a, by simp, hkey, Option.some.inj h⟩
      case isFalse =>
        obtain ⟨b, hb, hkey, hvalue⟩ := ih h
        exact ⟨b, List.mem_append_left _ hb, hkey, hvalue⟩

theorem get?_collect (ha : a ∈ l) (hkey : key a = some k)
    (hsame : ∀ b ∈ l, key b = some k → value b = value a) :
    (collect key value l).get? k = some (value a) := by
  cases hget : (collect key value l).get? k with
  | some v =>
      obtain ⟨b, hb, hkey', hvalue⟩ := mem_of_get?_collect hget
      rw [← hvalue, hsame b hb hkey']
  | none =>
      exfalso
      clear hsame
      induction l using List.reverseRecOn with
      | nil => cases ha
      | append_singleton l b ih =>
          rw [get?_collect_concat] at hget
          split at hget
          case isTrue => cases hget
          case isFalse hne =>
            rcases List.mem_append.mp ha with ha | ha
            · exact ih ha hget
            · exact hne (List.mem_singleton.mp ha ▸ hkey)

/-- `dict(pairs)` -/
def ofPairs (pairs : List (κ × ν)) : OrderedDict κ ν :=
  collect (fun e => some e.1) Prod.snd pairs

theorem ofPairs_concat {pairs : List (κ × ν)} {e : κ × ν} :
    ofPairs (pairs ++ [e]) = (ofPairs pairs).set e.1 e.2 := by
  simp only [ofPairs, collect, List.foldl_concat]

/-- Its keys are those of the pairs. -/
theorem mem_keys_ofPairs {pairs : List (κ × ν)} :
    k ∈ (ofPairs pairs).keys ↔ k ∈ pairs.map Prod.fst := by
  rw [mem_keys, List.mem_map]
  constructor
  · rintro ⟨v, hv⟩
    obtain ⟨e, he, hkey, -⟩ := mem_of_get?_collect hv
    exact ⟨e, he, Option.some.inj hkey⟩
  · rintro ⟨e, he, rfl⟩
    cases hget : (ofPairs pairs).get? e.1 with
    | some v => exact ⟨v, rfl⟩
    | none =>
        exfalso
        induction pairs using List.reverseRecOn with
        | nil => cases he
        | append_singleton pairs e' ih =>
            rw [ofPairs_concat, get?_set] at hget
            split at hget
            case isTrue => cases hget
            case isFalse hne =>
              obtain he | he := List.mem_append.mp he
              · exact ih he hget
              · exact hne (congrArg Prod.fst (List.mem_singleton.mp he))

/-- With distinct keys it has the pairs as its entries. -/
theorem entries_ofPairs {pairs : List (κ × ν)} (hnodup : (pairs.map Prod.fst).Nodup) :
    (ofPairs pairs).entries = pairs := by
  induction pairs using List.reverseRecOn with
  | nil => rfl
  | append_singleton pairs e ih =>
      rw [List.map_append, List.nodup_append'] at hnodup
      obtain ⟨hnodup, -, hdisjoint⟩ := hnodup
      have hnew : e.1 ∉ (ofPairs pairs).keys := fun h =>
        hdisjoint (mem_keys_ofPairs.mp h) (List.mem_singleton_self e.1)
      rw [ofPairs_concat, set, dif_neg hnew]
      show (ofPairs pairs).entries ++ [e] = pairs ++ [e]
      rw [ih hnodup]

end

/-! ## Removal -/

/-- `d.pop(k)` -/
def erase (d : OrderedDict κ ν) (k : κ) : OrderedDict κ ν :=
  ⟨d.entries.filter fun e => e.1 ≠ k, d.nodup.sublist (List.filter_sublist.map _)⟩

theorem get?_erase {d : OrderedDict κ ν} {k k' : κ} :
    (d.erase k).get? k' = if k' = k then none else d.get? k' := by
  refine ext_get? fun w => ?_
  simp only [erase, ne_eq, decide_not, List.mem_filter, Bool.not_eq_true',
    decide_eq_false_iff_not]
  by_cases h : k' = k <;> simp [h, get?_eq_some]

@[simp] theorem get?_erase_self {d : OrderedDict κ ν} {k : κ} : (d.erase k).get? k = none := by
  rw [get?_erase, if_pos rfl]

theorem get?_erase_ne {d : OrderedDict κ ν} {k k' : κ} (h : k' ≠ k) :
    (d.erase k).get? k' = d.get? k' := by rw [get?_erase, if_neg h]

theorem size_erase_le {d : OrderedDict κ ν} {k : κ} : (d.erase k).size ≤ d.size :=
  List.length_filter_le _ _

theorem size_erase_lt {d : OrderedDict κ ν} {k : κ} {v : ν} (h : d.get? k = some v) :
    (d.erase k).size < d.size := by
  exact List.length_filter_lt_length_iff_exists.mpr
    ⟨(k, v), get?_eq_some.mp h, by simp⟩

/-! ## Taking the oldest entry -/

/-- What is left after taking the oldest entry is the dictionary without its key. -/
theorem popFirst_spec {d d' : OrderedDict κ ν} {k : κ} {v : ν}
    (h : d.popFirst = some ((k, v), d')) : d.get? k = some v ∧ d' = d.erase k := by
  rcases d with ⟨_ | ⟨e, rest⟩, hnd⟩
  · cases h
  · obtain ⟨rfl, rfl⟩ : e = (k, v) ∧ ⟨rest, _⟩ = d' := by simpa [popFirst] using h
    refine ⟨get?_eq_some.mpr List.mem_cons_self, ext ?_⟩
    have hk : ∀ x ∈ rest, (decide (x.1 ≠ k)) = true := fun x hx => by
      have := (List.nodup_cons.mp hnd).1
      simp only [decide_eq_true_eq]
      exact fun he => this (List.mem_map.mpr ⟨x, hx, he⟩)
    simp only [erase, List.filter_cons]
    rw [if_neg (by simp), List.filter_eq_self.mpr hk]

end OrderedDict

end Lib

import Mathlib.Data.List.Nodup

namespace Kit

universe u v

/-- Named, so that membership among texts is decided by the same instance in every module. -/
instance textLawful : LawfulBEq (List Char) := inferInstance

/-- A dictionary that iterates in the order in which its keys were first set. -/
structure Dict (κ : Type u) (ν : Type v) where
  entries : List (κ × ν)
  nodup : (entries.map Prod.fst).Nodup

namespace Dict

variable {κ : Type u} {ν : Type v}

instance [DecidableEq κ] [DecidableEq ν] : DecidableEq (Dict κ ν) := fun left right =>
  decidable_of_iff (left.entries = right.entries)
    ⟨fun same => by cases left; cases right; cases same; rfl, fun same => same ▸ rfl⟩

def empty : Dict κ ν := ⟨[], List.nodup_nil⟩

instance : Inhabited (Dict κ ν) := ⟨empty⟩

def keys (d : Dict κ ν) : List κ := d.entries.map Prod.fst

def values (d : Dict κ ν) : List ν := d.entries.map Prod.snd

theorem keys_nodup (d : Dict κ ν) : d.keys.Nodup := d.nodup

/-- Replace the values and keep the keys and their order. -/
def mapValues {ν' : Type v} (f : κ → ν → ν') (d : Dict κ ν) : Dict κ ν' where
  entries := d.entries.map fun entry => (entry.1, f entry.1 entry.2)
  nodup := by
    rw [List.map_map]
    exact d.nodup

theorem keys_mapValues {ν' : Type v} (f : κ → ν → ν') (d : Dict κ ν) :
    (d.mapValues f).keys = d.keys := by
  simp [keys, mapValues, Function.comp_def]

variable [DecidableEq κ]

/-- Update in place when the key is there, append otherwise. -/
def setEntries (k : κ) (v : ν) : List (κ × ν) → List (κ × ν)
  | [] => [(k, v)]
  | entry :: rest => if entry.1 = k then (k, v) :: rest else entry :: setEntries k v rest

theorem keys_setEntries (k : κ) (v : ν) (entries : List (κ × ν)) :
    (setEntries k v entries).map Prod.fst =
      if k ∈ entries.map Prod.fst then entries.map Prod.fst else entries.map Prod.fst ++ [k] := by
  induction entries with
  | nil => simp [setEntries]
  | cons entry rest ih =>
    by_cases same : entry.1 = k
    · simp [setEntries, same]
    · have other : k ≠ entry.1 := Ne.symm same
      simp only [setEntries, same, if_false, List.map_cons, ih, List.mem_cons, other, false_or]
      split <;> simp

theorem nodup_setEntries (k : κ) (v : ν) (entries : List (κ × ν)) (nodup : (entries.map Prod.fst).Nodup) :
    ((setEntries k v entries).map Prod.fst).Nodup := by
  rw [keys_setEntries]
  split
  · exact nodup
  · rename_i absent
    rw [← List.concat_eq_append]
    exact nodup.concat absent

def get? (d : Dict κ ν) (k : κ) : Option ν := (d.entries.find? fun entry => entry.1 = k).map Prod.snd

def contains (d : Dict κ ν) (k : κ) : Bool := (d.get? k).isSome

def set (d : Dict κ ν) (k : κ) (v : ν) : Dict κ ν :=
  ⟨setEntries k v d.entries, nodup_setEntries k v d.entries d.nodup⟩

def erase (d : Dict κ ν) (k : κ) : Dict κ ν where
  entries := d.entries.filter fun entry => entry.1 ≠ k
  nodup := d.nodup.sublist (List.filter_sublist.map _)

@[simp] theorem get?_empty (k : κ) : (empty : Dict κ ν).get? k = none := rfl

theorem find?_setEntries (k key : κ) (v : ν) (entries : List (κ × ν)) :
    ((setEntries k v entries).find? fun entry => entry.1 = key).map Prod.snd =
      if key = k then some v else (entries.find? fun entry => entry.1 = key).map Prod.snd := by
  induction entries with
  | nil =>
    by_cases same : key = k
    · simp [setEntries, same]
    · simp [setEntries, same, Ne.symm same]
  | cons entry rest ih =>
    by_cases here : entry.1 = k
    · by_cases same : key = k
      · simp [setEntries, here, same]
      · simp [setEntries, here, same, Ne.symm same]
    · by_cases found : entry.1 = key
      · have other : key ≠ k := fun same => here (found.trans same)
        simp [setEntries, found, other]
      · simpa [setEntries, here, found] using ih

theorem get?_set (d : Dict κ ν) (k key : κ) (v : ν) :
    (d.set k v).get? key = if key = k then some v else d.get? key :=
  find?_setEntries k key v d.entries

@[simp] theorem get?_set_self (d : Dict κ ν) (k : κ) (v : ν) : (d.set k v).get? k = some v := by
  simp [get?_set]

theorem get?_set_ne (d : Dict κ ν) {k key : κ} (v : ν) (other : key ≠ k) :
    (d.set k v).get? key = d.get? key := by
  simp [get?_set, other]

theorem set_set (d : Dict κ ν) (k : κ) (first second : ν) : (d.set k first).set k second = d.set k second := by
  have entries (list : List (κ × ν)) : setEntries k second (setEntries k first list) = setEntries k second list := by
    induction list with
    | nil => simp [setEntries]
    | cons entry rest ih =>
      by_cases here : entry.1 = k
      · simp [setEntries, here]
      · simp [setEntries, here, ih]
  exact Dict.mk.injEq .. |>.mpr (entries d.entries)

theorem setEntries_of_absent {k : κ} {v : ν} {entries : List (κ × ν)} (absent : k ∉ entries.map Prod.fst) :
    setEntries k v entries = entries ++ [(k, v)] := by
  induction entries with
  | nil => rfl
  | cons entry rest ih =>
    rw [List.map_cons, List.mem_cons, not_or] at absent
    rw [setEntries, if_neg (Ne.symm absent.1), ih absent.2, List.cons_append]

theorem entries_set_of_absent {d : Dict κ ν} {k : κ} {v : ν} (absent : k ∉ d.keys) :
    (d.set k v).entries = d.entries ++ [(k, v)] := setEntries_of_absent absent

theorem get?_set_cases {d : Dict κ ν} {k key : κ} {v found : ν} (there : (d.set k v).get? key = some found) :
    key = k ∧ found = v ∨ key ≠ k ∧ d.get? key = some found := by
  rw [get?_set] at there
  split at there
  · rename_i here
    exact .inl ⟨here, (Option.some.inj there).symm⟩
  · rename_i different
    exact .inr ⟨different, there⟩

theorem get?_erase (d : Dict κ ν) (k key : κ) :
    (d.erase k).get? key = if key = k then none else d.get? key := by
  by_cases same : key = k
  · simp only [get?, erase, same, if_true, Option.map_eq_none_iff, List.find?_eq_none]
    simp
  · have agree : (fun entry : κ × ν => decide (decide (entry.1 ≠ k) = true ∧ decide (entry.1 = key) = true)) =
        fun entry => decide (entry.1 = key) := by
      funext entry
      by_cases here : entry.1 = key <;> simp [here, same]
    simp only [get?, erase, same, if_false, List.find?_filter, agree]

@[simp] theorem get?_erase_self (d : Dict κ ν) (k : κ) : (d.erase k).get? k = none := by
  simp [get?_erase]

theorem get?_eq_some_iff (d : Dict κ ν) (k : κ) (v : ν) : d.get? k = some v ↔ (k, v) ∈ d.entries := by
  obtain ⟨entries, nodup⟩ := d
  simp only [get?]
  induction entries with
  | nil => simp
  | cons entry rest ih =>
    simp only [List.map_cons, List.nodup_cons] at nodup
    by_cases here : entry.1 = k
    · have absent : (k, v) ∉ rest := fun member =>
        nodup.1 (here ▸ List.mem_map_of_mem (f := Prod.fst) member)
      obtain ⟨key, value⟩ := entry
      cases here
      simp [absent, eq_comm]
    · have other : (k, v) ≠ entry := fun same => here (same ▸ rfl)
      simpa [here, other] using ih nodup.2

theorem mem_keys_iff (d : Dict κ ν) (k : κ) : k ∈ d.keys ↔ ∃ v, d.get? k = some v := by
  simp [get?_eq_some_iff, keys]

theorem contains_iff (d : Dict κ ν) (k : κ) : d.contains k = true ↔ k ∈ d.keys := by
  rw [contains, Option.isSome_iff_exists, mem_keys_iff]

theorem get?_eq_none_iff (d : Dict κ ν) (k : κ) : d.get? k = none ↔ k ∉ d.keys := by
  rw [mem_keys_iff, Option.eq_none_iff_forall_ne_some, not_exists]

theorem keys_set (d : Dict κ ν) (k : κ) (v : ν) :
    (d.set k v).keys = if k ∈ d.keys then d.keys else d.keys ++ [k] :=
  keys_setEntries k v d.entries

theorem mem_keys_set (d : Dict κ ν) (k key : κ) (v : ν) :
    key ∈ (d.set k v).keys ↔ key = k ∨ key ∈ d.keys := by
  rw [keys_set]
  split
  · rename_i member
    constructor
    · exact .inr
    · rintro (rfl | there)
      · exact member
      · exact there
  · simp [or_comm]

theorem keys_erase (d : Dict κ ν) (k : κ) : (d.erase k).keys = d.keys.filter (· ≠ k) := by
  simp [keys, erase, List.filter_map, Function.comp_def]

theorem mem_keys_erase (d : Dict κ ν) (k key : κ) :
    key ∈ (d.erase k).keys ↔ key ∈ d.keys ∧ key ≠ k := by
  simp [keys_erase]

theorem get?_mapValues {ν' : Type v} (f : κ → ν → ν') (d : Dict κ ν) (k : κ) :
    (d.mapValues f).get? k = (d.get? k).map (f k) := by
  simp only [get?, mapValues, List.find?_map, Option.map_map]
  cases found : d.entries.find? fun entry => entry.1 = k with
  | none => simp [Function.comp_def, found]
  | some entry =>
    have here : entry.1 = k := by simpa using List.find?_some found
    simp [Function.comp_def, found, here]

theorem mem_values_of_get? (d : Dict κ ν) {k : κ} {v : ν} (found : d.get? k = some v) : v ∈ d.values :=
  List.mem_map_of_mem (f := Prod.snd) ((get?_eq_some_iff d k v).mp found)

def filter (keep : κ → ν → Bool) (d : Dict κ ν) : Dict κ ν where
  entries := d.entries.filter fun entry => keep entry.1 entry.2
  nodup := d.nodup.sublist (List.filter_sublist.map _)

theorem get?_filter (keep : κ → ν → Bool) (d : Dict κ ν) (k : κ) :
    (d.filter keep).get? k = (d.get? k).filter (keep k) := by
  ext v
  rw [Option.filter_eq_some_iff, get?_eq_some_iff, get?_eq_some_iff, filter, List.mem_filter]

/-- Equality of dictionaries as Python compares them: the order of the keys does not count. -/
def Same (left right : Dict κ ν) : Prop := ∀ k, left.get? k = right.get? k

theorem Same.refl (d : Dict κ ν) : Same d d := fun _ => rfl

theorem Same.set {left right : Dict κ ν} (same : Same left right) (k : κ) (v : ν) :
    Same (left.set k v) (right.set k v) := by
  intro key
  rw [get?_set, get?_set, same key]

end Dict

end Kit

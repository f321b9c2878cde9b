import Mathlib.Data.List.Perm.Subperm
import ClaudeProxy.Kit.Dict
import ClaudeProxy.Kit.PyFloat

namespace Kit

/-- A value as `json.loads` makes it. -/
inductive PyValue where
  | none
  | bool (value : Bool)
  | int (value : Int)
  | float (value : PyFloat)
  | string (value : List Char)
  | list (items : List PyValue)
  | dict (entries : List (List Char × PyValue))

namespace PyValue

def isNone : PyValue → Bool
  | .none => true
  | _ => false

/-- The number that a value is compared as. -/
def number? : PyValue → Option PyFloat
  | .bool value => some (.finite (if value then 1 else 0))
  | .int value => some (.finite value)
  | .float value => some value
  | _ => Option.none

def string? : PyValue → Option (List Char)
  | .string value => some value
  | _ => Option.none

def items? : PyValue → Option (List PyValue)
  | .list items => some items
  | _ => Option.none

def entries? : PyValue → Option (List (List Char × PyValue))
  | .dict entries => some entries
  | _ => Option.none

def lookup (key : List Char) (entries : List (List Char × PyValue)) : Option PyValue :=
  (entries.find? fun entry => entry.1 = key).map Prod.snd

mutual

/-- `==`. Numbers are compared by value, whatever their types; the order of a dictionary does not count. -/
def eq : PyValue → PyValue → Bool
  | .none, other => other.isNone
  | .bool value, other => other.number?.any (PyFloat.eq (.finite (if value then 1 else 0)))
  | .int value, other => other.number?.any (PyFloat.eq (.finite value))
  | .float value, other => other.number?.any (PyFloat.eq value)
  | .string value, other => other.string? = some value
  | .list items, other =>
    match other.items? with
    | some others => eqItems items others
    | Option.none => false
  | .dict entries, other =>
    match other.entries? with
    | some others => entries.length = others.length && eqEntries entries others
    | Option.none => false

def eqItems : List PyValue → List PyValue → Bool
  | [], others => others.isEmpty
  | item :: items, others =>
    match others with
    | [] => false
    | other :: others => eq item other && eqItems items others

/-- Every key has an equal value in the other dictionary. -/
def eqEntries : List (List Char × PyValue) → List (List Char × PyValue) → Bool
  | [], _ => true
  | (key, value) :: entries, others =>
    (match lookup key others with
      | some other => eq value other
      | Option.none => false) && eqEntries entries others

end

mutual

/-- No `nan` in it, and the keys of a dictionary are distinct. -/
def Sound : PyValue → Prop
  | .none => True
  | .bool _ => True
  | .int _ => True
  | .float value => value ≠ .nan
  | .string _ => True
  | .list items => SoundItems items
  | .dict entries => (entries.map Prod.fst).Nodup ∧ SoundEntries entries

def SoundItems : List PyValue → Prop
  | [] => True
  | item :: items => Sound item ∧ SoundItems items

def SoundEntries : List (List Char × PyValue) → Prop
  | [] => True
  | (_, value) :: entries => Sound value ∧ SoundEntries entries

end

theorem lookup_eq_some_iff {entries : List (List Char × PyValue)} (distinct : (entries.map Prod.fst).Nodup) {key : List Char}
    {value : PyValue} : lookup key entries = some value ↔ (key, value) ∈ entries :=
  Dict.get?_eq_some_iff ⟨entries, distinct⟩ key value

theorem eqItems_iff {items others : List PyValue} :
    eqItems items others = true ↔ List.Forall₂ (fun item other => item.eq other = true) items others := by
  induction items generalizing others with
  | nil =>
    rw [eqItems, List.isEmpty_iff, List.forall₂_nil_left_iff]
  | cons item items ih =>
    cases others with
    | nil => simp [eqItems]
    | cons other others => rw [eqItems, Bool.and_eq_true, ih, List.forall₂_cons]

theorem eqEntries_iff {entries others : List (List Char × PyValue)} :
    eqEntries entries others = true ↔
      ∀ entry ∈ entries, ∃ other, lookup entry.1 others = some other ∧ entry.2.eq other = true := by
  induction entries with
  | nil => simp [eqEntries]
  | cons entry entries ih =>
    rw [eqEntries, Bool.and_eq_true, ih, List.forall_mem_cons]
    cases found : lookup entry.1 others with
    | none => simp
    | some other => simp

theorem eq_dict_iff {entries others : List (List Char × PyValue)} :
    (PyValue.dict entries).eq (.dict others) = true ↔ entries.length = others.length ∧
      ∀ entry ∈ entries, ∃ other, lookup entry.1 others = some other ∧ entry.2.eq other = true := by
  rw [← eqEntries_iff, eq, entries?, Bool.and_eq_true, decide_eq_true_eq]

theorem soundItems_iff {items : List PyValue} : SoundItems items ↔ ∀ item ∈ items, Sound item := by
  induction items with
  | nil => simp [SoundItems]
  | cons item items ih => rw [SoundItems, ih, List.forall_mem_cons]

theorem soundEntries_iff {entries : List (List Char × PyValue)} :
    SoundEntries entries ↔ ∀ entry ∈ entries, Sound entry.2 := by
  induction entries with
  | nil => simp [SoundEntries]
  | cons entry entries ih => rw [SoundEntries, ih, List.forall_mem_cons]

mutual

theorem eq_self : ∀ value : PyValue, Sound value → value.eq value = true
  | .none, _ => rfl
  | .bool _, _ => PyFloat.eq_self PyFloat.noConfusion
  | .int _, _ => PyFloat.eq_self PyFloat.noConfusion
  | .float _, sound => PyFloat.eq_self sound
  | .string _, _ => by simp [eq, string?]
  | .list items, sound => by
    rw [eq, items?]
    exact eqItems_iff.mpr (List.forall₂_same.mpr (eq_self_items items sound))
  | .dict entries, sound => by
    rw [Sound] at sound
    rw [eq_dict_iff]
    refine ⟨rfl, fun entry mem => ⟨entry.2, ?_, ?_⟩⟩
    · exact (lookup_eq_some_iff sound.1).mpr mem
    · exact eq_self_entries entries sound.2 entry mem

theorem eq_self_items : ∀ items : List PyValue, SoundItems items → ∀ item ∈ items, item.eq item = true
  | [], _ => fun _ mem => absurd mem List.not_mem_nil
  | item :: items, sound => List.forall_mem_cons.mpr ⟨eq_self item sound.1, eq_self_items items sound.2⟩

theorem eq_self_entries : ∀ entries : List (List Char × PyValue), SoundEntries entries →
    ∀ entry ∈ entries, entry.2.eq entry.2 = true
  | [], _ => fun _ mem => absurd mem List.not_mem_nil
  | (_, value) :: entries, sound => List.forall_mem_cons.mpr ⟨eq_self value sound.1, eq_self_entries entries sound.2⟩

end

theorem number_symm {value other : PyValue} {number : PyFloat} (reads : value.number? = some number)
    (same : other.number?.any (PyFloat.eq number) = true) : other.eq value = true := by
  obtain ⟨_, found, equal⟩ := Option.any_eq_true _ _ |>.mp same
  have back := PyFloat.eq_symm equal
  cases other <;> cases found <;> simpa [eq, reads] using back

mutual

theorem eq_symm : ∀ value other : PyValue, Sound value → Sound other → value.eq other = true → other.eq value = true
  | .none, other, _, _, same => by
    cases other <;> first | rfl | cases same
  | .bool _, _, _, _, same => number_symm rfl same
  | .int _, _, _, _, same => number_symm rfl same
  | .float _, _, _, _, same => number_symm rfl same
  | .string text, other, _, _, same => by
    rw [eq, decide_eq_true_eq] at same
    cases other with
    | string text' =>
      cases same
      simp [eq, string?]
    | _ => cases same
  | .list items, other, sound, soundOther, same => by
    cases other with
    | list others =>
      rw [eq, items?] at same ⊢
      rw [eqItems_iff] at same ⊢
      exact eq_symm_items items others sound (soundItems_iff.mp soundOther) same
    | _ => cases same
  | .dict entries, other, sound, soundOther, same => by
    cases other with
    | dict others =>
      rw [Sound] at sound soundOther
      rw [eq_dict_iff] at same ⊢
      refine ⟨same.1.symm, fun other mem => ?_⟩
      -- keys that are distinct and as many as the others are all of them
      have subset : entries.map Prod.fst ⊆ others.map Prod.fst := by
        intro key there
        obtain ⟨entry, mem, rfl⟩ := List.mem_map.mp there
        obtain ⟨value, found, -⟩ := same.2 entry mem
        exact List.mem_map.mpr ⟨_, (lookup_eq_some_iff soundOther.1).mp found, rfl⟩
      have perm := (sound.1.subperm subset).perm_of_length_le (by simp [same.1])
      obtain ⟨entry, there, key⟩ := List.mem_map.mp (perm.mem_iff.mpr (List.mem_map_of_mem mem))
      obtain ⟨value, found, equal⟩ := same.2 entry there
      rw [key, (lookup_eq_some_iff soundOther.1).mpr mem] at found
      refine ⟨entry.2, (lookup_eq_some_iff sound.1).mpr (key ▸ there), ?_⟩
      rw [← Option.some.inj found] at equal
      exact eq_symm_entries entries sound.2 entry there other.2 (soundEntries_iff.mp soundOther.2 other mem) equal
    | _ => cases same

theorem eq_symm_items : ∀ items others : List PyValue, SoundItems items → (∀ other ∈ others, Sound other) →
    List.Forall₂ (fun item other => item.eq other = true) items others →
    List.Forall₂ (fun item other => item.eq other = true) others items
  | [], others, _, _, same => by
    rw [List.forall₂_nil_left_iff.mp same]
    exact .nil
  | item :: items, others, sound, soundOthers, same => by
    obtain ⟨other, rest, one, all, rfl⟩ := List.forall₂_cons_left_iff.mp same
    obtain ⟨here, later⟩ := List.forall_mem_cons.mp soundOthers
    exact .cons (eq_symm item other sound.1 here one) (eq_symm_items items rest sound.2 later all)

theorem eq_symm_entries : ∀ entries : List (List Char × PyValue), SoundEntries entries →
    ∀ entry ∈ entries, ∀ other, Sound other → entry.2.eq other = true → other.eq entry.2 = true
  | [], _ => fun _ mem => absurd mem List.not_mem_nil
  | (_, value) :: entries, sound =>
    List.forall_mem_cons.mpr ⟨fun other soundOther => eq_symm value other sound.1 soundOther,
      eq_symm_entries entries sound.2⟩

end

theorem eq_comm {value other : PyValue} (sound : Sound value) (soundOther : Sound other) : value.eq other = other.eq value :=
  Bool.eq_iff_iff.mpr ⟨eq_symm value other sound soundOther, eq_symm other value soundOther sound⟩

end PyValue

end Kit

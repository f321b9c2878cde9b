import Mathlib.Data.List.Sort
import ClaudeProxy.Kit.JsonText

namespace Kit.Json

def keyLe (a b : List Char × Json) : Bool := ¬ b.1 < a.1

mutual

/-- The members of every object in the order of `sort_keys`. -/
def sortKeys : Json → Json
  | .object members => .object ((sortKeysMembers members).mergeSort keyLe)
  | .array items => .array (sortKeysItems items)
  | .string value => .string value
  | .number literal => .number literal
  | .integer value => .integer value
  | .bool value => .bool value
  | .null => .null

def sortKeysItems : List Json → List Json
  | [] => []
  | item :: rest => sortKeys item :: sortKeysItems rest

def sortKeysMembers : List (List Char × Json) → List (List Char × Json)
  | [] => []
  | (key, value) :: rest => (key, sortKeys value) :: sortKeysMembers rest

end

/-- The same value up to the order of keys. -/
def Same (a b : Json) : Prop := a.sortKeys = b.sortKeys

def sortedMembers (members : List (List Char × Json)) : List (List Char × Json) :=
  (sortKeysMembers members).mergeSort keyLe

theorem keyLe_trans (a b c : List Char × Json) (first : keyLe a b = true) (second : keyLe b c = true) :
    keyLe a c = true := by
  simp only [keyLe, decide_eq_true_eq] at first second ⊢
  exact List.not_lt.mpr (List.le_trans (List.not_lt.mp first) (List.not_lt.mp second))

theorem keyLe_total (a b : List Char × Json) : (keyLe a b || keyLe b a) = true := by
  rw [Bool.or_eq_true]
  simp only [keyLe, decide_eq_true_eq]
  rcases List.le_total a.1 b.1 with below | above
  · exact .inl (List.not_lt.mpr below)
  · exact .inr (List.not_lt.mpr above)

theorem map_fst_sortKeysMembers (members : List (List Char × Json)) :
    (sortKeysMembers members).map Prod.fst = members.map Prod.fst := by
  induction members with
  | nil => rfl
  | cons member rest ih => exact congrArg (member.1 :: ·) ih

theorem sortKeysMembers_eq (members : List (List Char × Json)) :
    sortKeysMembers members = members.map fun member => (member.1, sortKeys member.2) := by
  induction members with
  | nil => rfl
  | cons member rest ih => exact congrArg ((member.1, sortKeys member.2) :: ·) ih

mutual

theorem decoded_sortKeys : ∀ value : Json, Decoded value → Decoded value.sortKeys
  | .null, decoded => decoded
  | .bool _, decoded => decoded
  | .integer _, decoded => decoded
  | .number _, decoded => decoded
  | .string _, decoded => decoded
  | .array items, decoded => by
    rw [Decoded] at decoded
    rw [sortKeys, Decoded, decodedItems_iff]
    exact decodedItems_sortKeys items decoded
  | .object members, decoded => by
    rw [Decoded] at decoded
    have perm := List.mergeSort_perm (sortKeysMembers members) keyLe
    rw [sortKeys, decoded_object]
    constructor
    · rw [(perm.map Prod.fst).nodup_iff, map_fst_sortKeysMembers]
      exact decoded.1
    · intro member mem
      exact decodedMembers_sortKeys members decoded.2 member (perm.mem_iff.mp mem)

theorem decodedItems_sortKeys : ∀ items : List Json, DecodedItems items → ∀ item ∈ sortKeysItems items, Decoded item
  | [], _ => fun _ mem => absurd mem List.not_mem_nil
  | item :: rest, decoded =>
    List.forall_mem_cons.mpr ⟨decoded_sortKeys item decoded.1, decodedItems_sortKeys rest decoded.2⟩

theorem decodedMembers_sortKeys : ∀ members : List (List Char × Json), DecodedMembers members →
    ∀ member ∈ sortKeysMembers members, Decoded member.2
  | [], _ => fun _ mem => absurd mem List.not_mem_nil
  | (_, value) :: rest, decoded =>
    List.forall_mem_cons.mpr ⟨decoded_sortKeys value decoded.1, decodedMembers_sortKeys rest decoded.2⟩

end

mutual

theorem sortKeys_sortKeys : ∀ value : Json, value.sortKeys.sortKeys = value.sortKeys
  | .null => rfl
  | .bool _ => rfl
  | .integer _ => rfl
  | .number _ => rfl
  | .string _ => rfl
  | .array items => by rw [sortKeys, sortKeys, sortKeysItems_sortKeysItems items]
  | .object members => by
    have sorted := List.pairwise_mergeSort keyLe_trans keyLe_total (sortKeysMembers members)
    have same : sortKeysMembers ((sortKeysMembers members).mergeSort keyLe) = (sortKeysMembers members).mergeSort keyLe := by
      rw [sortKeysMembers_eq]
      conv_rhs => rw [← List.map_id ((sortKeysMembers members).mergeSort keyLe)]
      apply List.map_congr_left
      intro member mem
      have value := sortKeysMembers_fixed members member (List.mem_mergeSort.mp mem)
      exact Prod.ext rfl value
    rw [sortKeys, sortKeys, same, List.mergeSort_of_pairwise sorted]

theorem sortKeysItems_sortKeysItems : ∀ items : List Json, sortKeysItems (sortKeysItems items) = sortKeysItems items
  | [] => rfl
  | item :: rest => by
    rw [sortKeysItems, sortKeysItems, sortKeys_sortKeys item, sortKeysItems_sortKeysItems rest]

theorem sortKeysMembers_fixed : ∀ members : List (List Char × Json),
    ∀ member ∈ sortKeysMembers members, member.2.sortKeys = member.2
  | [] => fun _ mem => absurd mem List.not_mem_nil
  | (_, value) :: rest => List.forall_mem_cons.mpr ⟨sortKeys_sortKeys value, sortKeysMembers_fixed rest⟩

end

theorem same_sortKeys (value : Json) : Same value.sortKeys value := sortKeys_sortKeys value

/-- An object is sorted into the same, whatever the order of its distinct keys. -/
theorem sortedMembers_of_perm {members others : List (List Char × Json)} (distinct : (members.map Prod.fst).Nodup)
    (perm : members.Perm others) : sortedMembers members = sortedMembers others := by
  have sorted (members : List (List Char × Json)) :
      (sortedMembers members).Pairwise fun a b => keyLe a b = true := List.pairwise_mergeSort keyLe_trans keyLe_total _
  have pieces : (sortedMembers members).Perm (sortedMembers others) := by
    rw [sortedMembers, sortedMembers, sortKeysMembers_eq, sortKeysMembers_eq]
    exact (List.mergeSort_perm ..).trans ((perm.map _).trans (List.mergeSort_perm ..).symm)
  have keys : ((sortedMembers members).map Prod.fst).Nodup := by
    rw [sortedMembers, ((List.mergeSort_perm _ _).map Prod.fst).nodup_iff, map_fst_sortKeysMembers]
    exact distinct
  refine pieces.eq_of_pairwise (fun a b here there below above => ?_) (sorted members) (sorted others)
  simp only [keyLe, decide_eq_true_eq] at below above
  exact List.inj_on_of_nodup_map keys here (pieces.mem_iff.mpr there)
    (List.le_antisymm (List.not_lt.mp below) (List.not_lt.mp above))

theorem getMember_of_mem {members : List (List Char × Json)} (distinct : (members.map Prod.fst).Nodup) {key : List Char}
    {value : Json} (mem : (key, value) ∈ members) : getMember key members = some value := by
  induction members with
  | nil => cases mem
  | cons member rest ih =>
    rw [List.map_cons, List.nodup_cons] at distinct
    rcases List.mem_cons.mp mem with rfl | later
    · simp [getMember]
    · have other : member.1 ≠ key := by
        rintro rfl
        exact distinct.1 (List.mem_map.mpr ⟨_, later, rfl⟩)
      have found := ih distinct.2 later
      simpa [getMember, other] using found

theorem mem_of_getMember {members : List (List Char × Json)} {key : List Char} {value : Json}
    (found : getMember key members = some value) : (key, value) ∈ members := by
  obtain ⟨member, there, rfl⟩ := Option.map_eq_some_iff.mp found
  have mem := List.mem_of_find?_eq_some there
  have same : member.1 = key := by simpa using List.find?_some there
  rw [← same]
  exact mem

theorem getMember_sortedMembers {members : List (List Char × Json)} (distinct : (members.map Prod.fst).Nodup)
    {key : List Char} {value : Json} (found : getMember key members = some value) :
    getMember key (sortedMembers members) = some value.sortKeys := by
  have perm : (sortedMembers members).Perm (sortKeysMembers members) := List.mergeSort_perm _ _
  apply getMember_of_mem
  · rw [(perm.map Prod.fst).nodup_iff, map_fst_sortKeysMembers]
    exact distinct
  · rw [perm.mem_iff, sortKeysMembers_eq]
    exact List.mem_map.mpr ⟨_, mem_of_getMember found, rfl⟩

end Kit.Json

import Mathlib.Data.List.Nodup
import Mathlib.Logic.Relation

namespace Kit

universe u v

/-- The rows of a table in the order of their insertion, with the next value of its sequence. -/
structure SerialTable (ρ : Type u) where
  rows : List ρ
  next : Int

namespace SerialTable

variable {ρ : Type u} {κ : Type v} {id : ρ → Int} {fixed : ρ → κ}

/-- Ids ascend, and the sequence is ahead of them. -/
structure Serial (id : ρ → Int) (table : SerialTable ρ) : Prop where
  ascending : table.rows.Pairwise fun earlier later => id earlier < id later
  ahead : ∀ row ∈ table.rows, id row < table.next

/-- What one statement does to a table. What is `fixed` no update changes. -/
inductive Written (id : ρ → Int) (fixed : ρ → κ) (table : SerialTable ρ) : SerialTable ρ → Prop where
  | keep : Written id fixed table table
  | insert (row : ρ) (numbered : id row = table.next) : Written id fixed table ⟨table.rows ++ [row], table.next + 1⟩
  | update (change : ρ → ρ) (same : ∀ row ∈ table.rows, id (change row) = id row ∧ fixed (change row) = fixed row) :
      Written id fixed table ⟨table.rows.map change, table.next⟩
  | delete (keeps : ρ → Bool) : Written id fixed table ⟨table.rows.filter keeps, table.next⟩

theorem Serial.empty (next : Int) : Serial id (⟨[], next⟩ : SerialTable ρ) := ⟨.nil, fun _ mem => absurd mem List.not_mem_nil⟩

theorem Serial.written {table after : SerialTable ρ} (serial : Serial id table) (written : Written id fixed table after) :
    Serial id after := by
  cases written with
  | keep => exact serial
  | insert row numbered =>
    constructor
    · refine List.pairwise_append.mpr ⟨serial.ascending, List.pairwise_singleton _ _, ?_⟩
      intro earlier mem later last
      rw [List.mem_singleton.mp last, numbered]
      exact serial.ahead earlier mem
    · intro other mem
      rcases List.mem_append.mp mem with old | last
      · exact Int.lt_trans (serial.ahead other old) (Int.lt_succ _)
      · rw [List.mem_singleton.mp last, numbered]
        exact Int.lt_succ _
  | update change same =>
    constructor
    · refine List.pairwise_map.mpr (serial.ascending.imp_of_mem fun {earlier later} first second less => ?_)
      rwa [(same earlier first).1, (same later second).1]
    · intro row mem
      obtain ⟨old, here, rfl⟩ := List.mem_map.mp mem
      rw [(same old here).1]
      exact serial.ahead old here
  | delete keeps => exact ⟨serial.ascending.filter _, fun row mem => serial.ahead row (List.mem_of_mem_filter mem)⟩

theorem Written.next_le {table after : SerialTable ρ} (written : Written id fixed table after) : table.next ≤ after.next := by
  cases written with
  | keep | update | delete => exact Int.le_refl _
  | insert row numbered => exact Int.le_of_lt (Int.lt_succ _)

/-- A row with an id that was given out before is a row of before. -/
theorem Written.comes_from {table after : SerialTable ρ} (written : Written id fixed table after) :
    ∀ row ∈ after.rows, id row < table.next → ∃ old ∈ table.rows, id old = id row ∧ fixed old = fixed row := by
  intro row mem given
  cases written with
  | keep => exact ⟨row, mem, rfl, rfl⟩
  | insert new numbered =>
    rcases List.mem_append.mp mem with old | last
    · exact ⟨row, old, rfl, rfl⟩
    · rw [List.mem_singleton.mp last, numbered] at given
      exact absurd given (Int.lt_irrefl _)
  | update change same =>
    obtain ⟨old, here, rfl⟩ := List.mem_map.mp mem
    exact ⟨old, here, (same old here).1.symm, (same old here).2.symm⟩
  | delete keeps => exact ⟨row, List.mem_of_mem_filter mem, rfl, rfl⟩

/-- Over any number of statements an id never comes to stand for another row. -/
theorem comes_from_of_run {table after : SerialTable ρ}
    (run : Relation.ReflTransGen (Written id fixed) table after) :
    table.next ≤ after.next ∧
      ∀ row ∈ after.rows, id row < table.next → ∃ old ∈ table.rows, id old = id row ∧ fixed old = fixed row := by
  induction run with
  | refl => exact ⟨Int.le_refl _, fun row mem _ => ⟨row, mem, rfl, rfl⟩⟩
  | tail before written ih =>
    obtain ⟨behind, from'⟩ := ih
    refine ⟨Int.le_trans behind written.next_le, ?_⟩
    intro row mem given
    obtain ⟨middle, here, same, same'⟩ := written.comes_from row mem (Int.lt_of_lt_of_le given behind)
    rw [← same, ← same']
    exact from' middle here (same ▸ given)

theorem Serial.nodup {table : SerialTable ρ} (serial : Serial id table) : (table.rows.map id).Nodup :=
  List.pairwise_map.mpr (serial.ascending.imp fun less => Int.ne_of_lt less)

theorem Serial.eq_of_id {table : SerialTable ρ} (serial : Serial id table) {first second : ρ} (here : first ∈ table.rows)
    (there : second ∈ table.rows) (same : id first = id second) : first = second :=
  List.inj_on_of_nodup_map serial.nodup here there same

end SerialTable

/-- The rows of a table that belong to one owner. -/
def part {ρ : Type u} {κ : Type v} [DecidableEq κ] (home : ρ → κ) (owner : κ) (rows : List ρ) : List ρ :=
  rows.filter fun row => home row = owner

section Parts

variable {ρ : Type u} {κ : Type v} [DecidableEq κ] {home : ρ → κ} {id : ρ → Int} {owner : κ} {rows : List ρ}

theorem part_insert (new : ρ) :
    part home owner (rows ++ [new]) = if home new = owner then part home owner rows ++ [new] else part home owner rows := by
  unfold part
  rw [List.filter_append]
  split_ifs with here
  · rw [List.filter_singleton, decide_eq_true here]
    rfl
  · rw [List.filter_singleton, decide_eq_false here]
    exact List.append_nil _

/-- A row is replaced by its id and its owner. -/
theorem part_replace {new : ρ} {key : Int} {place : κ} (there : home new = place) :
    part home owner (rows.map fun row => if id row = key ∧ home row = place then new else row) =
      if place = owner then (part home owner rows).map fun row => if id row = key then new else row
      else part home owner rows := by
  induction rows with
  | nil => split_ifs <;> rfl
  | cons row rest ih =>
    unfold part at ih ⊢
    rw [List.map_cons, List.filter_cons, List.filter_cons, ih]
    by_cases here : home row = owner
    · by_cases near : place = owner
      · have both : home row = place := here.trans near.symm
        by_cases same : id row = key
        · simp [here, near, same, there]
        · simp [here, near, same]
      · have apart : ¬(id row = key ∧ home row = place) := fun both => near (both.2.symm.trans here)
        rw [if_neg apart, if_neg near, if_pos (decide_eq_true here), if_neg near]
    · by_cases both : id row = key ∧ home row = place
      · have near : place ≠ owner := fun same => here (both.2.trans same)
        simp [near, both, there]
      · simp only [if_neg both, here, decide_false, Bool.false_eq_true, if_false]

/-- A row is deleted by its id and its owner. -/
theorem part_delete {key : Int} {place : κ} :
    part home owner (rows.filter fun row => ¬(id row = key ∧ home row = place)) =
      if place = owner then (part home owner rows).filter fun row => id row ≠ key else part home owner rows := by
  unfold part
  rw [List.filter_filter]
  split_ifs with near
  · subst near
    rw [List.filter_filter]
    refine List.filter_congr fun row _ => ?_
    by_cases here : home row = place <;> simp [here]
  · refine List.filter_congr fun row _ => ?_
    by_cases here : home row = owner
    · have apart : ¬(id row = key ∧ home row = place) := fun both => near (both.2.symm.trans here)
      rw [decide_eq_true here, decide_eq_true apart]
      rfl
    · simp [here]

theorem part_drop {place : κ} :
    part home owner (rows.filter fun row => home row ≠ place) = if place = owner then [] else part home owner rows := by
  unfold part
  rw [List.filter_filter]
  split_ifs with near
  · subst near
    exact List.filter_eq_nil_iff.mpr (by simp)
  · refine List.filter_congr fun row _ => ?_
    by_cases here : home row = owner
    · have apart : home row ≠ place := fun same => near (same.symm.trans here)
      rw [decide_eq_true here, decide_eq_true apart]
      rfl
    · simp [here]

theorem find?_replace_other {new : ρ} {chosen : ρ → Prop} [DecidablePred chosen] {key : Int}
    (same : ∀ row ∈ rows, chosen row → id row = id new) (other : id new ≠ key) :
    (rows.map fun row => if chosen row then new else row).find? (fun row => id row = key) =
      rows.find? fun row => id row = key := by
  induction rows with
  | nil => rfl
  | cons row rest ih =>
    have tail := ih fun row mem => same row (List.mem_cons_of_mem _ mem)
    rw [List.map_cons, List.find?_cons, List.find?_cons, tail]
    by_cases here : chosen row
    · have apart : id row ≠ key := fun found => other ((same row List.mem_cons_self here).symm.trans found)
      rw [if_pos here, decide_eq_false other, decide_eq_false apart]
    · rw [if_neg here]

theorem find?_replace_self {new : ρ} {chosen : ρ → Prop} [DecidablePred chosen]
    (chosen_of : ∀ row ∈ rows, id row = id new → chosen row) (there : ∃ row ∈ rows, chosen row) :
    (rows.map fun row => if chosen row then new else row).find? (fun row => id row = id new) = some new := by
  induction rows with
  | nil =>
    obtain ⟨row, mem, -⟩ := there
    cases mem
  | cons row rest ih =>
    rw [List.map_cons, List.find?_cons]
    by_cases here : chosen row
    · rw [if_pos here, decide_eq_true rfl]
    · have apart : id row ≠ id new := fun same => here (chosen_of row List.mem_cons_self same)
      rw [if_neg here, decide_eq_false apart]
      refine ih (fun row mem => chosen_of row (List.mem_cons_of_mem _ mem)) ?_
      obtain ⟨row', mem, near⟩ := there
      rcases List.mem_cons.mp mem with rfl | mem
      · exact absurd near here
      · exact ⟨row', mem, near⟩

/-- What is replaced are the rows with the id of the new one. -/
theorem find?_replace {new : ρ} {chosen : ρ → Prop} [DecidablePred chosen] (same : ∀ row ∈ rows, chosen row ↔ id row = id new)
    (there : ∃ row ∈ rows, chosen row) (key : Int) :
    (rows.map fun row => if chosen row then new else row).find? (fun row => id row = key) =
      if id new = key then some new else rows.find? fun row => id row = key := by
  split_ifs with mine
  · subst mine
    exact find?_replace_self (fun row mem => (same row mem).mpr) there
  · exact find?_replace_other (fun row mem => (same row mem).mp) mine

end Parts

end Kit

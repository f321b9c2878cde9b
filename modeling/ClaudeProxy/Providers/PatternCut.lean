import ClaudeProxy.Providers.TextHold
import Mathlib.Data.List.TakeWhile

namespace ClaudeProxy.Providers

open Kit

theorem prefix_append_of_mem {tag u v : Str} {c : Char} (inside : c ∈ u) (outside : c ∉ tag) :
    tag <+: u ++ v ↔ tag <+: u := by
  constructor
  · intro occurs
    rcases Nat.le_total tag.length u.length with fits | long
    · exact prefix_of_prefix_append occurs fits
    · have whole : u <+: tag := List.prefix_of_prefix_length_le (List.prefix_append ..) occurs long
      exact absurd (whole.subset inside) outside
  · exact fun occurs => occurs.trans (List.prefix_append ..)

theorem isPrefixOf_append_of_mem {tag u v : Str} {c : Char} (inside : c ∈ u) (outside : c ∉ tag) :
    tag.isPrefixOf (u ++ v) = tag.isPrefixOf u := by
  rw [Bool.eq_iff_iff, isPrefixOf_iff, isPrefixOf_iff]
  exact prefix_append_of_mem inside outside

theorem groupUpToBracket_split {group : Str} (rest : Str) (clear : '>' ∉ group) :
    groupUpToBracket (group ++ '>' :: rest) = if group = [] then none else some (group, rest) := by
  have taken : (group ++ '>' :: rest).takeWhile (fun c => c ≠ '>') = group := by
    rw [List.takeWhile_append_of_pos]
    · simp
    · intro c member
      exact decide_eq_true fun same => clear (same ▸ member)
  unfold groupUpToBracket
  rw [taken]
  simp

theorem groupUpToBracket_append {u : Str} (v : Str) (bracket : '>' ∈ u) :
    groupUpToBracket (u ++ v) = (groupUpToBracket u).map fun found => (found.1, found.2 ++ v) := by
  obtain ⟨group, rest, rfl, clear⟩ := List.eq_append_cons_of_mem bracket
  rw [groupUpToBracket_split rest clear, List.append_assoc, List.cons_append, groupUpToBracket_split _ clear]
  split <;> rfl

theorem groupUpToBracket_ends {s group rest : Str} (found : groupUpToBracket s = some (group, rest)) :
    ∃ before, s = before ++ '>' :: rest := by
  by_cases bracket : '>' ∈ s
  · obtain ⟨before, tail, rfl, clear⟩ := List.eq_append_cons_of_mem bracket
    rw [groupUpToBracket_split tail clear] at found
    split at found
    · cases found
    · cases found
      exact ⟨group, rfl⟩
  · exfalso
    have whole : s.takeWhile (fun c => c ≠ '>') = s :=
      List.takeWhile_eq_self_iff.mpr fun c member => decide_eq_true fun same => bracket (same ▸ member)
    unfold groupUpToBracket at found
    rw [whole] at found
    simp at found

/-- A pattern that ends with a bracket and looks at nothing beyond the first one. -/
structure BracketPattern (matchAt : Str → Option (Str × Str)) : Prop where
  append : ∀ {u : Str} (v : Str), '>' ∈ u → matchAt (u ++ v) = (matchAt u).map fun found => (found.1, found.2 ++ v)
  ends : ∀ {s name rest : Str}, matchAt s = some (name, rest) → ∃ before, s = before ++ '>' :: rest

theorem tag_append {tag u : Str} (v : Str) (bracket : '>' ∈ u) (clear : '>' ∉ tag) :
    (if tag.isPrefixOf (u ++ v) then groupUpToBracket ((u ++ v).drop tag.length) else none) =
      (if tag.isPrefixOf u then groupUpToBracket (u.drop tag.length) else none).map
        fun found => (found.1, found.2 ++ v) := by
  rw [isPrefixOf_append_of_mem bracket clear]
  by_cases here : tag.isPrefixOf u
  · rw [if_pos here, if_pos here]
    obtain ⟨rest, rfl⟩ := (isPrefixOf_iff ..).mp here
    have later : '>' ∈ rest := (List.mem_append.mp bracket).resolve_left clear
    rw [List.append_assoc, List.drop_left, List.drop_left]
    exact groupUpToBracket_append v later
  · rw [if_neg here, if_neg here, Option.map_none]

theorem tag_ends {tag s name rest : Str}
    (found : (if tag.isPrefixOf s then groupUpToBracket (s.drop tag.length) else none) = some (name, rest)) :
    ∃ before, s = before ++ '>' :: rest := by
  split at found
  · obtain ⟨before, split⟩ := groupUpToBracket_ends found
    refine ⟨s.take tag.length ++ before, ?_⟩
    rw [List.append_assoc, ← split, List.take_append_drop]
  · cases found

theorem functionTag_clear : '>' ∉ "<function=".toList := by decide

theorem parameterTag_clear : '>' ∉ parameterTag := by decide

theorem parameterStartAt_bracket : BracketPattern parameterStartAt :=
  ⟨fun v bracket => tag_append v bracket parameterTag_clear, fun found => tag_ends found⟩

theorem dropWhile_append {test : Char → Bool} {u : Str} (v : Str) {c : Char} (inside : c ∈ u) (stops : test c = false) :
    (u ++ v).dropWhile test = u.dropWhile test ++ v ∧ c ∈ u.dropWhile test := by
  induction u with
  | nil => cases inside
  | cons d rest ih =>
    by_cases skips : test d
    · have later : c ∈ rest := by
        rcases List.mem_cons.mp inside with same | later
        · rw [← same, stops] at skips
          cases skips
        · exact later
      rw [List.cons_append, List.dropWhile_cons_of_pos skips, List.dropWhile_cons_of_pos skips]
      exact ih later
    · rw [List.cons_append, List.dropWhile_cons_of_neg skips, List.dropWhile_cons_of_neg skips]
      exact ⟨rfl, inside⟩

theorem functionAt_bracket : BracketPattern functionAt := by
  constructor
  · intro u v bracket
    cases u with
    | nil => cases bracket
    | cons c rest =>
      by_cases bullet : c = '●'
      · subst bullet
        have later : '>' ∈ rest := by
          rcases List.mem_cons.mp bracket with same | later
          · exact absurd same (by decide)
          · exact later
        obtain ⟨spaces, still⟩ := dropWhile_append v later (show isSpace '>' = false by decide)
        rw [List.cons_append]
        simp only [functionAt]
        rw [spaces]
        exact tag_append v still functionTag_clear
      · rw [List.cons_append]
        simp only [functionAt]
        split
        · rename_i tail same
          exact absurd (List.cons.inj same).1 bullet
        · split
          · rename_i tail same
            exact absurd (List.cons.inj same).1 bullet
          · rfl
  · intro s name rest found
    unfold functionAt at found
    split at found
    · rename_i tail
      obtain ⟨before, split⟩ := tag_ends found
      refine ⟨'●' :: (tail.takeWhile isSpace ++ before), ?_⟩
      rw [List.cons_append, List.append_assoc, ← split, List.takeWhile_append_dropWhile]
    · cases found

theorem search_append_found {α : Type} {matchAt : Str → Option α} {u v : Str} {extend : α → α} {i : Nat} {a : α}
    (each : ∀ t, t <:+ u → t ≠ [] → matchAt (t ++ v) = (matchAt t).map extend) (nothing : matchAt [] = none)
    (found : search matchAt u = some (i, a)) : search matchAt (u ++ v) = some (i, extend a) := by
  induction u generalizing i with
  | nil => simp [search, nothing] at found
  | cons c rest ih =>
    have here := each (c :: rest) List.suffix_rfl (List.cons_ne_nil _ _)
    have inner := fun t (tail : t <:+ rest) => each t (tail.trans (List.suffix_cons ..))
    rw [List.cons_append] at here ⊢
    simp only [search] at found ⊢
    rw [here]
    cases first : matchAt (c :: rest) with
    | some b =>
      rw [first] at found
      cases found
      rfl
    | none =>
      rw [first] at found
      obtain ⟨⟨j, b⟩, later, eq⟩ := Option.map_eq_some_iff.mp found
      cases eq
      simp [ih inner later]

theorem search_append_missing {α : Type} {matchAt : Str → Option α} {u v : Str}
    (each : ∀ t, t <:+ u → t ≠ [] → matchAt (t ++ v) = none) :
    search matchAt (u ++ v) = (search matchAt v).map fun found => (u.length + found.1, found.2) := by
  induction u with
  | nil => simp
  | cons c rest ih =>
    have here := each (c :: rest) List.suffix_rfl (List.cons_ne_nil _ _)
    have inner := fun t (tail : t <:+ rest) => each t (tail.trans (List.suffix_cons ..))
    rw [List.cons_append] at here ⊢
    simp only [search, here, ih inner, Option.map_map]
    cases search matchAt v with
    | none => rfl
    | some found =>
      simp only [Option.map_some, Function.comp_apply, List.length_cons]
      congr 2
      omega

/-- What the first match has taken up says where the first match is, whatever follows. -/
theorem BracketPattern.search_cut {matchAt : Str → Option (Str × Str)} (pattern : BracketPattern matchAt)
    (nothing : matchAt [] = none) {consumed after name : Str} {start : Nat}
    (found : search matchAt (consumed ++ after) = some (start, name, after)) (later : Str) :
    search matchAt (consumed ++ later) = some (start, name, later) := by
  obtain ⟨inside, here⟩ := search_eq_some found
  obtain ⟨before, split⟩ := pattern.ends here
  have closed : consumed = (consumed ++ after).take start ++ before ++ ['>'] := by
    have whole : consumed ++ after = (consumed ++ after).take start ++ before ++ ['>'] ++ after := by
      rw [List.append_assoc _ _ after, List.append_assoc, List.singleton_append, ← split, List.take_append_drop]
    exact List.append_cancel_right whole
  have brackets : ∀ t, t <:+ consumed → t ≠ [] → '>' ∈ t := by
    intro t tail some'
    rw [closed] at tail
    obtain ⟨front, whole⟩ := tail
    have last := congrArg List.getLast? whole
    rw [List.getLast?_append_of_ne_nil _ some', List.getLast?_concat] at last
    exact List.mem_of_getLast? last
  have each (v : Str) : ∀ t, t <:+ consumed → t ≠ [] →
      matchAt (t ++ v) = (matchAt t).map fun found => (found.1, found.2 ++ v) :=
    fun t tail some' => pattern.append v (brackets t tail some')
  cases own : search matchAt consumed with
  | none =>
    have missing : ∀ t, t <:+ consumed → t ≠ [] → matchAt (t ++ after) = none := by
      intro t tail some'
      rw [each after t tail some', search_eq_none.mp own t tail, Option.map_none]
    rw [search_append_missing missing] at found
    obtain ⟨⟨i, name', after'⟩, later', eq⟩ := Option.map_eq_some_iff.mp found
    cases eq
    obtain ⟨inside', here'⟩ := search_eq_some later'
    obtain ⟨before', split'⟩ := pattern.ends here'
    have length := congrArg List.length split'
    rw [List.length_drop, List.length_append, List.length_cons] at length
    omega
  | some match' =>
    obtain ⟨i, name', rest⟩ := match'
    have same := search_append_found (each after) nothing own
    rw [found, Option.some.injEq, Prod.mk.injEq, Prod.mk.injEq] at same
    obtain ⟨rfl, rfl, whole⟩ := same
    have empty : rest = [] := List.self_eq_append_left.mp whole
    have moved := search_append_found (each later) nothing own
    rw [empty] at moved
    exact moved

theorem search_map {α β : Type} (matchAt : Str → Option α) (f : α → β) (s : Str) :
    search (fun t => (matchAt t).map f) s = (search matchAt s).map fun found => (found.1, f found.2) := by
  induction s with
  | nil =>
    simp only [search]
    cases matchAt [] <;> rfl
  | cons c rest ih =>
    simp only [search]
    cases matchAt (c :: rest) with
    | some found => rfl
    | none =>
      simp only [Option.map_none, ih, Option.map_map]
      rfl

theorem parameterEnd_ne_nil : parameterEnd ≠ [] := by decide

theorem parameterEnd_length : parameterEnd.length = 12 := by decide

theorem lazyBody_at_end (later : Str) : lazyBody (parameterEnd ++ later) = ([], parameterEnd, later) := by
  have here : parameterEnd.isPrefixOf (parameterEnd ++ later) = true := (isPrefixOf_iff ..).mpr (List.prefix_append ..)
  have dropped : (parameterEnd ++ later).drop 12 = later := by rw [← parameterEnd_length, List.drop_left]
  obtain ⟨c, rest, split⟩ := List.exists_cons_of_ne_nil parameterEnd_ne_nil
  revert here dropped
  rw [show parameterEnd ++ later = c :: (rest ++ later) by rw [split]; rfl]
  intro here dropped
  rw [lazyBody, if_pos here, dropped]

theorem lazyBody_step {c : Char} {rest body close after : Str} (away : ¬ parameterEnd.isPrefixOf (c :: rest) = true)
    (unended : ¬ (c = '\n' ∧ rest = [])) (found : lazyBody rest = (body, close, after)) :
    lazyBody (c :: rest) = (c :: body, close, after) := by
  rw [lazyBody, if_neg away, if_neg unended, found]

/-- A body that ends at its tag ends there whatever follows the tag. -/
theorem lazyBody_closed {s body after : Str} (found : lazyBody s = (body, parameterEnd, after)) :
    s = body ++ parameterEnd ++ after ∧
      ∀ later, lazyBody (body ++ parameterEnd ++ later) = (body, parameterEnd, later) := by
  induction s generalizing body with
  | nil =>
    rw [lazyBody, Prod.mk.injEq, Prod.mk.injEq] at found
    exact absurd found.2.1.symm parameterEnd_ne_nil
  | cons c rest ih =>
    by_cases here : parameterEnd.isPrefixOf (c :: rest) = true
    · obtain ⟨tail, split⟩ := (isPrefixOf_iff ..).mp here
      rw [← split, lazyBody_at_end, Prod.mk.injEq, Prod.mk.injEq] at found
      obtain ⟨rfl, -, rfl⟩ := found
      exact ⟨split.symm, lazyBody_at_end⟩
    · by_cases ended : c = '\n' ∧ rest = []
      · rw [lazyBody, if_neg here, if_pos ended, Prod.mk.injEq, Prod.mk.injEq] at found
        exact absurd found.2.1.symm parameterEnd_ne_nil
      · rcases inside : lazyBody rest with ⟨inner, close, tail⟩
        rw [lazyBody_step here ended inside, Prod.mk.injEq, Prod.mk.injEq] at found
        obtain ⟨rfl, rfl, rfl⟩ := found
        obtain ⟨whole, moved⟩ := ih inside
        refine ⟨by rw [whole]; rfl, fun later => lazyBody_step ?_ ?_ (moved later)⟩
        · intro there
          apply here
          have fits : parameterEnd.length ≤ (c :: (inner ++ parameterEnd)).length := by
            rw [List.length_cons, List.length_append]
            omega
          have short := prefix_of_prefix_append ((isPrefixOf_iff ..).mp there) fits
          rw [isPrefixOf_iff, whole]
          exact short.trans (List.cons_prefix_cons.mpr ⟨rfl, List.prefix_append ..⟩)
        · rintro ⟨-, empty⟩
          exact parameterEnd_ne_nil (List.append_eq_nil_iff.mp (List.append_eq_nil_iff.mp empty).1).2

theorem parameterStartAt_nil : parameterStartAt [] = none := rfl

def ParamMatch.Closed (found : ParamMatch) : Prop :=
  found.whole = parameterTag ++ found.key ++ ['>'] ++ found.value ++ parameterEnd

instance (found : ParamMatch) : Decidable found.Closed := inferInstanceAs (Decidable (_ = _))

theorem search_parameterAt {s : Str} {start : Nat} {found : ParamMatch}
    (searched : search parameterAt s = some (start, found))
    (closed : found.Closed) : ∃ rest, search parameterStartAt s = some (start, found.key, rest) ∧
      lazyBody rest = (found.value, parameterEnd, found.after) := by
  have same : search parameterAt s = _ := search_map parameterStartAt _ s
  rw [searched] at same
  obtain ⟨⟨i, key, rest⟩, started, eq⟩ := Option.map_eq_some_iff.mp same.symm
  cases eq
  refine ⟨rest, started, ?_⟩
  have close : (lazyBody rest).2.1 = parameterEnd := List.append_cancel_left closed
  rw [← close]

theorem search_parameterAt_of_start {s key rest body after : Str} {start : Nat}
    (started : search parameterStartAt s = some (start, key, rest)) (closed : lazyBody rest = (body, parameterEnd, after)) :
    search parameterAt s =
      some (start, ⟨key, body, parameterTag ++ key ++ ['>'] ++ body ++ parameterEnd, after⟩) := by
  have same : search parameterAt s = _ := search_map parameterStartAt _ s
  rw [same, started, Option.map_some]
  dsimp only
  rw [closed]

/-- A parameter that its tag has closed is found where it is, whatever follows. -/
theorem parameterAt_cut {consumed : Str} {start : Nat} {found : ParamMatch}
    (searched : search parameterAt (consumed ++ found.after) = some (start, found)) (closed : found.Closed) (later : Str) :
    search parameterAt (consumed ++ later) = some (start, { found with after := later }) := by
  obtain ⟨rest, started, body⟩ := search_parameterAt searched closed
  obtain ⟨whole, moved⟩ := lazyBody_closed body
  obtain ⟨inside, here⟩ := search_eq_some started
  obtain ⟨before, split⟩ := parameterStartAt_bracket.ends here
  have front : ∃ front, consumed = front ++ (found.value ++ parameterEnd) := by
    refine ⟨(consumed ++ found.after).take start ++ before ++ ['>'], ?_⟩
    have both : consumed ++ found.after =
        (consumed ++ found.after).take start ++ before ++ ['>'] ++ (found.value ++ parameterEnd) ++ found.after := by
      rw [List.append_assoc _ (found.value ++ parameterEnd), ← whole, List.append_assoc _ ['>'], List.singleton_append,
        List.append_assoc, ← split, List.take_append_drop]
    exact List.append_cancel_right both
  obtain ⟨front, rfl⟩ := front
  have earlier : search parameterStartAt (front ++ rest) = some (start, found.key, rest) := by
    rw [List.append_assoc, ← whole] at started
    exact started
  have now := parameterStartAt_bracket.search_cut parameterStartAt_nil earlier (found.value ++ parameterEnd ++ later)
  rw [← List.append_assoc] at now
  rw [search_parameterAt_of_start now (moved later), closed]

end ClaudeProxy.Providers

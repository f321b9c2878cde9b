import ClaudeProxy.Kit.JsonText

namespace Kit

/-- A printable ASCII character, so neither a line end nor a part of a longer encoding. -/
def IsPrintable (c : Char) : Prop := 32 ≤ c.toNat ∧ c.toNat < 127

instance (c : Char) : Decidable (IsPrintable c) := inferInstanceAs (Decidable (_ ∧ _))

def AllPrintable (text : List Char) : Prop := ∀ c ∈ text, IsPrintable c

instance (text : List Char) : Decidable (AllPrintable text) := List.decidableBAll IsPrintable text

theorem AllPrintable.append {first second : List Char} (one : AllPrintable first) (two : AllPrintable second) :
    AllPrintable (first ++ second) := List.forall_mem_append.mpr ⟨one, two⟩

namespace Json

mutual

/-- The literals of the floats in a value. -/
def literals : Json → List (List Char)
  | .number literal => [literal]
  | .array items => literalsItems items
  | .object members => literalsMembers members
  | _ => []

def literalsItems : List Json → List (List Char)
  | [] => []
  | item :: rest => literals item ++ literalsItems rest

def literalsMembers : List (List Char × Json) → List (List Char)
  | [] => []
  | (_, value) :: rest => literals value ++ literalsMembers rest

end

theorem printable_hexDigits4 (n : Nat) : AllPrintable (hexDigits4 n) := by
  have digit : ∀ d < 16, IsPrintable (Nat.digitChar d) := by decide
  intro c member
  simp only [hexDigits4, List.mem_cons, List.not_mem_nil, or_false] at member
  rcases member with rfl | rfl | rfl | rfl
  all_goals exact digit _ (Nat.mod_lt _ (by decide))

theorem printable_escapeAscii (c : Char) : AllPrintable (escapeAscii c) := by
  have unit (n : Nat) : AllPrintable ([backslash, 'u'] ++ hexDigits4 n) :=
    .append (by decide) (printable_hexDigits4 n)
  unfold escapeAscii
  split
  · rename_i special
    rcases special with rfl | rfl <;> decide
  split
  · decide
  split
  · decide
  split
  · decide
  split
  · decide
  split
  · decide
  split
  · rename_i plain
    intro d member
    rw [List.mem_singleton.mp member]
    exact plain
  split
  · exact unit c.toNat
  · rw [List.append_assoc]
    exact .append (unit _) (unit _)

theorem printable_dumpsString (value : List Char) : AllPrintable (dumpsString value) := by
  apply AllPrintable.append
  · apply AllPrintable.append (by decide)
    intro c member
    obtain ⟨source, -, here⟩ := List.mem_flatMap.mp member
    exact printable_escapeAscii source c here
  · decide

theorem printable_toDigits (n : Nat) : AllPrintable (Nat.toDigits 10 n) := by
  have digit : ∀ c : Char, c.isDigit = true → IsPrintable c := by
    intro c digit
    have bounds := Char.isDigit_iff_toNat.mp digit
    have ends : '0'.toNat = 48 ∧ '9'.toNat = 57 := ⟨rfl, rfl⟩
    unfold IsPrintable
    omega
  exact fun c member => digit c (Nat.isDigit_of_mem_toDigits (by decide) (by decide) member)

theorem printable_toString (value : Int) : AllPrintable (toString value).toList := by
  cases value with
  | ofNat n =>
    show AllPrintable n.repr.toList
    rw [Nat.toList_repr]
    exact printable_toDigits n
  | negSucc n =>
    have shape : (toString (Int.negSucc n)).toList = '-' :: Nat.toDigits 10 (n + 1) := by
      show ("-" ++ Nat.repr (n + 1)).toList = _
      rw [String.toList_append, Nat.toList_repr]
      rfl
    rw [shape]
    have sign : AllPrintable ['-'] := by decide
    exact sign.append (printable_toDigits _)

mutual

/-- What `dumps` writes is printable ASCII on one line. -/
theorem printable_dumps : ∀ value : Json, (∀ literal ∈ value.literals, AllPrintable literal) → AllPrintable value.dumps
  | .null, _ => by decide
  | .bool true, _ => by decide
  | .bool false, _ => by decide
  | .integer value, _ => printable_toString value
  | .number literal, floats => floats literal (List.mem_singleton_self _)
  | .string value, _ => printable_dumpsString value
  | .array items, floats => by
    rw [dumps]
    exact .append (.append (by decide) (printable_dumpsItems items floats)) (by decide)
  | .object members, floats => by
    rw [dumps]
    exact .append (.append (by decide) (printable_dumpsMembers members floats)) (by decide)

theorem printable_dumpsItems : ∀ items : List Json, (∀ literal ∈ literalsItems items, AllPrintable literal) →
    AllPrintable (dumpsItems items)
  | [], _ => by decide
  | [item], floats => by
    rw [dumpsItems]
    exact printable_dumps item fun literal mem => floats literal (List.mem_append_left _ mem)
  | item :: next :: rest, floats => by
    rw [dumpsItems]
    have first := printable_dumps item fun literal mem => floats literal (List.mem_append_left _ mem)
    have later := printable_dumpsItems (next :: rest) fun literal mem => floats literal (List.mem_append_right _ mem)
    exact .append (.append first (by decide)) later

theorem printable_dumpsMembers : ∀ members : List (List Char × Json),
    (∀ literal ∈ literalsMembers members, AllPrintable literal) → AllPrintable (dumpsMembers members)
  | [], _ => by decide
  | [(key, value)], floats => by
    rw [dumpsMembers]
    have only := printable_dumps value fun literal mem => floats literal (List.mem_append_left _ mem)
    exact .append (.append (printable_dumpsString key) (by decide)) only
  | (key, value) :: next :: rest, floats => by
    rw [dumpsMembers]
    have first := printable_dumps value fun literal mem => floats literal (List.mem_append_left _ mem)
    have later := printable_dumpsMembers (next :: rest) fun literal mem => floats literal (List.mem_append_right _ mem)
    exact .append (.append (.append (.append (printable_dumpsString key) (by decide)) first) (by decide)) later

end

end Json

end Kit

import ClaudeProxy.Kit.Json
import ClaudeProxy.Kit.PyValue

namespace Kit

/-- What Python's tables and its float formatting say. -/
class PyText where
  /-- `str.isprintable` of one character -/
  printable : Char → Bool
  floatText : PyFloat → List Char
  floatText_ne_nil : ∀ value, floatText value ≠ []

namespace PyText

def hex : Nat → Nat → List Char
  | 0, _ => []
  | k + 1, n => hex k (n / 16) ++ [Nat.digitChar (n % 16)]

variable (t : PyText)

def escapeChar (quote c : Char) : List Char :=
  if c = quote ∨ c = Json.backslash then [Json.backslash, c]
  else if c = '\n' then [Json.backslash, 'n']
  else if c = '\r' then [Json.backslash, 'r']
  else if c = '\t' then [Json.backslash, 't']
  else if t.printable c then [c]
  else if c.toNat < 0x100 then Json.backslash :: 'x' :: hex 2 c.toNat
  else if c.toNat < 0x10000 then Json.backslash :: 'u' :: hex 4 c.toNat
  else Json.backslash :: 'U' :: hex 8 c.toNat

def reprString (value : List Char) : List Char :=
  let quote := if Json.apostrophe ∈ value ∧ Json.quotationMark ∉ value then Json.quotationMark else Json.apostrophe
  [quote] ++ value.flatMap (t.escapeChar quote) ++ [quote]

mutual

/-- `repr` of the value. -/
def repr : PyValue → List Char
  | .none => "None".toList
  | .bool value => if value then "True".toList else "False".toList
  | .int value => (toString value).toList
  | .float value => t.floatText value
  | .string value => t.reprString value
  | .list items => '[' :: reprItems items ++ [']']
  | .dict entries => Char.ofNat 123 :: reprEntries entries ++ [Char.ofNat 125]

def reprItems : List PyValue → List Char
  | [] => []
  | item :: items => repr item ++ if items = [] then [] else ", ".toList ++ reprItems items

def reprEntries : List (List Char × PyValue) → List Char
  | [] => []
  | (key, value) :: entries =>
    t.reprString key ++ ": ".toList ++ repr value ++ if entries = [] then [] else ", ".toList ++ reprEntries entries

end

/-- `str` of the value. -/
def str : PyValue → List Char
  | .string value => value
  | value => t.repr value

end PyText

namespace PyValue

def isTruthy : PyValue → Bool
  | .none => false
  | .bool value => value
  | .int value => value ≠ 0
  | .float value => !value.isZero
  | .string value => !value.isEmpty
  | .list items => !items.isEmpty
  | .dict entries => !entries.isEmpty

/-- `value.get(key)` of a dictionary; nothing for what is no dictionary. -/
def get (value : PyValue) (key : String) : PyValue := (lookup key.toList (value.entries?.getD [])).getD .none

/-- `first or second` -/
def or (first second : PyValue) : PyValue := if first.isTruthy then first else second

end PyValue

namespace Json

mutual

def decoded : Json → PyValue
  | .null => .none
  | .bool value => .bool value
  | .integer value => .int value
  | .number literal => .float (.ofLiteral literal)
  | .string value => .string value
  | .array items => .list (decodedItems items)
  | .object members => .dict (decodedMembers members)

def decodedItems : List Json → List PyValue
  | [] => []
  | item :: items => decoded item :: decodedItems items

def decodedMembers : List (List Char × Json) → List (List Char × PyValue)
  | [] => []
  | (key, value) :: members => (key, decoded value) :: decodedMembers members

end

theorem decodedMembers_eq (members : List (List Char × Json)) :
    decodedMembers members = members.map fun member => (member.1, decoded member.2) := by
  induction members with
  | nil => rfl
  | cons member members ih => exact congrArg ((member.1, decoded member.2) :: ·) ih

theorem isTruthy_decoded (value : Json) : value.decoded.isTruthy = value.isTruthy := by
  cases value with
  | array items => cases items <;> rfl
  | object members => cases members <;> rfl
  | _ => rfl

/-- `str` of the decoded value. -/
def str [t : PyText] (value : Json) : List Char := t.str value.decoded

end Json

namespace PyText

theorem toString_ne_nil : ∀ value : Int, (toString value).toList ≠ []
  | .ofNat n => by
    show n.repr.toList ≠ []
    rw [Nat.toList_repr]
    exact Nat.toDigits_ne_nil
  | .negSucc n => by
    have text : (toString (Int.negSucc n)).toList = '-' :: (n + 1).repr.toList := by
      simp [toString, Int.repr]
    rw [text]
    exact List.cons_ne_nil _ _

theorem str_ne_nil (t : PyText) {value : PyValue} (truthy : value.isTruthy = true) : t.str value ≠ [] := by
  cases value with
  | none => cases truthy
  | bool value => cases value <;> simp [str, repr]
  | int value => exact toString_ne_nil value
  | float value => exact t.floatText_ne_nil value
  | string value =>
    intro empty
    rw [PyText.str] at empty
    simp [PyValue.isTruthy, empty] at truthy
  | list items => exact List.cons_ne_nil _ _
  | dict entries => exact List.cons_ne_nil _ _

/-- Enough for texts of ASCII letters without floats. -/
@[reducible] def ascii : PyText where
  printable c := 32 ≤ c.toNat ∧ c.toNat < 127
  floatText _ := "nan".toList
  floatText_ne_nil _ := List.cons_ne_nil _ _

end PyText

end Kit

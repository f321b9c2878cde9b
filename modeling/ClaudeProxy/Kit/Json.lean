import ClaudeProxy.Kit.PyFloat

namespace Kit

/-- A decoded JSON value. A float is kept as its literal, an object in the order of its keys. -/
inductive Json where
  | null
  | bool (value : Bool)
  | integer (value : Int)
  | number (literal : List Char)
  | string (value : List Char)
  | array (items : List Json)
  | object (members : List (List Char × Json))

namespace Json

def setMember (key : List Char) (value : Json) : List (List Char × Json) → List (List Char × Json)
  | [] => [(key, value)]
  | (k, v) :: rest => if k = key then (key, value) :: rest else (k, v) :: setMember key value rest

def getMember (key : List Char) (members : List (List Char × Json)) : Option Json :=
  (members.find? fun member => member.1 = key).map Prod.snd

/-- `members.get(key, default)`. -/
def get (members : List (List Char × Json)) (key : String) (default : Json) : Json :=
  (getMember key.toList members).getD default

def isString (text : String) : Json → Bool
  | .string value => value = text.toList
  | _ => false

def isObject : Json → Bool
  | .object _ => true
  | _ => false

/-- `value == 0` -/
def isZero : Json → Bool
  | .bool value => !value
  | .integer value => value = 0
  | .number literal => (PyFloat.ofLiteral literal).isZero
  | _ => false

def isTruthy : Json → Bool
  | .null => false
  | .bool value => value
  | .integer value => value ≠ 0
  | .number literal => !(Json.number literal).isZero
  | .string value => !value.isEmpty
  | .array items => !items.isEmpty
  | .object members => !members.isEmpty

def apostrophe : Char := Char.ofNat 39

def quotationMark : Char := Char.ofNat 34

def backslash : Char := Char.ofNat 92

def hexDigits4 (n : Nat) : List Char :=
  [Nat.digitChar (n / 4096 % 16), Nat.digitChar (n / 256 % 16), Nat.digitChar (n / 16 % 16), Nat.digitChar (n % 16)]

/-- A character in an ASCII string literal; one beyond the basic plane is written as two surrogates. -/
def escapeAscii (c : Char) : List Char :=
  if c = quotationMark ∨ c = backslash then [backslash, c]
  else if c = '\n' then [backslash, 'n']
  else if c = '\r' then [backslash, 'r']
  else if c = '\t' then [backslash, 't']
  else if c.toNat = 8 then [backslash, 'b']
  else if c.toNat = 12 then [backslash, 'f']
  else if 32 ≤ c.toNat ∧ c.toNat < 127 then [c]
  else if c.toNat < 65536 then [backslash, 'u'] ++ hexDigits4 c.toNat
  else
    let rest := c.toNat - 65536
    [backslash, 'u'] ++ hexDigits4 (0xD800 + rest / 1024) ++ [backslash, 'u'] ++ hexDigits4 (0xDC00 + rest % 1024)

def dumpsString (value : List Char) : List Char := [quotationMark] ++ value.flatMap escapeAscii ++ [quotationMark]

mutual

/-- `json.dumps` of the value. -/
def dumps : Json → List Char
  | .null => "null".toList
  | .bool value => if value then "true".toList else "false".toList
  | .integer value => (toString value).toList
  | .number literal => literal
  | .string value => dumpsString value
  | .array items => ['['] ++ dumpsItems items ++ [']']
  | .object members => [Char.ofNat 123] ++ dumpsMembers members ++ [Char.ofNat 125]

def dumpsItems : List Json → List Char
  | [] => []
  | [item] => dumps item
  | item :: next :: rest => dumps item ++ ", ".toList ++ dumpsItems (next :: rest)

def dumpsMembers : List (List Char × Json) → List Char
  | [] => []
  | [(key, value)] => dumpsString key ++ ": ".toList ++ dumps value
  | (key, value) :: next :: rest =>
    dumpsString key ++ ": ".toList ++ dumps value ++ ", ".toList ++ dumpsMembers (next :: rest)

end

theorem le_hexDigits4 (n : Nat) : ∀ c ∈ hexDigits4 n, 32 ≤ c.toNat := by
  have digit : ∀ d < 16, 32 ≤ (Nat.digitChar d).toNat := by decide
  intro c member
  simp only [hexDigits4, List.mem_cons, List.not_mem_nil, or_false] at member
  rcases member with rfl | rfl | rfl | rfl
  all_goals exact digit _ (Nat.mod_lt _ (by decide))

theorem le_escapeAscii (c : Char) : ∀ d ∈ escapeAscii c, 32 ≤ d.toNat := by
  have slash : 32 ≤ backslash.toNat := by decide
  have pair {first second : Char} (one : 32 ≤ first.toNat) (two : 32 ≤ second.toNat) :
      ∀ d ∈ [first, second], 32 ≤ d.toNat := by simp [one, two]
  have unit (n : Nat) : ∀ d ∈ [backslash, 'u'] ++ hexDigits4 n, 32 ≤ d.toNat := by
    intro d member
    rcases List.mem_append.mp member with front | digits
    · exact pair slash (by decide) d front
    · exact le_hexDigits4 n d digits
  unfold escapeAscii
  split
  · rename_i special
    rcases special with rfl | rfl
    · exact pair slash (by decide)
    · exact pair slash slash
  split
  · exact pair slash (by decide)
  split
  · exact pair slash (by decide)
  split
  · exact pair slash (by decide)
  split
  · exact pair slash (by decide)
  split
  · exact pair slash (by decide)
  split
  · rename_i printable
    simpa using printable.1
  split
  · exact unit c.toNat
  · intro d member
    rw [List.append_assoc] at member
    rcases List.mem_append.mp member with high | low
    · exact unit _ d high
    · exact unit _ d low

theorem le_dumpsString (value : List Char) : ∀ c ∈ dumpsString value, 32 ≤ c.toNat := by
  intro c member
  rcases List.mem_append.mp member with front | last
  · rcases List.mem_append.mp front with first | inner
    · rw [List.mem_singleton.mp first]
      decide
    · rcases List.mem_flatMap.mp inner with ⟨source, _, here⟩
      exact le_escapeAscii source c here
  · rw [List.mem_singleton.mp last]
    decide

end Json

end Kit

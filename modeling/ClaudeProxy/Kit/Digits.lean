namespace Kit

/-- The zeros of the rows of Unicode decimal digits. -/
def decimalZeros : List Nat :=
  [0x30, 0x660, 0x6F0, 0x7C0, 0x966, 0x9E6, 0xA66, 0xAE6, 0xB66, 0xBE6, 0xC66, 0xCE6, 0xD66, 0xDE6, 0xE50, 0xED0,
    0xF20, 0x1040, 0x1090, 0x17E0, 0x1810, 0x1946, 0x19D0, 0x1A80, 0x1A90, 0x1B50, 0x1BB0, 0x1C40, 0x1C50, 0xA620,
    0xA8D0, 0xA900, 0xA9D0, 0xA9F0, 0xAA50, 0xABF0, 0xFF10, 0x104A0, 0x10D30, 0x10D40, 0x11066, 0x110F0, 0x11136,
    0x111D0, 0x112F0, 0x11450, 0x114D0, 0x11650, 0x116C0, 0x116D0, 0x116DA, 0x11730, 0x118E0, 0x11950, 0x11BF0,
    0x11C50, 0x11D50, 0x11DA0, 0x11F50, 0x16130, 0x16A60, 0x16AC0, 0x16B50, 0x16D70, 0x1CCF0, 0x1D7CE, 0x1D7D8,
    0x1D7E2, 0x1D7EC, 0x1D7F6, 0x1E140, 0x1E2F0, 0x1E4D0, 0x1E5F1, 0x1E950, 0x1FBF0]

/-- First and last of the digits that are no decimals, such as a superscript two. -/
def otherDigits : List (Nat × Nat) :=
  [(0xB2, 0xB3), (0xB9, 0xB9), (0x1369, 0x1371), (0x19DA, 0x19DA), (0x2070, 0x2070), (0x2074, 0x2079),
    (0x2080, 0x2089), (0x2460, 0x2468), (0x2474, 0x247C), (0x2488, 0x2490), (0x24EA, 0x24EA), (0x24F5, 0x24FD),
    (0x24FF, 0x24FF), (0x2776, 0x277E), (0x2780, 0x2788), (0x278A, 0x2792), (0x10A40, 0x10A43), (0x10E60, 0x10E68),
    (0x11052, 0x1105A), (0x1F100, 0x1F10A)]

def decimal? (c : Char) : Option Nat :=
  (decimalZeros.find? fun first => first ≤ c.toNat ∧ c.toNat < first + 10).map fun first => c.toNat - first

def isDigitChar (c : Char) : Bool :=
  (decimal? c).isSome || otherDigits.any fun range => range.1 ≤ c.toNat ∧ c.toNat ≤ range.2

/-- `str.isdigit` -/
def isDigits (text : List Char) : Bool := !text.isEmpty && text.all isDigitChar

/-- `int` of a text that passes `isDigits`: it refuses what is no decimal, and texts of more than 4300 digits. -/
def parseInt? (text : List Char) : Option Nat :=
  if 4300 < text.length then none
  else text.foldl (fun value c => value.bind fun n => (decimal? c).map (10 * n + ·)) (some 0)

theorem parseInt?_isSome {text : List Char} :
    (parseInt? text).isSome = true ↔ text.length ≤ 4300 ∧ text.all (fun c => (decimal? c).isSome) = true := by
  have decimals : ∀ (rest : List Char) (value : Option Nat),
      (rest.foldl (fun value c => value.bind fun n => (decimal? c).map (10 * n + ·)) value).isSome = true ↔
        value.isSome = true ∧ rest.all (fun c => (decimal? c).isSome) = true := by
    intro rest
    induction rest with
    | nil => simp
    | cons c rest ih =>
      intro value
      rw [List.foldl_cons, ih, List.all_cons]
      cases value <;> simp
  unfold parseInt?
  split
  · rename_i long
    have : ¬ text.length ≤ 4300 := by omega
    simp [this]
  · rename_i short
    have : text.length ≤ 4300 := by omega
    rw [decimals]
    simp [this]

/-- Digits with single underscores between them; `digit` tells that the last character was a digit. -/
def digitsValue : Nat → Bool → List Char → Option Nat
  | value, true, [] => some value
  | _, false, [] => none
  | value, true, '_' :: rest => digitsValue value false rest
  | value, _, c :: rest => (decimal? c).bind fun d => digitsValue (10 * value + d) true rest

def digitsOrNone (text : List Char) : Option Nat :=
  if 4300 < (text.filter (· ≠ '_')).length then none else digitsValue 0 false text

/-- `int` of a text that is already stripped of white space. -/
def signedInt? : List Char → Option Int
  | '+' :: rest => (digitsOrNone rest).map Int.ofNat
  | '-' :: rest => (digitsOrNone rest).map fun n => -Int.ofNat n
  | text => (digitsOrNone text).map Int.ofNat

/-- The white space that `int` skips. Unlike `str.strip`, it stops at the separators U+001C to U+001F. -/
def isIntSpace (c : Char) : Bool :=
  let n := c.toNat
  (9 ≤ n ∧ n ≤ 13) ∨ n = 32 ∨ n = 0x85 ∨ n = 0xA0 ∨ n = 0x1680 ∨ (0x2000 ≤ n ∧ n ≤ 0x200A) ∨ n = 0x2028 ∨ n = 0x2029 ∨
    n = 0x202F ∨ n = 0x205F ∨ n = 0x3000

def skipIntSpace (text : List Char) : List Char := ((text.dropWhile isIntSpace).reverse.dropWhile isIntSpace).reverse

/-- `int` of a text. -/
def int? (text : List Char) : Option Int := signedInt? (skipIntSpace text)

theorem skipIntSpace_concat {c : Char} (space : isIntSpace c = true) (text : List Char) :
    skipIntSpace (text ++ [c]) = skipIntSpace text := by
  unfold skipIntSpace
  rw [List.dropWhile_append]
  split
  · rename_i blank
    rw [List.isEmpty_iff.mp blank]
    simp [space]
  · rw [List.reverse_append]
    simp [space]

example : int? [' ', '1', '2', '\n'] = some 12 ∧ int? [Char.ofNat 0x1C, '1', '2'] = none := by decide

example : parseInt? ['0', '7'] = some 7 ∧ isDigits ['²'] = true ∧ parseInt? ['²'] = none := by decide

end Kit

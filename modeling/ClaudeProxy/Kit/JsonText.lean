import Mathlib.Data.List.TakeWhile
import ClaudeProxy.Kit.Json

namespace Kit.Json

def isBlank (c : Char) : Bool := c = ' ' || c = '\t' || c = '\n' || c = '\r'

def skipBlank (text : List Char) : List Char := text.dropWhile isBlank

def hexValue? (c : Char) : Option Nat :=
  if 48 ≤ c.toNat ∧ c.toNat ≤ 57 then some (c.toNat - 48)
  else if 97 ≤ c.toNat ∧ c.toNat ≤ 102 then some (c.toNat - 87)
  else if 65 ≤ c.toNat ∧ c.toNat ≤ 70 then some (c.toNat - 55)
  else none

def hex4? : List Char → Option (Nat × List Char)
  | a :: b :: c :: d :: rest => do
    let a ← hexValue? a
    let b ← hexValue? b
    let c ← hexValue? c
    let d ← hexValue? d
    return (4096 * a + 256 * b + 16 * c + d, rest)
  | _ => none

/-- What follows the `u` of an escape. A surrogate is read with its other half; alone it is no character. -/
def unicodeEscape (text : List Char) : Option (Char × List Char) := do
  let (high, rest) ← hex4? text
  if 0xD800 ≤ high ∧ high < 0xDC00 then
    match rest with
    | slash :: 'u' :: rest => do
      let (low, rest) ← hex4? rest
      if slash = backslash ∧ 0xDC00 ≤ low ∧ low < 0xE000 then
        some (Char.ofNat (0x10000 + (high - 0xD800) * 1024 + (low - 0xDC00)), rest)
      else none
    | _ => none
  else if 0xDC00 ≤ high ∧ high < 0xE000 then none
  else some (Char.ofNat high, rest)

def plainEscape? (c : Char) : Option Char :=
  if c = quotationMark ∨ c = backslash ∨ c = '/' then some c
  else if c = 'b' then some (Char.ofNat 8)
  else if c = 'f' then some (Char.ofNat 12)
  else if c = 'n' then some '\n'
  else if c = 'r' then some '\r'
  else if c = 't' then some '\t'
  else none

def scanEscape : List Char → Option (Char × List Char)
  | [] => none
  | c :: rest => if c = 'u' then unicodeEscape rest else (plainEscape? c).map fun d => (d, rest)

def scanString : Nat → List Char → Option (List Char × List Char)
  | 0, _ => none
  | _ + 1, [] => none
  | n + 1, c :: rest =>
    if c = quotationMark then some ([], rest)
    else if c = backslash then do
      let (d, rest) ← scanEscape rest
      let (value, rest) ← scanString n rest
      return (d :: value, rest)
    else if c.toNat < 32 then none
    else do
      let (value, rest) ← scanString n rest
      return (c :: value, rest)

/-- `0|[1-9][0-9]*` -/
def integerPart : List Char → Option (List Char × List Char)
  | [] => none
  | c :: rest =>
    if c = '0' then some (['0'], rest)
    else if c.isDigit then some (c :: rest.takeWhile Char.isDigit, rest.dropWhile Char.isDigit)
    else none

/-- A group of digits behind `lead`, which is left where no digit follows. -/
def digitsAfter (lead text : List Char) (otherwise : List Char) : List Char × List Char :=
  let digits := text.takeWhile Char.isDigit
  if digits = [] then ([], otherwise) else (lead ++ digits, text.dropWhile Char.isDigit)

/-- `(\.[0-9]+)?` -/
def fractionPart (text : List Char) : List Char × List Char :=
  match text with
  | '.' :: rest => digitsAfter ['.'] rest text
  | _ => ([], text)

/-- `([eE][-+]?[0-9]+)?` -/
def exponentPart (text : List Char) : List Char × List Char :=
  match text with
  | e :: rest =>
    if e = 'e' ∨ e = 'E' then
      match rest with
      | '-' :: rest => digitsAfter [e, '-'] rest text
      | '+' :: rest => digitsAfter [e, '+'] rest text
      | _ => digitsAfter [e] rest text
    else ([], text)
  | [] => ([], text)

def signPart : List Char → List Char × List Char
  | '-' :: rest => (['-'], rest)
  | text => ([], text)

/-- An integer has 4300 digits at most. -/
def scanNumber (text : List Char) : Option (Json × List Char) := do
  let (sign, rest) := signPart text
  let (digits, rest) ← integerPart rest
  let (fraction, rest) := fractionPart rest
  let (exponent, rest) := exponentPart rest
  if fraction = [] ∧ exponent = [] then
    if 4300 < digits.length then none
    else
      let magnitude : Int := Nat.ofDigitChars 10 digits 0
      some (.integer (if sign = [] then magnitude else -magnitude), rest)
  else some (.number (sign ++ digits ++ fraction ++ exponent), rest)

def scanWord (word : List Char) (value : Json) (text : List Char) : Option (Json × List Char) :=
  if word.isPrefixOf text then some (value, text.drop word.length) else none

def nanLiteral : List Char := ['N', 'a', 'N']

def infinityLiteral : List Char := ['I', 'n', 'f', 'i', 'n', 'i', 't', 'y']

def scanAtom (text : List Char) : Option (Json × List Char) :=
  scanWord ['n', 'u', 'l', 'l'] .null text <|> scanWord ['t', 'r', 'u', 'e'] (.bool true) text <|>
    scanWord ['f', 'a', 'l', 's', 'e'] (.bool false) text <|> scanNumber text <|>
    scanWord nanLiteral (.number nanLiteral) text <|> scanWord infinityLiteral (.number infinityLiteral) text <|>
    scanWord ('-' :: infinityLiteral) (.number ('-' :: infinityLiteral)) text

def leftBrace : Char := Char.ofNat 123

def rightBrace : Char := Char.ofNat 125

mutual

/-- `scan_once`. A value consumes a character at least, so that twice the length of the text is enough of a bound. -/
def scan : Nat → List Char → Option (Json × List Char)
  | 0, _ => none
  | _ + 1, [] => none
  | n + 1, c :: rest =>
    if c = quotationMark then (scanString (n + 1) rest).map fun (value, rest) => (.string value, rest)
    else if c = '[' then
      match skipBlank rest with
      | [] => none
      | d :: more =>
        if d = ']' then some (.array [], more)
        else (scanItems n (d :: more)).map fun (items, rest) => (.array items, rest)
    else if c = leftBrace then
      match skipBlank rest with
      | [] => none
      | d :: more =>
        if d = rightBrace then some (.object [], more)
        else (scanMembers n [] (d :: more)).map fun (members, rest) => (.object members, rest)
    else scanAtom (c :: rest)

def scanItems : Nat → List Char → Option (List Json × List Char)
  | 0, _ => none
  | n + 1, text => do
    let (item, rest) ← scan n text
    match skipBlank rest with
    | [] => none
    | c :: rest =>
      if c = ']' then some ([item], rest)
      else if c = ',' then do
        let (items, rest) ← scanItems n (skipBlank rest)
        return (item :: items, rest)
      else none

/-- A key that comes again keeps its place and takes the new value. -/
def scanMembers : Nat → List (List Char × Json) → List Char → Option (List (List Char × Json) × List Char)
  | 0, _, _ => none
  | _ + 1, _, [] => none
  | n + 1, members, c :: rest =>
    if c = quotationMark then do
      let (key, rest) ← scanString (n + 1) rest
      match skipBlank rest with
      | [] => none
      | c :: rest =>
        if c = ':' then do
          let (value, rest) ← scan n (skipBlank rest)
          match skipBlank rest with
          | [] => none
          | c :: rest =>
            if c = rightBrace then some (setMember key value members, rest)
            else if c = ',' then scanMembers n (setMember key value members) (skipBlank rest)
            else none
        else none
    else none

end

/-- `json.loads` of a text. -/
def loads (text : List Char) : Option Json := do
  let (value, rest) ← scan (2 * text.length + 1) (skipBlank text)
  if skipBlank rest = [] then some value else none

/-- The digits of an integer that has too many of them. -/
def numberOverlong (text : List Char) : Option Nat := do
  let (digits, rest) ← integerPart (signPart text).2
  let (fraction, rest) := fractionPart rest
  if fraction = [] ∧ (exponentPart rest).1 = [] ∧ 4300 < digits.length then some digits.length else none

mutual

/-- The number of digits if a value is no value for an integer that has too many of them, and nothing before is wrong. -/
def scanOverlong : Nat → List Char → Option Nat
  | 0, _ => none
  | _ + 1, [] => none
  | n + 1, c :: rest =>
    if c = quotationMark then none
    else if c = '[' then itemsOverlong n (skipBlank rest)
    else if c = leftBrace then membersOverlong n (skipBlank rest)
    else numberOverlong (c :: rest)

def itemsOverlong : Nat → List Char → Option Nat
  | 0, _ => none
  | n + 1, text =>
    match scan n text with
    | none => scanOverlong n text
    | some (_, rest) =>
      match skipBlank rest with
      | ',' :: rest => itemsOverlong n (skipBlank rest)
      | _ => none

def membersOverlong : Nat → List Char → Option Nat
  | 0, _ => none
  | _ + 1, [] => none
  | n + 1, c :: rest =>
    if c = quotationMark then do
      let (_, rest) ← scanString (n + 1) rest
      match skipBlank rest with
      | ':' :: rest =>
        match scan n (skipBlank rest) with
        | none => scanOverlong n (skipBlank rest)
        | some (_, rest) =>
          match skipBlank rest with
          | ',' :: rest => membersOverlong n (skipBlank rest)
          | _ => none
      | _ => none
    else none

end

/-- Where `json.loads` fails at an integer that is too long, it raises a `ValueError` that is no `JSONDecodeError`. -/
def overlong? (text : List Char) : Option Nat :=
  match scan (2 * text.length + 1) (skipBlank text) with
  | none => scanOverlong (2 * text.length + 1) (skipBlank text)
  | some _ => none

def IsFloat (literal : List Char) : Prop :=
  scanNumber literal = some (.number literal, []) ∨ literal ∈ [nanLiteral, infinityLiteral, '-' :: infinityLiteral]

mutual

/-- A value that `loads` can return: its integers are not too long, its floats are floats and its keys differ. -/
def Decoded : Json → Prop
  | .integer value => (Nat.toDigits 10 value.natAbs).length ≤ 4300
  | .number literal => IsFloat literal
  | .array items => DecodedItems items
  | .object members => (members.map Prod.fst).Nodup ∧ DecodedMembers members
  | _ => True

def DecodedItems : List Json → Prop
  | [] => True
  | item :: rest => Decoded item ∧ DecodedItems rest

def DecodedMembers : List (List Char × Json) → Prop
  | [] => True
  | (_, value) :: rest => Decoded value ∧ DecodedMembers rest

end

theorem decodedItems_iff (items : List Json) : DecodedItems items ↔ ∀ item ∈ items, Decoded item := by
  induction items with
  | nil => simp [DecodedItems]
  | cons item rest ih => rw [DecodedItems, ih, List.forall_mem_cons]

theorem decodedMembers_iff (members : List (List Char × Json)) :
    DecodedMembers members ↔ ∀ member ∈ members, Decoded member.2 := by
  induction members with
  | nil => simp [DecodedMembers]
  | cons member rest ih => rw [DecodedMembers, ih, List.forall_mem_cons]

theorem decoded_object (members : List (List Char × Json)) :
    Decoded (.object members) ↔ (members.map Prod.fst).Nodup ∧ ∀ member ∈ members, Decoded member.2 := by
  rw [Decoded, decodedMembers_iff]

theorem hexValue?_digitChar : ∀ d < 16, hexValue? (Nat.digitChar d) = some d := by decide

theorem hex4?_hexDigits4 (n : Nat) (bound : n < 65536) (rest : List Char) :
    hex4? (hexDigits4 n ++ rest) = some (n, rest) := by
  have one := hexValue?_digitChar (n / 4096 % 16) (Nat.mod_lt _ (by decide))
  have two := hexValue?_digitChar (n / 256 % 16) (Nat.mod_lt _ (by decide))
  have three := hexValue?_digitChar (n / 16 % 16) (Nat.mod_lt _ (by decide))
  have four := hexValue?_digitChar (n % 16) (Nat.mod_lt _ (by decide))
  have sum : 4096 * (n / 4096 % 16) + 256 * (n / 256 % 16) + 16 * (n / 16 % 16) + n % 16 = n := by omega
  simp [hexDigits4, hex4?, one, two, three, four, sum]

theorem toNat_scalar (c : Char) : c.toNat < 0xD800 ∨ 0xE000 ≤ c.toNat ∧ c.toNat < 0x110000 := by
  rcases c.valid with low | high
  · exact Or.inl low
  · exact Or.inr ⟨by have := high.1; change 0xDFFF < c.toNat at this; omega, high.2⟩

theorem unicodeEscape_plane {c : Char} (basic : c.toNat < 65536) (rest : List Char) :
    unicodeEscape (hexDigits4 c.toNat ++ rest) = some (c, rest) := by
  have scalar := toNat_scalar c
  have notHigh : ¬ (0xD800 ≤ c.toNat ∧ c.toNat < 0xDC00) := by omega
  have notLow : ¬ (0xDC00 ≤ c.toNat ∧ c.toNat < 0xE000) := by omega
  simp [unicodeEscape, hex4?_hexDigits4 _ basic, notHigh, notLow, Char.ofNat_toNat]

theorem unicodeEscape_surrogates {high low : Nat} (one : 0xD800 ≤ high ∧ high < 0xDC00)
    (two : 0xDC00 ≤ low ∧ low < 0xE000) (rest : List Char) :
    unicodeEscape (hexDigits4 high ++ (backslash :: 'u' :: (hexDigits4 low ++ rest))) =
      some (Char.ofNat (0x10000 + (high - 0xD800) * 1024 + (low - 0xDC00)), rest) := by
  have first := hex4?_hexDigits4 high (by omega) (backslash :: 'u' :: (hexDigits4 low ++ rest))
  have second := hex4?_hexDigits4 low (by omega) rest
  simp only [unicodeEscape, first, Option.bind_eq_bind, Option.bind_some, if_pos one, second, true_and, if_pos two]

theorem unicodeEscape_pair {c : Char} (beyond : ¬ c.toNat < 65536) (rest : List Char) :
    unicodeEscape (hexDigits4 (0xD800 + (c.toNat - 65536) / 1024) ++ (backslash :: 'u' ::
      (hexDigits4 (0xDC00 + (c.toNat - 65536) % 1024) ++ rest))) = some (c, rest) := by
  have scalar := toNat_scalar c
  rw [unicodeEscape_surrogates (by omega) (by omega)]
  have sum : 0x10000 + (0xD800 + (c.toNat - 65536) / 1024 - 0xD800) * 1024 +
      (0xDC00 + (c.toNat - 65536) % 1024 - 0xDC00) = c.toNat := by omega
  rw [sum, Char.ofNat_toNat]

theorem scanString_escapeAscii (c : Char) (n : Nat) (rest : List Char) :
    scanString (n + 1) (escapeAscii c ++ rest) = (scanString n rest).map fun read => (c :: read.1, read.2) := by
  have escape {d : Char} {after : List Char} (read : scanEscape after = some (d, rest)) :
      scanString (n + 1) (backslash :: after) = (scanString n rest).map fun read => (d :: read.1, read.2) := by
    have other : backslash ≠ quotationMark := by decide
    simp only [scanString, other, if_false, if_true, read, Option.bind_eq_bind, Option.bind_some]
    cases scanString n rest <;> rfl
  have plain (d e : Char) (read : d ≠ 'u' ∧ plainEscape? d = some e) :
      scanString (n + 1) ([backslash, d] ++ rest) = (scanString n rest).map fun read => (e :: read.1, read.2) := by
    apply escape
    simp [scanEscape, read.1, read.2]
  unfold escapeAscii
  split
  · rename_i special
    rcases special with rfl | rfl
    · exact plain _ _ (by decide)
    · exact plain _ _ (by decide)
  split
  · subst c
    exact plain _ _ (by decide)
  split
  · subst c
    exact plain _ _ (by decide)
  split
  · subst c
    exact plain _ _ (by decide)
  split
  · rename_i backspace
    obtain rfl : c = Char.ofNat 8 := by rw [← backspace, Char.ofNat_toNat]
    exact plain _ _ (by decide)
  split
  · rename_i feed
    obtain rfl : c = Char.ofNat 12 := by rw [← feed, Char.ofNat_toNat]
    exact plain _ _ (by decide)
  split
  · rename_i special _ _ _ _ _ printable
    have notQuote : c ≠ quotationMark := fun same => special (Or.inl same)
    have notSlash : c ≠ backslash := fun same => special (Or.inr same)
    have visible : ¬ c.toNat < 32 := by omega
    simp only [List.cons_append, List.nil_append, scanString, notQuote, notSlash, visible, if_false]
    cases scanString n rest <;> rfl
  split
  · rename_i basic
    apply escape
    exact unicodeEscape_plane basic rest
  · rename_i beyond
    rw [List.append_assoc, List.append_assoc]
    exact escape (unicodeEscape_pair beyond rest)

theorem scanString_body (value : List Char) : ∀ (n : Nat) (rest : List Char), value.length < n →
    scanString n (value.flatMap escapeAscii ++ (quotationMark :: rest)) = some (value, rest) := by
  induction value with
  | nil =>
    intro n rest enough
    cases n with
    | zero => cases enough
    | succ n => simp [scanString]
  | cons c value ih =>
    intro n rest enough
    cases n with
    | zero => cases enough
    | succ n =>
      have shorter : value.length < n := by simpa using enough
      rw [List.flatMap_cons, List.append_assoc, scanString_escapeAscii, ih n rest shorter]
      rfl

/-- What may follow a number without being taken for a part of it. -/
def Ends (rest : List Char) : Prop :=
  ∀ c more, rest = c :: more → c.isDigit = false ∧ c ≠ '.' ∧ c ≠ 'e' ∧ c ≠ 'E' ∧ c ≠ '+' ∧ c ≠ '-'

theorem ends_nil : Ends [] := by
  intro c more same
  cases same

theorem takeWhile_digits_append {rest : List Char} (ends : Ends rest) (text : List Char) :
    (text ++ rest).takeWhile Char.isDigit = text.takeWhile Char.isDigit := by
  induction text with
  | nil =>
    cases rest with
    | nil => rfl
    | cons c more => simp [(ends c more rfl).1]
  | cons c text ih => cases digit : c.isDigit <;> simp [digit, ih]

theorem dropWhile_digits_append {rest : List Char} (ends : Ends rest) (text : List Char) :
    (text ++ rest).dropWhile Char.isDigit = text.dropWhile Char.isDigit ++ rest := by
  induction text with
  | nil =>
    cases rest with
    | nil => rfl
    | cons c more => simp [(ends c more rfl).1]
  | cons c text ih => cases digit : c.isDigit <;> simp [digit, ih]

theorem digitsAfter_append {rest : List Char} (ends : Ends rest) (lead text otherwise : List Char) :
    digitsAfter lead (text ++ rest) (otherwise ++ rest) =
      ((digitsAfter lead text otherwise).1, (digitsAfter lead text otherwise).2 ++ rest) := by
  simp only [digitsAfter, takeWhile_digits_append ends, dropWhile_digits_append ends]
  split <;> rfl

theorem fractionPart_append {rest : List Char} (ends : Ends rest) (text : List Char) :
    fractionPart (text ++ rest) = ((fractionPart text).1, (fractionPart text).2 ++ rest) := by
  cases text with
  | nil =>
    cases rest with
    | nil => rfl
    | cons c more =>
      have other := (ends c more rfl).2.1
      simp [fractionPart, other]
  | cons c text =>
    by_cases point : c = '.'
    · subst point
      exact digitsAfter_append ends ['.'] text ('.' :: text)
    · simp [fractionPart, point]

theorem exponentPart_append {rest : List Char} (ends : Ends rest) (text : List Char) :
    exponentPart (text ++ rest) = ((exponentPart text).1, (exponentPart text).2 ++ rest) := by
  cases text with
  | nil =>
    cases rest with
    | nil => rfl
    | cons c more =>
      have other := (ends c more rfl).2.2
      simp [exponentPart, other.1, other.2.1]
  | cons e text =>
    by_cases exponent : e = 'e' ∨ e = 'E'
    · cases text with
      | nil =>
        have alone := digitsAfter_append ends [e] [] [e]
        cases rest with
        | nil => simp [exponentPart, exponent]
        | cons c more =>
          have other := (ends c more rfl).2.2.2.2
          simpa [exponentPart, exponent, other.1, other.2] using alone
      | cons sign text =>
        by_cases minus : sign = '-'
        · subst minus
          have signed := digitsAfter_append ends [e, '-'] text (e :: '-' :: text)
          simpa [exponentPart, exponent] using signed
        · by_cases plus : sign = '+'
          · subst plus
            have signed := digitsAfter_append ends [e, '+'] text (e :: '+' :: text)
            simpa [exponentPart, exponent] using signed
          · have bare := digitsAfter_append ends [e] (sign :: text) (e :: sign :: text)
            simpa [exponentPart, exponent, minus, plus] using bare
    · simp [exponentPart, exponent]

theorem integerPart_append {rest text digits more : List Char} (ends : Ends rest)
    (read : integerPart text = some (digits, more)) : integerPart (text ++ rest) = some (digits, more ++ rest) := by
  cases text with
  | nil => cases read
  | cons c text =>
    simp only [List.cons_append, integerPart] at read ⊢
    split
    · rename_i zero
      rw [if_pos zero] at read
      cases read
      rfl
    · rename_i nonzero
      rw [if_neg nonzero] at read
      split
      · rename_i digit
        rw [if_pos digit] at read
        cases read
        rw [takeWhile_digits_append ends, dropWhile_digits_append ends]
      · rename_i other
        rw [if_neg other] at read
        cases read

theorem signPart_append {text : List Char} (there : text ≠ []) (rest : List Char) :
    signPart (text ++ rest) = ((signPart text).1, (signPart text).2 ++ rest) := by
  cases text with
  | nil => exact absurd rfl there
  | cons c text =>
    by_cases minus : c = '-'
    · subst minus
      rfl
    · simp [signPart, minus]

theorem scanNumber_append {rest text more : List Char} {value : Json} (ends : Ends rest)
    (read : scanNumber text = some (value, more)) : scanNumber (text ++ rest) = some (value, more ++ rest) := by
  have there : text ≠ [] := by
    rintro rfl
    simp [scanNumber, signPart, integerPart] at read
  unfold scanNumber at read ⊢
  rw [signPart_append there]
  dsimp only at read ⊢
  cases digits : integerPart (signPart text).2 with
  | none =>
    rw [digits] at read
    cases read
  | some parts =>
    rw [digits] at read
    rw [integerPart_append ends digits]
    simp only [Option.bind_eq_bind, Option.bind_some, fractionPart_append ends, exponentPart_append ends] at read ⊢
    split
    · rename_i whole
      rw [if_pos whole] at read
      split
      · rename_i long
        rw [if_pos long] at read
        cases read
      · rename_i short
        rw [if_neg short] at read
        cases read
        rfl
    · rename_i float
      rw [if_neg float] at read
      cases read
      rfl

theorem toDigits_head {n : Nat} (positive : 0 < n) : ∃ c more, Nat.toDigits 10 n = c :: more ∧ c ≠ '0' := by
  induction n using Nat.strongRecOn with
  | ind n ih =>
    by_cases small : n < 10
    · refine ⟨Nat.digitChar n, [], Nat.toDigits_of_lt_base small, ?_⟩
      have nonzero : ∀ d < 10, 0 < d → Nat.digitChar d ≠ '0' := by decide
      exact nonzero n small positive
    · obtain ⟨c, more, digits, nonzero⟩ := ih (n / 10) (by omega) (by omega)
      refine ⟨c, more ++ [(n % 10).digitChar], ?_, nonzero⟩
      rw [Nat.toDigits_of_base_le (by decide) (by omega), digits, List.cons_append]

theorem integerPart_toDigits (n : Nat) : integerPart (Nat.toDigits 10 n) = some (Nat.toDigits 10 n, []) := by
  have digits : ∀ c ∈ Nat.toDigits 10 n, c.isDigit = true := fun c member =>
    Nat.isDigit_of_mem_toDigits (by decide) (by decide) member
  by_cases zero : n = 0
  · subst zero
    rfl
  · obtain ⟨c, more, eq, nonzero⟩ := toDigits_head (Nat.pos_of_ne_zero zero)
    rw [eq] at digits ⊢
    have rest : ∀ d ∈ more, d.isDigit = true := fun d member => digits d (List.mem_cons_of_mem _ member)
    rw [integerPart, if_neg nonzero, if_pos (digits c List.mem_cons_self), List.takeWhile_eq_self_iff.mpr rest,
      List.dropWhile_eq_nil_iff.mpr rest]

theorem scanNumber_toString (value : Int) (short : (Nat.toDigits 10 value.natAbs).length ≤ 4300) :
    scanNumber (toString value).toList = some (.integer value, []) := by
  have unsigned (n : Nat) : signPart (Nat.toDigits 10 n) = ([], Nat.toDigits 10 n) := by
    have digits : ∀ c ∈ Nat.toDigits 10 n, c.isDigit = true := fun c member =>
      Nat.isDigit_of_mem_toDigits (by decide) (by decide) member
    cases eq : Nat.toDigits 10 n with
    | nil => rfl
    | cons c more =>
      rw [eq] at digits
      have minus : c ≠ '-' := by
        rintro rfl
        cases digits '-' List.mem_cons_self
      simp [signPart, minus]
  have fits (n : Nat) (len : (Nat.toDigits 10 n).length ≤ 4300) : ¬ 4300 < (Nat.toDigits 10 n).length := by omega
  cases value with
  | ofNat n =>
    have text : (toString (Int.ofNat n)).toList = Nat.toDigits 10 n := by
      rw [← Nat.toList_repr]
      rfl
    rw [text]
    have len := fits n short
    simp [scanNumber, unsigned, integerPart_toDigits, fractionPart, exponentPart, len]
  | negSucc n =>
    have text : (toString (Int.negSucc n)).toList = '-' :: Nat.toDigits 10 (n + 1) := by
      rw [← Nat.toList_repr]
      simp [toString, Int.repr]
    rw [text]
    have len := fits (n + 1) short
    simp [scanNumber, signPart, integerPart_toDigits, fractionPart, exponentPart, len, Int.negSucc_eq]

theorem scanNumber_head {text more : List Char} {value : Json} (read : scanNumber text = some (value, more)) :
    ∃ c rest, text = c :: rest ∧ (c = '-' ∨ c.isDigit = true) := by
  cases text with
  | nil => simp [scanNumber, signPart, integerPart] at read
  | cons c rest =>
    refine ⟨c, rest, rfl, ?_⟩
    by_cases minus : c = '-'
    · exact Or.inl minus
    · right
      cases digit : c.isDigit with
      | true => rfl
      | false =>
        have zero : c ≠ '0' := by
          rintro rfl
          cases digit
        simp [scanNumber, signPart, minus, integerPart, zero, digit] at read

theorem digit_ne {c d : Char} (digit : c = '-' ∨ c.isDigit = true) (other : d.isDigit = false ∧ d ≠ '-') : c ≠ d := by
  rintro rfl
  rcases digit with minus | digit
  · exact other.2 minus
  · rw [other.1] at digit
    cases digit

theorem scan_atom {c : Char} (quote : c ≠ quotationMark) (bracket : c ≠ '[') (brace : c ≠ leftBrace) (n : Nat)
    (rest : List Char) : scan (n + 1) (c :: rest) = scanAtom (c :: rest) := by
  rw [scan, if_neg quote, if_neg bracket, if_neg brace]

theorem scan_number {text rest : List Char} {value : Json} (read : scanNumber text = some (value, [])) (ends : Ends rest)
    (n : Nat) : scan (n + 1) (text ++ rest) = some (value, rest) := by
  have whole := scanNumber_append ends read
  obtain ⟨c, more, rfl, digit⟩ := scanNumber_head read
  have ne (d : Char) (other : d.isDigit = false ∧ d ≠ '-') : c ≠ d := digit_ne digit other
  have quote := ne quotationMark (by decide)
  have bracket := ne '[' (by decide)
  have brace := ne leftBrace (by decide)
  have none' := ne 'n' (by decide)
  have true' := ne 't' (by decide)
  have false' := ne 'f' (by decide)
  rw [List.cons_append] at whole ⊢
  rw [scan_atom quote bracket brace, scanAtom]
  simp [scanWord, none'.symm, true'.symm, false'.symm, whole]

theorem scan_constant {literal : List Char} (constant : literal ∈ [nanLiteral, infinityLiteral, '-' :: infinityLiteral])
    (n : Nat) (rest : List Char) : scan (n + 1) (literal ++ rest) = some (.number literal, rest) := by
  simp only [List.mem_cons, List.not_mem_nil, or_false] at constant
  rcases constant with rfl | rfl | rfl
  · have atom := @scan_atom 'N' (by decide) (by decide) (by decide) n (['a', 'N'] ++ rest)
    simpa [scanAtom, scanWord, scanNumber, signPart, integerPart, nanLiteral] using atom
  · have atom := @scan_atom 'I' (by decide) (by decide) (by decide) n (['n', 'f', 'i', 'n', 'i', 't', 'y'] ++ rest)
    simpa [scanAtom, scanWord, scanNumber, signPart, integerPart, infinityLiteral, nanLiteral] using atom
  · have atom := @scan_atom '-' (by decide) (by decide) (by decide) n (infinityLiteral ++ rest)
    simpa [scanAtom, scanWord, scanNumber, signPart, integerPart, infinityLiteral, nanLiteral] using atom

theorem escapeAscii_ne_nil (c : Char) : escapeAscii c ≠ [] := by
  unfold escapeAscii
  repeat' split
  all_goals simp

theorem length_dumpsString (value : List Char) : value.length + 2 ≤ (dumpsString value).length := by
  have body : value.length ≤ (value.flatMap escapeAscii).length := by
    induction value with
    | nil => simp
    | cons c value ih =>
      have one := List.length_pos_iff.mpr (escapeAscii_ne_nil c)
      simp only [List.flatMap_cons, List.length_append, List.length_cons]
      omega
  simp only [dumpsString, List.length_append, List.length_singleton]
  omega

theorem scanString_dumpsString (value rest : List Char) (n : Nat) (enough : value.length < n) :
    ∃ body, dumpsString value ++ rest = quotationMark :: body ∧ scanString n body = some (value, rest) := by
  refine ⟨value.flatMap escapeAscii ++ (quotationMark :: rest), ?_, scanString_body value n rest enough⟩
  simp [dumpsString]

mutual

/-- `json.dumps` with separators that are a comma and a colon with this text after them. -/
def dumpsWith (blank : List Char) : Json → List Char
  | .array items => ['['] ++ dumpsItemsWith blank items ++ [']']
  | .object members => [leftBrace] ++ dumpsMembersWith blank members ++ [rightBrace]
  | .string value => dumpsString value
  | .number literal => literal
  | .integer value => (toString value).toList
  | .bool value => if value then "true".toList else "false".toList
  | .null => "null".toList

def dumpsItemsWith (blank : List Char) : List Json → List Char
  | [] => []
  | [item] => dumpsWith blank item
  | item :: next :: rest => dumpsWith blank item ++ ',' :: blank ++ dumpsItemsWith blank (next :: rest)

def dumpsMembersWith (blank : List Char) : List (List Char × Json) → List Char
  | [] => []
  | [(key, value)] => dumpsString key ++ ':' :: blank ++ dumpsWith blank value
  | (key, value) :: next :: rest =>
    dumpsString key ++ ':' :: blank ++ dumpsWith blank value ++ ',' :: blank ++ dumpsMembersWith blank (next :: rest)

end

mutual

theorem dumps_eq : ∀ value : Json, value.dumps = value.dumpsWith [' ']
  | .null => rfl
  | .bool _ => rfl
  | .integer _ => rfl
  | .number _ => rfl
  | .string _ => rfl
  | .array items => by rw [dumps, dumpsWith, dumpsItems_eq items]
  | .object members => by
    rw [dumps, dumpsWith, dumpsMembers_eq members]
    rfl

theorem dumpsItems_eq : ∀ items : List Json, dumpsItems items = dumpsItemsWith [' '] items
  | [] => rfl
  | [item] => by rw [dumpsItems, dumpsItemsWith, dumps_eq item]
  | item :: next :: rest => by
    rw [dumpsItems, dumpsItemsWith, dumps_eq item, dumpsItems_eq (next :: rest)]
    rfl

theorem dumpsMembers_eq : ∀ members : List (List Char × Json), dumpsMembers members = dumpsMembersWith [' '] members
  | [] => rfl
  | [(key, value)] => by
    rw [dumpsMembers, dumpsMembersWith, dumps_eq value]
    rfl
  | (key, value) :: next :: rest => by
    rw [dumpsMembers, dumpsMembersWith, dumps_eq value, dumpsMembers_eq (next :: rest)]
    rfl

end

section Separators

variable {blank : List Char}

theorem skipBlank_append (blanks : ∀ c ∈ blank, isBlank c = true) (rest : List Char) :
    skipBlank (blank ++ rest) = skipBlank rest := List.dropWhile_append_of_pos blanks

/-- A value starts with a character that is neither blank nor the end of an array. -/
theorem dumps_head {value : Json} (decoded : Decoded value) :
    ∃ c more, (value.dumpsWith blank) = c :: more ∧ isBlank c = false ∧ c ≠ ']' := by
  have number {text more : List Char} {read : Json} (scanned : scanNumber text = some (read, more)) :
      ∃ c more, text = c :: more ∧ isBlank c = false ∧ c ≠ ']' := by
    obtain ⟨c, rest, rfl, digit⟩ := scanNumber_head scanned
    have ne (d : Char) (other : d.isDigit = false ∧ d ≠ '-') : c ≠ d := digit_ne digit other
    refine ⟨c, rest, rfl, ?_, ne ']' (by decide)⟩
    simp [isBlank, ne ' ' (by decide), ne '\t' (by decide), ne '\n' (by decide), ne '\r' (by decide)]
  cases value with
  | null => exact ⟨'n', _, rfl, by decide, by decide⟩
  | bool value =>
    cases value
    · exact ⟨'f', _, rfl, by decide, by decide⟩
    · exact ⟨'t', _, rfl, by decide, by decide⟩
  | integer value =>
    rw [Decoded] at decoded
    exact number (scanNumber_toString value decoded)
  | number literal =>
    rw [Decoded] at decoded
    rcases decoded with read | constant
    · exact number read
    · simp only [List.mem_cons, List.not_mem_nil, or_false] at constant
      rcases constant with rfl | rfl | rfl
      · exact ⟨'N', _, rfl, by decide, by decide⟩
      · exact ⟨'I', _, rfl, by decide, by decide⟩
      · exact ⟨'-', _, rfl, by decide, by decide⟩
  | string value => exact ⟨quotationMark, _, rfl, by decide, by decide⟩
  | array items => exact ⟨'[', _, rfl, by decide, by decide⟩
  | object members => exact ⟨Char.ofNat 123, _, rfl, by decide, by decide⟩

theorem skipBlank_cons {c : Char} (visible : isBlank c = false) (rest : List Char) : skipBlank (c :: rest) = c :: rest := by
  simp [skipBlank, visible]

theorem skipBlank_dumps {value : Json} (decoded : Decoded value) (rest : List Char) :
    skipBlank ((value.dumpsWith blank) ++ rest) = (value.dumpsWith blank) ++ rest := by
  obtain ⟨c, more, eq, visible, _⟩ := dumps_head decoded
  rw [eq]
  exact skipBlank_cons visible _

theorem setMember_append {key : List Char} {value : Json} {members : List (List Char × Json)}
    (absent : key ∉ members.map Prod.fst) : setMember key value members = members ++ [(key, value)] := by
  induction members with
  | nil => rfl
  | cons member members ih =>
    simp only [List.map_cons, List.mem_cons, not_or] at absent
    simp only [setMember, if_neg (Ne.symm absent.1), ih absent.2, List.cons_append]

theorem ends_punctuation {c : Char} (punctuation : c = ',' ∨ c = ']' ∨ c = rightBrace) (rest : List Char) :
    Ends (c :: rest) := by
  intro d more same
  cases same
  rcases punctuation with rfl | rfl | rfl
  all_goals decide

theorem length_dumps_pos {value : Json} (decoded : Decoded value) : 0 < (value.dumpsWith blank).length := by
  obtain ⟨c, more, eq, _⟩ := dumps_head decoded
  rw [eq]
  simp

theorem scan_string (value rest : List Char) (n : Nat) (enough : 2 * (dumpsString value).length ≤ n + 1) :
    scan (n + 1) (dumpsString value ++ rest) = some (.string value, rest) := by
  have long := length_dumpsString value
  obtain ⟨body, eq, read⟩ := scanString_dumpsString value rest (n + 1) (by omega)
  rw [eq, scan, if_pos rfl, read]
  rfl

theorem dumpsItems_head {item : Json} (decoded : Decoded item) (items : List Json) :
    ∃ c more, dumpsItemsWith blank (item :: items) = c :: more ∧ isBlank c = false ∧ c ≠ ']' := by
  obtain ⟨c, more, eq, visible, open'⟩ := dumps_head decoded
  cases items with
  | nil => exact ⟨c, more, eq, visible, open'⟩
  | cons next items =>
    refine ⟨c, more ++ ',' :: blank ++ dumpsItemsWith blank (next :: items), ?_, visible, open'⟩
    rw [dumpsItemsWith, eq]
    rfl

theorem dumpsMembers_head (member : List Char × Json) (members : List (List Char × Json)) :
    ∃ more, dumpsMembersWith blank (member :: members) = quotationMark :: more := by
  cases members with
  | nil => exact ⟨_, rfl⟩
  | cons next members => exact ⟨_, rfl⟩

theorem scanMembers_member {key tail : List Char} {value : Json} {n : Nat} (blanks : ∀ c ∈ blank, isBlank c = true)
    (members : List (List Char × Json)) (decoded : Decoded value) (enough : 2 * (dumpsString key).length ≤ n + 1)
    (read : scan n (value.dumpsWith blank ++ tail) = some (value, tail)) :
    scanMembers (n + 1) members (dumpsString key ++ (':' :: blank ++ (value.dumpsWith blank ++ tail))) =
      match skipBlank tail with
      | [] => none
      | c :: rest =>
        if c = rightBrace then some (setMember key value members, rest)
        else if c = ',' then scanMembers n (setMember key value members) (skipBlank rest)
        else none := by
  have long := length_dumpsString key
  obtain ⟨body, eq, name⟩ :=
    scanString_dumpsString key (':' :: blank ++ (value.dumpsWith blank ++ tail)) (n + 1) (by omega)
  have colon : skipBlank (':' :: blank ++ (value.dumpsWith blank ++ tail)) =
      ':' :: (blank ++ (value.dumpsWith blank ++ tail)) := skipBlank_cons (by decide) _
  have space : skipBlank (blank ++ (value.dumpsWith blank ++ tail)) = value.dumpsWith blank ++ tail := by
    rw [skipBlank_append blanks, skipBlank_dumps decoded]
  rw [eq, scanMembers, if_pos rfl]
  simp only [name, Option.bind_eq_bind, Option.bind_some, colon, if_true, space, read]

mutual

theorem scan_dumps (blanks : ∀ c ∈ blank, isBlank c = true) : ∀ (value : Json) (n : Nat) (rest : List Char),
    Decoded value → 2 * (value.dumpsWith blank).length ≤ n →
    Ends rest → scan n ((value.dumpsWith blank) ++ rest) = some (value, rest)
  | value, 0, rest, decoded, enough, _ => by
    have positive : 0 < (value.dumpsWith blank).length := length_dumps_pos decoded
    omega
  | .null, n + 1, rest, _, _, _ => by
    have atom := @scan_atom 'n' (by decide) (by decide) (by decide) n (['u', 'l', 'l'] ++ rest)
    rw [show dumpsWith blank .null = ['n', 'u', 'l', 'l'] from rfl]
    simpa [scanAtom, scanWord] using atom
  | .bool true, n + 1, rest, _, _, _ => by
    have atom := @scan_atom 't' (by decide) (by decide) (by decide) n (['r', 'u', 'e'] ++ rest)
    rw [show dumpsWith blank (.bool true) = ['t', 'r', 'u', 'e'] from rfl]
    simpa [scanAtom, scanWord] using atom
  | .bool false, n + 1, rest, _, _, _ => by
    have atom := @scan_atom 'f' (by decide) (by decide) (by decide) n (['a', 'l', 's', 'e'] ++ rest)
    rw [show dumpsWith blank (.bool false) = ['f', 'a', 'l', 's', 'e'] from rfl]
    simpa [scanAtom, scanWord] using atom
  | .integer value, n + 1, rest, decoded, _, ends => by
    rw [Decoded] at decoded
    exact scan_number (scanNumber_toString value decoded) ends n
  | .number literal, n + 1, rest, decoded, _, ends => by
    rw [Decoded] at decoded
    rcases decoded with read | constant
    · exact scan_number read ends n
    · exact scan_constant constant n rest
  | .string value, n + 1, rest, _, enough, _ => scan_string value rest n enough
  | .array [], n + 1, rest, _, _, _ => by
    simp [dumpsWith, dumpsItemsWith, scan, skipBlank, isBlank, quotationMark]
  | .array (item :: items), n + 1, rest, decoded, enough, _ => by
    rw [Decoded] at decoded
    have bound : 2 * (dumpsItemsWith blank (item :: items)).length + 1 ≤ n := by
      simp only [dumpsWith, List.length_append, List.length_singleton] at enough
      omega
    have read := scanItems_dumps blanks (item :: items) n rest (by simp) decoded bound
    obtain ⟨c, more, eq, visible, open'⟩ := dumpsItems_head decoded.1 items
    have quote : '[' ≠ quotationMark := by decide
    rw [dumpsWith, eq]
    rw [eq] at read
    simp only [List.cons_append, List.nil_append, List.append_assoc] at read ⊢
    rw [scan, if_neg quote, if_pos rfl, skipBlank_cons visible]
    simp only [if_neg open', read, Option.map_some]
  | .object [], n + 1, rest, _, _, _ => by
    simp [dumpsWith, dumpsMembersWith, scan, skipBlank, isBlank, quotationMark, leftBrace, rightBrace]
  | .object (member :: members), n + 1, rest, decoded, enough, _ => by
    rw [Decoded] at decoded
    have bound : 2 * (dumpsMembersWith blank (member :: members)).length + 1 ≤ n := by
      simp only [dumpsWith, List.length_append, List.length_singleton] at enough
      omega
    have read := scanMembers_dumps blanks (member :: members) n [] rest (by simp) decoded.1 decoded.2 bound
    obtain ⟨more, eq⟩ := dumpsMembers_head member members
    have quote : leftBrace ≠ quotationMark := by decide
    have bracket : leftBrace ≠ '[' := by decide
    have visible : isBlank quotationMark = false := by decide
    have open' : quotationMark ≠ rightBrace := by decide
    rw [dumpsWith, eq]
    rw [eq] at read
    simp only [List.cons_append, List.nil_append, List.append_assoc] at read ⊢
    rw [scan, if_neg quote, if_neg bracket, if_pos rfl, skipBlank_cons visible]
    simp only [if_neg open']
    exact congrArg (Option.map _) read

theorem scanItems_dumps (blanks : ∀ c ∈ blank, isBlank c = true) : ∀ (items : List Json) (n : Nat) (rest : List Char),
    items ≠ [] → DecodedItems items →
    2 * (dumpsItemsWith blank items).length + 1 ≤ n → scanItems n (dumpsItemsWith blank items ++ (']' :: rest)) = some
      (items, rest)
  | _, 0, _, _, _, enough => by omega
  | [], _, _, there, _, _ => absurd rfl there
  | [item], n + 1, rest, _, decoded, enough => by
    have read := scan_dumps blanks item n (']' :: rest) decoded.1 (by simp only [dumpsItemsWith] at enough; omega)
      (ends_punctuation (Or.inr (Or.inl rfl)) rest)
    have visible : isBlank ']' = false := by decide
    simp only [dumpsItemsWith, scanItems, read, Option.bind_eq_bind, Option.bind_some, skipBlank_cons visible, if_true]
  | item :: next :: items, n + 1, rest, _, decoded, enough => by
    have positive : 0 < (item.dumpsWith blank).length := length_dumps_pos decoded.1
    have bound : 2 * (item.dumpsWith blank).length + 2 * (dumpsItemsWith blank (next :: items)).length + 2 ≤ n := by
      simp only [dumpsItemsWith, List.length_append, List.length_cons] at enough
      omega
    have first := scan_dumps blanks item n (',' :: (blank ++ (dumpsItemsWith blank (next :: items) ++ (']' :: rest))))
      decoded.1 (by omega) (ends_punctuation (Or.inl rfl) _)
    have more := scanItems_dumps blanks (next :: items) n rest (by simp) decoded.2 (by omega)
    have comma : isBlank ',' = false := by decide
    have space : skipBlank (blank ++ (dumpsItemsWith blank (next :: items) ++ (']' :: rest))) =
        dumpsItemsWith blank (next :: items) ++ (']' :: rest) := by
      obtain ⟨c, text, eq, visible, _⟩ := dumpsItems_head decoded.2.1 items
      rw [skipBlank_append blanks, eq]
      exact skipBlank_cons visible (text ++ (']' :: rest))
    have text : dumpsItemsWith blank (item :: next :: items) ++ (']' :: rest) =
        item.dumpsWith blank ++ (',' :: (blank ++ (dumpsItemsWith blank (next :: items) ++ (']' :: rest)))) := by
      simp [dumpsItemsWith]
    have other : ',' ≠ ']' := by decide
    rw [text, scanItems, first]
    simp only [Option.bind_eq_bind, Option.bind_some, skipBlank_cons comma, if_neg other, if_true, space, more]
    rfl

theorem scanMembers_dumps (blanks : ∀ c ∈ blank, isBlank c = true) :
    ∀ (members : List (List Char × Json)) (n : Nat) (before : List (List Char × Json))
    (rest : List Char), members ≠ [] → ((before ++ members).map Prod.fst).Nodup → DecodedMembers members →
    2 * (dumpsMembersWith blank members).length + 1 ≤ n →
    scanMembers n before (dumpsMembersWith blank members ++ (rightBrace :: rest)) = some (before ++ members, rest)
  | _, 0, _, _, _, _, _, enough => by omega
  | [], _, _, _, there, _, _, _ => absurd rfl there
  | [(key, value)], n + 1, before, rest, _, distinct, decoded, enough => by
    have absent : key ∉ before.map Prod.fst := by
      intro member
      rw [List.map_append, List.nodup_append] at distinct
      exact distinct.2.2 key member key (by simp) rfl
    have length : 2 * (dumpsString key).length + 2 * (value.dumpsWith blank).length + 2 ≤ n := by
      simp only [dumpsMembersWith, List.length_append, List.length_cons] at enough
      omega
    have read := scan_dumps blanks value n (rightBrace :: rest) decoded.1 (by omega)
      (ends_punctuation (Or.inr (Or.inr rfl)) rest)
    have member := @scanMembers_member blank key _ value n blanks before decoded.1 (by omega) read
    have visible : isBlank rightBrace = false := by decide
    rw [skipBlank_cons visible] at member
    have text : dumpsMembersWith blank [(key, value)] ++ (rightBrace :: rest) =
        dumpsString key ++ (':' :: blank ++ (value.dumpsWith blank ++ (rightBrace :: rest))) := by
      simp [dumpsMembersWith]
    rw [text, member]
    simp only [if_true, setMember_append absent]
  | (key, value) :: next :: members, n + 1, before, rest, _, distinct, decoded, enough => by
    have absent : key ∉ before.map Prod.fst := by
      intro member
      rw [List.map_append, List.nodup_append] at distinct
      exact distinct.2.2 key member key (by simp) rfl
    have length : 2 * (dumpsString key).length + 2 * (value.dumpsWith blank).length +
        2 * (dumpsMembersWith blank (next :: members)).length + 4 ≤ n := by
      simp only [dumpsMembersWith, List.length_append, List.length_cons] at enough
      omega
    have read := scan_dumps blanks value n
      (',' :: (blank ++ (dumpsMembersWith blank (next :: members) ++ (rightBrace :: rest)))) decoded.1
      (by omega) (ends_punctuation (Or.inl rfl) _)
    have member := @scanMembers_member blank key _ value n blanks before decoded.1 (by omega) read
    have comma : isBlank ',' = false := by decide
    have space : skipBlank (blank ++ (dumpsMembersWith blank (next :: members) ++ (rightBrace :: rest))) =
        dumpsMembersWith blank (next :: members) ++ (rightBrace :: rest) := by
      obtain ⟨text, eq⟩ := @dumpsMembers_head blank next members
      have visible : isBlank quotationMark = false := by decide
      rw [skipBlank_append blanks, eq]
      exact skipBlank_cons visible (text ++ (rightBrace :: rest))
    have more := scanMembers_dumps blanks (next :: members) n (before ++ [(key, value)]) rest (by simp)
      (by simpa using distinct) decoded.2 (by omega)
    have text : dumpsMembersWith blank ((key, value) :: next :: members) ++ (rightBrace :: rest) =
        dumpsString key ++ (':' :: blank ++ (value.dumpsWith blank ++
          (',' :: (blank ++ (dumpsMembersWith blank (next :: members) ++ (rightBrace :: rest)))))) := by
      simp [dumpsMembersWith]
    have other : ',' ≠ rightBrace := by decide
    rw [skipBlank_cons comma] at member
    rw [text, member]
    simp only [if_neg other, if_true, space, setMember_append absent, more, List.append_assoc, List.singleton_append]

end

theorem loads_dumpsWith (blanks : ∀ c ∈ blank, isBlank c = true) {value : Json} (decoded : Decoded value) :
    loads (value.dumpsWith blank) = some value := by
  have read := scan_dumps blanks value (2 * (value.dumpsWith blank).length + 1) [] decoded (by omega) ends_nil
  have start := @skipBlank_dumps blank value decoded []
  rw [List.append_nil] at read start
  rw [loads, start, read]
  rfl

end Separators

theorem loads_dumps {value : Json} (decoded : Decoded value) : loads value.dumps = some value := by
  rw [dumps_eq]
  apply loads_dumpsWith _ decoded
  intro c space
  rw [List.mem_singleton.mp space]
  rfl

end Kit.Json

import Mathlib.Data.List.DropRight

namespace Kit.Base64

def alphabet : List Char := "ABCDEFGHIJKLMNOPQRSTUVWXYZabcdefghijklmnopqrstuvwxyz0123456789-_".toList

def symbol (n : Nat) : Char := alphabet.getD n 'A'

/-- The urlsafe decoder takes the characters of the standard alphabet as well. -/
def value? (c : Char) : Option Nat :=
  if c = '+' then some 62 else if c = '/' then some 63 else alphabet.idxOf? c

def digits : List UInt8 → List Char
  | [] => []
  | [a] => [symbol (a.toNat / 4), symbol (a.toNat % 4 * 16)]
  | [a, b] => [symbol (a.toNat / 4), symbol (a.toNat % 4 * 16 + b.toNat / 16), symbol (b.toNat % 16 * 4)]
  | a :: b :: c :: rest =>
    symbol (a.toNat / 4) :: symbol (a.toNat % 4 * 16 + b.toNat / 16) :: symbol (b.toNat % 16 * 4 + c.toNat / 64) ::
      symbol (c.toNat % 64) :: digits rest

def padding (length : Nat) : List Char := List.replicate ((4 - length % 4) % 4) '='

/-- `base64.urlsafe_b64encode` -/
def encode (bytes : List UInt8) : List Char := digits bytes ++ padding (digits bytes).length

/-- `binascii.a2b_base64` where it is not strict, at a place of a quad with the bits left over. -/
def decodeFrom : Nat → Nat → Nat → List Char → Option (List UInt8)
  | quad, _, _, [] => if quad = 0 then some [] else none
  | quad, left, pads, c :: rest =>
    if c = '=' then
      if quad < 2 then decodeFrom quad left pads rest
      else if 4 ≤ quad + (pads + 1) then some []
      else decodeFrom quad left (pads + 1) rest
    else
      match value? c with
      | none => decodeFrom quad left pads rest
      | some v =>
        match quad with
        | 0 => decodeFrom 1 v 0 rest
        | 1 => (decodeFrom 2 (v % 16) 0 rest).map (UInt8.ofNat (left * 4 + v / 16) :: ·)
        | 2 => (decodeFrom 3 (v % 4) 0 rest).map (UInt8.ofNat (left * 16 + v / 4) :: ·)
        | _ => (decodeFrom 0 0 0 rest).map (UInt8.ofNat (left * 64 + v) :: ·)

def decode (text : List Char) : Option (List UInt8) := decodeFrom 0 0 0 text

theorem symbol_spec {n : Nat} (bound : n < 64) :
    value? (symbol n) = some n ∧ symbol n ≠ '=' ∧ symbol n ≠ '.' ∧ (symbol n).toNat < 128 := by
  have all : (List.range 64).all (fun n => value? (symbol n) = some n ∧ symbol n ≠ '=' ∧ symbol n ≠ '.' ∧
      (symbol n).toNat < 128) = true := by decide
  exact of_decide_eq_true (List.all_eq_true.mp all n (List.mem_range.mpr bound))

/-- A character of the encoding is neither a padding nor a full stop. -/
theorem digits_plain (bytes : List UInt8) : ∀ c ∈ digits bytes, c ≠ '=' ∧ c ≠ '.' ∧ c.toNat < 128 := by
  have plain : ∀ n, n < 64 → symbol n ≠ '=' ∧ symbol n ≠ '.' ∧ (symbol n).toNat < 128 :=
    fun n bound => (symbol_spec bound).2
  fun_induction digits bytes with
  | case1 => simp
  | case2 a =>
    have bound := a.toNat_lt
    intro c mem
    simp only [List.mem_cons, List.not_mem_nil, or_false] at mem
    rcases mem with rfl | rfl <;> exact plain _ (by omega)
  | case3 a b =>
    have bound := a.toNat_lt
    have bound' := b.toNat_lt
    intro c mem
    simp only [List.mem_cons, List.not_mem_nil, or_false] at mem
    rcases mem with rfl | rfl | rfl <;> exact plain _ (by omega)
  | case4 a b c rest ih =>
    have bound := a.toNat_lt
    have bound' := b.toNat_lt
    have bound'' := c.toNat_lt
    intro d mem
    simp only [List.mem_cons] at mem
    rcases mem with rfl | rfl | rfl | rfl | later
    · exact plain _ (by omega)
    · exact plain _ (by omega)
    · exact plain _ (by omega)
    · exact plain _ (by omega)
    · exact ih d later

section Decoding

variable {n : Nat} {left pads : Nat} {rest : List Char}

theorem decodeFrom_zero (bound : n < 64) : decodeFrom 0 left pads (symbol n :: rest) = decodeFrom 1 n 0 rest := by
  obtain ⟨value, plain, -⟩ := symbol_spec bound
  rw [decodeFrom, if_neg plain, value]
  rfl

theorem decodeFrom_one (bound : n < 64) :
    decodeFrom 1 left pads (symbol n :: rest) =
      (decodeFrom 2 (n % 16) 0 rest).map (UInt8.ofNat (left * 4 + n / 16) :: ·) := by
  obtain ⟨value, plain, -⟩ := symbol_spec bound
  rw [decodeFrom, if_neg plain, value]
  rfl

theorem decodeFrom_two (bound : n < 64) :
    decodeFrom 2 left pads (symbol n :: rest) =
      (decodeFrom 3 (n % 4) 0 rest).map (UInt8.ofNat (left * 16 + n / 4) :: ·) := by
  obtain ⟨value, plain, -⟩ := symbol_spec bound
  rw [decodeFrom, if_neg plain, value]
  rfl

theorem decodeFrom_three (bound : n < 64) :
    decodeFrom 3 left pads (symbol n :: rest) = (decodeFrom 0 0 0 rest).map (UInt8.ofNat (left * 64 + n) :: ·) := by
  obtain ⟨value, plain, -⟩ := symbol_spec bound
  rw [decodeFrom, if_neg plain, value]
  rfl

end Decoding

theorem ofNat_eq {b : UInt8} {n : Nat} (same : n = b.toNat) : UInt8.ofNat n = b := by
  rw [same]
  exact UInt8.ofNat_toNat

/-- Whole quads before the end change nothing about the padding. -/
theorem padding_add (n : Nat) : padding (n + 4) = padding n := by
  unfold padding
  rw [Nat.add_mod_right]

theorem decode_encode (bytes : List UInt8) : decode (encode bytes) = some bytes := by
  unfold decode encode
  fun_induction digits bytes with
  | case1 => rfl
  | case2 a =>
    have bound : a.toNat < 256 := a.toNat_lt
    have first : a.toNat / 4 < 64 := by omega
    have second : a.toNat % 4 * 16 < 64 := by omega
    have byte : a.toNat / 4 * 4 + a.toNat % 4 * 16 / 16 = a.toNat := by omega
    have padded : decodeFrom 2 (a.toNat % 4 * 16 % 16) 0 (padding 2) = some [] := rfl
    show decodeFrom 0 0 0 (symbol _ :: symbol _ :: padding 2) = some [a]
    rw [decodeFrom_zero first, decodeFrom_one second, padded, ofNat_eq byte]
    rfl
  | case3 a b =>
    have bound : a.toNat < 256 := a.toNat_lt
    have bound' : b.toNat < 256 := b.toNat_lt
    have first : a.toNat / 4 < 64 := by omega
    have second : a.toNat % 4 * 16 + b.toNat / 16 < 64 := by omega
    have third : b.toNat % 16 * 4 < 64 := by omega
    have byte : a.toNat / 4 * 4 + (a.toNat % 4 * 16 + b.toNat / 16) / 16 = a.toNat := by omega
    have byte' : (a.toNat % 4 * 16 + b.toNat / 16) % 16 * 16 + b.toNat % 16 * 4 / 4 = b.toNat := by omega
    have padded : decodeFrom 3 (b.toNat % 16 * 4 % 4) 0 (padding 3) = some [] := rfl
    show decodeFrom 0 0 0 (symbol _ :: symbol _ :: symbol _ :: padding 3) = some [a, b]
    rw [decodeFrom_zero first, decodeFrom_one second, decodeFrom_two third, padded, ofNat_eq byte, ofNat_eq byte']
    rfl
  | case4 a b c rest ih =>
    have bound : a.toNat < 256 := a.toNat_lt
    have bound' : b.toNat < 256 := b.toNat_lt
    have bound'' : c.toNat < 256 := c.toNat_lt
    have first : a.toNat / 4 < 64 := by omega
    have second : a.toNat % 4 * 16 + b.toNat / 16 < 64 := by omega
    have third : b.toNat % 16 * 4 + c.toNat / 64 < 64 := by omega
    have fourth : c.toNat % 64 < 64 := by omega
    have byte : a.toNat / 4 * 4 + (a.toNat % 4 * 16 + b.toNat / 16) / 16 = a.toNat := by omega
    have byte' : (a.toNat % 4 * 16 + b.toNat / 16) % 16 * 16 + (b.toNat % 16 * 4 + c.toNat / 64) / 4 = b.toNat := by omega
    have byte'' : (b.toNat % 16 * 4 + c.toNat / 64) % 4 * 64 + c.toNat % 64 = c.toNat := by omega
    have later : decodeFrom 0 0 0 (digits rest ++ padding ((digits rest).length + 4)) = some rest := by
      rw [padding_add]
      exact ih
    show decodeFrom 0 0 0 (symbol _ :: symbol _ :: symbol _ :: symbol _ ::
      (digits rest ++ padding ((digits rest).length + 4))) = _
    rw [decodeFrom_zero first, decodeFrom_one second, decodeFrom_two third, decodeFrom_three fourth]
    rw [ofNat_eq byte, ofNat_eq byte', ofNat_eq byte'', later]
    rfl

/-- Padding that is cut off and made up for is the padding again. -/
theorem rdropWhile_encode (bytes : List UInt8) : (encode bytes).rdropWhile (· = '=') = digits bytes := by
  have cut : ∀ n, (digits bytes ++ List.replicate n '=').rdropWhile (· = '=') = digits bytes := by
    intro n
    induction n with
    | zero =>
      rw [List.replicate_zero, List.append_nil, List.rdropWhile_eq_self_iff]
      intro there
      have plain := (digits_plain bytes _ (List.getLast_mem there)).1
      simpa using plain
    | succ n ih =>
      rw [List.replicate_succ', ← List.append_assoc, List.rdropWhile_concat_pos _ _ _ (by decide)]
      exact ih
  exact cut _

end Kit.Base64

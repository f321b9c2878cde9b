import Mathlib.Algebra.Ring.Rat

namespace Kit

/-- A float; a finite one is the rational number that it stands for, except for the zero with a sign. -/
inductive PyFloat where
  | finite (value : ℚ)
  | negativeZero
  | infinity (negative : Bool)
  | nan
deriving DecidableEq

namespace PyFloat

/-- What a float is compared as. -/
def plain : PyFloat → PyFloat
  | .negativeZero => .finite 0
  | value => value

/-- `==` of numbers -/
def eq (a b : PyFloat) : Bool := a.plain ≠ .nan ∧ a.plain = b.plain

def isZero (value : PyFloat) : Bool := value.plain = .finite 0

/-- The nearest whole number to `a / b`, the even one of two. -/
def roundHalfEven (a b : Nat) : Nat :=
  let rest := a % b
  if 2 * rest < b ∨ 2 * rest = b ∧ a / b % 2 = 0 then a / b else a / b + 1

/-- `m * 2 ^ e`, zero and what lies beyond the range included. -/
def scaled (negative : Bool) (m : Nat) (e : Int) : PyFloat :=
  let value := if 0 ≤ e then mkRat (m * 2 ^ e.toNat) 1 else mkRat m (2 ^ (-e).toNat)
  if m = 0 then if negative then .negativeZero else .finite 0
  else if mkRat (2 ^ 1024) 1 ≤ value then .infinity negative
  else .finite (if negative then -value else value)

/-- The double nearest to `a / b`: 53 bits, and no exponent below that of the least one. -/
def nearest (negative : Bool) (a b : Nat) : PyFloat :=
  let guess : Int := Nat.log2 a - Nat.log2 b
  let reached := if 0 ≤ guess then b * 2 ^ guess.toNat ≤ a else b ≤ a * 2 ^ (-guess).toNat
  let e := max (if reached then guess - 52 else guess - 53) (-1074)
  scaled negative (if 0 ≤ e then roundHalfEven a (b * 2 ^ e.toNat) else roundHalfEven (a * 2 ^ (-e).toNat) b) e

def exponentOf : List Char → Int
  | '-' :: digits => -(Nat.ofDigitChars 10 digits 0 : Int)
  | '+' :: digits => Nat.ofDigitChars 10 digits 0
  | digits => Nat.ofDigitChars 10 digits 0

def isExponentMark (c : Char) : Bool := c = 'e' || c = 'E'

def ofMagnitude (negative : Bool) (text : List Char) : PyFloat :=
  let mantissa := text.takeWhile fun c => !isExponentMark c
  let whole := mantissa.takeWhile Char.isDigit
  let fraction := (mantissa.dropWhile Char.isDigit).drop 1
  let digits := Nat.ofDigitChars 10 (whole ++ fraction) 0
  let scale := exponentOf ((text.dropWhile fun c => !isExponentMark c).drop 1) - fraction.length
  if 0 ≤ scale then nearest negative (digits * 10 ^ scale.toNat) 1 else nearest negative digits (10 ^ (-scale).toNat)

/-- `float` of a number as JSON writes it. -/
def ofLiteral (text : List Char) : PyFloat :=
  let negative := text.head? = some '-'
  let magnitude := if negative then text.drop 1 else text
  if magnitude = ['N', 'a', 'N'] then .nan
  else if magnitude = ['I', 'n', 'f', 'i', 'n', 'i', 't', 'y'] then .infinity negative
  else ofMagnitude negative magnitude

theorem eq_self {value : PyFloat} (number : value ≠ .nan) : eq value value = true := by
  have plain : value.plain ≠ .nan := by
    cases value with
    | nan => exact absurd rfl number
    | _ => exact PyFloat.noConfusion
  simp [eq, plain]

theorem eq_symm {a b : PyFloat} (same : eq a b = true) : eq b a = true := by
  obtain ⟨number, equal⟩ := of_decide_eq_true same
  simp [eq, ← equal, number]

example : ofLiteral "1.50".toList = ofLiteral "1.5".toList := by decide +kernel

end PyFloat

end Kit

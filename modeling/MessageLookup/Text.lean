/-! Text of numbers and of values with named fields. A number is written in decimal digits without
leading zeros, with a minus sign before a negative one. A value is written as its name and its
fields, each with its own name, between braces. -/

namespace MessageLookup

namespace Decimal

def natural (n : Nat) : String := String.ofList (Nat.toDigits 10 n)

def integer : Int → String
  | .ofNat n => natural n
  | .negSucc n => "-" ++ natural (n + 1)

/-- The text of an error code or a status. -/
def code (c : Int32) : String := integer c.toInt

/-- The digits read back. -/
theorem ofDigitChars_natural (n : Nat) : Nat.ofDigitChars 10 (natural n).toList 0 = n := by
  simp [natural, Nat.ofDigitChars_toDigits]

theorem isDigit_of_mem_natural {n : Nat} {c : Char} (hc : c ∈ (natural n).toList) :
    c.isDigit = true := by
  rw [natural, String.toList_ofList] at hc
  exact Nat.isDigit_of_mem_toDigits (by decide) (by decide) hc

theorem toList_negSucc (n : Nat) :
    (integer (.negSucc n)).toList = '-' :: (natural (n + 1)).toList := by
  rw [integer, String.toList_append]
  rfl

theorem isDigit_or_minus_of_mem_code {c : Int32} {x : Char} (hx : x ∈ (code c).toList) :
    x.isDigit = true ∨ x = '-' := by
  rw [code] at hx
  cases hc : c.toInt with
  | ofNat n =>
    rw [hc] at hx
    exact Or.inl (isDigit_of_mem_natural hx)
  | negSucc n =>
    rw [hc, toList_negSucc, List.mem_cons] at hx
    rcases hx with rfl | hx
    · exact Or.inr rfl
    · exact Or.inl (isDigit_of_mem_natural hx)

end Decimal

namespace Record

def field (f : String × String) : String := f.1 ++ ": " ++ f.2

def text (name : String) (fields : List (String × String)) : String :=
  name ++ " \x7b " ++ ", ".intercalate (fields.map field) ++ " \x7d"

end Record

end MessageLookup

import Mathlib.Tactic.Common

/-!
# Numerals without zero

Numbers from one are written with the digits from one to a base, so that each has one numeral: the
columns of a spreadsheet with letters. Digits are counted from zero here.
-/

namespace GuruJi.Lib

variable {base : Nat}

/-- The digits of a number from one, as long as there is fuel. -/
def numeralFrom (base : Nat) : Nat → Nat → List Nat
  | 0, _ => []
  | fuel + 1, n => if n = 0 then [] else numeralFrom base fuel ((n - 1) / base) ++ [(n - 1) % base]

def numeral (base n : Nat) : List Nat := numeralFrom base n n

theorem numeralFrom_lt (hbase : 0 < base) (fuel n : Nat) : ∀ d ∈ numeralFrom base fuel n, d < base := by
  induction fuel generalizing n with
  | zero => exact List.forall_mem_nil _
  | succ fuel ih =>
    intro d hd
    rw [numeralFrom] at hd
    split_ifs at hd
    · cases hd
    · rcases List.mem_append.mp hd with hd | hd
      · exact ih _ d hd
      · rw [List.mem_singleton.mp hd]
        exact Nat.mod_lt _ hbase

theorem numeral_lt (hbase : 0 < base) (n : Nat) : ∀ d ∈ numeral base n, d < base :=
    numeralFrom_lt hbase n n

end GuruJi.Lib

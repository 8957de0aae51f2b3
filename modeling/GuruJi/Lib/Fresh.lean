import Mathlib.Data.List.Nodup
import Mathlib.Data.List.Perm.Subperm
import Mathlib.Data.List.Range

/-!
# The first free name

A loop that counts up until a name is free ends, for names that differ whenever their numbers do: at most
as many are taken as there are names (`firstFree_not_mem`).
-/

namespace GuruJi.Lib

variable {α : Type*} [DecidableEq α] (f : Nat → α)

/-- `while f(number) in taken: number += 1`, as long as there is fuel. -/
def firstFree (taken : List α) : Nat → Nat → Nat
  | 0, number => number
  | fuel + 1, number => if f number ∈ taken then firstFree taken fuel (number + 1) else number

variable {f} {taken : List α}

variable (f taken) in
/-- The loop passes over taken names only, and stops at a free one or when the fuel is used up. -/
theorem firstFree_spec (fuel number : Nat) : number ≤ firstFree f taken fuel number ∧
      (∀ i, number ≤ i → i < firstFree f taken fuel number → f i ∈ taken) ∧
        (f (firstFree f taken fuel number) ∉ taken ∨ firstFree f taken fuel number = number + fuel) := by
  induction fuel generalizing number with
  | zero => exact ⟨le_refl _, fun i hle hlt => absurd hlt (Nat.not_lt.mpr hle), .inr rfl⟩
  | succ fuel ih =>
    rw [firstFree]
    split_ifs with hmem
    · obtain ⟨hle, hpassed, hend⟩ := ih (number + 1)
      refine ⟨by omega, fun i hi hlt => ?_, hend.imp_right fun h => by omega⟩
      rcases Nat.eq_or_lt_of_le hi with rfl | hi
      · exact hmem
      · exact hpassed i hi hlt
    · exact ⟨le_refl _, fun i hle hlt => absurd hlt (Nat.not_lt.mpr hle), .inl hmem⟩

/-- **With as much fuel as names are taken, a free one is found.** -/
theorem firstFree_not_mem (hf : Function.Injective f) (number : Nat) :
    f (firstFree f taken taken.length number) ∉ taken := by
  obtain ⟨-, hpassed, hend⟩ := firstFree_spec f taken taken.length number
  rcases hend with hfree | hall
  · exact hfree
  · intro hmem
    -- all names up to the last are taken: one more than there are
    have hsubset : (List.range' number (taken.length + 1)).map f ⊆ taken := by
      intro a ha
      obtain ⟨i, hi, rfl⟩ := List.mem_map.mp ha
      rw [List.mem_range'_1] at hi
      rcases Nat.lt_or_ge i (number + taken.length) with hlt | hge
      · exact hpassed i hi.1 (hall ▸ hlt)
      · have hlast : i = firstFree f taken taken.length number := by omega
        exact hlast ▸ hmem
    have hnodup : ((List.range' number (taken.length + 1)).map f).Nodup :=
      List.Nodup.map hf List.nodup_range'
    have hlength := (List.subperm_of_subset hnodup hsubset).length_le
    rw [List.length_map, List.length_range'] at hlength
    omega

end GuruJi.Lib

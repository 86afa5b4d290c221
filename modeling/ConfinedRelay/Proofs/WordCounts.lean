/-!
Counters of 64 bits. The counters of the relay are natural numbers here. One of 64 bits that is
raised in step with them shows the same as long as it does not wrap.
-/
namespace ConfinedRelay

variable {α : Type} (p : α → Bool)

/-- A counter of 64 bits that every answer of a kind raises by one. -/
def wordCount (n : UInt64) : List α → UInt64
  | [] => n
  | a :: later => wordCount (if p a then n + 1 else n) later

/-- The word counts exactly until it wraps. -/
theorem toNat_wordCount (n : UInt64) (answers : List α) :
    (wordCount p n answers).toNat = (n.toNat + answers.countP p) % UInt64.size := by
  induction answers generalizing n with
  | nil => exact (Nat.mod_eq_of_lt n.toNat_lt).symm
  | cons a later ih =>
    rw [wordCount, ih, List.countP_cons]
    cases p a with
    | true =>
      simp only [if_true, UInt64.toNat_add, UInt64.toNat_one, UInt64.size]
      omega
    | false => simp

theorem toNat_wordCount_zero {answers : List α} (h : answers.countP p < UInt64.size) :
    (wordCount p 0 answers).toNat = answers.countP p := by
  rw [toNat_wordCount, UInt64.toNat_zero, Nat.zero_add, Nat.mod_eq_of_lt h]

end ConfinedRelay

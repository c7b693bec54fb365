/-!
# Words

Words of 64 bits hold integers, with a sign or without one. An integer outside their range has no
word; whoever asks for one says what stands in its place.
-/

namespace ReportSql.Decimal

/-- The signed word that holds an integer. -/
def signedWord? (n : Int) : Option Int64 :=
  if -9223372036854775808 ≤ n ∧ n ≤ 9223372036854775807 then some (.ofInt n) else none

/-- The unsigned word that holds an integer. -/
def unsignedWord? (n : Int) : Option UInt64 :=
  if 0 ≤ n ∧ n ≤ 18446744073709551615 then some (.ofNat n.toNat) else none

/-- The product of two signed words, when it fits one. -/
def product? (a b : Int64) : Option Int64 :=
  signedWord? (a.toInt * b.toInt)

theorem signedWord?_eq_some_iff {n : Int} {w : Int64} : signedWord? n = some w ↔ w.toInt = n := by
  have hlower := w.le_toInt
  have hupper := w.toInt_lt
  rw [signedWord?]
  constructor
  · intro h
    split at h
    · rename_i hn
      obtain rfl := Option.some.inj h
      exact Int64.toInt_ofInt_of_le (by omega) (by omega)
    · cases h
  · rintro rfl
    rw [if_pos (by omega), Int64.ofInt_toInt]

theorem signedWord?_eq_none_iff {n : Int} :
    signedWord? n = none ↔ ¬(-9223372036854775808 ≤ n ∧ n ≤ 9223372036854775807) := by
  simp [signedWord?]

/-- Every integer between the ends of the signed words has its word. -/
theorem exists_signedWord {n : Int}
    (h : -9223372036854775808 ≤ n ∧ n ≤ 9223372036854775807) : ∃ w : Int64, w.toInt = n :=
  ⟨.ofInt n, Int64.toInt_ofInt_of_le (by omega) (by omega)⟩

theorem unsignedWord?_eq_some_iff {n : Int} {w : UInt64} :
    unsignedWord? n = some w ↔ (w.toNat : Int) = n := by
  have hupper := w.toNat_lt
  rw [unsignedWord?]
  constructor
  · intro h
    split at h
    · rename_i hn
      obtain rfl := Option.some.inj h
      rw [UInt64.toNat_ofNat_of_lt' (by simp [UInt64.size]; omega)]
      omega
    · cases h
  · rintro rfl
    rw [if_pos (by omega), Int.toNat_natCast, UInt64.ofNat_toNat]

theorem unsignedWord?_eq_none_iff {n : Int} :
    unsignedWord? n = none ↔ ¬(0 ≤ n ∧ n ≤ 18446744073709551615) := by
  simp [unsignedWord?]

theorem product?_eq_some_iff {a b w : Int64} :
    product? a b = some w ↔ w.toInt = a.toInt * b.toInt :=
  signedWord?_eq_some_iff

end ReportSql.Decimal

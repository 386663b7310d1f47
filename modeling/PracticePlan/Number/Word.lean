namespace PracticePlan
namespace Word

/-!
# Words of 64 bits

A word holds the numbers below 2^64.  The word of a number, a product and a sum
are given only when they fit, so that none of them wraps around.  Each is
determined by the value that it has as a natural number, also where a product is
the start of a sum.
-/

/-- The word of a number, when it fits. -/
def ofNat? (value : Nat) : Option UInt64 :=
  if fits : value < UInt64.size then some (UInt64.ofNatLT value fits) else none

/-- The product of two words, when it fits. -/
def mul? (first second : UInt64) : Option UInt64 :=
  ofNat? (first.toNat * second.toNat)

/-- The sum of two words, when it fits. -/
def add? (first second : UInt64) : Option UInt64 :=
  ofNat? (first.toNat + second.toNat)

theorem ofNat?_eq_some_iff {value : Nat} {word : UInt64} :
    ofNat? value = some word ↔ word.toNat = value := by
  unfold ofNat?
  constructor
  · intro found
    split at found
    · rw [← Option.some.inj found, UInt64.toNat_ofNatLT]
    · cases found
  · intro same
    subst same
    rw [dif_pos word.toNat_lt, UInt64.ofNatLT_toNat]

theorem mul?_eq_some_iff {first second product : UInt64} :
    mul? first second = some product ↔ product.toNat = first.toNat * second.toNat :=
  ofNat?_eq_some_iff

theorem add?_eq_some_iff {first second sum : UInt64} :
    add? first second = some sum ↔ sum.toNat = first.toNat + second.toNat :=
  ofNat?_eq_some_iff

theorem exists_toNat_eq {value : Nat} (fits : value < UInt64.size) :
    ∃ word : UInt64, word.toNat = value :=
  ⟨UInt64.ofNatLT value fits, UInt64.toNat_ofNatLT⟩

/-- A product fits wherever a sum that it starts does. -/
theorem mul?_bind_add?_eq_some_iff {first second third sum : UInt64} :
    ((mul? first second).bind fun product => add? product third) = some sum ↔
      sum.toNat = first.toNat * second.toNat + third.toNat := by
  rw [Option.bind_eq_some_iff]
  simp only [mul?_eq_some_iff, add?_eq_some_iff]
  constructor
  · rintro ⟨product, whole, rest⟩
    rw [rest, whole]
  · intro whole
    have bound := sum.toNat_lt
    obtain ⟨product, same⟩ := exists_toNat_eq
      (show first.toNat * second.toNat < UInt64.size by rw [UInt64.size]; omega)
    exact ⟨product, same, by rw [whole, same]⟩

end Word
end PracticePlan

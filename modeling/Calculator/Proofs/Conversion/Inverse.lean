import Calculator.Proofs.Binary64.Exact
import Calculator.Proofs.Conversion.Registry

/-!
# Conversions back and forth

Every registered conversion has its inverse registered under the reversed key.  The formulas
are those of any arithmetic, so they can be read in rational numbers as well as in doubles:
without rounding, the two undo each other.
-/

namespace Calculator

deriving instance DecidableEq for UnitConversion

namespace UnitConversion

/-! ## The formulas -/

/-- The conversion in the other direction. -/
def inverse : UnitConversion → UnitConversion
  | times factor => dividedBy factor
  | dividedBy factor => times factor
  | fahrenheitToCelsius => celsiusToFahrenheit
  | celsiusToFahrenheit => fahrenheitToCelsius

/-- The constants by which a conversion or its inverse divides. -/
def divisors : UnitConversion → List Float
  | times factor => [factor]
  | dividedBy factor => [factor]
  | fahrenheitToCelsius => [5, 9]
  | celsiusToFahrenheit => [5, 9]

/-- Over a field a conversion is undone by its inverse, unless a factor is read as zero. -/
theorem inverse_applyIn {K : Type} [Field K] {read : Float → K} {u : UnitConversion}
    (h : ∀ d ∈ u.divisors, read d ≠ 0) (x : K) :
    u.inverse.applyIn read (u.applyIn read x) = x := by
  cases u with
  | times factor =>
      have hfactor : read factor ≠ 0 := h factor (List.mem_singleton_self _)
      exact mul_div_cancel_right₀ x hfactor
  | dividedBy factor =>
      have hfactor : read factor ≠ 0 := h factor (List.mem_singleton_self _)
      exact div_mul_cancel₀ x hfactor
  | fahrenheitToCelsius =>
      have hfive : read 5 ≠ 0 := h 5 (by simp [divisors])
      have hnine : read 9 ≠ 0 := h 9 (by simp [divisors])
      simp only [inverse, applyIn]
      field_simp
      ring
  | celsiusToFahrenheit =>
      have hfive : read 5 ≠ 0 := h 5 (by simp [divisors])
      have hnine : read 9 ≠ 0 := h 9 (by simp [divisors])
      simp only [inverse, applyIn]
      field_simp
      ring

/-! ## The registry -/

theorem mem_registry_of_find? {key : String} {u : UnitConversion} (h : find? key = some u) :
    (key, u) ∈ registry := by
  rw [find?, List.lookup_eq_some_iff] at h
  obtain ⟨front, back, hregistry, -⟩ := h
  rw [hregistry]
  simp

theorem divisors_ne_zero :
    ∀ entry ∈ registry, ∀ d ∈ entry.2.divisors,
      (Binary64.magnitude? d).any (0 < ·.significand) = true := by
  decide +kernel

/-- Wherever ` to ` stands in a key, the sides around it make a key the other way round. -/
theorem find?_around_to :
    ∀ entry ∈ registry, ∀ i ∈ List.range entry.1.toList.length,
      (entry.1.toList.drop i).take 4 = " to ".toList →
        find? (String.ofList (entry.1.toList.drop (i + 4)) ++ " to " ++
          String.ofList (entry.1.toList.take i)) = some entry.2.inverse := by
  decide +kernel

variable {source target : String} {u : UnitConversion}

/-- The units of a key in reverse order are the key of the inverse. -/
theorem find?_reversed (h : find? (source ++ " to " ++ target) = some u) :
    find? (target ++ " to " ++ source) = some u.inverse := by
  have hkey := find?_around_to _ (mem_registry_of_find? h) source.toList.length
  simp only [String.toList_append, List.append_assoc] at hkey
  rw [List.drop_left, List.take_left, ← List.drop_drop, List.drop_left] at hkey
  have hreversed := hkey (by simp) rfl
  rwa [List.drop_left' (by rfl), String.ofList_toList, String.ofList_toList] at hreversed

theorem inverse_applyIn_exactValue (h : find? (source ++ " to " ++ target) = some u) (x : ℚ) :
    u.inverse.applyIn Binary64.exactValue (u.applyIn Binary64.exactValue x) = x :=
  inverse_applyIn
    (fun d hd => Binary64.exactValue_ne_zero (divisors_ne_zero _ (mem_registry_of_find? h) d hd)) x

end UnitConversion
end Calculator

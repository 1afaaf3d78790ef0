import Calculator.Proofs.Binary64.One
import Calculator.Proofs.Graph.Extent

/-!
# The range of values of a graph

Samples that are no finite doubles do not count.  Where the others are all equal, the range is
widened by one on both sides, and this rounds: a multiple of four beyond `2 ^ 53` absorbs it, so
that the range of such samples stays empty.
-/

namespace Calculator
namespace Graph

open Binary64

variable {ys : List Float} {low high : Float}

/-- The finite samples are all one number, and it absorbs one. -/
def IsStuck (ys : List Float) : Prop :=
  ∃ x, AbsorbsOne x ∧ ∀ y ∈ ys, y.isFinite = true → exactValue y = x

theorem isFinite_of_mem_filter {y : Float} (h : y ∈ ys.filter Float.isFinite) :
    y.isFinite = true :=
  (List.mem_filter.mp h).2

theorem orderedBy_exactValue (ys : List Float) :
    OrderedBy exactValue (ys.filter Float.isFinite) :=
  fun _ ha _ hb => le_iff_exactValue (isFinite_of_mem_filter ha) (isFinite_of_mem_filter hb)

theorem bounds_eq_none_iff :
    bounds Float.isFinite ys = none ↔ ∀ y ∈ ys, y.isFinite = false := by
  rw [bounds, Option.map_eq_none_iff, extent_eq_none_iff, List.filter_eq_nil_iff]
  simp only [Bool.not_eq_true]

/-- The range is the extent of the finite samples, or one more on both sides of their value. -/
theorem exists_extent_of_bounds (h : bounds Float.isFinite ys = some (low, high)) :
    ∃ least ∈ ys.filter Float.isFinite, ∃ greatest ∈ ys.filter Float.isFinite,
      (∀ y ∈ ys.filter Float.isFinite,
        exactValue least ≤ exactValue y ∧ exactValue y ≤ exactValue greatest) ∧
      (low, high) =
        if least == greatest then (least - 1, greatest + 1) else (least, greatest) := by
  have hne : ys.filter Float.isFinite ≠ [] := by
    intro hnil
    rw [bounds, hnil] at h
    cases h
  obtain ⟨least, hleast, greatest, hgreatest, hextent, hall⟩ :=
    exists_extent (orderedBy_exactValue ys) hne
  rw [bounds, hextent, Option.map_some] at h
  exact ⟨least, hleast, greatest, hgreatest, hall, (Option.some.inj h).symm⟩

/-- The ends of the range, as numbers: every finite sample lies between them, and they differ
unless the samples are stuck. -/
theorem exactValue_of_bounds (h : bounds Float.isFinite ys = some (low, high)) :
    (low.isFinite = true ∧ high.isFinite = true) ∧
      (∀ y ∈ ys, y.isFinite = true →
        exactValue low ≤ exactValue y ∧ exactValue y ≤ exactValue high) ∧
      (exactValue low < exactValue high ↔ ¬ IsStuck ys) := by
  obtain ⟨least, hleast, greatest, hgreatest, hall, hends⟩ := exists_extent_of_bounds h
  have hfinite := isFinite_of_mem_filter hleast
  have hfinite' := isFinite_of_mem_filter hgreatest
  have hbetween : ∀ y ∈ ys, y.isFinite = true →
      exactValue least ≤ exactValue y ∧ exactValue y ≤ exactValue greatest :=
    fun y hy hfin => hall y (List.mem_filter.mpr ⟨hy, hfin⟩)
  by_cases heq : least == greatest
  · have hsame := (beq_iff_exactValue hfinite hfinite').mp heq
    have hvalue : ∀ y ∈ ys, y.isFinite = true → exactValue y = exactValue greatest :=
      fun y hy hfin => le_antisymm (hbetween y hy hfin).2 (hsame ▸ (hbetween y hy hfin).1)
    rw [if_pos heq, Prod.mk.injEq] at hends
    obtain ⟨rfl, rfl⟩ := hends
    have hbelow := exactValue_sub_one_le hfinite
    have habove := le_exactValue_add_one hfinite'
    refine ⟨⟨(isRounded_sub_one hfinite).finite, (isRounded_add_one hfinite').finite⟩,
      fun y hy hfin => ⟨hbelow.trans (hbetween y hy hfin).1,
        (hbetween y hy hfin).2.trans habove⟩, ?_⟩
    rw [sub_one_lt_add_one_iff hfinite hfinite' hsame, not_iff_not]
    constructor
    · exact fun habsorbs => ⟨_, habsorbs, hvalue⟩
    · rintro ⟨x, habsorbs, hstuck⟩
      rw [hstuck greatest (List.mem_filter.mp hgreatest).1 hfinite']
      exact habsorbs
  · have hne : exactValue least ≠ exactValue greatest :=
      fun hsame => heq ((beq_iff_exactValue hfinite hfinite').mpr hsame)
    have hlt := lt_of_le_of_ne (hall greatest hgreatest).1 hne
    rw [if_neg heq, Prod.mk.injEq] at hends
    obtain ⟨rfl, rfl⟩ := hends
    refine ⟨⟨hfinite, hfinite'⟩, hbetween, ?_⟩
    refine iff_of_true hlt ?_
    rintro ⟨x, -, hstuck⟩
    refine hne ?_
    rw [hstuck low (List.mem_filter.mp hleast).1 hfinite,
      hstuck high (List.mem_filter.mp hgreatest).1 hfinite']

/-- There is a range exactly if there is a finite sample.  It reaches from one finite double to
another, holds every finite sample, and is not empty, except where all finite samples are one
multiple of four beyond `2 ^ 53`. -/
theorem range_of_samples (ys : List Float) :
    (bounds Float.isFinite ys = none ↔ ∀ y ∈ ys, y.isFinite = false) ∧
    ∀ low high, bounds Float.isFinite ys = some (low, high) →
      (low.isFinite = true ∧ high.isFinite = true) ∧
      (∀ y ∈ ys, y.isFinite = true → low ≤ y ∧ y ≤ high) ∧
      (low < high ↔ ¬ ∃ n : ℤ, 2 ^ 53 < |4 * n| ∧
        ∀ y ∈ ys, y.isFinite = true → exactValue y = 4 * n) := by
  refine ⟨bounds_eq_none_iff, fun low high h => ?_⟩
  obtain ⟨⟨hlow, hhigh⟩, hbetween, hstrict⟩ := exactValue_of_bounds h
  refine ⟨⟨hlow, hhigh⟩, fun y hy hfin => ?_, ?_⟩
  · rw [le_iff_exactValue hlow hfin, le_iff_exactValue hfin hhigh]
    exact hbetween y hy hfin
  · rw [lt_iff_exactValue hlow hhigh, hstrict, not_iff_not]
    constructor
    · rintro ⟨_, ⟨n, hlarge, rfl⟩, hstuck⟩
      exact ⟨n, hlarge, hstuck⟩
    · rintro ⟨n, hlarge, hstuck⟩
      exact ⟨_, ⟨n, hlarge, rfl⟩, hstuck⟩

/-- Two samples of two, and a failed one. -/
theorem range_of_twos : bounds Float.isFinite [2, nan, 2] = some (1, 3) ∧ (1 : Float) < 3 := by
  have hbounds : bounds Float.isFinite [2, nan, 2] = some (1, 3) := by decide +kernel
  refine ⟨hbounds, ?_⟩
  obtain ⟨-, hrange⟩ := range_of_samples [2, nan, 2]
  obtain ⟨-, -, hstrict⟩ := hrange 1 3 hbounds
  refine hstrict.mpr ?_
  rintro ⟨n, hlarge, hstuck⟩
  have htwo : exactValue 2 = 2 := by
    have hmagnitude : magnitude? 2 = some ⟨2 ^ 52, -51⟩ := by decide +kernel
    have hsign : isNegative 2 = false := by decide +kernel
    rw [exactValue, hmagnitude, hsign]
    norm_num [Scaled.value]
  have hvalue := hstuck 2 (by simp) (by decide +kernel)
  rw [htwo] at hvalue
  have hint : (2 : ℤ) = 4 * n := by exact_mod_cast hvalue
  omega

/-- The range of a single sample of `2 ^ 54` is empty. -/
theorem not_forall_low_lt_high :
    ¬ ∀ (ys : List Float) (low high : Float),
      bounds Float.isFinite ys = some (low, high) → low < high := by
  intro hall
  have hlt := hall [.ofBits 0x4350000000000000] _ _
    (show bounds Float.isFinite [.ofBits 0x4350000000000000] =
      some (.ofBits 0x4350000000000000, .ofBits 0x4350000000000000) by decide +kernel)
  revert hlt
  decide +kernel

end Graph
end Calculator

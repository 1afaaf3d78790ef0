import Calculator.Proofs.Graph.Extent
import Mathlib

/-!
# The curve through some samples

In exact arithmetic the curve through samples at increasing places meets every sample, is
constant outside them and straight between neighbours.  So it stays between the least and the
greatest sample.  The neighbours of a place are found by halving, which counts the samples up to
that place.
-/

namespace Calculator
namespace Graph

/-! ## Halving -/

/-- Halving a stretch keeps the partition point in reach: it is at most one position behind the
result, and in front of it only where there is nothing in front. -/
theorem narrow_spec {below : Nat → Bool} {size p : Nat}
    (hbelow : ∀ k < size, below k = true ↔ k < p) {base stretch : Nat} (hpos : 0 < stretch)
    (hinside : base + stretch ≤ size) (hfront : base < p ∨ base = 0) (hback : p ≤ base + stretch) :
    (narrow below base stretch < p ∨ narrow below base stretch = 0) ∧
      p ≤ narrow below base stretch + 1 := by
  induction stretch using Nat.strongRecOn generalizing base with
  | ind stretch ih =>
    rw [narrow]
    split
    · next hone => exact ⟨hfront, by omega⟩
    · next hmany =>
        have hhalf : 0 < stretch / 2 := by omega
        dsimp only
        by_cases hmiddle : below (base + stretch / 2) = true
        · have hp := (hbelow _ (by omega)).mp hmiddle
          rw [if_pos hmiddle]
          exact ih (stretch - stretch / 2) (by omega) (by omega) (by omega) (.inl hp) (by omega)
        · have hp := mt (hbelow _ (by omega)).mpr hmiddle
          rw [if_neg hmiddle]
          exact ih (stretch - stretch / 2) (by omega) (by omega) (by omega) hfront (by omega)

/-- Halving finds the place where the positions are divided. -/
theorem partitionPoint_eq {below : Nat → Bool} {size p : Nat} (hp : p ≤ size)
    (hbelow : ∀ k < size, below k = true ↔ k < p) : partitionPoint below size = p := by
  rw [partitionPoint]
  split
  · omega
  · next hsize =>
      have hpos := Nat.pos_of_ne_zero hsize
      obtain ⟨hfront, hback⟩ := narrow_spec hbelow hpos (by omega) (.inr rfl) (by omega)
      dsimp only
      split
      · next hlast =>
          have hlt : narrow below 0 size < p := by
            rcases hfront with hlt | hzero
            · exact hlt
            · rw [hzero] at hlast ⊢
              exact (hbelow 0 hpos).mp hlast
          omega
      · next hlast =>
          rcases hfront with hlt | hzero
          · exact absurd ((hbelow _ (by omega)).mpr hlt) hlast
          · rw [hzero] at hlast hback ⊢
            have hnone := mt (hbelow 0 hpos).mpr hlast
            omega

/-! ## Increasing places -/

variable {xs ys : List ℚ}

/-- The samples up to a place are those in front. -/
theorem getElem_le_iff_lt_countP (hincreasing : xs.Pairwise (· < ·)) (x : ℚ) {k : Nat}
    (hk : k < xs.length) : xs[k] ≤ x ↔ k < xs.countP (· ≤ x) := by
  induction xs generalizing k with
  | nil => simp at hk
  | cons a xs ih =>
      obtain ⟨hfirst, hrest⟩ := List.pairwise_cons.mp hincreasing
      by_cases ha : a ≤ x
      · rw [List.countP_cons_of_pos (by simpa using ha)]
        cases k with
        | zero => simpa using ha
        | succ k =>
            rw [List.getElem_cons_succ, ih hrest (by simpa using hk)]
            omega
      · have hnone : (a :: xs).countP (· ≤ x) = 0 := by
          rw [List.countP_eq_zero]
          intro b hb
          rcases List.mem_cons.mp hb with rfl | hb
          · simpa using ha
          · simpa using (not_le.mp ha).trans (hfirst b hb)
        have hlarge : ¬ (a :: xs)[k] ≤ x := by
          have hall := List.countP_eq_zero.mp hnone _ (List.getElem_mem hk)
          simpa using hall
        simp [hnone, hlarge]

/-- Halving counts the samples up to the place. -/
theorem partitionPoint_eq_countP (fallback : ℚ) (hincreasing : xs.Pairwise (· < ·)) (x : ℚ) :
    partitionPoint (fun k => xs.getD k fallback ≤ x) xs.length = xs.countP (· ≤ x) := by
  refine partitionPoint_eq List.countP_le_length ?_
  intro k hk
  rw [decide_eq_true_eq, List.getD_eq_getElem _ _ hk]
  exact getElem_le_iff_lt_countP hincreasing x hk

theorem countP_of_between (hincreasing : xs.Pairwise (· < ·)) {i : Nat} (hi : i + 1 < xs.length)
    {x : ℚ} (hlow : xs[i] ≤ x) (hhigh : x < xs[i + 1]) : xs.countP (· ≤ x) = i + 1 := by
  have hfront := (getElem_le_iff_lt_countP hincreasing x (by omega)).mp hlow
  have hback := mt (getElem_le_iff_lt_countP hincreasing x hi).mpr (not_le.mpr hhigh)
  omega

/-! ## The curve -/

variable (fallback : ℚ)

/-- The curve left of all samples. -/
theorem head?_of_left (hincreasing : xs.Pairwise (· < ·)) (hne : ys ≠ []) {x : ℚ}
    (hleft : ∀ a ∈ xs, x < a) : ys.head? = some (interpolate fallback xs ys x) := by
  have hzero : xs.countP (· ≤ x) = 0 := by
    rw [List.countP_eq_zero]
    intro a ha
    simpa using hleft a ha
  rw [interpolate, partitionPoint_eq_countP fallback hincreasing, hzero, if_pos rfl,
    List.head?_eq_some_head hne, Option.getD_some]

/-- The curve from the last sample on. -/
theorem getLast?_of_right (hincreasing : xs.Pairwise (· < ·)) (hlength : ys.length = xs.length)
    (hne : xs ≠ []) {x : ℚ} (hright : ∀ a ∈ xs, a ≤ x) :
    ys.getLast? = some (interpolate fallback xs ys x) := by
  have hpos := List.length_pos_of_ne_nil hne
  have hys : ys ≠ [] := List.ne_nil_of_length_pos (by omega)
  have hall : xs.countP (· ≤ x) = xs.length := by
    rw [List.countP_eq_length]
    intro a ha
    simpa using hright a ha
  rw [interpolate, partitionPoint_eq_countP fallback hincreasing, hall, if_neg (by omega),
    if_pos le_rfl, List.getLast?_eq_some_getLast hys, Option.getD_some]

/-- The curve between two neighbours. -/
theorem interpolate_of_between (hincreasing : xs.Pairwise (· < ·))
    (hlength : ys.length = xs.length) {i : Nat} (hi : i + 1 < xs.length) {x : ℚ}
    (hlow : xs[i] ≤ x) (hhigh : x < xs[i + 1]) :
    interpolate fallback xs ys x =
      ys[i] + (ys[i + 1] - ys[i]) * (x - xs[i]) / (xs[i + 1] - xs[i]) := by
  rw [interpolate, partitionPoint_eq_countP fallback hincreasing,
    countP_of_between hincreasing hi hlow hhigh]
  dsimp only
  rw [if_neg (by omega), if_neg (by omega), Nat.add_sub_cancel,
    List.getD_eq_getElem _ _ hi, List.getD_eq_getElem _ _ (by omega),
    List.getD_eq_getElem _ _ (by omega), List.getD_eq_getElem _ _ (by omega)]

/-- The curve meets the samples. -/
theorem interpolate_getElem (hincreasing : xs.Pairwise (· < ·)) (hlength : ys.length = xs.length)
    {i : Nat} (hi : i < xs.length) : interpolate fallback xs ys xs[i] = ys[i] := by
  by_cases hlast : i + 1 < xs.length
  · have hnext : xs[i] < xs[i + 1] := List.pairwise_iff_getElem.mp hincreasing _ _ _ _ (by omega)
    rw [interpolate_of_between fallback hincreasing hlength hlast le_rfl hnext, sub_self, mul_zero,
      zero_div, add_zero]
  · have hright : ∀ a ∈ xs, a ≤ xs[i] := by
      intro a ha
      obtain ⟨k, hk, rfl⟩ := List.getElem_of_mem ha
      rcases Nat.lt_or_eq_of_le (show k ≤ i by omega) with hlt | rfl
      · exact (List.pairwise_iff_getElem.mp hincreasing _ _ _ _ hlt).le
      · exact le_rfl
    have hne : xs ≠ [] := List.ne_nil_of_length_pos (by omega)
    have hvalue := getLast?_of_right fallback hincreasing hlength hne hright
    rw [List.getLast?_eq_getElem?, List.getElem?_eq_getElem (by omega)] at hvalue
    have hindex : ys.length - 1 = i := by omega
    simp only [hindex] at hvalue
    exact (Option.some.inj hvalue).symm

/-- What divides the way from one place to another divides the way between two values. -/
theorem between_of_ratio {x₀ x₁ y₀ y₁ x : ℚ} (hlow : x₀ ≤ x) (hhigh : x ≤ x₁) (hne : x₀ < x₁) :
    min y₀ y₁ ≤ y₀ + (y₁ - y₀) * (x - x₀) / (x₁ - x₀) ∧
      y₀ + (y₁ - y₀) * (x - x₀) / (x₁ - x₀) ≤ max y₀ y₁ := by
  have hwidth : 0 < x₁ - x₀ := sub_pos.mpr hne
  have hnonneg : 0 ≤ (x - x₀) / (x₁ - x₀) := div_nonneg (sub_nonneg.mpr hlow) hwidth.le
  have hle : (x - x₀) / (x₁ - x₀) ≤ 1 := (div_le_one hwidth).mpr (by linarith)
  rw [mul_div_assoc]
  generalize (x - x₀) / (x₁ - x₀) = t at hnonneg hle
  have hconvex : y₀ + (y₁ - y₀) * t = (1 - t) * y₀ + t * y₁ := by ring
  rw [hconvex]
  constructor
  · calc min y₀ y₁ = (1 - t) * min y₀ y₁ + t * min y₀ y₁ := by ring
      _ ≤ (1 - t) * y₀ + t * y₁ := by
          gcongr
          · exact min_le_left _ _
          · exact min_le_right _ _
  · calc (1 - t) * y₀ + t * y₁ ≤ (1 - t) * max y₀ y₁ + t * max y₀ y₁ := by
          gcongr
          · exact le_max_left _ _
          · exact le_max_right _ _
      _ = max y₀ y₁ := by ring

/-- Between two neighbours the curve is the line through both, and lies between them. -/
theorem line_of_between (hincreasing : xs.Pairwise (· < ·)) (hlength : ys.length = xs.length)
    {i : Nat} (hi : i + 1 < xs.length) {x : ℚ} (hlow : xs[i] ≤ x) (hhigh : x ≤ xs[i + 1]) :
    (min ys[i] ys[i + 1] ≤ interpolate fallback xs ys x ∧
      interpolate fallback xs ys x ≤ max ys[i] ys[i + 1]) ∧
    (interpolate fallback xs ys x - ys[i]) * (xs[i + 1] - xs[i]) =
      (ys[i + 1] - ys[i]) * (x - xs[i]) := by
  have hnext : xs[i] < xs[i + 1] := List.pairwise_iff_getElem.mp hincreasing _ _ _ _ (by omega)
  have hwidth : xs[i + 1] - xs[i] ≠ 0 := (sub_pos.mpr hnext).ne'
  have hvalue : interpolate fallback xs ys x =
      ys[i] + (ys[i + 1] - ys[i]) * (x - xs[i]) / (xs[i + 1] - xs[i]) := by
    rcases lt_or_eq_of_le hhigh with hlt | rfl
    · exact interpolate_of_between fallback hincreasing hlength hi hlow hlt
    · rw [interpolate_getElem fallback hincreasing hlength hi, mul_div_cancel_right₀ _ hwidth]
      ring
  rw [hvalue]
  refine ⟨between_of_ratio hlow hhigh hnext, ?_⟩
  rw [add_sub_cancel_left, div_mul_cancel₀ _ hwidth]

/-- The curve takes no value outside those of the samples. -/
theorem exists_samples_around (hincreasing : xs.Pairwise (· < ·))
    (hlength : ys.length = xs.length) (hne : xs ≠ []) (x : ℚ) :
    ∃ a ∈ ys, ∃ b ∈ ys, a ≤ interpolate fallback xs ys x ∧ interpolate fallback xs ys x ≤ b := by
  have hpos := List.length_pos_of_ne_nil hne
  have hys : ys ≠ [] := List.ne_nil_of_length_pos (by omega)
  have hposition := fun {k : Nat} (hk : k < xs.length) => getElem_le_iff_lt_countP hincreasing x hk
  have hle : xs.countP (· ≤ x) ≤ xs.length := List.countP_le_length
  generalize xs.countP (· ≤ x) = p at hposition hle
  rcases Nat.eq_zero_or_pos p with rfl | hp
  · have hleft : ∀ a ∈ xs, x < a := by
      intro a ha
      obtain ⟨k, hk, rfl⟩ := List.getElem_of_mem ha
      exact not_le.mp (mt (hposition hk).mp (Nat.not_lt_zero k))
    have hmem := List.mem_of_head? (head?_of_left fallback hincreasing hys hleft)
    exact ⟨_, hmem, _, hmem, le_rfl, le_rfl⟩
  · rcases Nat.lt_or_eq_of_le hle with hlt | rfl
    · obtain ⟨i, rfl⟩ := Nat.exists_eq_add_one_of_ne_zero hp.ne'
      have hlow := (hposition (k := i) (by omega)).mpr (by omega)
      have hhigh := le_of_not_ge (mt (hposition hlt).mp (lt_irrefl _))
      obtain ⟨⟨hmin, hmax⟩, -⟩ := line_of_between fallback hincreasing hlength hlt hlow hhigh
      have hfirst : ys[i] ∈ ys := List.getElem_mem _
      have hsecond : ys[i + 1] ∈ ys := List.getElem_mem _
      refine ⟨min ys[i] ys[i + 1], ?_, max ys[i] ys[i + 1], ?_, hmin, hmax⟩
      · rcases min_choice ys[i] ys[i + 1] with h | h <;> rw [h] <;> assumption
      · rcases max_choice ys[i] ys[i + 1] with h | h <;> rw [h] <;> assumption
    · have hright : ∀ a ∈ xs, a ≤ x := by
        intro a ha
        obtain ⟨k, hk, rfl⟩ := List.getElem_of_mem ha
        exact (hposition hk).mpr hk
      have hmem := List.mem_of_getLast? (getLast?_of_right fallback hincreasing hlength hne hright)
      exact ⟨_, hmem, _, hmem, le_rfl, le_rfl⟩

/-- The range of values of a graph reaches from the least sample to the greatest at least. -/
theorem exists_bounds (hne : ys ≠ []) :
    ∃ low high, bounds (fun _ => true) ys = some (low, high) ∧ ∀ y ∈ ys, low ≤ y ∧ y ≤ high := by
  have hkey : OrderedBy id ys := fun _ _ _ _ => Iff.rfl
  obtain ⟨low, -, high, -, hextent, hall⟩ := exists_extent hkey hne
  have hbounds : bounds (fun _ => true) ys =
      some (if low == high then (low - 1, high + 1) else (low, high)) := by
    rw [bounds, List.filter_true, hextent]
    rfl
  by_cases heq : low == high
  · rw [if_pos heq] at hbounds
    refine ⟨_, _, hbounds, fun y hy => ?_⟩
    obtain ⟨hlow, hhigh⟩ := hall y hy
    simp only [id_eq] at hlow hhigh
    constructor <;> linarith
  · rw [if_neg heq] at hbounds
    exact ⟨_, _, hbounds, hall⟩

/-- The curve through samples at increasing places follows them: the search counts the samples up
to the place, the curve meets every sample, keeps the first value in front of all and the last
value from the last one on, and is straight between neighbours.  So it never leaves the range
of values of the graph. -/
theorem curve_follows_samples (hne : xs ≠ []) (hlength : ys.length = xs.length)
    (hincreasing : xs.Pairwise (· < ·)) :
    (∀ x, partitionPoint (fun k => xs.getD k fallback ≤ x) xs.length = xs.countP (· ≤ x)) ∧
    (∀ (i : Nat) (hi : i < xs.length), interpolate fallback xs ys xs[i] = ys[i]) ∧
    (∀ x, (∀ a ∈ xs, x < a) → ys.head? = some (interpolate fallback xs ys x)) ∧
    (∀ x, (∀ a ∈ xs, a ≤ x) → ys.getLast? = some (interpolate fallback xs ys x)) ∧
    (∀ (i : Nat) (hi : i + 1 < xs.length) (x : ℚ), xs[i] ≤ x → x ≤ xs[i + 1] →
      (min ys[i] ys[i + 1] ≤ interpolate fallback xs ys x ∧
        interpolate fallback xs ys x ≤ max ys[i] ys[i + 1]) ∧
      (interpolate fallback xs ys x - ys[i]) * (xs[i + 1] - xs[i]) =
        (ys[i + 1] - ys[i]) * (x - xs[i])) ∧
    ∃ low high, bounds (fun _ => true) ys = some (low, high) ∧
      ∀ x, low ≤ interpolate fallback xs ys x ∧ interpolate fallback xs ys x ≤ high := by
  have hys : ys ≠ [] := by
    have hpos := List.length_pos_of_ne_nil hne
    exact List.ne_nil_of_length_pos (by omega)
  refine ⟨partitionPoint_eq_countP fallback hincreasing,
    fun i hi => interpolate_getElem fallback hincreasing hlength hi,
    fun x hleft => head?_of_left fallback hincreasing hys hleft,
    fun x hright => getLast?_of_right fallback hincreasing hlength hne hright,
    fun i hi x hlow hhigh => line_of_between fallback hincreasing hlength hi hlow hhigh, ?_⟩
  obtain ⟨low, high, hbounds, hall⟩ := exists_bounds hys
  refine ⟨low, high, hbounds, fun x => ?_⟩
  obtain ⟨a, ha, b, hb, hlow, hhigh⟩ :=
    exists_samples_around fallback hincreasing hlength hne x
  exact ⟨(hall a ha).1.trans hlow, hhigh.trans (hall b hb).2⟩

/-- A hill of three samples. -/
theorem curve_of_hill :
    interpolate 0 [0, 1, 2] [0, 10, 0] (1 : ℚ) = 10 ∧
      interpolate 0 [0, 1, 2] [0, 10, 0] (7 : ℚ) = 0 := by
  have hincreasing : [(0 : ℚ), 1, 2].Pairwise (· < ·) := by
    norm_num
  have hlength : [(0 : ℚ), 10, 0].length = [(0 : ℚ), 1, 2].length := rfl
  obtain ⟨-, hmeets, -, hright, -⟩ := curve_follows_samples 0 (by simp) hlength hincreasing
  refine ⟨hmeets 1 (by decide), ?_⟩
  have hlast := hright 7 (by norm_num)
  exact (Option.some.inj hlast).symm

end Graph
end Calculator

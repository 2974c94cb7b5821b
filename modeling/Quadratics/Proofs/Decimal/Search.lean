import Quadratics.Proofs.Binary64.Precision
import Quadratics.Proofs.Decimal.Shortest

/-!
# The search for the shortest decimal

The decimals whose last digit stands at one place form a grid.  The points of a grid that
read back as a number lie around the number, so the two points next to it are enough to try
(`isSome_onGrid?`).  Not every grid is tried, but those that are suffice.  A grid coarser than
the coarsest one has no point that reads back (`le_coarsestPlace`).  The steps of the finest
one are within a quarter of the number's last bit, so its point farther from zero reads back
(`isSome_onGrid?_finest`): seventeen digits suffice, that is.

Hence no decimal that reads back ends at a coarser place than the one that is written
(`le_place_shortest_of_reads`).
-/

namespace Quadratics.Decimal

set_option autoImplicit false

open Binary64 (ofQuotient unitsPerOne)

/-! ## Grids -/

theorem length_digits_le_iff {value count : Nat} (positive : 0 < count) :
    (digits value).length ≤ count ↔ value < powerOfTen count :=
  Nat.length_toDigits_le_iff (by decide) positive

theorem powerOfTen_add (count more : Nat) :
    powerOfTen (count + more) = powerOfTen count * powerOfTen more := by
  rw [powerOfTen_eq, powerOfTen_eq, powerOfTen_eq, pow_add]

theorem gridQuotient_eq (magnitude : Nat) (place : Int) :
    gridQuotient magnitude place = (magnitude * gridSteps place, gridUnits place) := by
  match place with
  | .ofNat _ => rw [gridSteps, Nat.mul_one, gridQuotient, gridUnits]
  | .negSucc _ => rw [gridSteps, gridQuotient, gridUnits]

/-- A step is a power of ten times the number one. -/
theorem gridUnits_mul {place : Int} {power shift : Nat} (same : (power : Int) = place + shift) :
    gridUnits place * powerOfTen shift = gridSteps place * unitsPerOne * powerOfTen power := by
  match place with
  | .ofNat zeros =>
    obtain rfl : power = zeros + shift := by
      have natural : (Int.ofNat zeros : Int) = zeros := rfl
      omega
    show powerOfTen zeros * unitsPerOne * powerOfTen shift = 1 * unitsPerOne * _
    rw [powerOfTen_add]
    ring
  | .negSucc places =>
    obtain rfl : shift = power + (places + 1) := by omega
    show unitsPerOne * powerOfTen _ = powerOfTen (places + 1) * unitsPerOne * _
    rw [powerOfTen_add]
    ring

/-- A decimal is read as the rounding of what it denotes, but for the sign of a zero. -/
theorem nearest_alike (decimal : Decimal) :
    Binary64.Alike decimal.nearest (Binary64.rounded decimal.exact) := by
  obtain ⟨negative, coefficient, place⟩ := decimal
  have alike := Binary64.ofQuotient_alike negative (coefficient * gridUnits place)
    (gridSteps_pos place)
  rw [Nat.cast_mul, mul_div_assoc, mul_div_assoc, gridUnits_div] at alike
  rwa [nearest_eq_ofQuotient]

/-! ## Points that read back -/

variable {x : Binary64} {place : Int} {coefficient : Nat}

/-- **If a point of a grid reads back, then one next to the number does.** -/
theorem isSome_onGrid? (finite : x.isFinite = true)
    (reads : nearest ⟨x.negative, coefficient, place⟩ = x) : (onGrid? x place).isSome = true := by
  have own : ofQuotient x.negative (x.magnitude * gridSteps place) (gridSteps place) = x := by
    have scaled := Binary64.ofQuotient_scale x.negative x.magnitude 1 (gridSteps_pos place)
    rwa [Nat.one_mul, Binary64.ofQuotient_magnitude finite] at scaled
  have divided := Nat.div_add_mod' (x.magnitude * gridSteps place) (gridUnits place)
  have remainder := Nat.mod_lt (x.magnitude * gridSteps place) (gridUnits_pos place)
  simp only [onGrid?, gridQuotient_eq]
  simp only [nearest_eq_ofQuotient] at reads ⊢
  generalize x.magnitude * gridSteps place / gridUnits place = point at *
  have below : point * gridUnits place ≤ x.magnitude * gridSteps place := by omega
  have above : x.magnitude * gridSteps place ≤ (point + 1) * gridUnits place := by
    rw [Nat.succ_mul]
    omega
  -- A point that reads back has a point next to the number between it and the number.
  have hit : ofQuotient x.negative (point * gridUnits place) (gridSteps place) = x ∨
      ofQuotient x.negative ((point + 1) * gridUnits place) (gridSteps place) = x := by
    rcases Nat.lt_or_ge point coefficient with larger | smaller
    · exact .inr (Binary64.ofQuotient_between (gridSteps_pos place) finite above
        (Nat.mul_le_mul_right _ larger) own reads)
    · exact .inl (Binary64.ofQuotient_between (gridSteps_pos place) finite
        (Nat.mul_le_mul_right _ smaller) below reads own)
  split
  · rfl
  · rename_i notLower
    split
    · rfl
    · rename_i notUpper
      rcases hit with lower | upper
      · exact absurd ⟨lower, .inl notUpper⟩ notLower
      · exact absurd upper notUpper

/-- **On a grid of small steps the point farther from zero reads back**: steps within half of
the last bit of a number with so few digits as binary64 holds. -/
theorem nearest_above {negative : Bool} {significand exponent : Nat}
    (canonical : Binary64.Canonical significand exponent)
    (fine : 2 * gridUnits place < gridSteps place <<< exponent) :
    nearest ⟨negative, (significand <<< exponent) * gridSteps place / gridUnits place + 1, place⟩ =
      .finite negative significand exponent canonical := by
  have divided := Nat.div_add_mod' ((significand <<< exponent) * gridSteps place) (gridUnits place)
  have remainder := Nat.mod_lt ((significand <<< exponent) * gridSteps place) (gridUnits_pos place)
  have same : ((significand <<< exponent) * gridSteps place / gridUnits place + 1) *
      gridUnits place = (significand <<< exponent) * gridSteps place + (gridUnits place -
        (significand <<< exponent) * gridSteps place % gridUnits place) := by
    rw [Nat.succ_mul]
    omega
  rw [nearest_eq_ofQuotient, same]
  exact Binary64.ofQuotient_above canonical (by omega)

/-! ## The search -/

/-- The places are tried from the coarsest down. -/
theorem searchPlaces_descending (magnitude : Nat) :
    (searchPlaces magnitude).Pairwise (· > ·) := by
  unfold searchPlaces
  rw [List.pairwise_map]
  exact List.pairwise_lt_range.imp fun less => by omega

theorem mem_searchPlaces {magnitude : Nat} :
    place ∈ searchPlaces magnitude ↔
      place ≤ coarsestPlace magnitude ∧ coarsestPlace magnitude ≤ place + 19 := by
  simp only [searchPlaces, List.mem_map, List.mem_range]
  constructor
  · rintro ⟨finer, few, rfl⟩
    omega
  · rintro ⟨coarse, fine⟩
    exact ⟨(coarsestPlace magnitude - place).toNat, by omega, by omega⟩

theorem place_of_onGrid? {decimal : Decimal} (taken : onGrid? x place = some decimal) :
    decimal.place = place := by
  simp only [onGrid?] at taken
  split at taken
  · cases taken
    rfl
  · split at taken <;> cases taken
    rfl

/-- **The coarsest of the tried grids that has a hit is taken.** -/
theorem le_place_shortest (nonzero : x.magnitude ≠ 0)
    (tried : place ∈ searchPlaces x.magnitude) (hit : (onGrid? x place).isSome = true) :
    place ≤ (shortest x).place := by
  obtain ⟨decimal, found⟩ : ∃ decimal,
      (searchPlaces x.magnitude).findSome? (onGrid? x) = some decimal := by
    rw [← Option.isSome_iff_exists, List.findSome?_isSome_iff]
    exact ⟨place, tried, hit⟩
  have isShortest : shortest x = decimal := by
    rw [shortest, if_neg nonzero, found]
    rfl
  obtain ⟨coarser, first, finer, split, taken, missed⟩ := List.findSome?_eq_some_iff.mp found
  rw [isShortest, place_of_onGrid? taken]
  have descending := searchPlaces_descending x.magnitude
  rw [split] at tried descending
  rcases List.mem_append.mp tried with before | after
  · rw [missed place before] at hit
    cases hit
  · rcases List.mem_cons.mp after with here | behind
    · exact here.le
    · exact (List.rel_of_pairwise_cons (List.pairwise_append.mp descending).2.1 behind).le

theorem coefficient_pos_of_reads (nonzero : x.magnitude ≠ 0)
    (reads : nearest ⟨x.negative, coefficient, place⟩ = x) : 0 < coefficient := by
  refine Nat.pos_of_ne_zero fun none => nonzero ?_
  rw [none, nearest_eq_ofQuotient, Nat.zero_mul] at reads
  rw [← reads]
  exact (Binary64.vanishes_ofQuotient_zero _ (gridSteps_pos place)).2

theorem digits_length_pos (value : Nat) : 0 < (digits value).length :=
  List.length_pos_of_ne_nil (digits_ne_nil value)

/-- **No grid coarser than those that are tried has a point that reads back.** -/
theorem le_coarsestPlace (finite : x.isFinite = true) (nonzero : x.magnitude ≠ 0)
    (reads : nearest ⟨x.negative, coefficient, place⟩ = x) : place ≤ coarsestPlace x.magnitude := by
  have point := coefficient_pos_of_reads nonzero reads
  rw [nearest_eq_ofQuotient] at reads
  have notHalved : gridUnits place ≤ 2 * x.magnitude * gridSteps place := by
    have bound := @Binary64.le_two_mul_magnitude x.negative (coefficient * gridUnits place)
      _ (gridSteps_pos place) (by rw [reads]; exact finite) (by rw [reads]; exact nonzero)
    rw [reads] at bound
    exact (Nat.le_mul_of_pos_left _ point).trans bound
  by_contra coarser
  have written := digits_length_pos x.magnitude
  rw [coarsestPlace] at coarser
  obtain ⟨power, same⟩ := Int.eq_ofNat_of_zero_le (show 0 ≤ place + (322 : Nat) by omega)
  have short : x.magnitude < powerOfTen power :=
    (length_digits_le_iff (by omega)).mp (by omega)
  -- A number with so few digits is less than half a step of such a grid.
  have scaled := Nat.mul_le_mul_right (powerOfTen 322) notHalved
  rw [gridUnits_mul same.symm] at scaled
  have units : 2 * powerOfTen 322 ≤ unitsPerOne := by decide
  have smaller : gridSteps place * (2 * powerOfTen 322) * x.magnitude <
      gridSteps place * (2 * powerOfTen 322) * powerOfTen power :=
    Nat.mul_lt_mul_of_pos_left short
      (Nat.mul_pos (gridSteps_pos place) (Nat.mul_pos two_pos (powerOfTen_pos 322)))
  have larger := Nat.mul_le_mul_right (powerOfTen power)
    (Nat.mul_le_mul_left (gridSteps place) units)
  have product : 2 * x.magnitude * gridSteps place * powerOfTen 322 =
      gridSteps place * (2 * powerOfTen 322) * x.magnitude := by ring
  rw [product] at scaled
  omega

/-- **Seventeen digits suffice**: on the finest grid that is tried the point farther from zero
reads back. -/
theorem isSome_onGrid?_finest (finite : x.isFinite = true) (nonzero : x.magnitude ≠ 0)
    (finest : place + 19 = coarsestPlace x.magnitude) : (onGrid? x place).isSome = true := by
  match x, finite with
  | .finite negative significand exponent canonical, _ =>
    refine isSome_onGrid? rfl (nearest_above canonical ?_)
    change significand <<< exponent ≠ 0 at nonzero
    change place + 19 = coarsestPlace (significand <<< exponent) at finest
    have written := digits_length_pos (significand <<< exponent)
    rw [coarsestPlace] at finest
    obtain ⟨power, same⟩ := Int.eq_ofNat_of_zero_le (show 0 ≤ place + (341 : Nat) by omega)
    have long : powerOfTen power ≤ significand <<< exponent := by
      rcases Nat.eq_zero_or_pos power with rfl | positive
      · exact Nat.pos_of_ne_zero nonzero
      · rw [← Nat.not_lt, ← length_digits_le_iff positive]
        omega
    have units : 2 * unitsPerOne * 2 ^ 53 ≤ powerOfTen 341 := by decide
    have below := (Binary64.canonical_iff.mp canonical).1
    have inside : significand <<< exponent < 2 ^ 53 * 2 ^ exponent := by
      rw [Nat.shiftLeft_eq]
      exact Nat.mul_lt_mul_of_pos_right below (Nat.two_pow_pos _)
    rw [Nat.shiftLeft_eq]
    have step := gridUnits_mul same.symm
    have finer := Nat.mul_le_mul_left (gridUnits place) units
    have bound := Nat.mul_lt_mul_of_pos_left (long.trans_lt inside)
      (Nat.mul_pos (gridSteps_pos place) Binary64.unitsPerOne_pos)
    refine Nat.lt_of_mul_lt_mul_left (a := unitsPerOne * 2 ^ 53) ?_
    calc unitsPerOne * 2 ^ 53 * (2 * gridUnits place)
        = gridUnits place * (2 * unitsPerOne * 2 ^ 53) := by ring
      _ ≤ gridSteps place * unitsPerOne * powerOfTen power := finer.trans_eq step
      _ < gridSteps place * unitsPerOne * (2 ^ 53 * 2 ^ exponent) := bound
      _ = unitsPerOne * 2 ^ 53 * (gridSteps place * 2 ^ exponent) := by ring

/-- **No decimal that reads back ends at a coarser place than the one that is written.** -/
theorem le_place_shortest_of_reads (finite : x.isFinite = true) (nonzero : x.magnitude ≠ 0)
    (reads : nearest ⟨x.negative, coefficient, place⟩ = x) : place ≤ (shortest x).place := by
  have coarse := le_coarsestPlace finite nonzero reads
  rcases le_or_gt (coarsestPlace x.magnitude) (place + 19) with inSearch | beyond
  · exact le_place_shortest nonzero (mem_searchPlaces.mpr ⟨coarse, inSearch⟩)
      (isSome_onGrid? finite reads)
  · have finest := @isSome_onGrid?_finest x (coarsestPlace x.magnitude - 19) finite nonzero
      (by omega)
    have taken := le_place_shortest nonzero (mem_searchPlaces.mpr (by omega)) finest
    omega

theorem exact_ofInt (count : ℤ) (place : Int) :
    exact ⟨decide (count < 0), count.natAbs, place⟩ = count * 10 ^ place := by
  have signs : decide (count < 0) = decide ((count : ℚ) < 0) :=
    decide_eq_decide.mpr Int.cast_lt_zero.symm
  have unsigned : ((count.natAbs : ℕ) : ℚ) = |(count : ℚ)| := by
    rw [Nat.cast_natAbs, Int.cast_abs]
  calc exact ⟨decide (count < 0), count.natAbs, place⟩
      = Binary64.signedRat (decide ((count : ℚ) < 0)) (|(count : ℚ)| * 10 ^ place) := by
        rw [exact, signs, unsigned]
    _ = Binary64.signedRat (decide ((count : ℚ) < 0)) (|(count : ℚ)|) * 10 ^ place := by
        cases decide ((count : ℚ) < 0)
        · rfl
        · exact (neg_mul _ _).symm
    _ = count * 10 ^ place := by rw [Binary64.signedRat_abs]

/-- **A number of steps of some place, rounded once, is not written beyond that place.** -/
theorem le_place_shortest_of_alike {count : ℤ} (finite : x.isFinite = true)
    (nonzero : x.magnitude ≠ 0) (alike : Binary64.Alike x (Binary64.rounded (count * 10 ^ place))) :
    place ≤ (shortest x).place := by
  have decimal := nearest_alike ⟨decide (count < 0), count.natAbs, place⟩
  rw [exact_ofInt] at decimal
  have reads := (alike.trans decimal.symm).eq_of_not_vanishes fun vanishes => nonzero vanishes.2
  have sign : x.negative = decide (count < 0) := by
    rw [reads, negative_nearest]
  have readsBack : nearest ⟨x.negative, count.natAbs, place⟩ = x := by
    rw [sign]
    exact reads.symm
  exact le_place_shortest_of_reads finite nonzero readsBack

end Quadratics.Decimal

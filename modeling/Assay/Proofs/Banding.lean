import Assay.Score
import Mathlib.Data.List.GetD
import Mathlib.Data.List.Sort

/-!
# Bands

The search for a value among thresholds is sound where these ascend: it keeps what is before its
lower bound at most as large as the value and what is at or after its upper bound greater. So a
score counts the thresholds above the value (`scoreBand_eq_countP`), and never grows with it. A
relative value drops a fraction, but never across a threshold, since thresholds are whole: its score
is what exact division would give (`scoreBand_relativeValue`).
-/

namespace Assay

/-! ## The search -/

/-- The thresholds before a place are at most the value. -/
def BelowPlace (value : Int) (thresholds : List Int) (place : Nat) : Prop :=
  ∀ i (h : i < thresholds.length), i < place → thresholds[i] ≤ value

/-- The thresholds from a place on are greater than the value. -/
def AboveFrom (value : Int) (thresholds : List Int) (place : Nat) : Prop :=
  ∀ i (h : i < thresholds.length), place ≤ i → value < thresholds[i]

variable {value : Int} {thresholds : List Int}

/-- The search ends at a place that parts the thresholds by the value. -/
theorem placeBetween_parts (value : Int) (hascending : thresholds.Pairwise (· ≤ ·))
    {low high : Nat} (hle : low ≤ high) (hlength : high ≤ thresholds.length)
    (hbelow : BelowPlace value thresholds low) (habove : AboveFrom value thresholds high) :
    placeBetween value thresholds low high ≤ thresholds.length ∧
      BelowPlace value thresholds (placeBetween value thresholds low high) ∧
      AboveFrom value thresholds (placeBetween value thresholds low high) := by
  -- what is open lies between the bounds: the middle decides for everything on one side of it
  fun_induction placeBetween value thresholds low high with
  | case1 low high hlt middle hvalue ih =>
    have hmiddle : middle < thresholds.length := by omega
    rw [List.getD_eq_getElem _ _ hmiddle] at hvalue
    refine ih (by omega) (by omega) hbelow fun i hi hplace => ?_
    exact Int.lt_of_lt_of_le hvalue (hascending.sortedLE.getElem_le_getElem_of_le hplace)
  | case2 low high hlt middle hvalue ih =>
    have hmiddle : middle < thresholds.length := by omega
    rw [List.getD_eq_getElem _ _ hmiddle, Int.not_lt] at hvalue
    refine ih (by omega) hlength (fun i hi hplace => ?_) habove
    exact Int.le_trans (hascending.sortedLE.getElem_le_getElem_of_le (by omega)) hvalue
  | case3 low high hdone =>
    obtain rfl : low = high := by omega
    exact ⟨hlength, hbelow, habove⟩

/-! ## Scores of values -/

/-- A score is the number of thresholds above the value. -/
theorem scoreBand_eq_countP (hascending : thresholds.Pairwise (· ≤ ·)) (value : Int) :
    scoreBand value thresholds = thresholds.countP (value < ·) := by
  -- at the start nothing is before the lower bound or after the upper one
  obtain ⟨hlength, hbelow, habove⟩ := placeBetween_parts value hascending (Nat.zero_le _)
    (Nat.le_refl _) (fun _ _ h => absurd h (Nat.not_lt_zero _))
    (fun _ hi h => absurd hi (Nat.not_lt.2 h))
  rw [scoreBand]
  generalize placeBetween value thresholds 0 thresholds.length = place at *
  have htake : (thresholds.take place).countP (value < ·) = 0 := by
    rw [List.countP_eq_zero]
    intro x hx
    obtain ⟨i, hi, rfl⟩ := List.mem_take_iff_getElem.1 hx
    have := hbelow i (by omega) (by omega)
    simpa using this
  have hdrop : (thresholds.drop place).countP (value < ·) = (thresholds.drop place).length := by
    rw [List.countP_eq_length]
    intro x hx
    obtain ⟨i, hi, rfl⟩ := List.mem_drop_iff_getElem.1 hx
    have := habove (place + i) (by omega) (by omega)
    simpa [Nat.add_comm] using this
  calc thresholds.length - place
      = (thresholds.drop place).length := by rw [List.length_drop]
    _ = (thresholds.take place ++ thresholds.drop place).countP (value < ·) := by
      rw [List.countP_append, htake, hdrop, Nat.zero_add]
    _ = thresholds.countP (value < ·) := by rw [List.take_append_drop]

/-- A score never exceeds the number of thresholds. -/
theorem scoreBand_le_length (value : Int) (thresholds : List Int) :
    scoreBand value thresholds ≤ thresholds.length := Nat.sub_le ..

/-- A greater value never scores more. -/
theorem scoreBand_antitone (hascending : thresholds.Pairwise (· ≤ ·)) {value' : Int}
    (h : value ≤ value') : scoreBand value' thresholds ≤ scoreBand value thresholds := by
  rw [scoreBand_eq_countP hascending, scoreBand_eq_countP hascending]
  refine List.countP_mono_left fun x _ hx => ?_
  simp only [decide_eq_true_eq] at hx ⊢
  omega

/-- All points are kept exactly if every threshold is above the value. -/
theorem scoreBand_eq_length_iff (hascending : thresholds.Pairwise (· ≤ ·)) :
    scoreBand value thresholds = thresholds.length ↔ ∀ t ∈ thresholds, value < t := by
  rw [scoreBand_eq_countP hascending, List.countP_eq_length]
  simp only [decide_eq_true_eq]

/-- Without violations there is no share of them. -/
theorem relativeValue_zero (size : Int) : relativeValue 0 size = 0 := by
  simp [relativeValue]

/-- More violations never lower a relative value. -/
theorem relativeValue_mono {count count' : Int} (h : count ≤ count') (size : Nat) :
    relativeValue count size ≤ relativeValue count' size := by
  rw [relativeValue, relativeValue]
  split
  · exact Int.le_refl _
  · next hsize =>
    have hpositive : (0 : Int) < size := by
      simp only [beq_iff_eq] at hsize
      omega
    rw [Int.fdiv_eq_ediv_of_nonneg _ (by omega), Int.fdiv_eq_ediv_of_nonneg _ (by omega)]
    exact Int.ediv_le_ediv hpositive (by omega)

/-! ## Exactness -/

variable {count size : Int}

/-- A relative value is below a whole number exactly if the fraction it comes from is. -/
theorem relativeValue_lt_iff (hsize : 0 < size) (count x : Int) :
    relativeValue count size < x ↔ 100 * count < x * size := by
  have hnonzero : ¬ (size == 0) = true := by simpa using Int.ne_of_gt hsize
  rw [relativeValue, if_neg hnonzero, Int.fdiv_eq_ediv_of_nonneg _ (Int.le_of_lt hsize),
    Int.ediv_lt_iff_lt_mul hsize, Int.mul_comm count]

/-- The score of a relative value counts the thresholds above the exact quotient. -/
theorem scoreBand_relativeValue (hascending : thresholds.Pairwise (· ≤ ·)) (hsize : 0 < size)
    (count : Int) :
    scoreBand (relativeValue count size) thresholds =
      thresholds.countP (fun x => 100 * count < x * size) := by
  rw [scoreBand_eq_countP hascending]
  refine List.countP_congr fun x _ => ?_
  rw [decide_eq_true_eq, decide_eq_true_eq, relativeValue_lt_iff hsize]

/-- The score of a relative value depends on the quotient alone. -/
theorem scoreBand_relativeValue_scaled (hascending : thresholds.Pairwise (· ≤ ·))
    (hsize : 0 < size) (count : Int) {factor : Int} (hfactor : 0 < factor) :
    scoreBand (relativeValue (count * factor) (size * factor)) thresholds =
      scoreBand (relativeValue count size) thresholds := by
  rw [scoreBand_relativeValue hascending (Int.mul_pos hsize hfactor),
    scoreBand_relativeValue hascending hsize]
  refine List.countP_congr fun x _ => ?_
  rw [decide_eq_true_eq, decide_eq_true_eq, ← Int.mul_assoc, ← Int.mul_assoc]
  exact Int.mul_lt_mul_right hfactor

/-- More violations in a category of one size never score more. -/
theorem scoreBand_relativeValue_antitone (hascending : thresholds.Pairwise (· ≤ ·))
    (hsize : 0 < size) {count' : Int} (h : count ≤ count') :
    scoreBand (relativeValue count' size) thresholds ≤
      scoreBand (relativeValue count size) thresholds := by
  rw [scoreBand_relativeValue hascending hsize, scoreBand_relativeValue hascending hsize]
  refine List.countP_mono_left fun x _ hx => ?_
  rw [decide_eq_true_eq] at hx ⊢
  omega

/-- As many violations in a greater category never score less, against thresholds above zero. -/
theorem scoreBand_relativeValue_mono_size (hascending : thresholds.Pairwise (· ≤ ·))
    (hpositive : ∀ x ∈ thresholds, 0 < x) (hsize : 0 < size) {size' : Int} (h : size ≤ size')
    (count : Int) :
    scoreBand (relativeValue count size) thresholds ≤
      scoreBand (relativeValue count size') thresholds := by
  rw [scoreBand_relativeValue hascending hsize,
    scoreBand_relativeValue hascending (Int.lt_of_lt_of_le hsize h)]
  refine List.countP_mono_left fun x hmem hx => ?_
  rw [decide_eq_true_eq] at hx ⊢
  exact Int.lt_of_lt_of_le hx (Int.mul_le_mul_of_nonneg_left h (Int.le_of_lt (hpositive x hmem)))

/-- Banding is exact: against ascending thresholds, a score is the number of thresholds above the
value, and that of a relative value is the number of thresholds above the exact quotient. -/
theorem banding_exact (thresholds : List Int) (hascending : thresholds.Pairwise (· ≤ ·)) :
    (∀ value, scoreBand value thresholds = thresholds.countP (value < ·) ∧
      scoreBand value thresholds ≤ thresholds.length) ∧
    (∀ value value', value ≤ value' → scoreBand value' thresholds ≤ scoreBand value thresholds) ∧
    ∀ count size : Int, 0 < size →
      scoreBand (relativeValue count size) thresholds =
        thresholds.countP (fun x => 100 * count < x * size) ∧
      (∀ factor, 0 < factor → scoreBand (relativeValue (count * factor) (size * factor)) thresholds =
        scoreBand (relativeValue count size) thresholds) ∧
      (∀ count', count ≤ count' → scoreBand (relativeValue count' size) thresholds ≤
        scoreBand (relativeValue count size) thresholds) ∧
      ((∀ x ∈ thresholds, 0 < x) → ∀ size', size ≤ size' →
        scoreBand (relativeValue count size) thresholds ≤
          scoreBand (relativeValue count size') thresholds) :=
  ⟨fun value => ⟨scoreBand_eq_countP hascending value, scoreBand_le_length value thresholds⟩,
    fun _ _ => scoreBand_antitone hascending,
    fun count _ hsize => ⟨scoreBand_relativeValue hascending hsize count,
      fun _ => scoreBand_relativeValue_scaled hascending hsize count,
      fun _ => scoreBand_relativeValue_antitone hascending hsize,
      fun hpositive _ h => scoreBand_relativeValue_mono_size hascending hpositive hsize h count⟩⟩

/-- A share of one third is below thirty-four, though thirty-three is reached. -/
theorem banding_exact_third :
    [0, 33, 33, 34].Pairwise (· ≤ · : Int → Int → Prop) ∧
      scoreBand (relativeValue 1 3) [0, 33, 33, 34] = 1 := by
  have hascending : [0, 33, 33, 34].Pairwise (· ≤ · : Int → Int → Prop) := by decide
  have hexact := ((banding_exact _ hascending).2.2 1 3 (by decide)).1
  exact ⟨hascending, hexact.trans (by decide)⟩

end Assay

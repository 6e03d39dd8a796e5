import Assay.Proofs.Word
import Assay.Source.Lookahead

/-!
# Ends found by looking ahead

What a test that looks ahead leaves of the tokens is an end of them, so that a parser which goes on
there has not made anything up.
-/

namespace Assay.Source

variable {ts rest inside : List Token} {closing : List String}

/-! ## Bracketed groups -/

theorem splitGroup_suffix (h : splitGroup closing ts = .ok (inside, rest)) : rest <:+ ts := by
  obtain ⟨close, rfl⟩ := splitGroup_eq_append h
  exact (List.suffix_cons close rest).trans (List.suffix_append inside _)

/-- A closer that does not match is one of the tokens. -/
theorem splitGroup_error {closer : Token} (h : splitGroup closing ts = .error (some closer)) :
    closer ∈ ts := by
  induction ts generalizing closing with
  | nil => cases h
  | cons t ts ih =>
    -- a closer found further on is one of the tokens as well
    have keep : ∀ {stack : List String},
        ((splitGroup stack ts).map fun parts => (t :: parts.1, parts.2)) = .error (some closer) →
          closer ∈ t :: ts := by
      intro stack hm
      cases hs : splitGroup stack ts with
      | error e =>
        rw [hs] at hm
        cases hm
        exact List.mem_cons_of_mem t (ih hs)
      | ok p =>
        rw [hs] at hm
        cases hm
    simp only [splitGroup] at h
    split at h
    · exact keep h
    · split at h
      · split at h
        · cases h
          exact List.mem_cons_self
        · split at h
          · split at h
            · cases h
            · exact keep h
          · cases h
            exact List.mem_cons_self
      · exact keep h

/-! ## Types -/

theorem typeArgumentsRest?_suffix {depth : Nat} (h : typeArgumentsRest? depth ts = some rest) :
    rest <:+ ts := by
  fun_induction typeArgumentsRest? depth ts with
  | case1 => cases h
  | case2 depth t ts _ ih => exact (ih h).trans (List.suffix_cons t ts)
  | case3 depth t ts =>
    cases h
    exact List.suffix_cons t _
  | case4 depth t ts _ _ _ ih => exact (ih h).trans (List.suffix_cons t ts)
  | case5 depth t ts _ _ _ ih => exact (ih h).trans (List.suffix_cons t ts)
  | case6 => cases h

theorem optionalTypeArgumentsRest?_suffix (h : optionalTypeArgumentsRest? ts = some rest) :
    rest <:+ ts := by
  simp only [optionalTypeArgumentsRest?] at h
  split at h
  · exact typeArgumentsRest?_suffix h
  · cases h
    exact List.suffix_refl ts

theorem segmentsRest?_suffix (h : segmentsRest? ts = some rest) : rest <:+ ts := by
  fun_induction segmentsRest? ts with
  | case1 => cases h
  | case2 ts dot segment tail hopt _ ih =>
    have htail : tail <:+ dot :: segment :: tail := ⟨[dot, segment], rfl⟩
    exact ((ih h).trans htail).trans (optionalTypeArgumentsRest?_suffix hopt)
  | case3 ts dot segment tail hopt _ =>
    cases h
    exact optionalTypeArgumentsRest?_suffix hopt
  | case4 ts tail hne hopt =>
    cases h
    exact optionalTypeArgumentsRest?_suffix hopt

theorem dimensionsRest_suffix (ts : List Token) : dimensionsRest ts <:+ ts := by
  fun_induction dimensionsRest ts with
  | case1 opening closing rest _ ih => exact ih.trans ⟨[opening, closing], rfl⟩
  | case2 => exact List.suffix_refl _
  | case3 => exact List.suffix_refl _

theorem typeRest?_suffix (h : typeRest? ts = some rest) : rest <:+ ts := by
  cases ts with
  | nil => cases h
  | cons t tail =>
    refine List.IsSuffix.trans ?_ (List.suffix_cons t tail)
    simp only [typeRest?] at h
    split at h
    · cases h
      exact dimensionsRest_suffix tail
    · split at h
      · obtain ⟨mid, hmid, rfl⟩ := Option.map_eq_some_iff.1 h
        exact (dimensionsRest_suffix mid).trans (segmentsRest?_suffix hmid)
      · cases h

/-- Types joined by ampersands end where their last one does. -/
theorem boundsRest?_eq (ts : List Token) :
    boundsRest? ts = (typeRest? ts).bind fun mid =>
      if begins "&" mid then boundsRest? mid.tail else some mid := by
  rw [boundsRest?.eq_def]
  split
  · next h => rw [h]; rfl
  · next h => rw [h]; rfl
  · next h => rw [h]; rfl

theorem boundsRest?_suffix (h : boundsRest? ts = some rest) : rest <:+ ts := by
  fun_induction boundsRest? ts with
  | case1 => cases h
  | case2 ts htype =>
    cases h
    exact typeRest?_suffix htype
  | case3 ts t tail htype _ ih =>
    exact ((ih h).trans (List.suffix_cons t tail)).trans (typeRest?_suffix htype)
  | case4 ts t tail htype _ =>
    cases h
    exact typeRest?_suffix htype

theorem castRest?_suffix (h : castRest? ts = some rest) : rest <:+ ts := by
  simp only [castRest?] at h
  split at h
  · next closing operand after hbounds =>
    split at h
    · cases h
      exact (List.suffix_cons closing _).trans (boundsRest?_suffix hbounds)
    · cases h
  · cases h

/-- Two tokens that satisfy tests are there to be passed over. -/
theorem length_drop_two {test test' : Token → Bool}
    (h : startsWith test ts && startsWith test' ts.tail) : (ts.drop 2).length < ts.length := by
  obtain ⟨ht, -⟩ := Bool.and_eq_true_iff.1 h
  obtain ⟨t, rest, rfl, -⟩ := startsWith_eq_true ht
  simp only [List.length_drop, List.length_cons]
  omega

end Assay.Source

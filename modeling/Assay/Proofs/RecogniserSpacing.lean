import Assay.Proofs.LexemeEnds

/-!
# Recognisers and inserted white space

White space that is inserted into a text does not change what a recogniser finds in front of it,
however far the recogniser looks ahead, and lets it find nothing where it found nothing. There is a
rule for each way of building recognisers. A sequence asks more of its parts: the first may have gone
on behind the place, and then what comes next has to fail on the white space. `Part` collects what the
parts of a number or name keep.
-/

namespace Assay.Source

variable {w b l m a : List Char} {word close : List Char} {p : Char → Bool} {r s : Recogniser}

/-- White space that is really there. -/
def Spacing (w : List Char) : Prop := w ≠ [] ∧ ∀ c ∈ w, Text.isWhiteSpace c

theorem Spacing.head (hw : Spacing w) : ∃ c w', w = c :: w' ∧ Text.isWhiteSpace c := by
  obtain ⟨c, w', rfl⟩ := List.exists_cons_of_ne_nil hw.1
  exact ⟨c, w', rfl, hw.2 c List.mem_cons_self⟩

/-- None of the characters is blank. -/
def isUnbroken (cs : List Char) : Bool := cs.all fun c => !Text.isWhiteSpace c

/-- An unbroken word has no white space in it. -/
theorem not_white_of_unbroken {cs : List Char} (h : isUnbroken cs) {c : Char} (hc : c ∈ cs) :
    Text.isWhiteSpace c = false := by
  simpa using List.all_eq_true.1 h c hc

/-! ## Unmoved recognisers -/

/-- What the recogniser finds in front of `b`, it finds if `w` is inserted there. -/
def Finds (w b : List Char) (r : Recogniser) : Prop :=
  ∀ l m, r (l ++ (m ++ b)) = some (l, m ++ b) → r (l ++ (m ++ (w ++ b))) = some (l, m ++ (w ++ b))

/-- Where the recogniser finds nothing in front of `b` or in it, it finds nothing if `w` is inserted. -/
def Misses (w b : List Char) (r : Recogniser) : Prop :=
  ∀ a, r (a ++ b) = none → r (a ++ (w ++ b)) = none

/-- The recogniser does not notice that `w` is inserted in front of `b`. -/
structure Unmoved (w b : List Char) (r : Recogniser) : Prop where
  finds : Finds w b r
  misses : Misses w b r

/-- A part of a sequence that does not notice that `w` is inserted. If it went on into `b`, it now
stops at the white space or fails; on the white space itself it takes nothing, and this is a success
only if it never fails. -/
structure Part (w b : List Char) (r : Recogniser) : Prop extends Unmoved w b r where
  splits : Splits r
  cut : ∀ {a l rest}, r (a ++ b) = some (l, rest) → a.length < l.length →
    r (a ++ (w ++ b)) = none ∨ r (a ++ (w ++ b)) = some (a, w ++ b)
  blank : r (w ++ b) = none ∨ (r (w ++ b) = some ([], w ++ b) ∧ ∀ cs, r cs ≠ none)

/-! ## One lexeme after another -/

/-- The two lexemes that make up one. -/
theorem andThen_eq_some (hr : Splits r) {x : List Char} :
    andThen r s (l ++ x) = some (l, x) ↔ ∃ l₁ l₂, l = l₁ ++ l₂ ∧
      r (l₁ ++ (l₂ ++ x)) = some (l₁, l₂ ++ x) ∧ s (l₂ ++ x) = some (l₂, x) := by
  constructor
  · intro h
    obtain ⟨l₁, mid, l₂, hl, hs, rfl⟩ := andThen_inv h
    have hsplit := hr _ _ _ hl
    rw [List.append_assoc, List.append_cancel_left_eq] at hsplit
    subst hsplit
    rw [List.append_assoc] at hl
    exact ⟨l₁, l₂, rfl, hl, hs⟩
  · rintro ⟨l₁, l₂, rfl, h₁, h₂⟩
    simp only [andThen, List.append_assoc, h₁, h₂, Option.map_some]

/-- Two recognisers in a row are found where both are and the first splits its text. -/
theorem Finds.andThen (hr : Finds w b r) (hsplits : Splits r) (hs : Finds w b s) :
    Finds w b (andThen r s) := by
  intro l m h
  obtain ⟨l₁, l₂, rfl, h₁, h₂⟩ := (andThen_eq_some hsplits).1 h
  refine (andThen_eq_some hsplits).2 ⟨l₁, l₂, rfl, ?_, hs _ _ h₂⟩
  have hfirst := hr l₁ (l₂ ++ m) (by rwa [List.append_assoc])
  rwa [List.append_assoc] at hfirst

/-- What is taken of a text either ends before a place or goes beyond it. -/
theorem taken_before_or_beyond (hr : Splits r) {rest : List Char} (h : r (a ++ b) = some (l, rest)) :
    (∃ m, a = l ++ m ∧ rest = m ++ b) ∨ a.length < l.length := by
  rcases List.append_eq_append_iff.1 (hr _ _ _ h) with ⟨m, ha, hrest⟩ | ⟨d, hl, -⟩
  · exact .inl ⟨m, ha, hrest⟩
  · by_cases hd : d = []
    · subst hd
      rw [List.append_nil] at hl
      subst hl
      refine .inl ⟨[], (List.append_nil l).symm, ?_⟩
      exact List.append_cancel_left (hr _ _ _ h)
    · right
      have := List.length_pos_iff.2 hd
      rw [hl, List.length_append]
      omega

/-- A part and then something that fails on white space or never. -/
theorem Part.sequence (hr : Part w b r) (hs : Unmoved w b s)
    (hblank : s (w ++ b) = none ∨ ∀ cs, s cs ≠ none) : Unmoved w b (Source.andThen r s) := by
  refine ⟨hr.finds.andThen hr.splits hs.finds, fun a h => ?_⟩
  simp only [Source.andThen] at h ⊢
  cases hra : r (a ++ b) with
  | none => rw [hr.misses _ hra]
  | some parts =>
    obtain ⟨l, rest⟩ := parts
    rw [hra] at h
    have hnone : s rest = none := Option.map_eq_none_iff.1 h
    rcases taken_before_or_beyond hr.splits hra with ⟨m, rfl, rfl⟩ | hbeyond
    · have hfound := hr.finds _ _ (by rwa [List.append_assoc] at hra)
      rw [List.append_assoc, hfound]
      simp only [hs.misses _ hnone, Option.map_none]
    -- the first part went beyond the place, so that the second one has to fail on white space
    · rcases hr.cut hra hbeyond with hcut | hcut
      · rw [hcut]
      · rw [hcut]
        rcases hblank with hblank | htotal
        · simp only [hblank, Option.map_none]
        · exact absurd hnone (htotal rest)

/-- Two parts in a row are a part. -/
theorem Part.andThen (hr : Part w b r) (hs : Part w b s) : Part w b (andThen r s) where
  toUnmoved := hr.sequence hs.toUnmoved (hs.blank.imp_right And.right)
  splits := hr.splits.andThen hs.splits
  cut := by
    intro a l rest h hbeyond
    simp only [Source.andThen] at h ⊢
    cases hra : r (a ++ b) with
    | none =>
      rw [hra] at h
      cases h
    | some parts =>
      -- the whole goes beyond the blanks with its first part or with its second
      obtain ⟨l₁, mid⟩ := parts
      rw [hra] at h
      obtain ⟨⟨l₂, rest'⟩, h₂, heq⟩ := Option.map_eq_some_iff.1 h
      obtain ⟨rfl, rfl⟩ := Prod.mk.inj heq
      rcases taken_before_or_beyond hr.splits hra with ⟨m, rfl, rfl⟩ | hfirst
      -- the first part stops before the blanks, or it is the one that goes beyond
      · have hfound := hr.finds _ _ (by rwa [List.append_assoc] at hra)
        have hsecond : m.length < l₂.length := by
          simp only [List.length_append] at hbeyond
          omega
        rw [List.append_assoc, hfound]
        rcases hs.cut h₂ hsecond with hcut | hcut
        · simp only [hcut, Option.map_none, true_or]
        · simp only [hcut, Option.map_some, or_true]
      · rcases hr.cut hra hfirst with hcut | hcut
        · rw [hcut]
          exact .inl rfl
        · rw [hcut]
          rcases hs.blank with hblank | ⟨hblank, -⟩
          · simp only [hblank, Option.map_none, true_or]
          · simp only [hblank, Option.map_some, List.append_nil, or_true]
  blank := by
    simp only [Source.andThen]
    -- on blanks both fail, or both read nothing
    rcases hr.blank with hblank | ⟨hblank, hrtotal⟩
    · rw [hblank]
      exact .inl rfl
    · rw [hblank]
      rcases hs.blank with hblank' | ⟨hblank', hstotal⟩
      · simp only [hblank', Option.map_none, true_or]
      · refine .inr ⟨by simp only [hblank', Option.map_some, List.append_nil], fun cs => ?_⟩
        cases hrcs : r cs with
        | none => exact absurd hrcs (hrtotal cs)
        | some parts =>
          cases hscs : s parts.2 with
          | none => exact absurd hscs (hstotal parts.2)
          | some parts' => simp [hscs]

/-- Parts in order are a part. -/
theorem part_inOrder {rs : List Recogniser} (h : ∀ r ∈ rs, Part w b r) : Part w b (inOrder rs) := by
  induction rs with
  | nil =>
    -- the empty sequence takes nothing and never fails
    refine ⟨⟨?_, nofun⟩, ?_, ?_, .inr ⟨rfl, nofun⟩⟩
    · intro l m h
      obtain ⟨rfl, -⟩ := Prod.mk.inj (Option.some.inj h)
      rfl
    · intro cs l rest h
      cases h
      rfl
    · intro a l rest h hbeyond
      cases h
      cases hbeyond
  | cons r rs ih => exact (h r (by simp)).andThen (ih fun s hs => h s (by simp [hs]))

/-! ## Single characters, words and runs -/

/-- One character that is not white space is a part. -/
theorem part_one (hw : Spacing w) (hp : ∀ c, p c → Text.isWhiteSpace c = false) :
    Part w b (one p) := by
  obtain ⟨d, w', rfl, hd⟩ := hw.head
  have hblank : one p (d :: w' ++ b) = none := by
    have hpd : p d = false := by
      cases hpd : p d with
      | false => rfl
      | true => rw [hp d hpd] at hd; cases hd
    simp [one, hpd]
  -- a character that fits is taken, one that does not stays, and nothing goes beyond the blanks
  refine ⟨⟨?_, ?_⟩, splits_one p, ?_, .inl hblank⟩
  · intro l m h
    obtain ⟨c, l, rfl⟩ := List.exists_cons_of_ne_nil (consumes_one p _ _ _ h)
    simp only [List.cons_append, one] at h ⊢
    split at h
    · next hc =>
      obtain ⟨hl, -⟩ := Prod.mk.inj (Option.some.inj h)
      obtain ⟨-, rfl⟩ := List.cons.inj hl
      rw [if_pos hc]
      rfl
    · cases h
  · intro a h
    cases a with
    | nil => exact hblank
    | cons c a =>
      simp only [List.cons_append, one] at h ⊢
      split at h
      · cases h
      · next hc => rw [if_neg hc]
  · intro a l rest h hbeyond
    cases a with
    | nil => exact .inl hblank
    | cons c a =>
      simp only [List.cons_append, one] at h
      split at h
      · cases h
        simp at hbeyond
      · cases h

/-- A word in front of white space is there without it. -/
theorem prefix_of_spaced (hw : Spacing w) (hword : isUnbroken word)
    (h : word.isPrefixOf (a ++ (w ++ b))) : word.isPrefixOf a := by
  rw [List.isPrefixOf_iff_prefix] at h ⊢
  obtain ⟨t, ht⟩ := h
  rcases List.append_eq_append_iff.1 ht with ⟨d, ha, -⟩ | ⟨d, hd, hrest⟩
  · exact ⟨d, ha.symm⟩
  · cases d with
    | nil => exact ⟨[], by rw [hd, List.append_nil, List.append_nil]⟩
    | cons c d =>
      -- the first character behind the place is white space, and the word has none
      obtain ⟨e, w', rfl, he⟩ := hw.head
      obtain ⟨rfl, -⟩ := List.cons.inj hrest
      rw [not_white_of_unbroken hword (by simp [hd])] at he
      cases he

theorem isPrefixOf_append {x : List Char} (h : word.isPrefixOf a) :
    word.isPrefixOf (a ++ x) := by
  rw [List.isPrefixOf_iff_prefix] at h ⊢
  exact h.trans (List.prefix_append a x)

/-- A fixed unbroken word is a part. -/
theorem part_exactly (hw : Spacing w) (hword : isUnbroken word)
    (hne : word ≠ []) : Part w b (exactly word) := by
  have hmiss : ∀ {a : List Char}, word.isPrefixOf a = false → exactly word (a ++ (w ++ b)) = none := by
    intro a ha
    simp only [exactly]
    rw [if_neg fun h => by rw [prefix_of_spaced hw hword h] at ha; cases ha]
  refine ⟨⟨?_, ?_⟩, splits_exactly word, ?_, .inl (hmiss (a := []) ?_)⟩
  · intro l m h
    obtain ⟨rfl, -⟩ := exactly_inv h
    exact exactly_append l _
  · intro a h
    apply hmiss
    cases ha : word.isPrefixOf a with
    | false => rfl
    | true => simp [exactly, isPrefixOf_append ha] at h
  · intro a l rest h hbeyond
    refine .inl (hmiss ?_)
    obtain ⟨rfl, -⟩ := exactly_inv h
    cases ha : l.isPrefixOf a with
    | false => rfl
    | true =>
      have := (List.isPrefixOf_iff_prefix.1 ha).length_le
      omega
  · obtain ⟨c, word, rfl⟩ := List.exists_cons_of_ne_nil hne
    rfl

/-- A run that stops at some place. -/
theorem run_eq_some {x : List Char} :
    run p (l ++ x) = some (l, x) ↔ (∀ c ∈ l, p c) ∧ ∀ c ∈ x.head?, p c = false := by
  constructor
  · intro h
    obtain ⟨htake, hdrop⟩ := Prod.mk.inj (Option.some.inj h)
    have hl : ∀ c ∈ l, p c := fun c hc => by
      rw [← htake] at hc
      exact List.all_eq_true.1 List.all_takeWhile c hc
    refine ⟨hl, ?_⟩
    rw [List.dropWhile_append_of_pos hl] at hdrop
    cases x with
    | nil => exact nofun
    | cons c x =>
      rintro _ ⟨⟩
      by_contra hc
      rw [Bool.not_eq_false] at hc
      have hlength := congrArg List.length hdrop
      rw [List.dropWhile_cons_of_pos hc, List.length_cons] at hlength
      have := (List.dropWhile_suffix (l := x) p).length_le
      omega
  · rintro ⟨hl, hx⟩
    simp only [run, List.takeWhile_append_of_pos hl, List.dropWhile_append_of_pos hl]
    cases x with
    | nil => simp
    | cons c x => simp [hx c rfl]

/-- A run is found again if it cannot go on with the white space. -/
theorem run_finds (hw : m = [] → ∀ c ∈ w.head?, p c = false) (hne : w ≠ [])
    (h : run p (l ++ (m ++ b)) = some (l, m ++ b)) :
    run p (l ++ (m ++ (w ++ b))) = some (l, m ++ (w ++ b)) := by
  obtain ⟨hl, hhead⟩ := run_eq_some.1 h
  refine run_eq_some.2 ⟨hl, ?_⟩
  cases m with
  | nil =>
    obtain ⟨c, w, rfl⟩ := List.exists_cons_of_ne_nil hne
    exact hw rfl
  | cons c m => exact hhead

theorem Spacing.not_head (hw : Spacing w) (hp : ∀ c, p c → Text.isWhiteSpace c = false) :
    ∀ c ∈ w.head?, p c = false := by
  intro c hc
  have hblank := hw.2 c (List.mem_of_mem_head? hc)
  cases hpc : p c with
  | false => rfl
  | true => rw [hp c hpc] at hblank; cases hblank

/-- A run of characters that are not white space is a part. -/
theorem part_run (hw : Spacing w) (hp : ∀ c, p c → Text.isWhiteSpace c = false) :
    Part w b (run p) := by
  have hhead : ∀ c ∈ (w ++ b).head?, p c = false := by
    obtain ⟨d, w', rfl, -⟩ := hw.head
    exact hw.not_head hp
  refine ⟨⟨fun _ _ => run_finds (fun _ => hw.not_head hp) hw.1, nofun⟩, splits_run p, ?_,
    .inr ⟨run_eq_some (l := []).2 ⟨nofun, hhead⟩, nofun⟩⟩
  intro a l rest h hbeyond
  refine .inr (run_eq_some.2 ⟨fun c hc => ?_, hhead⟩)
  -- a run beyond the place has all that comes before
  have hsplit := splits_run p _ _ _ h
  have hprefix : a <+: l := by
    refine List.prefix_of_prefix_length_le (List.prefix_append a b) ?_ (Nat.le_of_lt hbeyond)
    exact ⟨rest, hsplit⟩
  obtain ⟨htake, -⟩ := Prod.mk.inj (Option.some.inj h)
  have hmem : c ∈ l := hprefix.subset hc
  rw [← htake] at hmem
  exact List.all_eq_true.1 List.all_takeWhile c hmem

/-- One character or none. -/
theorem Part.optional (hr : Part w b r)
    (hsingle : ∀ cs l rest, r cs = some (l, rest) → l.length ≤ 1) : Part w b (optional r) := by
  have hblank : Source.optional r (w ++ b) = some ([], w ++ b) := by
    rcases hr.blank with hblank | ⟨hblank, -⟩ <;> simp [Source.optional, hblank]
  have htotal : ∀ cs, Source.optional r cs ≠ none := fun cs => by
    cases hrc : r cs <;> simp [Source.optional, hrc]
  refine ⟨⟨?_, fun _ h => absurd h (htotal _)⟩, hr.splits.optional, ?_, .inr ⟨hblank, htotal⟩⟩
  · intro l m h
    cases hrc : r (l ++ (m ++ b)) with
    | none =>
      simp only [Source.optional, hrc, Option.none_or, Option.some.injEq, Prod.mk.injEq] at h
      obtain ⟨rfl, -⟩ := h
      have hnone : r (m ++ (w ++ b)) = none := hr.misses _ hrc
      simp [Source.optional, hnone]
    | some parts =>
      simp only [Source.optional, hrc, Option.some_or] at h
      have hfound := hr.finds _ _ (hrc.trans h)
      simp [Source.optional, hfound]
  -- what goes beyond the text before the insertion is the one character, so nothing stands before
  -- it
  · intro a l rest h hbeyond
    cases hrc : r (a ++ b) with
    | none =>
      simp only [Source.optional, hrc, Option.none_or, Option.some.injEq, Prod.mk.injEq] at h
      obtain ⟨rfl, -⟩ := h
      cases hbeyond
    | some parts =>
      simp only [Source.optional, hrc, Option.some_or] at h
      have hlength := hsingle _ _ _ (hrc.trans h)
      obtain rfl : a = [] := List.length_eq_zero_iff.1 (by omega)
      exact .inr hblank

theorem length_one {cs rest : List Char} (h : one p cs = some (l, rest)) : l.length ≤ 1 := by
  obtain ⟨c, -, rfl, -⟩ := one_inv h
  exact Nat.le_refl 1

/-! ## Choices -/

/-- Either of two unmoved recognisers is unmoved. -/
theorem Unmoved.either (hr : Unmoved w b r) (hs : Unmoved w b s) : Unmoved w b (either r s) := by
  constructor
  · intro l m h
    simp only [Source.either] at h ⊢
    cases hrc : r (l ++ (m ++ b)) with
    | none =>
      rw [hrc, Option.none_or] at h
      have hnone : r (l ++ (m ++ (w ++ b))) = none := by
        rw [← List.append_assoc] at hrc ⊢
        exact hr.misses _ hrc
      rw [hnone, Option.none_or]
      exact hs.finds _ _ h
    | some parts =>
      rw [hrc, Option.some_or] at h
      rw [hr.finds _ _ (hrc.trans h), Option.some_or]
  · intro a h
    obtain ⟨hrnone, hsnone⟩ := Option.or_eq_none_iff.1 h
    exact Option.or_eq_none_iff.2 ⟨hr.misses _ hrnone, hs.misses _ hsnone⟩

/-- The first of some unmoved recognisers is unmoved. -/
theorem unmoved_firstOf {rs : List Recogniser} (h : ∀ r ∈ rs, Unmoved w b r) :
    Unmoved w b (firstOf rs) := by
  induction rs with
  | nil => exact ⟨nofun, fun _ _ => rfl⟩
  | cons r rs ih => exact (h r (by simp)).either (ih fun s hs => h s (by simp [hs]))

/-- An unmoved recogniser may be missing. -/
theorem Unmoved.optional (hr : Unmoved w b r) : Unmoved w b (optional r) := by
  refine hr.either ⟨?_, nofun⟩
  intro l m h
  obtain ⟨rfl, -⟩ := Prod.mk.inj (Option.some.inj h)
  rfl

/-- A sequence whose second part never fails. -/
theorem Unmoved.andThen (hr : Unmoved w b r) (hsplits : Splits r) (hs : Finds w b s)
    (htotal : ∀ cs, s cs ≠ none) : Unmoved w b (andThen r s) := by
  refine ⟨hr.finds.andThen hsplits hs, fun a h => ?_⟩
  simp only [Source.andThen] at h ⊢
  cases hra : r (a ++ b) with
  | none => rw [hr.misses _ hra]
  | some parts =>
    rw [hra] at h
    exact absurd (Option.map_eq_none_iff.1 h) (htotal _)

end Assay.Source

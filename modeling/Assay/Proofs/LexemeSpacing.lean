import Assay.Proofs.RecogniserSpacing

/-!
# White space between lexemes

White space that is inserted behind a token leaves the tokens before it as they are. Bodies between
delimiters end where they ended; a body that is not closed stays open, since no delimiter has a blank
in it; and a class that is tried before that of a token still does not fit, though the text it looks
at has changed.

Main statement: a token in front of the inserted white space stays the lexeme at its place
(`lexeme?_spaced`).
-/

namespace Assay.Source

variable {w b l m a : List Char} {word close : List Char} {p : Char → Bool} {r s : Recogniser}

/-! ## Delimited bodies -/

/-- The recogniser does not look beyond what it takes. -/
def Local (r : Recogniser) : Prop := ∀ l x y, r (l ++ x) = some (l, x) → r (l ++ y) = some (l, y)

/-- A local recogniser finds with white space behind what it finds without. -/
theorem Local.finds (hr : Local r) : Finds w b r := fun _ _ h => hr _ _ _ h

/-- A fixed word is found whatever follows it. -/
theorem local_exactly (word : List Char) : Local (exactly word) := by
  intro l x y h
  obtain ⟨rfl, -⟩ := exactly_inv h
  exact exactly_append l y

/-- Two local recognisers in a row are local. -/
theorem Local.andThen (hr : Local r) (hsplits : Splits r) (hs : Local s) : Local (andThen r s) := by
  intro l x y h
  obtain ⟨l₁, l₂, rfl, h₁, h₂⟩ := (andThen_eq_some hsplits).1 h
  exact (andThen_eq_some hsplits).2 ⟨l₁, l₂, rfl, hr _ _ _ h₁, hs _ _ _ h₂⟩

/-- A recogniser barred by the next character stays local where it consumes one. -/
theorem Local.unlessNext (hr : Local r) (hconsumes : Consumes r) (stop : Char) :
    Local (unlessNext stop r) := by
  intro l x y h
  simp only [Source.unlessNext] at h ⊢
  split at h
  · cases h
  · next hstop =>
    obtain ⟨c, l, rfl⟩ := List.exists_cons_of_ne_nil (hconsumes _ _ _ h)
    exact (if_neg hstop).trans (hr _ _ _ h)

/-- A comment read to its end is as long as its end at least. -/
theorem length_through {cs rest : List Char} (h : through close cs = some (l, rest)) :
    close.length ≤ l.length := by
  induction cs generalizing l with
  | nil => cases h
  | cons c cs ih =>
    simp only [through] at h
    split at h
    · cases h
      exact Nat.le_refl _
    · obtain ⟨⟨m, rest'⟩, hm, heq⟩ := Option.map_eq_some_iff.1 h
      cases heq
      exact Nat.le_succ_of_le (ih hm)

/-- A word that is no longer than a text is at its start whatever comes after the text. -/
theorem prefix_of_length_le {x y : List Char} (hlength : word.length ≤ l.length)
    (h : word.isPrefixOf (l ++ y)) : word.isPrefixOf (l ++ x) := by
  rw [List.isPrefixOf_iff_prefix] at h ⊢
  have hl : word <+: l := List.prefix_of_prefix_length_le h (List.prefix_append l y) hlength
  exact hl.trans (List.prefix_append l x)

/-- What is read to a fixed end is found whatever follows. -/
theorem local_through (hclose : close ≠ []) : Local (through close) := by
  intro l x y h
  induction l with
  | nil => exact absurd rfl (through_ne_nil hclose _ _ _ h)
  | cons c l ih =>
    simp only [List.cons_append, through] at h ⊢
    split at h
    · next hprefix =>
      obtain ⟨rfl, -⟩ := Prod.mk.inj (Option.some.inj h)
      rw [← List.cons_append, if_pos (isPrefixOf_append (by simp)), List.drop_left]
    · next hprefix =>
      obtain ⟨⟨m, rest⟩, hm, heq⟩ := Option.map_eq_some_iff.1 h
      obtain ⟨rfl, rfl⟩ : m = l ∧ rest = x := by
        obtain ⟨hcons, hrest⟩ := Prod.mk.inj heq
        exact ⟨(List.cons.inj hcons).2, hrest⟩
      have hlength : close.length ≤ (c :: m).length := Nat.le_succ_of_le (length_through hm)
      rw [if_neg fun hy => hprefix ?_, ih hm]
      · rfl
      · rw [← List.cons_append] at hy ⊢
        exact prefix_of_length_le hlength hy

/-- A text block read to its end has its three quotes. -/
theorem length_throughTripleQuote {cs rest : List Char} {after : Bool}
    (h : throughTripleQuote after cs = some (l, rest)) : 3 ≤ l.length := by
  induction cs generalizing l after with
  | nil => cases h
  | cons c cs ih =>
    simp only [throughTripleQuote] at h
    split at h
    · cases h
      exact Nat.le_refl _
    · obtain ⟨⟨m, rest'⟩, hm, heq⟩ := Option.map_eq_some_iff.1 h
      cases heq
      exact Nat.le_succ_of_le (ih hm)

/-- A text block read to its end is found whatever follows. -/
theorem local_throughTripleQuote (after : Bool) : Local (throughTripleQuote after) := by
  intro l x y h
  induction l generalizing after with
  | nil => exact absurd (length_throughTripleQuote h) (by decide)
  | cons c l ih =>
    simp only [List.cons_append, throughTripleQuote] at h ⊢
    split at h
    · next hquotes =>
      obtain ⟨hl, -⟩ := Prod.mk.inj (Option.some.inj h)
      obtain ⟨rfl, rfl⟩ := List.cons.inj hl.symm
      simp only [Bool.and_eq_true, Bool.not_eq_true'] at hquotes
      simp [hquotes.1]
    · next hquotes =>
      obtain ⟨⟨m, rest⟩, hm, heq⟩ := Option.map_eq_some_iff.1 h
      obtain ⟨rfl, rfl⟩ : m = l ∧ rest = x := by
        obtain ⟨hcons, hrest⟩ := Prod.mk.inj heq
        exact ⟨(List.cons.inj hcons).2, hrest⟩
      have hlength : ['"', '"', '"'].length ≤ (c :: m).length :=
        Nat.le_succ_of_le (length_throughTripleQuote hm)
      rw [if_neg fun hy => hquotes ?_, ih _ hm]
      · rfl
      · rw [Bool.and_eq_true] at hy ⊢
        refine ⟨hy.1, ?_⟩
        have hprefix := hy.2
        rw [← List.cons_append] at hprefix ⊢
        exact prefix_of_length_le hlength hprefix

/-- What comes after a character that escapes nothing. -/
theorem throughQuote_cons {quote c : Char} (hc : c ≠ '\\') (cs : List Char) :
    throughQuote quote (c :: cs) =
      if c == quote then some ([c], cs)
      else if c == '\\' || c == '\r' || c == '\n' then none
      else (throughQuote quote cs).map fun (l, rest) => (c :: l, rest) := by
  cases cs <;> simp [throughQuote, hc]

/-- A string read to its quote is found whatever follows. -/
theorem local_throughQuote {quote : Char} (hquote : quote ≠ '\\') : Local (throughQuote quote) := by
  have hread : ∀ cs l x y, throughQuote quote cs = some (l, x) →
      throughQuote quote (l ++ y) = some (l, y) := by
    intro cs
    -- along the search: it passes an escape as a pair, stops at the quote, and fails at a line end
    fun_induction throughQuote quote cs with
    | case1 | case2 =>
      intro _ _ _ h
      cases h
    | case3 c cs hc ih =>
      intro l x y h
      obtain ⟨⟨m, rest⟩, hm, heq⟩ := Option.map_eq_some_iff.1 h
      cases heq
      simp only [List.cons_append, throughQuote, hc, Bool.false_eq_true, if_false, ih _ _ y hm,
        Option.map_some]
    | case4 c cs _ hc =>
      intro l x y h
      cases h
      obtain rfl : c = quote := by simpa using hc
      rw [List.singleton_append, throughQuote_cons hquote]
      simp
    | case5 =>
      intro _ _ _ h
      cases h
    | case6 c cs _ hc hline ih =>
      intro l x y h
      obtain ⟨⟨m, rest⟩, hm, heq⟩ := Option.map_eq_some_iff.1 h
      cases heq
      have hescape : c ≠ '\\' := by
        rintro rfl
        simp at hline
      rw [List.cons_append, throughQuote_cons hescape, if_neg hc, if_neg hline, ih _ _ y hm]
      rfl
  exact fun l x y h => hread _ l x y h

/-! ## Bodies that are not closed -/

/-- No blank starts what closes a body. -/
theorem isPrefixOf_white {c : Char} (hc : Text.isWhiteSpace c) (hclose : isUnbroken close)
    (hne : close ≠ []) (cs : List Char) : close.isPrefixOf (c :: cs) = false := by
  obtain ⟨d, close, rfl⟩ := List.exists_cons_of_ne_nil hne
  have hd := not_white_of_unbroken hclose (List.mem_cons_self (a := d))
  have hdc : (d == c) = false := by
    rw [beq_eq_false_iff_ne]
    rintro rfl
    rw [hd] at hc
    cases hc
  simp [List.isPrefixOf, hdc]

/-- White space in front of a text without the end of a comment brings none. -/
theorem through_white (hclose : isUnbroken close) (hne : close ≠ [])
    (hw : ∀ c ∈ w, Text.isWhiteSpace c) (hb : through close b = none) :
    through close (w ++ b) = none := by
  induction w with
  | nil => exact hb
  | cons c w ih =>
    obtain ⟨hc, hw⟩ := List.forall_mem_cons.1 hw
    rw [List.cons_append, through, isPrefixOf_white hc hclose hne, ih hw]
    rfl

/-- White space lets no recogniser of a fixed end find it. -/
theorem through_misses (hw : Spacing w) (hclose : isUnbroken close)
    (hne : close ≠ []) : Misses w b (through close) := by
  intro a h
  induction a with
  | nil =>
    rw [List.nil_append] at h ⊢
    exact through_white hclose hne hw.2 h
  | cons c a ih =>
    simp only [List.cons_append, through] at h ⊢
    split at h
    · cases h
    · next hprefix =>
      rw [if_neg fun hspaced => hprefix ?_, ih (Option.map_eq_none_iff.1 h)]
      · rfl
      · rw [← List.cons_append] at hspaced ⊢
        exact isPrefixOf_append (prefix_of_spaced hw hclose hspaced)

/-- Whether a backslash comes before it matters only to a text that starts with a quote. -/
theorem throughTripleQuote_after (hb : b.head? ≠ some '"') (after after' : Bool) :
    throughTripleQuote after b = throughTripleQuote after' b := by
  cases b with
  | nil => rfl
  | cons c b =>
    have hc : ('"' == c) = false := by
      rw [beq_eq_false_iff_ne]
      rintro rfl
      exact hb rfl
    simp [throughTripleQuote, List.isPrefixOf, hc]

/-- White space in front of a text without three quotes brings none. -/
theorem throughTripleQuote_white (hw : Spacing w) (hb : throughTripleQuote false b = none)
    (after : Bool) : throughTripleQuote after (w ++ b) = none := by
  obtain ⟨hne, hwhite⟩ := hw
  induction w generalizing after with
  | nil => exact absurd rfl hne
  | cons c w ih =>
    obtain ⟨hc, hwhite⟩ := List.forall_mem_cons.1 hwhite
    have hbackslash : (c == '\\') = false := by
      rw [beq_eq_false_iff_ne]
      rintro rfl
      revert hc
      decide
    have hrest : throughTripleQuote false (w ++ b) = none := by
      by_cases hw : w = []
      · rw [hw]
        exact hb
      · exact ih false hw hwhite
    rw [List.cons_append, throughTripleQuote, isPrefixOf_white hc (by decide) (by simp),
      Bool.and_false, if_neg (by simp), hbackslash, hrest]
    rfl

/-- A text block that is not closed stays open, unless the white space parts a backslash from the
quotes behind it. -/
theorem throughTripleQuote_misses (hw : Spacing w) {after : Bool}
    (hb : b.head? = some '"' → a.getLast? ≠ some '\\' ∧ (a = [] → after = false))
    (h : throughTripleQuote after (a ++ b) = none) :
    throughTripleQuote after (a ++ (w ++ b)) = none := by
  -- on the text before the insertion; what comes behind is only seen if it ends there
  induction a generalizing after with
  | nil =>
    refine throughTripleQuote_white hw ?_ after
    by_cases hhead : b.head? = some '"'
    · rw [(hb hhead).2 rfl] at h
      exact h
    · rw [throughTripleQuote_after hhead false after]
      exact h
  | cons c a ih =>
    simp only [List.cons_append, throughTripleQuote] at h ⊢
    split at h
    · cases h
    · next hquotes =>
      have hmore := Option.map_eq_none_iff.1 h
      have hrest := ih ?_ hmore
      · rw [if_neg fun hspaced => hquotes ?_, hrest]
        · rfl
        · rw [Bool.and_eq_true] at hspaced ⊢
          refine ⟨hspaced.1, ?_⟩
          have hprefix := hspaced.2
          rw [← List.cons_append] at hprefix ⊢
          exact isPrefixOf_append (prefix_of_spaced hw (by decide) hprefix)
      · intro hhead
        obtain ⟨hlast, -⟩ := hb hhead
        constructor
        · intro ha
          obtain ⟨d, a', rfl⟩ : ∃ d a', a = d :: a' := by
            cases a with
            | nil => cases ha
            | cons d a' => exact ⟨d, a', rfl⟩
          exact hlast ha
        · rintro rfl
          simpa using hlast

/-- A recogniser barred by a character still finds nothing once white space is put in. -/
theorem unlessNext_misses {stop : Char} (hr : Misses w b r) (ha : a = [] → b.head? ≠ some stop)
    (h : unlessNext stop r (a ++ b) = none) : unlessNext stop r (a ++ (w ++ b)) = none := by
  simp only [unlessNext] at h ⊢
  cases a with
  | nil =>
    have hnone : r b = none := by
      rw [List.nil_append, if_neg (by simpa using ha rfl)] at h
      exact h
    rw [hr [] hnone]
    exact ite_self none
  | cons c a =>
    by_cases hstop : (some c == some stop) = true
    · exact if_pos hstop
    · have hnone : r (c :: a ++ b) = none := (if_neg hstop).symm.trans h
      exact (if_neg hstop).trans (hr (c :: a) hnone)

/-- A delimited body is missed if it is missed behind its opening. -/
theorem after_exactly_misses (hw : Spacing w) (hword : isUnbroken word)
    (hs : ∀ a', a = word ++ a' → s (a' ++ b) = none → s (a' ++ (w ++ b)) = none)
    (h : andThen (exactly word) s (a ++ b) = none) :
    andThen (exactly word) s (a ++ (w ++ b)) = none := by
  have hopened : ∀ a' x : List Char, exactly word (word ++ a' ++ x) = some (word, a' ++ x) := by
    intro a' x
    rw [List.append_assoc, exactly, if_pos (isPrefixOf_append (by simp)), List.drop_left]
  cases hprefix : word.isPrefixOf a with
  | true =>
    obtain ⟨a', rfl⟩ := List.isPrefixOf_iff_prefix.1 hprefix
    simp only [andThen, hopened] at h ⊢
    rw [hs a' rfl (Option.map_eq_none_iff.1 h)]
    rfl
  | false =>
    have hnone : exactly word (a ++ (w ++ b)) = none := by
      have hnot : ¬ word.isPrefixOf (a ++ (w ++ b)) := fun hspaced => by
        rw [prefix_of_spaced hw hword hspaced] at hprefix
        cases hprefix
      rw [exactly, if_neg hnot]
    simp only [andThen, hnone]

/-! ## Numbers, words and operators -/

/-- White space is not solid. -/
theorem not_white_of_solid (hp : ∀ c, p c → isSolid c) (c : Char) (hc : p c) :
    Text.isWhiteSpace c = false := by
  have hsolid := hp c hc
  simp only [isSolid, Bool.and_eq_true, Bool.not_eq_true'] at hsolid
  exact hsolid.1

/-- One of some characters that are not white space is a part. -/
theorem part_oneOf (hw : Spacing w) {cs : List Char} (hcs : isUnbroken cs) :
    Part w b (oneOf cs) := part_one hw fun _ hc => not_white_of_unbroken hcs (by simpa using hc)

/-- One of some characters that may be missing is a part. -/
theorem part_optionalOneOf (hw : Spacing w) {cs : List Char}
    (hcs : isUnbroken cs) : Part w b (optional (oneOf cs)) :=
  (part_oneOf hw hcs).optional fun _ _ _ h => length_one h

/-- A run of characters that are not white space is a part. -/
theorem part_runOf (hw : Spacing w) (hp : ∀ c, p c → Text.isWhiteSpace c = false) :
    Part w b (runOf p) := (part_one hw hp).andThen (part_run hw hp)

/-- Digits are a part. -/
theorem part_digits (hw : Spacing w) : Part w b digits :=
  (part_one hw (not_white_of_solid solid_decimalDigit)).andThen
    (part_run hw (not_white_of_solid solid_decimalPart))

/-- An optional recogniser always answers. -/
theorem optional_total (r : Recogniser) (cs : List Char) : optional r cs ≠ none := by
  cases hrc : r cs <;> simp [optional, hrc]

/-- Two recognisers that always answer do so in a row. -/
theorem andThen_total (hr : ∀ cs, r cs ≠ none) (hs : ∀ cs, s cs ≠ none) (cs : List Char) :
    andThen r s cs ≠ none := by
  cases hrc : r cs with
  | none => exact absurd hrc (hr cs)
  | some parts =>
    simp only [andThen, hrc, ne_eq, Option.map_eq_none_iff]
    exact hs parts.2

/-- A decimal number is not moved by white space behind it. -/
theorem unmoved_decimalNumber (hw : Spacing w) : Unmoved w b decimalNumber := by
  have hpoint : Part w b (exactly ['.']) := part_exactly hw (by decide) (by simp)
  have hdigits : Part w b digits := part_digits hw
  have hnone : Part w b (inOrder []) := part_inOrder nofun
  have hexponent : Unmoved w b (inOrder [oneOf ['e', 'E'], optional (oneOf ['+', '-']), digits]) := by
    refine (part_inOrder ?_).toUnmoved
    simp only [List.mem_cons, List.not_mem_nil, or_false, forall_eq_or_imp, forall_eq]
    exact ⟨part_oneOf hw (by decide), part_optionalOneOf hw (by decide), hdigits⟩
  have hfraction : Unmoved w b (inOrder [digits, exactly ['.'], optional digits]) := by
    -- the digits behind the point may be missing, those before it are followed by the point
    have htail : Unmoved w b (inOrder [optional digits]) :=
      hdigits.toUnmoved.optional.andThen splits_digits.optional hnone.finds nofun
    refine hdigits.sequence (hpoint.sequence htail (.inr (andThen_total (optional_total _) nofun)))
      (.inl ?_)
    rcases hpoint.blank with hblank | ⟨-, htotal⟩
    · simp [andThen, hblank]
    · exact absurd rfl (htotal [])
  have htail : Finds w b
      (inOrder [optional (inOrder [oneOf ['e', 'E'], optional (oneOf ['+', '-']), digits]),
        optional (oneOf ['l', 'L', 'f', 'F', 'd', 'D'])]) := by
    have hletter : Part w b (optional (oneOf ['l', 'L', 'f', 'F', 'd', 'D'])) :=
      part_optionalOneOf hw (by decide)
    refine hexponent.optional.finds.andThen (Splits.optional (splits_inOrder ?_))
      (hletter.andThen hnone).finds
    simp only [List.mem_cons, List.not_mem_nil, or_false, forall_eq_or_imp, forall_eq]
    exact ⟨splits_one _, (splits_one _).optional, splits_digits⟩
  refine Unmoved.andThen (unmoved_firstOf ?_) (splits_firstOf ?_) htail
    (andThen_total (optional_total _) (andThen_total (optional_total _) nofun))
  · simp only [List.mem_cons, List.not_mem_nil, or_false, forall_eq_or_imp, forall_eq]
    exact ⟨hfraction, (hpoint.andThen hdigits).toUnmoved, hdigits.toUnmoved⟩
  · simp only [List.mem_cons, List.not_mem_nil, or_false, forall_eq_or_imp, forall_eq]
    refine ⟨splits_inOrder ?_, (splits_exactly _).andThen splits_digits, splits_digits⟩
    simp only [List.mem_cons, List.not_mem_nil, or_false, forall_eq_or_imp, forall_eq]
    exact ⟨splits_digits, splits_exactly _, splits_digits.optional⟩

/-- A number is not moved by white space behind it. -/
theorem unmoved_number (hw : Spacing w) : Unmoved w b number := by
  have hzero : Part w b (exactly ['0']) := part_exactly hw (by decide) (by simp)
  have hhex : ∀ c, isHexPart c → Text.isWhiteSpace c = false := not_white_of_solid solid_hexPart
  have hbit : ∀ c : Char, (c == '0' || c == '1' || c == '_') → Text.isWhiteSpace c = false :=
    fun c hc => not_white_of_codes (p := fun c => c == '0' || c == '1' || c == '_') (by decide) hc
  have hpoint : Part w b (optional (exactly ['.'])) :=
    (part_exactly hw (by decide) (by simp)).optional fun _ _ _ h => by simp [(exactly_inv h).1]
  apply unmoved_firstOf
  simp only [List.mem_cons, List.not_mem_nil, or_false, forall_eq_or_imp, forall_eq]
  refine ⟨(part_inOrder ?_).toUnmoved, (part_inOrder ?_).toUnmoved, (part_inOrder ?_).toUnmoved,
    unmoved_decimalNumber hw⟩ <;>
    simp only [List.mem_cons, List.not_mem_nil, or_false, forall_eq_or_imp, forall_eq]
  · exact ⟨hzero, part_oneOf hw (by decide), part_run hw hhex, hpoint, part_run hw hhex,
      part_oneOf hw (by decide), part_optionalOneOf hw (by decide), part_digits hw,
      part_optionalOneOf hw (by decide)⟩
  · exact ⟨hzero, part_oneOf hw (by decide), part_runOf hw hhex, part_optionalOneOf hw (by decide)⟩
  · exact ⟨hzero, part_oneOf hw (by decide), part_runOf hw hbit, part_optionalOneOf hw (by decide)⟩

/-- An identifier is not moved by white space behind it. -/
theorem unmoved_identifier (hw : Spacing w) : Unmoved w b identifier := by
  have hrest : ∀ c, continuesIdentifier c → Text.isWhiteSpace c = false :=
    not_white_of_solid solid_continuesIdentifier
  exact ((part_one hw fun c hc => hrest c (continues_of_starts hc)).andThen
    (part_run hw hrest)).toUnmoved

/-- An operator is not moved by white space behind it. -/
theorem unmoved_operator (hw : Spacing w) : Unmoved w b operator := by
  refine (unmoved_firstOf fun r hr => ?_).either (part_oneOf hw (by decide +kernel)).toUnmoved
  obtain ⟨word, hword, rfl⟩ := List.mem_map.1 hr
  have hwords : ∀ w ∈ compoundOperators, w.toList ≠ [] ∧ isUnbroken w.toList := by decide +kernel
  exact (part_exactly hw (hwords word hword).2 (hwords word hword).1).toUnmoved

/-! ## The lexeme at its place -/

/-- Behind a comment to the end of its line there is a line break or nothing. -/
theorem lineComment_stops {cs rest : List Char} (h : lineComment cs = some (l, rest)) :
    ∀ c ∈ rest.head?, c = '\r' ∨ c = '\n' := by
  have hsplit : l ++ rest = cs := (splits_exactly _).andThen (splits_run _) _ _ _ h
  rw [← hsplit] at h
  obtain ⟨l₁, l₂, -, -, hrun⟩ := (andThen_eq_some (splits_exactly _)).1 h
  intro c hc
  have hstop := (run_eq_some.1 hrun).2 c hc
  by_contra hne
  rw [not_or] at hne
  simp [hne.1, hne.2] at hstop

/-- The first that is found stays the first where the missed stay missed. -/
theorem findSome?_transfer {α β : Type} {f g : α → Option β} {xs : List α} {y z : β}
    (h : xs.findSome? f = some y) (hmissed : ∀ x ∈ xs, f x = none → g x = none)
    (hfound : ∀ x ∈ xs, f x = some y → g x = some z) : xs.findSome? g = some z := by
  induction xs with
  | nil => cases h
  | cons x xs ih =>
    rw [List.findSome?_cons] at h ⊢
    cases hx : f x with
    | none =>
      rw [hx] at h
      rw [hmissed x List.mem_cons_self hx]
      exact ih h (fun x hx => hmissed x (List.mem_cons_of_mem _ hx))
        fun x hx => hfound x (List.mem_cons_of_mem _ hx)
    | some found =>
      rw [hx] at h
      rw [hfound x List.mem_cons_self (hx.trans h)]

/-- The lexeme before the inserted white space is found by its class again. -/
theorem class_finds (hw : Spacing w) {kind : TokenKind} {r : Recogniser}
    (hentry : (some kind, r) ∈ classes)
    (hbreak : kind = .lineComment → m = [] → w.head? = some '\n' ∨ w.head? = some '\r')
    (h : r (l ++ (m ++ b)) = some (l, m ++ b)) :
    r (l ++ (m ++ (w ++ b))) = some (l, m ++ (w ++ b)) := by
  have hbody : ∀ {word : List Char} {s : Recogniser}, Local s → Local (andThen (exactly word) s) :=
    fun hs => (local_exactly _).andThen (splits_exactly _) hs
  have hclose : Local (through ['*', '/']) := local_through (by simp)
  simp only [classes, List.mem_cons, List.not_mem_nil, or_false, Prod.mk.injEq, Option.some.injEq,
    reduceCtorEq, false_and, false_or] at hentry
  rcases hentry with ⟨rfl, rfl⟩ | ⟨rfl, rfl⟩ | ⟨rfl, rfl⟩ | ⟨rfl, rfl⟩ | ⟨rfl, rfl⟩ | ⟨rfl, rfl⟩ |
    ⟨rfl, rfl⟩ | ⟨rfl, rfl⟩ | ⟨rfl, rfl⟩
  · exact (hbody (hclose.unlessNext (through_ne_nil (by simp)) _)).finds _ _ h
  · exact (hbody hclose).finds _ _ h
  · obtain ⟨l₁, l₂, rfl, h₁, h₂⟩ := (andThen_eq_some (splits_exactly _)).1 h
    have hslashes := local_exactly _ _ _ (l₂ ++ (m ++ (w ++ b))) h₁
    refine (andThen_eq_some (splits_exactly _)).2 ⟨l₁, l₂, rfl, hslashes, ?_⟩
    refine run_finds (fun hm c hc => ?_) hw.1 h₂
    -- only a line break ends the comment
    rcases hbreak rfl hm with hhead | hhead <;> rw [hhead] at hc <;> cases hc <;> rfl
  · exact (hbody (local_throughTripleQuote _)).finds _ _ h
  · exact (hbody (local_throughQuote (by decide))).finds _ _ h
  · refine (hbody ((local_throughQuote (by decide)).unlessNext ?_ _)).finds _ _ h
    rintro cs _ rest hl rfl
    cases last_of_throughQuote hl
  · exact (unmoved_number hw).finds _ _ h
  · exact (unmoved_identifier hw).finds _ _ h
  · exact (unmoved_operator hw).finds _ _ h

/-- A text that starts with a double quote has no lexeme if it does not start with a string. -/
theorem string_of_quote {cs : List Char} (h : stringLiteral ('"' :: cs) = none) :
    lexeme? ('"' :: cs) = none := by
  have htext : textBlock ('"' :: cs) = none := by
    cases hprefix : ['"', '"', '"'].isPrefixOf ('"' :: cs) with
    | false => simp only [textBlock, andThen, exactly, hprefix, Bool.false_eq_true, if_false]
    | true =>
      -- three quotes start with the empty string
      obtain ⟨rest, hrest⟩ := List.isPrefixOf_iff_prefix.1 hprefix
      have hempty : stringLiteral (['"', '"', '"'] ++ rest) = some (['"', '"'], '"' :: rest) := rfl
      rw [hrest, h] at hempty
      cases hempty
  rw [lexeme?_eq_none_iff]
  simp only [classes, List.mem_cons, List.not_mem_nil, or_false, forall_eq_or_imp, forall_eq]
  exact ⟨rfl, rfl, rfl, rfl, htext, h, rfl, rfl, rfl, rfl⟩

/-- A text that starts with a single quote has no lexeme if it does not start with a character. -/
theorem character_of_quote {cs : List Char} (h : characterLiteral ('\'' :: cs) = none) :
    lexeme? ('\'' :: cs) = none := by
  rw [lexeme?_eq_none_iff]
  simp only [classes, List.mem_cons, List.not_mem_nil, or_false, forall_eq_or_imp, forall_eq]
  exact ⟨rfl, rfl, rfl, rfl, rfl, rfl, h, rfl, rfl, rfl⟩

/-- The empty comment is a comment between delimiters. -/
theorem emptyComment (cs : List Char) :
    lexeme? (['/', '*', '*'] ++ '/' :: cs) = some ⟨some .blockComment, ['/', '*', '*', '/'], cs⟩ := rfl

/-- A class that finds nothing at a token before the inserted white space finds nothing there again. -/
theorem class_misses (hw : Spacing w) {kind : TokenKind} {entry : Option TokenKind × Recogniser}
    (hentry : entry ∈ classes)
    (hescape : b.head? = some '"' → (l ++ m).getLast? ≠ some '\\')
    (hx : lexeme? (l ++ (m ++ b)) = some ⟨some kind, l, m ++ b⟩)
    (h : entry.2 (l ++ (m ++ b)) = none) : entry.2 (l ++ (m ++ (w ++ b))) = none := by
  have hclose : Misses w b (through ['*', '/']) := through_misses hw (by decide) (by simp)
  obtain ⟨c, l', hl, hc⟩ := head_of_token hx
  rw [← List.append_assoc] at h hx ⊢
  -- the token would not have been found there
  have habsurd : ∀ {P : Prop}, lexeme? (l ++ m ++ b) = none → P := fun hnone => by
    rw [hnone] at hx
    cases hx
  simp only [classes, List.mem_cons, List.not_mem_nil, or_false] at hentry
  -- class by class: white space and comments, quoted literals, and the rest
  rcases hentry with rfl | rfl | rfl | rfl | rfl | rfl | rfl | rfl | rfl | rfl
  · subst hl
    simp [runOf, andThen, one, hc]
  · refine after_exactly_misses hw (by decide) (fun a' ha' hnone => ?_) h
    refine unlessNext_misses hclose (fun hempty hslash => ?_) hnone
    -- a token that ends inside the delimiters of the empty comment
    obtain ⟨d, b', rfl⟩ : ∃ d b', b = d :: b' := by
      cases b with
      | nil => cases hslash
      | cons d b' => exact ⟨d, b', rfl⟩
    obtain rfl : d = '/' := by simpa using hslash
    rw [ha', hempty, List.append_nil, emptyComment] at hx
    have hrest : b' = m ++ '/' :: b' := congrArg Lexeme.rest (Option.some.inj hx)
    have hlength := congrArg List.length hrest
    rw [List.length_append, List.length_cons] at hlength
    omega
  · exact after_exactly_misses hw (by decide) (fun a' _ hnone => hclose a' hnone) h
  · exact after_exactly_misses hw (by decide) (fun _ _ hnone => by cases hnone) h
  · refine after_exactly_misses hw (by decide) (fun a' ha' hnone => ?_) h
    refine throughTripleQuote_misses hw (fun hquote => ⟨fun hlast => ?_, fun _ => rfl⟩) hnone
    refine hescape hquote ?_
    rw [ha', List.getLast?_append, hlast, Option.some_or]
  · refine after_exactly_misses hw (by decide) (fun a' ha' _ => habsurd ?_) h
    rw [ha'] at h ⊢
    exact string_of_quote h
  · refine after_exactly_misses hw (by decide) (fun a' ha' _ => habsurd ?_) h
    rw [ha'] at h ⊢
    exact character_of_quote h
  · exact (unmoved_number hw).misses _ h
  · exact (unmoved_identifier hw).misses _ h
  · exact (unmoved_operator hw).misses _ h

/-- A token in front of white space that is inserted behind a token stays the lexeme at its place. -/
theorem lexeme?_spaced (hw : Spacing w) {kind : TokenKind}
    (hbreak : kind = .lineComment → m = [] → w.head? = some '\n' ∨ w.head? = some '\r')
    (hescape : b.head? = some '"' → (l ++ m).getLast? ≠ some '\\')
    (h : lexeme? (l ++ (m ++ b)) = some ⟨some kind, l, m ++ b⟩) :
    lexeme? (l ++ (m ++ (w ++ b))) = some ⟨some kind, l, m ++ (w ++ b)⟩ := by
  refine findSome?_transfer h (fun entry hentry hnone => ?_) fun entry hentry hfound => ?_
  · exact Option.map_eq_none_iff.2
      (class_misses hw hentry hescape h (Option.map_eq_none_iff.1 hnone))
  · obtain ⟨class', recognise⟩ := entry
    obtain ⟨⟨l', rest⟩, hr, heq⟩ := Option.map_eq_some_iff.1 hfound
    cases heq
    exact Option.map_eq_some_iff.2 ⟨_, class_finds hw hentry hbreak hr, rfl⟩

end Assay.Source

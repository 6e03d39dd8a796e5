import Assay.Source.Lexeme
import Mathlib.Data.List.Basic

/-!
# Where lexemes begin and end

White space is the first lexical class, so no token begins with a blank. Tokens do not end with one
either, apart from comments to the end of a line, which stop in front of its line break. Main
statements: what the first class takes (`lexeme?_blank`), and the last character of a token
(`lexeme?_ends`, `lexeme?_ends_line`).
-/

namespace Assay.Source

/-! ## Blank characters -/

/-- The code points of white space. -/
def whiteSpaceCodes : List Nat :=
  [0x9, 0xA, 0xB, 0xC, 0xD, 0x20, 0x85, 0xA0, 0x1680, 0x2000, 0x2001, 0x2002, 0x2003, 0x2004, 0x2005,
    0x2006, 0x2007, 0x2008, 0x2009, 0x200A, 0x2028, 0x2029, 0x202F, 0x205F, 0x3000]

/-- The code of a character of white space is in the table of them. -/
theorem mem_whiteSpaceCodes {c : Char} (h : Text.isWhiteSpace c) : c.toNat ∈ whiteSpaceCodes := by
  simp only [Text.isWhiteSpace, Text.Ranges.contains, Text.whiteSpaceRanges, List.any_cons,
    List.any_nil, Bool.or_false, Bool.or_eq_true, Bool.and_eq_true, decide_eq_true_eq] at h
  simp only [whiteSpaceCodes, List.mem_cons, List.not_mem_nil, or_false]
  omega

/-- A class without any of the code points of white space has no blank. -/
theorem not_white_of_codes {p : Char → Bool}
    (hcodes : ∀ code ∈ whiteSpaceCodes, p (Char.ofNat code) = false) {c : Char} (hc : p c) :
    Text.isWhiteSpace c = false := by
  cases hwhite : Text.isWhiteSpace c with
  | false => rfl
  | true =>
    have hnone := hcodes _ (mem_whiteSpaceCodes hwhite)
    rw [Char.ofNat_toNat, hc] at hnone
    cases hnone

/-- The character is neither blank nor a backslash. -/
def isSolid (c : Char) : Bool := !Text.isWhiteSpace c && c != '\\'

/-- A class without any of the code points of white space and without a backslash is solid. -/
theorem solid_of_codes {p : Char → Bool}
    (hcodes : ∀ code ∈ whiteSpaceCodes, p (Char.ofNat code) = false) (hbackslash : p '\\' = false)
    (c : Char) (hc : p c) : isSolid c := by
  have hne : c ≠ '\\' := by
    rintro rfl
    rw [hbackslash] at hc
    cases hc
  simp [isSolid, not_white_of_codes hcodes hc, hne]

/-- What a hexadecimal number is made of is solid. -/
theorem solid_hexPart : ∀ c, isHexPart c → isSolid c :=
  solid_of_codes (by decide) (by decide)

/-- A decimal digit is solid. -/
theorem solid_decimalDigit : ∀ c, Text.isDecimalDigit c → isSolid c :=
  solid_of_codes (by decide) (by decide)

/-- What a decimal number is made of is solid. -/
theorem solid_decimalPart : ∀ c, isDecimalPart c → isSolid c :=
  solid_of_codes (by decide) (by decide)

/-- What an identifier goes on with is solid. -/
theorem solid_continuesIdentifier : ∀ c, continuesIdentifier c → isSolid c :=
  solid_of_codes (by decide +kernel) (by decide)

/-- An identifier goes on with all it can start with. -/
theorem continues_of_starts {c : Char} (h : startsIdentifier c) : continuesIdentifier c := by
  simp only [startsIdentifier, continuesIdentifier, Bool.or_eq_true, Bool.and_eq_true] at h ⊢
  exact h.imp_left And.left

/-! ## The last character -/

/-- If the recogniser splits off something, its last character is of the class. -/
def EndsIn (p : Char → Bool) (r : Recogniser) : Prop :=
  ∀ cs l rest, r cs = some (l, rest) → ∀ c ∈ l.getLast?, p c

variable {p q : Char → Bool} {r s : Recogniser}

/-- One character ends in itself. -/
theorem endsIn_one (hqp : ∀ c, q c → p c) : EndsIn p (one q) := by
  intro cs l rest h
  obtain ⟨c, hc, rfl, -⟩ := one_inv h
  simpa using hqp c hc

/-- A run ends in one of its characters. -/
theorem endsIn_run (hqp : ∀ c, q c → p c) : EndsIn p (run q) := by
  intro cs l rest h c hc
  cases h
  exact hqp c (List.all_eq_true.1 List.all_takeWhile c (List.mem_of_getLast? hc))

/-- A fixed word ends in one of its characters. -/
theorem endsIn_exactly {word : List Char} (hword : word.all p) : EndsIn p (exactly word) := by
  intro cs l rest h c hc
  rw [(exactly_inv h).1] at hc
  exact List.all_eq_true.1 hword c (List.mem_of_getLast? hc)

/-- Two recognisers in a row end alike. -/
theorem EndsIn.andThen (hr : EndsIn p r) (hs : EndsIn p s) : EndsIn p (andThen r s) := by
  intro cs l rest h c hc
  obtain ⟨first, mid, second, hfirst, hsecond, rfl⟩ := andThen_inv h
  rw [List.getLast?_append] at hc
  -- the second lexeme may be empty, and then the first one ends the whole
  cases hlast : second.getLast? with
  | none =>
    rw [hlast, Option.none_or] at hc
    exact hr _ _ _ hfirst c hc
  | some d =>
    rw [hlast, Option.some_or] at hc
    exact hs _ _ _ hsecond c (hlast ▸ hc)

/-- An optional recogniser ends as it does when it reads something. -/
theorem EndsIn.optional (hr : EndsIn p r) : EndsIn p (optional r) := by
  intro cs l rest h
  rcases optional_inv h with hfound | ⟨rfl, -⟩
  · exact hr _ _ _ hfound
  · simp

/-- Either of two recognisers ends alike. -/
theorem EndsIn.either (hr : EndsIn p r) (hs : EndsIn p s) : EndsIn p (either r s) :=
  fun cs l rest h => (either_inv h).elim (hr cs l rest) (hs cs l rest)

/-- Recognisers in order end as each of them does. -/
theorem endsIn_inOrder {rs : List Recogniser} (h : ∀ r ∈ rs, EndsIn p r) : EndsIn p (inOrder rs) := by
  induction rs with
  | nil =>
    intro cs l rest hl
    cases hl
    simp
  | cons r rs ih => exact (h r (by simp)).andThen (ih fun s hs => h s (by simp [hs]))

/-- The first of some recognisers ends as each of them does. -/
theorem endsIn_firstOf {rs : List Recogniser} (h : ∀ r ∈ rs, EndsIn p r) : EndsIn p (firstOf rs) := by
  intro cs l rest hl
  obtain ⟨r, hr, hfound⟩ := firstOf_inv hl
  exact h r hr cs l rest hfound

/-- A recogniser barred by the next character ends as before. -/
theorem EndsIn.unlessNext (hr : EndsIn p r) (stop : Char) : EndsIn p (unlessNext stop r) :=
  fun cs l rest h => hr cs l rest (unlessNext_inv h)

/-- A search for an end that is not empty consumes it. -/
theorem through_ne_nil {close : List Char} (hclose : close ≠ []) : Consumes (through close) := by
  intro cs l rest h
  cases cs with
  | nil => cases h
  | cons c cs =>
    simp only [through] at h
    split at h
    · cases h
      exact hclose
    · obtain ⟨_, -, heq⟩ := Option.map_eq_some_iff.1 h
      cases heq
      simp

/-- A search for a fixed end ends in it. -/
theorem endsIn_through {close : List Char} (hne : close ≠ []) (hclose : close.all p) :
    EndsIn p (through close) := by
  intro cs
  induction cs with
  | nil => exact fun _ _ h => nomatch h
  | cons c cs ih =>
    intro l rest h
    simp only [through] at h
    split at h
    · cases h
      exact fun c hc => List.all_eq_true.1 hclose c (List.mem_of_getLast? hc)
    · obtain ⟨⟨m, rest'⟩, hm, heq⟩ := Option.map_eq_some_iff.1 h
      cases heq
      rw [List.getLast?_cons_of_ne_nil (through_ne_nil hne _ _ _ hm)]
      exact ih _ _ hm

/-- A text block ends in a quote. -/
theorem endsIn_throughTripleQuote (after : Bool) (hquote : p '"') :
    EndsIn p (throughTripleQuote after) := by
  intro cs
  induction cs generalizing after with
  | nil => exact fun _ _ h => nomatch h
  | cons c cs ih =>
    intro l rest h
    simp only [throughTripleQuote] at h
    split at h
    · cases h
      simpa using hquote
    · obtain ⟨⟨m, rest'⟩, hm, heq⟩ := Option.map_eq_some_iff.1 h
      cases heq
      have hne : m ≠ [] := by
        rintro rfl
        cases cs with
        | nil => cases hm
        | cons d ds =>
          simp only [throughTripleQuote] at hm
          split at hm
          · cases hm
          · obtain ⟨_, -, heq⟩ := Option.map_eq_some_iff.1 hm
            cases heq
      rw [List.getLast?_cons_of_ne_nil hne]
      exact ih _ _ _ hm

/-- What is taken up to a quote ends with it. -/
theorem last_of_throughQuote {quote : Char} {cs l rest : List Char}
    (h : throughQuote quote cs = some (l, rest)) : l.getLast? = some quote := by
  fun_induction throughQuote quote cs generalizing l rest with
  | case1 => cases h
  | case2 => cases h
  | case3 c cs _ ih =>
    obtain ⟨⟨m, rest'⟩, hm, heq⟩ := Option.map_eq_some_iff.1 h
    cases heq
    have hend := ih hm
    have hne : m ≠ [] := by rintro rfl; cases hend
    rw [List.getLast?_cons_of_ne_nil (List.cons_ne_nil _ _), List.getLast?_cons_of_ne_nil hne]
    exact hend
  | case4 c cs _ hc =>
    cases h
    simpa using hc
  | case5 => cases h
  | case6 c cs _ _ _ ih =>
    obtain ⟨⟨m, rest'⟩, hm, heq⟩ := Option.map_eq_some_iff.1 h
    cases heq
    have hend := ih hm
    have hne : m ≠ [] := by rintro rfl; cases hend
    rw [List.getLast?_cons_of_ne_nil hne]
    exact hend

/-- A string ends in its quote. -/
theorem endsIn_throughQuote {quote : Char} (hquote : p quote) : EndsIn p (throughQuote quote) := by
  intro cs l rest h c hc
  rw [last_of_throughQuote h] at hc
  cases hc
  exact hquote

/-! ## The classes -/

/-- A choice of solid characters. -/
theorem endsIn_oneOf {cs : List Char} (h : cs.all p) : EndsIn p (oneOf cs) :=
  endsIn_one fun c hc => List.all_eq_true.1 h c (by simpa using hc)

/-- Digits end in a solid character. -/
theorem endsIn_digits : EndsIn isSolid digits :=
  (endsIn_one solid_decimalDigit).andThen (endsIn_run solid_decimalPart)

/-- A decimal number ends in a solid character. -/
theorem endsIn_decimalNumber : EndsIn isSolid decimalNumber := by
  have hpoint : EndsIn isSolid (exactly ['.']) := endsIn_exactly (by decide)
  apply endsIn_inOrder
  simp only [List.mem_cons, List.not_mem_nil, or_false, forall_eq_or_imp, forall_eq]
  refine ⟨endsIn_firstOf ?_, EndsIn.optional (endsIn_inOrder ?_),
    (endsIn_oneOf (by decide)).optional⟩
  · simp only [List.mem_cons, List.not_mem_nil, or_false, forall_eq_or_imp, forall_eq]
    refine ⟨endsIn_inOrder ?_, hpoint.andThen endsIn_digits, endsIn_digits⟩
    simp only [List.mem_cons, List.not_mem_nil, or_false, forall_eq_or_imp, forall_eq]
    exact ⟨endsIn_digits, hpoint, endsIn_digits.optional⟩
  · simp only [List.mem_cons, List.not_mem_nil, or_false, forall_eq_or_imp, forall_eq]
    exact ⟨endsIn_oneOf (by decide), (endsIn_oneOf (by decide +kernel)).optional,
      endsIn_digits⟩

/-- A number ends in a solid character. -/
theorem endsIn_number : EndsIn isSolid number := by
  have hzero : EndsIn isSolid (exactly ['0']) := endsIn_exactly (by decide)
  have hbit : ∀ c : Char, (c == '0' || c == '1' || c == '_') → isSolid c :=
    solid_of_codes (by decide) (by decide +kernel)
  apply endsIn_firstOf
  simp only [List.mem_cons, List.not_mem_nil, or_false, forall_eq_or_imp, forall_eq]
  refine ⟨endsIn_inOrder ?_, endsIn_inOrder ?_, endsIn_inOrder ?_, endsIn_decimalNumber⟩ <;>
    simp only [List.mem_cons, List.not_mem_nil, or_false, forall_eq_or_imp, forall_eq]
  · exact ⟨hzero, endsIn_oneOf (by decide), endsIn_run solid_hexPart,
      (endsIn_exactly (by decide)).optional, endsIn_run solid_hexPart,
      endsIn_oneOf (by decide), (endsIn_oneOf (by decide +kernel)).optional, endsIn_digits,
      (endsIn_oneOf (by decide)).optional⟩
  · exact ⟨hzero, endsIn_oneOf (by decide),
      (endsIn_one solid_hexPart).andThen (endsIn_run solid_hexPart),
      (endsIn_oneOf (by decide)).optional⟩
  · exact ⟨hzero, endsIn_oneOf (by decide), (endsIn_one hbit).andThen (endsIn_run hbit),
      (endsIn_oneOf (by decide)).optional⟩

/-- An operator ends in a solid character. -/
theorem endsIn_operator : EndsIn isSolid operator := by
  refine (endsIn_firstOf fun r hr => ?_).either (endsIn_oneOf (by decide))
  obtain ⟨word, hword, rfl⟩ := List.mem_map.1 hr
  have hsolid : compoundOperators.all fun w => w.toList.all isSolid := by decide
  exact endsIn_exactly (List.all_eq_true.1 hsolid word hword)

/-- Every class of tokens ends solidly, apart from comments to the end of a line. -/
theorem classes_end : ∀ entry ∈ classes, entry.1 ≠ none → entry.1 ≠ some .lineComment →
    EndsIn isSolid entry.2 := by
  intro entry hentry hnone hcomment
  simp only [classes, List.mem_cons, List.not_mem_nil, or_false] at hentry
  rcases hentry with rfl | rfl | rfl | rfl | rfl | rfl | rfl | rfl | rfl | rfl
  · exact absurd rfl hnone
  · exact (endsIn_exactly (by decide)).andThen
      ((endsIn_through (by simp) (by decide)).unlessNext _)
  · exact (endsIn_exactly (by decide)).andThen (endsIn_through (by simp) (by decide +kernel))
  · exact absurd rfl hcomment
  · exact (endsIn_exactly (by decide)).andThen
      (endsIn_throughTripleQuote _ (by decide))
  · exact (endsIn_exactly (by decide)).andThen (endsIn_throughQuote (by decide +kernel))
  · exact (endsIn_exactly (by decide)).andThen
      ((endsIn_throughQuote (by decide)).unlessNext _)
  · exact endsIn_number
  · exact (endsIn_one fun c hc => solid_continuesIdentifier c (continues_of_starts hc)).andThen
      (endsIn_run solid_continuesIdentifier)
  · exact endsIn_operator

/-- A comment to the end of its line has no line break at its end. -/
theorem endsIn_lineComment : EndsIn (fun c => c != '\r' && c != '\n') lineComment :=
  (endsIn_exactly (by decide)).andThen (endsIn_run fun _ hc => hc)

section Lexemes

variable {cs : List Char} {x : Lexeme}

/-- A lexeme is what the recogniser of its class splits off. -/
theorem class_of_lexeme? (h : lexeme? cs = some x) :
    ∃ entry ∈ classes, entry.1 = x.kind ∧ entry.2 cs = some (x.text, x.rest) := by
  obtain ⟨entry, hmem, hx⟩ := List.exists_of_findSome?_eq_some h
  obtain ⟨⟨l, rest⟩, hr, rfl⟩ := Option.map_eq_some_iff.1 hx
  exact ⟨entry, hmem, rfl, hr⟩

/-- There is no lexeme if and only if no class fits. -/
theorem lexeme?_eq_none_iff : lexeme? cs = none ↔ ∀ entry ∈ classes, entry.2 cs = none := by
  simp [lexeme?, List.findSome?_eq_none_iff]

/-- A token other than a line comment ends in a solid character. -/
theorem lexeme?_ends (h : lexeme? cs = some x) (hnone : x.kind ≠ none)
    (hcomment : x.kind ≠ some .lineComment) : ∀ c ∈ x.text.getLast?, isSolid c := by
  obtain ⟨entry, hmem, hkind, hr⟩ := class_of_lexeme? h
  rw [← hkind] at hnone hcomment
  exact classes_end entry hmem hnone hcomment _ _ _ hr

/-- A line comment is found by the rule of line comments. -/
theorem lineComment_of_lexeme? (h : lexeme? cs = some x) (hkind : x.kind = some .lineComment) :
    lineComment cs = some (x.text, x.rest) := by
  obtain ⟨entry, hmem, hentry, hr⟩ := class_of_lexeme? h
  rw [hkind] at hentry
  simp only [classes, List.mem_cons, List.not_mem_nil, or_false] at hmem
  rcases hmem with rfl | rfl | rfl | rfl | rfl | rfl | rfl | rfl | rfl | rfl <;>
    first | exact hr | cases hentry

/-- No token ends with a line feed. -/
theorem lexeme?_ends_line (h : lexeme? cs = some x) (hnone : x.kind ≠ none) :
    x.text.getLast? ≠ some '\n' := by
  intro hlast
  by_cases hcomment : x.kind = some .lineComment
  · have hclass := endsIn_lineComment _ _ _ (lineComment_of_lexeme? h hcomment) '\n' hlast
    cases hclass
  · have hsolid := lexeme?_ends h hnone hcomment '\n' hlast
    revert hsolid
    decide

/-- White space is the first class: what starts with a blank gives the blanks. -/
theorem lexeme?_blank {c : Char} (hc : Text.isWhiteSpace c) (cs : List Char) :
    lexeme? (c :: cs) =
      some ⟨none, c :: cs.takeWhile Text.isWhiteSpace, cs.dropWhile Text.isWhiteSpace⟩ := by
  have hrun : runOf Text.isWhiteSpace (c :: cs) =
      some (c :: cs.takeWhile Text.isWhiteSpace, cs.dropWhile Text.isWhiteSpace) := by
    simp [runOf, andThen, one, hc, run]
  simp only [lexeme?, classes, List.findSome?_cons, hrun, Option.map_some]

/-- A token does not begin with a blank. -/
theorem head_of_token {kind : TokenKind} {text rest : List Char}
    (h : lexeme? cs = some ⟨some kind, text, rest⟩) :
    ∃ c text', text = c :: text' ∧ Text.isWhiteSpace c = false := by
  obtain ⟨hsplit, hne⟩ := lexeme?_splits h
  obtain ⟨c, text', rfl⟩ := List.exists_cons_of_ne_nil hne
  refine ⟨c, text', rfl, ?_⟩
  cases hc : Text.isWhiteSpace c with
  | false => rfl
  | true =>
    rw [← hsplit, List.cons_append, lexeme?_blank hc] at h
    simp at h

end Lexemes

end Assay.Source

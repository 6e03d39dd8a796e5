import Assay.Proofs.Delimiters
import Mathlib.Algebra.Group.Nat.Even

/-!
# Where text blocks end

A text block goes on to the first three quotes that are not escaped. A quote is escaped behind an odd
number of backslashes, but the search for the end only looks at the last character before the quotes:
it stops at three quotes behind no backslash, and passes over those behind any number of them. The two
agree unless the block ends with an escaped backslash (`text_blocks_end`).
-/

namespace Assay.Source

variable {cs before body rest l : List Char}

/-! ## Backslashes and quotes -/

/-- The delimiter of text blocks. -/
def tripleQuote : List Char := ['"', '"', '"']

/-- The number of backslashes at the end of a text. -/
def backslashes (cs : List Char) : Nat := (cs.reverse.takeWhile (· == '\\')).length

/-- The body of a text block ends before the first three quotes that are not escaped. -/
abbrev UnescapedEnd (cs body rest : List Char) : Prop :=
  EndsAt tripleQuote (fun b => Even (backslashes b)) cs body rest

/-- The body of a text block ends before the first three quotes that stand behind no backslash. -/
abbrev PlainEnd (cs body rest : List Char) : Prop :=
  EndsAt tripleQuote (fun b => backslashes b = 0) cs body rest

theorem backslashes_eq_zero_iff : backslashes cs = 0 ↔ cs.getLast? ≠ some '\\' := by
  rw [backslashes, List.getLast?_eq_head?_reverse]
  cases cs.reverse with
  | nil => simp
  | cons c cs => by_cases hc : c = '\\' <;> simp [hc]

/-- The search stops at the first three quotes behind no backslash, wherever it begins. -/
theorem throughTripleQuote_eq_some_iff (before : List Char) :
    throughTripleQuote (before.getLast? == some '\\') cs = some (l, rest) ↔
      ∃ body, l = body ++ tripleQuote ∧
        EndsAt tripleQuote (fun b => backslashes (before ++ b) = 0) cs body rest := by
  induction cs generalizing before l with
  | nil =>
    constructor
    · intro h
      cases h
    · rintro ⟨body, -, hends⟩
      simpa [tripleQuote] using hends.split
  | cons c cs ih =>
    -- of the characters before the rest, the search only remembers if the last is a backslash
    have hstep : (c == '\\') = ((before ++ [c]).getLast? == some '\\') := by simp
    -- the search ends here, or it goes on behind the first character
    by_cases hstart : backslashes (before ++ []) = 0 ∧ tripleQuote <+: c :: cs
    · obtain ⟨hbefore, rest', hrest⟩ := hstart
      have hhere : EndsAt tripleQuote (fun b => backslashes (before ++ b) = 0) (c :: cs) [] rest' :=
        hrest ▸ endsAt_start hbefore rest'
      have hsplit : throughTripleQuote (before.getLast? == some '\\') (c :: cs) =
          some (tripleQuote, rest') := by
        rw [List.append_nil, backslashes_eq_zero_iff] at hbefore
        have hlast : (before.getLast? == some '\\') = false := by simpa using hbefore
        rw [hlast, ← hrest]
        rfl
      rw [hsplit]
      constructor
      · rintro ⟨⟩
        exact ⟨[], rfl, hhere⟩
      · rintro ⟨body, rfl, hends⟩
        obtain ⟨rfl, rfl⟩ := hends.unique hhere
        rfl
    · have hnot : ¬ (!(before.getLast? == some '\\') && tripleQuote.isPrefixOf (c :: cs)) := by
        rw [Bool.and_eq_true, List.isPrefixOf_iff_prefix]
        refine fun h => hstart ⟨?_, h.2⟩
        rw [List.append_nil, backslashes_eq_zero_iff]
        simpa using h.1
      have hnone : backslashes (before ++ []) = 0 → ¬ tripleQuote <+: c :: cs :=
        fun hmay hquotes => hstart ⟨hmay, hquotes⟩
      have hgo : throughTripleQuote (before.getLast? == some '\\') (c :: cs) =
          (throughTripleQuote (c == '\\') cs).map fun found => (c :: found.1, found.2) := if_neg hnot
      rw [hgo, hstep, Option.map_eq_some_iff]
      constructor
      · rintro ⟨⟨m, rest'⟩, hm, heq⟩
        cases heq
        obtain ⟨b, rfl, hends⟩ := (ih _).1 hm
        refine ⟨c :: b, rfl, (endsAt_cons_iff hnone).2 ⟨b, rfl, ?_⟩⟩
        simpa using hends
      · rintro ⟨body, rfl, hends⟩
        obtain ⟨b, rfl, hb⟩ := (endsAt_cons_iff hnone).1 hends
        exact ⟨(b ++ tripleQuote, rest), (ih _).2 ⟨b, rfl, by simpa using hb⟩, rfl⟩

/-! ## Text blocks -/

/-- At three quotes the text block is tried, and then the empty string fits. -/
theorem lexeme?_tripleQuote (cs : List Char) :
    lexeme? (tripleQuote ++ cs) =
      ((throughTripleQuote false cs).map fun (l, rest) =>
        ⟨some .string, tripleQuote ++ l, rest⟩).or (some ⟨some .string, ['"', '"'], '"' :: cs⟩) := by
  have htext : textBlock (tripleQuote ++ cs) =
      (throughTripleQuote false cs).map fun (l, rest) => (tripleQuote ++ l, rest) := rfl
  have hstring : stringLiteral (tripleQuote ++ cs) = some (['"', '"'], '"' :: cs) := rfl
  have hblank : runOf Text.isWhiteSpace (tripleQuote ++ cs) = none := rfl
  have hdoc : docComment (tripleQuote ++ cs) = none := rfl
  have hblock : blockComment (tripleQuote ++ cs) = none := rfl
  have hline : lineComment (tripleQuote ++ cs) = none := rfl
  simp only [lexeme?, classes, List.findSome?_cons, hblank, hdoc, hblock, hline, htext, hstring,
    Option.map_none, Option.map_some]
  cases throughTripleQuote false cs <;> rfl

theorem lexeme?_of_plainEnd (h : PlainEnd cs body rest) :
    lexeme? (tripleQuote ++ cs) =
      some ⟨some .string, tripleQuote ++ (body ++ tripleQuote), rest⟩ := by
  have hfound : throughTripleQuote false cs = some (body ++ tripleQuote, rest) :=
    (throughTripleQuote_eq_some_iff []).2 ⟨body, rfl, h⟩
  rw [lexeme?_tripleQuote, hfound]
  rfl

theorem lexeme?_of_no_plainEnd (h : ∀ body rest, ¬ PlainEnd cs body rest) :
    lexeme? (tripleQuote ++ cs) = some ⟨some .string, ['"', '"'], '"' :: cs⟩ := by
  have hnone : throughTripleQuote false cs = none := by
    refine Option.eq_none_iff_forall_ne_some.2 fun found hfound => ?_
    obtain ⟨body, -, hends⟩ := (throughTripleQuote_eq_some_iff []).1 hfound
    exact h body found.2 hends
  rw [lexeme?_tripleQuote, hnone]
  rfl

/-- At three quotes that the reading of a text comes to, let the body be the text up to the first three
quotes that are not escaped. If it does not end with a backslash, these quotes end a text block. If it
does, with an even number of backslashes, they do not: the text block goes on to three quotes behind
no backslash, or if there are none the empty string is read instead. Without such a body there is no
text block. -/
theorem text_blocks_end (text : String) (read cs : List Char) :
    text.toList = read ++ (tripleQuote ++ cs) → Lexed text.toList (tripleQuote ++ cs) →
      (∀ body rest, UnescapedEnd cs body rest →
        (backslashes body = 0 →
          TokenAt text read .string (tripleQuote ++ (body ++ tripleQuote)) rest) ∧
        (0 < backslashes body →
          (∀ body' rest', PlainEnd cs body' rest' → body <+: body' ∧ body ≠ body' ∧
            TokenAt text read .string (tripleQuote ++ (body' ++ tripleQuote)) rest') ∧
          ((∀ body' rest', ¬ PlainEnd cs body' rest') →
            TokenAt text read .string ['"', '"'] ('"' :: cs)))) ∧
      ((∀ body rest, ¬ UnescapedEnd cs body rest) →
        TokenAt text read .string ['"', '"'] ('"' :: cs)) := by
  intro htext hlexed
  have hplain : ∀ b : List Char, backslashes b = 0 → Even (backslashes b) :=
    fun b hb => hb ▸ Even.zero
  have hempty : (∀ body rest, ¬ PlainEnd cs body rest) →
      TokenAt text read .string ['"', '"'] ('"' :: cs) :=
    fun hnone => hlexed.tokenAt htext (lexeme?_of_no_plainEnd hnone)
  refine ⟨fun body rest hends => ⟨fun hnone => ?_, fun hsome => ⟨fun body' rest' hends' => ?_,
    hempty⟩⟩, fun hnone => hempty fun body rest hends => ?_⟩
  -- without a backslash before them the quotes end the block for both readings
  · have hfirst : PlainEnd cs body rest :=
      ⟨hends.split, hnone, fun b r hb hmay => hends.first b r hb (hplain b hmay)⟩
    exact hlexed.tokenAt htext (lexeme?_of_plainEnd hfirst)
  -- behind backslashes they are passed over, so the end that is found comes later
  · obtain ⟨body₁, rest₁, hends₁, hbody⟩ := hends'.earlier hplain
    obtain ⟨rfl, -⟩ := hends₁.unique hends
    refine ⟨hbody, ?_, hlexed.tokenAt htext (lexeme?_of_plainEnd hends')⟩
    rintro rfl
    exact absurd hends'.may_end (Nat.ne_of_gt hsome)
  · obtain ⟨body', rest', hends', -⟩ := hends.earlier hplain
    exact hnone body' rest' hends'

/-- A block with an escaped quote before its delimiter: the four quotes are divided after the first. -/
theorem text_blocks_end_escaped_quote :
    let text := "\"\"\"a\\\"\"\"\""
    let cs := ['a', '\\', '"'] ++ tripleQuote
    text.toList = [] ++ (tripleQuote ++ cs) ∧ Lexed text.toList (tripleQuote ++ cs) ∧
      UnescapedEnd cs ['a', '\\', '"'] [] ∧
      TokenAt text [] .string (tripleQuote ++ (['a', '\\', '"'] ++ tripleQuote)) [] := by
  intro text cs
  have htext : text.toList = [] ++ (tripleQuote ++ cs) := by decide
  have hlexed : Lexed text.toList (tripleQuote ++ cs) := htext ▸ .refl _
  have hends : UnescapedEnd cs ['a', '\\', '"'] [] := by
    refine ⟨rfl, by decide, fun body rest hbody hmay => ?_⟩
    have hbody : ['a', '\\', '"'] ++ tripleQuote = body ++ (tripleQuote ++ rest) := hbody
    match body with
    | [] => cases hbody
    | [_] => cases hbody
    | [_, _] =>
      -- the quotes behind the backslash
      cases hbody
      exact absurd hmay (by decide)
    | _ :: _ :: _ :: body => exact Nat.le_add_left 3 body.length
  exact ⟨htext, hlexed, hends, ((text_blocks_end text [] cs htext hlexed).1 _ _ hends).1 (by decide)⟩

/-- Three quotes behind an escaped backslash end no text block: `"""a\\"""` is read as the empty
string, a string with the backslashes and the empty string once more. -/
theorem escaped_backslash_misread :
    let text := "\"\"\"a\\\\\"\"\""
    text.toList = tripleQuote ++ (['a', '\\', '\\'] ++ tripleQuote) ∧
      UnescapedEnd (['a', '\\', '\\'] ++ tripleQuote) ['a', '\\', '\\'] [] ∧
      tokens text = .ok [⟨.string, "\"\"", 1, 1⟩, ⟨.string, "\"a\\\\\"", 1, 1⟩,
        ⟨.string, "\"\"", 1, 1⟩] := by
  refine ⟨by decide +kernel, ⟨rfl, by decide, fun body rest hbody _ => ?_⟩, by decide +kernel⟩
  -- no three quotes stand before the backslashes
  match body with
  | [] => cases hbody
  | [_] => cases hbody
  | [_, _] => cases hbody
  | _ :: _ :: _ :: body => exact Nat.le_add_left 3 body.length

end Assay.Source

import Assay.Proofs.FrontEnd
import Assay.Proofs.LexemeEnds

/-!
# The layout of a text

A text that is read as tokens is these tokens with white space around them, and nothing else; the
lines of a token are told by the line feeds in front of it and inside it. A text that is not read has
a longest part that is, and stops where no lexical class fits.

`Layout` describes the decomposition from the side of the text: every token is the lexeme at its
place. It is equivalent to reading the tokens (`tokensFrom_eq_ok_iff`), so that a changed text can be
read by giving its layout. Main statement: `tokens_lossless`.
-/

namespace Assay.Source

/-! ## Tokens with the white space after them -/

/-- A token and the white space after it. -/
@[ext]
structure Piece where
  token : Token
  gap : List Char

/-- The text of some pieces. -/
def written (pieces : List Piece) : List Char :=
  pieces.flatMap fun p => p.token.text.toList ++ p.gap

/-- White space, or nothing. -/
def Blank (cs : List Char) : Prop := ∀ c ∈ cs, Text.isWhiteSpace c

/-- The pieces of a text that starts on a line with the first of them: every token is the lexeme at
its place, and white space comes after it. -/
def Layout (line : Nat) : List Piece → Prop
  | [] => True
  | p :: after =>
    lexeme? (written (p :: after)) =
        some ⟨some p.token.kind, p.token.text.toList, p.gap ++ written after⟩ ∧
      Blank p.gap ∧ p.token.line = line ∧
      p.token.endLine = line + Text.lineFeeds p.token.text.toList ∧
      Layout (p.token.endLine + Text.lineFeeds p.gap) after

variable {line : Nat} {cs first gap : List Char} {p : Piece} {pieces before after : List Piece}
  {ts : List Token} {x : Lexeme}

@[simp] theorem written_nil : written [] = [] := rfl

@[simp] theorem written_cons (p : Piece) (pieces : List Piece) :
    written (p :: pieces) = p.token.text.toList ++ (p.gap ++ written pieces) := by
  rw [written, List.flatMap_cons, List.append_assoc]
  rfl

@[simp] theorem written_append (before after : List Piece) :
    written (before ++ after) = written before ++ written after := List.flatMap_append

theorem blank_nil : Blank [] := List.forall_mem_nil _

/-- Two blanks in a row are blank. -/
theorem Blank.append {gap' : List Char} (h : Blank gap) (h' : Blank gap') : Blank (gap ++ gap') :=
  List.forall_mem_append.2 ⟨h, h'⟩

/-! ## Reading and layout -/

/-- The class without a kind takes white space only. -/
theorem blank_of_lexeme? (h : lexeme? cs = some x) (hkind : x.kind = none) : Blank x.text := by
  obtain ⟨entry, hmem, hentry, hr⟩ := class_of_lexeme? h
  have hrun : entry.2 = runOf Text.isWhiteSpace := by
    rw [hkind] at hentry
    simp only [classes, List.mem_cons, List.not_mem_nil, or_false] at hmem
    rcases hmem with rfl | rfl | rfl | rfl | rfl | rfl | rfl | rfl | rfl | rfl <;>
      first | rfl | cases hentry
  rw [hrun] at hr
  cases cs with
  | nil => cases hr
  | cons c cs =>
    by_cases hc : Text.isWhiteSpace c
    · simp only [runOf, andThen, one, hc, if_true, run, Option.map_some, Option.some.injEq,
        Prod.mk.injEq] at hr
      rw [← hr.1]
      exact List.forall_mem_cons.2 ⟨hc, fun d hd => List.all_eq_true.1 List.all_takeWhile d hd⟩
    · simp [runOf, andThen, one, hc] at hr

/-- The token of the piece does not begin with a blank. -/
def Piece.IsSolid (p : Piece) : Prop :=
  ∃ c rest, p.token.text.toList = c :: rest ∧ Text.isWhiteSpace c = false

/-- The pieces of a layout are solid. -/
theorem Layout.solid (h : Layout line pieces) : ∀ p ∈ pieces, p.IsSolid := by
  induction pieces generalizing line with
  | nil => exact nofun
  | cons p after ih =>
    obtain ⟨hlexeme, -, -, -, hafter⟩ := h
    exact List.forall_mem_cons.2 ⟨head_of_token hlexeme, ih hafter⟩

/-- What is written starts with no white space. -/
theorem head_of_written (h : ∀ p ∈ pieces, p.IsSolid) :
    ∀ c ∈ (written pieces).head?, Text.isWhiteSpace c = false := by
  cases pieces with
  | nil => exact nofun
  | cons p after =>
    obtain ⟨c, rest, htext, hc⟩ := h p List.mem_cons_self
    rw [written_cons, htext]
    rintro d ⟨⟩
    exact hc

/-- The blanks in front of a text are told by the text. -/
theorem takeWhile_blank (hfirst : Blank first)
    (hcs : ∀ c ∈ cs.head?, Text.isWhiteSpace c = false) :
    (first ++ cs).takeWhile Text.isWhiteSpace = first ∧
      (first ++ cs).dropWhile Text.isWhiteSpace = cs := by
  rw [List.takeWhile_append_of_pos hfirst, List.dropWhile_append_of_pos hfirst]
  cases cs with
  | nil => simp
  | cons c cs => simp [hcs c rfl]

/-- Blanks in front of a text are passed over. -/
theorem tokensFrom_blank (line : Nat) (hfirst : Blank first)
    (hcs : ∀ c ∈ cs.head?, Text.isWhiteSpace c = false) :
    tokensFrom line (first ++ cs) = tokensFrom (line + Text.lineFeeds first) cs := by
  cases first with
  | nil => rfl
  | cons c first =>
    obtain ⟨hc, hfirst⟩ := List.forall_mem_cons.1 hfirst
    obtain ⟨htake, hdrop⟩ := takeWhile_blank hfirst hcs
    have hlexeme : lexeme? (c :: (first ++ cs)) = some ⟨none, c :: first, cs⟩ := by
      rw [lexeme?_blank hc, htake, hdrop]
    rw [List.cons_append, tokensFrom]
    simp only [List.isEmpty_cons, Bool.false_eq_true, if_false]
    split
    · next hnone =>
      rw [hlexeme] at hnone
      cases hnone
    · next x hx =>
      rw [hlexeme] at hx
      cases hx
      cases tokensFrom (line + Text.lineFeeds (c :: first)) cs <;> rfl

/-- A text is read as the tokens of its layout. -/
theorem Layout.tokensFrom_eq (h : Layout line pieces) :
    tokensFrom line (written pieces) = .ok (pieces.map (·.token)) := by
  induction pieces generalizing line with
  | nil => rw [tokensFrom]; rfl
  | cons p after ih =>
    obtain ⟨hlexeme, hgap, hline, hend, hafter⟩ := h
    have hrest : tokensFrom p.token.endLine (p.gap ++ written after) = .ok (after.map (·.token)) := by
      rw [tokensFrom_blank _ hgap (head_of_written hafter.solid), ih hafter]
    have hne : (written (p :: after)).isEmpty = false := by
      obtain ⟨c, rest, htext, -⟩ := head_of_token hlexeme
      rw [written_cons, htext]
      rfl
    rw [tokensFrom, hne]
    simp only [Bool.false_eq_true, if_false]
    split
    · next hnone =>
      rw [hlexeme] at hnone
      cases hnone
    · next x hx =>
      rw [hlexeme] at hx
      cases hx
      simp only [← hend, hrest, String.ofList_toList]
      obtain ⟨⟨kind, text, _, endLine⟩, gap⟩ := p
      rw [List.map_cons, ← hline]

/-- A text that is read has a layout with the tokens it is read as. -/
theorem layout_of_tokensFrom (h : tokensFrom line cs = .ok ts) :
    ∃ first pieces, cs = first ++ written pieces ∧ Blank first ∧ ts = pieces.map (·.token) ∧
      Layout (line + Text.lineFeeds first) pieces := by
  fun_induction tokensFrom line cs generalizing ts with
  | case1 line cs hempty =>
    cases h
    exact ⟨[], [], by simpa using hempty, blank_nil, rfl, trivial⟩
  | case2 => cases h
  | case3 => cases h
  | case4 line cs =>
    rename_i x hx _ _ hrest hkind ih
    -- white space in front of more white space or of the first token
    cases h
    obtain ⟨first, pieces, hcs, hfirst, hts, hlayout⟩ := ih hrest
    refine ⟨x.text ++ first, pieces, ?_, (blank_of_lexeme? hx hkind).append hfirst, hts, ?_⟩
    · rw [List.append_assoc, ← hcs, (lexeme?_splits hx).1]
    · rwa [lineFeeds_append, ← Nat.add_assoc]
  | case5 line cs =>
    rename_i x hx endLine _ hrest kind hkind ih
    cases h
    obtain ⟨first, pieces, hcs, hfirst, rfl, hlayout⟩ := ih hrest
    have htext : written (⟨⟨kind, String.ofList x.text, line, endLine⟩, first⟩ :: pieces) = cs := by
      rw [written_cons, String.toList_ofList, ← hcs, (lexeme?_splits hx).1]
    refine ⟨[], ⟨⟨kind, String.ofList x.text, line, endLine⟩, first⟩ :: pieces, htext.symm, blank_nil,
      rfl, ?_, hfirst, rfl, ?_, hlayout⟩
    · rw [htext, hx, ← hkind, String.toList_ofList, ← hcs]
    · rw [String.toList_ofList]
      rfl

/-- A text is read as some tokens if and only if these are the tokens of its layout. -/
theorem tokensFrom_eq_ok_iff :
    tokensFrom line cs = .ok ts ↔
      ∃ first pieces, cs = first ++ written pieces ∧ Blank first ∧ ts = pieces.map (·.token) ∧
        Layout (line + Text.lineFeeds first) pieces := by
  refine ⟨layout_of_tokensFrom, ?_⟩
  rintro ⟨first, pieces, rfl, hfirst, rfl, hlayout⟩
  rw [tokensFrom_blank line hfirst (head_of_written hlayout.solid), hlayout.tokensFrom_eq]

/-! ## The lines of a layout -/

/-- The later pieces of a layout are laid out behind the line feeds of the earlier ones. -/
theorem Layout.later (h : Layout line (before ++ after)) :
    Layout (line + Text.lineFeeds (written before)) after := by
  induction before generalizing line with
  | nil => exact h
  | cons p before ih =>
    obtain ⟨-, -, -, hend, hafter⟩ := h
    have hlines : line + Text.lineFeeds (written (p :: before)) =
        p.token.endLine + Text.lineFeeds p.gap + Text.lineFeeds (written before) := by
      rw [written_cons, lineFeeds_append, lineFeeds_append]
      omega
    rw [hlines]
    exact ih hafter

/-- The token is read in front of the rest of a text and behind another part of it: it is the lexeme
there, and its lines are those of its first and its last character. -/
structure Token.StandsAt (t : Token) (before after : List Char) : Prop where
  nonempty : t.text ≠ ""
  lexeme : lexeme? (t.text.toList ++ after) = some ⟨some t.kind, t.text.toList, after⟩
  line : t.line = 1 + Text.lineFeeds before
  endLine : t.endLine = t.line + Text.lineFeeds t.text.toList
  lastLine : t.endLine = 1 + Text.lineFeeds (before ++ t.text.toList.dropLast)

/-- A text without a line feed at its end has all its line feeds before its last character. -/
theorem lineFeeds_dropLast (h : cs.getLast? ≠ some '\n') :
    Text.lineFeeds cs.dropLast = Text.lineFeeds cs := by
  cases hlast : cs.getLast? with
  | none =>
    rw [List.getLast?_eq_none_iff] at hlast
    rw [hlast]
    rfl
  | some c =>
    obtain ⟨ds, rfl⟩ := List.getLast?_eq_some_iff.1 hlast
    have hc : c ≠ '\n' := by
      rintro rfl
      exact h hlast
    rw [List.dropLast_concat, lineFeeds_append]
    simp [Text.lineFeeds, hc]

/-- A piece of a layout stands where the text before it ends. -/
theorem Layout.standsAt (h : Layout (1 + Text.lineFeeds first) (before ++ p :: after)) :
    p.token.StandsAt (first ++ written before) (p.gap ++ written after) := by
  obtain ⟨hlexeme, -, hline, hend, -⟩ := h.later
  rw [written_cons] at hlexeme
  have hfeeds : 1 + Text.lineFeeds first + Text.lineFeeds (written before) =
      1 + Text.lineFeeds (first ++ written before) := by
    rw [lineFeeds_append, Nat.add_assoc]
  rw [hfeeds] at hline hend
  refine ⟨fun hempty => ?_, hlexeme, hline, hline ▸ hend, ?_⟩
  · exact (lexeme?_splits hlexeme).2 (by simp [hempty])
  · rw [lineFeeds_append, lineFeeds_dropLast (lexeme?_ends_line hlexeme (by simp)), hend,
      Nat.add_assoc]

/-- A token ends before the next one begins. -/
theorem Layout.ordered (h : Layout line (before ++ p :: after)) :
    ∀ q ∈ after.head?, p.token.endLine ≤ q.token.line := by
  obtain ⟨-, -, -, -, hafter⟩ := h.later
  cases after with
  | nil => exact nofun
  | cons q after =>
    rintro _ ⟨⟩
    rw [hafter.2.2.1]
    exact Nat.le_add_right _ _

/-- The lines from the first token of a layout to the last one. -/
theorem Layout.span (h : Layout line (before ++ [p])) :
    ∃ t ∈ ((before ++ [p]).map (·.token)).head?, t.line = line ∧
      p.token.endLine + 1 - t.line =
        1 + Text.lineFeeds (written before ++ p.token.text.toList) := by
  obtain ⟨-, -, -, hend, -⟩ := h.later
  have hspan : ∀ t : Token, t.line = line → p.token.endLine + 1 - t.line =
      1 + Text.lineFeeds (written before ++ p.token.text.toList) := by
    intro t ht
    rw [lineFeeds_append]
    omega
  cases before with
  | nil =>
    have hline : p.token.line = line := h.2.2.1
    exact ⟨p.token, rfl, hline, hspan _ hline⟩
  | cons q before =>
    have hline : q.token.line = line := h.2.2.1
    exact ⟨q.token, rfl, hline, hspan _ hline⟩

/-- The lines a unit spans are those of its tokens. -/
theorem parse_lineSpan {text : String} {u : CompilationUnit} {all : List Token}
    (h : CompilationUnit.parse text = .ok u) (hall : tokens text = .ok all) :
    u.lineSpan = lineSpanOf all := by
  obtain ⟨all', facts, hall', -, rfl⟩ := parse_eq_ok h
  rw [hall] at hall'
  cases hall'
  rfl

/-! ## Texts that are not read -/

/-- A text is read up to the given rest, with the lexeme of the first class that fits at each place. -/
inductive Lexed : List Char → List Char → Prop
  | refl (cs : List Char) : Lexed cs cs
  | step {cs rest : List Char} {x : Lexeme} (hx : lexeme? cs = some x) (h : Lexed x.rest rest) :
      Lexed cs rest

/-- A reading that has to stop at some place comes through every other place that a reading of the
text comes to. -/
theorem Lexed.through {rest rest' : List Char} (h : Lexed cs rest) (hnone : lexeme? rest = none)
    (h' : Lexed cs rest') : Lexed rest' rest := by
  induction h' with
  | refl => exact h
  | step hx _ ih =>
    cases h with
    | refl =>
      rw [hnone] at hx
      cases hx
    | step hy hrest =>
      rw [hx] at hy
      cases hy
      exact ih hrest

/-- What is left behind lexing is no longer than the text. -/
theorem Lexed.length_le {rest : List Char} (h : Lexed cs rest) : rest.length ≤ cs.length := by
  induction h with
  | refl => exact Nat.le_refl _
  | step hx _ ih => exact Nat.le_trans ih (Nat.le_of_lt (lexeme?_shorter hx))

/-- A text that is not read has been read up to a place where nothing fits. -/
theorem lexed_of_tokensFrom {e : InvalidToken} (h : tokensFrom line cs = .error e) :
    ∃ read rest, cs = read ++ rest ∧ Lexed cs rest ∧ rest ≠ [] ∧ lexeme? rest = none ∧
      e.line = line + Text.lineFeeds read := by
  fun_induction tokensFrom line cs with
  | case1 => cases h
  | case2 line cs hne hnone =>
    cases h
    exact ⟨[], cs, rfl, .refl cs, by simpa using hne, hnone, rfl⟩
  | case3 line cs =>
    rename_i x hx _ _ hrest ih
    cases h
    obtain ⟨read, rest, hcs, hlexed, hne, hnone, hline⟩ := ih hrest
    refine ⟨x.text ++ read, rest, ?_, .step hx hlexed, hne, hnone, ?_⟩
    · rw [List.append_assoc, ← hcs, (lexeme?_splits hx).1]
    · rw [hline, lineFeeds_append, Nat.add_assoc]
  | case4 => cases h
  | case5 => cases h

/-- The tokens of a text and the white space between them are the whole text. Every token is the
lexeme of the first class that fits at its place, the line of a token is told by the line feeds in
front of it, and its last line by those inside it; no token ends with a line feed, so this is the line
of its last character. The lines of a structure go from the first character of the first token to the
last of the last one. A text that is not read is read up to a place where no class fits, which is as
far as any reading comes, and fails with the line of this place. -/
theorem tokens_lossless (text : String) :
    (∀ ts, tokens text = .ok ts → ∃ first pieces, text.toList = first ++ written pieces ∧
      Blank first ∧ ts = pieces.map (·.token) ∧
      (∀ before p after, pieces = before ++ p :: after →
        p.token.StandsAt (first ++ written before) (p.gap ++ written after) ∧ Blank p.gap ∧
          ∀ q ∈ after.head?, p.token.endLine ≤ q.token.line) ∧
      ∀ u, CompilationUnit.parse text = .ok u →
        (u.lineSpan = 0 ↔ ts = []) ∧
        ∀ before p, pieces = before ++ [p] →
          u.lineSpan = 1 + Text.lineFeeds (written before ++ p.token.text.toList)) ∧
    ∀ e, tokens text = .error e → ∃ read rest, text.toList = read ++ rest ∧
      Lexed text.toList rest ∧ (∀ rest', Lexed text.toList rest' → rest.length ≤ rest'.length) ∧
      rest ≠ [] ∧ (∀ entry ∈ classes, entry.2 rest = none) ∧
      e.line = 1 + Text.lineFeeds read ∧
      CompilationUnit.parse text = .error ⟨.invalidToken e.near, e.line⟩ := by
  refine ⟨fun ts hts => ?_, fun e he => ?_⟩
  · obtain ⟨first, pieces, hcs, hfirst, rfl, hlayout⟩ := layout_of_tokensFrom hts
    refine ⟨first, pieces, hcs, hfirst, rfl, ?_, fun u hu => ?_⟩
    · rintro before p after rfl
      exact ⟨hlayout.standsAt, hlayout.later.2.1, hlayout.ordered⟩
    -- the span is told by the first and the last token, and each stands where the pieces say
    · have hspan := parse_lineSpan hu hts
      have hlast : ∀ before p, pieces = before ++ [p] →
          u.lineSpan = 1 + Text.lineFeeds (written before ++ p.token.text.toList) := by
        rintro before p rfl
        obtain ⟨t, ht, -, hlines⟩ := hlayout.span
        rw [hspan, lineSpanOf, Option.mem_def.1 ht, List.map_append, List.map_singleton,
          List.getLast?_concat]
        exact hlines
      refine ⟨?_, hlast⟩
      rcases List.eq_nil_or_concat pieces with rfl | ⟨before, p, hpieces⟩
      · exact ⟨fun _ => rfl, fun _ => hspan⟩
      · rw [List.concat_eq_append] at hpieces
        rw [hlast before p hpieces, hpieces]
        simp
  -- no class fits the rest, so no reading of the text comes beyond it
  · obtain ⟨read, rest, hcs, hlexed, hne, hnone, hline⟩ := lexed_of_tokensFrom he
    refine ⟨read, rest, hcs, hlexed, fun rest' h => (hlexed.through hnone h).length_le, hne,
      lexeme?_eq_none_iff.1 hnone, hline, ?_⟩
    rw [CompilationUnit.parse, CompilationUnit.parseBy, he]

end Assay.Source

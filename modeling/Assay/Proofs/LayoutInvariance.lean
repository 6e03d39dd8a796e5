import Assay.Proofs.FactOrder
import Assay.Proofs.LexemeSpacing
import Assay.Proofs.SimulationFile
import Assay.Proofs.TokenLayout

/-!
# White space between tokens does not matter

White space that is inserted behind a token moves the lines of the tokens after it and changes
nothing else: the layout of the new text is that of the old one with a wider gap. The structure of the
text then differs in lines only, since no parser looks at the line of a token. Main statement:
`parse_respaced`.
-/

namespace Assay.Source

open Assay.Source.Parser

/-! ## Moved tokens -/

/-- The token some lines further down. -/
def Token.lowered (k : Nat) (t : Token) : Token :=
  { t with line := t.line + k, endLine := t.endLine + k }

/-- The piece some lines further down. -/
def Piece.lowered (k : Nat) (p : Piece) : Piece := { p with token := p.token.lowered k }

/-- The line, or the one that is `k` lines further down. -/
def LineMoved (k m n : Nat) : Prop := n = m ∨ n = m + k

/-- The token, or the same one further down. -/
def Token.Moved (k : Nat) (t u : Token) : Prop := u = t ∨ u = t.lowered k

variable {line k : Nat} {text : String} {w first : List Char} {p : Piece}
  {pieces pieces' before after : List Piece} {t u : Token} {all all' : List Token}

theorem written_lowered (k : Nat) (pieces : List Piece) :
    written (pieces.map (·.lowered k)) = written pieces := by
  induction pieces with
  | nil => rfl
  | cons p pieces ih =>
    rw [List.map_cons, written_cons, written_cons, ih]
    rfl

theorem Layout.lowered (h : Layout line pieces) (k : Nat) :
    Layout (line + k) (pieces.map (·.lowered k)) := by
  induction pieces generalizing line with
  | nil => trivial
  | cons p pieces ih =>
    obtain ⟨hlexeme, hgap, hline, hend, hrest⟩ := h
    have hwritten : written (p.lowered k :: pieces.map (·.lowered k)) = written (p :: pieces) :=
      written_lowered k (p :: pieces)
    refine ⟨?_, hgap, congrArg (· + k) hline, ?_, ?_⟩
    · rw [hwritten, written_lowered]
      exact hlexeme
    · show p.token.endLine + k = line + k + Text.lineFeeds p.token.text.toList
      omega
    · have hlines : (p.lowered k).token.endLine + Text.lineFeeds (p.lowered k).gap =
          p.token.endLine + Text.lineFeeds p.gap + k := by
        show p.token.endLine + k + Text.lineFeeds p.gap = _
        omega
      rw [hlines]
      exact ih hrest

namespace Token.Moved

theorem alikeThrough (h : t.Moved k u) : t.AlikeThrough (LineMoved k) u := by
  rcases h with rfl | rfl
  · exact ⟨⟨.inl ⟨rfl, rfl⟩, .inl rfl⟩, .inl rfl⟩
  · exact ⟨⟨.inl ⟨rfl, rfl⟩, .inr rfl⟩, .inr rfl⟩

theorem kind (h : t.Moved k u) : u.kind = t.kind := by
  rcases h with rfl | rfl <;> rfl

theorem lineCount (h : t.Moved k u) : u.endLine + 1 - u.line = t.endLine + 1 - t.line := by
  rcases h with rfl | rfl
  · rfl
  · show t.endLine + k + 1 - (t.line + k) = _
    omega

end Token.Moved

theorem moved_codeOf (h : List.Forall₂ (Token.Moved k) all all') :
    List.Forall₂ (Token.Moved k) (codeOf all) (codeOf all') :=
  List.rel_filter (fun _ _ hmoved => by simp [Token.isComment, hmoved.kind]) h

theorem docComments_moved (h : List.Forall₂ (Token.Moved k) all all') :
    (docCommentsOf all).map (·.lineCount) = (docCommentsOf all').map (·.lineCount) := by
  unfold docCommentsOf
  induction h with
  | nil => rfl
  | @cons t u all all' hmoved _ ih =>
    rw [List.filterMap_cons, List.filterMap_cons, hmoved.kind]
    by_cases hdoc : (t.kind == .docComment) = true
    · simp only [hdoc, if_true, List.map_cons, ih]
      simp only [DocComment.lineCount, hmoved.lineCount]
    · simp only [hdoc, Bool.false_eq_true, if_false, ih]

/-! ## The wider gap -/

theorem Layout.blank (h : Layout line pieces) : ∀ p ∈ pieces, Blank p.gap := by
  induction pieces generalizing line with
  | nil => exact nofun
  | cons p after ih =>
    obtain ⟨-, hgap, -, -, hafter⟩ := h
    exact List.forall_mem_cons.2 ⟨hgap, ih hafter⟩

/-- What comes behind a token does not start with a quote if the token ends with a backslash: only a
comment to the end of its line can. -/
theorem not_quote_after {cs rest : List Char} {kind : TokenKind} {l : List Char}
    (h : lexeme? cs = some ⟨some kind, l, rest⟩) (hquote : rest.head? = some '"') :
    l.getLast? ≠ some '\\' := by
  intro hlast
  by_cases hcomment : kind = .lineComment
  · subst hcomment
    have hbreak := lineComment_stops (lineComment_of_lexeme? h rfl) '"' hquote
    revert hbreak
    decide
  · have hsolid := lexeme?_ends h (by simp) (by simpa using hcomment) '\\' hlast
    revert hsolid
    decide +kernel

/-- White space behind a token widens its gap and moves the tokens after it. -/
theorem Layout.spaced (hw : Spacing w)
    (hbreak : p.token.kind = .lineComment → w.head? = some '\n' ∨ w.head? = some '\r')
    (h : Layout line (before ++ p :: after)) :
    Layout line
      (before ++ ⟨p.token, w ++ p.gap⟩ :: after.map (·.lowered (Text.lineFeeds w))) := by
  -- the insertion is in front of the same rest for all tokens before it
  have hend : ∀ {line}, Layout line (p :: after) →
      (p.gap ++ written after).head? = some '"' → p.token.text.toList.getLast? ≠ some '\\' :=
    fun h hquote => not_quote_after h.1 hquote
  -- on the tokens before the insertion: each is read in front of a rest that has white space put in
  induction before generalizing line with
  | nil =>
    obtain ⟨hlexeme, hgap, hline, hlast, hafter⟩ := id h
    refine ⟨?_, .append hw.2 hgap, hline, hlast, ?_⟩
    · rw [written_cons] at hlexeme ⊢
      rw [written_lowered, List.append_assoc]
      exact lexeme?_spaced (m := []) hw (fun hkind _ => hbreak hkind)
        (by rw [List.append_nil]; exact hend h) hlexeme
    · have hlines : p.token.endLine + Text.lineFeeds (w ++ p.gap) =
          p.token.endLine + Text.lineFeeds p.gap + Text.lineFeeds w := by
        rw [lineFeeds_append]
        omega
      rw [hlines]
      exact hafter.lowered _
  | cons q before ih =>
    rw [List.cons_append] at h ⊢
    obtain ⟨hlexeme, hgap, hline, hlast, hrest⟩ := h
    refine ⟨?_, hgap, hline, hlast, ih hrest⟩
    obtain ⟨c, rest, htext, -⟩ := hrest.solid p (by simp)
    have hlater := hrest.later
    simp only [written_cons, written_append] at hlexeme ⊢
    rw [written_lowered]
    have hm : ∀ x : List Char, q.gap ++ (written before ++ (p.token.text.toList ++ x)) =
        (q.gap ++ written before ++ p.token.text.toList) ++ x := by simp
    rw [hm] at hlexeme ⊢
    rw [List.append_assoc w]
    refine lexeme?_spaced hw (fun _ hnil => ?_) (fun hquote => ?_) hlexeme
    · rw [htext] at hnil
      simp at hnil
    -- the insertion is behind a token, so what stands before it is the end of that token
    · have hlastEq : (q.token.text.toList ++
          (q.gap ++ written before ++ p.token.text.toList)).getLast? =
            p.token.text.toList.getLast? := by
        rw [htext]
        simp [List.getLast?_cons]
      rw [hlastEq]
      exact hend hlater hquote

/-! ## The structure of the text -/

/-- Two structures are the same up to the lines of what is in them. -/
structure CompilationUnit.SameButLines (u v : CompilationUnit) : Prop where
  package : u.package? = v.package?
  imports : u.imports = v.imports
  declarations : u.declarations.map (·.unlined) = v.declarations.map (·.unlined)
  loops : u.loops.map (·.kind) = v.loops.map (·.kind)
  catchClauses : u.catchClauses.length = v.catchClauses.length
  accesses : u.accesses.map (·.unlined) = v.accesses.map (·.unlined)
  valueNames : u.valueNames = v.valueNames
  fields : u.fields = v.fields
  docComments : u.docComments.map (·.lineCount) = v.docComments.map (·.lineCount)

/-- A list that is read off the facts without their lines is the same. -/
theorem view_eq {α : Type} {view : Fact → Option α} {facts gs : List Fact}
    (h : facts.map Fact.unlined = gs.map Fact.unlined) (hview : ∀ f, view f = view f.unlined) :
    facts.filterMap view = gs.filterMap view := by
  rw [← filterMap_unlined hview facts, h, filterMap_unlined hview]

/-- A list that is read off the facts is the same as far as it is known without the lines. -/
theorem viewMap_eq {α β : Type} {view : Fact → Option α} {forget : α → β} {facts gs : List Fact}
    (h : facts.map Fact.unlined = gs.map Fact.unlined)
    (hview : ∀ f, (view f).map forget = (view f.unlined).map forget) :
    (facts.filterMap view).map forget = (gs.filterMap view).map forget := by
  rw [List.map_filterMap, List.map_filterMap]
  exact view_eq h hview

theorem sameButLines_of_facts {u v : CompilationUnit}
    (h : u.facts.map Fact.unlined = v.facts.map Fact.unlined)
    (hdoc : u.docComments.map (·.lineCount) = v.docComments.map (·.lineCount)) :
    u.SameButLines v := by
  have hdeclarations : u.declarations.map (·.unlined) = v.declarations.map (·.unlined) :=
    viewMap_eq h fun f => by cases f <;> rfl
  have hcatch : u.catchClauses.map (fun _ => ()) = v.catchClauses.map fun _ => () :=
    viewMap_eq h fun f => by cases f <;> rfl
  have hpackage : ∀ w : CompilationUnit, w.package? =
      ((w.declarations.map (·.unlined)).find? (·.kind == .package)).map (·.name) := by
    intro w
    rw [List.find?_map, Option.map_map]
    rfl
  constructor
  · rw [hpackage, hpackage, hdeclarations]
  · exact view_eq h fun f => by cases f <;> rfl
  · exact hdeclarations
  · exact viewMap_eq h fun f => by cases f <;> rfl
  · simpa using congrArg List.length hcatch
  · exact viewMap_eq h fun f => by cases f <;> rfl
  · exact view_eq h fun f => by cases f <;> rfl
  · exact view_eq h fun f => by cases f <;> rfl
  · exact hdoc

/-- Both texts are read, with structures that are the same up to lines, or both fail with the same
kind of fault, on the same line or `k` lines further down. -/
def SameOutcome (k : Nat) :
    Except SourceError CompilationUnit → Except SourceError CompilationUnit → Prop
  | .ok u, .ok v => u.SameButLines v
  | .error e, .error f => e.fault.code = f.fault.code ∧ LineMoved k e.line f.line
  | _, _ => False

/-- Texts whose tokens differ by some lines only have the same outcome. -/
theorem sameOutcome_of_moved {text' : String} (h : tokens text = .ok all)
    (h' : tokens text' = .ok all') (hmoved : List.Forall₂ (Token.Moved k) all all') :
    SameOutcome k (CompilationUnit.parse text) (CompilationUnit.parse text') := by
  have hfacts : FactsAlike (LineMoved k) (factsOf (codeOf all)) (factsOf (codeOf all')) :=
    factsOf_alike (.inl rfl) ((moved_codeOf hmoved).imp fun _ _ hmoved => hmoved.alikeThrough)
  rw [parse_of_tokens h, parse_of_tokens h']
  cases hread : factsOf (codeOf all) with
  | error e =>
    cases hread' : factsOf (codeOf all') with
    | error f =>
      rw [hread, hread'] at hfacts
      exact hfacts
    | ok gs =>
      rw [hread, hread'] at hfacts
      exact hfacts.elim
  | ok facts =>
    cases hread' : factsOf (codeOf all') with
    | error f =>
      rw [hread, hread'] at hfacts
      exact hfacts.elim
    | ok gs =>
      rw [hread, hread'] at hfacts
      exact sameButLines_of_facts (unlined_of_alike hfacts) (docComments_moved hmoved)

/-- A text that is read can be spaced out behind any of its tokens, with a line break first if the
token is a comment to the end of its line. The new text has the same tokens, those behind the place as
many lines further down as the white space has line feeds, and its structure is the same up to
lines. -/
theorem parse_respaced (h : tokens text = .ok all) :
    ∃ first pieces, text.toList = first ++ written pieces ∧ Blank first ∧
      (∀ p ∈ pieces, Blank p.gap) ∧ all = pieces.map (·.token) ∧
      ∀ before p after, pieces = before ++ p :: after → ∀ w, Spacing w →
        (p.token.kind = .lineComment → w.head? = some '\n' ∨ w.head? = some '\r') →
        let read := first ++ written before ++ p.token.text.toList
        let rest := p.gap ++ written after
        let spaced := String.ofList (read ++ w ++ rest)
        text.toList = read ++ rest ∧
          tokens spaced = .ok (before.map (·.token) ++
            p.token :: after.map (·.token.lowered (Text.lineFeeds w))) ∧
          SameOutcome (Text.lineFeeds w) (CompilationUnit.parse text)
            (CompilationUnit.parse spaced) := by
  obtain ⟨first, pieces, htext, hfirst, rfl, hlayout⟩ := layout_of_tokensFrom h
  refine ⟨first, pieces, htext, hfirst, hlayout.blank, rfl, ?_⟩
  rintro before p after rfl w hw hbreak read rest spaced
  have hwider := hlayout.spaced hw hbreak
  have hwritten : spaced.toList = first ++ written
      (before ++ ⟨p.token, w ++ p.gap⟩ :: after.map (·.lowered (Text.lineFeeds w))) := by
    simp only [spaced, read, rest, String.toList_ofList, written_append, written_cons,
      written_lowered, List.append_assoc]
  have hspaced : tokens spaced = .ok (before.map (·.token) ++
      p.token :: after.map (·.token.lowered (Text.lineFeeds w))) := by
    rw [tokens, hwritten, tokensFrom_blank 1 hfirst (head_of_written hwider.solid),
      hwider.tokensFrom_eq, List.map_append, List.map_cons, List.map_map]
    rfl
  refine ⟨?_, hspaced, sameOutcome_of_moved h hspaced ?_⟩
  · simp only [htext, read, rest, written_append, written_cons, List.append_assoc]
  · -- the tokens up to the place stay, and those behind it move
    rw [List.map_append, List.map_cons]
    refine List.rel_append (List.forall₂_same.2 fun _ _ => .inl rfl) (.cons (.inl rfl) ?_)
    rw [List.forall₂_map_left_iff, List.forall₂_map_right_iff]
    exact List.forall₂_same.2 fun _ _ => .inr rfl

/-- A line break between the name of a class and its body. -/
theorem parse_respaced_class :
    tokens "class A\x7b\x7d" =
        .ok [.word "class" 1, .word "A" 1, .sign "\x7b" 1, .sign "\x7d" 1] ∧
      ∃ read rest, "class A\x7b\x7d".toList = read ++ rest ∧
        tokens (String.ofList (read ++ ['\n'] ++ rest)) =
          .ok [.word "class" 1, .word "A" 1, .sign "\x7b" 2, .sign "\x7d" 2] ∧
        SameOutcome 1 (CompilationUnit.parse "class A\x7b\x7d")
          (CompilationUnit.parse (String.ofList (read ++ ['\n'] ++ rest))) := by
  have htokens : tokens "class A\x7b\x7d" =
      .ok [.word "class" 1, .word "A" 1, .sign "\x7b" 1, .sign "\x7d" 1] := by decide +kernel
  have hw : Spacing ['\n'] := ⟨by simp, by simp; decide⟩
  obtain ⟨first, pieces, -, -, -, hpieces, hspaced⟩ := parse_respaced htokens
  -- the second piece is that of the name, and the white space comes behind it
  obtain ⟨keyword, pieces, rfl, hkeyword, hpieces⟩ := List.map_eq_cons_iff.1 hpieces.symm
  obtain ⟨name, after, rfl, hname, hafter⟩ := List.map_eq_cons_iff.1 hpieces
  have hbreak : name.token.kind = .lineComment →
      ['\n'].head? = some '\n' ∨ ['\n'].head? = some '\r' := fun _ => .inl rfl
  obtain ⟨htext, htokens', houtcome⟩ := hspaced [keyword] name after rfl ['\n'] hw hbreak
  refine ⟨htokens, _, _, htext, ?_, houtcome⟩
  have hlowered : after.map (fun q => q.token.lowered 1) =
      (after.map (·.token)).map (·.lowered 1) := by rw [List.map_map]; rfl
  rw [htokens', List.map_singleton, hkeyword, hname]
  exact congrArg (fun ts => Except.ok (_ :: _ :: ts)) (hlowered.trans (by rw [hafter]; rfl))

end Assay.Source

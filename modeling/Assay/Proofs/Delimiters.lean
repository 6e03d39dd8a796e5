import Assay.Proofs.TokenLayout

/-!
# Where a delimiter ends a text

Comments and text blocks go on to the first place where their delimiter stands. `EndsAt` says where
this is, given the texts behind which the delimiter may end something; the recognisers that search for
a delimiter find this place and no other. `TokenAt` says what it means that a token is read at a place
of a text.
-/

namespace Assay.Source

/-! ## The first place of a delimiter -/

/-- The body ends at the first place where the delimiter stands behind a text that may end there. -/
structure EndsAt (close : List Char) (may : List Char → Prop) (cs body rest : List Char) : Prop where
  split : cs = body ++ (close ++ rest)
  may_end : may body
  first : ∀ body' rest', cs = body' ++ (close ++ rest') → may body' → body.length ≤ body'.length

variable {close cs body body' rest rest' l : List Char} {c : Char} {may may' : List Char → Prop}

theorem EndsAt.unique (h : EndsAt close may cs body rest) (h' : EndsAt close may cs body' rest') :
    body = body' ∧ rest = rest' := by
  have hlength : body.length = body'.length :=
    Nat.le_antisymm (h.first _ _ h'.split h'.may_end) (h'.first _ _ h.split h.may_end)
  obtain ⟨hbody, hrest⟩ := List.append_inj (h.split.symm.trans h'.split) hlength
  exact ⟨hbody, List.append_cancel_left hrest⟩

/-- A delimiter at the start ends the empty text. -/
theorem endsAt_start (h : may []) (rest : List Char) :
    EndsAt close may (close ++ rest) [] rest := ⟨rfl, h, fun _ _ _ _ => Nat.zero_le _⟩

/-- Where the delimiter does not end the empty text, it ends the text behind the first character. -/
theorem endsAt_cons_iff (hstart : may [] → ¬ close <+: c :: cs) :
    EndsAt close may (c :: cs) body rest ↔
      ∃ b, body = c :: b ∧ EndsAt close (fun b => may (c :: b)) cs b rest := by
  constructor
  · rintro ⟨hsplit, hmay, hfirst⟩
    cases body with
    | nil => exact absurd ⟨rest, hsplit.symm⟩ (hstart hmay)
    | cons d b =>
      obtain ⟨rfl, rfl⟩ := List.cons.inj hsplit
      refine ⟨b, rfl, rfl, hmay, fun b' rest' hb' hmay' => ?_⟩
      exact Nat.le_of_succ_le_succ (hfirst (c :: b') rest' (by rw [hb', List.cons_append]) hmay')
  · rintro ⟨b, rfl, rfl, hmay, hfirst⟩
    refine ⟨rfl, hmay, fun body' rest' hsplit hmay' => ?_⟩
    cases body' with
    | nil => exact absurd ⟨rest', hsplit.symm⟩ (hstart hmay')
    | cons d b' =>
      obtain ⟨rfl, hb'⟩ := List.cons.inj hsplit
      exact Nat.succ_le_succ (hfirst b' rest' hb' hmay')

/-- If the delimiter may end the text at some place, it does so at a first one, at or before it. -/
theorem exists_endsAt (may : List Char → Prop) (hsplit : cs = body ++ (close ++ rest))
    (hmay : may body) :
    ∃ body' rest', EndsAt close may cs body' rest' ∧ body'.length ≤ body.length := by
  induction hn : body.length using Nat.strongRecOn generalizing body rest with
  | ind n ih =>
    by_cases hfirst : ∀ b r, cs = b ++ (close ++ r) → may b → body.length ≤ b.length
    · exact ⟨body, rest, ⟨hsplit, hmay, hfirst⟩, Nat.le_of_eq hn⟩
    · push Not at hfirst
      obtain ⟨b, r, hb, hmayb, hlt⟩ := hfirst
      obtain ⟨body', rest', hends, hle⟩ := ih b.length (hn ▸ hlt) hb hmayb rfl
      exact ⟨body', rest', hends, by omega⟩

/-- A delimiter that stands somewhere, whatever is before it, stands at a first place. -/
theorem exists_endsAt_of_infix (h : close <:+: cs) :
    ∃ body rest, EndsAt close (fun _ => True) cs body rest := by
  obtain ⟨body, rest, hcs⟩ := h
  have hsplit : cs = body ++ (close ++ rest) := hcs.symm.trans (List.append_assoc ..)
  obtain ⟨body', rest', hends, -⟩ := exists_endsAt (fun _ => True) hsplit trivial
  exact ⟨body', rest', hends⟩

/-- A delimiter that may end more texts ends the text at a place at or before the other. -/
theorem EndsAt.earlier (h : EndsAt close may cs body rest) (hmay : ∀ b, may b → may' b) :
    ∃ body' rest', EndsAt close may' cs body' rest' ∧ body' <+: body := by
  obtain ⟨body', rest', hends, hlength⟩ := exists_endsAt may' h.split (hmay _ h.may_end)
  have hbody' : body' <+: cs := ⟨_, hends.split.symm⟩
  have hbody : body <+: cs := ⟨_, h.split.symm⟩
  exact ⟨body', rest', hends, List.prefix_of_prefix_length_le hbody' hbody hlength⟩

/-! ## Recognisers that search for a delimiter -/

/-- A search goes through the first delimiter. -/
theorem through_eq_some_iff (hclose : close ≠ []) :
    through close cs = some (l, rest) ↔
      ∃ body, l = body ++ close ∧ EndsAt close (fun _ => True) cs body rest := by
  induction cs generalizing l with
  | nil =>
    refine ⟨nofun, ?_⟩
    rintro ⟨body, -, hends⟩
    exact absurd (List.append_eq_nil_iff.1 (List.append_eq_nil_iff.1 hends.split.symm).2).1 hclose
  | cons c cs ih =>
    -- the delimiter stands here, or the search goes on behind the first character
    by_cases hstart : close <+: c :: cs
    · obtain ⟨rest', hrest⟩ := hstart
      have hhere : EndsAt close (fun _ => True) (c :: cs) [] rest' := hrest ▸ endsAt_start trivial _
      rw [through, if_pos (List.isPrefixOf_iff_prefix.2 ⟨rest', hrest⟩), ← hrest, List.drop_left]
      constructor
      · rintro ⟨⟩
        exact ⟨[], rfl, hrest ▸ hhere⟩
      · rintro ⟨body, rfl, hends⟩
        obtain ⟨rfl, rfl⟩ := (hrest ▸ hends).unique hhere
        rfl
    · have hnot : ¬ close.isPrefixOf (c :: cs) := fun h => hstart (List.isPrefixOf_iff_prefix.1 h)
      rw [through, if_neg hnot, Option.map_eq_some_iff]
      constructor
      · rintro ⟨⟨m, rest'⟩, hm, heq⟩
        cases heq
        obtain ⟨body, rfl, hends⟩ := ih.1 hm
        exact ⟨c :: body, rfl, (endsAt_cons_iff fun _ => hstart).2 ⟨body, rfl, hends⟩⟩
      · rintro ⟨body, rfl, hends⟩
        obtain ⟨b, rfl, hb⟩ := (endsAt_cons_iff fun _ => hstart).1 hends
        exact ⟨(b ++ close, rest), ih.2 ⟨b, rfl, hb⟩, rfl⟩

/-- A search fails if and only if the delimiter stands nowhere. -/
theorem through_eq_none_iff (hclose : close ≠ []) : through close cs = none ↔ ¬ close <:+: cs := by
  constructor
  · intro hnone hinfix
    obtain ⟨body, rest, hends⟩ := exists_endsAt_of_infix hinfix
    rw [(through_eq_some_iff hclose).2 ⟨body, rfl, hends⟩] at hnone
    cases hnone
  · intro hnot
    cases hthrough : through close cs with
    | none => rfl
    | some found =>
      obtain ⟨body, -, hends⟩ := (through_eq_some_iff hclose).1 hthrough
      exact absurd ⟨body, found.2, (List.append_assoc ..).trans hends.split.symm⟩ hnot

/-! ## Tokens at their places -/

/-- A token is read at the place behind a part of the text: the tokens of the text are some tokens,
this one and those of the rest. -/
def TokenAt (text : String) (read : List Char) (kind : TokenKind) (l rest : List Char) : Prop :=
  text.toList = read ++ (l ++ rest) ∧ ∃ before, tokens text =
    (tokensFrom (1 + Text.lineFeeds (read ++ l)) rest).map fun after =>
      before ++ ⟨kind, String.ofList l, 1 + Text.lineFeeds read, 1 + Text.lineFeeds (read ++ l)⟩ :: after

/-- The token of a lexeme on a line; white space is none. -/
def Lexeme.token? (x : Lexeme) (line : Nat) : Option Token :=
  x.kind.map fun kind => ⟨kind, String.ofList x.text, line, line + Text.lineFeeds x.text⟩

/-- The tokens of a text are that of its first lexeme and those of the rest. -/
theorem tokensFrom_of_lexeme? {x : Lexeme} (hx : lexeme? cs = some x) (line : Nat) :
    tokensFrom line cs =
      (tokensFrom (line + Text.lineFeeds x.text) x.rest).map ((x.token? line).toList ++ ·) := by
  have hne : cs.isEmpty = false := by
    obtain ⟨hsplit, htext⟩ := lexeme?_splits hx
    cases cs with
    | nil => exact absurd (List.append_eq_nil_iff.1 hsplit).1 htext
    | cons c cs => rfl
  rw [tokensFrom, hne]
  simp only [Bool.false_eq_true, if_false]
  split
  · next hnone =>
    rw [hx] at hnone
    cases hnone
  · next y hy =>
    obtain rfl : x = y := Option.some.inj (hx.symm.trans hy)
    cases tokensFrom (line + Text.lineFeeds x.text) x.rest with
    | error e => rfl
    | ok after => unfold Lexeme.token?; cases x.kind <;> rfl

/-- The tokens of a text are those before a place that its reading comes to and those from there. -/
theorem Lexed.tokensFrom_eq {place : List Char} (h : Lexed cs place) (line : Nat) :
    ∃ read before, cs = read ++ place ∧ tokensFrom line cs =
      (tokensFrom (line + Text.lineFeeds read) place).map (before ++ ·) := by
  induction h generalizing line with
  | refl cs =>
    refine ⟨[], [], rfl, ?_⟩
    show tokensFrom line cs = (tokensFrom line cs).map id
    cases tokensFrom line cs <;> rfl
  | @step cs place x hx _ ih =>
    obtain ⟨read, before, hrest, htokens⟩ := ih (line + Text.lineFeeds x.text)
    refine ⟨x.text ++ read, (x.token? line).toList ++ before, ?_, ?_⟩
    · rw [List.append_assoc, ← hrest, (lexeme?_splits hx).1]
    · rw [tokensFrom_of_lexeme? hx, htokens, lineFeeds_append, ← Nat.add_assoc]
      cases tokensFrom _ place with
      | error e => rfl
      | ok after => exact congrArg Except.ok (List.append_assoc ..).symm

theorem Lexed.trans {place place' : List Char} (h : Lexed cs place) (h' : Lexed place place') :
    Lexed cs place' := by
  induction h with
  | refl => exact h'
  | step hx _ ih => exact .step hx (ih h')

/-- A lexeme at a place that the reading of a text comes to is a token of the text. -/
theorem Lexed.tokenAt {text : String} {place read : List Char} {kind : TokenKind}
    (h : Lexed text.toList place) (hread : text.toList = read ++ place)
    (hx : lexeme? place = some ⟨some kind, l, rest⟩) : TokenAt text read kind l rest := by
  obtain ⟨read', before, hread', htokens⟩ := h.tokensFrom_eq 1
  obtain rfl : read' = read := List.append_cancel_right (hread'.symm.trans hread)
  refine ⟨hread.trans (congrArg _ (lexeme?_splits hx).1.symm), before, ?_⟩
  rw [tokens, htokens, tokensFrom_of_lexeme? hx, lineFeeds_append, ← Nat.add_assoc]
  cases tokensFrom _ rest <;> rfl

end Assay.Source

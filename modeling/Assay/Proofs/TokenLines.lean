import Assay.Proofs.LexicalTokens
import Assay.Proofs.Progress

/-!
# The lines and names of a text's tokens

Every token of a text lies on lines of the text, and so does the place where no token fits. Names are
not empty and have no dot inside, so that names joined by dots can be taken apart again.
-/

namespace Assay.Source

/-! ## Lines -/

theorem lineFeeds_append (cs ds : List Char) :
    Text.lineFeeds (cs ++ ds) = Text.lineFeeds cs + Text.lineFeeds ds := by
  simp [Text.lineFeeds]

/-- The lines of a text that starts on a line. -/
def LineIn (first : Nat) (cs : List Char) (line : Nat) : Prop :=
  first ≤ line ∧ line ≤ first + Text.lineFeeds cs

/-- The lines behind a lexeme are lines of the whole text. -/
theorem LineIn.of_rest {first line : Nat} {cs : List Char} {x : Lexeme} (hx : lexeme? cs = some x)
    (h : LineIn (first + Text.lineFeeds x.text) x.rest line) : LineIn first cs line := by
  rw [← (lexeme?_splits hx).1]
  unfold LineIn at h ⊢
  rw [lineFeeds_append]
  omega

theorem lineIn_of_tokensFrom {first : Nat} {cs : List Char} {ts : List Token}
    (h : tokensFrom first cs = .ok ts) :
    ∀ t ∈ ts, LineIn first cs t.line ∧ LineIn first cs t.endLine := by
  fun_induction tokensFrom first cs generalizing ts with
  | case1 => cases h; exact List.forall_mem_nil _
  | case2 => cases h
  | case3 => cases h
  | case4 =>
    rename_i x hx _ _ hrest _ ih
    cases h
    exact fun t ht => (ih hrest t ht).imp (.of_rest hx) (.of_rest hx)
  | case5 =>
    rename_i first cs _ x hx _ _ hrest kind _ ih
    cases h
    intro t ht
    rcases List.mem_cons.1 ht with rfl | ht
    -- a token ends as many lines further as its own text has line feeds
    · have hsplits := congrArg Text.lineFeeds (lexeme?_splits hx).1
      rw [lineFeeds_append] at hsplits
      unfold LineIn
      simp only
      omega
    · exact (ih hrest t ht).imp (.of_rest hx) (.of_rest hx)

/-- An identifier goes on as it starts. -/
theorem continues_of_identifier {cs l rest : List Char} (h : identifier cs = some (l, rest)) :
    ∀ c ∈ l, continuesIdentifier c := by
  rw [identifier, andThen] at h
  cases cs with
  | nil => cases h
  | cons c cs =>
    by_cases hc : startsIdentifier c
    · simp only [one, hc, if_true] at h
      obtain ⟨⟨m, rest'⟩, hrun, heq⟩ := Option.map_eq_some_iff.1 h
      cases heq
      cases hrun
      exact List.forall_mem_append.2 ⟨List.forall_mem_singleton.2 (continues_of_starts hc),
        fun d hd => List.all_eq_true.1 List.all_takeWhile d hd⟩
    · simp [one, hc] at h

theorem not_continues_dot : continuesIdentifier '.' = false := by decide

theorem proper_of_tokensFrom {first : Nat} {cs : List Char} {ts : List Token}
    (h : tokensFrom first cs = .ok ts) : Proper ts := by
  intro t ht hidentifier
  obtain ⟨cs', x, hx, hxkind, htext⟩ := lexeme_of_tokensFrom h ht
  have hkind : t.kind = .identifier := by simpa [Token.isIdentifier] using hidentifier
  rw [hkind] at hxkind
  constructor
  · intro hempty
    have hnil : x.text = [] := by rw [← htext, hempty, String.toList_empty]
    exact (lexeme?_splits hx).2 hnil
  · intro hdot
    have hcontinues := continues_of_identifier (identifier_of_lexeme? hx hxkind) '.' (htext ▸ hdot)
    rw [not_continues_dot] at hcontinues
    cases hcontinues

end Assay.Source

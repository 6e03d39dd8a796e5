import Assay.Proofs.LexemeEnds
import Assay.Proofs.Word
import Assay.Source.Lexer

/-!
# What a text gives as tokens

A word starts with a letter of an identifier, so no word is written like a sign: where a parser asks
for a sign, only an operator fits. This holds for the tokens of every text (`lexical_of_tokens`).
-/

namespace Assay.Source

/-- The token is not a word that is written like a sign. -/
def Token.IsLexical (t : Token) : Prop := t.kind = .identifier → t.text ∉ signs

instance (t : Token) : Decidable t.IsLexical := inferInstanceAs (Decidable (_ → _))

/-- No word is written like a sign. -/
def Lexical (ts : List Token) : Prop := ∀ t ∈ ts, t.IsLexical

instance (ts : List Token) : Decidable (Lexical ts) := inferInstanceAs (Decidable (∀ _ ∈ _, _))

/-- What spells a sign is an operator. -/
theorem Token.IsLexical.isSign {t : Token} {sign : String} (h : t.IsLexical) (hsign : sign ∈ signs)
    (ht : t.spells sign) : t.IsSign sign := by
  rw [Token.spells, Bool.and_eq_true, Bool.or_eq_true, beq_iff_eq] at ht
  obtain ⟨hkind | hkind, rfl⟩ := ht
  · exact absurd hsign (h (by simpa [Token.isIdentifier] using hkind))
  · exact ⟨by simpa [Token.isOperator] using hkind, rfl⟩

theorem Token.IsSign.isLexical {t : Token} {sign : String} (h : t.IsSign sign) : t.IsLexical :=
  fun hkind => by
    rw [h.1] at hkind
    cases hkind

theorem Token.IsIdentifier.isLexical {t : Token} (h : t.IsIdentifier) : t.IsLexical := fun _ => h.2

theorem Token.isLexical_of_isLiteral {t : Token} (h : t.isLiteral) : t.IsLexical := fun hkind => by
  simp [Token.isLiteral, hkind, TokenKind.isLiteral] at h

namespace Lexical

variable {t : Token} {ts us : List Token}

theorem nil : Lexical [] := by simp [Lexical]

theorem cons (ht : t.IsLexical) (h : Lexical ts) : Lexical (t :: ts) :=
  List.forall_mem_cons.2 ⟨ht, h⟩

theorem append (h : Lexical ts) (hus : Lexical us) : Lexical (ts ++ us) :=
  fun t ht => (List.mem_append.1 ht).elim (h t) (hus t)

theorem of_suffix (h : Lexical us) (hsuffix : ts <:+ us) : Lexical ts :=
  fun t ht => h t (hsuffix.mem ht)

end Lexical

/-! ## The lexemes of a text -/

/-- Every token of a text is a lexeme of it. -/
theorem lexeme_of_tokensFrom {line : Nat} {cs : List Char} {ts : List Token}
    (h : tokensFrom line cs = .ok ts) {t : Token} (ht : t ∈ ts) :
    ∃ cs' x, lexeme? cs' = some x ∧ x.kind = some t.kind ∧ t.text.toList = x.text := by
  fun_induction tokensFrom line cs generalizing ts with
  | case1 =>
    cases h
    cases ht
  | case2 => cases h
  | case3 => cases h
  | case4 =>
    rename_i hrest _ ih
    cases h
    exact ih hrest ht
  | case5 =>
    rename_i x hx _ _ hrest kind hkind ih
    cases h
    rcases List.mem_cons.1 ht with rfl | ht
    · exact ⟨_, x, hx, hkind, String.toList_ofList⟩
    · exact ih hrest ht

theorem identifier_of_lexeme? {cs : List Char} {x : Lexeme} (h : lexeme? cs = some x)
    (hkind : x.kind = some .identifier) : identifier cs = some (x.text, x.rest) := by
  obtain ⟨⟨kind, recognise⟩, hmem, hentry, hr⟩ := class_of_lexeme? h
  obtain rfl : recognise = identifier := by
    simp only [hkind] at hentry
    subst hentry
    simpa [classes] using hmem
  exact hr

theorem head_of_identifier {cs l rest : List Char} (h : identifier cs = some (l, rest)) :
    l.head?.any startsIdentifier := by
  rw [identifier, andThen] at h
  cases cs with
  | nil => cases h
  | cons c cs =>
    by_cases hc : startsIdentifier c
    · simp only [one, hc, if_true] at h
      obtain ⟨⟨m, rest'⟩, -, heq⟩ := Option.map_eq_some_iff.1 h
      cases heq
      exact hc
    · simp [one, hc] at h

/-- No sign starts like an identifier. -/
theorem signs_not_identifiers : ∀ sign ∈ signs, sign.toList.head?.any startsIdentifier = false := by
  decide

/-- The tokens of a text are words and signs apart. -/
theorem lexical_of_tokens {text : String} {ts : List Token} (h : tokens text = .ok ts) :
    Lexical ts := by
  intro t ht hkind hsign
  obtain ⟨cs, x, hx, hxkind, htext⟩ := lexeme_of_tokensFrom h ht
  rw [hkind] at hxkind
  have hhead := head_of_identifier (identifier_of_lexeme? hx hxkind)
  have hnot := signs_not_identifiers _ hsign
  rw [htext, hhead] at hnot
  cases hnot

end Assay.Source

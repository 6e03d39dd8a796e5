import Assay.Proofs.Bracket
import Mathlib.Algebra.BigOperators.Group.List.Basic
import Mathlib.Algebra.Ring.Int.Defs

/-!
# Walks along brackets

How a parser that keeps track of brackets gets through its tokens: an opening bracket makes its
closer due, a closing bracket has to be the one that is due, and in four places tokens are passed
over unseen. A `Walk` lists these passed tokens. Whatever they are, the brackets outside them match;
so the whole is balanced if each of them is, and not unless they have as many closing brackets of
every sort as opening ones.
-/

namespace Assay.Source

variable {t u l r : Token} {ts us span params : List Token} {spans more passed : List (List Token)}
  {due mid due' : List String} {closer : String}

/-- The way through tokens that leads from some closers that are due to others, with the tokens that
are passed over: between the angle brackets of type arguments, behind the double colon of a method
reference, and before the brace in the header of a type or a module. -/
inductive Walk : List String → List Token → List (List Token) → List String → Prop
  | done {due : List String} : Walk due [] [] due
  | plain {due due' : List String} {t : Token} {ts : List Token} {spans : List (List Token)}
      (ht : t.IsPlain) (h : Walk due ts spans due') : Walk due (t :: ts) spans due'
  | opener {due due' : List String} {closer : String} {t : Token} {ts : List Token}
      {spans : List (List Token)} (ht : t.closer? = some closer)
      (h : Walk (closer :: due) ts spans due') : Walk due (t :: ts) spans due'
  | closer {due due' : List String} {closer : String} {t : Token} {ts : List Token}
      {spans : List (List Token)} (ht : t.Closes closer) (h : Walk due ts spans due') :
      Walk (closer :: due) (t :: ts) spans due'
  | typeArguments {due due' : List String} {l r : Token} {span ts : List Token}
      {spans : List (List Token)} (hl : l.spells "<")
      (hspan : ∀ t ∈ span, t.spellsAny [";", "\x7b", "\x7d"] = false) (hr : r.spells ">")
      (h : Walk due ts spans due') : Walk due (l :: (span ++ r :: ts)) (span :: spans) due'
  | reference {due due' : List String} {t u : Token} {ts : List Token} {spans : List (List Token)}
      (ht : t.spells "::") (h : Walk due ts spans due') : Walk due (t :: u :: ts) ([u] :: spans) due'
  | referenceArguments {due due' : List String} {t u l r : Token} {span ts : List Token}
      {spans : List (List Token)} (ht : t.spells "::") (hl : l.spells "<")
      (hspan : ∀ t ∈ span, t.spellsAny [";", "\x7b", "\x7d"] = false) (hr : r.spells ">")
      (h : Walk due ts spans due') :
      Walk due (t :: l :: (span ++ r :: u :: ts)) (span :: [u] :: spans) due'
  | typeHeader {due due' : List String} {t u l : Token} {span ts : List Token}
      {spans : List (List Token)} (ht : t.spellsAny ["class", "interface", "enum"])
      (hu : u.isName) (hspan : ∀ v ∈ span, v.spells "\x7b" = false) (hl : l.IsSign "\x7b")
      (h : Walk ("\x7d" :: due) ts spans due') :
      Walk due (t :: u :: (span ++ l :: ts)) (span :: spans) due'
  | recordHeader {due due' : List String} {t u r l : Token} {params span ts : List Token}
      {passed spans : List (List Token)} (ht : t.spells "record") (hu : u.isName)
      (hparams : Walk due (params ++ [r]) passed due) (hr : r.IsSign ")")
      (hspan : ∀ v ∈ span, v.spells "\x7b" = false) (hl : l.IsSign "\x7b")
      (h : Walk ("\x7d" :: due) ts spans due') :
      Walk due (t :: u :: (params ++ r :: (span ++ l :: ts))) (passed ++ span :: spans) due'
  | moduleHeader {due due' : List String} {t l : Token} {span ts : List Token}
      {spans : List (List Token)} (ht : t.spellsAny ["module", "open"])
      (hspan : ∀ v ∈ span, v.spells "\x7b" = false) (hl : l.IsSign "\x7b")
      (h : Walk ("\x7d" :: due) ts spans due') :
      Walk due (t :: (span ++ l :: ts)) (span :: spans) due'

namespace Walk

/-- Two walks in a row are one, and their spans add up. -/
theorem append (h : Walk due ts spans mid) (h' : Walk mid us more due') :
    Walk due (ts ++ us) (spans ++ more) due' := by
  induction h with
  | done => exact h'
  | plain ht _ ih => exact .plain ht (ih h')
  | opener ht _ ih => exact .opener ht (ih h')
  | closer ht _ ih => exact .closer ht (ih h')
  | typeArguments hl hspan hr _ ih => simpa using Walk.typeArguments hl hspan hr (ih h')
  | reference ht _ ih => exact .reference ht (ih h')
  | referenceArguments ht hl hspan hr _ ih =>
    simpa using Walk.referenceArguments ht hl hspan hr (ih h')
  | typeHeader ht hu hspan hl _ ih => simpa using Walk.typeHeader ht hu hspan hl (ih h')
  | recordHeader ht hu hparams hr hspan hl _ _ ih =>
    simpa using Walk.recordHeader ht hu hparams hr hspan hl (ih h')
  | moduleHeader ht hspan hl _ ih => simpa using Walk.moduleHeader ht hspan hl (ih h')

end Walk

/-! ## Tokens that are no brackets -/

/-- The word is no bracket. -/
def NoBracket (word : String) : Prop := bracketPairs.lookup word = none ∧ word ∉ closers

instance (word : String) : Decidable (NoBracket word) := inferInstanceAs (Decidable (_ ∧ _))

/-- A token spelled without brackets is plain. -/
theorem Token.isPlain_of_spells {word : String} (h : t.spells word) (hword : NoBracket word) :
    t.IsPlain := by
  have htext : t.text = word := by
    rw [Token.spells, Bool.and_eq_true, beq_iff_eq] at h
    exact h.2
  rw [Token.IsPlain, Token.closer?, Token.isCloser, htext, hword.1, ite_self]
  exact ⟨rfl, by simp [hword.2]⟩

/-- A token spelled as one of some words without brackets is plain. -/
theorem Token.isPlain_of_spellsAny {words : List String} (h : t.spellsAny words)
    (hwords : ∀ word ∈ words, NoBracket word) : t.IsPlain := by
  rw [Token.spellsAny, Bool.and_eq_true, List.contains_iff_mem] at h
  exact Token.isPlain_of_spells (by simp [Token.spells, h.1]) (hwords _ h.2)

theorem Token.isPlain_of_isIdentifier (h : t.isIdentifier) : t.IsPlain := by
  have hoperator : t.isOperator = false := by
    rw [Token.isIdentifier, beq_iff_eq] at h
    simp [Token.isOperator, h]
  simp [Token.IsPlain, Token.closer?, Token.isCloser, hoperator]

theorem Token.isPlain_of_isName (h : t.isName) : t.IsPlain :=
  Token.isPlain_of_isIdentifier (Bool.and_eq_true_iff.1 h).1

/-! ## Balanced passages -/

/-- Closers that are due further out do not matter to tokens that get by without them. -/
theorem unclosed_outer {outer : List String} (h : unclosed due ts = some due') :
    unclosed (due ++ outer) ts = some (due' ++ outer) := by
  induction ts generalizing due with
  | nil =>
    cases h
    rfl
  | cons t ts ih =>
    rcases unclosed_cons_eq_some h with ⟨closer, hopener, hrest⟩ |
      ⟨closer, inner, hcloser, rfl, hrest⟩ | ⟨hplain, hrest⟩
    · rw [unclosed_opener hopener]
      exact ih hrest
    · rw [List.cons_append, unclosed_closer hcloser]
      exact ih hrest
    · rw [unclosed_plain hplain]
      exact ih hrest

/-- Balanced tokens leave the due closers as they are. -/
theorem Balanced.unclosed (h : Balanced ts) (due : List String) (rest : List Token) :
    unclosed due (ts ++ rest) = unclosed due rest := by
  have hts : Source.unclosed due ts = some due := unclosed_outer h
  rw [unclosed_append, hts]
  rfl

/-- If the passed tokens are balanced, the brackets of all tokens match. -/
theorem Walk.unclosed (h : Walk due ts spans due') (hspans : ∀ span ∈ spans, Balanced span) :
    unclosed due ts = some due' := by
  induction h with
  | done => rfl
  | plain ht _ ih => rw [unclosed_plain ht, ih hspans]
  | opener ht _ ih => rw [unclosed_opener ht, ih hspans]
  | closer ht _ ih => rw [unclosed_closer ht, ih hspans]
  -- a passed span is balanced, so it leaves what is due as it is
  | typeArguments hl _ hr _ ih =>
    obtain ⟨hspan, hspans⟩ := List.forall_mem_cons.1 hspans
    rw [unclosed_plain (Token.isPlain_of_spells hl (by decide)), hspan.unclosed,
      unclosed_plain (Token.isPlain_of_spells hr (by decide)), ih hspans]
  | reference ht _ ih =>
    obtain ⟨hspan, hspans⟩ := List.forall_mem_cons.1 hspans
    rw [unclosed_plain (Token.isPlain_of_spells ht (by decide)), ← List.singleton_append,
      hspan.unclosed, ih hspans]
  | @referenceArguments _ _ t u l r span ts _ ht hl _ hr _ ih =>
    obtain ⟨hspan, hspans⟩ := List.forall_mem_cons.1 hspans
    obtain ⟨hu, hspans⟩ := List.forall_mem_cons.1 hspans
    rw [unclosed_plain (Token.isPlain_of_spells ht (by decide)),
      unclosed_plain (Token.isPlain_of_spells hl (by decide)), hspan.unclosed,
      unclosed_plain (Token.isPlain_of_spells hr (by decide)), ← List.singleton_append,
      hu.unclosed, ih hspans]
  | typeHeader ht hu _ hl _ ih =>
    obtain ⟨hspan, hspans⟩ := List.forall_mem_cons.1 hspans
    rw [unclosed_plain (Token.isPlain_of_spellsAny ht (by decide)),
      unclosed_plain (Token.isPlain_of_isName hu), hspan.unclosed, unclosed_opener (hl.opens rfl),
      ih hspans]
  -- the parameters of a record are a walk of their own inside this one
  | @recordHeader _ _ t u r l params span ts _ _ ht hu _ _ _ hl _ ihparams ih =>
    rw [List.forall_mem_append, List.forall_mem_cons] at hspans
    obtain ⟨hpassed, hspan, hspans⟩ := hspans
    rw [unclosed_plain (Token.isPlain_of_spells ht (by decide)),
      unclosed_plain (Token.isPlain_of_isName hu), List.append_cons, unclosed_append,
      ihparams hpassed, Option.bind_some, hspan.unclosed, unclosed_opener (hl.opens rfl), ih hspans]
  | moduleHeader ht _ hl _ ih =>
    obtain ⟨hspan, hspans⟩ := List.forall_mem_cons.1 hspans
    rw [unclosed_plain (Token.isPlain_of_spellsAny ht (by decide)), hspan.unclosed,
      unclosed_opener (hl.opens rfl), ih hspans]

/-! ## Surplus -/

/-- One for an opening bracket of the sort, minus one for a closing one. -/
def Token.surplus (closer : String) (t : Token) : ℤ :=
  if t.closer? = some closer then 1 else if t.isCloser ∧ t.text = closer then -1 else 0

/-- How many more brackets of the sort are opened than closed. -/
def surplus (closer : String) (ts : List Token) : ℤ := (ts.map (·.surplus closer)).sum

@[simp] theorem surplus_nil (closer : String) : surplus closer [] = 0 := rfl

@[simp] theorem surplus_cons (closer : String) (t : Token) (ts : List Token) :
    surplus closer (t :: ts) = t.surplus closer + surplus closer ts := by
  rw [surplus, List.map_cons, List.sum_cons]
  rfl

/-- The surplus of two stretches adds up. -/
@[simp] theorem surplus_append (closer : String) (ts us : List Token) :
    surplus closer (ts ++ us) = surplus closer ts + surplus closer us := by
  rw [surplus, List.map_append, List.sum_append]
  rfl

theorem Token.IsPlain.surplus (h : t.IsPlain) (closer : String) : t.surplus closer = 0 := by
  simp [Token.surplus, h.1, h.2]

/-- An opener raises the surplus of its own closer. -/
theorem surplus_opener {w : String} (h : t.closer? = some closer) :
    t.surplus w = ([closer].count w : ℤ) := by
  have hclose : t.isCloser = false := by
    by_contra hne
    rw [closer?_eq_none (by simpa using hne)] at h
    cases h
  simp [Token.surplus, h, hclose, List.count_cons, apply_ite]

/-- A closer lowers the surplus of its own sort. -/
theorem surplus_closer {w : String} (h : t.Closes closer) :
    t.surplus w = -([closer].count w : ℤ) := by
  simp [Token.surplus, closer?_eq_none h.1, h.1, h.2, List.count_cons, apply_ite]

/-- A closer put on the due ones is counted in its own sort. -/
theorem count_due (closer : String) (due : List String) (sort : String) :
    (((closer :: due).count sort : ℕ) : ℤ) = [closer].count sort + due.count sort := by
  rw [← List.singleton_append, List.count_append, Int.natCast_add]

/-- Along a walk, brackets are opened and closed outside the passed tokens as the closers that are
due say. -/
theorem Walk.surplus_eq (h : Walk due ts spans due') (sort : String) :
    surplus sort ts + due.count sort = surplus sort spans.flatten + due'.count sort := by
  -- words and signs that are no brackets count nothing, so every case is a sum
  induction h with
  | done => simp
  | plain ht _ ih => rw [surplus_cons, ht.surplus, zero_add, ih]
  | @opener due _ closer _ _ _ ht _ ih =>
    rw [count_due] at ih
    rw [surplus_cons, surplus_opener ht]
    omega
  | @closer due _ closer _ _ _ ht _ ih =>
    rw [count_due, surplus_cons, surplus_closer ht]
    omega
  -- angles, colons and names count nothing, so a passed part counts by its span
  | typeArguments hl _ hr _ ih =>
    have hless := (Token.isPlain_of_spells hl (by decide)).surplus sort
    have hgreater := (Token.isPlain_of_spells hr (by decide)).surplus sort
    simp only [surplus_cons, surplus_append, List.flatten_cons, hless, hgreater]
    omega
  | reference ht _ ih =>
    have hcolons := (Token.isPlain_of_spells ht (by decide)).surplus sort
    simp only [surplus_cons, surplus_append, List.flatten_cons, surplus_nil, hcolons]
    omega
  | referenceArguments ht hl _ hr _ ih =>
    have hcolons := (Token.isPlain_of_spells ht (by decide)).surplus sort
    have hless := (Token.isPlain_of_spells hl (by decide)).surplus sort
    have hgreater := (Token.isPlain_of_spells hr (by decide)).surplus sort
    simp only [surplus_cons, surplus_append, List.flatten_cons, surplus_nil, hcolons, hless,
      hgreater]
    omega
  -- the brace of a body is opened, whatever its header holds
  | typeHeader ht hu _ hl _ ih =>
    have hkeyword := (Token.isPlain_of_spellsAny ht (by decide)).surplus sort
    have hname := (Token.isPlain_of_isName hu).surplus sort
    have hbrace := surplus_opener (hl.opens rfl) (w := sort)
    rw [count_due] at ih
    simp only [surplus_cons, surplus_append, List.flatten_cons, hkeyword, hname, hbrace]
    omega
  | recordHeader ht hu _ hr _ hl _ ihparams ih =>
    have hkeyword := (Token.isPlain_of_spells ht (by decide)).surplus sort
    have hname := (Token.isPlain_of_isName hu).surplus sort
    have hbrace := surplus_opener (hl.opens rfl) (w := sort)
    rw [count_due] at ih
    simp only [surplus_cons, surplus_append, List.flatten_cons, List.flatten_append, surplus_nil,
      hkeyword, hname, hbrace] at ihparams ⊢
    omega
  | moduleHeader ht _ hl _ ih =>
    have hkeyword := (Token.isPlain_of_spellsAny ht (by decide)).surplus sort
    have hbrace := surplus_opener (hl.opens rfl) (w := sort)
    rw [count_due] at ih
    simp only [surplus_cons, surplus_append, List.flatten_cons, hkeyword, hbrace]
    omega

/-- Tokens whose brackets match make a walk that passes over nothing. -/
theorem walk_of_unclosed (h : unclosed due ts = some due') : Walk due ts [] due' := by
  induction ts generalizing due with
  | nil =>
    cases h
    exact .done
  | cons t ts ih =>
    rcases unclosed_cons_eq_some h with ⟨closer, hopener, hrest⟩ |
      ⟨closer, outer, hcloser, rfl, hrest⟩ | ⟨hplain, hrest⟩
    · exact .opener hopener (ih hrest)
    · exact .closer hcloser (ih hrest)
    · exact .plain hplain (ih hrest)

/-- If all brackets match, the passed tokens have as many opening brackets of every sort as closing
ones. -/
theorem Walk.surplus_of_balanced (h : Walk [] ts spans []) (hts : Balanced ts) (sort : String) :
    surplus sort spans.flatten = 0 := by
  have hwalk := h.surplus_eq sort
  have hbalanced := (walk_of_unclosed hts).surplus_eq sort
  simp only [List.count_nil, List.flatten_nil, surplus_nil] at hwalk hbalanced
  omega

end Assay.Source

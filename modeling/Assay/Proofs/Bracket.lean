import Assay.Proofs.Word
import Assay.Source.Lookahead

/-!
# Brackets

A token list is `Balanced` if every closing bracket matches the innermost one that is open and none
stays open: `unclosed` keeps the closers that are due, the innermost first. `Bracketed` builds the
balanced lists from their groups, which is the form in which `splitGroup` and `commaCount` are run
on them; the two say the same.
-/

namespace Assay.Source

variable {t l r : Token} {ts us rest inside : List Token} {stack outer due : List String}
  {closer : String}

/-- The token is no bracket. -/
def Token.IsPlain (t : Token) : Prop := t.closer? = none ∧ t.isCloser = false

instance (t : Token) : Decidable t.IsPlain := inferInstanceAs (Decidable (_ ∧ _))

/-- The token is the closing bracket `closer`. -/
def Token.Closes (t : Token) (closer : String) : Prop := t.isCloser = true ∧ t.text = closer

/-- The closers that are due after a token, given those due before, the innermost first; nothing if
the token is a closing bracket that does not match. -/
def bracketStep (due : List String) (t : Token) : Option (List String) :=
  match t.closer? with
  | some closer => some (closer :: due)
  | none =>
    if t.isCloser then
      match due with
      | [] => none
      | closer :: outer => if t.text = closer then some outer else none
    else some due

/-- The closers that are due after several tokens. -/
def unclosed (due : List String) (ts : List Token) : Option (List String) :=
  ts.foldlM bracketStep due

/-- Every closing bracket matches the innermost one that is open, and none stays open. -/
def Balanced (ts : List Token) : Prop := unclosed [] ts = some []

instance (ts : List Token) : Decidable (Balanced ts) := inferInstanceAs (Decidable (_ = _))

/-- Tokens whose brackets match. -/
inductive Bracketed : List Token → Prop
  | nil : Bracketed []
  | token {t : Token} {ts : List Token} (ht : t.IsPlain) (hts : Bracketed ts) : Bracketed (t :: ts)
  | group {l r : Token} {closer : String} {inside ts : List Token} (hl : l.closer? = some closer)
      (hinside : Bracketed inside) (hr : r.Closes closer) (hts : Bracketed ts) :
      Bracketed (l :: (inside ++ r :: ts))

/-! ## Closers that are due -/

/-- A closer opens nothing. -/
theorem closer?_eq_none (h : t.isCloser) : t.closer? = none := by
  obtain ⟨hop, hmem⟩ := Bool.and_eq_true_iff.1 h
  have hnone : ∀ sign ∈ closers, bracketPairs.lookup sign = none := by decide
  simp only [Token.closer?, hop, if_true]
  exact hnone _ (by simpa using hmem)

/-- No token leaves the due closers as they are. -/
@[simp] theorem unclosed_nil (due : List String) : unclosed due [] = some due := rfl

/-- The first token makes its step, and the others go on. -/
theorem unclosed_cons (due : List String) (t : Token) (ts : List Token) :
    unclosed due (t :: ts) = (bracketStep due t).bind fun due => unclosed due ts := rfl

/-- Two runs of tokens are walked one after the other. -/
theorem unclosed_append (due : List String) (ts us : List Token) :
    unclosed due (ts ++ us) = (unclosed due ts).bind fun due => unclosed due us :=
  List.foldlM_append

/-- A plain token leaves the due closers as they are. -/
theorem unclosed_plain (h : t.IsPlain) (due : List String) (ts : List Token) :
    unclosed due (t :: ts) = unclosed due ts := by
  simp [unclosed_cons, bracketStep, h.1, h.2]

/-- An opener puts its closer on the due ones. -/
theorem unclosed_opener (h : t.closer? = some closer) (due : List String) (ts : List Token) :
    unclosed due (t :: ts) = unclosed (closer :: due) ts := by
  simp [unclosed_cons, bracketStep, h]

/-- The closer that is due is taken off. -/
theorem unclosed_closer (h : t.Closes closer) (due : List String) (ts : List Token) :
    unclosed (closer :: due) (t :: ts) = unclosed due ts := by
  simp [unclosed_cons, bracketStep, closer?_eq_none h.1, h.1, h.2]

/-- Tokens whose brackets match leave the closers that are due as they are. -/
theorem Bracketed.unclosed (h : Bracketed ts) (due : List String) (rest : List Token) :
    unclosed due (ts ++ rest) = unclosed due rest := by
  induction h generalizing due rest with
  | nil => rfl
  | token ht _ ih => rw [List.cons_append, unclosed_plain ht, ih]
  | group hl _ hr _ ihinside ih =>
    rw [List.cons_append, List.append_assoc, unclosed_opener hl, ihinside, List.cons_append,
      unclosed_closer hr, ih]

/-- Balanced parts make a balanced whole. -/
theorem Bracketed.append (h : Bracketed ts) (hus : Bracketed us) : Bracketed (ts ++ us) := by
  induction h with
  | nil => exact hus
  | token ht _ ih => exact .token ht ih
  | group hl hinside hr _ _ ih =>
    rw [List.cons_append, List.append_assoc]
    exact .group hl hinside hr ih

/-- Tokens that leave all due closers alone are balanced. -/
theorem Bracketed.balanced (h : Bracketed ts) : Balanced ts := by
  have := h.unclosed [] []
  rwa [List.append_nil] at this

/-- A token is an opening bracket, a closing one or no bracket. -/
theorem Token.bracketCases (t : Token) :
    (∃ closer, t.closer? = some closer) ∨ t.Closes t.text ∨ t.IsPlain := by
  cases hopener : t.closer? with
  | some closer => exact .inl ⟨closer, rfl⟩
  | none =>
    cases hcloser : t.isCloser with
    | true => exact .inr (.inl ⟨hcloser, rfl⟩)
    | false => exact .inr (.inr ⟨hopener, hcloser⟩)

/-- What the first of some tokens does to the closers that are due. -/
theorem unclosed_cons_eq_some {due' : List String} (h : unclosed due (t :: ts) = some due') :
    (∃ closer, t.closer? = some closer ∧ unclosed (closer :: due) ts = some due') ∨
      (∃ closer outer, t.Closes closer ∧ due = closer :: outer ∧ unclosed outer ts = some due') ∨
      (t.IsPlain ∧ unclosed due ts = some due') := by
  rcases t.bracketCases with ⟨closer, hopener⟩ | hcloser | hplain
  · rw [unclosed_opener hopener] at h
    exact .inl ⟨closer, hopener, h⟩
  · have hstep : bracketStep due t = if due.head? = some t.text then some due.tail else none := by
      cases due <;> simp [bracketStep, closer?_eq_none hcloser.1, hcloser.1, eq_comm]
    rw [unclosed_cons, hstep] at h
    split at h
    · next hdue =>
      obtain ⟨outer, rfl⟩ := List.head?_eq_some_iff.1 hdue
      exact .inr (.inl ⟨t.text, outer, hcloser, rfl, h⟩)
    · cases h
  · rw [unclosed_plain hplain] at h
    exact .inr (.inr ⟨hplain, h⟩)

/-- If all brackets are closed in the end, so is the innermost one that is open, by a closer that only
tokens whose brackets match come before. -/
theorem exists_closer (h : unclosed (closer :: due) ts = some []) :
    ∃ inside r rest, ts = inside ++ r :: rest ∧ Bracketed inside ∧ r.Closes closer ∧
      unclosed due rest = some [] := by
  induction hlength : ts.length using Nat.strongRecOn generalizing ts closer due with
  | ind length ih =>
    cases ts with
    | nil => cases h
    | cons t ts =>
      have hshorter : ts.length < length := by simp [← hlength]
      rcases unclosed_cons_eq_some h with ⟨inner, hopener, h⟩ | ⟨_, _, hcloser, hdue, h⟩ | ⟨hplain, h⟩
      · obtain ⟨us, r, vs, rfl, hus, hr, hvs⟩ := ih _ hshorter h rfl
        have hvsShorter : vs.length < length := by
          simp only [List.length_append, List.length_cons] at hshorter
          omega
        obtain ⟨ws, r', rest, rfl, hws, hr', hrest⟩ := ih _ hvsShorter hvs rfl
        exact ⟨t :: (us ++ r :: ws), r', rest, by simp, .group hopener hus hr hws, hr', hrest⟩
      · obtain ⟨rfl, rfl⟩ := List.cons.inj hdue
        exact ⟨[], t, ts, rfl, .nil, hcloser, h⟩
      · obtain ⟨inside, r, rest, rfl, hinside, hr, hrest⟩ := ih _ hshorter h rfl
        exact ⟨t :: inside, r, rest, rfl, .token hplain hinside, hr, hrest⟩

/-- The brackets of a token list match if every closing bracket matches the innermost one that is
open and none stays open. -/
theorem Balanced.bracketed (h : Balanced ts) : Bracketed ts := by
  induction hlength : ts.length using Nat.strongRecOn generalizing ts with
  | ind length ih =>
    cases ts with
    | nil => exact .nil
    | cons t ts =>
      have hshorter : ts.length < length := by simp [← hlength]
      rcases unclosed_cons_eq_some h with ⟨closer, hopener, h⟩ | ⟨_, _, -, hdue, -⟩ | ⟨hplain, h⟩
      · obtain ⟨inside, r, rest, rfl, hinside, hr, hrest⟩ := exists_closer h
        have hrestShorter : rest.length < length := by
          simp only [List.length_append, List.length_cons] at hshorter
          omega
        exact .group hopener hinside hr (ih _ hrestShorter hrest rfl)
      · cases hdue
      · exact .token hplain (ih _ hshorter h rfl)

instance (ts : List Token) : Decidable (Bracketed ts) :=
  decidable_of_iff (Balanced ts) ⟨Balanced.bracketed, Bracketed.balanced⟩

/-! ## Signs that are brackets -/

/-- A sign that is no bracket is plain. -/
theorem Token.IsSign.isPlain {sign : String} (h : t.IsSign sign)
    (hopen : bracketPairs.lookup sign = none) (hclose : sign ∉ closers) : t.IsPlain := by
  refine ⟨by rw [h.closer?, hopen], ?_⟩
  rw [h.isCloser]
  simpa using hclose

/-- A sign that opens a pair has the other as its closer. -/
theorem Token.IsSign.opens {sign : String} (h : t.IsSign sign)
    (hopen : bracketPairs.lookup sign = some closer) : t.closer? = some closer := by
  rw [h.closer?, hopen]

/-- A sign that closes a pair closes it. -/
theorem Token.IsSign.closes (h : t.IsSign closer) (hmem : closer ∈ closers) : t.Closes closer := by
  refine ⟨?_, h.2⟩
  rw [h.isCloser]
  simpa using hmem

/-- An identifier is plain. -/
theorem Token.IsIdentifier.isPlain (h : t.IsIdentifier) : t.IsPlain := ⟨h.closer?, h.isCloser⟩

/-- A word is plain. -/
theorem Token.IsWord.isPlain {word : String} (h : t.IsWord word) : t.IsPlain := by
  simp [Token.IsPlain, Token.closer?, Token.isCloser, h.isOperator]

/-- A literal is plain. -/
theorem Token.isPlain_of_isLiteral (h : t.isLiteral) : t.IsPlain := by
  simp [Token.IsPlain, Token.closer?, Token.isCloser, Token.isOperator_of_isLiteral h]

/-! ## Groups -/

/-- A plain token belongs to the group that is open. -/
theorem splitGroup_plain (h : t.IsPlain) (stack : List String) (ts : List Token) :
    splitGroup stack (t :: ts) = (splitGroup stack ts).map fun (inside, rest) =>
      (t :: inside, rest) := by
  simp [splitGroup, h.1, h.2]

/-- An opener inside a group opens a group of its own. -/
theorem splitGroup_opener (h : t.closer? = some closer) (stack : List String) (ts : List Token) :
    splitGroup stack (t :: ts) = (splitGroup (closer :: stack) ts).map fun (inside, rest) =>
      (t :: inside, rest) := by
  simp [splitGroup, h]

/-- The closer that is due ends its group, and the outermost ends the split. -/
theorem splitGroup_closer (h : t.Closes closer) (due : List String) (ts : List Token) :
    splitGroup (closer :: due) (t :: ts) =
      if due.isEmpty then .ok ([], ts)
      else (splitGroup due ts).map fun (inside, rest) => (t :: inside, rest) := by
  simp [splitGroup, closer?_eq_none h.1, h.1, h.2]

/-- Behind the tokens inside, a token closes the outermost of the brackets that are open. -/
inductive GroupEnd : List String → List Token → Token → Prop
  | last {r : Token} {closer : String} (hr : r.Closes closer) : GroupEnd [closer] [] r
  | closer {t r : Token} {closer : String} {outer : List String} {inside : List Token}
      (ht : t.Closes closer) (houter : outer ≠ []) (h : GroupEnd outer inside r) :
      GroupEnd (closer :: outer) (t :: inside) r
  | opener {t r : Token} {closer : String} {stack : List String} {inside : List Token}
      (ht : t.closer? = some closer) (h : GroupEnd (closer :: stack) inside r) :
      GroupEnd stack (t :: inside) r
  | plain {t r : Token} {stack : List String} {inside : List Token} (ht : t.IsPlain)
      (h : GroupEnd stack inside r) : GroupEnd stack (t :: inside) r

namespace GroupEnd

/-- The search for the end of a group ends there, whatever comes behind it. -/
theorem splitGroup (h : GroupEnd stack inside r) (rest : List Token) :
    Source.splitGroup stack (inside ++ r :: rest) = .ok (inside, rest) := by
  induction h with
  | last hr =>
    rw [List.nil_append, splitGroup_closer hr]
    rfl
  | closer ht houter _ ih =>
    rw [List.cons_append, splitGroup_closer ht, if_neg (by simpa using houter), ih]
    rfl
  | opener ht _ ih =>
    rw [List.cons_append, splitGroup_opener ht, ih]
    rfl
  | plain ht _ ih =>
    rw [List.cons_append, splitGroup_plain ht, ih]
    rfl

/-- The token that ends a group closes the outermost opener. -/
theorem closes (h : GroupEnd stack inside r) (hne : stack ≠ []) :
    r.Closes (stack.getLast hne) := by
  induction h with
  | last hr => exact hr
  | closer _ houter _ ih =>
    rw [List.getLast_cons houter]
    exact ih houter
  | opener _ _ ih =>
    rw [← List.getLast_cons hne]
    exact ih (List.cons_ne_nil _ _)
  | plain _ _ ih => exact ih hne

/-- The search for the end of a group finds one. -/
theorem of_splitGroup (h : Source.splitGroup stack ts = .ok (inside, rest)) :
    ∃ r, ts = inside ++ r :: rest ∧ GroupEnd stack inside r := by
  -- on the tokens, with the closers that are due as the state of the search
  induction ts generalizing stack inside with
  | nil => cases h
  | cons t ts ih =>
    rcases t.bracketCases with ⟨closer, hopener⟩ | hcloser | hplain
    · rw [splitGroup_opener hopener] at h
      obtain ⟨more, hsplit, rfl⟩ := splitGroup_kept h
      obtain ⟨r, rfl, hend⟩ := ih hsplit
      exact ⟨r, rfl, .opener hopener hend⟩
    · obtain - | ⟨closer, outer⟩ := stack
      · simp [Source.splitGroup, closer?_eq_none hcloser.1, hcloser.1] at h
      · have hclosed : t.text = closer := by
          refine Decidable.byContradiction fun hne => ?_
          simp [Source.splitGroup, closer?_eq_none hcloser.1, hcloser.1, hne] at h
        subst hclosed
        rw [splitGroup_closer hcloser] at h
        split at h
        · next houter =>
          cases h
          rw [List.isEmpty_iff.1 houter]
          exact ⟨t, rfl, .last hcloser⟩
        · next houter =>
          obtain ⟨more, hsplit, rfl⟩ := splitGroup_kept h
          obtain ⟨r, rfl, hend⟩ := ih hsplit
          exact ⟨r, rfl, .closer hcloser (by simpa using houter) hend⟩
    · rw [splitGroup_plain hplain] at h
      obtain ⟨more, hsplit, rfl⟩ := splitGroup_kept h
      obtain ⟨r, rfl, hend⟩ := ih hsplit
      exact ⟨r, rfl, .plain hplain hend⟩

end GroupEnd

/-- The search for the end of a group passes over tokens whose brackets match. -/
theorem Bracketed.splitGroup (h : Bracketed ts) (closer : String) (outer : List String)
    (rest : List Token) :
    splitGroup (closer :: outer) (ts ++ rest) =
      (splitGroup (closer :: outer) rest).map fun (inside, after) => (ts ++ inside, after) := by
  induction h generalizing closer outer rest with
  | nil =>
    rw [List.nil_append]
    cases Source.splitGroup (closer :: outer) rest <;> rfl
  | token ht _ ih =>
    rw [List.cons_append, splitGroup_plain ht, ih]
    cases Source.splitGroup (closer :: outer) rest <;> rfl
  | group hl _ hr _ ihinside ih =>
    rw [List.cons_append, List.append_assoc, splitGroup_opener hl, ihinside, List.cons_append,
      splitGroup_closer hr, if_neg (by simp), ih]
    cases Source.splitGroup (closer :: outer) rest with
    | error => rfl
    | ok parts => simp [Except.map]

/-- A group ends at the bracket that closes it. -/
theorem Bracketed.splitGroup_eq (h : Bracketed ts) (hr : r.Closes closer) (rest : List Token) :
    Source.splitGroup [closer] (ts ++ r :: rest) = .ok (ts, rest) := by
  rw [h.splitGroup, splitGroup_closer hr]
  simp [Except.map]

/-- Behind balanced tokens and their closer the group is over. -/
theorem Bracketed.afterGroup (h : Bracketed ts) (hl : l.closer? = some closer)
    (hr : r.Closes closer) (rest : List Token) : afterGroup l (ts ++ r :: rest) = rest := by
  rw [Source.afterGroup, hl, Option.toList_some, h.splitGroup_eq hr]

/-! ## Commas between arguments -/

/-- Tokens whose brackets match, with no comma and no angle bracket outside brackets. -/
inductive Grouped : List Token → Prop
  | nil : Grouped []
  | token {t : Token} {ts : List Token} (ht : t.IsPlain) (hcomma : t.spells "," = false)
      (hless : t.spells "<" = false) (hts : Grouped ts) : Grouped (t :: ts)
  | group {l r : Token} {closer : String} {inside ts : List Token} (hl : l.closer? = some closer)
      (hinside : Bracketed inside) (hr : r.Closes closer) (hts : Grouped ts) :
      Grouped (l :: (inside ++ r :: ts))

/-- Groups have their brackets balanced. -/
theorem Grouped.bracketed (h : Grouped ts) : Bracketed ts := by
  induction h with
  | nil => exact .nil
  | token ht _ _ _ ih => exact .token ht ih
  | group hl hinside hr _ ih => exact .group hl hinside hr ih

/-- Groups in a row are groups. -/
theorem Grouped.append (h : Grouped ts) (hus : Grouped us) : Grouped (ts ++ us) := by
  induction h with
  | nil => exact hus
  | token ht hcomma hless _ ih => exact .token ht hcomma hless ih
  | group hl hinside hr _ ih =>
    rw [List.cons_append, List.append_assoc]
    exact .group hl hinside hr ih

/-- A token that opens nothing is counted if it is a comma. -/
theorem commaCount_plain (h : t.closer? = none) (hless : t.spells "<" = false) (ts : List Token) :
    commaCount (t :: ts) = (if t.spells "," then 1 else 0) + commaCount ts := by
  rw [Source.commaCount]
  simp only [Token.isOpener, h, Option.isSome_none, Bool.false_eq_true, if_false]
  split
  · next hrest => simp [hless] at hrest
  · rfl

/-- A group is passed over as a whole when commas are counted. -/
theorem commaCount_opener (h : t.closer? = some closer) (ts : List Token) :
    commaCount (t :: ts) = commaCount (afterGroup t ts) := by
  rw [Source.commaCount]
  simp [Token.isOpener, h]

/-- No comma of a group counts. -/
theorem Grouped.commaCount (h : Grouped ts) (rest : List Token) :
    commaCount (ts ++ rest) = commaCount rest := by
  induction h with
  | nil => rfl
  | token ht hcomma hless _ ih =>
    rw [List.cons_append, commaCount_plain ht.1 hless, ih, hcomma]
    simp
  | group hl hinside hr _ ih =>
    rw [List.cons_append, List.append_assoc, commaCount_opener hl, List.cons_append,
      hinside.afterGroup hl hr, ih]

end Assay.Source

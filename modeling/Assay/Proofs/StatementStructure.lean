import Assay.Proofs.StatementReading

/-!
# The structure of statements

Statements of any length and depth are read as their grammar says: the loops, the `catch` clauses
and the declared variables are recorded once each, in reading order, and the reading stops where
the statements do. The induction on the derivation is `Structured.reads`.
-/

namespace Assay.Source

open Assay.Source.Parser

variable {owner : String} {phrase : Phrase} {ts rest : List Token} {facts : List Fact} {t : Token}

/-! ## First tokens -/

/-- No token of a block or statement continues the statement before it or ends its block. -/
def Token.StartsStatement (t : Token) : Prop :=
  ∀ word ∈ ["\x7d", "else", "catch", "finally", "case", "default"], t.spells word = false

/-- The first token of a block or statement. -/
def Starts : Phrase → List Token → Prop
  | .block, ts => ∃ l us, ts = l :: us ∧ l.IsSign "\x7b"
  | .statement, ts => ∃ t us, ts = t :: us ∧ t.StartsStatement
  | _, _ => True

theorem Token.IsWord.startsStatement {word : String} (h : t.IsWord word)
    (hword : word ∉ ["\x7d", "else", "catch", "finally", "case", "default"]) :
    t.StartsStatement := by
  intro other hother
  have hne : word ≠ other := fun heq => hword (heq ▸ hother)
  simp [h.spells, hne]

theorem Token.IsSign.startsStatement {sign : String} (h : t.IsSign sign)
    (hsign : sign ∉ ["\x7d", "else", "catch", "finally", "case", "default"]) :
    t.StartsStatement := by
  intro other hother
  have hne : sign ≠ other := fun heq => hsign (heq ▸ hother)
  simp [h.spells, hne]

theorem Token.StartsType.startsStatement (h : t.StartsType) : t.StartsStatement := by
  have hreserved : ∀ word ∈ ["\x7d", "else", "catch", "finally", "case", "default"],
      word ∈ keywords ++ signs ∧ word ∉ valueTypes := by decide
  exact fun word hword => h.spells (hreserved word hword).1 (hreserved word hword).2

theorem Structured.starts (h : Structured owner phrase ts facts) : Starts phrase ts := by
  induction h with
  | block hl => exact ⟨_, _, rfl, hl⟩
  | empty ht => exact ⟨_, _, rfl, ht.startsStatement (by decide)⟩
  | nested _ ih =>
    obtain ⟨l, us, rfl, hl⟩ := ih
    exact ⟨l, us, rfl, hl.startsStatement (by decide)⟩
  | ifThen ht => exact ⟨_, _, rfl, ht.startsStatement (by decide)⟩
  | ifElse ht => exact ⟨_, _, rfl, ht.startsStatement (by decide)⟩
  | whileLoop ht => exact ⟨_, _, rfl, ht.startsStatement (by decide)⟩
  | doLoop ht => exact ⟨_, _, rfl, ht.startsStatement (by decide)⟩
  | forLoop ht => exact ⟨_, _, rfl, ht.startsStatement (by decide)⟩
  | forEachLoop ht => exact ⟨_, _, rfl, ht.startsStatement (by decide)⟩
  | tryCatch ht => exact ⟨_, _, rfl, ht.startsStatement (by decide)⟩
  | tryFinally ht => exact ⟨_, _, rfl, ht.startsStatement (by decide)⟩
  | switch ht => exact ⟨_, _, rfl, ht.startsStatement (by decide)⟩
  | synchronized ht => exact ⟨_, _, rfl, ht.startsStatement (by decide)⟩
  | returned ht => exact ⟨_, _, rfl, ht.startsStatement (by decide)⟩
  | thrown ht => exact ⟨_, _, rfl, ht.startsStatement (by decide)⟩
  | jump ht hword =>
    exact ⟨_, _, rfl, ht.startsStatement (by rcases hword with rfl | rfl <;> decide)⟩
  | labelled hx => exact ⟨_, _, rfl, Token.StartsType.startsStatement (.inl hx)⟩
  | declaration hds =>
    obtain ⟨has, -, -⟩ := hds
    obtain ⟨t, us, rfl, ht, -⟩ := has.head
    exact ⟨t, _, rfl, ht.startsStatement⟩
  | assignment hx => exact ⟨_, _, rfl, Token.StartsType.startsStatement (.inl hx)⟩
  | _ => trivial

/-! ## Reading -/

/-- What comes after a statement does not continue it. -/
def EndsStatement (rest : List Token) : Prop :=
  begins "else" rest = false ∧ begins "catch" rest = false ∧ begins "finally" rest = false

/-- How a phrase of a given sort is read in a scope, whatever is written after it. -/
def ReadsPhrase (depth : Nat) (s : Scope) (facts : List Fact) : Phrase → List Token → Prop
  | .block, ts => ∀ rest, block (construct depth) s (ts ++ rest) = .ok ⟨(), facts, rest⟩
  | .statement, ts => ∀ rest, EndsStatement rest →
      statement (construct depth) s (ts ++ rest) = .ok ⟨(), facts, rest⟩
  | .statements, ts => ∀ r rest, r.IsSign "\x7d" →
      untilSees "\x7d" (statement (construct depth)) s (ts ++ r :: rest) =
        .ok ⟨(), facts, r :: rest⟩
  | .catches, ts => ∀ rest, begins "catch" rest = false →
      repeatWhile (catchRound (construct depth)) s (ts ++ rest) = .ok ⟨(), facts, rest⟩
  | .cases, ts => ∀ r rest, r.IsSign "\x7d" →
      untilSees "\x7d" (switchRound (construct (depth + 1))) s (ts ++ r :: rest) =
        .ok ⟨(), facts, r :: rest⟩

theorem endsStatement_closer (h : t.IsSign "\x7d") (rest : List Token) :
    EndsStatement (t :: rest) := by
  simp [EndsStatement, h.spells]

theorem Token.StartsStatement.endsStatement (h : t.StartsStatement) (rest : List Token) :
    EndsStatement (t :: rest) := ⟨h _ (by simp), h _ (by simp), h _ (by simp)⟩

/-- The statements of a list, or a closing brace, end the statement before them. -/
theorem Structured.endsStatement (h : Structured owner phrase ts facts)
    (hphrase : phrase = .statements ∨ phrase = .cases) (ht : t.IsSign "\x7d") (rest : List Token) :
    EndsStatement (ts ++ t :: rest) := by
  cases h with
  | noStatement => exact endsStatement_closer ht rest
  | statements hts _ =>
    obtain ⟨u, us, rfl, hu⟩ := hts.starts
    exact hu.endsStatement _
  | noCase => exact endsStatement_closer ht rest
  | caseLabel hu => simp [EndsStatement, hu.spells]
  | defaultLabel hu => simp [EndsStatement, hu.spells]
  | caseStatement hts _ =>
    obtain ⟨u, us, rfl, hu⟩ := hts.starts
    exact hu.endsStatement _
  | _ => simp at hphrase

/-- A statement goes on where the next one starts. -/
theorem Structured.again (h : Structured owner .statement ts facts) {p : Parser Unit} {s : Scope}
    (hread : p s (ts ++ rest) = .ok ⟨(), facts, rest⟩) :
    untilSees "\x7d" p s (ts ++ rest) = recording facts (untilSees "\x7d" p s rest) := by
  obtain ⟨t, us, rfl, ht⟩ := h.starts
  refine untilSees_again (ht _ (by simp)) hread ?_
  simp only [List.cons_append, List.length_cons, List.length_append]
  omega

/-- A phrase is read as its grammar says, if as many constructs may be open as it has tokens. -/
theorem Structured.reads (h : Structured owner phrase ts facts) {s : Scope} (hs : s.owner = owner)
    (depth : Nat) (hdepth : ts.length ≤ depth) : ReadsPhrase depth s facts phrase ts := by
  subst hs
  -- a construct inside another takes one off the depth, and the keyword or bracket before it one
  -- off the tokens
  induction h generalizing depth with
  | @block l r ts fs hl hts hr ih =>
    simp only [List.length_cons, List.length_append, List.length_nil] at hdepth
    obtain ⟨d, rfl⟩ := Nat.exists_eq_succ_of_ne_zero (by omega : depth ≠ 0)
    intro rest
    rw [List.cons_append, List.append_assoc]
    exact block_apply hl hr (ih d (by omega) r rest hr)
  -- blocks and their statements: the loop of a block stops at the brace and nowhere else
  | noStatement => exact fun r rest hr => untilSees_done (by simp [hr.spells])
  | statements hts hus ihts ihus =>
    simp only [List.length_append] at hdepth
    intro r rest hr
    have hread := ihts depth (by omega) _ (hus.endsStatement (.inl rfl) hr rest)
    rw [List.append_assoc, hts.again hread, ihus depth (by omega) r rest hr, recording_ok]
  | empty ht => exact fun rest _ => statement_empty ht _ rest
  | nested hts ih =>
    intro rest _
    obtain ⟨l, us, rfl, hl⟩ := hts.starts
    exact statement_block hl (ih depth hdepth rest)
  -- what a statement may not be followed by is part of what it is read with: an `else` would join
  -- an `if`, a `catch` or a `finally` a `try`
  | ifThen ht hcs hts ih =>
    simp only [List.length_cons, List.length_append] at hdepth
    obtain ⟨d, rfl⟩ := Nat.exists_eq_succ_of_ne_zero (by omega : depth ≠ 0)
    intro rest hrest
    rw [List.cons_append, List.append_assoc]
    exact statement_ifThen (readsPlain_construct d) ht hcs (ih d (by omega) rest hrest) hrest.1
  | @ifElse t u cs bs ts fs gs ht hcs hbs hu hts ihbs ihts =>
    simp only [List.length_cons, List.length_append] at hdepth
    obtain ⟨d, rfl⟩ := Nat.exists_eq_succ_of_ne_zero (by omega : depth ≠ 0)
    intro rest hrest
    have hbody := ihbs d (by omega) (u :: (ts ++ rest))
    obtain ⟨l, us, rfl, hl⟩ := hbs.starts
    have hthen : construct (d + 1) .statement s (l :: us ++ u :: (ts ++ rest)) = _ :=
      statement_block hl hbody
    have hread := statement_ifElse (readsPlain_construct d) ht hcs hthen hu
      (ihts d (by omega) rest hrest)
    rw [List.cons_append, List.append_assoc, List.append_assoc, List.cons_append]
    exact hread
  | whileLoop ht hcs hts ih =>
    simp only [List.length_cons, List.length_append] at hdepth
    obtain ⟨d, rfl⟩ := Nat.exists_eq_succ_of_ne_zero (by omega : depth ≠ 0)
    intro rest hrest
    rw [List.cons_append, List.append_assoc]
    exact statement_while (readsPlain_construct d) ht hcs (ih d (by omega) rest hrest)
  | doLoop ht hts hu hcs hsemicolon ih =>
    simp only [List.length_cons, List.length_append] at hdepth
    obtain ⟨d, rfl⟩ := Nat.exists_eq_succ_of_ne_zero (by omega : depth ≠ 0)
    intro rest hrest
    rw [List.cons_append, List.append_assoc, List.cons_append, List.append_assoc,
      List.singleton_append]
    refine statement_do (readsPlain_construct d) ht hu hcs hsemicolon (ih d (by omega) _ ?_)
    simp [EndsStatement, hu.spells]
  | forLoop ht hl his hfirst hcs hsecond hus hr hts ih =>
    simp only [List.length_cons, List.length_append] at hdepth
    obtain ⟨d, rfl⟩ := Nat.exists_eq_succ_of_ne_zero (by omega : depth ≠ 0)
    intro rest hrest
    have hread := statement_for (readsPlain_construct d) ht hl his hfirst hcs hsecond hus hr
      (ih d (by omega) rest hrest)
    simpa using hread
  | forEachLoop ht hl has hx hcolon hes hr hts ih =>
    simp only [List.length_cons, List.length_append] at hdepth
    obtain ⟨d, rfl⟩ := Nat.exists_eq_succ_of_ne_zero (by omega : depth ≠ 0)
    intro rest hrest
    have hread := statement_forEach (readsPlain_construct d) ht hl has hx hcolon hes hr
      (ih d (by omega) rest hrest)
    simpa using hread
  -- behind a `try` stand blocks, each of which brings its own brace
  | tryCatch ht hbs hcs ihbs ihcs =>
    simp only [List.length_cons, List.length_append] at hdepth
    intro rest hrest
    have hcatches := ihcs depth (by omega) rest hrest.2.1
    have hbody := ihbs depth (by omega)
    obtain ⟨l, us, rfl, hl⟩ := hbs.starts
    rw [List.cons_append, List.append_assoc]
    exact statement_tryCatch ht hl (hbody _) hcatches hrest.2.2
  | @tryFinally t u bs cs ds fs gs hs ht hbs hcs hu hds ihbs ihcs ihds =>
    simp only [List.length_cons, List.length_append] at hdepth
    intro rest hrest
    have hcatches := ihcs depth (by omega) (u :: (ds ++ rest)) (by simp [hu.spells])
    have hbody := ihbs depth (by omega)
    obtain ⟨l, us, rfl, hl⟩ := hbs.starts
    rw [List.cons_append, List.append_assoc, List.append_assoc, List.cons_append]
    exact statement_tryFinally ht hl (hbody _) hcatches hu (ihds depth (by omega) rest)
  | switch ht hcs hl hts hr ih =>
    simp only [List.length_cons, List.length_append] at hdepth
    obtain ⟨d, rfl⟩ := Nat.exists_eq_succ_of_ne_zero (by omega : depth ≠ 0)
    intro rest hrest
    have hread := statement_switch (readsPlain_construct d) ht hcs hl hr
      (ih d (by omega) _ rest hr)
    simpa using hread
  | synchronized ht hcs hbs ih =>
    simp only [List.length_cons, List.length_append] at hdepth
    obtain ⟨d, rfl⟩ := Nat.exists_eq_succ_of_ne_zero (by omega : depth ≠ 0)
    intro rest hrest
    rw [List.cons_append, List.append_assoc]
    exact statement_synchronized (readsPlain_construct d) ht hcs (ih (d + 1) (by omega) rest)
  -- statements without a statement in them end at their semicolon
  | returned ht hes hsemicolon =>
    simp only [List.length_cons, List.length_append, List.length_nil] at hdepth
    obtain ⟨d, rfl⟩ := Nat.exists_eq_succ_of_ne_zero (by omega : depth ≠ 0)
    intro rest _
    rw [List.cons_append, List.append_assoc]
    exact statement_value (readsPlain_construct d) ht (.inl rfl) hes hsemicolon s rest
  | thrown ht hes hsemicolon =>
    simp only [List.length_cons, List.length_append, List.length_nil] at hdepth
    obtain ⟨d, rfl⟩ := Nat.exists_eq_succ_of_ne_zero (by omega : depth ≠ 0)
    intro rest _
    rw [List.cons_append, List.append_assoc]
    exact statement_value (readsPlain_construct d) ht (.inr rfl) (.inr hes) hsemicolon s rest
  | jump ht hword hsemicolon => exact fun rest _ => statement_jump ht hword hsemicolon s rest
  | labelled hx hcolon hts ih =>
    simp only [List.length_cons] at hdepth
    obtain ⟨d, rfl⟩ := Nat.exists_eq_succ_of_ne_zero (by omega : depth ≠ 0)
    exact fun rest hrest => statement_labelled hx hcolon (ih d (by omega) rest hrest)
  | declaration hds hsemicolon =>
    simp only [List.length_append, List.length_cons, List.length_nil] at hdepth
    obtain ⟨d, rfl⟩ := Nat.exists_eq_succ_of_ne_zero (by omega : depth ≠ 0)
    intro rest _
    rw [List.append_assoc]
    exact statement_declaration (readsPlain_construct d) hds hsemicolon s rest
  | assignment hx hequals hes hsemicolon =>
    simp only [List.length_cons, List.length_append, List.length_nil] at hdepth
    obtain ⟨d, rfl⟩ := Nat.exists_eq_succ_of_ne_zero (by omega : depth ≠ 0)
    intro rest _
    rw [List.cons_append, List.cons_append, List.append_assoc]
    exact statement_assignment (readsPlain_construct d) hx hequals hes hsemicolon s rest
  -- the loop of `catch` clauses goes on as long as the word follows
  | noCatch => exact fun rest hrest => repeatWhile_done (catchRound_done hrest)
  | @catchClause t l x r as bs cs fs gs ht hl has hx hr hbs hcs ihbs ihcs =>
    simp only [List.length_cons, List.length_append] at hdepth
    intro rest hrest
    have hround := catchRound_more ht hl has hx hr (ihbs depth (by omega) (cs ++ rest))
    have hmore := ihcs depth (by omega) rest hrest
    rw [List.cons_append, List.cons_append, List.append_assoc, List.cons_append, List.cons_append,
      List.append_assoc, repeatWhile_again hround (by simp; omega), hmore]
    simp
  -- the rows of a `switch`: a label is a round of its own, and so is a statement behind it
  | noCase => exact fun r rest hr => untilSees_done (by simp [hr.spells])
  | caseLabel ht hes hcolon hus ih =>
    simp only [List.length_cons, List.length_append] at hdepth
    intro r rest hr
    have hround := switchRound_case (readsPlain_construct depth) ht hes hcolon s
    rw [List.cons_append, List.append_assoc, List.cons_append,
      untilSees_again (by simp [ht.spells]) (hround _) (by simp; omega), recording_nil,
      ih depth (by omega) r rest hr]
  | defaultLabel ht hcolon hus ih =>
    simp only [List.length_cons] at hdepth
    intro r rest hr
    rw [List.cons_append, List.cons_append,
      untilSees_again (by simp [ht.spells]) (switchRound_default ht hcolon s _)
        (by simp only [List.length_cons]; omega),
      recording_nil, ih depth (by omega) r rest hr]
  | @caseStatement ts us fs gs hts hus ihts ihus =>
    simp only [List.length_append] at hdepth
    intro r rest hr
    have hread := ihts depth (by omega) _ (hus.endsStatement (.inr rfl) hr rest)
    obtain ⟨t, vs, rfl, ht⟩ := hts.starts
    have hcase : begins "case" (t :: vs ++ (us ++ r :: rest)) = false := ht _ (by simp)
    have hdefault : begins "default" (t :: vs ++ (us ++ r :: rest)) = false := ht _ (by simp)
    have hround : switchRound (construct (depth + 1)) s (t :: vs ++ (us ++ r :: rest)) =
        .ok ⟨(), fs, us ++ r :: rest⟩ := (switchRound_statement hcase hdefault).trans hread
    rw [List.append_assoc, hts.again hround, ihus depth (by omega) r rest hr, recording_ok]

/-- A block of statements is read up to its closing brace, whatever follows, and what it records is
exactly what its grammar gives it: every loop, `catch` clause and declared variable once, in reading
order. -/
theorem block_structure (s : Scope) {l r : Token} {depth : Nat} (hl : l.IsSign "\x7b")
    (h : Structured s.owner .statements ts facts) (hr : r.IsSign "\x7d")
    (hdepth : ts.length < depth) (rest : List Token) :
    block (construct depth) s (l :: (ts ++ r :: rest)) = .ok ⟨(), facts, rest⟩ := by
  obtain ⟨d, rfl⟩ := Nat.exists_eq_succ_of_ne_zero (by omega : depth ≠ 0)
  exact block_apply hl hr (h.reads rfl d (by omega) r rest hr)

/-- The structure of `{ while (a) ; try { } catch (E y) { } }`, with the declaration in the `catch`
clause before the clause. -/
theorem block_structure_while_try :
    block (construct 16) ⟨some ⟨"N", .classType⟩, 2⟩
        [.sign "\x7b" 1, .word "while" 1, .sign "(" 1, .word "a" 1, .sign ")" 1, .sign ";" 1,
          .word "try" 2, .sign "\x7b" 2, .sign "\x7d" 2, .word "catch" 2, .sign "(" 2,
          .word "E" 2, .word "y" 2, .sign ")" 2, .sign "\x7b" 2, .sign "\x7d" 2,
          .sign "\x7d" 2] =
      .ok ⟨(), .loop ⟨.whileLoop, 1⟩ :: (declaredValue .parameter "N" (.word "y" 2) ++
        [.catchClause 2]), []⟩ := by
  have hblock : Structured "N" .block [.sign "\x7b" 2, .sign "\x7d" 2] [] :=
    .block ⟨rfl, rfl⟩ .noStatement ⟨rfl, rfl⟩
  have hwhile : Structured "N" .statement _ _ :=
    .whileLoop (⟨rfl, rfl⟩ : (Token.word "while" 1).IsWord "while")
      (.mk (⟨rfl, rfl⟩ : (Token.sign "(" 1).IsSign "(")
        (.operand (.inl (by decide) : (Token.word "a" 1).IsOperand))
        (⟨rfl, rfl⟩ : (Token.sign ")" 1).IsSign ")"))
      (.empty (⟨rfl, rfl⟩ : (Token.sign ";" 1).IsSign ";"))
  have hcatch : Structured "N" .catches _ _ :=
    .catchClause (⟨rfl, rfl⟩ : (Token.word "catch" 2).IsWord "catch")
      (⟨rfl, rfl⟩ : (Token.sign "(" 2).IsSign "(")
      (.named (.one (by decide : (Token.word "E" 2).IsIdentifier)))
      (by decide : (Token.word "y" 2).IsIdentifier) (⟨rfl, rfl⟩ : (Token.sign ")" 2).IsSign ")")
      hblock .noCatch
  have htry : Structured "N" .statement _ _ :=
    .tryCatch (⟨rfl, rfl⟩ : (Token.word "try" 2).IsWord "try") hblock hcatch
  exact block_structure ⟨some ⟨"N", .classType⟩, 2⟩ ⟨rfl, rfl⟩
    (.statements hwhile (.statements htry .noStatement)) ⟨rfl, rfl⟩ (by decide : _ < 16) []

end Assay.Source

import Assay.Proofs.ClassTypes

/-!
# Headers of `for` loops

Whether a header has a colon or semicolons is told by counting: a question mark outside brackets is
taken for a conditional expression, whose colon does not count. The main statement is `for_headers`:
a header with a variable and a colon is recognised exactly if the type of the variable is written
without wildcards, since a wildcard uses up the colon; and a header of three parts is recognised with
conditional expressions anywhere in it.
-/

namespace Assay.Source

variable {t l r x colon : Token} {ts us as es inside rest : List Token}

/-! ## Colons -/

/-- Outside brackets there is no semicolon, and every colon belongs to a conditional expression. -/
inductive ColonsPaired : List Token → Prop
  | nil : ColonsPaired []
  | token {t : Token} {ts : List Token} (ht : t.IsPlain) (hsemicolon : t.spells ";" = false)
      (hcolon : t.spells ":" = false) (hts : ColonsPaired ts) : ColonsPaired (t :: ts)
  | group {l r : Token} {closer : String} {inside ts : List Token} (hl : l.closer? = some closer)
      (hinside : Bracketed inside) (hr : r.Closes closer) (hts : ColonsPaired ts) :
      ColonsPaired (l :: (inside ++ r :: ts))
  | conditional {question colon : Token} {ts us : List Token} (hquestion : question.IsSign "?")
      (hts : ColonsPaired ts) (hcolon : colon.IsSign ":") (hus : ColonsPaired us) :
      ColonsPaired (question :: (ts ++ colon :: us))

/-- Inside brackets the scan looks for nothing. -/
theorem Bracketed.isForEach (h : Bracketed inside) (depth pending : Nat) (rest : List Token) :
    isForEach (depth + 1) pending (inside ++ rest) = isForEach (depth + 1) pending rest := by
  induction h generalizing depth rest with
  | nil => rfl
  | @token t ts ht _ ih =>
    have hskip : Source.isForEach (depth + 1) pending (t :: (ts ++ rest)) =
        Source.isForEach (depth + 1) pending (ts ++ rest) := by
      rw [Source.isForEach.eq_def]
      simp [Token.isOpener, ht.1, ht.2]
    rw [List.cons_append, hskip, ih]
  | group hl _ hr _ ihinside ih =>
    rw [List.cons_append, List.append_assoc, isForEach_opener (by simp [Token.isOpener, hl]),
      ihinside, List.cons_append,
      isForEach_closer (by simp [Token.isOpener, closer?_eq_none hr.1]) hr.1, ih]

theorem isForEach_colon (h : t.IsSign ":") (pending : Nat) (ts : List Token) :
    isForEach 0 pending (t :: ts) = (pending == 0 || isForEach 0 (pending - 1) ts) := by
  rw [isForEach.eq_def]
  cases pending <;>
    simp [Token.isOpener, h.closer?, bracketPairs, h.isCloser, closers, h.spells]

theorem isForEach_semicolon (h : t.IsSign ";") (pending : Nat) (ts : List Token) :
    isForEach 0 pending (t :: ts) = false := by
  rw [isForEach.eq_def]
  simp [Token.isOpener, h.closer?, bracketPairs, h.isCloser, closers, h.spells]

theorem isForEach_end (h : t.IsSign ")") (pending : Nat) (ts : List Token) :
    isForEach 0 pending (t :: ts) = false := by
  rw [isForEach.eq_def]
  simp [Token.isOpener, h.closer?, bracketPairs, h.isCloser, closers]

/-- Conditional expressions leave no colon over. Question marks of other origin are counted. -/
theorem ColonsPaired.isForEach (h : ColonsPaired ts) :
    ∃ count, ∀ pending rest,
      isForEach 0 pending (ts ++ rest) = isForEach 0 (pending + count) rest := by
  induction h with
  | nil => exact ⟨0, fun pending rest => rfl⟩
  | @token t ts ht hsemicolon hcolon _ ih =>
    obtain ⟨count, hcount⟩ := ih
    have hopener : t.isOpener = false := by simp [Token.isOpener, ht.1]
    by_cases hquestion : t.spells "?"
    · refine ⟨count + 1, fun pending rest => ?_⟩
      rw [List.cons_append, isForEach_question hopener ht.2 hsemicolon hquestion, hcount,
        Nat.add_assoc, Nat.add_comm 1]
    · refine ⟨count, fun pending rest => ?_⟩
      rw [List.cons_append,
        isForEach_plain hopener ht.2 ⟨hsemicolon, by simpa using hquestion, hcolon⟩, hcount]
  | group hl hinside hr _ ih =>
    obtain ⟨count, hcount⟩ := ih
    refine ⟨count, fun pending rest => ?_⟩
    rw [List.cons_append, List.append_assoc, isForEach_opener (by simp [Token.isOpener, hl]),
      hinside.isForEach, List.cons_append,
      isForEach_closer (by simp [Token.isOpener, closer?_eq_none hr.1]) hr.1, hcount]
  | @conditional question colon ts us hquestion _ hcolon _ ihts ihus =>
    obtain ⟨before, hbefore⟩ := ihts
    obtain ⟨behind, hbehind⟩ := ihus
    refine ⟨before + behind, fun pending rest => ?_⟩
    have hstart : Source.isForEach 0 pending (question :: (ts ++ colon :: (us ++ rest))) =
        Source.isForEach 0 (pending + 1) (ts ++ colon :: (us ++ rest)) := by
      apply isForEach_question
      · simp [Token.isOpener, hquestion.closer?, bracketPairs]
      · simp [hquestion.isCloser, closers]
      · simp [hquestion.spells]
      · simp [hquestion.spells]
    -- the colon takes back what the question mark of its expression added
    have hpositive : (pending + 1 + before == 0) = false := beq_false_of_ne (by omega)
    have hcount : pending + 1 + before - 1 + behind = pending + (before + behind) := by omega
    rw [List.cons_append, List.append_assoc, List.cons_append, hstart, hbefore,
      isForEach_colon hcolon, hpositive, Bool.false_or, hbehind, hcount]

/-! ## The decision -/

/-- The colon behind a variable is found unless a wildcard of its type uses it up. -/
theorem isForEach_variable (has : AngleBody as) (hx : x.IsIdentifier) (hcolon : colon.IsSign ":")
    (rest : List Token) :
    isForEach 0 0 (as ++ x :: colon :: rest) =
      (wildcards as == 0 || isForEach 0 (wildcards as - 1) rest) := by
  rw [has.isForEach, Nat.zero_add, isForEach_flat hx.isFlat, isForEach_colon hcolon]

theorem isForEach_used_up (has : AngleBody as) (hwildcards : 0 < wildcards as)
    (hx : x.IsIdentifier) (hcolon : colon.IsSign ":") (hes : ColonsPaired es) (hr : r.IsSign ")")
    (rest : List Token) : isForEach 0 0 (as ++ x :: colon :: (es ++ r :: rest)) = false := by
  obtain ⟨count, hcount⟩ := hes.isForEach
  have hne : wildcards as ≠ 0 := by omega
  rw [isForEach_variable has hx hcolon, hcount, isForEach_end hr]
  simp [hne]

namespace Parser

variable {nested : Construct → Parser Unit} {s : Scope}

/-- Taken for the first of three parts, a variable before a colon is a declaration that no semicolon
follows. -/
theorem forInitializer_colon (has : ReadAsType as) (hyield : begins "yield" as = false)
    (hx : x.IsIdentifier) (hcolon : colon.IsSign ":") (s : Scope) (rest : List Token) :
    forInitializer nested s (as ++ x :: colon :: rest) =
      .ok ⟨(), declaredValue .variableDeclarator s.owner x, colon :: rest⟩ := by
  have htype := type_before_name has hx s (colon :: rest)
  have hdimensions : dimensions s (colon :: rest) = .ok ⟨(), [], colon :: rest⟩ :=
    dimensions_apply_of_not_opener (by simp [hcolon.spells]) s
  have hvariable : localVariable nested s (x :: colon :: rest) =
      .ok ⟨(), declaredValue .variableDeclarator s.owner x, colon :: rest⟩ := by
    simp [localVariable, initializer, bind_apply, name_cons hx.isName, hdimensions, hcolon.spells]
  rw [forInitializer_declaration has hyield hx (hcolon.isSignOf (by decide)), localDeclaration,
    bind_of_ok htype, recording_nil, bind_of_ok hvariable,
    afterCommas_done (by simp [hcolon.spells])]
  rfl

/-- A colon that is not found is refused where it stands. -/
theorem forStatement_colon {line : Nat} (ht : t.IsWord "for") (hl : l.IsSign "(")
    (has : ReadAsType as) (hyield : begins "yield" as = false) (hx : x.IsIdentifier)
    (hcolon : colon.IsSign ":") (hforEach : isForEach 0 0 (as ++ x :: colon :: rest) = false) :
    forStatement nested line s (t :: l :: (as ++ x :: colon :: rest)) =
      .error ⟨.expected ";" ":", colon.line⟩ := by
  have hread : forInitializer nested s (as ++ x :: colon :: rest) = _ :=
    forInitializer_colon has hyield hx hcolon s rest
  have hsemicolon : begins ";" (as ++ x :: colon :: rest) = false := by
    obtain ⟨u, us, rfl, hu, -⟩ := has.head
    exact hu.spells (by decide) (by decide)
  simp [forStatement, bind_apply, ht.spells, hl.spells, hforEach, hsemicolon, hread, expect,
    hcolon.spells, failAhead, hcolon.2]

/-- A header with a variable, a colon and an expression is recorded as a loop over its elements, if
no wildcard stands in the type; with a wildcard it is refused at the colon. A header of three parts
is recorded as a loop whatever conditional expressions its parts contain. -/
theorem for_headers (nested : Construct → Parser Unit) (s : Scope) (line : Nat)
    (t l : Token) (ht : t.IsWord "for") (hl : l.IsSign "(") :
    (∀ as x colon es r ts rest gs fs, TypeForm .type as → x.IsIdentifier → colon.IsSign ":" →
      r.IsSign ")" → nested (.expression [")"]) s (es ++ r :: ts) = .ok ⟨(), gs, r :: ts⟩ →
      nested .statement s ts = .ok ⟨(), fs, rest⟩ →
        (wildcards as = 0 →
          forStatement nested line s (t :: l :: (as ++ x :: colon :: (es ++ r :: ts))) =
            .ok ⟨(), declaredValue .variableDeclarator s.owner x ++
              (gs ++ .loop ⟨.forEachLoop, line⟩ :: fs), rest⟩) ∧
        (0 < wildcards as → ColonsPaired es → begins "yield" as = false →
          forStatement nested line s (t :: l :: (as ++ x :: colon :: (es ++ r :: ts))) =
            .error ⟨.expected ";" ":", colon.line⟩)) ∧
    (∀ is first cs second us r ts rest gs hs ks fs, ColonsPaired is → first.IsSign ";" →
      second.IsSign ";" → r.IsSign ")" →
      ReadsUnless ";" (forInitializer nested) s (is ++ first :: (cs ++ second :: (us ++ r :: ts)))
        gs (first :: (cs ++ second :: (us ++ r :: ts))) →
      ReadsUnless ";" (nested (.expression [";"])) s (cs ++ second :: (us ++ r :: ts)) hs
        (second :: (us ++ r :: ts)) →
      ReadsUnless ")" (nested (.expression [")"])) s (us ++ r :: ts) ks (r :: ts) →
      nested .statement s ts = .ok ⟨(), fs, rest⟩ →
        forStatement nested line s
            (t :: l :: (is ++ first :: (cs ++ second :: (us ++ r :: ts)))) =
          .ok ⟨(), gs ++ (hs ++ (ks ++ .loop ⟨.forLoop, line⟩ :: fs)), rest⟩) := by
  refine ⟨fun as x colon es r ts rest gs fs has hx hcolon hr hes hts =>
    ⟨fun hwildcards => ?_, fun hwildcards hpaired hyield => ?_⟩, ?_⟩
  · have hforEach : isForEach 0 0 (as ++ x :: colon :: (es ++ r :: ts)) = true := by
      rw [isForEach_variable has.angleBody hx hcolon, hwildcards]
      rfl
    exact forStatement_each ht hl has.readAsType hx hcolon hforEach hes hr hts
  · exact forStatement_colon ht hl has.readAsType hyield hx hcolon
      (isForEach_used_up has.angleBody hwildcards hx hcolon hpaired hr ts)
  · intro is first cs second us r ts rest gs hs ks fs his hfirst hsecond hr hinitializer hcondition
      hupdate hts
    -- the first part has its colons paired, so the semicolon comes before a colon that is left
    obtain ⟨count, hcount⟩ := his.isForEach
    have hforEach : isForEach 0 0 (is ++ first :: (cs ++ second :: (us ++ r :: ts))) = false := by
      rw [hcount, isForEach_semicolon hfirst]
    exact forStatement_parts ht hl hforEach hinitializer hfirst hcondition hsecond hupdate hr hts

/-- A conditional expression of operands is passed over. -/
theorem passes_conditional {stop : List String} {a question b c : Token} (ha : a.IsOperand)
    (hquestion : question.IsSign "?") (hb : b.IsOperand) (hcolon : colon.IsSign ":")
    (hc : c.IsOperand) (hstop : "?" ∉ stop ∧ ":" ∉ stop) (hrest : EndsOperand rest) :
    Passes nested stop s [a, question, b, colon, c] [] rest := by
  have htest : Passes nested stop s [a] [] ([question, b, colon, c] ++ rest) :=
    passes_operand ha (by simp [EndsOperand, hquestion.spells])
  have hthen : Passes nested stop s [b] [] ([colon, c] ++ rest) :=
    passes_operand hb (by simp [EndsOperand, hcolon.spells])
  have helse : Passes nested stop s [c] [] rest := passes_operand hc hrest
  have hfirst : Passes nested stop s [question] [] ([b, colon, c] ++ rest) :=
    passes_sign hquestion (by decide) ⟨by decide, hstop.1⟩ _
  have hsecond : Passes nested stop s [colon] [] ([c] ++ rest) :=
    passes_sign hcolon (by decide) ⟨by decide, hstop.2⟩ _
  exact htest.append (hfirst.append (hthen.append (hsecond.append helse)))

/-- The loops `for (String x : xs) ;` and `for (int i = a ? b : c; ; ) ;` are recorded, and
`for (List<?> x : xs) ;` is refused. -/
theorem for_headers_conditional :
    let s : Scope := ⟨none, 1⟩
    let forWord : Token := .word "for" 1
    let l : Token := .sign "(" 1
    let x : Token := .word "x" 1
    let colon : Token := .sign ":" 1
    let r : Token := .sign ")" 1
    let semicolon : Token := .sign ";" 1
    forStatement (construct 1) 1 s
        [forWord, l, .word "String" 1, x, colon, .word "xs" 1, r, semicolon] =
      .ok ⟨(), declaredValue .variableDeclarator "" x ++ [.loop ⟨.forEachLoop, 1⟩], []⟩ ∧
    forStatement (construct 1) 1 s
        [forWord, l, .word "List" 1, .sign "<" 1, .sign "?" 1, .sign ">" 1, x, colon, .word "xs" 1, r,
          semicolon] = .error ⟨.expected ";" ":", 1⟩ ∧
    forStatement (construct 1) 1 s
        [forWord, l, .word "int" 1, .word "i" 1, .sign "=" 1, .word "a" 1, .sign "?" 1, .word "b" 1,
          colon, .word "c" 1, semicolon, semicolon, r, semicolon] =
      .ok ⟨(), declaredValue .variableDeclarator "" (.word "i" 1) ++ [.loop ⟨.forLoop, 1⟩], []⟩ := by
  intro s forWord l x colon r semicolon
  have hr : r.IsSign ")" := ⟨rfl, rfl⟩
  have hsemicolon : semicolon.IsSign ";" := ⟨rfl, rfl⟩
  have hcolon : colon.IsSign ":" := ⟨rfl, rfl⟩
  have hx : x.IsIdentifier := by decide
  have hstatement : construct 1 .statement s [semicolon] = .ok ⟨(), [], []⟩ :=
    statement_empty hsemicolon s []
  have hxs : construct 1 (.expression [")"]) s ([.word "xs" 1] ++ [r, semicolon]) =
      .ok ⟨(), [], [r, semicolon]⟩ :=
    ReadsPlain.upTo (readsPlain_construct 0) [")"] (.inr (.operand (.inl (by decide)))) hr (by decide)
      (by decide) s [semicolon]
  obtain ⟨heach, hparts⟩ := for_headers (construct 1) s 1 forWord l ⟨rfl, rfl⟩ ⟨rfl, rfl⟩
  have hplain : TypeForm .type [.word "String" 1] := .named (by decide) (.last .none)
  have hwildcard : TypeForm .type [.word "List" 1, .sign "<" 1, .sign "?" 1, .sign ">" 1] :=
    .named (by decide) (.last (.list ⟨rfl, rfl⟩ (.one (.wildcard ⟨rfl, rfl⟩)) ⟨rfl, rfl⟩))
  have hpaired : ColonsPaired [.word "xs" 1] := .token (by decide) (by decide) (by decide) .nil
  refine ⟨?_, ?_, ?_⟩
  · exact (heach _ x colon _ r _ _ _ _ hplain hx hcolon hr hxs hstatement).1 rfl
  · exact (heach _ x colon _ r _ _ _ _ hwildcard hx hcolon hr hxs hstatement).2 (by decide) hpaired
      (by decide)
  -- the header without an element type: its first part is a local declaration
  · let tail : List Token := [semicolon, semicolon, r, semicolon]
    let value : List Token := [.word "a" 1, .sign "?" 1, .word "b" 1, colon, .word "c" 1]
    have hint : ReadAsType [.word "int" 1] := .primitive ⟨rfl, by decide⟩
    have hi : (Token.word "i" 1).IsIdentifier := by decide
    have hends : EndsOperand tail :=
      (hsemicolon.isSignOf (List.mem_singleton_self ";")).endsOperand (by decide) _
    have hvalue : construct 1 (.expression [",", ";"]) s (value ++ tail) = .ok ⟨(), [], tail⟩ :=
      (passes_conditional (.inl (by decide)) ⟨rfl, rfl⟩ (.inl (by decide)) hcolon
        (.inl (by decide)) (by decide) hends).expression (by decide)
    have hvariable : localVariable (construct 1) s (.word "i" 1 :: .sign "=" 1 :: (value ++ tail)) =
        .ok ⟨(), declaredValue .variableDeclarator "" (.word "i" 1), tail⟩ := by
      have hdimensions : dimensions s (.sign "=" 1 :: (value ++ tail)) = _ :=
        dimensions_apply_of_not_opener (by decide) s
      -- an initial value stands behind the equals sign, so the variable is read with it
      have hequals : (Token.sign "=" 1).spells "=" := by decide
      have hbrace : begins "\x7b" (value ++ tail) = false := by decide
      simp [localVariable, initializer, bind_apply, name_cons hi.isName, hdimensions, hequals,
        hbrace, hvalue, s, Scope.owner]
    have hinitializer : forInitializer (construct 1) s
        ([.word "int" 1] ++ .word "i" 1 :: .sign "=" 1 :: (value ++ tail)) =
          .ok ⟨(), declaredValue .variableDeclarator "" (.word "i" 1), tail⟩ := by
      rw [forInitializer_declaration hint (by decide) hi ⟨rfl, by decide⟩, localDeclaration,
        bind_of_ok (type_before_name hint hi s _), recording_nil, bind_of_ok hvariable,
        afterCommas_done (by decide)]
      rfl
    have hpaired : ColonsPaired ([.word "int" 1, .word "i" 1, .sign "=" 1] ++ value) := by
      -- the colon belongs to the conditional, so none is left over for the elements
      have hlast : ColonsPaired [.word "c" 1] := .token (by decide) (by decide) (by decide) .nil
      have hthen : ColonsPaired [.word "b" 1] := .token (by decide) (by decide) (by decide) .nil
      exact .token (by decide) (by decide) (by decide) (.token (by decide) (by decide) (by decide)
        (.token (by decide) (by decide) (by decide) (.token (by decide) (by decide) (by decide)
          (.conditional ⟨rfl, rfl⟩ hthen hcolon hlast))))
    exact hparts _ semicolon [] semicolon [] r [semicolon] [] _ [] [] [] hpaired hsemicolon
      hsemicolon hr hinitializer ⟨rfl, rfl⟩ ⟨rfl, rfl⟩ hstatement

/-- Not every type of a variable is recognised: `for (List<?> x : xs) ;` is refused. -/
theorem wildcard_header_refused :
    ¬ ∀ (nested : Construct → Parser Unit) (s : Scope) (line : Nat) (t l x colon r : Token)
      (as es ts rest : List Token) (gs fs : List Fact),
      t.IsWord "for" → l.IsSign "(" → TypeForm .type as → x.IsIdentifier → colon.IsSign ":" →
      r.IsSign ")" → nested (.expression [")"]) s (es ++ r :: ts) = .ok ⟨(), gs, r :: ts⟩ →
      nested .statement s ts = .ok ⟨(), fs, rest⟩ →
        forStatement nested line s (t :: l :: (as ++ x :: colon :: (es ++ r :: ts))) =
          .ok ⟨(), declaredValue .variableDeclarator s.owner x ++
            (gs ++ .loop ⟨.forEachLoop, line⟩ :: fs), rest⟩ := by
  intro h
  let s : Scope := ⟨none, 1⟩
  let as : List Token := [.word "List" 1, .sign "<" 1, .sign "?" 1, .sign ">" 1]
  have hfor : (Token.word "for" 1).IsWord "for" := ⟨rfl, rfl⟩
  have hl : (Token.sign "(" 1).IsSign "(" := ⟨rfl, rfl⟩
  have has : TypeForm .type as :=
    .named (by decide) (.last (.list ⟨rfl, rfl⟩ (.one (.wildcard ⟨rfl, rfl⟩)) ⟨rfl, rfl⟩))
  have hx : (Token.word "x" 1).IsIdentifier := by decide
  have hcolon : (Token.sign ":" 1).IsSign ":" := ⟨rfl, rfl⟩
  have hr : (Token.sign ")" 1).IsSign ")" := ⟨rfl, rfl⟩
  have hpaired : ColonsPaired [.word "xs" 1] := .token (by decide) (by decide) (by decide) .nil
  have hxs : construct 1 (.expression [")"]) s ([.word "xs" 1] ++ [.sign ")" 1, .sign ";" 1]) = _ :=
    ReadsPlain.upTo (readsPlain_construct 0) [")"] (.inr (.operand (.inl (by decide)))) hr
      (by decide) (by decide) s [.sign ";" 1]
  have hrecorded := h (construct 1) s 1 _ _ _ _ _ as _ _ [] [] [] hfor hl has hx hcolon hr hxs
    (statement_empty ⟨rfl, rfl⟩ s [])
  -- the wildcard uses up the colon, and the header is taken for one with semicolons
  have hforEach := isForEach_used_up has.angleBody (by decide) hx hcolon hpaired hr [.sign ";" 1]
  exact absurd (hrecorded.symm.trans
    (forStatement_colon hfor hl has.readAsType (by decide) hx hcolon hforEach)) nofun

end Parser

end Assay.Source

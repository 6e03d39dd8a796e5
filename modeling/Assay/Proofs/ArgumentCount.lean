import Assay.Proofs.ClassTypes
import Assay.Source.StaticAccess

/-!
# The number of arguments of a call

A call records how many arguments it has, which is told by counting commas: those inside brackets do
not count, nor those between angle brackets that read as type arguments and are confirmed by the
token behind them. `Arguments` is the grammar of argument lists, in which it is part of the rule what
an angle bracket stands for. The main statement is `recorded_arity`: the recorded number is that of
the arguments if comparisons read as type arguments around no comma, and if explicit type arguments
of a call are a single one.
-/

namespace Assay.Source

variable {t l r less greater : Token} {ts as es ns rest : List Token} {n : Nat}

/-! ## Grammar -/

/-- A single type argument. Type arguments that a dot follows in it are again a single one. -/
inductive SingleArgument : List Token → Prop
  | primitive {t : Token} (ht : t.IsValueType) : SingleArgument [t]
  | named {ns : List Token} (hns : DottedName ns) : SingleArgument ns
  | generic {ns as : List Token} {less greater : Token} (hns : DottedName ns)
      (hless : less.IsSign "<") (has : AngleBody as) (hgreater : greater.IsSign ">") :
      SingleArgument (ns ++ less :: (as ++ [greater]))
  | inner {ns as ts : List Token} {less greater dot : Token} (hns : DottedName ns)
      (hless : less.IsSign "<") (has : SingleArgument as) (hgreater : greater.IsSign ">")
      (hdot : dot.IsSign ".") (hts : SingleArgument ts) :
      SingleArgument (ns ++ less :: (as ++ greater :: dot :: ts))
  | array {ts : List Token} {l r : Token} (hts : SingleArgument ts) (hl : l.IsSign "[")
      (hr : r.IsSign "]") : SingleArgument (ts ++ [l, r])
  | wildcard {q : Token} (hq : q.IsSign "?") : SingleArgument [q]
  | bounded {q w : Token} {ts : List Token} (hq : q.IsSign "?")
      (hw : w.IsWord "extends" ∨ w.IsWord "super") (hts : SingleArgument ts) :
      SingleArgument (q :: w :: ts)

/-- What is asked of angle brackets in arguments. -/
structure AngleRules where
  /-- Of the explicit type arguments of a call. -/
  explicit : List Token → Prop
  /-- Of the tokens from a sign on that compares or shifts and is kept. -/
  compared : List Token → Prop

/-- The tokens are an argument of a call, or the end of one, with the given tokens behind it up to
the closing parenthesis. A comma stands only in brackets or in type arguments. The end of an argument
may start inside brackets and close them. -/
inductive Argument (rules : AngleRules) (following : List Token) : List Token → Prop
  | done : Argument rules following []
  | token {t : Token} {ts : List Token} (hopener : t.closer? = none)
      (hcomma : t.spells "," = false) (hless : t.spells "<" = false)
      (hdot : t.spells "." → begins "<" ts = false) (hts : Argument rules following ts) :
      Argument rules following (t :: ts)
  | group {l r : Token} {closer : String} {inside ts : List Token} (hl : l.closer? = some closer)
      (hinside : Bracketed inside) (hr : r.Closes closer) (hts : Argument rules following ts) :
      Argument rules following (l :: (inside ++ r :: ts))
  /-- A created object: `new C<A, B>(...)`. -/
  | creation {new less greater l : Token} {ns as ts : List Token} (hnew : new.IsWord "new")
      (hns : DottedName ns) (hless : less.IsSign "<") (has : AngleBody as)
      (hgreater : greater.IsSign ">") (hl : l.IsSign "(")
      (hts : Argument rules following (l :: ts)) :
      Argument rules following (new :: (ns ++ less :: (as ++ greater :: l :: ts)))
  /-- A method reference: `C<A, B>::k`. -/
  | reference {less greater colons : Token} {ns as ts : List Token} (hns : DottedName ns)
      (hless : less.IsSign "<") (has : AngleBody as) (hgreater : greater.IsSign ">")
      (hcolons : colons.IsSign "::") (hts : Argument rules following ts) :
      Argument rules following (ns ++ less :: (as ++ greater :: colons :: ts))
  /-- A call with explicit type arguments: `q.<A, B>k(...)`. -/
  | explicit {dot less greater k l : Token} {as ts : List Token} (hdot : dot.IsSign ".")
      (hless : less.IsSign "<") (has : AngleBody as) (hexplicit : rules.explicit as)
      (hgreater : greater.IsSign ">") (hk : k.IsIdentifier) (hl : l.IsSign "(")
      (hts : Argument rules following (l :: ts)) :
      Argument rules following (dot :: less :: (as ++ greater :: k :: l :: ts))
  /-- A sign that compares or shifts. -/
  | compared {less : Token} {ts : List Token} (hless : less.IsSign "<")
      (hcompared : rules.compared (less :: (ts ++ following)))
      (hts : Argument rules following ts) : Argument rules following (less :: ts)
  /-- Signs that compare or shift and read as type arguments, around no comma. -/
  | passed {less : Token} {part ts : List Token} (hless : less.IsSign "<")
      (hcommas : ∀ t ∈ part, t.spells "," = false)
      (hread : confirmedTypeArgumentsRest? (less :: (part ++ (ts ++ following))) =
        some (ts ++ following))
      (hts : Argument rules following ts) : Argument rules following (less :: (part ++ ts))

/-- The tokens are the given number of arguments, separated by commas. -/
inductive Arguments (rules : AngleRules) : Nat → List Token → Prop
  | none : Arguments rules 0 []
  | one {es : List Token} (hbrackets : Bracketed es) (hes : Argument rules [] es) (hne : es ≠ []) :
      Arguments rules 1 es
  | more {comma : Token} {es as : List Token} {n : Nat} (hbrackets : Bracketed es)
      (hes : Argument rules (comma :: as) es) (hcomma : comma.IsSign ",")
      (has : Arguments rules (n + 1) as) : Arguments rules (n + 2) (es ++ comma :: as)

/-- Any type arguments, and any use of the signs that compare and shift. -/
def AngleRules.any : AngleRules := ⟨fun _ => True, fun _ => True⟩

/-- Explicit type arguments that are a single one, and no sign that reads as the start of confirmed
type arguments. -/
def AngleRules.toldApart : AngleRules :=
  ⟨SingleArgument, fun ts => confirmedTypeArgumentsRest? ts = none⟩

theorem Arguments.bracketed {rules : AngleRules} (h : Arguments rules n as) : Bracketed as := by
  induction h with
  | none => exact .nil
  | one hbrackets => exact hbrackets
  | more hbrackets _ hcomma _ ih =>
    exact hbrackets.append (.token (hcomma.isPlain (by decide) (by decide)) ih)

/-! ## Signs taken for type arguments -/

theorem commaCount_sign (hless : less.IsSign "<") (ts : List Token) :
    commaCount (less :: ts) = commaCount ((confirmedTypeArgumentsRest? (less :: ts)).getD ts) := by
  have hopener : less.closer? = none := (hless.isPlain (by decide) (by decide)).1
  conv => lhs; rw [Source.commaCount]
  rw [if_neg (by simp [Token.isOpener, hopener])]
  split
  · next found hfound =>
    rw [if_pos (by simp [hless.spells])] at hfound
    rw [hfound, Option.getD_some]
  · next hfound =>
    rw [if_pos (by simp [hless.spells])] at hfound
    rw [hfound, Option.getD_none]
    simp [hless.spells]

/-- Type arguments are confirmed by what comes behind them. -/
theorem confirmedTypeArgumentsRest?_angleBody (hless : less.IsSign "<") (has : AngleBody as)
    (hgreater : greater.IsSign ">") (rest : List Token) :
    confirmedTypeArgumentsRest? (less :: (as ++ greater :: rest)) =
      (some rest).filter fun rest =>
        rest.isEmpty || startsWith (·.spellsAny afterTypeArguments) rest := by
  rw [confirmedTypeArgumentsRest?, typeArgumentsRest?_less (by simp [hless.spells]),
    has.typeArgumentsRest? Nat.one_pos, typeArgumentsRest?_greater hgreater,
    if_pos (Nat.le_refl 1)]

theorem commaCount_typeArguments (hless : less.IsSign "<") (has : AngleBody as)
    (hgreater : greater.IsSign ">") (ht : t.IsSignOf afterTypeArguments) (rest : List Token) :
    commaCount (less :: (as ++ greater :: t :: rest)) = commaCount (t :: rest) := by
  have hany : t.spellsAny afterTypeArguments = true := ht.spellsAny (List.Subset.refl _)
  rw [commaCount_sign hless, confirmedTypeArgumentsRest?_angleBody hless has hgreater]
  simp [Option.filter, hany]

/-! ## Commas of arguments -/

theorem DottedName.grouped (h : DottedName ns) : Grouped ns := by
  induction h with
  | one ht => exact .identifier ht .nil
  | more ht hdot _ ih => exact .identifier ht (.sign hdot (by decide) ih)

theorem Token.IsValueType.grouped (h : t.IsValueType) : Grouped [t] :=
  .token h.inType.inArguments.isPlain (h.spells _ (by decide)) (h.spells _ (by decide)) .nil

theorem SingleArgument.angleBody (h : SingleArgument ts) : AngleBody ts := by
  induction h with
  | primitive ht => exact .token ht.inType.inArguments .nil
  | named hns => exact hns.angled.angleBody
  | generic hns hless has hgreater =>
    exact hns.angled.angleBody.append (.group hless has hgreater .nil)
  | inner hns hless _ hgreater hdot _ ihas ihts =>
    exact hns.angled.angleBody.append
      (.group hless ihas hgreater (.token (hdot.inArguments (by decide)) ihts))
  | array _ hl hr ih => exact ih.append (.pair hl hr .nil)
  | wildcard hq => exact .token (hq.inArguments (by decide)) .nil
  | bounded hq hw _ ih =>
    have hbound := hw.elim (·.inArguments (by decide)) (·.inArguments (by decide))
    exact .token (hq.inArguments (by decide)) (.token hbound ih)

/-- Type arguments that the token behind them does not confirm have no comma that counts if none does
inside. -/
theorem commaCount_unconfirmed (hless : less.IsSign "<") (has : AngleBody as)
    (hnone : commaCount (as ++ greater :: t :: rest) = commaCount (greater :: t :: rest))
    (hgreater : greater.IsSign ">") (ht : Grouped [t])
    (hunconfirmed : t.spellsAny afterTypeArguments = false) :
    commaCount (less :: (as ++ greater :: t :: rest)) = commaCount rest := by
  have hkept : Grouped [greater, t] := .sign hgreater (by decide) ht
  have hrefused : confirmedTypeArgumentsRest? (less :: (as ++ greater :: t :: rest)) = none := by
    rw [confirmedTypeArgumentsRest?_angleBody hless has hgreater]
    simp [Option.filter, hunconfirmed]
  rw [commaCount_sign hless, hrefused, Option.getD_none, hnone]
  exact hkept.commaCount rest

/-- No comma of a single type argument counts, where another bracket follows it. -/
theorem SingleArgument.commaCount (h : SingleArgument ts) (ht : t.IsSignOf [">", "["])
    (rest : List Token) : commaCount (ts ++ t :: rest) = commaCount (t :: rest) := by
  induction h generalizing t rest with
  | primitive hvalue => exact hvalue.grouped.commaCount _
  | named hns => exact hns.grouped.commaCount _
  | generic hns hless has hgreater =>
    rw [List.append_assoc, List.cons_append, List.append_assoc, List.singleton_append,
      hns.grouped.commaCount, commaCount_typeArguments hless has hgreater (ht.mono (by decide))]
  | @inner ns as ts less greater dot hns hless has hgreater hdot _ ihas ihts =>
    have hname : Grouped [dot] := .sign hdot (by decide) .nil
    rw [List.append_assoc, List.cons_append, List.append_assoc, List.cons_append, List.cons_append,
      hns.grouped.commaCount, commaCount_unconfirmed hless has.angleBody
        (ihas (hgreater.isSignOf (by decide)) _) hgreater hname
          (by simp [Token.spellsAny, hdot.2, afterTypeArguments])]
    exact ihts ht rest
  | @array ts l r _ hl hr ih =>
    have hpair : Grouped [l, r] := .group (hl.opens rfl) .nil (hr.closes (by decide)) .nil
    rw [List.append_assoc]
    exact (ih (hl.isSignOf (by decide)) _).trans (hpair.commaCount _)
  | wildcard hq => exact (Grouped.sign hq (by decide) .nil).commaCount _
  | bounded hq hw _ ih =>
    have hword := hw.elim (Grouped.word · (by decide) .nil) (Grouped.word · (by decide) .nil)
    exact ((Grouped.sign hq (by decide) hword).commaCount _).trans (ih ht rest)

/-- No comma of an argument counts. -/
theorem Argument.commaCount (h : Argument .toldApart rest es) :
    commaCount (es ++ rest) = commaCount rest := by
  induction h with
  | done => rfl
  | token hopener hcomma hless _ _ ih =>
    rw [List.cons_append, commaCount_plain hopener hless, ih, hcomma]
    simp
  | group hl hinside hr _ ih =>
    rw [List.cons_append, List.append_assoc, commaCount_opener hl, List.cons_append,
      hinside.afterGroup hl hr, ih]
  -- type arguments that the token behind them confirms are passed over with their commas
  | @creation new less greater l ns as ts hnew hns hless has hgreater hl _ ih =>
    have hname : Grouped (new :: ns) := .word hnew (by decide) hns.grouped
    have hread := (hname.commaCount _).trans
      ((commaCount_typeArguments hless has hgreater (hl.isSignOf (by decide)) (ts ++ rest)).trans ih)
    simpa using hread
  | @reference less greater colons ns as ts hns hless has hgreater hcolons _ ih =>
    have hcolon : Grouped [colons] := .sign hcolons (by decide) .nil
    have hread := (hns.grouped.commaCount _).trans ((commaCount_typeArguments hless has hgreater
      (hcolons.isSignOf (by decide)) (ts ++ rest)).trans ((hcolon.commaCount _).trans ih))
    simpa using hread
  -- those that it does not confirm are a single argument, so they have no comma that counts
  | @explicit dot less greater k l as ts hdot hless has hexplicit hgreater hk hl _ ih =>
    have hstart : Grouped [dot] := .sign hdot (by decide) .nil
    have hread := (hstart.commaCount _).trans ((commaCount_unconfirmed hless has
      (SingleArgument.commaCount hexplicit (hgreater.isSignOf (by decide)) _) hgreater
      (.identifier hk .nil) (hk.spellsAny _ (by decide))).trans ih)
    simpa using hread
  | compared hless hcompared _ ih =>
    rw [List.cons_append, commaCount_sign hless, hcompared, Option.getD_none, ih]
  | passed hless _ hread _ ih =>
    rw [List.cons_append, List.append_assoc, commaCount_sign hless, hread, Option.getD_some, ih]

theorem argumentCount_eq (hne : as ≠ []) : argumentCount as = commaCount as + 1 := by
  rw [Source.argumentCount, if_neg (by simpa using hne)]

/-- The number of arguments is counted. -/
theorem Arguments.argumentCount (h : Arguments .toldApart n as) : argumentCount as = n := by
  induction h with
  | none => rfl
  | one _ hes hne =>
    have hcount := hes.commaCount
    rw [List.append_nil, Source.commaCount] at hcount
    rw [argumentCount_eq hne, hcount]
  | @more comma es as n _ hes hcomma has ih =>
    have hne : as ≠ [] := by
      rintro rfl
      cases ih
    have hplain := (hcomma.isPlain (by decide) (by decide)).1
    rw [argumentCount_eq hne] at ih
    rw [argumentCount_eq (by simp), hes.commaCount,
      commaCount_plain hplain (by simp [hcomma.spells])]
    simp only [hcomma.spells, beq_self_eq_true, if_true]
    omega

/-! ## What is recorded -/

/-- A call goes to the one method of its name if it has as many arguments as that has parameters,
and else to none that is declared. -/
theorem KnownNames.resolveMethod_single {k : KnownNames} {m : Declaration} (a : MemberAccess)
    (hm : k.methods.filter (·.name == a.name) = [m]) (hfixed : m.varargs = false)
    (harity : a.arity = some n) :
    k.resolveMethod a =
      if m.arity = n then (if m.isStatic then .static else .nonStatic)
      else if a.qualifierKind = .none ∧ a.name ∈ k.staticImports then .static
      else .unknown .undeclaredMethod := by
  have hcandidates : (k.methods.filter fun m => m.name == a.name && accepts a.arity m) =
      [m].filter (accepts a.arity) := by
    rw [← hm, List.filter_filter]
    exact List.filter_congr fun m _ => Bool.and_comm _ _
  rw [resolveMethod, hcandidates, harity]
  by_cases heq : m.arity = n
  · cases hstatic : m.isStatic <;> simp [accepts, heq, hstatic]
  · simp [accepts, heq, hfixed]

/-- The recorded number of arguments of a call is the number it is written with, and a call of the
only method of a name is resolved by it. -/
theorem recorded_arity (hl : l.IsSign "(") (hr : r.IsSign ")") (has : Arguments .toldApart n as)
    (s : Scope) (rest : List Token) :
    Parser.argumentsAhead s (l :: (as ++ r :: rest)) = .ok ⟨n, [], l :: (as ++ r :: rest)⟩ ∧
      ∀ nested name qualifier kind line,
        let a : MemberAccess := ⟨.method, name, qualifier, kind, line, some n⟩
        Parser.call nested name qualifier kind line s (l :: (as ++ r :: rest)) =
            recording [.access a] (Parser.parenthesized nested s (l :: (as ++ r :: rest))) ∧
          ∀ (k : KnownNames) (m : Declaration), k.methods.filter (·.name == name) = [m] →
            m.varargs = false →
              k.resolveMethod a =
                if m.arity = n then (if m.isStatic then .static else .nonStatic)
                else if kind = .none ∧ name ∈ k.staticImports then .static
                else .unknown .undeclaredMethod := by
  have hcount : Parser.argumentsAhead s (l :: (as ++ r :: rest)) =
      .ok ⟨n, [], l :: (as ++ r :: rest)⟩ := by
    rw [Parser.argumentsAhead_apply hl hr has.bracketed, has.argumentCount]
  refine ⟨hcount, fun nested name qualifier kind line => ⟨?_, fun k m hm hfixed => ?_⟩⟩
  · rw [Parser.call, Parser.bind_of_ok hcount, recording_nil]
    exact Parser.bind_of_ok (a := ()) rfl
  · exact k.resolveMethod_single _ hm hfixed rfl

/-- The call `m(new C<A, B>(x), a < b[i >> c], q.<A>k(x))` has three arguments. -/
theorem recorded_arity_three :
    let created : List Token := [.word "new" 1, .word "C" 1, .sign "<" 1, .word "A" 1, .sign "," 1,
      .word "B" 1, .sign ">" 1, .sign "(" 1, .word "x" 1, .sign ")" 1]
    let compared : List Token := [.word "a" 1, .sign "<" 1, .word "b" 1, .sign "[" 1, .word "i" 1,
      .sign ">" 1, .sign ">" 1, .word "c" 1, .sign "]" 1]
    let called : List Token := [.word "q" 1, .sign "." 1, .sign "<" 1, .word "A" 1, .sign ">" 1,
      .word "k" 1, .sign "(" 1, .word "x" 1, .sign ")" 1]
    let arguments := created ++ .sign "," 1 :: (compared ++ .sign "," 1 :: called)
    Parser.argumentsAhead ⟨none, 1⟩ (.sign "(" 1 :: (arguments ++ [.sign ")" 1])) =
      .ok ⟨3, [], .sign "(" 1 :: (arguments ++ [.sign ")" 1])⟩ := by
  intro created compared called arguments
  have hgroup : ∀ {following}, Argument .toldApart following
      [.sign "(" 1, .word "x" 1, .sign ")" 1] :=
    .group rfl (.token (by decide) .nil) ⟨rfl, rfl⟩ .done
  have hcreated : Argument .toldApart (.sign "," 1 :: (compared ++ .sign "," 1 :: called)) created :=
    .creation ⟨rfl, rfl⟩ (.one (by decide)) ⟨rfl, rfl⟩
      (.token (.inl (by decide)) (.token (.inr (by decide)) (.token (.inl (by decide)) .nil)))
      ⟨rfl, rfl⟩ ⟨rfl, rfl⟩ hgroup
  -- the comparison and the first sign of the shift read as type arguments
  have hshifted : Argument .toldApart (.sign "," 1 :: called)
      [.sign ">" 1, .word "c" 1, .sign "]" 1] :=
    .token (by decide) (by decide) (by decide) (by decide)
      (.token (by decide) (by decide) (by decide) (by decide)
        (.token (by decide) (by decide) (by decide) (by decide) .done))
  have hpart : ∀ t ∈ [Token.word "b" 1, .sign "[" 1, .word "i" 1, .sign ">" 1],
      t.spells "," = false := by decide
  have hcompared : Argument .toldApart (.sign "," 1 :: called) compared :=
    .token (by decide) (by decide) (by decide) (by decide)
      (Argument.passed ⟨rfl, rfl⟩ hpart rfl hshifted)
  have hcalled : Argument .toldApart [] called :=
    .token (by decide) (by decide) (by decide) (by decide)
      (.explicit ⟨rfl, rfl⟩ ⟨rfl, rfl⟩ (.token (.inl (by decide)) .nil) (.named (.one (by decide)))
        ⟨rfl, rfl⟩ (by decide) ⟨rfl, rfl⟩ hgroup)
  have harguments : Arguments .toldApart 3 arguments :=
    .more (by decide) hcreated ⟨rfl, rfl⟩ (.more (by decide) hcompared ⟨rfl, rfl⟩
      (.one (by decide) hcalled (by decide)))
  exact (recorded_arity ⟨rfl, rfl⟩ ⟨rfl, rfl⟩ harguments ⟨none, 1⟩ []).1

/-- Neither condition on angle brackets can be left out: `m(q.<A, B>k(x))` is recorded with two
arguments, and `m(a < b, c > (d))` with one. -/
theorem arity_miscounted :
    let explicit : List Token := [.word "q" 1, .sign "." 1, .sign "<" 1, .word "A" 1, .sign "," 1,
      .word "B" 1, .sign ">" 1, .word "k" 1, .sign "(" 1, .word "x" 1, .sign ")" 1]
    let compared : List Token := [.word "a" 1, .sign "<" 1, .word "b" 1, .sign "," 1, .word "c" 1,
      .sign ">" 1, .sign "(" 1, .word "d" 1, .sign ")" 1]
    (Arguments .any 1 explicit ∧ argumentCount explicit = 2) ∧
      (Arguments .any 2 compared ∧ argumentCount compared = 1) ∧
      ¬ ∀ n as, Arguments .any n as → argumentCount as = n := by
  intro explicit compared
  have hgroup : ∀ word : String, (Token.word word 1).IsPlain → ∀ {following},
      Argument .any following [.sign "(" 1, .word word 1, .sign ")" 1] := fun word hword _ =>
    .group rfl (.token hword .nil) ⟨rfl, rfl⟩ .done
  -- explicit type arguments of one argument, whose comma is counted
  have hcalled : Argument .any [] explicit :=
    .token (by decide) (by decide) (by decide) (by decide)
      (.explicit ⟨rfl, rfl⟩ ⟨rfl, rfl⟩
        (.token (.inl (by decide)) (.token (.inr (by decide)) (.token (.inl (by decide)) .nil)))
        trivial ⟨rfl, rfl⟩ (by decide) ⟨rfl, rfl⟩ (hgroup "x" (by decide)))
  have hexplicit : Arguments .any 1 explicit := .one (by decide) hcalled (by decide)
  -- two comparisons whose angles are taken for type arguments, so their comma is not
  have hfirst : Argument .any (.sign "," 1 :: [.word "c" 1, .sign ">" 1, .sign "(" 1, .word "d" 1,
      .sign ")" 1]) [.word "a" 1, .sign "<" 1, .word "b" 1] :=
    .token (by decide) (by decide) (by decide) (by decide) (.compared ⟨rfl, rfl⟩ trivial
      (.token (by decide) (by decide) (by decide) (by decide) .done))
  have hsecond : Argument .any [] [.word "c" 1, .sign ">" 1, .sign "(" 1, .word "d" 1,
      .sign ")" 1] :=
    .token (by decide) (by decide) (by decide) (by decide)
      (.token (by decide) (by decide) (by decide) (by decide) (hgroup "d" (by decide)))
  have hcompared : Arguments .any 2 compared :=
    .more (by decide) hfirst ⟨rfl, rfl⟩ (.one (by decide) hsecond (by decide))
  have hmiscounted : argumentCount explicit = 2 := by decide +kernel
  refine ⟨⟨hexplicit, hmiscounted⟩, ⟨hcompared, by decide +kernel⟩, fun h => ?_⟩
  exact absurd (hmiscounted.symm.trans (h 1 explicit hexplicit)) (by decide)

end Assay.Source

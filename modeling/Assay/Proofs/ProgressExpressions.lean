import Assay.Proofs.FactConsistency

/-!
# Expressions make progress

The parsers of expressions make progress and what they record fits together, if that holds of the
parsers of the constructs inside. A construct may open another at the same token, but not for ever: a
statement opens an expression, an expression an array initialiser, and an array initialiser nothing.
The rank of a construct counts these steps.
-/

namespace Assay.Source

open Assay.Source.Parser

/-- The facts recorded in a scope fit together. -/
def consistency : Law where
  Holds s facts := Consistent s.owner facts
  nil _ := .nil
  append := .append

/-- How many constructs can be open at one token, the construct among them. -/
def Construct.rank : Construct → Nat
  | .arrayInitializer => 1
  | .expression _ => 2
  | .statement | .member => 3

/-- Only an expression can be empty. -/
def Construct.IsSolid : Construct → Prop
  | .expression _ => False
  | _ => True

/-- Within the budget, the parsers of the constructs inside make progress. -/
def Sturdy (budget : Nat) (nested : Construct → Parser Unit) : Prop :=
  ∀ c spent, c.rank ≤ spent → Runs consistency budget spent (fun _ => c.IsSolid) (nested c)

variable {t u : Token} {ts rest : List Token} {d k : Nat} {nested : Construct → Parser Unit}
  {moves : Unit → Prop} {α : Type} {m : α → Prop} {p : Parser α}

/-- What is recorded inside a type, under a condition on what that is good for around it. -/
theorem RunsAt.within {type : Enclosing}
    (hfacts : ∀ s facts, Consistent type.name facts → consistency.Holds s facts)
    (h : RunsAt consistency d k m ts p) : RunsAt consistency d k m ts (Parser.within type p) := by
  intro hproper hbudget s
  have hinside : Settles { s with enclosing := some type } ts p _ := h hproper hbudget _
  exact hinside.mono fun r _ hr => ⟨hr.1, hfacts s _ hr.2⟩

namespace Sturdy

/-- A nested statement takes its tokens on a budget of three. -/
theorem nestedStatement (h : Sturdy d nested) (hk : 3 ≤ k) :
    Takes consistency d k (nested .statement) := h .statement k hk

/-- A nested member takes its tokens on a budget of three. -/
theorem nestedMember (h : Sturdy d nested) (hk : 3 ≤ k) :
    Takes consistency d k (nested .member) := h .member k hk

/-- A nested array initializer takes its tokens on a budget of one. -/
theorem nestedArray (h : Sturdy d nested) (hk : 1 ≤ k) :
    Takes consistency d k (nested .arrayInitializer) := h .arrayInitializer k hk

/-- A nested expression keeps to its tokens on a budget of two. -/
theorem nestedExpression (h : Sturdy d nested) (stop : List String) (hk : 2 ≤ k) :
    Keeps consistency d k (nested (.expression stop)) := h (.expression stop) k hk

/-- An argument list takes its parenthesis. -/
theorem parenthesized (h : Sturdy d nested) : Takes consistency d k (Parser.parenthesized nested) :=
  (Takes.expect "(").step fun _ => (h.nestedExpression [] (by omega)).bind fun _ =>
    (Takes.expect ")").keeps

/-- A block takes its brace. -/
theorem block (h : Sturdy d nested) : Takes consistency d k (Parser.block nested) :=
  (Takes.expect "\x7b").step fun _ =>
    (Keeps.untilSees "\x7d" (h.nestedStatement (by omega))).bind fun _ =>
    (Takes.expect "\x7d").keeps

/-- A class body takes its brace. -/
theorem classBody (h : Sturdy d nested) : Takes consistency d k (Parser.classBody nested) :=
  (Takes.expect "\x7b").step fun _ =>
    (Keeps.untilSees "\x7d" (h.nestedMember (by omega))).bind fun _ =>
    (Takes.expect "\x7d").keeps

/-- The body of an anonymous class takes its brace. -/
theorem anonymousBody (h : Sturdy d nested) : Takes consistency d k (Parser.anonymousBody nested) :=
  fun ts => .within (fun _ _ hfacts => hfacts.anonymous) (h.classBody ts)

/-- An expression statement takes its semicolon. -/
theorem expressionStatement (h : Sturdy d nested) (hk : 2 ≤ k) :
    Takes consistency d k (Parser.expressionStatement nested) :=
  (h.nestedExpression [";"] (by omega)).bind fun _ => Takes.expect ";"

/-- What follows the label of a case takes its arrow or its colon. -/
theorem caseRest (h : Sturdy d nested) : Takes consistency d k (Parser.caseRest nested) :=
  .seesSkip ((Keeps.sees "\x7b").bind fun _ => .cond h.block.keeps <| (Keeps.sees "throw").bind fun _ =>
    .cond (h.nestedStatement (by omega)).keeps (h.expressionStatement (by omega)).keeps)
      (Takes.expect ":")

/-- The block of a switch takes its brace. -/
theorem switchBlock (h : Sturdy d nested) : Takes consistency d k (Parser.switchBlock nested) := by
  refine (Takes.expect "\x7b").step fun _ => .bind (Keeps.untilSees "\x7d" ?_) fun _ =>
    (Takes.expect "\x7d").keeps
  exact .seesSkip ((h.nestedExpression _ (by omega)).bind fun _ => h.caseRest.keeps) <|
    .seesSkip h.caseRest.keeps (h.nestedStatement (by omega))

/-- An array initializer takes its brace. -/
theorem arrayInitializer (h : Sturdy d nested) :
    Takes consistency d k (Parser.arrayInitializer nested) := by
  refine (Takes.expect "\x7b").step fun _ => .bind (Keeps.untilSeesAt "\x7d" fun ts hbrace => ?_)
    fun _ => (Takes.expect "\x7d").keeps
  refine .choose (fun _ => Takes.skip ts) fun hcomma =>
    .choose (fun _ => h.nestedArray (by omega) ts) fun _ => ?_
  -- an empty expression is followed by what it was followed by before
  refine .checked (h.nestedExpression _ (by omega)) ?_ fun _ => ⟨nofun, .inl rfl⟩
  cases ts with
  | nil => rfl
  | cons t ts =>
    rw [begins_cons] at hbrace hcomma
    simp [hbrace, hcomma]

end Sturdy

/-! ## Accesses -/

/-- The qualifier is one that a member can be selected from, chains of names apart. -/
def Selects (qualifier : String) (kind : QualifierKind) : Prop :=
  (kind = .expression ∧ qualifier = "") ∨ (kind = .this ∧ qualifier = "this") ∨
    (kind = .super ∧ qualifier = "super")

/-- An access of a selected member is well formed, and its qualifier is no name. -/
theorem Selects.shaped {qualifier : String} {kind : QualifierKind} (h : Selects qualifier kind)
    {a : MemberAccess} (harity : (a.kind = .field ∧ a.arity = none) ∨
      (a.kind = .method ∧ ∃ n, a.arity = some n))
    (hqualifier : a.qualifier = qualifier) (hkind : a.qualifierKind = kind) :
    a.Shaped ∧ a.qualifierKind ≠ .name := by
  rcases h with ⟨rfl, rfl⟩ | ⟨rfl, rfl⟩ | ⟨rfl, rfl⟩ <;>
    refine ⟨⟨harity, ?_, ?_, ?_, ?_, ?_⟩, ?_⟩ <;> simp [hkind, hqualifier]

namespace Sturdy

/-- A call whose qualifier is no chain of names. -/
theorem call (h : Sturdy d nested) {name qualifier : String} {kind : QualifierKind} {line : Nat}
    (hkind : kind ≠ .name)
    (hshaped : ∀ n, MemberAccess.Shaped ⟨.method, name, qualifier, kind, line, some n⟩) :
    Takes consistency d k (Parser.call nested name qualifier kind line) :=
  Keeps.argumentsAhead.bind fun n =>
    (Keeps.record fun _ => Consistent.access (hshaped n) hkind).bind fun _ => h.parenthesized

/-- A selected member takes its name. -/
theorem selected (h : Sturdy d nested) {qualifier : String} {kind : QualifierKind}
    (hselects : Selects qualifier kind) :
    Takes consistency d k (Parser.selected nested qualifier kind) := by
  refine Takes.name.step fun t => (Keeps.sees "(").bind fun _ => .cond ?_ ?_
  · have hshaped := fun n => hselects.shaped
      (a := ⟨.method, t.text, qualifier, kind, t.line, some n⟩) (.inr ⟨rfl, n, rfl⟩) rfl rfl
    exact (h.call (hshaped 0).2 fun n => (hshaped n).1).keeps
  · have hshaped := hselects.shaped (a := ⟨.field, t.text, qualifier, kind, t.line, none⟩)
      (.inl ⟨rfl, rfl⟩) rfl rfl
    exact Keeps.record fun _ => Consistent.access hshaped.1 hshaped.2

/-- What follows `this` or `super` takes the word. -/
theorem thisOrSuper (h : Sturdy d nested) (hts : startsWith (·.spellsAny ["this", "super"]) ts) :
    RunsAt consistency d k moves ts (Parser.thisOrSuper nested) := by
  refine .next_bind fun t us hus _ => ?_
  have hselects : Selects t.text
      (if t.text == "this" then QualifierKind.this else QualifierKind.super) := by
    subst hus
    have hwords := (Bool.and_eq_true_iff.1 hts).2
    by_cases hthis : t.text = "this"
    · rw [hthis]
      exact .inr (.inl ⟨rfl, rfl⟩)
    · have hsuper : t.text = "super" := by simpa [hthis] using hwords
      rw [hsuper]
      exact .inr (.inr ⟨rfl, rfl⟩)
  refine .ahead fun ts => .ite (fun _ => h.parenthesized.keeps ts) fun _ =>
    .ite (fun _ => ?_) fun _ => .ite (fun _ => ?_) fun _ => Runs.pure _ (by simp) ts
  · exact (Takes.skip ts).step fun _ => Takes.skipTypeArguments.keeps.bind fun _ =>
      (h.selected hselects).keeps
  · exact (Takes.skip ts).step fun _ => (h.selected hselects).keeps

end Sturdy

/-- The names of a chain have no dots inside. -/
theorem Settles.chainSegments (hproper : Proper ts) (s : Scope) :
    Settles s ts Parser.chainSegments fun r => (∀ name ∈ r.value, '.' ∉ name.toList) ∧ r.facts = [] := by
  refine .gather fun us hus => .still (ahead_apply s us) ?_
  have husproper := hproper.of_suffix hus
  have hstop : Settles s us (pure none : Parser (Option String)) fun r =>
      (∀ a, r.value = some a → r.rest.length < us.length ∧ '.' ∉ a.toList) ∧ r.facts = [] :=
    .of_ok (pure_apply _ s us) (List.suffix_refl us) ⟨nofun, rfl⟩
  -- a segment is a name of the text, directly behind the dot or behind type arguments
  have hgo : ∀ {t : Token} {rest : List Token}, t ∈ us → t.isName → rest <:+ us →
      rest.length < us.length → Settles s us (do resumeAt rest; return some t.text) fun r =>
        (∀ a, r.value = some a → r.rest.length < us.length ∧ '.' ∉ a.toList) ∧ r.facts = [] := by
    intro t rest ht hname hsuffix hlt
    refine .of_ok (bind_of_ok (resumeAt_apply rest s us)) hsuffix ⟨?_, rfl⟩
    rintro _ ⟨⟩
    exact ⟨hlt, (husproper t ht (Bool.and_eq_true_iff.1 hname).1).2⟩
  match us with
  | [] => exact hstop
  | [_] => exact hstop
  | dot :: t :: rest =>
    refine .ite (fun _ => .ite (fun hname => ?_) fun _ => .ite (fun _ => ?_) fun _ => hstop)
      fun _ => hstop
    · exact hgo (by simp) hname ⟨[dot, t], rfl⟩ (by simp only [List.length_cons]; omega)
    · cases harguments : typeArgumentsRest? 0 (t :: rest) with
      | none => exact hstop
      | some after =>
        cases after with
        | nil => exact hstop
        | cons segment after =>
          have hsuffix : segment :: after <:+ dot :: t :: rest :=
            (typeArgumentsRest?_suffix harguments).trans (List.suffix_cons dot _)
          refine .ite (fun hname => ?_) fun _ => hstop
          refine hgo (hsuffix.subset List.mem_cons_self) hname
            ((List.suffix_cons segment after).trans hsuffix) ?_
          have := hsuffix.length_le
          simp only [List.length_cons] at this ⊢
          omega

namespace Sturdy

/-- A call through a chain of names, whose last access comes before it. -/
theorem chainCall (h : Sturdy d nested) {first : String} {names : List String} {name : String}
    {line : Nat} (hfirst : first ≠ "" ∧ '.' ∉ first.toList)
    (hnames : ∀ name ∈ names, '.' ∉ name.toList) :
    Keeps consistency d k (do
      recordAll (chainFields line first names)
      Parser.call nested name (String.intercalate "." (first :: names)) .name line) := by
  intro ts hproper hbudget s
  refine Settles.bind (Q := fun r => r = ⟨(), chainFields line first names, ts⟩)
    (.of_ok (recordAll_apply _ s ts) (List.suffix_refl ts) rfl) ?_
  rintro _ - rfl
  refine (Runs.settles (fun _ => Keeps.argumentsAhead) hproper s).silently fun n hsuffix _ => ?_
  let access : MemberAccess :=
    ⟨.method, name, String.intercalate "." (first :: names), .name, line, some n.value⟩
  refine Settles.bind (Q := fun r => r = ⟨(), [.access access], n.rest⟩)
    (.of_ok (record_apply _ s n.rest) (List.suffix_refl _) rfl) ?_
  rintro _ - rfl
  have hlength := hsuffix.length_le
  refine (h.parenthesized (k := k) n.rest (hproper.of_suffix hsuffix) (by omega) s).mono
    fun r _ hr => ⟨False.elim, ?_⟩
  -- the call is qualified by the chain before it, which is not empty
  have hshaped : access.Shaped := by
    refine ⟨.inr ⟨rfl, n.value, rfl⟩, nofun, nofun, nofun, nofun, fun _ => ?_⟩
    show String.intercalate "." (first :: names) ≠ ""
    rw [← chainText_one]
    exact chainText_ne_empty hfirst.1 names
  have hchain : Consistent s.owner (chainFields line first names ++ [.access access]) :=
    Consistent.chainAccess hfirst hnames hshaped rfl (chainText_one first names).symm
  have hall := hchain.append hr.2
  rwa [List.append_assoc] at hall

/-- A chain of names takes its first name. -/
theorem nameChain (h : Sturdy d nested) : Takes consistency d k (Parser.nameChain nested) := by
  refine fun ts => .name_bind fun first us _ _ hfirst => ?_
  intro ts hproper hbudget s
  refine (Settles.chainSegments hproper s).silently fun a hsuffix hmore => ?_
  obtain ⟨more, facts, rest⟩ := a
  have hlength : rest.length ≤ ts.length := hsuffix.length_le
  -- what comes after the chain runs well on any tokens, so those that are left need not be known
  refine Settles.mono (Q := fun r => (False → r.rest.length < rest.length) ∧
    consistency.Holds s r.facts) ((?_ : Keeps consistency d (k + 3) _) rest
      (hproper.of_suffix hsuffix) (by omega) s) fun r _ hr => ⟨False.elim, hr.2⟩
  have hchain : ∀ {names : List String}, (∀ name ∈ names, '.' ∉ name.toList) →
      Keeps consistency d (k + 3) (recordAll (chainFields first.line first.text names)) :=
    fun hnames ts => .still (fun s => ⟨_, recordAll_apply _ s ts, rfl, .chain hfirst hnames⟩)
      fun _ => id
  have hbefore : ∀ name ∈ more.dropLast, '.' ∉ name.toList :=
    fun name hname => hmore name (List.dropLast_subset more hname)
  refine .ahead fun ts => .ite (fun _ => ?_) fun _ => .ite (fun _ => ?_) fun _ => ?_
  · exact .resumeAt (List.drop_suffix 2 ts) fun _ => False.elim
  · cases more.getLast? with
    | none =>
      have hcall : Takes consistency d (k + 3)
          (Parser.call nested first.text "" .none first.line) := h.call (by simp) fun n =>
        ⟨.inr ⟨rfl, n, rfl⟩, fun _ => ⟨rfl, rfl⟩, by simp, by simp, by simp, by simp⟩
      exact (hchain hbefore).bind (fun _ => hcall.keeps) ts
    | some last => exact h.chainCall hfirst hbefore ts
  · refine .after (fun s => ⟨_, recordAll_apply _ s ts, .chain hfirst hmore⟩) ?_
    refine .ite (fun hthis => ?_) fun _ => Runs.pure _ (by simp) ts
    obtain ⟨hdot, hthis⟩ := Bool.and_eq_true_iff.1 hthis
    obtain ⟨dot, rest, rfl, -⟩ := begins_eq_true hdot
    obtain ⟨t, rest, rfl, ht⟩ := begins_eq_true hthis
    exact .skip_bind (h.thisOrSuper (by simp [ht]))

/-- A selector takes its dot. -/
theorem selector (h : Sturdy d nested) : Takes consistency d k (Parser.selector nested) := by
  refine (Takes.expect ".").step fun _ => Keeps.skipOptionalTypeArguments.bind fun _ =>
    .ahead fun ts => ?_
  refine .ite (fun _ => Runs.pure _ (by simp) ts) fun _ => .ite (fun _ => Takes.skip.keeps ts) fun _ =>
    .ite (fun hword => h.thisOrSuper ?_) fun _ => (h.selected (.inl ⟨rfl, rfl⟩)).keeps ts
  rcases Bool.or_eq_true_iff.1 hword with hword | hword <;>
    obtain ⟨t, rest, rfl, ht⟩ := begins_eq_true hword <;> simp [ht]

end Sturdy

/-! ## Parts of expressions -/

/-- The name of a creation keeps to its tokens. -/
theorem Keeps.createdName {L : Law} : Keeps L d k Parser.createdName := by
  refine Keeps.skipOptionalTypeArguments.bind fun _ => Keeps.skipAnnotations.bind fun _ =>
    .ahead fun ts => .ite (fun _ => Takes.skip.keeps ts) fun _ => ?_
  refine Takes.name.discard.keeps.bind (fun _ => Keeps.skipOptionalTypeArguments.bind fun _ =>
    Keeps.repeatWhile (.ahead fun ts => .ite (fun hdot => ?_) fun _ => Runs.pure _ (by simp) ts)) ts
  exact .step (.resumeAt (List.drop_suffix 2 ts) fun _ _ => length_drop_two hdot) fun _ =>
    Keeps.skipOptionalTypeArguments.bind fun _ => .pure _ (by simp)

/-- A declared value keeps the facts together. -/
theorem Keeps.declareValue {kind : DeclarationKind}
    (hkind : kind = .parameter ∨ kind = .variableDeclarator) :
    Keeps consistency d k (Parser.declareValue kind t) :=
  fun ts => .still (fun s => ⟨_, declareValue_apply kind t s ts, rfl, .declaredValue hkind⟩) fun _ => id

/-- A type test takes its word. -/
theorem Takes.instanceTest : Takes consistency d k Parser.instanceTest := by
  refine Takes.skip.step fun _ => (Keeps.modifiers localModifiers).discard.bind fun _ =>
    Takes.type.keeps.bind fun _ => .ahead fun ts => .ite (fun _ => ?_) fun _ => Runs.pure _ (by simp) ts
  exact Takes.next.keeps.bind (fun u => Keeps.record fun _ => Consistent.value) ts

namespace Sturdy

/-- A creation takes its word. -/
theorem creation (h : Sturdy d nested) : Takes consistency d k (Parser.creation nested) := by
  refine (Takes.expect "new").step fun _ => Keeps.createdName.bind fun _ =>
    (Keeps.sees "(").bind fun _ => .cond ?_ ?_
  · exact h.parenthesized.keeps.bind fun _ => (Keeps.sees "\x7b").bind fun _ =>
      .cond h.anonymousBody.keeps (.pure _ (by simp))
  · refine .bind (Keeps.repeatWhile ?_) fun _ => (Keeps.sees "\x7b").bind fun _ =>
      .cond (h.nestedArray (by omega)).keeps (.pure _ (by simp))
    exact .seesSkip ((Keeps.sees "]").bind fun _ => .when (h.nestedExpression _ (by omega)) fun _ =>
      (Takes.expect "]").keeps.bind fun _ => .pure _ (by simp)) (.pure _ (by simp))

/-- A round that begins at a parenthesis runs out of no budget. -/
theorem fromParenthesis (h : Sturdy d nested) {moves : Bool → Prop} (ts : List Token) :
    RunsAt consistency d k moves (t :: ts) (Parser.fromParenthesis nested ts) := by
  refine .group fun inside rest hsuffix hlt => .ite (fun _ => ?_) fun _ => ?_
  · refine .after (fun s => ⟨_, forM_declareValue _ _ s _, ?_⟩) <|
      .step (.resumeAt hsuffix fun _ _ => hlt) fun _ => .pure _ (by simp)
    exact .parameterFacts ⟨_, rfl, rfl⟩
  · cases hcast : castRest? ts with
    | none => exact h.parenthesized.step (fun _ => .pure _ (by simp)) _
    | some operand =>
      have hoperand := castRest?_suffix hcast
      refine .step (.resumeAt (hoperand.trans (List.suffix_cons t ts)) fun _ _ => ?_) fun _ =>
        .pure _ (by simp)
      exact Nat.lt_succ_of_le hoperand.length_le

/-- A round of an expression runs out of no budget. -/
theorem expressionPart (h : Sturdy d nested) (stop : List String) (afterArrow : Bool)
    {moves : Bool → Prop} (hk : 1 ≤ k) :
    RunsAt consistency d k moves (t :: ts) (Parser.expressionPart nested stop afterArrow t ts) := by
  have hskip : Takes consistency d k Parser.skip := Takes.skip
  unfold Parser.expressionPart
  -- no form of a part returns without taking its first token
  refine .ite (fun _ => (h.fromParenthesis ts).step fun _ => .pure _ (by simp)) fun _ =>
    .ite (fun _ => hskip.step (fun _ => .pure _ (by simp)) _) fun _ => ?_
  refine .ite (fun _ => ?_) fun _ => .ite (fun _ => .ite (fun _ => ?_) fun _ => ?_) fun _ =>
    .ite (fun _ => ?_) fun _ => .ite (fun _ => ?_) fun _ => .ite (fun _ => ?_) fun _ =>
    .ite (fun _ => ?_) fun _ => .ite (fun ht => ?_) fun _ => .ite (fun _ => ?_) fun _ =>
    .ite (fun _ => .ite (fun _ => ?_) fun _ => ?_) fun _ => ?_
  · exact hskip.step (fun _ => (h.nestedExpression _ (by omega)).bind fun _ =>
      (Takes.expect "]").keeps.bind
      fun _ => .pure _ (by simp)) _
  · exact h.block.step (fun _ => .pure _ (by simp)) _
  · exact (h.nestedArray hk).step (fun _ => .pure _ (by simp)) _
  · exact hskip.step (fun _ => Keeps.skipOptionalTypeArguments.bind fun _ => Takes.skip.keeps.bind
      fun _ => .pure _ (by simp)) _
  · exact h.selector.step (fun _ => .pure _ (by simp)) _
  · exact h.creation.step (fun _ => .pure _ (by simp)) _
  · exact hskip.step (fun _ => h.parenthesized.keeps.bind fun _ => h.switchBlock.keeps.bind fun _ =>
      .pure _ (by simp)) _
  · exact (h.thisOrSuper (by simpa using ht)).step fun _ => .pure _ (by simp)
  · exact Takes.instanceTest.step (fun _ => .pure _ (by simp)) _
  · exact Takes.name.step (fun t => (Keeps.declareValue (.inl rfl)).bind fun _ =>
      .pure _ (by simp)) _
  · exact h.nameChain.step (fun _ => .pure _ (by simp)) _
  · exact hskip.step (fun _ => .pure _ (by simp)) _

/-- An expression keeps to its tokens. -/
theorem expression (h : Sturdy d nested) (stop : List String) (hk : 1 ≤ k) :
    Keeps consistency d k (Parser.expression nested stop) := by
  refine Keeps.iterate (fun afterArrow => .ahead fun ts => ?_) false
  cases ts with
  | nil =>
    have hend : ∀ _ : String, Fault.unexpectedEnd.IsFair := fun _ => ⟨nofun, .inr rfl⟩
    exact Runs.failAhead hend _
  | cons t ts =>
    exact .ite (fun _ => Runs.pure _ (by simp) _) fun _ =>
      (h.expressionPart stop afterArrow hk).step fun _ => .pure _ (by simp)

end Sturdy

end Assay.Source

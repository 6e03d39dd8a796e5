import Assay.Proofs.ProgressHeader

/-!
# Parsers that pay for what they record

A fact is told by marks of tokens: a loop by its keyword, a call by its parenthesis, a declaration by
a name. `Pays` says of a parser that it pays for the facts it records with the marks of tokens it
reads, so that no mark is used twice; marks of tokens read before may be held to pay with, and some may
be left. Looking ahead reads nothing and so pays for nothing. There is a rule for each way of building
parsers.
-/

namespace Assay.Source

open Assay.Source.Parser

/-! ## Marks -/

/-- What a fact can be told by: a given word or sign, or an identifier. -/
inductive Mark
  | word (text : String)
  | identifier
  deriving DecidableEq

/-- The token has the mark. -/
def Token.bears (t : Token) : Mark → Bool
  | .word text => t.spells text
  | .identifier => t.isIdentifier

/-- The marks that a declaration is told by. -/
def DeclarationKind.needs : DeclarationKind → List Mark
  | .method | .constructor => [.word "(", .identifier]
  | _ => [.identifier]

/-- The marks that a loop is told by. -/
def LoopKind.needs : LoopKind → List Mark
  | .forLoop | .forEachLoop => [.word "for"]
  | .whileLoop => [.word "while"]
  | .doLoop => [.word "while", .word "do"]

/-- The marks that an access is told by, given what stands before its dot. -/
def AccessKind.needs : AccessKind → QualifierKind → List Mark
  | .method, .none => [.word "("]
  | .method, _ => [.word "(", .word "."]
  | .field, _ => [.word "."]

/-- The marks that a fact is told by. -/
def Fact.needs : Fact → List Mark
  | .declaration d => d.kind.needs
  | .loop l => l.kind.needs
  | .catchClause _ => [.word "catch"]
  | .access a => a.kind.needs a.qualifierKind
  | .value _ | .field _ _ | .importOf _ => []

/-- How often the mark is found on the tokens. -/
def supply (ts : List Token) (m : Mark) : Nat := ts.countP (·.bears m)

/-- How often the facts are told by the mark. -/
def demand (facts : List Fact) (m : Mark) : Nat := (facts.flatMap Fact.needs).count m

variable {α β : Type} {t : Token} {ts us rest : List Token} {held mid marks : List Mark}
  {left : α → List Mark} {owed : β → List Mark} {p q : Parser α} {f : α → Parser β}
  {word : String} {m : Mark} {fact : Fact} {facts before after : List Fact}

/-- No facts demand anything. -/
@[simp] theorem demand_nil (m : Mark) : demand [] m = 0 := rfl

/-- Demands of two parts add up. -/
@[simp] theorem demand_append : demand (before ++ after) m = demand before m + demand after m := by
  rw [demand, List.flatMap_append, List.count_append]
  rfl

/-- No tokens supply anything. -/
@[simp] theorem supply_nil (m : Mark) : supply [] m = 0 := rfl

/-- A token supplies every mark that it bears, once. -/
theorem supply_cons : supply (t :: ts) m = supply ts m + if t.bears m then 1 else 0 :=
  List.countP_cons

/-- Supplies of two parts add up. -/
@[simp] theorem supply_append : supply (ts ++ us) m = supply ts m + supply us m :=
  List.countP_append

/-- An end of the tokens supplies no more than the whole. -/
theorem supply_le_of_suffix (h : us <:+ ts) : supply us m ≤ supply ts m := h.sublist.countP_le

/-! ## Payments -/

/-- The facts are paid for with the marks that are held and those of the tokens before the rest, and
there are marks left to pay with. -/
def Paid (held : List Mark) (ts : List Token) (facts : List Fact) (rest : List Token)
    (left : List Mark) : Prop :=
  rest <:+ ts ∧
    ∀ m, demand facts m + supply rest m + left.count m ≤ supply ts m + held.count m

namespace Paid

variable {left : List Mark}

/-- Nothing is recorded, whatever is read. -/
theorem of_suffix (h : rest <:+ ts) : Paid held ts [] rest held := by
  refine ⟨h, fun m => ?_⟩
  have hsupply : supply rest m ≤ supply ts m := supply_le_of_suffix h
  rw [demand_nil]
  omega

/-- Two payments in a row are one: what is left over of the first is held for the second. -/
theorem trans (h : Paid held ts before us mid) (h' : Paid mid us after rest left) :
    Paid held ts (before ++ after) rest left := by
  refine ⟨h'.1.trans h.1, fun m => ?_⟩
  have hfirst := h.2 m
  have hnext := h'.2 m
  rw [demand_append]
  omega

/-- Facts that are recorded before the marks for them are there. -/
theorem recordBefore (h : Paid held ts after rest (before.flatMap Fact.needs ++ left)) :
    Paid held ts (before ++ after) rest left := by
  refine ⟨h.1, fun m => ?_⟩
  have hpays := h.2 m
  rw [List.count_append] at hpays
  rw [demand_append, demand]
  omega

/-- Facts are paid for with marks that are held. -/
theorem recorded (facts : List Fact) (ts : List Token) (held : List Mark) :
    Paid (facts.flatMap Fact.needs ++ held) ts facts ts held := by
  refine ⟨List.suffix_refl ts, fun m => ?_⟩
  rw [List.count_append, demand]
  omega

/-- A token that is read gives its mark. -/
theorem token (ht : t.bears m) (ts : List Token) (held : List Mark) :
    Paid held (t :: ts) [] ts (m :: held) := by
  refine ⟨List.suffix_cons t ts, fun n => ?_⟩
  rw [demand_nil, supply_cons, List.count_cons]
  by_cases hn : m = n
  · subst hn
    simp only [ht, beq_self_eq_true, if_true]
    omega
  · rw [if_neg (by simpa using hn)]
    omega

/-- Marks that are not needed are kept. -/
theorem spare (h : Paid held ts facts rest left) (marks : List Mark) :
    Paid (marks ++ held) ts facts rest left := by
  refine ⟨h.1, fun m => ?_⟩
  have hpays := h.2 m
  rw [List.count_append]
  omega

/-- A mark that is left over may be forgotten. -/
theorem forget (h : Paid held ts facts rest (m :: left)) : Paid held ts facts rest left := by
  refine ⟨h.1, fun n => ?_⟩
  have hpays := h.2 n
  rw [List.count_cons] at hpays
  omega

/-- The order of the marks that are left does not matter. -/
theorem perm {left' : List Mark} (h : Paid held ts facts rest left) (hleft : left.Perm left') :
    Paid held ts facts rest left' := by
  refine ⟨h.1, fun m => ?_⟩
  rw [← hleft.count_eq]
  exact h.2 m

end Paid

/-- On the given tokens, the parser pays for the facts it records with the marks that are held and
those of tokens it reads, and it leaves marks to pay with. -/
def PaysAt (held : List Mark) (left : α → List Mark) (ts : List Token) (p : Parser α) : Prop :=
  Proper ts → ∀ s r, p s ts = .ok r → Paid held ts r.facts r.rest (left r.value)

/-- On any tokens, the parser pays for the facts it records. -/
def Pays (held : List Mark) (left : α → List Mark) (p : Parser α) : Prop :=
  ∀ ts, PaysAt held left ts p

/-- The parser pays for the facts it records with marks of the tokens it reads. -/
abbrev Covers (held : List Mark) (p : Parser α) : Prop := Pays held (fun _ => held) p

/-! ## Sequences and choices -/

/-- A sequence pays on given tokens if its parts do, the second with what the first leaves over. -/
theorem PaysAt.bind {mid : α → List Mark} (hp : PaysAt held mid ts p)
    (hf : ∀ a, Pays (mid a) owed (f a)) : PaysAt held owed ts (p >>= f) := by
  intro hproper s r hr
  obtain ⟨a, ha, b, hb, rfl⟩ := bind_eq_ok.1 hr
  have hfirst := hp hproper s a ha
  exact hfirst.trans (hf a.value a.rest (hproper.of_suffix hfirst.1) s b hb)

/-- A sequence pays if its parts do, the second with what the first leaves over. -/
theorem Pays.bind {mid : α → List Mark} (hp : Pays held mid p) (hf : ∀ a, Pays (mid a) owed (f a)) :
    Pays held owed (p >>= f) := fun ts => (hp ts).bind hf

/-- A choice pays on given tokens if the branch that is taken does. -/
theorem PaysAt.ite {c : Prop} [Decidable c] (hp : c → PaysAt held left ts p)
    (hq : ¬ c → PaysAt held left ts q) : PaysAt held left ts (if c then p else q) := by
  by_cases hc : c
  · rw [if_pos hc]
    exact hp hc
  · rw [if_neg hc]
    exact hq hc

/-- A choice pays if both branches do. -/
theorem Pays.cond {c : Prop} [Decidable c] (hp : Pays held left p) (hq : Pays held left q) :
    Pays held left (if c then p else q) := fun ts => .ite (fun _ => hp ts) fun _ => hq ts

/-- A part that may be missing. -/
theorem Pays.when {p : Parser Unit} {f : Unit → Parser β} {c : Prop} [Decidable c]
    (hp : Covers held p) (hf : ∀ a, Pays held owed (f a)) :
    Pays held owed (if c then p >>= f else f ()) := .cond (hp.bind hf) (hf ())

/-- Marks that are not needed may be held as well. -/
theorem PaysAt.spare (marks : List Mark) (h : PaysAt held left ts p) :
    PaysAt (marks ++ held) left ts p := fun hproper s r hr => (h hproper s r hr).spare marks

/-- A parser pays also where more marks are held than it needs. -/
theorem Pays.spare (marks : List Mark) (h : Pays held left p) : Pays (marks ++ held) left p :=
  fun ts => (h ts).spare marks

/-- A mark that is left need not be kept. -/
theorem Pays.forget (h : Pays held (fun a => m :: left a) p) : Pays held left p :=
  fun ts hproper s r hr => (h ts hproper s r hr).forget

/-! ## What records nothing -/

/-- A parser that records nothing. -/
theorem Pays.silent {moves : α → Prop} (h : ∀ d, Runs silent d 0 moves p) : Covers held p := by
  intro ts hproper s r hr
  obtain ⟨hsuffix, -, hfacts⟩ := (Runs.settles h hproper s).ok hr
  rw [hfacts]
  exact .of_suffix hsuffix

/-- What is left may depend on the value that is given. -/
theorem Pays.give (left : α → List Mark) (a : α) : Pays (left a) left (Pure.pure a : Parser α) := by
  intro ts _ s r hr
  cases hr
  exact .of_suffix (List.suffix_refl ts)

/-- To read nothing costs nothing. -/
theorem Pays.pure (a : α) : Covers held (Pure.pure a : Parser α) :=
  .give (fun _ => held) a

/-- A parser that fails at the next token owes nothing. -/
theorem Pays.failAhead (fault : String → Fault) :
    Pays held left (Parser.failAhead fault : Parser α) := by
  intro ts _ s r hr
  cases ts <;> cases hr

/-- A parser that fails on a line owes nothing. -/
theorem Pays.failOn (line : Nat) (fault : Fault) :
    Pays held left (Parser.failOn line fault : Parser α) := nofun

/-- To look for a word costs nothing. -/
theorem Covers.sees (word : String) : Covers held (Parser.sees word) :=
  .silent fun _ => Keeps.sees word

/-- To look at the line costs nothing. -/
theorem Covers.line : Covers held Parser.line := .silent fun _ => Keeps.line

/-- To look at the scope costs nothing. -/
theorem Covers.scope : Covers held Parser.scope := .silent fun _ => Keeps.scope

/-- To pass over a token costs nothing. -/
theorem Covers.skip : Covers held Parser.skip := .silent fun _ => Takes.skip

/-- To read a token costs nothing. -/
theorem Covers.next : Covers held Parser.next := .silent fun _ => Takes.next

/-- To read a given word costs nothing. -/
theorem Covers.expect (word : String) : Covers held (Parser.expect word) :=
  .silent fun _ => Takes.expect word

/-- To look at the tokens costs nothing, and what follows may use them. -/
theorem PaysAt.ahead {f : List Token → Parser β} (h : PaysAt held owed ts (f ts)) :
    PaysAt held owed ts (Parser.ahead >>= f) := by
  intro hproper s r hr
  rw [bind_of_ok (ahead_apply s ts), recording_nil] at hr
  exact h hproper s r hr

/-- To look at the tokens costs nothing, whichever they are. -/
theorem Pays.ahead {f : List Token → Parser β} (h : ∀ ts, PaysAt held owed ts (f ts)) :
    Pays held owed (Parser.ahead >>= f) := fun ts => .ahead (h ts)

/-- A choice by whether a word is next. -/
theorem Pays.choose {f : Bool → Parser α} (hseen : ∀ ts, begins word ts → PaysAt held left ts (f true))
    (hunseen : Pays held left (f false)) : Pays held left (Parser.sees word >>= f) := by
  intro ts hproper s r hr
  rw [bind_of_ok (sees_apply word s ts), recording_nil] at hr
  cases hword : begins word ts with
  | true => exact hseen ts hword hproper s r (by rwa [hword] at hr)
  | false => exact hunseen ts hproper s r (by rwa [hword] at hr)

/-- What comes after the line of the next token was asked for. -/
theorem PaysAt.line_bind {f : Nat → Parser β} (h : ∀ line, PaysAt held owed ts (f line)) :
    PaysAt held owed ts (Parser.line >>= f) := by
  intro hproper s r hr
  rw [bind_of_ok (line_apply s ts), recording_nil] at hr
  exact h _ hproper s r hr

/-! ## What records facts -/

/-- Facts are recorded for the marks that they need. -/
theorem Pays.recordAll (facts : List Fact) :
    Pays (facts.flatMap Fact.needs ++ held) (fun _ => held) (Parser.recordAll facts) := by
  intro ts _ s r hr
  cases hr
  exact .recorded facts ts held

/-- A fact is recorded for the marks that it needs. -/
theorem Pays.record (fact : Fact) :
    Pays (fact.needs ++ held) (fun _ => held) (Parser.record fact) := by
  have hall : Pays ([fact].flatMap Fact.needs ++ held) (fun _ => held) (Parser.record fact) :=
    .recordAll [fact]
  rwa [List.flatMap_singleton] at hall

/-- A fact that is recorded before the tokens that tell it are read. -/
theorem Pays.recordBefore {q : Parser α} (h : Pays held (fun a => fact.needs ++ left a) q) :
    Pays held left (Parser.record fact >>= fun _ => q) := by
  intro ts hproper s r hr
  rw [bind_of_ok (record_apply fact s ts)] at hr
  obtain ⟨b, hb, rfl⟩ := recording_eq_ok.1 hr
  refine Paid.recordBefore ?_
  rw [List.flatMap_singleton]
  exact h ts hproper s b hb

/-- A declaration is recorded for the marks that its kind needs. -/
theorem Pays.declareCallable {kind : DeclarationKind} {name : String} {line arity : Nat}
    {varargs isStatic : Bool} : Pays (kind.needs ++ held) (fun _ => held)
      (Parser.declareCallable kind name line arity varargs isStatic) :=
  Covers.scope.bind fun _ => .record _

/-- The declaration of a value is recorded for the marks that its kind needs. -/
theorem Pays.declareValue (kind : DeclarationKind) (t : Token) :
    Pays (kind.needs ++ held) (fun _ => held) (Parser.declareValue kind t) :=
  Pays.declareCallable.bind fun _ => .record (.value t.text)

/-! ## What reads tokens -/

/-- Passing over a word keeps it as a mark. -/
theorem PaysAt.skipSpelled (ht : t.spells word) :
    PaysAt held (fun _ => .word word :: held) (t :: ts) Parser.skip := by
  have hmark : t.bears (.word word) := ht
  intro _ s r hr
  cases hr
  exact .token hmark ts held

/-- A word that is passed over leaves its mark. -/
theorem PaysAt.skipWord (hts : begins word ts) :
    PaysAt held (fun _ => .word word :: held) ts Parser.skip := by
  obtain ⟨t, rest, rfl, ht⟩ := begins_eq_true hts
  exact .skipSpelled ht

/-- To go on at an end of the tokens costs nothing. -/
theorem PaysAt.resumeAt (hsuffix : rest <:+ ts) :
    PaysAt held (fun _ => held) ts (Parser.resumeAt rest) := by
  intro _ s r hr
  cases hr
  exact .of_suffix hsuffix

/-- To forget the value on given tokens changes no payment. -/
theorem PaysAt.discard {left : List Mark} (h : PaysAt held (fun _ => left) ts p) :
    PaysAt held (fun _ => left) ts (Functor.discard p) := by
  intro hproper s r hr
  obtain ⟨a, ha, rfl⟩ := discard_eq_ok hr
  exact h hproper s a ha

/-- To forget the value changes no payment. -/
theorem Pays.discard {left : List Mark} (h : Pays held (fun _ => left) p) :
    Pays held (fun _ => left) (Functor.discard p) := fun ts => (h ts).discard

/-- Reading a word keeps it as a mark. -/
theorem Pays.expect (word : String) : Pays held (fun _ => .word word :: held) (Parser.expect word) :=
  .choose (fun _ hts => .skipWord hts) (.failAhead _)

/-- Reading a name keeps it as a mark. -/
theorem Pays.name : Pays held (fun _ => .identifier :: held) Parser.name := by
  refine .ahead fun ts => .ite (fun hname => ?_) fun _ => Pays.failAhead _ ts
  obtain ⟨t, rest, rfl, hname⟩ := startsWith_eq_true hname
  intro _ s r hr
  cases hr
  have hidentifier : t.bears .identifier := (Bool.and_eq_true_iff.1 hname).1
  exact .token hidentifier rest held

/-- Inside a type a parser pays as outside of it. -/
theorem Pays.within {type : Enclosing} (h : Pays held left p) :
    Pays held left (Parser.within type p) := fun ts hproper _ => h ts hproper _

/-- Reading a word if it is next, and something after it. -/
theorem Pays.seesSkip {f : Unit → Parser α} (hf : Pays held left (f ())) (hq : Pays held left q) :
    Pays held left (do if ← Parser.sees word then Parser.skip >>= f else q) :=
  (Covers.sees word).bind fun _ => .cond (Covers.skip.bind fun _ => hf) hq

/-- Reading a word if it is next or else something other, and what comes after either. -/
theorem Pays.seesJoin {f : Bool → Unit → Parser α} {q : Bool → Parser α}
    (hf : ∀ seen a, Pays held left (f seen a))
    (hq : (∀ seen a, Pays held left (f seen a)) → ∀ seen, Pays held left (q seen)) :
    Pays held left (do
      let seen ← Parser.sees word
      if seen then Parser.skip >>= f seen else q seen) :=
  (Covers.sees word).bind fun seen => .cond (Covers.skip.bind (hf seen)) (hq hf seen)

/-- Reading a word if it is next, and what comes after it in any case. -/
theorem Pays.seesWhen {f : Bool → Unit → Parser α} (hf : ∀ seen a, Pays held left (f seen a)) :
    Pays held left (do
      let seen ← Parser.sees word
      if seen then Parser.skip >>= f seen else f seen ()) :=
  .seesJoin hf fun hf seen => hf seen ()

/-! ## Loops -/

/-- A loop pays for what its rounds record. -/
theorem Covers.iterate {ρ : Type} {round : ρ → Parser (ρ ⊕ β)} (h : ∀ a, Covers held (round a))
    (a : ρ) : Covers held (Parser.iterate round a) := by
  intro ts hproper s r hr
  refine iterate_induction (motive := fun _ ts r => Proper ts → Paid held ts r.facts r.rest held)
    ?_ ?_ hr hproper
  · exact fun a ts _ _ _ hround hproper => h a ts hproper s _ hround
  · intro a ts _ _ rest more hround _ ih hproper
    have hfirst := h a ts hproper s _ hround
    exact hfirst.trans (ih (hproper.of_suffix hfirst.1))

/-- A loop that asks for more pays if its rounds leave what they hold. -/
theorem Covers.repeatWhile {ask : Parser Bool} (h : Covers held ask) :
    Covers held (Parser.repeatWhile ask) := by
  refine Covers.iterate (fun _ => ?_) ()
  exact h.bind fun more => .cond (.pure _) (.pure _)

/-- A loop up to a word pays if what it repeats leaves what it holds. -/
theorem Covers.untilSees {p : Parser Unit} (word : String) (h : Covers held p) :
    Covers held (Parser.untilSees word p) :=
  .repeatWhile <| (Covers.sees word).bind fun _ => .cond (.pure _) <| h.bind fun _ => .pure _

/-- Collecting results of which each leaves a mark. -/
theorem Pays.gather {ask : Parser (Option α)}
    (h : ∀ held, Pays held (fun found => found.toList.map (fun _ => m) ++ held) ask) :
    Pays held (fun found => found.map (fun _ => m) ++ held) (Parser.gather ask) := by
  intro ts
  induction hn : ts.length using Nat.strongRecOn generalizing ts held with
  | ind n ih =>
    subst hn
    intro hproper s r hr
    rcases gather_eq_ok hr with ⟨facts, rest, hask, rfl⟩ | ⟨a, facts, rest, more, hask, hlt, hmore, rfl⟩
    · exact h held ts hproper s _ hask
    · have hfirst := h held ts hproper s _ hask
      have hnext : Paid (m :: held) rest more.facts more.rest
          (more.value.map (fun _ => m) ++ m :: held) :=
        ih _ hlt rest rfl (hproper.of_suffix hfirst.1) s more hmore
      exact (hfirst.trans hnext).perm List.perm_middle

/-- Items behind commas pay if each leaves what it holds. -/
theorem Covers.afterCommas {p : Parser Unit} (h : Covers held p) :
    Covers held (Parser.afterCommas p) :=
  .repeatWhile <| .seesSkip (h.bind fun _ => .pure _) (.pure _)

end Assay.Source

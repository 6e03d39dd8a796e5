import Assay.Proofs.BracketWalk
import Assay.Proofs.LexicalTokens
import Assay.Proofs.Reading

/-!
# Parsers that walk along brackets

`Moves` says of a parser that whatever it reads is a walk along brackets from given closers that are
due to others. There is a rule for each way of building parsers.
-/

namespace Assay.Source

open Assay.Source.Parser

variable {α β : Type} {t u : Token} {ts rest : List Token} {due mid due' : List String}
  {p q : Parser α} {f : α → Parser β} {word closer : String}

/-- What the parser reads of the given tokens is a walk along brackets. -/
def MovesAt (due due' : List String) (ts : List Token) (p : Parser α) : Prop :=
  Lexical ts → ∀ s r, p s ts = .ok r → ∃ read spans, ts = read ++ r.rest ∧ Walk due read spans due'

/-- Whatever the parser reads is a walk along brackets. -/
def Moves (due due' : List String) (p : Parser α) : Prop := ∀ ts, MovesAt due due' ts p

/-- An end of lexical tokens is lexical. -/
theorem Lexical.of_append {read : List Token} (h : Lexical (read ++ rest)) : Lexical rest :=
  fun t ht => h t (List.mem_append_right read ht)

/-- The first of lexical tokens is lexical. -/
theorem Lexical.head (h : Lexical (t :: ts)) : t.IsLexical := h t List.mem_cons_self

/-- What comes behind the first of lexical tokens is lexical. -/
theorem Lexical.tail (h : Lexical (t :: ts)) : Lexical ts := fun u hu => h u (List.mem_cons_of_mem t hu)

/-! ## Sequences and choices -/

/-- A sequence moves along the brackets on given tokens if its parts do. -/
theorem MovesAt.bind (hp : MovesAt due mid ts p) (hf : ∀ a, Moves mid due' (f a)) :
    MovesAt due due' ts (p >>= f) := by
  intro hlexical s r hr
  obtain ⟨a, ha, b, hb, rfl⟩ := bind_eq_ok.1 hr
  obtain ⟨read, spans, hread, hwalk⟩ := hp hlexical s a ha
  obtain ⟨read', spans', hread', hwalk'⟩ :=
    hf a.value a.rest (Lexical.of_append (hread ▸ hlexical)) s b hb
  exact ⟨read ++ read', spans ++ spans', by rw [hread, hread', List.append_assoc],
    hwalk.append hwalk'⟩

/-- A sequence moves along the brackets if its parts do. -/
theorem Moves.bind (hp : Moves due mid p) (hf : ∀ a, Moves mid due' (f a)) :
    Moves due due' (p >>= f) := fun ts => (hp ts).bind hf

/-- A choice moves on given tokens if the branch that is taken does. -/
theorem MovesAt.ite {c : Prop} [Decidable c] (hp : c → MovesAt due due' ts p)
    (hq : ¬ c → MovesAt due due' ts q) : MovesAt due due' ts (if c then p else q) := by
  by_cases hc : c
  · rw [if_pos hc]
    exact hp hc
  · rw [if_neg hc]
    exact hq hc

/-- A choice moves along the brackets if both branches do. -/
theorem Moves.cond {c : Prop} [Decidable c] (hp : Moves due due' p) (hq : Moves due due' q) :
    Moves due due' (if c then p else q) := fun ts => .ite (fun _ => hp ts) fun _ => hq ts

/-- A choice after which both branches go on in the same way. -/
theorem Moves.join {p' : Parser β} {c : Prop} [Decidable c] (hf : ∀ a, Moves mid due' (f a))
    (hp : Moves due mid p) (hp' : (∀ a, Moves mid due' (f a)) → Moves due due' p') :
    Moves due due' (if c then p >>= f else p') := .cond (hp.bind hf) (hp' hf)

/-- A part that may be missing. -/
theorem Moves.when {p : Parser Unit} {f : Unit → Parser β} {c : Prop} [Decidable c]
    (hp : Moves due due p) (hf : ∀ a, Moves due due' (f a)) :
    Moves due due' (if c then p >>= f else f ()) := .join hf hp fun hf => hf ()

/-! ## What reads nothing -/

/-- A parser that leaves the tokens as they are. -/
theorem Moves.still (h : ∀ s ts r, p s ts = .ok r → r.rest = ts) : Moves due due p := by
  intro ts _ s r hr
  exact ⟨[], [], (h s ts r hr).symm, .done⟩

/-- To read nothing leaves the brackets as they are. -/
theorem Moves.pure (a : α) : Moves due due (Pure.pure a : Parser α) := .still fun s ts r hr => by
  cases hr
  rfl

/-- To look for a word leaves the brackets as they are. -/
theorem Moves.sees (word : String) : Moves due due (Parser.sees word) := .still fun s ts r hr => by
  cases hr
  rfl

/-- To look at the line leaves the brackets as they are. -/
theorem Moves.line : Moves due due Parser.line := .still fun s ts r hr => by
  cases hr
  rfl

/-- To look at the scope leaves the brackets as they are. -/
theorem Moves.scope : Moves due due Parser.scope := .still fun s ts r hr => by
  cases hr
  rfl

/-- To record a fact leaves the brackets as they are. -/
theorem Moves.record (fact : Fact) : Moves due due (Parser.record fact) := .still fun s ts r hr => by
  cases hr
  rfl

/-- To record facts leaves the brackets as they are. -/
theorem Moves.recordAll (facts : List Fact) : Moves due due (Parser.recordAll facts) :=
  .still fun s ts r hr => by
    cases hr
    rfl

/-- To record a declaration leaves the brackets as they are. -/
theorem Moves.declareCallable {kind : DeclarationKind} {name : String} {line arity : Nat}
    {varargs isStatic : Bool} :
    Moves due due (Parser.declareCallable kind name line arity varargs isStatic) :=
  Moves.scope.bind fun _ => .record _

/-- To declare a value leaves the brackets as they are. -/
theorem Moves.declareValue (kind : DeclarationKind) (t : Token) :
    Moves due due (Parser.declareValue kind t) := .still fun s ts r hr => by
  rw [declareValue_apply] at hr
  cases hr
  rfl

/-- A parser that fails at the next token moves anywhere. -/
theorem Moves.failAhead (fault : String → Fault) :
    Moves due due' (Parser.failAhead fault : Parser α) := by
  intro ts _ s r hr
  cases ts <;> cases hr

/-- A parser that fails on a line moves anywhere. -/
theorem Moves.failOn (line : Nat) (fault : Fault) :
    Moves due due' (Parser.failOn line fault : Parser α) := nofun

/-- To look at the tokens leaves the brackets as they are, and what follows may use them. -/
theorem MovesAt.ahead {f : List Token → Parser β} (h : MovesAt due due' ts (f ts)) :
    MovesAt due due' ts (Parser.ahead >>= f) := by
  intro hlexical s r hr
  rw [bind_of_ok (ahead_apply s ts), recording_nil] at hr
  exact h hlexical s r hr

/-- To look at the tokens leaves the brackets as they are, whichever they are. -/
theorem Moves.ahead {f : List Token → Parser β} (h : ∀ ts, MovesAt due due' ts (f ts)) :
    Moves due due' (Parser.ahead >>= f) := fun ts => .ahead (h ts)

/-- What comes after a parser that leaves the tokens as they are. -/
theorem MovesAt.still_bind (hp : ∀ s r, p s ts = .ok r → r.rest = ts)
    (hf : ∀ a, MovesAt due due' ts (f a)) : MovesAt due due' ts (p >>= f) := by
  intro hlexical s r hr
  obtain ⟨a, ha, b, hb, rfl⟩ := bind_eq_ok.1 hr
  rw [hp s a ha] at hb
  exact hf a.value hlexical s b hb

/-- A choice by whether a word is next. -/
theorem Moves.choose {f : Bool → Parser α} (hseen : ∀ ts, begins word ts → MovesAt due due' ts (f true))
    (hunseen : Moves due due' (f false)) : Moves due due' (Parser.sees word >>= f) := by
  intro ts hlexical s r hr
  rw [bind_of_ok (sees_apply word s ts), recording_nil] at hr
  cases hword : begins word ts with
  | true => exact hseen ts hword hlexical s r (by rwa [hword] at hr)
  | false => exact hunseen ts hlexical s r (by rwa [hword] at hr)

/-! ## What reads tokens -/

/-- To go on at an end of the tokens moves along the brackets of what is left out. -/
theorem MovesAt.resumeAt
    (h : Lexical ts → ∃ read spans, ts = read ++ rest ∧ Walk due read spans due') :
    MovesAt due due' ts (Parser.resumeAt rest) := by
  intro hlexical s r hr
  cases hr
  exact h hlexical

/-- Going on behind one token that is no bracket. -/
theorem MovesAt.next (ht : t.IsPlain) : MovesAt due due (t :: ts) Parser.next := by
  intro _ s r hr
  cases hr
  exact ⟨[t], [], rfl, .plain ht .done⟩

/-- To forget the value on given tokens changes no move. -/
theorem MovesAt.discard (h : MovesAt due due' ts p) : MovesAt due due' ts (Functor.discard p) := by
  intro hlexical s r hr
  obtain ⟨a, ha, rfl⟩ := discard_eq_ok hr
  exact h hlexical s a ha

/-- To forget the value changes no move. -/
theorem Moves.discard (h : Moves due due' p) : Moves due due' (Functor.discard p) :=
  fun ts => (h ts).discard

/-- To pass over a plain token leaves the brackets as they are. -/
theorem MovesAt.skip (ht : t.IsPlain) : MovesAt due due (t :: ts) Parser.skip :=
  (MovesAt.next ht).discard

/-- Passing over the next token, which satisfies a test that no bracket does. -/
theorem MovesAt.skipIf {test : Token → Bool} (htest : ∀ {t}, test t → t.IsPlain)
    (hts : startsWith test ts) : MovesAt due due ts Parser.skip := by
  cases ts with
  | nil => cases hts
  | cons t ts => exact .skip (htest hts)

/-- To pass over a word that is no bracket leaves the brackets as they are. -/
theorem MovesAt.skipWord (hword : NoBracket word) (hts : begins word ts) :
    MovesAt due due ts Parser.skip := .skipIf (fun ht => Token.isPlain_of_spells ht hword) hts

/-- To pass over a first token that spells no bracket leaves the brackets as they are. -/
theorem MovesAt.skipSpelled (hword : NoBracket word) (ht : t.spells word) :
    MovesAt due due (t :: ts) Parser.skip := .skip (Token.isPlain_of_spells ht hword)

/-- Passing over an opening bracket. -/
theorem MovesAt.skipOpener (hword : bracketPairs.lookup word = some closer) (hsign : word ∈ signs)
    (hts : begins word ts) : MovesAt due (closer :: due) ts Parser.skip := by
  intro hlexical s r hr
  cases ts with
  | nil => cases hts
  | cons t ts =>
    cases hr
    exact ⟨[t], [], rfl, .opener ((hlexical.head.isSign hsign hts).opens hword) .done⟩

/-- What comes after the next token is passed over. -/
theorem MovesAt.skip_bind {f : Unit → Parser β} (ht : t.IsPlain) (hf : MovesAt due due' ts (f ())) :
    MovesAt due due' (t :: ts) (Parser.skip >>= f) := by
  intro hlexical s r hr
  rw [bind_of_ok (skip_cons s t ts), recording_nil] at hr
  obtain ⟨read, spans, hread, hwalk⟩ := hf hlexical.tail s r hr
  exact ⟨t :: read, spans, by rw [hread, List.cons_append], .plain ht hwalk⟩

/-- Reading a word, which may be a bracket. -/
theorem Moves.expectStep (h : ∀ t, t.IsLexical → t.spells word → Walk due [t] [] due') :
    Moves due due' (Parser.expect word) := by
  refine .choose (fun ts hts hlexical s r hr => ?_) (.failAhead _)
  cases ts with
  | nil => cases hts
  | cons t ts =>
    cases hr
    exact ⟨[t], [], rfl, h t hlexical.head hts⟩

/-- To read a word that is no bracket leaves the brackets as they are. -/
theorem Moves.expect (word : String) (hword : NoBracket word) :
    Moves due due (Parser.expect word) :=
  .expectStep fun _ _ ht => .plain (Token.isPlain_of_spells ht hword) .done

/-- To read an opening bracket makes its closing one due. -/
theorem Moves.expectOpener (word : String) (hword : bracketPairs.lookup word = some closer)
    (hsign : word ∈ signs) : Moves due (closer :: due) (Parser.expect word) :=
  .expectStep fun _ hlexical ht => .opener ((hlexical.isSign hsign ht).opens hword) .done

/-- To read a closing bracket pays the one that is due. -/
theorem Moves.expectCloser (closer : String) (hword : closer ∈ closers)
    (hsign : closer ∈ signs) : Moves (closer :: due) due (Parser.expect closer) :=
  .expectStep fun _ hlexical ht => .closer ((hlexical.isSign hsign ht).closes hword) .done

/-- To read a name leaves the brackets as they are. -/
theorem Moves.name : Moves due due Parser.name := by
  refine .ahead fun ts => .ite (fun hname => ?_) fun _ => Moves.failAhead _ ts
  cases ts with
  | nil => cases hname
  | cons t ts => exact .next (Token.isPlain_of_isName hname)

/-- Reading a word if it is next, and something after it. -/
theorem Moves.seesSkip {f : Unit → Parser α} (hword : NoBracket word)
    (hf : Moves due due' (f ())) (hq : Moves due due' q) :
    Moves due due' (do if ← Parser.sees word then Parser.skip >>= f else q) := by
  refine .choose (fun ts hts => ?_) hq
  cases ts with
  | nil => cases hts
  | cons t ts => exact .skip_bind (Token.isPlain_of_spells hts hword) (hf ts)

/-- Reading an opening bracket with more if it is next, and going on in the same way in any case. -/
theorem Moves.seesOpener {f : Unit → Parser α}
    (hword : bracketPairs.lookup word = some closer) (hsign : word ∈ signs)
    (hq : Moves due due' q) (hf : Moves due due' q → Moves (closer :: due) due' (f ())) :
    Moves due due' (do if ← Parser.sees word then Parser.skip >>= f else q) := by
  refine .choose (fun ts hts => ?_) hq
  exact (MovesAt.skipOpener hword hsign hts).bind fun _ => hf hq

/-- Reading a word if it is next or else something other, and what comes after either. -/
theorem Moves.seesJoin {f : Bool → Unit → Parser α} {q : Bool → Parser α}
    (hword : NoBracket word) (hf : ∀ seen a, Moves due due' (f seen a))
    (hq : (∀ seen a, Moves due due' (f seen a)) → ∀ seen, Moves due due' (q seen)) :
    Moves due due' (do
      let seen ← Parser.sees word
      if seen then Parser.skip >>= f seen else q seen) := by
  refine .choose (fun ts hts => ?_) (hq hf false)
  exact (MovesAt.skipWord hword hts).bind (hf true)

/-- Reading a word if it is next, and what comes after it in any case. -/
theorem Moves.seesWhen {f : Bool → Unit → Parser α} (hword : NoBracket word)
    (hf : ∀ seen a, Moves due due' (f seen a)) :
    Moves due due' (do
      let seen ← Parser.sees word
      if seen then Parser.skip >>= f seen else f seen ()) :=
  .seesJoin hword hf fun hf seen => hf seen ()

/-- Inside a type a parser moves as outside of it. -/
theorem Moves.within {type : Enclosing} (h : Moves due due' p) :
    Moves due due' (Parser.within type p) := fun ts hlexical _ => h ts hlexical _

/-! ## Loops -/

/-- A loop walks as far as its rounds do. -/
theorem Moves.iterate {ρ : Type} {round : ρ → Parser (ρ ⊕ β)} (h : ∀ a, Moves due due (round a))
    (a : ρ) : Moves due due (Parser.iterate round a) := by
  intro ts hlexical s r hr
  refine iterate_induction (motive := fun _ ts r => Lexical ts → ∃ read spans,
    ts = read ++ r.rest ∧ Walk due read spans due) ?_ ?_ hr hlexical
  · exact fun a ts _ _ _ hround hlexical => h a ts hlexical s _ hround
  · intro a ts _ _ rest more hround _ ih hlexical
    obtain ⟨read, spans, hread, hwalk⟩ := h a ts hlexical s _ hround
    obtain ⟨read', spans', hread', hwalk'⟩ := ih (Lexical.of_append (hread ▸ hlexical))
    refine ⟨read ++ read', spans ++ spans', ?_, hwalk.append hwalk'⟩
    rw [hread, List.append_assoc]
    exact congrArg (read ++ ·) hread'

/-- A loop that asks for more leaves the brackets as they are if its rounds do. -/
theorem Moves.repeatWhile {ask : Parser Bool} (h : Moves due due ask) :
    Moves due due (Parser.repeatWhile ask) := by
  refine Moves.iterate (fun _ => ?_) ()
  exact h.bind fun more => .cond (.pure _) (.pure _)

/-- A loop up to a word leaves the brackets as they are if what it repeats does. -/
theorem Moves.untilSees {p : Parser Unit} (word : String) (h : Moves due due p) :
    Moves due due (Parser.untilSees word p) :=
  .repeatWhile <| (Moves.sees word).bind fun _ => .cond (.pure _) <| h.bind fun _ => .pure _

/-- Items behind commas leave the brackets as they are if each does. -/
theorem Moves.afterCommas {p : Parser Unit} (h : Moves due due p) :
    Moves due due (Parser.afterCommas p) :=
  .repeatWhile <| .seesSkip (by decide) (h.bind fun _ => .pure _) (.pure _)

/-- A loop that collects leaves the brackets as they are if its rounds do. -/
theorem Moves.gather {ask : Parser (Option α)} (h : Moves due due ask) :
    Moves due due (Parser.gather ask) := by
  refine Moves.iterate (fun found => h.bind fun more => ?_) []
  cases more with
  | none => exact .pure _
  | some a => exact .pure _

end Assay.Source

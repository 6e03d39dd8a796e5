import Assay.Proofs.Word
import Assay.Source.Header

/-!
# How parsers run

The equations by which a parser is run on given tokens: what the primitives do, what a sequence does
after its first part, and what a loop does after one round. Facts that were recorded before are
carried by `recording`.
-/

namespace Assay.Source

variable {α β σ : Type}

deriving instance DecidableEq for Parsed

/-- The outcome of a parser that recorded facts before it. -/
def recording (before : List Fact) (o : Except SourceError (Parsed α)) :
    Except SourceError (Parsed α) :=
  o.map fun r => ⟨r.value, before ++ r.facts, r.rest⟩

/-- What is recorded before a success stands before its facts. -/
@[simp] theorem recording_ok (before : List Fact) (r : Parsed α) :
    recording before (.ok r) = .ok ⟨r.value, before ++ r.facts, r.rest⟩ := rfl

/-- What is recorded before a failure is lost. -/
@[simp] theorem recording_error (before : List Fact) (e : SourceError) :
    recording before (.error e : Except SourceError (Parsed α)) = .error e := rfl

/-- To record nothing before an outcome leaves it as it is. -/
@[simp] theorem recording_nil (o : Except SourceError (Parsed α)) : recording [] o = o := by
  cases o <;> rfl

/-- What is recorded before what is recorded stands first. -/
@[simp] theorem recording_recording (before after : List Fact)
    (o : Except SourceError (Parsed α)) :
    recording before (recording after o) = recording (before ++ after) o := by
  cases o with
  | error => rfl
  | ok r => simp

/-- An outcome with facts before it is good exactly if the outcome is. -/
theorem recording_eq_ok {before : List Fact} {o : Except SourceError (Parsed α)} {r : Parsed α} :
    recording before o = .ok r ↔
      ∃ b, o = .ok b ∧ r = ⟨b.value, before ++ b.facts, b.rest⟩ := by
  cases o with
  | error e => simp
  | ok b => simp [eq_comm]

namespace Parser

variable {s : Scope} {t : Token} {ts rest : List Token} {word : String}

/-! ## Sequences -/

/-- A sequence fails as its first part does, or goes on behind it with the facts of that before. -/
theorem bind_apply (p : Parser α) (f : α → Parser β) (s : Scope) (ts : List Token) :
    (p >>= f) s ts = match p s ts with
      | .error e => .error e
      | .ok a => recording a.facts (f a.value s a.rest) := by
  show Parser.bind p f s ts = _
  unfold Parser.bind
  cases p s ts with
  | error => rfl
  | ok a =>
    cases h : f a.value s a.rest with
    | error => simp [h]
    | ok b => simp [h]

/-- The second parser goes on where the first stopped. -/
theorem bind_of_ok {p : Parser α} {f : α → Parser β} {a : α} {facts : List Fact}
    (h : p s ts = .ok ⟨a, facts, rest⟩) : (p >>= f) s ts = recording facts (f a s rest) := by
  rw [bind_apply, h]

/-- A sequence fails as its first part does. -/
theorem bind_of_error {p : Parser α} {f : α → Parser β} {e : SourceError}
    (h : p s ts = .error e) : (p >>= f) s ts = .error e := by
  rw [bind_apply, h]

/-- A sequence is good exactly if both parsers are. -/
theorem bind_eq_ok {p : Parser α} {f : α → Parser β} {r : Parsed β} :
    (p >>= f) s ts = .ok r ↔
      ∃ a, p s ts = .ok a ∧ ∃ b, f a.value s a.rest = .ok b ∧
        r = ⟨b.value, a.facts ++ b.facts, b.rest⟩ := by
  rw [bind_apply]
  cases p s ts with
  | error e => simp
  | ok a => simp [recording_eq_ok]

/-- A parser that reads something as from elsewhere, behind other facts, goes on as from there. -/
theorem bind_of_recording {p : Parser α} {f : α → Parser β} {facts : List Fact} {us : List Token}
    (h : p s ts = recording facts (p s us)) : (p >>= f) s ts = recording facts ((p >>= f) s us) := by
  rw [bind_apply, bind_apply, h]
  cases p s us with
  | error e => rfl
  | ok r => simp

/-- A sequence does not depend on how its parts are grouped. -/
theorem bind_bind {γ : Type} (p : Parser α) (f : α → Parser β) (g : β → Parser γ) :
    p >>= f >>= g = p >>= fun a => f a >>= g := by
  funext s ts
  rw [bind_apply, bind_apply, bind_apply]
  cases p s ts with
  | error => rfl
  | ok a =>
    simp only [bind_apply]
    cases f a.value s a.rest with
    | error => simp
    | ok b => simp

/-- Reading nothing leaves a sequence as it is. -/
theorem pure_then (a : α) (f : α → Parser β) : (pure a >>= f) = f a := by
  funext s ts
  rw [bind_apply]
  exact recording_nil (f a s ts)

/-! ## Primitives -/

/-- Nothing is read. -/
@[simp] theorem pure_apply (a : α) (s : Scope) (ts : List Token) :
    (pure a : Parser α) s ts = .ok ⟨a, [], ts⟩ := rfl

/-- The tokens ahead are all there are. -/
@[simp] theorem ahead_apply (s : Scope) (ts : List Token) : ahead s ts = .ok ⟨ts, [], ts⟩ := rfl

/-- What is known beside the tokens is the scope. -/
@[simp] theorem scope_apply (s : Scope) (ts : List Token) : scope s ts = .ok ⟨s, [], ts⟩ := rfl

/-- The line ahead is that of the first token, or the last line of the file. -/
@[simp] theorem line_apply (s : Scope) (ts : List Token) :
    line s ts = .ok ⟨lineAt s ts, [], ts⟩ := rfl

/-- The reading goes on where it is told to. -/
@[simp] theorem resumeAt_apply (rest : List Token) (s : Scope) (ts : List Token) :
    resumeAt rest s ts = .ok ⟨(), [], rest⟩ := rfl

/-- One fact is recorded. -/
@[simp] theorem record_apply (fact : Fact) (s : Scope) (ts : List Token) :
    record fact s ts = .ok ⟨(), [fact], ts⟩ := rfl

/-- All the facts are recorded. -/
@[simp] theorem recordAll_apply (facts : List Fact) (s : Scope) (ts : List Token) :
    recordAll facts s ts = .ok ⟨(), facts, ts⟩ := rfl

/-- The first token is read. -/
@[simp] theorem next_cons (s : Scope) (t : Token) (ts : List Token) :
    next s (t :: ts) = .ok ⟨t, [], ts⟩ := rfl

/-- The first token is passed over. -/
@[simp] theorem skip_cons (s : Scope) (t : Token) (ts : List Token) :
    skip s (t :: ts) = .ok ⟨(), [], ts⟩ := rfl

/-- A word is seen if the first token spells it. -/
@[simp] theorem sees_apply (word : String) (s : Scope) (ts : List Token) :
    sees word s ts = .ok ⟨begins word ts, [], ts⟩ := rfl

/-- A parser inside a type is run in the scope of that type. -/
@[simp] theorem within_apply (type : Enclosing) (p : Parser α) (s : Scope) (ts : List Token) :
    within type p s ts = p { s with enclosing := some type } ts := rfl

/-- What is forgotten is only the value. -/
theorem discard_of_ok {p : Parser α} {a : α} {facts : List Fact}
    (h : p s ts = .ok ⟨a, facts, rest⟩) : discard p s ts = .ok ⟨(), facts, rest⟩ := by
  show (p >>= fun _ => pure ()) s ts = _
  rw [bind_of_ok h]
  simp

/-- What gives a value behind a parser. -/
theorem giving_apply (p : Parser α) (b : β) (s : Scope) (ts : List Token) :
    (p >>= fun _ => pure b) s ts = (p s ts).map fun r => ⟨b, r.facts, r.rest⟩ := by
  rw [bind_apply]
  cases p s ts with
  | error e => rfl
  | ok r => simp [Except.map]

/-- What gives a fixed value has read something else before. -/
theorem giving_eq_ok {p : Parser α} {b : β} {r : Parsed β}
    (h : (p >>= fun _ => pure b) s ts = .ok r) : ∃ a, p s ts = .ok a ∧ r = ⟨b, a.facts, a.rest⟩ := by
  rw [giving_apply] at h
  cases hp : p s ts with
  | error e =>
    rw [hp] at h
    cases h
  | ok a =>
    rw [hp] at h
    exact ⟨a, rfl, (Except.ok.inj h).symm⟩

/-- To forget a value changes nothing else. -/
theorem discard_apply (p : Parser α) (s : Scope) (ts : List Token) :
    discard p s ts = (p s ts).map fun r => ⟨(), r.facts, r.rest⟩ := giving_apply p () s ts

/-- What has forgotten its value had one. -/
theorem discard_eq_ok {p : Parser α} {r : Parsed Unit} (h : discard p s ts = .ok r) :
    ∃ a, p s ts = .ok a ∧ r = ⟨(), a.facts, a.rest⟩ := giving_eq_ok h

/-- A word that is expected and comes is read. -/
theorem expect_cons (h : t.spells word) (s : Scope) (ts : List Token) :
    expect word s (t :: ts) = .ok ⟨(), [], ts⟩ := by
  unfold expect
  rw [bind_of_ok (sees_apply word s _), begins_cons, if_pos h]
  rfl

/-- A name that comes is read. -/
theorem name_cons (h : t.isName) (s : Scope) (ts : List Token) :
    name s (t :: ts) = .ok ⟨t, [], ts⟩ := by
  unfold name
  rw [bind_of_ok (ahead_apply s _), startsWith_cons, if_pos h]
  rfl

/-- A word that was expected and read has come. -/
theorem expect_eq_ok {s : Scope} {r : Parsed Unit} (h : expect word s ts = .ok r) :
    ∃ t, ts = t :: r.rest ∧ t.spells word := by
  unfold expect at h
  rw [bind_of_ok (sees_apply word s ts), recording_nil] at h
  cases hword : begins word ts with
  | false =>
    rw [hword] at h
    cases ts <;> cases h
  | true =>
    rw [hword] at h
    obtain ⟨t, rest, rfl, ht⟩ := begins_eq_true hword
    cases h
    exact ⟨t, rfl, ht⟩

/-- A name that was read has come. -/
theorem name_eq_ok {s : Scope} {r : Parsed Token} (h : name s ts = .ok r) :
    ts = r.value :: r.rest ∧ r.value.isName := by
  unfold name at h
  rw [bind_of_ok (ahead_apply s ts), recording_nil] at h
  cases ts with
  | nil => cases h
  | cons t ts =>
    by_cases hname : t.isName
    · rw [startsWith_cons, if_pos hname] at h
      cases h
      exact ⟨rfl, hname⟩
    · rw [startsWith_cons, if_neg hname] at h
      cases h

section Groups

variable {l closer : Token} {inside : List Token}

/-- A group that closes is given in its parts. -/
theorem groupAhead_of_ok (h : splitGroup l.closer?.toList ts = .ok (inside, rest)) (s : Scope) :
    groupAhead s (l :: ts) = .ok ⟨(inside, rest), [], l :: ts⟩ := by
  simp only [groupAhead, h]

/-- A group that is closed by another bracket is the fault of that. -/
theorem groupAhead_of_closer (h : splitGroup l.closer?.toList ts = .error (some closer))
    (s : Scope) :
    groupAhead s (l :: ts) = .error ⟨.unbalancedCloser closer.text, closer.line⟩ := by
  simp only [groupAhead, h]

/-- A group that does not close is the fault of its opening bracket. -/
theorem groupAhead_of_end (h : splitGroup l.closer?.toList ts = .error none) (s : Scope) :
    groupAhead s (l :: ts) = .error ⟨.unbalancedBrackets, l.line⟩ := by
  simp only [groupAhead, h]

/-- A group that is given in its parts closes. -/
theorem groupAhead_eq_ok {r : Parsed (List Token × List Token)} (h : groupAhead s ts = .ok r) :
    ∃ l us inside rest, ts = l :: us ∧ splitGroup l.closer?.toList us = .ok (inside, rest) ∧
      r = ⟨(inside, rest), [], ts⟩ := by
  cases ts with
  | nil => cases h
  | cons l us =>
    cases hsplit : splitGroup l.closer?.toList us with
    | ok parts =>
      rw [groupAhead_of_ok hsplit] at h
      cases h
      exact ⟨l, us, parts.1, parts.2, rfl, hsplit, rfl⟩
    | error e =>
      cases e with
      | none =>
        rw [groupAhead_of_end hsplit] at h
        cases h
      | some closer =>
        rw [groupAhead_of_closer hsplit] at h
        cases h

/-- A group that closes is passed over. -/
theorem skipGroup_of_ok (h : splitGroup l.closer?.toList ts = .ok (inside, rest)) (s : Scope) :
    skipGroup s (l :: ts) = .ok ⟨(), [], rest⟩ := by
  rw [skipGroup, bind_of_ok (groupAhead_of_ok h s)]
  rfl

/-- A group that was passed over closes. -/
theorem skipGroup_eq_ok {r : Parsed Unit} (h : skipGroup s ts = .ok r) :
    ∃ l us inside rest, ts = l :: us ∧ splitGroup l.closer?.toList us = .ok (inside, rest) ∧
      r = ⟨(), [], rest⟩ := by
  obtain ⟨a, ha, b, hb, rfl⟩ := bind_eq_ok.1 h
  obtain ⟨l, us, inside, rest, rfl, hsplit, rfl⟩ := groupAhead_eq_ok ha
  cases hb
  exact ⟨l, us, inside, rest, rfl, hsplit, rfl⟩

end Groups

/-- The parser records the facts and leaves the rest, or it does not start because a given word
comes first, and there is nothing to record. -/
def ReadsUnless (word : String) (p : Parser Unit) (s : Scope) (ts : List Token)
    (facts : List Fact) (rest : List Token) : Prop :=
  if begins word ts then facts = [] ∧ rest = ts else p s ts = .ok ⟨(), facts, rest⟩

/-- A part that may be missing before a word is read or is missing. -/
theorem ReadsUnless.bind {p : Parser Unit} {facts : List Fact}
    (h : ReadsUnless word p s ts facts rest) (k : Unit → Parser β) :
    (do
      let seen ← sees word
      if !seen then p >>= k else k ()) s ts = recording facts (k () s rest) := by
  unfold ReadsUnless at h
  rw [bind_of_ok (sees_apply word s ts), recording_nil]
  by_cases hsees : begins word ts
  · rw [if_pos hsees] at h
    obtain ⟨rfl, rfl⟩ := h
    simp [hsees]
  · rw [if_neg hsees] at h
    simp [hsees, bind_of_ok h]

/-- A callable declaration is recorded in the type around. -/
theorem declareCallable_apply (kind : DeclarationKind) (name : String) (line arity : Nat)
    (varargs isStatic : Bool) (s : Scope) (ts : List Token) :
    declareCallable kind name line arity varargs isStatic s ts =
      .ok ⟨(), [.declaration ⟨kind, name, line, s.owner, arity, varargs, isStatic⟩], ts⟩ := rfl

/-- A declaration is recorded in the type around. -/
theorem declare_apply (kind : DeclarationKind) (name : String) (line : Nat) (s : Scope)
    (ts : List Token) :
    declare kind name line s ts =
      .ok ⟨(), [.declaration ⟨kind, name, line, s.owner, 0, false, false⟩], ts⟩ := rfl

/-- A declared value is recorded twice: as a declaration and as a name that stands for a value. -/
def declaredValue (kind : DeclarationKind) (owner : String) (t : Token) : List Fact :=
  [.declaration ⟨kind, t.text, t.line, owner, 0, false, false⟩, .value t.text]

/-- The declaration of a value records it as a declaration and as a value. -/
@[simp] theorem declareValue_apply (kind : DeclarationKind) (t : Token) (s : Scope)
    (ts : List Token) :
    declareValue kind t s ts = .ok ⟨(), declaredValue kind s.owner t, ts⟩ := rfl

/-- The declarations of several values are recorded in order. -/
theorem forM_declareValue (kind : DeclarationKind) (xs : List Token) (s : Scope)
    (ts : List Token) :
    (forM xs (declareValue kind) : Parser Unit) s ts =
      .ok ⟨(), xs.flatMap (declaredValue kind s.owner), ts⟩ := by
  induction xs with
  | nil => rfl
  | cons x xs ih =>
    show (declareValue kind x >>= fun _ => forM xs (declareValue kind) : Parser Unit) s ts = _
    rw [bind_of_ok (declareValue_apply kind x s ts), ih]
    rfl

/-! ## Loops -/

section Loops

variable {round : σ → Parser (σ ⊕ β)} {state state' : σ} {facts : List Fact} {b : β}

/-- A loop that is done gives the result of its last round. -/
theorem iterate_done (h : round state s ts = .ok ⟨.inr b, facts, rest⟩) :
    iterate round state s ts = .ok ⟨b, facts, rest⟩ := by
  rw [iterate, h]

/-- A round that consumes a token is followed by the rest of the loop. -/
theorem iterate_again (h : round state s ts = .ok ⟨.inl state', facts, rest⟩)
    (hlt : rest.length < ts.length) :
    iterate round state s ts = recording facts (iterate round state' s rest) := by
  rw [iterate, h]
  simp only [if_pos hlt]
  cases iterate round state' s rest with
  | error => rfl
  | ok r => rfl

/-- A loop whose round would not consume a token fails. -/
theorem iterate_stalled (h : round state s ts = .ok ⟨.inl state', facts, rest⟩)
    (hlt : ¬ rest.length < ts.length) :
    iterate round state s ts = .error ⟨.stalled, lineAt s ts⟩ := by
  rw [iterate, h]
  exact if_neg hlt

/-- A loop fails as its first round does. -/
theorem iterate_of_error {e : SourceError} (h : round state s ts = .error e) :
    iterate round state s ts = .error e := by
  rw [iterate, h]

/-- A loop ends with a last round, or goes on behind what a round read. -/
theorem iterate_eq_ok {r : Parsed β} (h : iterate round state s ts = .ok r) :
    (∃ b facts rest, round state s ts = .ok ⟨.inr b, facts, rest⟩ ∧ r = ⟨b, facts, rest⟩) ∨
      ∃ state' facts rest more, round state s ts = .ok ⟨.inl state', facts, rest⟩ ∧
        rest.length < ts.length ∧ iterate round state' s rest = .ok more ∧
        r = ⟨more.value, facts ++ more.facts, more.rest⟩ := by
  cases hround : round state s ts with
  | error e =>
    rw [iterate_of_error hround] at h
    cases h
  | ok a =>
    obtain ⟨state' | b, facts, rest⟩ := a
    · by_cases hlt : rest.length < ts.length
      · rw [iterate_again hround hlt] at h
        obtain ⟨more, hmore, rfl⟩ := recording_eq_ok.1 h
        exact .inr ⟨state', facts, rest, more, rfl, hlt, hmore, rfl⟩
      · rw [iterate_stalled hround hlt] at h
        cases h
    · rw [iterate_done hround] at h
      exact .inl ⟨b, facts, rest, rfl, (Except.ok.inj h).symm⟩

/-- What holds of the last round of a loop, and of a round and the loop behind it, holds of the loop. -/
theorem iterate_induction {motive : σ → List Token → Parsed β → Prop}
    (done : ∀ state ts b facts rest, round state s ts = .ok ⟨.inr b, facts, rest⟩ →
      motive state ts ⟨b, facts, rest⟩)
    (again : ∀ state ts state' facts rest more, round state s ts = .ok ⟨.inl state', facts, rest⟩ →
      rest.length < ts.length → motive state' rest more →
        motive state ts ⟨more.value, facts ++ more.facts, more.rest⟩)
    {r : Parsed β} (h : iterate round state s ts = .ok r) : motive state ts r := by
  induction hn : ts.length using Nat.strongRecOn generalizing state ts r with
  | ind n ih =>
    subst hn
    rcases iterate_eq_ok h with ⟨b, facts, rest, hround, rfl⟩ |
      ⟨state', facts, rest, more, hround, hlt, hmore, rfl⟩
    · exact done state ts b facts rest hround
    · exact again state ts state' facts rest more hround hlt (ih _ hlt hmore rfl)

end Loops

section Repetition

variable {round p : Parser Unit} {ask : Parser Bool} {facts : List Fact}

/-- A loop ends with a round that asks for no other. -/
theorem repeatWhile_done (h : ask s ts = .ok ⟨false, facts, rest⟩) :
    repeatWhile ask s ts = .ok ⟨(), facts, rest⟩ := by
  unfold repeatWhile
  apply iterate_done
  rw [bind_of_ok h]
  simp

/-- A loop goes on behind a round that asks for another and has read a token. -/
theorem repeatWhile_again (h : ask s ts = .ok ⟨true, facts, rest⟩)
    (hlt : rest.length < ts.length) :
    repeatWhile ask s ts = recording facts (repeatWhile ask s rest) := by
  unfold repeatWhile
  refine iterate_again ?_ hlt
  rw [bind_of_ok h]
  simp

/-- Before the word a loop up to it ends. -/
theorem untilSees_done (h : begins word ts) : untilSees word p s ts = .ok ⟨(), [], ts⟩ := by
  unfold untilSees
  apply repeatWhile_done
  rw [bind_of_ok (sees_apply word s ts), if_pos h]
  rfl

/-- Before another word a loop up to a word makes a round. -/
theorem untilSees_again (hword : begins word ts = false)
    (h : p s ts = .ok ⟨(), facts, rest⟩) (hlt : rest.length < ts.length) :
    untilSees word p s ts = recording facts (untilSees word p s rest) := by
  unfold untilSees
  refine repeatWhile_again ?_ hlt
  rw [bind_of_ok (sees_apply word s ts), hword, if_neg (by simp), bind_of_ok h]
  simp

/-- A loop asks once more and is over, or goes on behind what was read. -/
theorem repeatWhile_eq_ok {r : Parsed Unit} (h : repeatWhile ask s ts = .ok r) :
    (∃ facts rest, ask s ts = .ok ⟨false, facts, rest⟩ ∧ r = ⟨(), facts, rest⟩) ∨
      ∃ facts rest more, ask s ts = .ok ⟨true, facts, rest⟩ ∧ rest.length < ts.length ∧
        repeatWhile ask s rest = .ok more ∧ r = ⟨(), facts ++ more.facts, more.rest⟩ := by
  cases hask : ask s ts with
  | error e =>
    rw [repeatWhile, iterate_of_error (bind_of_error hask)] at h
    cases h
  | ok a =>
    obtain ⟨goesOn, facts, rest⟩ := a
    cases goesOn with
    | false =>
      rw [repeatWhile_done hask] at h
      exact .inl ⟨facts, rest, rfl, (Except.ok.inj h).symm⟩
    | true =>
      by_cases hlt : rest.length < ts.length
      · rw [repeatWhile_again hask hlt] at h
        obtain ⟨more, hmore, rfl⟩ := recording_eq_ok.1 h
        exact .inr ⟨facts, rest, more, rfl, hlt, hmore, rfl⟩
      · rw [repeatWhile, iterate_stalled (bind_of_ok hask) hlt] at h
        cases h

/-- A run up to a word: the word is next, or the parser is run and the run goes on. -/
theorem untilSees_eq_ok {r : Parsed Unit} (h : untilSees word p s ts = .ok r) :
    (begins word ts ∧ r = ⟨(), [], ts⟩) ∨
      (begins word ts = false ∧ ∃ facts rest more, p s ts = .ok ⟨(), facts, rest⟩ ∧
        rest.length < ts.length ∧ untilSees word p s rest = .ok more ∧
        r = ⟨(), facts ++ more.facts, more.rest⟩) := by
  cases hword : begins word ts with
  | true =>
    rw [untilSees_done hword] at h
    exact .inl ⟨rfl, (Except.ok.inj h).symm⟩
  | false =>
    rcases repeatWhile_eq_ok h with ⟨facts, rest, hask, -⟩ | ⟨facts, rest, more, hask, hlt, hmore, rfl⟩
    all_goals
      rw [bind_of_ok (sees_apply word s ts), hword, if_neg (by simp), recording_nil] at hask
      obtain ⟨a, hp, heq⟩ := giving_eq_ok hask
      cases heq
    exact .inr ⟨rfl, a.facts, a.rest, more, hp, hlt, hmore, rfl⟩

/-- Without a comma there is no further item. -/
theorem afterCommas_done (h : begins "," ts = false) :
    afterCommas p s ts = .ok ⟨(), [], ts⟩ := by
  unfold afterCommas
  apply repeatWhile_done
  rw [bind_of_ok (sees_apply "," s ts), h, if_neg (by simp)]
  rfl

/-- Behind a comma there is a further item. -/
theorem afterCommas_again (hcomma : t.spells ",")
    (h : p s ts = .ok ⟨(), facts, rest⟩) (hle : rest.length ≤ ts.length) :
    afterCommas p s (t :: ts) = recording facts (afterCommas p s rest) := by
  unfold afterCommas
  refine repeatWhile_again ?_ (Nat.lt_succ_of_le hle)
  rw [bind_of_ok (sees_apply "," s _), begins_cons, if_pos hcomma, bind_of_ok (skip_cons s t ts),
    bind_of_ok h]
  simp

end Repetition

section Collection

variable {round : Parser (Option α)} {facts more : List Fact} {a : α} {found as : List α}

/-- One round of collecting. -/
def collect (round : Parser (Option α)) (found : List α) : Parser (List α ⊕ List α) := do
  match ← round with
  | some a => return .inl (found ++ [a])
  | none => return .inr found

/-- To gather is to loop with what is found so far. -/
theorem gather_eq_iterate (round : Parser (Option α)) :
    gather round = iterate (collect round) [] := rfl

/-- A round that finds something adds it to what is found so far. -/
theorem collect_some (h : round s ts = .ok ⟨some a, facts, rest⟩) (found : List α) :
    collect round found s ts = .ok ⟨.inl (found ++ [a]), facts, rest⟩ := by
  unfold collect
  rw [bind_of_ok h]
  simp

/-- A round that finds nothing ends with what is found so far. -/
theorem collect_none (h : round s ts = .ok ⟨none, facts, rest⟩) (found : List α) :
    collect round found s ts = .ok ⟨.inr found, facts, rest⟩ := by
  unfold collect
  rw [bind_of_ok h]
  simp

/-- What was found before stays in front. -/
theorem iterate_collect_append (before found : List α) (s : Scope) (ts : List Token) :
    iterate (collect round) (before ++ found) s ts =
      (iterate (collect round) found s ts).map fun r => ⟨before ++ r.value, r.facts, r.rest⟩ := by
  induction hn : ts.length using Nat.strongRecOn generalizing found ts with
  | ind n ih =>
    cases hround : round s ts with
    | error e =>
      have failed : ∀ found, collect round found s ts = .error e := fun found =>
        bind_of_error hround
      rw [iterate, failed, iterate, failed]
      rfl
    | ok r =>
      obtain ⟨value, facts, rest⟩ := r
      cases value with
      | none =>
        rw [iterate_done (collect_none hround _), iterate_done (collect_none hround _)]
        rfl
      | some a =>
        by_cases hlt : rest.length < ts.length
        · rw [iterate_again (collect_some hround _) hlt, iterate_again (collect_some hround _) hlt,
            List.append_assoc, ih _ (hn ▸ hlt) _ _ rfl]
          cases iterate (collect round) (found ++ [a]) s rest <;> rfl
        · rw [iterate, collect_some hround, iterate, collect_some hround]
          simp only [if_neg hlt]
          rfl

/-- If the first round finds nothing, nothing is gathered. -/
theorem gather_done (h : round s ts = .ok ⟨none, facts, rest⟩) :
    gather round s ts = .ok ⟨[], facts, rest⟩ :=
  iterate_done (collect_none h [])

/-- What the first round finds comes first. -/
theorem gather_again (h : round s ts = .ok ⟨some a, facts, rest⟩) (hlt : rest.length < ts.length)
    {rest' : List Token} (hmore : gather round s rest = .ok ⟨as, more, rest'⟩) :
    gather round s ts = .ok ⟨a :: as, facts ++ more, rest'⟩ := by
  rw [gather_eq_iterate] at hmore ⊢
  rw [iterate_again (collect_some h []) hlt]
  have hprefix : iterate (collect round) ([a] ++ []) s rest = _ := iterate_collect_append _ _ _ _
  rw [hmore] at hprefix
  rw [List.nil_append]
  exact congrArg (recording facts) hprefix

/-- Results that were collected: none, or a first one and the others. -/
theorem gather_eq_ok {r : Parsed (List α)} (h : gather round s ts = .ok r) :
    (∃ facts rest, round s ts = .ok ⟨none, facts, rest⟩ ∧ r = ⟨[], facts, rest⟩) ∨
      ∃ a facts rest more, round s ts = .ok ⟨some a, facts, rest⟩ ∧ rest.length < ts.length ∧
        gather round s rest = .ok more ∧ r = ⟨a :: more.value, facts ++ more.facts, more.rest⟩ := by
  cases hround : round s ts with
  | error e =>
    rw [gather_eq_iterate, iterate_of_error (bind_of_error hround)] at h
    cases h
  | ok b =>
    obtain ⟨_ | a, facts, rest⟩ := b
    -- a round with no result ends the loop, one with a result goes on if it took a token
    · rw [gather_done hround] at h
      exact .inl ⟨facts, rest, rfl, (Except.ok.inj h).symm⟩
    · by_cases hlt : rest.length < ts.length
      · have hprefix : iterate (collect round) ([a] ++ []) s rest = _ :=
          iterate_collect_append _ _ _ _
        rw [gather_eq_iterate, iterate_again (collect_some hround []) hlt, List.nil_append] at h
        obtain ⟨b, hb, rfl⟩ := recording_eq_ok.1 h
        rw [List.append_nil, hb] at hprefix
        cases hmore : iterate (collect round) [] s rest with
        | error e =>
          rw [hmore] at hprefix
          cases hprefix
        | ok more =>
          rw [hmore] at hprefix
          cases hprefix
          exact .inr ⟨a, facts, rest, more, rfl, hlt, hmore, rfl⟩
      · rw [gather_eq_iterate, iterate_stalled (collect_some hround []) hlt] at h
        cases h

end Collection

end Parser

end Assay.Source

import Assay.Proofs.Reading

/-!
# Parsers that make progress

`Runs` says of a parser how it ends, on any tokens: it leaves an end of them and has recorded facts
that keep a law, or it fails at one of the tokens or on the last line, and never for want of
progress. A parser that fails so is fair. There is a rule for each way of building parsers. A loop
needs more of its rounds: one that asks for another has to read a token.

How deep constructs may be nested is a budget, counted so that every token read pays for three of
them.
-/

namespace Assay.Source

open Assay.Source.Parser

/-! ## Outcomes -/

/-- A condition on the facts recorded in a scope that passes from parts to the whole. -/
structure Law where
  Holds : Scope → List Fact → Prop
  nil (s : Scope) : Holds s []
  append {s : Scope} {before after : List Fact} :
    Holds s before → Holds s after → Holds s (before ++ after)

/-- A fault of the text that is read: neither its tokens nor the reading are at fault. -/
def Fault.IsFair (fault : Fault) : Prop :=
  fault ≠ .stalled ∧ (fault.code = .unexpectedToken ∨ fault.code = .unexpectedEnd)

/-- A fault of the text, on the line of one of the tokens or the last line. -/
def Fair (s : Scope) (ts : List Token) (e : SourceError) : Prop :=
  e.fault.IsFair ∧ (e.line = s.lastLine ∨ ∃ t ∈ ts, e.line = t.line)

/-- The parser leaves an end of the tokens and its result is as stated, or it fails fairly. -/
def Settles {α : Type} (s : Scope) (ts : List Token) (p : Parser α) (Q : Parsed α → Prop) : Prop :=
  match p s ts with
  | .ok r => r.rest <:+ ts ∧ Q r
  | .error e => Fair s ts e

/-- A name is not empty and has no dot inside. -/
def Token.IsProper (t : Token) : Prop := t.isIdentifier → t.text ≠ "" ∧ '.' ∉ t.text.toList

/-- All names are proper. -/
def Proper (ts : List Token) : Prop := ∀ t ∈ ts, t.IsProper

/-- On the given tokens, within the budget, the parser records facts that keep the law, and it has
read a token if its value is a moving one. -/
def RunsAt {α : Type} (L : Law) (budget spent : Nat) (moves : α → Prop) (ts : List Token)
    (p : Parser α) : Prop :=
  Proper ts → 3 * ts.length + spent ≤ budget → ∀ s, Settles s ts p fun r =>
    (moves r.value → r.rest.length < ts.length) ∧ L.Holds s r.facts

/-- The parser runs so on any tokens. -/
def Runs {α : Type} (L : Law) (budget spent : Nat) (moves : α → Prop) (p : Parser α) : Prop :=
  ∀ ts, RunsAt L budget spent moves ts p

/-- The parser may leave the tokens as they are. -/
abbrev Keeps {α : Type} (L : Law) (budget spent : Nat) (p : Parser α) : Prop :=
  Runs L budget spent (fun _ => False) p

/-- The parser reads a token. -/
abbrev Takes {α : Type} (L : Law) (budget spent : Nat) (p : Parser α) : Prop :=
  Runs L budget spent (fun _ => True) p

variable {α β σ : Type} {s : Scope} {t : Token} {ts us rest : List Token} {word : String}
  {p : Parser α} {f : α → Parser β} {Q R : Parsed α → Prop}

/-- Names at the end of proper tokens are proper. -/
theorem Proper.of_suffix (h : Proper ts) (hsuffix : us <:+ ts) : Proper us :=
  fun t ht => h t (hsuffix.subset ht)

/-- A fault that is fair at the end of some tokens is fair on all of them. -/
theorem Fair.of_suffix {e : SourceError} (h : Fair s us e) (hsuffix : us <:+ ts) : Fair s ts e :=
  ⟨h.1, h.2.imp_right fun ⟨t, ht, hline⟩ => ⟨t, hsuffix.subset ht, hline⟩⟩

namespace Settles

/-- What settles settles with a weaker result. -/
theorem mono (h : Settles s ts p Q) (hQ : ∀ r, r.rest <:+ ts → Q r → R r) : Settles s ts p R := by
  unfold Settles at h ⊢
  cases hp : p s ts with
  | error e => simpa only [hp] using h
  | ok r =>
    simp only [hp] at h ⊢
    exact ⟨h.1, hQ r h.1 h.2⟩

/-- What is read to an end of the tokens settles. -/
theorem of_ok {r : Parsed α} (h : p s ts = .ok r) (hsuffix : r.rest <:+ ts) (hr : Q r) :
    Settles s ts p Q := by
  unfold Settles
  rw [h]
  exact ⟨hsuffix, hr⟩

/-- What fails fairly settles. -/
theorem of_error {e : SourceError} (h : p s ts = .error e) (hfair : Fair s ts e) :
    Settles s ts p Q := by
  unfold Settles
  rw [h]
  exact hfair

/-- What settled and was read has left an end of the tokens. -/
theorem ok {r : Parsed α} (h : Settles s ts p Q) (hr : p s ts = .ok r) : r.rest <:+ ts ∧ Q r := by
  unfold Settles at h
  rwa [hr] at h

/-- What settled and failed has failed fairly. -/
theorem error {e : SourceError} (h : Settles s ts p Q) (he : p s ts = .error e) : Fair s ts e := by
  unfold Settles at h
  rwa [he] at h

/-- One parser and then another, which may use what is known of the first. -/
theorem bind {R : Parsed β → Prop} (hp : Settles s ts p Q)
    (hf : ∀ a, a.rest <:+ ts → Q a →
      Settles s a.rest (f a.value) fun b => R ⟨b.value, a.facts ++ b.facts, b.rest⟩) :
    Settles s ts (p >>= f) R := by
  cases hrun : p s ts with
  | error e => exact .of_error (bind_of_error hrun) (hp.error hrun)
  | ok a =>
    obtain ⟨hsuffix, ha⟩ := hp.ok hrun
    have hnext := hf a hsuffix ha
    cases hmore : f a.value s a.rest with
    | error e =>
      refine .of_error ?_ ((hnext.error hmore).of_suffix hsuffix)
      rw [bind_apply, hrun]
      simp only [hmore, recording_error]
    | ok b =>
      obtain ⟨hsuffix', hb⟩ := hnext.ok hmore
      refine .of_ok (r := ⟨b.value, a.facts ++ b.facts, b.rest⟩) ?_ (hsuffix'.trans hsuffix) hb
      rw [bind_apply, hrun]
      simp only [hmore, recording_ok]

/-- What comes after a parser that neither reads nor records. -/
theorem still {R : Parsed β → Prop} {a : α} (hp : p s ts = .ok ⟨a, [], ts⟩)
    (hf : Settles s ts (f a) R) : Settles s ts (p >>= f) R := by
  unfold Settles
  rw [bind_of_ok hp, recording_nil]
  exact hf

/-- A choice settles if the branch that is taken does. -/
theorem ite {c : Prop} [Decidable c] {q : Parser α} (hp : c → Settles s ts p Q)
    (hq : ¬ c → Settles s ts q Q) : Settles s ts (if c then p else q) Q := by
  by_cases hc : c
  · rw [if_pos hc]
    exact hp hc
  · rw [if_neg hc]
    exact hq hc

/-- To fail at the next token is fair if the fault is. -/
theorem failAhead {fault : String → Fault} (h : ∀ text, (fault text).IsFair) :
    Settles s ts (Parser.failAhead fault : Parser α) Q := by
  cases ts with
  | nil => exact ⟨⟨nofun, .inr rfl⟩, .inl rfl⟩
  | cons t ts => exact ⟨h t.text, .inr ⟨t, List.mem_cons_self, rfl⟩⟩

/-- A loop, by what is known before each round of its state and of the facts so far. -/
theorem iterate {round : σ → Parser (σ ⊕ β)} {I : List Fact → σ → Prop} {J : List Fact → β → Prop}
    (hround : ∀ facts a us, us <:+ ts → I facts a → Settles s us (round a) fun r =>
      match r.value with
      | .inl b => r.rest.length < us.length ∧ I (facts ++ r.facts) b
      | .inr b => J (facts ++ r.facts) b)
    (facts : List Fact) {a : σ} (hstart : I facts a) :
    Settles s ts (Parser.iterate round a) fun r => J (facts ++ r.facts) r.value := by
  induction hn : ts.length using Nat.strongRecOn generalizing ts facts a with
  | ind n ih =>
    subst hn
    have hfirst := hround facts a ts (List.suffix_refl ts) hstart
    cases hrun : round a s ts with
    | error e => exact .of_error (iterate_of_error hrun) (hfirst.error hrun)
    | ok m =>
      obtain ⟨hsuffix, hm⟩ := hfirst.ok hrun
      obtain ⟨b | b, found, rest⟩ := m
      · -- a round that asks for another has read a token, so the rest is a shorter loop
        obtain ⟨hlt, hagain⟩ : rest.length < ts.length ∧ I (facts ++ found) b := hm
        have hmore := ih _ hlt (fun facts a us hus => hround facts a us (hus.trans hsuffix)) _ hagain rfl
        have hloop := iterate_again hrun hlt
        cases hrest : Parser.iterate round b s rest with
        | error e =>
          rw [hrest] at hloop
          exact .of_error hloop ((hmore.error hrest).of_suffix hsuffix)
        | ok r =>
          rw [hrest] at hloop
          obtain ⟨hsuffix', hr⟩ := hmore.ok hrest
          refine .of_ok hloop (hsuffix'.trans hsuffix) ?_
          rwa [List.append_assoc] at hr
      · exact .of_ok (iterate_done hrun) hsuffix hm

end Settles

/-! ## Sequences and choices -/

variable {L : Law} {d k k' : Nat} {m m' : α → Prop} {n : β → Prop}

/-- A budget that is spent further is enough before, and fewer values need to have read a token. -/
theorem RunsAt.weaken (h : RunsAt L d k m ts p) (hk : k ≤ k') (hm : ∀ a, m' a → m a) :
    RunsAt L d k' m' ts p := fun hproper hbudget s =>
  (h hproper (by omega) s).mono fun r _ hr => ⟨fun hmoves => hr.1 (hm _ hmoves), hr.2⟩

/-- A parser that runs runs with less left of the budget. -/
theorem Runs.weaken (h : Runs L d k m p) (hk : k ≤ k') (hm : ∀ a, m' a → m a) :
    Runs L d k' m' p := fun ts => (h ts).weaken hk hm

/-- A parser that reads a token may also be one that need not. -/
theorem Takes.keeps (h : Takes L d k p) : Keeps L d k p := h.weaken (Nat.le_refl _) fun _ => False.elim

/-- A parser that reads a token keeps the law on given tokens. -/
theorem RunsAt.keeps (h : RunsAt L d k m ts p) : RunsAt L d k (fun _ => False) ts p :=
  h.weaken (Nat.le_refl _) fun _ => False.elim

/-- A parser that reads a token keeps the law. -/
theorem Runs.keeps (h : Runs L d k m p) : Keeps L d k p := fun ts => (h ts).keeps

/-- With more spent, nothing changes but that a token was read. -/
theorem Runs.later (h : Runs L d k m p) : Keeps L d (k + 3) p :=
  h.weaken (by omega) fun _ => False.elim

/-- One parser and then another, on given tokens, where the second reads what has to be read. -/
theorem RunsAt.bind (hp : RunsAt L d k (fun _ => False) ts p) (hf : ∀ a, Runs L d k n (f a)) :
    RunsAt L d k n ts (p >>= f) := by
  intro hproper hbudget s
  refine (hp hproper hbudget s).bind fun a hsuffix ha => ?_
  have hlength := hsuffix.length_le
  refine (hf a.value a.rest (hproper.of_suffix hsuffix) (by omega) s).mono fun b _ hb => ?_
  exact ⟨fun hmoves => Nat.lt_of_lt_of_le (hb.1 hmoves) hlength, L.append ha.2 hb.2⟩

/-- One parser and then another, where the second reads what has to be read. -/
theorem Runs.bind (hp : Keeps L d k p) (hf : ∀ a, Runs L d k n (f a)) : Runs L d k n (p >>= f) :=
  fun ts => (hp ts).bind hf

/-- What comes after a token was read has three more to spend. -/
theorem RunsAt.step (hp : RunsAt L d k (fun _ => True) ts p) (hf : ∀ a, Keeps L d (k + 3) (f a)) :
    RunsAt L d k n ts (p >>= f) := by
  intro hproper hbudget s
  refine (hp hproper hbudget s).bind fun a hsuffix ha => ?_
  have hlt := ha.1 trivial
  refine (hf a.value a.rest (hproper.of_suffix hsuffix) (by omega) s).mono fun b hsuffix' hb => ?_
  exact ⟨fun _ => Nat.lt_of_le_of_lt hsuffix'.length_le hlt, L.append ha.2 hb.2⟩

/-- What comes behind a token that was read has three more of the budget. -/
theorem Runs.step (hp : Takes L d k p) (hf : ∀ a, Keeps L d (k + 3) (f a)) :
    Runs L d k n (p >>= f) := fun ts => (hp ts).step hf

/-- What comes after a parser that has read a token or left the tokens as they are. -/
theorem RunsAt.bindAt (hp : RunsAt L d k (fun _ => False) ts p) (hf : ∀ a, RunsAt L d k n ts (f a))
    (hkeeps : ∀ a, Keeps L d k (f a)) : RunsAt L d k n ts (p >>= f) := by
  intro hproper hbudget s
  refine (hp hproper hbudget s).bind fun a hsuffix ha => ?_
  have hlength := hsuffix.length_le
  -- either a token is gone, and any way of going on will do, or the tokens are still the given ones
  by_cases hlt : a.rest.length < ts.length
  · refine (hkeeps a.value a.rest (hproper.of_suffix hsuffix) (by omega) s).mono
      fun b hsuffix' hb => ?_
    exact ⟨fun _ => Nat.lt_of_le_of_lt hsuffix'.length_le hlt, L.append ha.2 hb.2⟩
  · have hsame : a.rest = ts := hsuffix.eq_of_length (by omega)
    rw [hsame]
    refine (hf a.value hproper hbudget s).mono fun b _ hb => ?_
    exact ⟨hb.1, L.append ha.2 hb.2⟩

/-- What comes after facts were recorded. -/
theorem RunsAt.after {a : α} (hp : ∀ s, ∃ facts, p s ts = .ok ⟨a, facts, ts⟩ ∧ L.Holds s facts)
    (hf : RunsAt L d k n ts (f a)) : RunsAt L d k n ts (p >>= f) := by
  intro hproper hbudget s
  obtain ⟨facts, hrun, hfacts⟩ := hp s
  refine Settles.bind (Q := fun r => r = ⟨a, facts, ts⟩) (.of_ok hrun (List.suffix_refl ts) rfl) ?_
  rintro _ - rfl
  exact (hf hproper hbudget s).mono fun b _ hb => ⟨hb.1, L.append hfacts hb.2⟩

/-- Two parsers whose facts keep the law together only, and what comes after. -/
theorem Runs.two {γ : Type} {moves : γ → Prop} {q : α → Parser β} {f : β → Parser γ}
    (h : Keeps L d k (p >>= q)) (hf : ∀ b, Runs L d k moves (f b)) :
    Runs L d k moves (p >>= fun a => q a >>= f) := by
  rw [← bind_bind]
  exact h.bind hf

/-- A parser that answers whether it has read something, and another if it has not. -/
theorem RunsAt.unless {p : Parser Bool} {q : Parser Unit} {moves : Unit → Prop}
    (hp : RunsAt L d k (fun done => done = true) ts p) (hq : Runs L d k moves q) :
    RunsAt L d k moves ts (do if !(← p) then q) := by
  intro hproper hbudget s
  refine (hp hproper hbudget s).bind fun a hsuffix ha => ?_
  have hlength := hsuffix.length_le
  obtain ⟨done, facts, rest⟩ := a
  cases done with
  | true =>
    refine .of_ok (pure_apply () s rest) (List.suffix_refl rest) ⟨fun _ => ha.1 rfl, ?_⟩
    rw [List.append_nil]
    exact ha.2
  | false =>
    refine (hq rest (hproper.of_suffix hsuffix) (by simp only at hlength; omega) s).mono
      fun b _ hb => ⟨fun hmoves => Nat.lt_of_lt_of_le (hb.1 hmoves) hlength, L.append ha.2 hb.2⟩

/-- A value that is passed on in another form. -/
theorem RunsAt.convert (hp : RunsAt L d k m ts p) (hf : ∀ a, ∃ b, f a = pure b ∧ (n b → m a)) :
    RunsAt L d k n ts (p >>= f) := by
  intro hproper hbudget s
  refine (hp hproper hbudget s).bind fun a _ ha => ?_
  obtain ⟨b, hb, hmoves⟩ := hf a.value
  rw [hb]
  refine .of_ok (pure_apply b s a.rest) (List.suffix_refl _) ⟨fun h => ha.1 (hmoves h), ?_⟩
  rw [List.append_nil]
  exact ha.2

/-- A choice on given tokens runs if the branch that is taken does. -/
theorem RunsAt.ite {q : Parser α} {c : Prop} [Decidable c] (hp : c → RunsAt L d k m ts p)
    (hq : ¬ c → RunsAt L d k m ts q) : RunsAt L d k m ts (if c then p else q) :=
  fun hproper hbudget s => .ite (fun hc => hp hc hproper hbudget s)
    fun hc => hq hc hproper hbudget s

/-- A choice runs if both branches do. -/
theorem Runs.cond {q : Parser α} {c : Prop} [Decidable c] (hp : Runs L d k m p)
    (hq : Runs L d k m q) : Runs L d k m (if c then p else q) :=
  fun ts => .ite (fun _ => hp ts) fun _ => hq ts

/-- A part that may be missing. -/
theorem Runs.when {p : Parser Unit} {f : Unit → Parser β} {c : Prop} [Decidable c]
    (hp : Keeps L d k p) (hf : ∀ a, Runs L d k n (f a)) :
    Runs L d k n (if c then p >>= f else f ()) := .cond (hp.bind hf) (hf ())

/-! ## What reads nothing -/

/-- A parser that leaves the tokens as they are and records facts by the law. -/
theorem RunsAt.still (h : ∀ s, ∃ r, p s ts = .ok r ∧ r.rest = ts ∧ L.Holds s r.facts)
    (hm : ∀ a, ¬ m a) : RunsAt L d k m ts p := by
  intro _ _ s
  obtain ⟨r, hr, hrest, hfacts⟩ := h s
  exact .of_ok hr (hrest ▸ List.suffix_refl ts) ⟨fun hmoves => absurd hmoves (hm _), hfacts⟩

/-- To read nothing is fine for a value that need not have read a token. -/
theorem Runs.pure (a : α) (h : ¬ m a) : Runs L d k m (Pure.pure a : Parser α) :=
  fun _ _ _ s => .of_ok (pure_apply a s _) (List.suffix_refl _) ⟨fun hmoves => absurd hmoves h, L.nil s⟩

/-- To look for a word keeps the law. -/
theorem Keeps.sees (word : String) : Keeps L d k (Parser.sees word) :=
  fun ts => .still (fun s => ⟨_, sees_apply word s ts, rfl, L.nil s⟩) fun _ => id

/-- To look at the line keeps the law. -/
theorem Keeps.line : Keeps L d k Parser.line :=
  fun ts => .still (fun s => ⟨_, line_apply s ts, rfl, L.nil s⟩) fun _ => id

/-- To look at the scope keeps the law. -/
theorem Keeps.scope : Keeps L d k Parser.scope :=
  fun ts => .still (fun s => ⟨_, scope_apply s ts, rfl, L.nil s⟩) fun _ => id

/-- To record a fact keeps a law that the fact keeps. -/
theorem Keeps.record {fact : Fact} (h : ∀ s, L.Holds s [fact]) : Keeps L d k (Parser.record fact) :=
  fun ts => .still (fun s => ⟨_, record_apply fact s ts, rfl, h s⟩) fun _ => id

/-- To fail at the next token with a fair fault runs, whatever it should have read. -/
theorem Runs.failAhead {fault : String → Fault} (h : ∀ text, (fault text).IsFair) :
    Runs L d k m (Parser.failAhead fault : Parser α) := fun _ _ _ _ => .failAhead h

/-- What looks at the tokens runs if it does for the tokens that there are. -/
theorem RunsAt.ahead {f : List Token → Parser β} (h : RunsAt L d k n ts (f ts)) :
    RunsAt L d k n ts (Parser.ahead >>= f) :=
  fun hproper hbudget s => .still (ahead_apply s ts) (h hproper hbudget s)

/-- What looks at the tokens runs if it does for all tokens. -/
theorem Runs.ahead {f : List Token → Parser β} (h : ∀ ts, RunsAt L d k n ts (f ts)) :
    Runs L d k n (Parser.ahead >>= f) := fun ts => .ahead (h ts)

/-- A choice by whether a word is next. -/
theorem RunsAt.choose {f : Bool → Parser α} (hseen : begins word ts → RunsAt L d k m ts (f true))
    (hunseen : begins word ts = false → RunsAt L d k m ts (f false)) :
    RunsAt L d k m ts (Parser.sees word >>= f) := by
  intro hproper hbudget s
  refine .still (sees_apply word s ts) ?_
  cases hword : begins word ts with
  | true => exact hseen hword hproper hbudget s
  | false => exact hunseen hword hproper hbudget s

/-! ## What reads tokens -/

/-- To go on at an end of the tokens runs, and reads a token if the end is shorter. -/
theorem RunsAt.resumeAt {moves : Unit → Prop} (hsuffix : rest <:+ ts)
    (hlt : ∀ a, moves a → rest.length < ts.length) :
    RunsAt L d k moves ts (Parser.resumeAt rest) :=
  fun _ _ s => .of_ok (resumeAt_apply rest s ts) hsuffix ⟨hlt _, L.nil s⟩

/-- To read one token takes it. -/
theorem Takes.next : Takes L d k Parser.next := by
  intro ts _ _ s
  cases ts with
  | nil => exact ⟨⟨nofun, .inr rfl⟩, .inl rfl⟩
  | cons t ts => exact ⟨List.suffix_cons t ts, fun _ => by simp, L.nil s⟩

/-- What comes after the next token, which is known. -/
theorem RunsAt.next_bind {f : Token → Parser β}
    (hf : ∀ t us, ts = t :: us → t.IsProper → Keeps L d (k + 3) (f t)) :
    RunsAt L d k n ts (Parser.next >>= f) := by
  intro hproper hbudget s
  cases ts with
  | nil => exact ⟨⟨nofun, .inr rfl⟩, .inl rfl⟩
  | cons t us =>
    have ht : t.IsProper := hproper t List.mem_cons_self
    have hstep : RunsAt L d k n (t :: us) (Parser.next >>= fun _ => f t) :=
      (Takes.next _).step fun _ => hf t us rfl ht
    have hsettles := hstep hproper hbudget s
    unfold Settles at hsettles ⊢
    rwa [bind_of_ok (next_cons s t us)] at hsettles ⊢

/-- What comes after the next token was passed over. -/
theorem RunsAt.skip_bind {f : Unit → Parser β} (hf : RunsAt L d (k + 3) (fun _ => False) us (f ())) :
    RunsAt L d k n (t :: us) (Parser.skip >>= f) := by
  intro hproper hbudget s
  have hsuffix : us <:+ t :: us := List.suffix_cons t us
  have hfirst : Settles s (t :: us) Parser.skip fun r => r = ⟨(), [], us⟩ :=
    .of_ok (skip_cons s t us) hsuffix rfl
  refine hfirst.bind ?_
  rintro _ - rfl
  rw [List.length_cons] at hbudget
  refine (hf (hproper.of_suffix hsuffix) (by omega) s).mono fun b hb hr => ⟨fun _ => ?_, hr.2⟩
  exact Nat.lt_succ_of_le hb.length_le

/-- What comes after a name, which is proper. -/
theorem RunsAt.name_bind {f : Token → Parser β}
    (hf : ∀ t us, ts = t :: us → t.isName → t.text ≠ "" ∧ '.' ∉ t.text.toList →
      Keeps L d (k + 3) (f t)) :
    RunsAt L d k n ts (Parser.name >>= f) := by
  -- the test for a name is moved outside, so that what comes after it knows the token
  have hname : (Parser.name >>= f) = (Parser.ahead >>= fun ts =>
      if startsWith (·.isName) ts then Parser.next >>= f
      else Parser.failAhead .expectedName >>= f) := by
    unfold Parser.name
    rw [bind_bind]
    congr 1
    funext ts
    split <;> rfl
  rw [hname]
  refine .ahead (.ite (fun hstart => .next_bind fun t us hts ht => ?_) fun _ => ?_)
  · subst hts
    have hidentifier : t.isIdentifier := (Bool.and_eq_true_iff.1 hstart).1
    exact hf t us rfl hstart (ht hidentifier)
  · have hfails : ∀ s, (Parser.failAhead .expectedName >>= f) s ts =
        (Parser.failAhead .expectedName : Parser β) s ts := by
      intro s
      rw [bind_apply]
      cases ts <;> rfl
    intro _ _ s
    have hsettles : Settles s ts (Parser.failAhead .expectedName : Parser β) fun r =>
        (n r.value → r.rest.length < ts.length) ∧ L.Holds s r.facts :=
      .failAhead fun _ => ⟨nofun, .inl rfl⟩
    unfold Settles at hsettles ⊢
    rwa [hfails]

/-- What an expression is followed by is checked, and it was not next before. -/
theorem RunsAt.checked {p : Parser Unit} {moves : Unit → Prop} {words : List String}
    {fault : String → Fault} (hp : Keeps L d k p)
    (hts : startsWith (·.spellsAny words) ts = false) (hfault : ∀ text, (fault text).IsFair) :
    RunsAt L d k moves ts (do
      p
      if !(startsWith (·.spellsAny words) (← Parser.ahead)) then Parser.failAhead fault) := by
  refine (hp ts).bindAt (fun _ => .ahead ?_) fun _ => .ahead fun us => ?_
  · rw [hts]
    exact Runs.failAhead hfault ts
  · exact .ite (fun _ => Runs.failAhead hfault us) fun _ => Runs.pure _ (by simp) us

/-- To forget the value on given tokens changes nothing that is owed. -/
theorem RunsAt.discard {P : Prop} (h : RunsAt L d k (fun _ => P) ts p) :
    RunsAt L d k (fun _ => P) ts (Functor.discard p) :=
  h.convert fun _ => ⟨(), rfl, id⟩

/-- To forget the value changes nothing that is owed. -/
theorem Runs.discard {P : Prop} (h : Runs L d k (fun _ => P) p) :
    Runs L d k (fun _ => P) (Functor.discard p) := fun ts => (h ts).discard

/-- To pass over one token takes it. -/
theorem Takes.skip : Takes L d k Parser.skip := Takes.next.discard

/-- To expect a word takes it, or fails fairly. -/
theorem Takes.expect (word : String) : Takes L d k (Parser.expect word) :=
  (Keeps.sees word).bind fun _ =>
    .cond Takes.skip (.failAhead fun _ => ⟨nofun, .inl rfl⟩)

/-- To read a name takes it, or fails fairly. -/
theorem Takes.name : Takes L d k Parser.name :=
  .ahead fun ts => .ite (fun _ => Takes.next ts) fun _ =>
    (Runs.failAhead fun _ => ⟨nofun, .inl rfl⟩ : Takes L d k (Parser.failAhead .expectedName)) ts

/-- Reading a word if it is next, and something after it. -/
theorem Runs.seesSkip {q : Parser α} {f : Unit → Parser α} (hf : Keeps L d (k + 3) (f ()))
    (hq : Runs L d k m q) : Runs L d k m (do if ← Parser.sees word then Parser.skip >>= f else q) :=
  (Keeps.sees word).bind fun _ => .cond (Takes.skip.step fun _ => hf) hq

/-- Reading a word if it is next, and what comes after it in any case. -/
theorem Runs.seesWhen {f : Bool → Unit → Parser α} (hf : ∀ seen a, Runs L d k m (f seen a)) :
    Runs L d k m (do
      let seen ← Parser.sees word
      if seen then Parser.skip >>= f seen else f seen ()) :=
  (Keeps.sees word).bind fun _ => .cond (Takes.skip.step fun _ => (hf _ _).later) (hf _ ())

/-! ## Loops -/

/-- A loop whose rounds read a token before they ask for another. -/
theorem Keeps.iterate {round : σ → Parser (σ ⊕ β)}
    (h : ∀ a, Runs L d k (fun next => next.isLeft = true) (round a)) (a : σ) :
    Keeps L d k (Parser.iterate round a) := by
  intro ts hproper hbudget s
  have hloop : Settles s ts (Parser.iterate round a) fun r => L.Holds s ([] ++ r.facts) := by
    -- the invariant is the law, of all facts recorded so far
    refine Settles.iterate (I := fun facts _ => L.Holds s facts) (J := fun facts _ => L.Holds s facts)
      (fun facts a us hsuffix hfacts => ?_) [] (L.nil s)
    have hlength := hsuffix.length_le
    refine (h a us (hproper.of_suffix hsuffix) (by omega) s).mono fun r _ hr => ?_
    obtain ⟨b | b, found, rest⟩ := r
    · exact ⟨hr.1 rfl, L.append hfacts hr.2⟩
    · exact L.append hfacts hr.2
  exact hloop.mono fun r _ hr => ⟨False.elim, hr⟩

/-- A loop that asks for more keeps the law if a round that asks for another takes a token. -/
theorem Keeps.repeatWhile {ask : Parser Bool} (h : Runs L d k (fun more : Bool => more = true) ask) :
    Keeps L d k (Parser.repeatWhile ask) := by
  refine Keeps.iterate (fun _ ts => (h ts).convert fun more => ?_) ()
  cases more with
  | true => exact ⟨_, rfl, fun _ => rfl⟩
  | false => exact ⟨_, rfl, nofun⟩

/-- A loop whose first round asks for another has read a token. -/
theorem RunsAt.repeatWhile {ask : Parser Bool} {moves : Unit → Prop}
    (h : Runs L d k (fun more : Bool => more = true) ask)
    (hmore : ∀ s a, ask s ts = .ok a → a.value = true) :
    RunsAt L d k moves ts (Parser.repeatWhile ask) := by
  intro hproper hbudget s
  -- the first round is taken out of the loop: it is the one that is known to read a token
  have hloop : Parser.repeatWhile ask s ts = (ask >>= fun _ => Parser.repeatWhile ask) s ts := by
    have hround := h ts hproper hbudget s
    cases hrun : ask s ts with
    | error e =>
      rw [bind_of_error hrun]
      exact iterate_of_error (bind_of_error hrun)
    | ok a =>
      obtain ⟨more, facts, rest⟩ := a
      obtain rfl : more = true := hmore s _ hrun
      rw [repeatWhile_again hrun ((hround.ok hrun).2.1 rfl), bind_of_ok hrun]
  have hfirst : RunsAt L d k (fun _ => True) ts ask := by
    intro hproper hbudget s
    have hround := h ts hproper hbudget s
    cases hrun : ask s ts with
    | error e => exact .of_error hrun (hround.error hrun)
    | ok a =>
      obtain ⟨hsuffix, hlt, hfacts⟩ := hround.ok hrun
      exact .of_ok hrun hsuffix ⟨fun _ => hlt (hmore s a hrun), hfacts⟩
  have htakes : RunsAt L d k moves ts (ask >>= fun _ => Parser.repeatWhile ask) :=
    hfirst.step fun _ => (Keeps.repeatWhile h).weaken (Nat.le_add_right k 3) fun _ => id
  have hsettles := htakes hproper hbudget s
  unfold Settles at hsettles ⊢
  rwa [hloop]

/-- A loop up to a word, which its rounds may take for granted not to be next. -/
theorem Keeps.untilSeesAt {p : Parser Unit} (word : String)
    (h : ∀ ts, begins word ts = false → RunsAt L d k (fun _ => True) ts p) :
    Keeps L d k (Parser.untilSees word p) :=
  .repeatWhile fun ts => .choose (fun _ => Runs.pure _ (by simp) ts) fun hword =>
    (h ts hword).step fun _ => .pure _ (by simp)

/-- A loop up to a word keeps the law if what it repeats takes a token. -/
theorem Keeps.untilSees {p : Parser Unit} (word : String) (h : Takes L d k p) :
    Keeps L d k (Parser.untilSees word p) := .untilSeesAt word fun ts _ => h ts

/-- Items behind commas keep the law, since the comma is taken. -/
theorem Keeps.afterCommas {p : Parser Unit} (h : Keeps L d (k + 3) p) :
    Keeps L d k (Parser.afterCommas p) := .repeatWhile <| .seesSkip (h.bind fun _ =>
      .pure _ (by simp)) (.pure _ (by simp))

/-- A loop that collects keeps the law if a round that finds something takes a token. -/
theorem Keeps.gather {ask : Parser (Option α)} (h : Runs L d k (fun found => found.isSome = true) ask) :
    Keeps L d k (Parser.gather ask) := by
  refine Keeps.iterate (fun found ts => (h ts).convert fun more => ?_) []
  cases more with
  | none => exact ⟨_, rfl, nofun⟩
  | some a => exact ⟨_, rfl, fun _ => rfl⟩

end Assay.Source

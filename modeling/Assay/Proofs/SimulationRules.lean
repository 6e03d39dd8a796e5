import Assay.Proofs.Simulation

/-!
# The rules of simulation

One rule for each way of building parsers: for sequences and choices, for what reads or looks at the
tokens, for what records facts, and for loops.
-/

namespace Assay.Source.Simulation

open Assay.Source.Parser

variable {σ : Simulation} {α β : Type} {R S : Prop} {last : Bool} {V : α → α → Prop}
  {W : β → β → Prop} {ts us : List Token}

/-! ## Sequences and choices -/

/-- A simulation under a weak premise is one under a stronger premise. -/
theorem SimAt.mono {p q : Parser α} (h : σ.SimAt S last V ts us p q) (hRS : R → S) :
    σ.SimAt R last V ts us p q :=
  ⟨h.forward, fun hR => h.alike (hRS hR)⟩

/-- The second parser may be replaced by an equal one. -/
theorem SimAt.congr {p q q' : Parser α} (hq : R → q' = q) (h : σ.SimAt R last V ts us p q) :
    σ.SimAt R last V ts us p q' :=
  ⟨h.forward, fun hR => hq hR ▸ h.alike hR⟩

/-- A simulation under a weak premise is one under a stronger premise, on all tokens. -/
theorem Sim.mono {p q : Parser α} (h : σ.Sim S last V p q) (hRS : R → S) : σ.Sim R last V p q :=
  fun ts us => (h ts us).mono fun hR => ⟨hRS hR.1, hR.2⟩

/-- If a parser that moved on has not passed the end, it had not come to it before. -/
theorem kept_before {r : Parsed α} {o : Except SourceError (Parsed α)} (hforward : Forward last ts o)
    (hr : o = .ok r) (hreached : σ.Reached last r.rest) : σ.kept ts := by
  obtain ⟨hsuffix, hends⟩ := hforward r hr
  rcases hreached with hkept | ⟨hlast, us, hended⟩
  · exact σ.kept_of_suffix hsuffix hkept
  · obtain ⟨pre, t, rfl, -⟩ := hends hlast
    refine σ.kept_of_ended hended hsuffix ?_
    rw [List.length_append, List.length_cons]
    omega

/-- Sequences run alike on given tokens if their parts do; only the second part may be the last. -/
theorem SimAt.bind {p q : Parser α} {f g : α → Parser β} (hp : σ.SimAt R false V ts us p q)
    (hf : ∀ a b, σ.Sim (R ∧ V a b) last W (f a) (g b)) :
    σ.SimAt R last W ts us (p >>= f) (q >>= g) := by
  refine ⟨fun s r hr => ?_, fun hR s s' hs => ?_⟩
  -- what the whole consumes is what the first part and then the second consume
  · obtain ⟨a, ha, b, hb, rfl⟩ := bind_eq_ok.1 hr
    have hpa := hp.forward s a ha
    have hfb := (hf a.value a.value a.rest a.rest).forward s b hb
    refine ⟨hfb.1.trans hpa.1, fun hlast => ?_⟩
    obtain ⟨before, hbefore⟩ := hpa.1
    obtain ⟨pre, t, hpre, ht⟩ := hfb.2 hlast
    exact ⟨before ++ pre, t, by rw [← hbefore, hpre, List.append_assoc], ht⟩
  · have halike := hp.alike hR s s' hs
    cases ha : p s ts with
    | error e =>
      rw [ha] at halike
      rw [bind_of_error ha]
      intro hstrict
      obtain ⟨e', hq, he⟩ := halike hstrict
      exact ⟨e', bind_of_error hq, he⟩
    | ok a =>
      rw [ha] at halike
      -- the second parts are alike only if the first one stops before the tokens that differ
      have hread : σ.kept a.rest → ∃ a', q s' us = .ok a' ∧
          List.Forall₂ (Fact.Alike σ.line) a.facts a'.facts ∧
          σ.Outcome last W (f a.value s a.rest) (g a'.value s' a'.rest) := by
        intro hkept
        obtain ⟨a', hq, hV, hfacts, hleft⟩ := halike (.inl hkept)
        have htokens : σ.tokens a.rest a'.rest := hleft.resolve_right (by simp)
        exact ⟨a', hq, hfacts,
          (hf a.value a'.value a.rest a'.rest).alike ⟨⟨hR, hV⟩, htokens⟩ s s' hs⟩
      have hrun : (p >>= f) s ts = recording a.facts (f a.value s a.rest) := by
        rw [bind_apply, ha]
      rw [hrun]
      cases hb : f a.value s a.rest with
      -- an error of the second part is met alike if the first was read alike
      | error e =>
        intro hstrict
        obtain ⟨a', hq, -, hbranch⟩ := hread (σ.kept_of_strict hstrict _)
        rw [hb] at hbranch
        obtain ⟨e', hg, he⟩ := hbranch hstrict
        refine ⟨e', ?_, he⟩
        rw [bind_apply, hq]
        simp [hg]
      | ok b =>
        intro hreached
        have hforward := (hf a.value a.value a.rest a.rest).forward s
        obtain ⟨a', hq, hfacts, hbranch⟩ := hread (kept_before hforward hb hreached)
        rw [hb] at hbranch
        obtain ⟨b', hg, hW, hmore, hleft⟩ := hbranch hreached
        refine ⟨⟨b'.value, a'.facts ++ b'.facts, b'.rest⟩, ?_, hW, ?_, hleft⟩
        · rw [bind_apply, hq]
          simp [hg]
        · exact List.rel_append hfacts hmore

/-- Sequences run alike if their parts do; only the second part may be the last. -/
theorem Sim.bind {p q : Parser α} {f g : α → Parser β} (hp : σ.Sim R false V p q)
    (hf : ∀ a b, σ.Sim (R ∧ V a b) last W (f a) (g b)) : σ.Sim R last W (p >>= f) (q >>= g) :=
  fun ts us => (hp ts us).bind fun a b => (hf a b).mono fun h => ⟨h.1.1, h.2⟩

/-- A choice whose first branch is only taken if the test holds. -/
theorem SimAt.branch {p p' q q' : Parser α} {c d : Prop} [Decidable c] [Decidable d]
    (hcd : R → (c ↔ d)) (hp : c → σ.SimAt R last V ts us p q)
    (hp' : σ.SimAt R last V ts us p' q') :
    σ.SimAt R last V ts us (if c then p else p') (if d then q else q') := by
  by_cases hc : c
  · rw [if_pos hc]
    exact .congr (fun hR => if_pos ((hcd hR).1 hc)) (hp hc)
  · rw [if_neg hc]
    exact .congr (fun hR => if_neg fun hd => hc ((hcd hR).2 hd)) hp'

/-- A choice between two parsers, by a test that comes out alike. -/
theorem SimAt.ite {p p' q q' : Parser α} {c d : Prop} [Decidable c] [Decidable d]
    (hcd : R → (c ↔ d)) (hp : σ.SimAt (R ∧ c) last V ts us p q)
    (hp' : σ.SimAt R last V ts us p' q') :
    σ.SimAt R last V ts us (if c then p else p') (if d then q else q') :=
  .branch hcd (fun hc => hp.mono fun hR => ⟨hR, hc⟩) hp'

/-- Choices run alike if the tests agree and the branches run alike. -/
theorem Sim.ite {p p' q q' : Parser α} {c d : Prop} [Decidable c] [Decidable d]
    (hcd : R → (c ↔ d)) (hp : σ.Sim (R ∧ c) last V p q) (hp' : σ.Sim R last V p' q') :
    σ.Sim R last V (if c then p else p') (if d then q else q') := fun ts us =>
  .ite (fun h => hcd h.1) ((hp ts us).mono fun h => ⟨⟨h.1.1, h.2⟩, h.1.2⟩) (hp' ts us)

/-- Sequences whose first parts give the same value run alike on given tokens. -/
theorem SimAt.bindEq {p q : Parser α} {f g : α → Parser β} (hp : σ.SimAt R false Eq ts us p q)
    (hf : ∀ a, σ.Sim R last W (f a) (g a)) : σ.SimAt R last W ts us (p >>= f) (q >>= g) := by
  refine hp.bind fun a b ts us => ?_
  by_cases hab : a = b
  · subst hab
    exact (hf a ts us).mono fun h => ⟨h.1.1, h.2⟩
  · exact ⟨(hf a ts us).forward, fun h => absurd h.1.2 hab⟩

/-- What comes after equal values. -/
theorem Sim.bindEq {p q : Parser α} {f g : α → Parser β} (hp : σ.Sim R false Eq p q)
    (hf : ∀ a, σ.Sim R last W (f a) (g a)) : σ.Sim R last W (p >>= f) (q >>= g) :=
  fun ts us => (hp ts us).bindEq fun a => (hf a).mono And.left

/-- A choice by a test on neither run. -/
theorem Sim.cond {p p' q q' : Parser α} {c : Prop} [Decidable c] (hp : σ.Sim R last V p q)
    (hp' : σ.Sim R last V p' q') :
    σ.Sim R last V (if c then p else p') (if c then q else q') := by
  by_cases hc : c
  · rw [if_pos hc, if_pos hc]
    exact hp
  · rw [if_neg hc, if_neg hc]
    exact hp'

/-- A choice after which both branches go on in the same way. -/
theorem Sim.join {p q : Parser α} {p' q' : Parser β} {f g : α → Parser β} {c : Prop} [Decidable c]
    (hf : ∀ a, σ.Sim R last W (f a) (g a)) (hp : σ.Sim R false Eq p q)
    (hp' : (∀ a, σ.Sim R last W (f a) (g a)) → σ.Sim R last W p' q') :
    σ.Sim R last W (if c then p >>= f else p') (if c then q >>= g else q') :=
  .cond (hp.bindEq hf) (hp' hf)

/-- A choice between going on at once and after more was read. -/
theorem Sim.detour {p p' q q' : Parser α} {c : Prop} [Decidable c] (hp' : σ.Sim R last V p' q')
    (hp : σ.Sim R last V p' q' → σ.Sim R last V p q) :
    σ.Sim R last V (if c then p else p') (if c then q else q') :=
  .cond (hp hp') hp'

/-- A part that may be missing. -/
theorem Sim.when {p q : Parser Unit} {f g : Unit → Parser β} {c : Prop} [Decidable c]
    (hp : σ.Sim R false Eq p q) (hf : ∀ a, σ.Sim R last W (f a) (g a)) :
    σ.Sim R last W (if c then p >>= f else f ()) (if c then q >>= g else g ()) :=
  .join hf hp fun hf => hf ()

/-- Under a false premise only the first parser matters. -/
theorem Sim.vacuous {p q q' : Parser α} (h : σ.Sim False last V p q) (hR : ¬ R) :
    σ.Sim R last V p q' := fun ts us => ⟨(h ts us).forward, fun h => absurd h.1 hR⟩

/-- Parsers that depend on values that are the same in both runs. -/
theorem Sim.same {γ : Type} {f g : γ → Parser α} (h : ∀ x, σ.Sim R last V (f x) (g x)) :
    ∀ x y, σ.Sim (R ∧ x = y) last V (f x) (g y) := by
  intro x y
  by_cases heq : x = y
  · rw [← heq]
    exact (h x).mono And.left
  · exact ((h x).mono False.elim).vacuous fun hR => heq hR.2

/-- A judgement on given tokens. -/
theorem Sim.at {p q : Parser α} (h : σ.Sim S last V p q) (hRS : R → S ∧ σ.tokens ts us) :
    σ.SimAt R last V ts us p q := (h ts us).mono hRS

/-! ## What reads and looks -/

/-- A parser that reads nothing. -/
theorem SimAt.still {p q : Parser α} {a b : α} {facts gs : Scope → List Fact}
    (hp : ∀ s, p s ts = .ok ⟨a, facts s, ts⟩) (hq : R → ∀ s, q s us = .ok ⟨b, gs s, us⟩)
    (hV : R → V a b)
    (hfacts : R → ∀ s s', σ.Scopes s s' → List.Forall₂ (Fact.Alike σ.line) (facts s) (gs s'))
    (htokens : R → σ.tokens ts us) : σ.SimAt R false V ts us p q := by
  refine ⟨fun s r hr => ?_, fun hR s s' hs => ?_⟩
  · rw [hp] at hr
    cases hr
    exact ⟨List.suffix_refl _, nofun⟩
  · rw [hp]
    exact fun _ => ⟨_, hq hR s', hV hR, hfacts hR s s' hs, .inl (htokens hR)⟩

/-- What comes after a parser that reads nothing. -/
theorem SimAt.still_bind {p q : Parser α} {f g : α → Parser β} {a b : α}
    {facts gs : Scope → List Fact} (hp : ∀ s, p s ts = .ok ⟨a, facts s, ts⟩)
    (hq : R → ∀ s, q s us = .ok ⟨b, gs s, us⟩)
    (hfacts : R → ∀ s s', σ.Scopes s s' → List.Forall₂ (Fact.Alike σ.line) (facts s) (gs s'))
    (hf : σ.SimAt R last W ts us (f a) (g b)) : σ.SimAt R last W ts us (p >>= f) (q >>= g) := by
  refine ⟨fun s r hr => ?_, fun hR s s' hs => ?_⟩
  · rw [bind_of_ok (hp s)] at hr
    obtain ⟨r', hr', rfl⟩ := recording_eq_ok.1 hr
    exact hf.forward s r' hr'
  · have halike := hf.alike hR s s' hs
    rw [bind_of_ok (hp s), bind_of_ok (hq hR s')]
    cases hrun : f a s ts with
    | error e =>
      rw [hrun] at halike
      intro hstrict
      obtain ⟨e', hrun', he⟩ := halike hstrict
      exact ⟨e', by rw [hrun', recording_error], he⟩
    | ok r =>
      rw [hrun] at halike
      intro hreached
      obtain ⟨r', hrun', hW, hmore, hleft⟩ := halike hreached
      refine ⟨⟨r'.value, gs s' ++ r'.facts, r'.rest⟩, by rw [hrun', recording_ok], hW, ?_, hleft⟩
      exact List.rel_append (hfacts hR s s' hs) hmore

/-- To read nothing is alike on given tokens if the values are. -/
theorem SimAt.pure {a b : α} (hV : R → V a b) (htokens : R → σ.tokens ts us) :
    σ.SimAt R false V ts us (Pure.pure a : Parser α) (Pure.pure b) :=
  .still (fun s => pure_apply a s ts) (fun _ s => pure_apply b s us) hV (fun _ _ _ _ => .nil) htokens

/-- To read nothing is alike if the values are. -/
theorem Sim.pure {a b : α} (hV : R → V a b) :
    σ.Sim R false V (Pure.pure a : Parser α) (Pure.pure b) := fun _ _ =>
  .pure (fun h => hV h.1) And.right

/-- A parser that goes on by what is ahead. -/
theorem Sim.ahead {f g : List Token → Parser β}
    (hf : ∀ ts us, σ.SimAt (R ∧ σ.tokens ts us) last W ts us (f ts) (g us)) :
    σ.Sim R last W (Parser.ahead >>= f) (Parser.ahead >>= g) := fun ts us =>
  .still_bind (fun s => ahead_apply s ts) (fun _ s => ahead_apply s us) (fun _ _ _ _ => .nil)
    (hf ts us)

/-- A word is seen in both runs or in neither. -/
theorem Sim.sees (word : String) :
    σ.Sim R false Eq (Parser.sees word) (Parser.sees word) := fun _ _ =>
  .still (fun s => sees_apply word s _) (fun _ s => sees_apply word s _)
    (fun h => σ.begins_alike h.2 word) (fun _ _ _ _ => .nil) And.right

/-- Facts that are alike are recorded alike. -/
theorem Sim.record {f g : Fact} (h : R → f.Alike σ.line g) :
    σ.Sim R false Eq (Parser.record f) (Parser.record g) := fun _ _ =>
  .still (fun s => record_apply f s _) (fun _ s => record_apply g s _) (fun _ => rfl)
    (fun hR _ _ _ => .cons (h hR.1) .nil) And.right

/-- Going on with later tokens. -/
theorem SimAt.resumeAt {rest rest' : List Token} (hsuffix : rest <:+ ts)
    (htokens : R → σ.tokens rest rest') :
    σ.SimAt R false Eq ts us (Parser.resumeAt rest) (Parser.resumeAt rest') := by
  refine ⟨fun s r hr => ?_, fun hR s s' _ => ?_⟩
  · cases hr
    exact ⟨hsuffix, nofun⟩
  · exact fun _ => ⟨_, rfl, rfl, .nil, .inl (htokens hR)⟩

/-- The lines ahead are related. -/
theorem lineAt_alike {s s' : Scope} (hs : σ.Scopes s s') (h : σ.tokens ts us) :
    σ.line (lineAt s ts) (lineAt s' us) := by
  rcases σ.uncons h with ⟨rfl, rfl, hwhole⟩ | ⟨t, ts', u, us', rfl, rfl, halike, -⟩
  · exact hs.2 hwhole
  · exact halike.2

/-- The lines that both runs look at are related. -/
theorem Sim.line : σ.Sim R false σ.line Parser.line Parser.line := by
  intro ts us
  refine ⟨fun s r hr => ?_, fun hR s s' hs _ => ?_⟩
  · cases hr
    exact ⟨List.suffix_refl _, nofun⟩
  · exact ⟨_, rfl, lineAt_alike hs hR.2, .nil, .inl hR.2⟩

/-- The scopes that both runs look at agree. -/
theorem Sim.scope : σ.Sim R false σ.Scopes Parser.scope Parser.scope := by
  intro ts us
  refine ⟨fun s r hr => ?_, fun hR s s' hs _ => ?_⟩
  · cases hr
    exact ⟨List.suffix_refl _, nofun⟩
  · exact ⟨_, rfl, hs, .nil, .inl hR.2⟩

/-- Inside the same type parsers run as alike as outside. -/
theorem Sim.within {p q : Parser α} {type type' : Enclosing} (htype : R → type = type')
    (h : σ.Sim R last V p q) :
    σ.Sim R last V (Parser.within type p) (Parser.within type' q) := fun ts us =>
  ⟨fun s => (h ts us).forward { s with enclosing := some type },
    fun hR _ _ hs => (h ts us).alike hR _ _ ⟨congrArg some (htype hR.1), hs.2⟩⟩

/-- Both runs fail at the next token, with faults of one code. -/
theorem Sim.failAhead {fault : String → Fault}
    (hcode : ∀ text text', (fault text).code = (fault text').code) :
    σ.Sim R last V (Parser.failAhead fault : Parser α) (Parser.failAhead fault) := by
  intro ts us
  refine ⟨fun s r hr => ?_, fun hR s s' hs => ?_⟩
  · cases ts <;> cases hr
  · rcases σ.uncons hR.2 with ⟨rfl, rfl, hwhole⟩ | ⟨t, ts', u, us', rfl, rfl, halike, -⟩
    · exact fun _ => ⟨_, rfl, rfl, hs.2 hwhole⟩
    · exact fun _ => ⟨_, rfl, hcode _ _, halike.2⟩

/-- Both runs fail on lines that are related, with faults of one code. -/
theorem Sim.failOn {m n : Nat} {fault fault' : Fault}
    (h : R → fault.code = fault'.code ∧ σ.line m n) :
    σ.Sim R last V (Parser.failOn m fault : Parser α) (Parser.failOn n fault') := by
  intro ts us
  refine ⟨fun s r hr => ?_, fun hR s s' _ _ => ?_⟩
  · cases hr
  · exact ⟨_, rfl, h hR.1⟩

/-- Reading the next token. A last parser may end with it, if it is one that ends something. -/
theorem SimAt.next (hts : R → σ.tokens ts us) (hends : last → ∀ t, t ∈ ts.head? → t.Ends) :
    σ.SimAt R last (Token.Alike σ.line) ts us Parser.next Parser.next := by
  refine ⟨fun s r hr => ?_, fun hR s s' hs => ?_⟩
  · cases ts with
    | nil => cases hr
    | cons t ts =>
      cases hr
      exact ⟨List.suffix_cons t ts, fun hlast => ⟨[], t, rfl, hends hlast t rfl⟩⟩
  · rcases σ.uncons (hts hR) with ⟨rfl, rfl, hwhole⟩ | ⟨t, ts', u, us', rfl, rfl, halike, htail⟩
    · exact fun _ => ⟨_, rfl, rfl, hs.2 hwhole⟩
    · rintro (hkept | ⟨hlast, -⟩)
      · refine ⟨_, rfl, halike, .nil, .inl (htail.resolve_right fun hended => ?_)⟩
        exact σ.not_kept hended.2 hkept
      · exact ⟨_, rfl, halike, .nil, htail.imp_right fun h => ⟨hlast, h.2⟩⟩

/-- The next tokens are read alike. -/
theorem Sim.next : σ.Sim R false (Token.Alike σ.line) Parser.next Parser.next := fun _ _ =>
  .next And.right nofun

/-- To forget the values on given tokens leaves the runs alike. -/
theorem SimAt.discard {p q : Parser α} (h : σ.SimAt R last V ts us p q) :
    σ.SimAt R last Eq ts us (Functor.discard p) (Functor.discard q) := by
  refine ⟨fun s r hr => ?_, fun hR s s' hs => ?_⟩
  · obtain ⟨a, ha, rfl⟩ := discard_eq_ok hr
    exact h.forward s a ha
  · have halike := h.alike hR s s' hs
    rw [discard_apply, discard_apply]
    cases hp : p s ts with
    | error e =>
      rw [hp] at halike
      intro hstrict
      obtain ⟨e', hq, he⟩ := halike hstrict
      exact ⟨e', by rw [hq]; rfl, he⟩
    | ok a =>
      rw [hp] at halike
      intro hreached
      obtain ⟨a', hq, -, hfacts, hleft⟩ := halike hreached
      exact ⟨⟨(), a'.facts, a'.rest⟩, by rw [hq]; rfl, rfl, hfacts, hleft⟩

/-- To forget the values leaves the runs alike. -/
theorem Sim.discard {p q : Parser α} (h : σ.Sim R last V p q) :
    σ.Sim R last Eq (Functor.discard p) (Functor.discard q) := fun ts us => (h ts us).discard

/-- The next tokens are passed over alike. -/
theorem Sim.skip : σ.Sim R false Eq Parser.skip Parser.skip := Sim.next.discard

/-- A word is passed over in both runs; a last parser may end with it. -/
theorem SimAt.skip {word : String} (hword : begins word ts) (hts : R → σ.tokens ts us)
    (hends : last → word = ";" ∨ word = "\x7d") :
    σ.SimAt R last Eq ts us Parser.skip Parser.skip := by
  refine SimAt.discard (.next hts fun hlast t ht => ?_)
  cases ts with
  | nil => cases ht
  | cons u us =>
    cases ht
    rcases hends hlast with rfl | rfl
    · exact .inl hword
    · exact .inr hword

/-- A choice by the tokens ahead. -/
theorem Sim.test {c : List Token → Bool} {p p' q q' : Parser α}
    (hc : ∀ {ts us}, σ.tokens ts us → c ts = c us) (hp : σ.Sim R last V p q)
    (hp' : σ.Sim R last V p' q') :
    σ.Sim R last V (Parser.ahead >>= fun ts => if c ts then p else p')
      (Parser.ahead >>= fun ts => if c ts then q else q') := by
  refine .ahead fun ts us => .ite (fun hR => by rw [hc hR.2]) ?_ ?_
  · exact hp.at fun hR => ⟨hR.1.1, hR.1.2⟩
  · exact hp'.at id

/-- A choice by the first token, whose branches may read the whole list. -/
theorem SimAt.split {p q : Parser α} {f g : Token → List Token → Parser α} :
    (R → σ.tokens ts us) → σ.SimAt R last V ts us p q →
    (∀ t rest u rest', ts = t :: rest →
      σ.SimAt (R ∧ us = u :: rest') last V ts us (f t rest) (g u rest')) →
    σ.SimAt R last V ts us (match ts with | [] => p | t :: rest => f t rest)
      (match us with | [] => q | t :: rest => g t rest) := by
  intro hts hnil hcons
  refine ⟨fun s => ?_, fun hR s s' hs => ?_⟩
  · cases ts with
    | nil => exact hnil.forward s
    | cons t ts => exact (hcons t ts t ts rfl).forward s
  · rcases σ.head_alike (hts hR) with ⟨rfl, rfl⟩ | ⟨t, ts', u, us', rfl, rfl, -⟩
    · exact hnil.alike hR s s' hs
    · exact (hcons t ts' u us' rfl).alike ⟨hR, rfl⟩ s s' hs

/-- A choice by the first token. -/
theorem SimAt.uncons {p q : Parser α} {f g : Token → List Token → Parser α} :
    (R → σ.tokens ts us) → σ.SimAt R last V ts us p q →
    (∀ t ts u us, σ.SimAt (R ∧ σ.tokens (t :: ts) (u :: us)) last V (t :: ts) (u :: us)
      (f t ts) (g u us)) →
    σ.SimAt R last V ts us (match ts with | [] => p | t :: rest => f t rest)
      (match us with | [] => q | t :: rest => g t rest) := by
  intro hts hnil hcons
  refine .split hts hnil fun t rest u rest' hcons' => ?_
  subst hcons'
  refine ⟨(hcons t rest u rest').forward, fun hR => ?_⟩
  obtain ⟨hR, rfl⟩ := hR
  exact (hcons t rest u rest').alike ⟨hR, hts hR⟩

/-- A choice by whether a word is next. -/
theorem SimAt.choose {word : String} {f g : Bool → Parser α} (hts : R → σ.tokens ts us)
    (hseen : begins word ts → σ.SimAt (R ∧ begins word ts) last V ts us (f true) (g true))
    (hunseen : σ.SimAt R last V ts us (f false) (g false)) :
    σ.SimAt R last V ts us (Parser.sees word >>= f) (Parser.sees word >>= g) := by
  refine ⟨fun s => ?_, fun hR s s' hs => ?_⟩
  · rw [bind_of_ok (sees_apply word s ts), recording_nil]
    cases hword : begins word ts with
    | true => exact (hseen hword).forward s
    | false => exact hunseen.forward s
  · rw [bind_of_ok (sees_apply word s ts), bind_of_ok (sees_apply word s' us), recording_nil,
      recording_nil, ← begins_alike (hts hR)]
    cases hword : begins word ts with
    | true => exact (hseen hword).alike ⟨hR, hword⟩ s s' hs
    | false => exact hunseen.alike hR s s' hs

/-- A choice by whether a word is next, on all tokens. -/
theorem Sim.choose {word : String} {f g : Bool → Parser α}
    (hseen : ∀ ts us, begins word ts →
      σ.SimAt (R ∧ begins word ts ∧ σ.tokens ts us) last V ts us (f true) (g true))
    (hunseen : σ.Sim R last V (f false) (g false)) :
    σ.Sim R last V (Parser.sees word >>= f) (Parser.sees word >>= g) := fun ts us =>
  .choose And.right (fun hword => (hseen ts us hword).mono fun hR => ⟨hR.1.1, hR.2, hR.1.2⟩)
    (hunseen ts us)

/-- Reading a given word. A last parser may end with it. -/
theorem Sim.expect (word : String) (hends : last → word = ";" ∨ word = "\x7d") :
    σ.Sim R last Eq (Parser.expect word) (Parser.expect word) :=
  .choose (fun _ _ hword => .skip hword (fun hR => hR.2.2) hends) (.failAhead fun _ _ => rfl)

/-- Reading a token of which more is known. -/
theorem SimAt.nextWord {p : Token → Bool} (hp : ∀ {t u}, t.Alike σ.line u → p t → t.text = u.text)
    (hts : R → startsWith p ts ∧ σ.tokens ts us) :
    σ.SimAt R false (NameAlike σ.line) ts us Parser.next Parser.next := by
  have hnext : σ.SimAt R false (Token.Alike σ.line) ts us Parser.next Parser.next :=
    Sim.next.at fun hR => ⟨hR, (hts hR).2⟩
  refine ⟨hnext.forward, fun hR s s' hs => ?_⟩
  have halike := hnext.alike hR s s' hs
  have htest := (hts hR).1
  cases ts with
  | nil => cases htest
  | cons t ts =>
    intro hreached
    obtain ⟨r', hq, hV, hfacts, hleft⟩ := halike hreached
    exact ⟨r', hq, ⟨hV, hp hV htest⟩, hfacts, hleft⟩

/-- Names that come next are the same. -/
theorem SimAt.nextName (hts : R → startsWith (·.isName) ts ∧ σ.tokens ts us) :
    σ.SimAt R false (NameAlike σ.line) ts us Parser.next Parser.next :=
  .nextWord (fun halike hname => (halike.name hname).2) hts

/-- Names are read alike, and are the same. -/
theorem Sim.name : σ.Sim R false (NameAlike σ.line) Parser.name Parser.name := by
  refine .ahead fun ts us => .ite (fun hR => ?_) (.nextName fun hR => ⟨hR.2, hR.1.2⟩) ?_
  · rw [startsWith_alike hR.2 fun halike => halike.isName]
  · exact (Sim.failAhead fun _ _ => rfl).at id

/-- What comes after the next token is passed over. -/
theorem SimAt.skip_bind {f g : Unit → Parser β} {p : Token → Bool}
    (hts : R → startsWith p ts ∧ σ.tokens ts us)
    (hf : σ.SimAt R last W ts.tail us.tail (f ()) (g ())) :
    σ.SimAt R last W ts us (Parser.skip >>= f) (Parser.skip >>= g) := by
  refine ⟨fun s r hr => ?_, fun hR s s' hs => ?_⟩
  · cases ts with
    | nil => cases hr
    | cons t ts =>
      rw [bind_of_ok (skip_cons s t ts), recording_nil] at hr
      have hforward := hf.forward s r hr
      refine ⟨hforward.1.trans (List.suffix_cons t ts), fun hlast => ?_⟩
      obtain ⟨pre, u, hpre, hu⟩ := hforward.2 hlast
      rw [List.tail_cons] at hpre
      exact ⟨t :: pre, u, by rw [hpre, List.cons_append], hu⟩
  · have halike := hf.alike hR s s' hs
    rcases σ.head_alike (hts hR).2 with ⟨rfl, rfl⟩ | ⟨t, ts', u, us', rfl, rfl, -⟩
    · cases (hts hR).1
    · rw [bind_of_ok (skip_cons s t ts'), bind_of_ok (skip_cons s' u us'), recording_nil,
        recording_nil]
      exact halike

/-- A failure at the next token cannot be followed by anything. -/
theorem failAhead_bind (fault : String → Fault) (f : α → Parser β) :
    (Parser.failAhead fault >>= f) = Parser.failAhead fault := by
  funext s ts
  cases ts <;> rfl

/-- What comes after an expected word. -/
theorem SimAt.expect_bind {word : String} {f g : Unit → Parser β} (hts : R → σ.tokens ts us)
    (hf : σ.SimAt (R ∧ begins word ts) last W ts.tail us.tail (f ()) (g ())) :
    σ.SimAt R last W ts us (Parser.expect word >>= f) (Parser.expect word >>= g) := by
  unfold Parser.expect
  rw [bind_bind, bind_bind]
  refine .choose hts (fun _ => ?_) ?_
  · exact .skip_bind (p := (·.spells word)) (fun hR => ⟨hR.2, hts hR.1⟩) hf
  · simp only [Bool.false_eq_true, if_false, failAhead_bind]
    exact (Sim.failAhead fun _ _ => rfl).at fun hR => ⟨hR, hts hR⟩

/-- What comes behind an expected word, on all tokens. -/
theorem Sim.expect_bind {word : String} {f g : Unit → Parser β}
    (hf : ∀ ts us, σ.SimAt (R ∧ begins word ts ∧ σ.tokens ts us) last W ts.tail us.tail
      (f ()) (g ())) :
    σ.Sim R last W (Parser.expect word >>= f) (Parser.expect word >>= g) := fun ts us =>
  .expect_bind And.right ((hf ts us).mono fun hR => ⟨hR.1.1, hR.2, hR.1.2⟩)

/-! ## Declarations -/

/-- Declarations with the same names on related lines are recorded alike. -/
theorem Sim.declareCallable {kind : DeclarationKind} {name name' : String} {m n arity : Nat}
    {varargs isStatic : Bool} (h : R → name = name' ∧ σ.line m n) :
    σ.Sim R false Eq (Parser.declareCallable kind name m arity varargs isStatic)
      (Parser.declareCallable kind name' n arity varargs isStatic) := by
  refine Sim.scope.bind fun s s' => .record fun hR => ?_
  rw [Scope.owner, Scope.owner, hR.2.1, (h hR.1).1]
  exact .declaration (h hR.1).2

/-- Values that are read alike are declared alike. -/
theorem declaredValue_alike {kind : DeclarationKind} {owner : String} {t u : Token}
    (h : NameAlike σ.line t u) :
    List.Forall₂ (Fact.Alike σ.line) (declaredValue kind owner t) (declaredValue kind owner u) := by
  rw [declaredValue, declaredValue, h.2]
  exact .cons (.declaration h.1.2) (.cons (.value u.text) .nil)

/-- Declarations of values are recorded alike. -/
theorem Sim.declareValue {kind : DeclarationKind} {t u : Token} (h : R → NameAlike σ.line t u) :
    σ.Sim R false Eq (Parser.declareValue kind t) (Parser.declareValue kind u) := by
  refine fun ts us => .still (fun s => declareValue_apply kind t s ts)
    (fun _ s => declareValue_apply kind u s us) (fun _ => rfl) (fun hR s s' hs => ?_) And.right
  rw [Scope.owner, Scope.owner, hs.1]
  exact declaredValue_alike (h hR.1)

/-- What comes after several values are declared. -/
theorem SimAt.declareValues_bind {kind : DeclarationKind} {names names' : List Token}
    {f g : Unit → Parser β} (h : R → List.Forall₂ (NameAlike σ.line) names names')
    (hf : σ.SimAt R last W ts us (f ()) (g ())) :
    σ.SimAt R last W ts us (forM names (Parser.declareValue kind) >>= f)
      (forM names' (Parser.declareValue kind) >>= g) := by
  refine .still_bind (fun s => forM_declareValue kind names s ts)
    (fun _ s => forM_declareValue kind names' s us) (fun hR s s' hs => ?_) hf
  rw [Scope.owner, Scope.owner, hs.1]
  exact List.rel_flatMap (h hR) fun _ _ hname => declaredValue_alike hname

/-! ## Loops -/

section Loops

variable {ρ : Type} {round round' : ρ → Parser (ρ ⊕ β)} {s s' : Scope} {a b : ρ}
  {facts : List Fact} {rest : List Token}

/-- A loop only moves forward if its rounds do. -/
theorem iterate_forward (h : ∀ a s ts, Forward false ts (round a s ts)) (a : ρ) (s : Scope)
    (ts : List Token) : Forward false ts (Parser.iterate round a s ts) := by
  refine fun r hr => ⟨?_, nofun⟩
  refine iterate_induction (motive := fun _ ts r => r.rest <:+ ts) ?_ ?_ hr
  · exact fun a ts _ _ _ hround => (h a s ts _ hround).1
  · exact fun a ts _ _ _ _ hround _ ih => ih.trans (h a s ts _ hround).1

/-- After a round that asks for another one, the second run has made the same progress. -/
theorem SimAt.goesOn (h : σ.SimAt R false Eq ts us (round a) (round' a)) (hR : R)
    (hs : σ.Scopes s s') (htokens : σ.tokens ts us)
    (hround : round a s ts = .ok ⟨.inl b, facts, rest⟩) (hkept : σ.kept rest) :
    ∃ facts' rest', round' a s' us = .ok ⟨.inl b, facts', rest'⟩ ∧
      List.Forall₂ (Fact.Alike σ.line) facts facts' ∧ σ.tokens rest rest' ∧
      (rest.length < ts.length ↔ rest'.length < us.length) := by
  have halike := h.alike hR s s' hs
  rw [hround] at halike
  obtain ⟨⟨_, facts', rest'⟩, hround', rfl, hfacts, hleft⟩ := halike (.inl hkept)
  have hrest : σ.tokens rest rest' := hleft.resolve_right (by simp)
  exact ⟨facts', rest', hround', hfacts, hrest, σ.shorter htokens hrest⟩

/-- Two loops whose rounds are alike are run side by side, by the number of tokens. -/
theorem Sim.iterate (h : ∀ a, σ.Sim R false Eq (round a) (round' a)) (a : ρ) :
    σ.Sim R false Eq (Parser.iterate round a) (Parser.iterate round' a) := by
  have hforward := iterate_forward fun a s ts => (h a ts ts).forward s
  refine fun ts us => ⟨fun s => hforward a s ts, ?_⟩
  -- on the number of tokens, since a round that asks for another has to leave fewer of them
  induction hn : ts.length using Nat.strongRecOn generalizing a ts us with
  | ind n ih =>
    subst hn
    intro hR s s' hs
    have hstep := h a ts us
    cases hround : round a s ts with
    -- an error of a round is the error of the loop
    | error e =>
      have halike := hstep.alike hR s s' hs
      rw [hround] at halike
      rw [iterate_of_error hround]
      intro hstrict
      obtain ⟨e', hround', he⟩ := halike hstrict
      exact ⟨e', iterate_of_error hround', he⟩
    | ok m =>
      -- a round asks for another one, or it is the last
      obtain ⟨b | b, facts, rest⟩ := m
      · by_cases hlt : rest.length < ts.length
        · rw [iterate_again hround hlt]
          cases hmore : Parser.iterate round b s rest with
          | error e =>
            intro hstrict
            obtain ⟨facts', rest', hround', -, hrest, hiff⟩ :=
              hstep.goesOn hR hs hR.2 hround (σ.kept_of_strict hstrict _)
            have halike := ih _ hlt b rest rest' rfl ⟨hR.1, hrest⟩ s s' hs
            rw [hmore] at halike
            obtain ⟨e', hmore', he⟩ := halike hstrict
            refine ⟨e', ?_, he⟩
            rw [iterate_again hround' (hiff.1 hlt), hmore', recording_error]
          | ok r =>
            intro hreached
            -- the rounds behind this one went past its rest, so it was read on both sides
            have hkept := kept_before (hforward b s rest) hmore hreached
            obtain ⟨facts', rest', hround', hfacts, hrest, hiff⟩ :=
              hstep.goesOn hR hs hR.2 hround hkept
            have halike := ih _ hlt b rest rest' rfl ⟨hR.1, hrest⟩ s s' hs
            rw [hmore] at halike
            obtain ⟨r', hmore', hV, hfacts', hleft⟩ := halike hreached
            refine ⟨⟨r'.value, facts' ++ r'.facts, r'.rest⟩, ?_, hV, ?_, hleft⟩
            · rw [iterate_again hround' (hiff.1 hlt), hmore', recording_ok]
            · exact List.rel_append hfacts hfacts'
        -- a loop that stalls is an error, and the other one stalls too
        · rw [iterate_stalled hround hlt]
          intro hstrict
          obtain ⟨facts', rest', hround', -, -, hiff⟩ :=
            hstep.goesOn hR hs hR.2 hround (σ.kept_of_strict hstrict _)
          exact ⟨_, iterate_stalled hround' fun hlt' => hlt (hiff.2 hlt'), rfl, lineAt_alike hs hR.2⟩
      · have halike := hstep.alike hR s s' hs
        rw [hround] at halike
        rw [iterate_done hround]
        intro hreached
        obtain ⟨⟨_, facts', rest'⟩, hround', rfl, hfacts, hleft⟩ := halike hreached
        exact ⟨_, iterate_done hround', rfl, hfacts, hleft⟩

/-- Loops that ask for more run alike if the asking does. -/
theorem Sim.repeatWhile {ask ask' : Parser Bool} (h : σ.Sim R false Eq ask ask') :
    σ.Sim R false Eq (Parser.repeatWhile ask) (Parser.repeatWhile ask') := by
  refine Sim.iterate (fun _ => ?_) ()
  exact h.bindEq fun more => .cond (.pure fun _ => rfl) (.pure fun _ => rfl)

/-- Loops up to a word run alike if what they repeat does. -/
theorem Sim.untilSees {p q : Parser Unit} (word : String) (h : σ.Sim R false Eq p q) :
    σ.Sim R false Eq (Parser.untilSees word p) (Parser.untilSees word q) :=
  .repeatWhile <| (Sim.sees word).bindEq fun _ => .cond (.pure fun _ => rfl) <|
    h.bindEq fun _ => .pure fun _ => rfl

/-- Items behind commas are read alike. -/
theorem Sim.afterCommas {p q : Parser Unit} (h : σ.Sim R false Eq p q) :
    σ.Sim R false Eq (Parser.afterCommas p) (Parser.afterCommas q) :=
  .repeatWhile <| (Sim.sees ",").bindEq fun _ => .cond
    (Sim.skip.bindEq fun _ => h.bindEq fun _ => .pure fun _ => rfl) (.pure fun _ => rfl)

/-- Loops that collect run alike, and collect the same. -/
theorem Sim.gather {ask ask' : Parser (Option α)} (h : σ.Sim R false Eq ask ask') :
    σ.Sim R false Eq (Parser.gather ask) (Parser.gather ask') := by
  refine Sim.iterate (fun found => h.bindEq fun more => ?_) []
  cases more with
  | none => exact .pure fun _ => rfl
  | some a => exact .pure fun _ => rfl

end Loops

end Assay.Source.Simulation

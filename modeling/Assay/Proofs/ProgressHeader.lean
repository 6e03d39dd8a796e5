import Assay.Proofs.LookaheadEnds
import Assay.Proofs.Progress
import Mathlib.Tactic.SplitIfs

/-!
# Headers make progress

The parsers of names, annotations, modifiers and types record nothing, under any law. A parameter
list records its parameters in order, each as a declaration and a value, and gives their number.
-/

namespace Assay.Source

open Assay.Source.Parser

variable {t u : Token} {ts rest inside : List Token} {word other : String} {closing : List String}

/-! ## Names, groups and annotations -/

variable {L : Law} {d k : Nat} {m : Unit → Prop}

/-- The group ahead, with what is known of its parts. -/
theorem Settles.groupAhead {s : Scope} :
    Settles s ts Parser.groupAhead fun r => r.facts = [] ∧ r.rest = ts ∧
      r.value.2 <:+ ts ∧ r.value.2.length < ts.length := by
  cases ts with
  | nil => exact ⟨⟨by simp, .inr rfl⟩, .inl rfl⟩
  | cons l ts =>
    simp only [Settles, Parser.groupAhead]
    cases hsplit : splitGroup l.closer?.toList ts with
    | ok parts =>
      have hsuffix := splitGroup_suffix hsplit
      exact ⟨List.suffix_refl _, rfl, rfl, hsuffix.trans (List.suffix_cons l ts),
        Nat.lt_succ_of_le hsuffix.length_le⟩
    | error e =>
      cases e with
      | none => exact ⟨⟨by simp, .inr rfl⟩, .inr ⟨l, List.mem_cons_self, rfl⟩⟩
      | some closer =>
        exact ⟨⟨by simp, .inl rfl⟩,
          .inr ⟨closer, List.mem_cons_of_mem l (splitGroup_error hsplit), rfl⟩⟩

/-- What comes after a group was looked at and before it is passed over. -/
theorem RunsAt.group {α : Type} {n : α → Prop} {f : List Token × List Token → Parser α}
    (hf : ∀ inside rest, rest <:+ ts → rest.length < ts.length →
      RunsAt L d k n ts (f (inside, rest))) :
    RunsAt L d k n ts (Parser.groupAhead >>= f) := by
  intro hproper hbudget s
  refine Settles.groupAhead.bind fun a _ ha => ?_
  obtain ⟨⟨inside, rest⟩, facts, left⟩ := a
  obtain ⟨rfl, rfl, hsuffix, hlt⟩ := ha
  exact hf inside rest hsuffix hlt hproper hbudget s

/-- Skipping a group takes its opener. -/
theorem Takes.skipGroup : Takes L d k Parser.skipGroup :=
  fun _ => .group fun _ _ hsuffix hlt => .resumeAt hsuffix fun _ _ => hlt

/-- Counting the arguments ahead takes nothing. -/
theorem Keeps.argumentsAhead : Keeps L d k Parser.argumentsAhead :=
  fun ts => .group fun _ _ _ _ => Runs.pure _ (by simp) ts

/-- A dotted name takes its first name. -/
theorem Takes.dottedName : Takes L d k Parser.dottedName := by
  refine Takes.name.step fun first => .bind (.gather (.ahead fun ts => ?_)) fun more =>
    .pure _ (by simp)
  match ts with
  | [] => exact Runs.pure _ (by simp) _
  | [_] => exact Runs.pure _ (by simp) _
  | dot :: part :: rest =>
    refine .ite (fun _ => ?_) fun _ => Runs.pure _ (by simp) _
    exact .step (.resumeAt ⟨[dot, part], rfl⟩ fun _ _ => by simp only [List.length_cons]; omega)
      fun _ => .pure _ (by simp)

/-- A round over annotations reads one if it asks for another round. -/
theorem runs_annotation : Runs L d k (fun more : Bool => more = true) (do
    if beginsAnnotations (← Parser.ahead) then
      Parser.skip
      discard Parser.dottedName
      if ← Parser.sees "(" then Parser.skipGroup
      return true
    return false) := by
  refine .ahead fun ts => .ite (fun _ => ?_) fun _ => Runs.pure _ (by simp) _
  refine (Takes.skip ts).step fun _ => Takes.dottedName.discard.keeps.bind fun _ => ?_
  exact (Keeps.sees "(").bind fun _ => .when Takes.skipGroup.keeps fun _ => .pure _ (by simp)

/-- Skipping annotations keeps to its tokens. -/
theorem Keeps.skipAnnotations : Keeps L d k Parser.skipAnnotations := .repeatWhile runs_annotation

/-- Annotations that are there are read. -/
theorem RunsAt.skipAnnotations (h : beginsAnnotations ts) :
    RunsAt L d k m ts Parser.skipAnnotations := by
  refine .repeatWhile runs_annotation fun s a ha => ?_
  rw [bind_of_ok (ahead_apply s ts), if_pos h, recording_nil] at ha
  obtain ⟨b, -, c, hc, rfl⟩ := bind_eq_ok.1 ha
  obtain ⟨e, -, f, hf, rfl⟩ := bind_eq_ok.1 hc
  rw [bind_of_ok (sees_apply "(" s _), recording_nil] at hf
  split at hf
  · obtain ⟨g, -, i, hi, rfl⟩ := bind_eq_ok.1 hf
    cases hi
    rfl
  · cases hf
    rfl

/-- Modifiers keep to their tokens. -/
theorem Keeps.modifiers (allowed : List String) : Keeps L d k (Parser.modifiers allowed) := by
  refine .bind (.gather (.ahead fun ts => ?_)) fun found => .pure _ (by simp)
  cases ts with
  | nil => exact Runs.pure _ (by simp) _
  | cons t ts =>
    refine .ite (fun _ => ?_) fun _ => .ite (fun h => ?_) fun _ => .ite (fun h => ?_) fun _ =>
      Runs.pure _ (by simp) _
    · exact (Takes.skip _).step fun _ => .pure _ (by simp)
    · refine .step (.resumeAt ((List.drop_suffix 2 ts).trans (List.suffix_cons t ts)) fun _ _ => ?_)
        fun _ => .pure _ (by simp)
      simp only [List.length_drop, List.length_cons]
      omega
    · exact .step (.skipAnnotations h) fun _ => .pure _ (by simp)

/-- Type arguments take their angle. -/
theorem Takes.skipTypeArguments : Takes L d k Parser.skipTypeArguments := by
  refine (Takes.expect "<").step fun _ => Keeps.iterate (fun depth ts hproper hbudget s => ?_) 1
  cases ts with
  | nil => exact ⟨⟨nofun, .inr rfl⟩, .inl rfl⟩
  | cons t ts =>
    have hsuffix : ts <:+ t :: ts := List.suffix_cons t ts
    have hlt : ts.length < (t :: ts).length := Nat.lt_succ_self _
    unfold Settles
    rw [bind_of_ok (next_cons s t ts), recording_nil]
    split_ifs
    · exact ⟨hsuffix, fun _ => hlt, L.nil s⟩
    · exact ⟨hsuffix, nofun, L.nil s⟩
    · exact ⟨hsuffix, fun _ => hlt, L.nil s⟩
    · exact ⟨⟨nofun, .inl rfl⟩, .inr ⟨t, List.mem_cons_self, rfl⟩⟩
    · exact ⟨hsuffix, fun _ => hlt, L.nil s⟩

/-- Type arguments that may be missing keep to their tokens. -/
theorem Keeps.skipOptionalTypeArguments : Keeps L d k Parser.skipOptionalTypeArguments :=
  (Keeps.sees "<").bind fun _ => .cond Takes.skipTypeArguments.keeps (.pure _ (by simp))

/-- Dimensions keep to their tokens. -/
theorem Keeps.dimensions : Keeps L d k Parser.dimensions :=
  .ahead fun ts => .resumeAt (dimensionsRest_suffix ts) fun _ => False.elim

/-- A type takes its first token. -/
theorem Takes.type : Takes L d k Parser.type := by
  refine Keeps.skipAnnotations.bind fun _ => .ahead fun ts => .ite (fun _ => ?_) fun _ => ?_
  · exact (Takes.skip ts).step fun _ => Keeps.dimensions
  · refine Takes.name.discard.step (fun _ => Keeps.skipOptionalTypeArguments.bind fun _ =>
      .bind (.repeatWhile (.ahead fun ts => .ite (fun _ => ?_) fun _ => Runs.pure _ (by simp) _))
      fun _ => Keeps.dimensions) ts
    exact (Takes.skip ts).step fun _ => Keeps.skipAnnotations.bind fun _ =>
      Takes.name.discard.keeps.bind fun _ => Keeps.skipOptionalTypeArguments.bind fun _ =>
        .pure _ (by simp)

/-- The clause of thrown types keeps to its tokens. -/
theorem Keeps.throwsClause : Keeps L d k Parser.throwsClause :=
  .seesSkip (Takes.type.keeps.bind fun _ => Keeps.afterCommas Takes.type.keeps) (.pure _ (by simp))

/-! ## Parsers that record nothing -/

/-- Nothing is recorded. -/
def silent : Law where
  Holds _ facts := facts = []
  nil _ := rfl
  append {_ _ _} hbefore hafter := by rw [hbefore, hafter, List.nil_append]

variable {α β : Type} {s : Scope} {p : Parser α} {f : α → Parser β} {moves : α → Prop}
  {P : Parsed α → Prop} {R : Parsed β → Prop}

/-- What runs under every law and budget records nothing. -/
theorem Runs.settles (h : ∀ d, Runs silent d 0 moves p) (hproper : Proper ts) (s : Scope) :
    Settles s ts p fun r => (moves r.value → r.rest.length < ts.length) ∧ r.facts = [] :=
  h (3 * ts.length) ts hproper (Nat.le_refl _) s

/-- What comes after a parser that records nothing. -/
theorem Settles.silently (hp : Settles s ts p fun r => P r ∧ r.facts = [])
    (hf : ∀ a, a.rest <:+ ts → P a → Settles s a.rest (f a.value) R) : Settles s ts (p >>= f) R := by
  refine hp.bind fun a hsuffix ha => (hf a hsuffix ha.1).mono fun b _ hb => ?_
  rwa [ha.2, List.nil_append]

/-- Collecting results that have a property, without recording anything. -/
theorem Settles.gather {ask : Parser (Option α)} {V : α → Prop}
    (hask : ∀ us, us <:+ ts → Settles s us ask fun r =>
      (∀ a, r.value = some a → r.rest.length < us.length ∧ V a) ∧ r.facts = []) :
    Settles s ts (Parser.gather ask) fun r => (∀ a ∈ r.value, V a) ∧ r.facts = [] := by
  refine (Settles.iterate (I := fun facts found => (∀ a ∈ found, V a) ∧ facts = [])
    (J := fun facts found => (∀ a ∈ found, V a) ∧ facts = []) ?_ []
    ⟨by simp, rfl⟩).mono fun r _ hr => hr
  rintro facts found us hus ⟨hfound, rfl⟩
  refine (hask us hus).silently fun b _ hb => ?_
  obtain ⟨value, more, rest⟩ := b
  cases value with
  | none => exact .of_ok (pure_apply _ s rest) (List.suffix_refl rest) ⟨hfound, rfl⟩
  | some a =>
    refine .of_ok (pure_apply _ s rest) (List.suffix_refl rest) ⟨(hb a rfl).1, ?_, rfl⟩
    exact List.forall_mem_append.2 ⟨hfound, List.forall_mem_singleton.2 (hb a rfl).2⟩

/-! ## Parameters -/

/-- The facts are those of so many parameters. -/
def ParameterFacts (owner : String) (arity : Nat) (facts : List Fact) : Prop :=
  ∃ params : List Token, params.length = arity ∧
    facts = params.flatMap (declaredValue .parameter owner)

/-- The facts of parameters add up as their counts do. -/
theorem ParameterFacts.append {owner : String} {m n : Nat} {before after : List Fact}
    (h : ParameterFacts owner m before) (h' : ParameterFacts owner n after) :
    ParameterFacts owner (m + n) (before ++ after) := by
  obtain ⟨params, rfl, rfl⟩ := h
  obtain ⟨params', rfl, rfl⟩ := h'
  exact ⟨params ++ params', List.length_append, List.flatMap_append.symm⟩

/-- Reads a parameter from the end of its name on. -/
def parameterEnd (arity : Nat) (varargs receiver : Bool) : Parser (Nat × Bool ⊕ Nat × Bool) := do
  dimensions
  if ← sees "," then skip
  else if !(← sees ")") then failAhead (.expectedEither "," ")")
  return .inl (if receiver then arity else arity + 1, varargs)

/-- Reads a parameter from its name on, or the receiver. -/
def parameterName (arity : Nat) (varargs : Bool) : Parser (Nat × Bool ⊕ Nat × Bool) := do
  let receiver ← sees "this"
  if receiver then skip else declareValue .parameter (← name)
  parameterEnd arity varargs receiver

/-- Reads a parameter, if the list does not end. -/
def parameter : Nat × Bool → Parser (Nat × Bool ⊕ Nat × Bool) := fun (arity, varargs) => do
  if ← sees ")" then return .inr (arity, varargs)
  discard (modifiers localModifiers)
  type
  let ellipsis ← sees "..."
  if ellipsis then skip
  parameterName arity (varargs || ellipsis)

/-- Parameters are read one after the other. -/
theorem parameters_eq_iterate : Parser.parameters = (do
    expect "("
    let counts ← iterate parameter (0, false)
    expect ")"
    return counts) := rfl

/-- The state after a parameter that recorded the facts. -/
def ParameterRead (owner : String) (arity : Nat) (r : Parsed (Nat × Bool ⊕ Nat × Bool)) : Prop :=
  ∃ added varargs, r.value = .inl (arity + added, varargs) ∧ ParameterFacts owner added r.facts

/-- The end of a parameter settles, and counts the parameter unless it is a receiver. -/
theorem Settles.parameterEnd (hproper : Proper ts) (s : Scope) (arity : Nat) (varargs receiver : Bool) :
    Settles s ts (Source.parameterEnd arity varargs receiver) fun r =>
      r.value = .inl (if receiver then arity else arity + 1, varargs) ∧ r.facts = [] := by
  refine (Runs.settles (fun _ => Keeps.dimensions) hproper s).silently fun a hsuffix _ => ?_
  refine .still (sees_apply "," s a.rest) (.ite (fun _ => ?_) fun _ => ?_)
  · refine (Runs.settles (fun _ => Takes.skip) (hproper.of_suffix hsuffix) s).silently fun b _ _ => ?_
    exact .of_ok (pure_apply _ s b.rest) (List.suffix_refl _) ⟨rfl, rfl⟩
  · refine .still (sees_apply ")" s a.rest) (.ite (fun _ => ?_) fun _ => ?_)
    · refine Settles.bind (Q := fun _ => False) (.failAhead fun _ => ⟨nofun, .inl rfl⟩) fun _ _ h => ?_
      exact h.elim
    · exact .of_ok (pure_apply _ s a.rest) (List.suffix_refl _) ⟨rfl, rfl⟩

/-- The name of a parameter settles, and records the parameter it counts. -/
theorem Settles.parameterName (hproper : Proper ts) (s : Scope) (arity : Nat) (varargs : Bool) :
    Settles s ts (Source.parameterName arity varargs) (ParameterRead s.owner arity) := by
  refine .still (sees_apply "this" s ts) (.ite (fun hthis => ?_) fun hthis => ?_)
  · refine (Runs.settles (fun _ => Takes.skip) hproper s).silently fun a hsuffix _ => ?_
    refine (Settles.parameterEnd (hproper.of_suffix hsuffix) s _ _ _).mono fun r _ hr => ?_
    exact ⟨0, varargs, by rw [hr.1, if_pos hthis]; rfl, [], rfl, hr.2⟩
  · refine (Runs.settles (fun _ => Takes.name) hproper s).silently fun a hsuffix _ => ?_
    refine Settles.bind (Q := fun r => r.facts = declaredValue .parameter s.owner a.value)
      (.of_ok (declareValue_apply _ _ s _) (List.suffix_refl _) rfl) fun b hsuffix' hb => ?_
    have hproper' := (hproper.of_suffix hsuffix).of_suffix hsuffix'
    refine (Settles.parameterEnd hproper' s _ _ _).mono fun r _ hr => ?_
    refine ⟨1, varargs, by rw [hr.1, if_neg hthis], [a.value], rfl, ?_⟩
    rw [hb, hr.2]
    rfl

/-- A parameter settles as the end of the list or as one parameter more. -/
theorem Settles.parameter (hproper : Proper ts) (s : Scope) (arity : Nat) (varargs : Bool) :
    Settles s ts (Source.parameter (arity, varargs)) fun r =>
      (r.value = .inr (arity, varargs) ∧ r.facts = []) ∨
        (r.rest.length < ts.length ∧ ParameterRead s.owner arity r) := by
  refine .still (sees_apply ")" s ts) (.ite (fun _ => ?_) fun _ => ?_)
  · exact .of_ok (pure_apply _ s ts) (List.suffix_refl _) (.inl ⟨rfl, rfl⟩)
  refine (Runs.settles (fun _ => (Keeps.modifiers localModifiers).discard) hproper s).silently
    fun a hsuffix _ => ?_
  have hproper' := hproper.of_suffix hsuffix
  refine (Runs.settles (fun _ => Takes.type) hproper' s).silently fun b hsuffix' htype => ?_
  have hproper'' := hproper'.of_suffix hsuffix'
  have hlt : ∀ {rest}, rest <:+ b.rest → rest.length < ts.length := fun hrest =>
    Nat.lt_of_le_of_lt hrest.length_le (Nat.lt_of_lt_of_le (htype trivial) hsuffix.length_le)
  refine .still (sees_apply "..." s b.rest) (.ite (fun _ => ?_) fun _ => ?_)
  · refine (Runs.settles (fun _ => Takes.skip) hproper'' s).silently fun c hrest _ => ?_
    refine (Settles.parameterName (hproper''.of_suffix hrest) s arity _).mono fun r hr hread => ?_
    exact .inr ⟨hlt (hr.trans hrest), hread⟩
  · refine (Settles.parameterName hproper'' s arity _).mono fun r hr hread => ?_
    exact .inr ⟨hlt hr, hread⟩

/-- A parameter list gives the number of the parameters it records. -/
theorem Settles.parameters (hproper : Proper ts) (s : Scope) :
    Settles s ts Parser.parameters fun r =>
      r.rest.length < ts.length ∧ ParameterFacts s.owner r.value.1 r.facts := by
  rw [parameters_eq_iterate]
  refine (Runs.settles (fun _ => Takes.expect "(") hproper s).silently fun a hsuffix hopen => ?_
  have hproper' := hproper.of_suffix hsuffix
  -- before every round, the facts are those of as many parameters as were counted
  refine (Settles.iterate (I := fun facts counts => ParameterFacts s.owner counts.1 facts)
    (J := fun facts counts => ParameterFacts s.owner counts.1 facts) ?_ []
    ⟨[], rfl, rfl⟩).bind fun b hsuffix' hb => ?_
  · rintro facts ⟨arity, varargs⟩ us hus hfacts
    refine (Settles.parameter (hproper'.of_suffix hus) s arity varargs).mono fun r _ hr => ?_
    rcases hr with ⟨hvalue, hr⟩ | ⟨hlt, added, varargs', hvalue, hr⟩
    · rw [hvalue, hr, List.append_nil]
      exact hfacts
    · rw [hvalue]
      exact ⟨hlt, hfacts.append hr⟩
  · refine (Runs.settles (fun _ => Takes.expect ")") (hproper'.of_suffix hsuffix') s).silently
      fun c hsuffix'' _ => .of_ok (pure_apply _ s c.rest) (List.suffix_refl _) ⟨?_, ?_⟩
    · exact Nat.lt_of_le_of_lt (hsuffix''.trans hsuffix').length_le (hopen trivial)
    · simpa using hb

end Assay.Source

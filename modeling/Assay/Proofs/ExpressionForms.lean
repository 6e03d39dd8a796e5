import Assay.Proofs.ClassTypes
import Assay.Proofs.HeaderReading

/-!
# Expressions of any form

`ExpressionForm` is the grammar of expressions, one rule for each part that an expression goes on
with: chains of names and calls with type arguments or without, creations with their bodies, lambda
expressions, casts, method references, tests and the operators between them. What stands inside
brackets and braces is whatever is read there. A comma of its own is a part only where it does not
end the expression, so that elsewhere a comma stands in brackets or in the type arguments of a part.
The main statement is `ExpressionForm.passes`: an expression of any form is passed over up to the
token that ends it.
-/

namespace Assay.Source

open Assay.Source.Parser

variable {nested : Construct → Parser Unit} {stop : List String} {s : Scope}
  {t l r dot arrow : Token} {ts us as bs cs es ms ps rest following xs : List Token}
  {names words : List String} {facts fs gs : List Fact} {arity : Nat}

/-! ## Names and what follows them -/

/-- The names of a chain after its first, each behind a dot and, if it has some, its explicit type
arguments. -/
inductive ChainTail : List Token → List String → Prop
  | nil : ChainTail [] []
  | cons {dot t : Token} {as ts : List Token} {names : List String} (hdot : dot.IsSign ".")
      (has : OptionalArguments as) (ht : t.IsIdentifier) (hts : ChainTail ts names) :
      ChainTail (dot :: (as ++ t :: ts)) (t.text :: names)

/-- No dot follows, or a dot with one of the words behind it. -/
def EndsChain (words : List String) (rest : List Token) : Prop :=
  begins "." rest = false ∨
    ∃ dot t us, rest = dot :: t :: us ∧ dot.IsSign "." ∧ ∃ word ∈ words, t.IsWord word

/-- The words that may stand where a name does, behind a dot. -/
def selectedWords : List String := ["new", "super", "this", "class"]

/-- The words that may be selected behind a dot are keywords, and none is an angle. -/
theorem selectedWords_reserved : ∀ word ∈ selectedWords, word ∈ keywords ∧ word ≠ "<" := by decide

/-- A chain is over where no name follows a dot. -/
theorem EndsChain.over (h : EndsChain words rest) (hwords : words ⊆ selectedWords) :
    (begins "." rest && (startsWith (·.isName) rest.tail || begins "<" rest.tail)) = false := by
  rcases h with hdot | ⟨dot, t, us, rfl, -, word, hword, ht⟩
  · rw [hdot, Bool.false_and]
  · obtain ⟨hkeyword, hless⟩ := selectedWords_reserved word (hwords hword)
    simp [ht.isName, hkeyword, ht.spells, hless]

/-- Of the words behind a dot, it is none that is not asked for. -/
theorem EndsChain.begins (h : EndsChain words rest) {word : String} (hword : word ∉ words) :
    (Source.begins "." rest && Source.begins word rest.tail) = false := by
  rcases h with hdot | ⟨dot, t, us, rfl, -, other, hother, ht⟩
  · rw [hdot, Bool.false_and]
  · have hne : other ≠ word := fun heq => hword (heq ▸ hother)
    simp [ht.spells, hne]

/-- Behind the tail of a chain a token starts what it started before, unless it is the dot. -/
theorem ChainTail.begins (h : ChainTail ts names) {word : String} (hword : word ≠ ".")
    (hrest : begins word rest = false) : Source.begins word (ts ++ rest) = false := by
  cases h with
  | nil => exact hrest
  | cons hdot => simp [hdot.spells, Ne.symm hword]

namespace Parser

/-- A chain ends where no dot with a name or an angle follows. -/
theorem chainSegment_over
    (h : (begins "." rest && (startsWith (·.isName) rest.tail || begins "<" rest.tail)) = false) :
    chainSegment s rest = .ok ⟨none, [], rest⟩ := by
  rw [chainSegment, bind_of_ok (ahead_apply s rest)]
  rcases rest with _ | ⟨dot, _ | ⟨t, rest⟩⟩
  · rfl
  · rfl
  · simp only [begins_cons, List.tail_cons, startsWith_cons] at h
    cases hdot : dot.spells "." with
    | false => simp [hdot]
    | true =>
      rw [hdot, Bool.true_and, Bool.or_eq_false_iff] at h
      simp [hdot, h.1, h.2]

/-- A dot, type arguments and a name are the next segment of a chain. -/
theorem chainSegment_arguments (hdot : dot.IsSign ".") (has : OptionalArguments as)
    (ht : t.IsIdentifier) :
    chainSegment s (dot :: (as ++ t :: rest)) = .ok ⟨some t.text, [], rest⟩ := by
  cases has with
  | none => exact chainSegment_more hdot ht.isName
  | @list less greater as hless has hgreater =>
    have hname : less.isName = false := hless.isName
    have hfound : typeArgumentsRest? 0 (less :: (as ++ greater :: t :: rest)) =
        some (t :: rest) := by
      rw [typeArgumentsRest?_less (by simp [hless.spells]), has.typeArgumentsRest? Nat.one_pos,
        typeArgumentsRest?_greater hgreater, if_pos (Nat.le_refl 1)]
    rw [chainSegment, bind_of_ok (ahead_apply s _), List.cons_append, List.append_assoc]
    simp [hdot.spells, hname, hless.spells, hfound, ht.isName, bind_apply]

/-- The names of a chain are read up to its end. -/
theorem chainSegments_tail (h : ChainTail ts names)
    (hrest : (begins "." rest && (startsWith (·.isName) rest.tail || begins "<" rest.tail)) = false) :
    chainSegments s (ts ++ rest) = .ok ⟨names, [], rest⟩ := by
  rw [chainSegments_eq]
  induction h with
  | nil => exact gather_done (chainSegment_over hrest)
  | @cons dot t as ts names hdot has ht _ ih =>
    have hround : chainSegment s (dot :: (as ++ t :: (ts ++ rest))) =
        .ok ⟨some t.text, [], ts ++ rest⟩ := chainSegment_arguments hdot has ht
    rw [List.cons_append, List.append_assoc, List.cons_append]
    refine gather_again hround ?_ ih
    simp only [List.length_cons, List.length_append]
    omega

end Parser

/-! ## Calls and selections -/

/-- What begins a list that is not empty begins it with any rest behind. -/
theorem begins_of_head {sign : String} (h : ∃ l us, ts = l :: us ∧ l.IsSign sign) (word : String)
    (rest : List Token) : begins word (ts ++ rest) = (sign == word) := by
  obtain ⟨l, us, rfl, hl⟩ := h
  exact hl.spells word

/-- Arguments in parentheses, their number as it is counted, and what they record. -/
inductive CallGroup (nested : Construct → Parser Unit) (s : Scope) :
    List Token → Nat → List Fact → Prop
  | mk {l r : Token} {as : List Token} {facts : List Fact} (hl : l.IsSign "(")
      (hbrackets : Bracketed as) (has : Inside nested s as facts) (hr : r.IsSign ")") :
      CallGroup nested s (l :: (as ++ [r])) (argumentCount as) facts

/-- A call group starts with its opening parenthesis. -/
theorem CallGroup.head (h : CallGroup nested s as arity facts) :
    ∃ l us, as = l :: us ∧ l.IsSign "(" := by
  cases h with
  | mk hl => exact ⟨_, _, rfl, hl⟩

/-- A member selected through a qualifier, with the given tokens behind it. -/
inductive Selected (nested : Construct → Parser Unit) (s : Scope) (qualifier : String)
    (kind : QualifierKind) (rest : List Token) : List Token → List Fact → Prop
  | field {n : Token} (hn : n.IsIdentifier) (hrest : begins "(" rest = false) :
      Selected nested s qualifier kind rest [n] [fieldAccess n.text qualifier kind n.line]
  | method {n : Token} {as : List Token} {arity : Nat} {facts : List Fact} (hn : n.IsIdentifier)
      (has : CallGroup nested s as arity facts) :
      Selected nested s qualifier kind rest (n :: as)
        (methodAccess n.text qualifier kind n.line arity :: facts)

/-- What follows `this` or `super`: a member behind a dot, or nothing that belongs to it. -/
inductive ReceiverTail (nested : Construct → Parser Unit) (s : Scope) (receiver : Receiver)
    (rest : List Token) : List Token → List Fact → Prop
  | none (hcall : begins "(" rest = false) (hend : EndsChain selectedWords rest) :
      ReceiverTail nested s receiver rest [] []
  | member {dot : Token} {as ms : List Token} {facts : List Fact} (hdot : dot.IsSign ".")
      (has : OptionalArguments as)
      (hms : Selected nested s receiver.word receiver.kind rest ms facts) :
      ReceiverTail nested s receiver rest (dot :: (as ++ ms)) facts

/-- A selected member starts with its name. -/
theorem Selected.head {qualifier : String} {kind : QualifierKind}
    (h : Selected nested s qualifier kind rest ms facts) : ∃ n us, ms = n :: us ∧ n.IsIdentifier := by
  cases h with
  | field hn => exact ⟨_, [], rfl, hn⟩
  | method hn => exact ⟨_, _, rfl, hn⟩

/-- A call group is read as an argument list, with the facts of its arguments. -/
theorem CallGroup.parenthesized (h : CallGroup nested s as arity facts) (rest : List Token) :
    parenthesized nested s (as ++ rest) = .ok ⟨(), facts, rest⟩ := by
  cases h with
  | mk hl _ has hr =>
    rw [List.cons_append, List.append_assoc]
    exact parenthesized_apply hl hr has rest

/-- A selected member is read to its end, with its facts. -/
theorem Selected.apply {qualifier : String} {kind : QualifierKind}
    (h : Selected nested s qualifier kind rest ms facts) :
    selected nested qualifier kind s (ms ++ rest) = .ok ⟨(), facts, rest⟩ := by
  cases h with
  | field hn hrest => exact selected_field hn hrest qualifier kind
  | method hn has =>
    cases has with
    | mk hl hbrackets has hr =>
      rw [List.cons_append, List.cons_append, List.append_assoc]
      exact selected_call hn hl hr hbrackets has qualifier kind rest

/-- What follows `this` or `super` is read to its end, with its facts. -/
theorem ReceiverTail.apply {receiver : Receiver} (ht : t.IsWord receiver.word)
    (h : ReceiverTail nested s receiver rest ms facts) :
    thisOrSuper nested s (t :: (ms ++ rest)) = .ok ⟨(), facts, rest⟩ := by
  have hkind : (if t.text == "this" then QualifierKind.this else QualifierKind.super) =
      receiver.kind := by cases receiver <;> simp [ht.2, Receiver.word, Receiver.kind]
  rw [thisOrSuper, bind_of_ok (next_cons s t _), recording_nil, bind_of_ok (ahead_apply s _),
    recording_nil, hkind, ht.2]
  -- a parenthesis, a dot with a name or an angle behind it, or nothing that goes on
  cases h with
  | none hcall hend =>
    have hover := hend.over (List.Subset.refl _)
    rw [Bool.and_or_distrib_left, Bool.or_eq_false_iff] at hover
    rw [List.nil_append, hcall, if_neg (by simp), hover.2, if_neg (by simp), hover.1,
      if_neg (by simp)]
    rfl
  | @member dot as ms _ hdot has hms =>
    have hread := hms.apply
    obtain ⟨n, us, rfl, hn⟩ := hms.head
    rw [List.cons_append, List.append_assoc, if_neg (by simp [hdot.spells])]
    cases has with
    | none =>
      rw [if_neg (by simp [hn.spells_signs]), if_pos (by simp [hdot.spells, hn.isName]),
        bind_of_ok (skip_cons s dot _), recording_nil]
      exact hread
    | @list less greater as hless has hgreater =>
      have hskip : skipTypeArguments s (less :: (as ++ greater :: (n :: us ++ rest))) = _ :=
        skipTypeArguments_angleBody hless has hgreater _
      rw [List.cons_append, List.append_assoc, List.singleton_append,
        if_pos (by simp [hdot.spells, hless.spells]), bind_of_ok (skip_cons s dot _),
        recording_nil, bind_of_ok hskip, recording_nil]
      exact hread

namespace Parser

/-- Explicit type arguments make no difference to a selection. -/
theorem selector_arguments (hdot : dot.IsSign ".") (has : OptionalArguments as)
    (hts : begins "<" ts = false) :
    selector nested s (dot :: (as ++ ts)) = selector nested s (dot :: ts) := by
  have hwith := skipOptionalTypeArguments_of_optional has hts s
  have hwithout := skipOptionalTypeArguments_of_not_less hts (s := s)
  simp [selector, bind_apply, expect_cons, hdot.spells, hwith, hwithout]

/-- Behind a dot, `this` and `super` are read as they are elsewhere. -/
theorem selector_receiver (receiver : Receiver) (hdot : dot.IsSign ".")
    (ht : t.IsWord receiver.word) :
    selector nested s (dot :: t :: rest) = thisOrSuper nested s (t :: rest) := by
  have hskip : skipOptionalTypeArguments s (t :: rest) = .ok ⟨(), [], t :: rest⟩ :=
    skipOptionalTypeArguments_of_not_less (by cases receiver <;> simp [ht.spells, Receiver.word])
  cases receiver <;>
    simp [selector, bind_apply, expect_cons, hdot.spells, hskip, ht.spells, Receiver.word]

/-- Behind a dot, `class` is passed over and nothing is recorded. -/
theorem selector_class (hdot : dot.IsSign ".") (ht : t.IsWord "class") :
    selector nested s (dot :: t :: rest) = .ok ⟨(), [], rest⟩ := by
  have hskip : skipOptionalTypeArguments s (t :: rest) = .ok ⟨(), [], t :: rest⟩ :=
    skipOptionalTypeArguments_of_not_less (by simp [ht.spells])
  simp [selector, bind_apply, expect_cons, hdot.spells, hskip, ht.spells]

/-- A creation behind a dot is left to the next part. -/
theorem selector_new (hdot : dot.IsSign ".") (ht : t.IsWord "new") :
    selector nested s (dot :: t :: rest) = .ok ⟨(), [], t :: rest⟩ := by
  have hskip : skipOptionalTypeArguments s (t :: rest) = .ok ⟨(), [], t :: rest⟩ :=
    skipOptionalTypeArguments_of_not_less (by simp [ht.spells])
  simp [selector, bind_apply, expect_cons, hdot.spells, hskip, ht.spells]

end Parser

/-! ## Creations -/

/-- The name of what is created: a primitive type, or a class with its type arguments. -/
inductive CreatedName : List Token → Prop
  | primitive {t : Token} (ht : t.IsValueType) : CreatedName [t]
  | named {t : Token} {as us : List Token} (has : OptionalArguments as) (ht : t.IsIdentifier)
      (hus : NameTail us) : CreatedName (as ++ t :: us)

/-- One pair of square brackets of a created array, with its length or without. -/
inductive Dimension (nested : Construct → Parser Unit) (s : Scope) : List Token → List Fact → Prop
  | empty {l r : Token} (hl : l.IsSign "[") (hr : r.IsSign "]") : Dimension nested s [l, r] []
  | sized {l r : Token} {es : List Token} {facts : List Fact} (hl : l.IsSign "[")
      (hstart : startsWith (!·.spells "]") es) (hes : Inside nested s es facts)
      (hr : r.IsSign "]") : Dimension nested s (l :: (es ++ [r])) facts

/-- The square brackets of a created array. -/
inductive Dimensions (nested : Construct → Parser Unit) (s : Scope) : List Token → List Fact → Prop
  | one {ds : List Token} {facts : List Fact} (hds : Dimension nested s ds facts) :
      Dimensions nested s ds facts
  | more {ds es : List Token} {fs gs : List Fact} (hds : Dimension nested s ds fs)
      (hes : Dimensions nested s es gs) : Dimensions nested s (ds ++ es) (fs ++ gs)

/-- Something in braces that the parser reads as a whole, whatever follows. -/
inductive Braced (p : Parser Unit) (s : Scope) : List Token → List Fact → Prop
  | mk {l : Token} {us : List Token} {facts : List Fact} (hl : l.IsSign "\x7b")
      (hread : ∀ rest, p s (l :: (us ++ rest)) = .ok ⟨(), facts, rest⟩) :
      Braced p s (l :: us) facts

/-- What follows the name of what is created: arguments, with the body of a class or without, or
square brackets, with an array initialiser or without. -/
inductive CreatedTail (nested : Construct → Parser Unit) (s : Scope) (rest : List Token) :
    List Token → List Fact → Prop
  | object {as : List Token} {arity : Nat} {facts : List Fact}
      (has : CallGroup nested s as arity facts) (hrest : begins "\x7b" rest = false) :
      CreatedTail nested s rest as facts
  | anonymous {as bs : List Token} {arity : Nat} {fs gs : List Fact}
      (has : CallGroup nested s as arity fs) (hbs : Braced (anonymousBody nested) s bs gs) :
      CreatedTail nested s rest (as ++ bs) (fs ++ gs)
  | array {ds : List Token} {facts : List Fact} (hds : Dimensions nested s ds facts)
      (hrest : begins "[" rest = false ∧ begins "\x7b" rest = false) :
      CreatedTail nested s rest ds facts
  | initialized {ds bs : List Token} {fs gs : List Fact} (hds : Dimensions nested s ds fs)
      (hbs : Braced (nested .arrayInitializer) s bs gs) :
      CreatedTail nested s rest (ds ++ bs) (fs ++ gs)

/-- A braced part is read to its end, with its facts. -/
theorem Braced.apply {p : Parser Unit} (h : Braced p s bs facts) (rest : List Token) :
    p s (bs ++ rest) = .ok ⟨(), facts, rest⟩ := by
  cases h with
  | mk _ hread => exact hread rest

/-- A braced part starts with its opening brace. -/
theorem Braced.head {p : Parser Unit} (h : Braced p s bs facts) :
    ∃ l us, bs = l :: us ∧ l.IsSign "\x7b" := by
  cases h with
  | mk hl => exact ⟨_, _, rfl, hl⟩

/-- Dimensions start with a bracket. -/
theorem Dimensions.head {ds : List Token} (h : Dimensions nested s ds facts) :
    ∃ l us, ds = l :: us ∧ l.IsSign "[" := by
  have hone : ∀ {ds : List Token} {facts : List Fact}, Dimension nested s ds facts →
      ∃ l us, ds = l :: us ∧ l.IsSign "[" := fun h => by
    cases h with
    | empty hl => exact ⟨_, _, rfl, hl⟩
    | sized hl => exact ⟨_, _, rfl, hl⟩
  cases h with
  | one hds => exact hone hds
  | more hds =>
    obtain ⟨l, us, rfl, hl⟩ := hone hds
    exact ⟨l, _, rfl, hl⟩

namespace Parser

/-- One more name of what is created, if there is one. -/
def createdSegment : Parser Bool := do
  let ts ← ahead
  if begins "." ts && startsWith (·.isName) ts.tail then
    resumeAt (ts.drop 2)
    skipOptionalTypeArguments
    return true
  return false

/-- The name of a creation, written out step by step. -/
theorem createdName_eq : createdName = (do
    skipOptionalTypeArguments
    skipAnnotations
    if startsWith (·.isPrimitive) (← ahead) then skip
    else
      discard name
      skipOptionalTypeArguments
      repeatWhile createdSegment) := rfl

/-- The created name ends where no dot follows. -/
theorem createdSegment_done (h : begins "." ts = false) :
    createdSegment s ts = .ok ⟨false, [], ts⟩ := by
  simp [createdSegment, bind_apply, h]

/-- A dot, a name and type arguments that may be missing go on with the created name. -/
theorem createdSegment_more {mid : List Token} (hdot : dot.IsSign ".") (ht : t.IsIdentifier)
    (hopt : skipOptionalTypeArguments s ts = .ok ⟨(), [], mid⟩) :
    createdSegment s (dot :: t :: ts) = .ok ⟨true, [], mid⟩ := by
  simp [createdSegment, bind_apply, hdot.spells, ht.isName, hopt]

/-- The name of what is created is read up to what follows it. -/
theorem createdName_of_form (h : CreatedName cs) (hrest : EndsName rest) (s : Scope) :
    createdName s (cs ++ rest) = .ok ⟨(), [], rest⟩ := by
  have hannotations : ∀ {t : Token}, t.StartsType → ∀ us,
      skipAnnotations s (t :: us) = .ok ⟨(), [], t :: us⟩ := fun ht us =>
    skipAnnotations_done (ht.spells (by decide) (by decide))
  rw [createdName_eq]
  cases h with
  | @primitive t ht =>
    have hskip : skipOptionalTypeArguments s (t :: rest) = _ :=
      skipOptionalTypeArguments_of_not_less (ht.spells "<" (by decide))
    simp [bind_apply, hskip, hannotations (.inr ht), ht.isPrimitive]
  | @named t as us has ht hus =>
    have hskip : skipOptionalTypeArguments s (as ++ t :: (us ++ rest)) = _ :=
      skipOptionalTypeArguments_of_optional has (by simp [ht.spells_signs]) s
    obtain ⟨next, -, hnext, hloop⟩ := repeatWhile_nameTail (s := s) createdSegment_done
      createdSegment_more hus hrest
    have hname := discard_of_ok (name_cons ht.isName s (us ++ rest))
    rw [List.append_assoc, List.cons_append, bind_of_ok hskip, recording_nil,
      bind_of_ok (hannotations (.inl ht) _), recording_nil, bind_of_ok (ahead_apply s _),
      recording_nil, if_neg (by simp [ht.isPrimitive]), bind_of_ok hname, recording_nil,
      bind_of_ok hnext, recording_nil, hloop]

/-- One more pair of square brackets of a created array, if there is one. -/
def dimensionRound (nested : Construct → Parser Unit) : Parser Bool := do
  if ← sees "[" then
    skip
    if !(← sees "]") then nested (.expression [])
    expect "]"
    return true
  return false

/-- A creation, written out step by step. -/
theorem creation_eq (nested : Construct → Parser Unit) : creation nested = (do
    expect "new"
    createdName
    if ← sees "(" then
      parenthesized nested
      if ← sees "\x7b" then anonymousBody nested
    else
      repeatWhile (dimensionRound nested)
      if ← sees "\x7b" then nested .arrayInitializer) := rfl

/-- One dimension is one round of the loop of a creation. -/
theorem dimensionRound_apply {ds : List Token} (h : Dimension nested s ds facts)
    (rest : List Token) : dimensionRound nested s (ds ++ rest) = .ok ⟨true, facts, rest⟩ := by
  cases h with
  | empty hl hr =>
    simp [dimensionRound, bind_apply, hl.spells, hr.spells, expect_cons]
  | @sized l r es _ hl hstart hes hr =>
    have hread := hes r rest (hr.closes (by decide)).1
    obtain ⟨u, us, rfl, hu⟩ := startsWith_eq_true hstart
    rw [List.cons_append] at hread
    simp_all [dimensionRound, bind_apply, hl.spells, hr.spells, expect_cons]

/-- The loop of a creation reads all dimensions, with their facts. -/
theorem repeatWhile_dimensions {ds : List Token} (h : Dimensions nested s ds facts)
    (hrest : begins "[" rest = false) :
    repeatWhile (dimensionRound nested) s (ds ++ rest) = .ok ⟨(), facts, rest⟩ := by
  have hdone : repeatWhile (dimensionRound nested) s rest = .ok ⟨(), [], rest⟩ :=
    repeatWhile_done (by simp [dimensionRound, bind_apply, hrest])
  have hshorter : ∀ {ds : List Token} {facts : List Fact}, Dimension nested s ds facts →
      ∀ us, us.length < (ds ++ us).length := fun h us => by
    cases h <;> simp +arith
  induction h with
  | one hds =>
    rw [repeatWhile_again (dimensionRound_apply hds rest) (hshorter hds rest), hdone]
    simp
  | @more ds es fs gs hds _ ih =>
    rw [List.append_assoc, repeatWhile_again (dimensionRound_apply hds _) (hshorter hds _), ih]
    rfl

/-- A creation records what its arguments, lengths and body record. -/
theorem creation_of_form (hnew : t.IsWord "new") (hcs : CreatedName cs)
    (h : CreatedTail nested s rest ms facts) :
    creation nested s (t :: (cs ++ (ms ++ rest))) = .ok ⟨(), facts, rest⟩ := by
  have hread : ∀ {us : List Token}, EndsName us → createdName s (cs ++ us) = .ok ⟨(), [], us⟩ :=
    fun hus => createdName_of_form hcs hus s
  rw [creation_eq, bind_of_ok (expect_cons (by simp [hnew.spells]) s _), recording_nil]
  -- behind the name stands a parenthesis or a bracket, so the name ends there
  cases h with
  | object has hrest =>
    have hgroup := has.parenthesized rest
    rw [bind_of_ok (hread (by simp [EndsName, begins_of_head has.head])), recording_nil]
    simp [bind_apply, begins_of_head has.head, hgroup, hrest]
  | anonymous has hbs =>
    have hgroup := has.parenthesized
    have hbody := hbs.apply rest
    rw [List.append_assoc, bind_of_ok (hread (by simp [EndsName, begins_of_head has.head])),
      recording_nil]
    simp [bind_apply, begins_of_head has.head, begins_of_head hbs.head, hgroup, hbody]
  | array hds hrest =>
    have hloop := repeatWhile_dimensions hds hrest.1
    rw [bind_of_ok (hread (by simp [EndsName, begins_of_head hds.head])), recording_nil]
    simp [bind_apply, begins_of_head hds.head, hloop, hrest.2]
  | @initialized ds bs _ _ hds hbs =>
    have hbody := hbs.apply rest
    have hloop : repeatWhile (dimensionRound nested) s (ds ++ (bs ++ rest)) = _ :=
      repeatWhile_dimensions hds (by simp [begins_of_head hbs.head])
    rw [List.append_assoc, bind_of_ok (hread (by simp [EndsName, begins_of_head hds.head])),
      recording_nil]
    simp [bind_apply, begins_of_head hds.head, begins_of_head hbs.head, hloop, hbody]

end Parser

/-! ## Casts and tests -/

/-- Types joined by ampersands. -/
inductive Bounds : List Token → Prop
  | one {as : List Token} (has : TypeForm .type as) : Bounds as
  | more {ampersand : Token} {as bs : List Token} (has : TypeForm .type as)
      (hampersand : ampersand.IsSign "&") (hbs : Bounds bs) : Bounds (as ++ ampersand :: bs)

/-- Nothing that follows the type of a test belongs to it. -/
structure EndsTest (rest : List Token) : Prop where
  type : EndsType rest
  name : startsWith (·.isName) rest = false
  minus : begins "-" rest = false

/-- What is tested for by `instanceof`, and the variable that is bound, if there is one. -/
inductive TestForm (rest : List Token) : List Token → List Fact → Prop
  | type {ms as : List Token} {words : List String} (hms : Modifiers localModifiers ms words)
      (has : TypeForm .type as) (hrest : EndsTest rest) : TestForm rest (ms ++ as) []
  | pattern {ms as : List Token} {words : List String} {x : Token}
      (hms : Modifiers localModifiers ms words) (has : TypeForm .type as) (hx : x.IsIdentifier) :
      TestForm rest (ms ++ (as ++ [x])) [.value x.text]

/-- Behind a bound and an ampersand the look goes on with the next bound. -/
theorem boundsRest?_more {u : Token} (h : typeRest? ts = some (u :: rest)) (hu : u.spells "&") :
    boundsRest? ts = boundsRest? rest := by
  rw [boundsRest?_eq, h, Option.bind_some, begins_cons, if_pos hu, List.tail_cons]

/-- A type ends at a sign that is no part of it. -/
theorem TypeForm.typeRest? {sign : String} (h : TypeForm .type as) (hr : r.IsSign sign)
    (hsign : sign ∉ ["<", ".", "["]) (rest : List Token) :
    typeRest? (as ++ r :: rest) = some (r :: rest) := by
  have hends := hr.endsType hsign rest
  rw [h.readAsType.found _ hends.name, dimensionsRest_of_not_opener hends.bracket]

/-- The look over the bounds of a cast stops at the closing parenthesis. -/
theorem Bounds.boundsRest? (h : Bounds bs) (hr : r.IsSign ")") (rest : List Token) :
    boundsRest? (bs ++ r :: rest) = some (r :: rest) := by
  induction h with
  | one has => exact boundsRest?_done (has.typeRest? hr (by decide) rest) (by simp [hr.spells])
  | more has hampersand _ ih =>
    rw [List.append_assoc, List.cons_append,
      boundsRest?_more (has.typeRest? hampersand (by decide) _) (by simp [hampersand.spells]), ih]

/-- The bounds of a cast have their brackets balanced. -/
theorem Bounds.bracketed (h : Bounds bs) : Bracketed bs := by
  induction h with
  | one has => exact has.angleBody.bracketed
  | more has hampersand _ ih =>
    exact has.angleBody.bracketed.append
      (.token (hampersand.isPlain (by decide) (by decide)) ih)

/-- The bounds of a cast start with a type. -/
theorem Bounds.head (h : Bounds bs) : ∃ t us, bs = t :: us ∧ t.StartsType := by
  cases h with
  | one has =>
    obtain ⟨t, us, heq, ht, -⟩ := has.readAsType.head
    exact ⟨t, us, heq, ht⟩
  | more has =>
    obtain ⟨t, us, rfl, ht, -⟩ := has.readAsType.head
    exact ⟨t, _, rfl, ht⟩

namespace Parser

/-- A cast is read up to its operand, and nothing is recorded. -/
theorem fromParenthesis_cast (hl : l.IsSign "(") (hbs : Bounds bs) (hr : r.IsSign ")")
    (harrow : begins "->" rest = false)
    (hrest : startsWith (startsCastOperand (startsWith (·.isPrimitive) bs)) rest) :
    fromParenthesis nested (bs ++ r :: rest) s (l :: (bs ++ r :: rest)) =
      .ok ⟨true, [], rest⟩ := by
  have hgroup := groupAhead_bracketed s (hl.opens rfl) (hr.closes (by decide)) hbs.bracketed rest
  obtain ⟨operand, us, rfl, hoperand⟩ := startsWith_eq_true hrest
  rw [begins_cons] at harrow
  have hprimitive : startsWith (·.isPrimitive) (bs ++ r :: operand :: us) =
      startsWith (·.isPrimitive) bs := by
    obtain ⟨t, us, rfl, -⟩ := hbs.head
    rfl
  have hcast : castRest? (bs ++ r :: operand :: us) = some (operand :: us) := by
    rw [castRest?, hbs.boundsRest? hr]
    simp [hprimitive, hr.spells, hoperand]
  simp [fromParenthesis, bind_apply, hgroup, harrow, hcast]

/-- A type test is read to its end, with the variables it declares. -/
theorem instanceTest_of_form (h : TestForm rest ts facts) (t : Token) :
    instanceTest s (t :: (ts ++ rest)) = .ok ⟨(), facts, rest⟩ := by
  cases h with
  | @type ms as words hms has hrest =>
    have hmodifiers := discard_of_ok (modifiers_apply hms (by decide)
      (has.readAsType.unmodified hrest.minus) s)
    have htype := type_apply has.readAsType hrest.type s
    simp [instanceTest, bind_apply, hmodifiers, htype, hrest.name]
  | @pattern ms as words x hms has hx =>
    have hminus : begins "-" (x :: rest) = false := by simp [hx.spells_signs]
    have hmodifiers := discard_of_ok (modifiers_apply hms (by decide)
      (has.readAsType.unmodified hminus) s)
    have htype := type_apply has.readAsType (hx.endsType rest) s
    simp [instanceTest, bind_apply, hmodifiers, htype, hx.isName]

end Parser

/-! ## Parts and expressions -/

/-- The tokens are a part of an expression that stops at the given signs, with the given tokens
behind it, and the facts are what the part stands for. -/
inductive PartForm (nested : Construct → Parser Unit) (stop : List String) (s : Scope)
    (rest : List Token) : List Token → List Fact → Prop
  /-- An operator, a literal or a reserved word. -/
  | token {t : Token} (hname : t.isName = false) (hwords : ∀ word ∈ partWords, t.spells word = false)
      (hends : ¬ Ends stop t) : PartForm nested stop s rest [t] []
  | chain {t : Token} {ts : List Token} {names : List String} (ht : t.IsIdentifier)
      (hts : ChainTail ts names) (hcall : begins "(" rest = false)
      (hend : EndsChain ["new", "super"] rest) (harrow : begins "->" (ts ++ rest) = false) :
      PartForm nested stop s rest (t :: ts) (chainAccesses t.line [t.text] names)
  | chainCall {t : Token} {ts as : List Token} {names : List String} {arity : Nat}
      {facts : List Fact} (ht : t.IsIdentifier) (hts : ChainTail ts names)
      (has : CallGroup nested s as arity facts) :
      PartForm nested stop s rest (t :: (ts ++ as)) (chainCall t names arity ++ facts)
  | classLiteral {t dot c : Token} {ts : List Token} {names : List String} (ht : t.IsIdentifier)
      (hts : ChainTail ts names) (hdot : dot.IsSign ".") (hc : c.IsWord "class") :
      PartForm nested stop s rest (t :: (ts ++ [dot, c])) []
  | outerThis {t dot u : Token} {ts ms : List Token} {names : List String} {facts : List Fact}
      (ht : t.IsIdentifier) (hts : ChainTail ts names) (hdot : dot.IsSign ".")
      (hu : u.IsWord "this") (hms : ReceiverTail nested s .this rest ms facts) :
      PartForm nested stop s rest (t :: (ts ++ dot :: u :: ms))
        (chainAccesses t.line [t.text] names ++ facts)
  | receiver {t : Token} {ms : List Token} {facts : List Fact} (receiver : Receiver)
      (ht : t.IsWord receiver.word) (hms : ReceiverTail nested s receiver rest ms facts) :
      PartForm nested stop s rest (t :: ms) facts
  | selection {dot : Token} {as ms : List Token} {facts : List Fact} (hdot : dot.IsSign ".")
      (has : OptionalArguments as) (hms : Selected nested s "" .expression rest ms facts) :
      PartForm nested stop s rest (dot :: (as ++ ms)) facts
  | selectedReceiver {dot t : Token} {ms : List Token} {facts : List Fact} (hdot : dot.IsSign ".")
      (receiver : Receiver) (ht : t.IsWord receiver.word)
      (hms : ReceiverTail nested s receiver rest ms facts) :
      PartForm nested stop s rest (dot :: t :: ms) facts
  | selectedClass {dot c : Token} (hdot : dot.IsSign ".") (hc : c.IsWord "class") :
      PartForm nested stop s rest [dot, c] []
  /-- The dot before the creation of an object of an inner class. -/
  | innerCreation {dot new : Token} {us : List Token} (hdot : dot.IsSign ".")
      (hnew : new.IsWord "new") (hrest : rest = new :: us) : PartForm nested stop s rest [dot] []
  | element {l r : Token} {es : List Token} {facts : List Fact} (hl : l.IsSign "[")
      (hes : Inside nested s es facts) (hr : r.IsSign "]") :
      PartForm nested stop s rest (l :: (es ++ [r])) facts
  | parenthesized {l r : Token} {es : List Token} {facts : List Fact} (hl : l.IsSign "(")
      (hbrackets : Bracketed es) (hes : Inside nested s es facts) (hr : r.IsSign ")")
      (harrow : begins "->" rest = false) (hcast : castRest? (es ++ r :: rest) = none) :
      PartForm nested stop s rest (l :: (es ++ [r])) facts
  | lambdaBlock {arrow : Token} {xs ps bs : List Token} {facts : List Fact}
      (hps : LambdaHead xs ps) (harrow : arrow.IsSign "->")
      (hbs : Braced (block nested) s bs facts) :
      PartForm nested stop s rest (ps ++ arrow :: bs)
        (xs.flatMap (declaredValue .parameter s.owner) ++ facts)
  | methodReference {colons k : Token} {as : List Token} (hcolons : colons.IsSign "::")
      (has : OptionalArguments as) (hk : k.IsIdentifier ∨ k.IsWord "new") :
      PartForm nested stop s rest (colons :: (as ++ [k])) []
  | creation {new : Token} {cs ms : List Token} {facts : List Fact} (hnew : new.IsWord "new")
      (hcs : CreatedName cs) (hms : CreatedTail nested s rest ms facts) :
      PartForm nested stop s rest (new :: (cs ++ ms)) facts
  | switch {t : Token} {as bs : List Token} {arity : Nat} {fs gs : List Fact}
      (ht : t.IsWord "switch") (has : CallGroup nested s as arity fs)
      (hbs : Braced (switchBlock nested) s bs gs) :
      PartForm nested stop s rest (t :: (as ++ bs)) (fs ++ gs)
  | test {t : Token} {us : List Token} {facts : List Fact} (ht : t.IsWord "instanceof")
      (hus : TestForm rest us facts) : PartForm nested stop s rest (t :: us) facts

/-- The tokens are an expression, or the end of one, with the given tokens behind it, and the facts
are what it stands for. -/
inductive ExpressionForm (nested : Construct → Parser Unit) (stop : List String) (s : Scope)
    (following : List Token) : List Token → List Fact → Prop
  | done : ExpressionForm nested stop s following [] []
  | part {ps us : List Token} {fs gs : List Fact}
      (hps : PartForm nested stop s (us ++ following) ps fs)
      (hus : ExpressionForm nested stop s following us gs) :
      ExpressionForm nested stop s following (ps ++ us) (fs ++ gs)
  /-- The types of a cast, whose operand follows. -/
  | cast {l r : Token} {bs us : List Token} {facts : List Fact} (hl : l.IsSign "(")
      (hbs : Bounds bs) (hr : r.IsSign ")") (harrow : begins "->" (us ++ following) = false)
      (hoperand : startsWith (startsCastOperand (startsWith (·.isPrimitive) bs)) (us ++ following))
      (hus : ExpressionForm nested stop s following us facts) :
      ExpressionForm nested stop s following (l :: (bs ++ r :: us)) facts
  | lambda {arrow : Token} {xs ps us : List Token} {facts : List Fact} (hps : LambdaHead xs ps)
      (harrow : arrow.IsSign "->") (hus : ExpressionForm nested stop s following us facts) :
      ExpressionForm nested stop s following (ps ++ arrow :: us)
        (xs.flatMap (declaredValue .parameter s.owner) ++ facts)

namespace Parser

/-- A lambda expression whose body is a block is passed over. -/
theorem passes_lambdaBlock (hstop : stop ⊆ separators) (hps : LambdaHead xs ps)
    (harrow : arrow.IsSign "->") (hbs : Braced (block nested) s bs facts) :
    Passes nested stop s (ps ++ arrow :: bs)
      (xs.flatMap (declaredValue .parameter s.owner) ++ facts) rest := by
  intro afterArrow
  have hblock := hbs.apply rest
  obtain ⟨l, us, rfl, hl⟩ := hbs.head
  have hpart : expressionPart nested stop true l (us ++ rest) s (l :: (us ++ rest)) =
      .ok ⟨false, facts, rest⟩ := by
    rw [List.cons_append] at hblock
    simp [expressionPart, bind_apply, hl.spells, hblock]
  rw [List.append_assoc, List.cons_append, List.cons_append, iterate_lambda hstop hps harrow,
    round_of_part (not_ends_of_not_separator hstop hl (by decide)) hpart (by simp),
    recording_recording]

/-- The type of a cast is passed over, and the operand is read as if it were not there. -/
theorem iterate_cast (hstop : stop ⊆ separators) (hl : l.IsSign "(") (hbs : Bounds bs)
    (hr : r.IsSign ")") (harrow : begins "->" us = false)
    (hoperand : startsWith (startsCastOperand (startsWith (·.isPrimitive) bs)) us)
    (afterArrow : Bool) :
    iterate (expressionRound nested stop) afterArrow s (l :: (bs ++ r :: us)) =
      iterate (expressionRound nested stop) afterArrow s us := by
  have hpart : expressionPart nested stop afterArrow l (bs ++ r :: us) s (l :: (bs ++ r :: us)) =
      .ok ⟨afterArrow, [], us⟩ := by
    have hread : fromParenthesis nested (bs ++ r :: us) s _ = _ :=
      fromParenthesis_cast hl hbs hr harrow hoperand
    simp [expressionPart, bind_apply, hl.spells, hread]
  rw [round_of_part (not_ends_of_not_separator hstop hl (by decide)) hpart (by simp; omega),
    recording_nil]

/-- A method reference is passed over from its colons on. -/
theorem passes_colons {colons k : Token} (hstop : stop ⊆ separators) (hcolons : colons.IsSign "::")
    (has : OptionalArguments as) (hk : begins "<" (k :: rest) = false) :
    Passes nested stop s (colons :: (as ++ [k])) [] rest := by
  refine .of_part (not_ends_of_not_separator hstop hcolons (by decide)) fun afterArrow => ?_
  have hskip : skipOptionalTypeArguments s (as ++ k :: rest) = .ok ⟨(), [], k :: rest⟩ :=
    skipOptionalTypeArguments_of_optional has hk s
  simp [expressionPart, bind_apply, hcolons.spells, hskip]

/-- A switch expression passes, with the facts of its selector and its block. -/
theorem passes_switch (ht : t.IsWord "switch") (has : CallGroup nested s as arity fs)
    (hbs : Braced (switchBlock nested) s bs gs) :
    Passes nested stop s (t :: (as ++ bs)) (fs ++ gs) rest := by
  refine .of_part (not_ends_of_isWord ht) fun afterArrow => ?_
  simp [expressionPart, bind_apply, ht.spells, has.parenthesized, hbs.apply]

/-- A type test passes, with the variables it declares. -/
theorem passes_test (ht : t.IsWord "instanceof") (hts : TestForm rest ts facts) :
    Passes nested stop s (t :: ts) facts rest := by
  refine .of_part (not_ends_of_isWord ht) fun afterArrow => ?_
  simp [expressionPart, bind_apply, ht.spells, instanceTest_of_form hts]

end Parser

/-- A part of an expression is passed over. -/
theorem PartForm.passes (h : PartForm nested stop s rest ps facts) (hstop : stop ⊆ separators) :
    Passes nested stop s ps facts rest := by
  -- one case for each form of a part; what may follow a form keeps its loop from going on
  cases h with
  -- a token of no longer part passes by itself
  | token hname hwords hends =>
    exact .of_part hends fun afterArrow => expressionPart_skipped hname hwords afterArrow
  -- chains of names: a call, a class or `this` may end them, and decides what is recorded
  | chain ht hts hcall hend harrow =>
    have hmore := chainSegments_tail (s := s) hts (hend.over (by decide))
    exact passes_nameChain ht harrow
      (nameChain_accesses ht hmore hcall (hend.begins (by decide)) (hend.begins (by decide)))
  | @chainCall t ts as names _ _ ht hts has =>
    cases has with
    | @mk l r as _ hl hbrackets has hr =>
      have hmore : chainSegments s (ts ++ l :: (as ++ r :: rest)) = _ :=
        chainSegments_tail hts (by simp [hl.spells])
      have harrow : begins "->" (ts ++ l :: (as ++ r :: rest)) = false :=
        hts.begins (by decide) (by simp [hl.spells])
      exact passes_nameChain ht (by simpa using harrow)
        (by simpa using nameChain_called ht hmore hl hr hbrackets has)
  | @classLiteral t dot c ts names ht hts hdot hc =>
    have hends : EndsChain ["class"] (dot :: c :: rest) :=
      .inr ⟨dot, c, rest, rfl, hdot, "class", by decide, hc⟩
    have hmore := chainSegments_tail (s := s) hts (hends.over (by decide))
    have harrow : begins "->" (ts ++ dot :: c :: rest) = false :=
      hts.begins (by decide) (by simp [hdot.spells])
    refine passes_nameChain ht (by simpa using harrow) ?_
    simp [nameChain, bind_apply, name_cons ht.isName, hmore, hdot.spells, hc.spells]
  | @outerThis t dot u ts ms names facts ht hts hdot hu hms =>
    have hends : EndsChain ["this"] (dot :: u :: (ms ++ rest)) :=
      .inr ⟨dot, u, ms ++ rest, rfl, hdot, "this", by decide, hu⟩
    have hmore := chainSegments_tail (s := s) hts (hends.over (by decide))
    have harrow : begins "->" (ts ++ dot :: u :: (ms ++ rest)) = false :=
      hts.begins (by decide) (by simp [hdot.spells])
    have hread := hms.apply hu
    refine passes_nameChain ht (by simpa using harrow) ?_
    simp [nameChain, bind_apply, name_cons ht.isName, hmore, hdot.spells, hu.spells, hread,
      chainFields_one]
  -- what is told by its first token
  | receiver receiver ht hms => exact passes_thisOrSuper receiver ht (hms.apply ht)
  | @selection dot as ms _ hdot has hms =>
    have hread := hms.apply
    obtain ⟨n, us, rfl, hn⟩ := hms.head
    -- type arguments may stand behind the dot, and are passed over
    refine passes_dot hstop hdot ?_
    rw [List.append_assoc, selector_arguments hdot has (by simp [hn.spells_signs]),
      List.cons_append, selector_apply hdot hn]
    exact hread
  | selectedReceiver hdot receiver ht hms =>
    exact passes_dot hstop hdot ((selector_receiver receiver hdot ht).trans (hms.apply ht))
  | selectedClass hdot hc => exact passes_dot hstop hdot (selector_class hdot hc)
  | innerCreation hdot hnew hrest =>
    subst hrest
    exact passes_dot hstop hdot (selector_new hdot hnew)
  -- groups in brackets; a parenthesis that opens no cast and no parameters holds an expression
  | element hl hes hr => exact passes_element hstop hl hr hes
  | parenthesized hl hbrackets hes hr harrow hcast =>
    refine passes_parenthesis (fun hmem => absurd (hstop hmem) (by decide)) hl ?_
    rw [List.append_assoc]
    exact fromParenthesis_group hl hr hbrackets hes harrow hcast
  | lambdaBlock hps harrow hbs => exact passes_lambdaBlock hstop hps harrow hbs
  | methodReference hcolons has hk =>
    refine passes_colons hstop hcolons has ?_
    -- the part goes on with a name or with `new`, neither of which is an angle
    rcases hk with hk | hk
    · simp [hk.spells_signs]
    · simp [hk.spells]
  | creation hnew hcs hms =>
    refine passes_new hnew ?_
    rw [List.append_assoc]
    exact creation_of_form hnew hcs hms
  | switch ht has hbs => exact passes_switch ht has hbs
  | test ht hus => exact passes_test ht hus

/-- An expression of any form is passed over up to the token that ends it. -/
theorem ExpressionForm.passes (h : ExpressionForm nested stop s (t :: rest) es facts)
    (hstop : stop ⊆ separators) (ht : Ends stop t) : Passes nested stop s es facts (t :: rest) := by
  induction h with
  | done =>
    intro afterArrow
    rw [List.nil_append, expression_done ht, expression_done ht, recording_nil]
  | part hps _ ih => exact (hps.passes hstop).append ih
  | @cast l r bs us _ hl hbs hr harrow hoperand _ ih =>
    intro afterArrow
    rw [List.cons_append, List.append_assoc, List.cons_append,
      iterate_cast hstop hl hbs hr harrow hoperand, ih]
  | lambda hps harrow _ ih => exact passes_lambda hstop hps harrow ih

/-- What stands in brackets may again be an expression of any form, read one construct deeper. -/
theorem ExpressionForm.inside {depth : Nat}
    (h : ∀ r rest, r.isCloser → ExpressionForm (construct depth) [] s (r :: rest) es facts) :
    Inside (construct (depth + 1)) s es facts := fun r rest hr => by
  have hends : Ends [] r := by simp [Ends, hr]
  exact ((h r rest hr).passes (by simp) hends).expression hends

/-! ## The first token -/

/-- No part of an expression starts with a brace. -/
theorem ExpressionForm.not_brace (h : ExpressionForm nested stop s following es facts)
    (hfollowing : begins "\x7b" following = false) : begins "\x7b" (es ++ following) = false := by
  -- each form is told by its first token
  cases h with
  | done => exact hfollowing
  | cast hl => simp [hl.spells]
  | lambda hps =>
    cases hps with
    | name hx => simp [hx.spells_signs]
    | list hl => simp [hl.spells]
  | part hps =>
    cases hps with
    | token hname hwords => exact hwords _ (by decide)
    | chain ht => exact ht.spells _ (by decide)
    | chainCall ht => exact ht.spells _ (by decide)
    | classLiteral ht => exact ht.spells _ (by decide)
    | outerThis ht => exact ht.spells _ (by decide)
    | receiver receiver ht => cases receiver <;> simp [ht.spells, Receiver.word]
    | selection hdot => simp [hdot.spells]
    | selectedReceiver hdot => simp [hdot.spells]
    | selectedClass hdot => simp [hdot.spells]
    | innerCreation hdot => simp [hdot.spells]
    | element hl => simp [hl.spells]
    | parenthesized hl => simp [hl.spells]
    | lambdaBlock hps =>
      cases hps with
      | name hx => simp [hx.spells_signs]
      | list hl => simp [hl.spells]
    | methodReference hcolons => simp [hcolons.spells]
    | creation hnew => simp [hnew.spells]
    | switch ht => simp [ht.spells]
    | test ht => simp [ht.spells]

end Assay.Source

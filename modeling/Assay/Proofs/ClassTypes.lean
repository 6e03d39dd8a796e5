import Assay.Proofs.StatementReading

/-!
# Types with any type arguments

`TypeForm` is the full grammar of types, with wildcards and their bounds to any depth. What a parser
makes of a type depends on little of it: between angle brackets only the brackets count, so a class
type is read as a name with a tail, and `TypeForm.readAsType` holds whatever the arguments are.
-/

namespace Assay.Source

variable {t u l r dot less greater : Token} {ts us as rest : List Token} {s : Scope}

/-! ## Grammar -/

/-- The parts of a type. -/
inductive TypeSort
  | type
  /-- What comes after the first name of a class type. -/
  | tail
  /-- Type arguments in angle brackets, or none. -/
  | list
  | argument
  | arguments

/-- The tokens are a part of a type. -/
inductive TypeForm : TypeSort → List Token → Prop
  | primitive {t : Token} (ht : t.IsValueType) : TypeForm .type [t]
  | named {t : Token} {us : List Token} (ht : t.IsIdentifier) (hus : TypeForm .tail us) :
      TypeForm .type (t :: us)
  | array {ts : List Token} {l r : Token} (hts : TypeForm .type ts) (hl : l.IsSign "[")
      (hr : r.IsSign "]") : TypeForm .type (ts ++ [l, r])
  | last {as : List Token} (has : TypeForm .list as) : TypeForm .tail as
  | more {dot u : Token} {as us : List Token} (has : TypeForm .list as) (hdot : dot.IsSign ".")
      (hu : u.IsIdentifier) (hus : TypeForm .tail us) : TypeForm .tail (as ++ dot :: u :: us)
  | none : TypeForm .list []
  | list {less greater : Token} {as : List Token} (hless : less.IsSign "<")
      (has : TypeForm .arguments as) (hgreater : greater.IsSign ">") :
      TypeForm .list (less :: (as ++ [greater]))
  | argument {ts : List Token} (hts : TypeForm .type ts) : TypeForm .argument ts
  | wildcard {q : Token} (hq : q.IsSign "?") : TypeForm .argument [q]
  | bounded {q w : Token} {ts : List Token} (hq : q.IsSign "?")
      (hw : w.IsWord "extends" ∨ w.IsWord "super") (hts : TypeForm .type ts) :
      TypeForm .argument (q :: w :: ts)
  | one {as : List Token} (has : TypeForm .argument as) : TypeForm .arguments as
  | cons {comma : Token} {as bs : List Token} (has : TypeForm .argument as)
      (hcomma : comma.IsSign ",") (hbs : TypeForm .arguments bs) :
      TypeForm .arguments (as ++ comma :: bs)

/-! ## What parsers see of it -/

/-- Nothing, or anything between angle brackets. -/
inductive OptionalArguments : List Token → Prop
  | none : OptionalArguments []
  | list {less greater : Token} {as : List Token} (hless : less.IsSign "<") (has : AngleBody as)
      (hgreater : greater.IsSign ">") : OptionalArguments (less :: (as ++ [greater]))

/-- What comes after the first name of a class type, whatever its type arguments are. -/
inductive NameTail : List Token → Prop
  | last {as : List Token} (has : OptionalArguments as) : NameTail as
  | more {dot u : Token} {as us : List Token} (has : OptionalArguments as) (hdot : dot.IsSign ".")
      (hu : u.IsIdentifier) (hus : NameTail us) : NameTail (as ++ dot :: u :: us)

/-- Type arguments that may be missing may stand between angles. -/
theorem OptionalArguments.angleBody (h : OptionalArguments as) : AngleBody as := by
  cases h with
  | none => exact .nil
  | list hless has hgreater => exact .group hless has hgreater .nil

/-- An identifier may stand between angles. -/
theorem Token.IsIdentifier.inArguments (h : t.IsIdentifier) : t.InArguments := h.inType.inArguments

/-- The tail of a name may stand between angles. -/
theorem NameTail.angleBody (h : NameTail us) : AngleBody us := by
  induction h with
  | last has => exact has.angleBody
  | more has hdot hu _ ih =>
    exact has.angleBody.append (.token (hdot.inArguments (by decide)) (.token hu.inArguments ih))

/-! ## Brackets -/

/-- What may stand between angles is plain. -/
theorem Token.InArguments.isPlain (h : t.InArguments) : t.IsPlain := h.not_bracket

/-- Tokens between angles have their brackets balanced. -/
theorem AngleBody.bracketed (h : AngleBody ts) : Bracketed ts := by
  induction h with
  | nil => exact .nil
  | token ht _ ih => exact .token ht.isPlain ih
  | pair hl hr _ ih => exact .group (hl.opens rfl) .nil (hr.closes (by decide)) ih
  | group hless _ hgreater _ ihinside ih =>
    exact .token (hless.isPlain (by decide) (by decide))
      (ihinside.append (.token (hgreater.isPlain (by decide) (by decide)) ih))

/-! ## The end of a type -/

/-- The look over type arguments stops behind them. -/
theorem OptionalArguments.found (h : OptionalArguments as) (hrest : begins "<" rest = false) :
    optionalTypeArgumentsRest? (as ++ rest) = some rest := by
  cases h with
  | none => exact optionalTypeArgumentsRest?_of_not_less hrest
  | list hless has hgreater =>
    rw [List.cons_append, List.append_assoc]
    exact optionalTypeArgumentsRest?_angleBody hless has hgreater rest

/-- The look over the segments of a type stops behind them. -/
theorem NameTail.found (h : NameTail us) (hrest : EndsName rest) :
    segmentsRest? (us ++ rest) = some rest := by
  induction h with
  | last has => exact segmentsRest?_done (has.found hrest.1) hrest.2
  | @more dot u as us has hdot hu _ ih =>
    have hopt : optionalTypeArgumentsRest? (as ++ dot :: u :: (us ++ rest)) =
        some (dot :: u :: (us ++ rest)) := has.found (by simp [hdot.spells])
    rw [List.append_assoc]
    exact (segmentsRest?_more hopt hdot hu.isName).trans ih

/-! ## Reading a type -/

namespace Parser

/-- Type arguments that may be missing are skipped. -/
theorem skipOptionalTypeArguments_of_optional (h : OptionalArguments as)
    (hrest : begins "<" rest = false) (s : Scope) :
    skipOptionalTypeArguments s (as ++ rest) = .ok ⟨(), [], rest⟩ := by
  cases h with
  | none => exact skipOptionalTypeArguments_of_not_less hrest
  | list hless has hgreater =>
    rw [List.cons_append, List.append_assoc]
    exact skipOptionalTypeArguments_angleBody hless has hgreater rest

/-- A loop over the names of a class type reads its tail, once the arguments of the first name are
read. -/
theorem repeatWhile_nameTail {segment : Parser Bool} {s : Scope}
    (hdone : ∀ {ts}, begins "." ts = false → segment s ts = .ok ⟨false, [], ts⟩)
    (hmore : ∀ {dot u ts mid}, dot.IsSign "." → u.IsIdentifier →
      skipOptionalTypeArguments s ts = .ok ⟨(), [], mid⟩ →
        segment s (dot :: u :: ts) = .ok ⟨true, [], mid⟩)
    (h : NameTail us) (hrest : EndsName rest) :
    ∃ next, next.length ≤ (us ++ rest).length ∧
      skipOptionalTypeArguments s (us ++ rest) = .ok ⟨(), [], next⟩ ∧
      repeatWhile segment s next = .ok ⟨(), [], rest⟩ := by
  induction h with
  | last has =>
    exact ⟨rest, by simp, skipOptionalTypeArguments_of_optional has hrest.1 s,
      repeatWhile_done (hdone hrest.2)⟩
  | @more dot u as us has hdot hu _ ih =>
    obtain ⟨next, hle, hnext, hloop⟩ := ih
    refine ⟨dot :: u :: (us ++ rest), by simp, ?_, ?_⟩
    · rw [List.append_assoc]
      exact skipOptionalTypeArguments_of_optional has (by simp [hdot.spells]) s
    · have hlt : next.length < (dot :: u :: (us ++ rest)).length := by
        simp only [List.length_cons]
        omega
      rw [repeatWhile_again (hmore hdot hu hnext) hlt, hloop]
      rfl

end Parser

/-! ## Types as a whole -/

/-- Type arguments are missing or start with an angle. -/
theorem OptionalArguments.head (h : OptionalArguments as) :
    as = [] ∨ ∃ v vs, as = v :: vs ∧ v.IsSign "<" := by
  cases h with
  | none => exact .inl rfl
  | list hless => exact .inr ⟨_, _, rfl, hless⟩

/-- The tail of a name is missing or starts with a sign of types. -/
theorem NameTail.head (h : NameTail us) :
    us = [] ∨ ∃ v vs, us = v :: vs ∧ v.IsSignOf [".", "<", "["] := by
  cases h with
  | last has => exact has.head.imp_right fun ⟨v, vs, heq, hv⟩ => ⟨v, vs, heq, hv.isSignOf (by decide)⟩
  | more has hdot =>
    rcases has.head with rfl | ⟨v, vs, rfl, hv⟩
    · exact .inr ⟨_, _, rfl, hdot.isSignOf (by decide)⟩
    · exact .inr ⟨v, _, rfl, hv.isSignOf (by decide)⟩

/-- A primitive type is read as a type. -/
theorem ReadAsType.primitive (ht : t.IsValueType) : ReadAsType [t] where
  head := ⟨t, [], rfl, .inr ht, .inl rfl⟩
  found rest _ := by rw [List.singleton_append, typeRest?, if_pos ht.isPrimitive]
  read s rest _ := Parser.type_primitive ht s rest

/-- A name with its tail is read as a type. -/
theorem ReadAsType.named (ht : t.IsIdentifier) (hus : NameTail us) : ReadAsType (t :: us) where
  head := ⟨t, us, rfl, .inl ht, hus.head⟩
  found rest hrest := by
    rw [List.cons_append, typeRest?_name ht, hus.found hrest, Option.map_some]
  read s rest hrest := by
    obtain ⟨next, -, hnext, hloop⟩ := Parser.repeatWhile_nameTail Parser.typeSegment_done
      Parser.typeSegment_more hus hrest
    exact Parser.type_named ht hnext hloop

/-- A type with brackets behind is read as a type. -/
theorem ReadAsType.array (h : ReadAsType ts) (hl : l.IsSign "[") (hr : r.IsSign "]") :
    ReadAsType (ts ++ [l, r]) := by
  have hends : ∀ rest, EndsName (l :: r :: rest) := fun rest => by simp [EndsName, hl.spells]
  refine ⟨?_, fun rest _ => ?_, fun s rest _ => ?_⟩
  · obtain ⟨t, us, rfl, ht, rfl | ⟨v, vs, rfl, hv⟩⟩ := h.head
    · exact ⟨t, _, rfl, ht, .inr ⟨l, [r], rfl, hl.isSignOf (by decide)⟩⟩
    · exact ⟨t, _, rfl, ht, .inr ⟨v, _, rfl, hv⟩⟩
  · rw [List.append_assoc]
    exact (h.found _ (hends rest)).trans (congrArg some (dimensionsRest_pair hl hr rest))
  · rw [List.append_assoc]
    exact (h.read s _ (hends rest)).trans (by rw [dimensionsRest_pair hl hr])

/-- What parsers see of a part of a type. -/
def SeenAs : TypeSort → List Token → Prop
  | .type, ts => ReadAsType ts ∧ AngleBody ts
  | .tail, ts => NameTail ts
  | .list, ts => OptionalArguments ts
  | .argument, ts => AngleBody ts
  | .arguments, ts => AngleBody ts

/-- A word may stand between angles. -/
theorem Token.IsWord.inArguments {word : String} (h : t.IsWord word) (hw : word ∉ signs) :
    t.InArguments := .inl ⟨by simp [Token.isIdentifier, h.1], h.2 ▸ hw⟩

/-- A type is seen as its sort says. -/
theorem TypeForm.seenAs {sort : TypeSort} (h : TypeForm sort ts) : SeenAs sort ts := by
  induction h with
  | primitive ht => exact ⟨.primitive ht, .token ht.inType.inArguments .nil⟩
  | named ht _ ih => exact ⟨.named ht ih, .token ht.inArguments ih.angleBody⟩
  | array _ hl hr ih => exact ⟨ih.1.array hl hr, ih.2.append (.pair hl hr .nil)⟩
  | last _ ih => exact .last ih
  | more _ hdot hu _ ihas ihus => exact .more ihas hdot hu ihus
  | none => exact .none
  | list hless _ hgreater ih => exact .list hless ih hgreater
  | argument _ ih => exact ih.2
  | wildcard hq => exact .token (hq.inArguments (by decide)) .nil
  | bounded hq hw _ ih =>
    have hbound := hw.elim (·.inArguments (by decide)) (·.inArguments (by decide))
    exact .token (hq.inArguments (by decide)) (.token hbound ih.2)
  | one _ ih => exact ih
  | cons _ hcomma _ ihas ihbs => exact ihas.append (.token (hcomma.inArguments (by decide)) ihbs)

/-- A type is taken for one, whatever its type arguments are. -/
theorem TypeForm.readAsType (h : TypeForm .type ts) : ReadAsType ts := h.seenAs.1

/-- A type may stand between angles. -/
theorem TypeForm.angleBody (h : TypeForm .type ts) : AngleBody ts := h.seenAs.2

end Assay.Source

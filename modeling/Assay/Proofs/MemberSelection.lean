import Assay.Proofs.Bracket
import Assay.Proofs.ExpressionRound

/-!
# Chains, calls and selections

What the parts of an expression record that access members: a chain of names with or without
arguments, `this` and `super`, a selection from a value, a creation. The arguments of a call are
given by `Inside`: read as an expression up to a closing bracket, they record their facts.
-/

namespace Assay.Source

/-- Names with a dot before each. -/
inductive Segments : List Token → List String → Prop
  | nil : Segments [] []
  | cons {dot t : Token} {ts : List Token} {names : List String} (hdot : dot.IsSign ".")
      (ht : t.IsIdentifier) (hts : Segments ts names) :
      Segments (dot :: t :: ts) (t.text :: names)

/-- The two words for the object a method is called on. -/
inductive Receiver
  | this
  | super

/-- The word itself. -/
def Receiver.word : Receiver → String
  | .this => "this"
  | .super => "super"

/-- What the word qualifies an access with. -/
def Receiver.kind : Receiver → QualifierKind
  | .this => .this
  | .super => .super

/-- A field access. -/
def fieldAccess (name qualifier : String) (kind : QualifierKind) (line : Nat) : Fact :=
  .access ⟨.field, name, qualifier, kind, line, none⟩

/-- A method call. -/
def methodAccess (name qualifier : String) (kind : QualifierKind) (line arity : Nat) : Fact :=
  .access ⟨.method, name, qualifier, kind, line, some arity⟩

/-- The field accesses of a chain of names, given the names before: each name is a field of the
chain up to it. -/
def chainAccesses (line : Nat) (before : List String) : List String → List Fact
  | [] => []
  | name :: more =>
    fieldAccess name (String.intercalate "." before) .name line ::
      chainAccesses line (before ++ [name]) more

/-- The facts of a chain of names with arguments: the field accesses of all names but the last, and
the call of the last one, which has the chain before it as its qualifier. -/
def chainCall (first : Token) (names : List String) (arity : Nat) : List Fact :=
  chainAccesses first.line [first.text] names.dropLast ++
    [match names.getLast? with
    | none => methodAccess first.text "" .none first.line arity
    | some last =>
      methodAccess last (String.intercalate "." (first.text :: names.dropLast)) .name first.line
        arity]

namespace Parser

variable {nested : Construct → Parser Unit} {stop : List String} {s : Scope}
  {t l r dot : Token} {ts as rest : List Token} {names : List String} {facts : List Fact}

/-- Read up to a closing bracket, the tokens record the facts. -/
def Inside (nested : Construct → Parser Unit) (s : Scope) (ts : List Token) (facts : List Fact) :
    Prop :=
  ∀ r rest, r.isCloser → nested (.expression []) s (ts ++ r :: rest) = .ok ⟨(), facts, r :: rest⟩

/-! ## Chains of names -/

/-- The fields of a chain behind names are the accesses of the grammar. -/
theorem chainFields_eq (line : Nat) {before : List String} (hbefore : before ≠ [])
    (names : List String) :
    chainFields line (String.intercalate "." before) names = chainAccesses line before names := by
  induction names generalizing before with
  | nil => rfl
  | cons name more ih =>
    have hnext : String.intercalate "." (before ++ [name]) =
        String.intercalate "." before ++ "." ++ name := by
      rw [String.intercalate_append_of_ne_nil hbefore (List.cons_ne_nil name []),
        String.intercalate_singleton]
    rw [chainFields, chainAccesses, ← hnext, ih (by simp)]
    rfl

/-- The fields of a chain are the accesses of the grammar. -/
theorem chainFields_one (line : Nat) (first : String) (names : List String) :
    chainFields line first names = chainAccesses line [first] names := by
  rw [← chainFields_eq line (List.cons_ne_nil first []), String.intercalate_singleton]

/-- One more name of a chain, if there is one. -/
def chainSegment : Parser (Option String) := do
  match ← ahead with
  | dot :: t :: rest =>
    if dot.spells "." then
      if t.isName then
        resumeAt rest
        return some t.text
      else if t.spells "<" then
        match typeArgumentsRest? 0 (t :: rest) with
        | some (segment :: rest) =>
          if segment.isName then
            resumeAt rest
            return some segment.text
          return none
        | _ => return none
      else return none
    else return none
  | _ => return none

theorem chainSegments_eq : chainSegments = gather chainSegment := rfl

/-- A chain ends where no dot follows. -/
theorem chainSegment_done (h : begins "." rest = false) :
    chainSegment s rest = .ok ⟨none, [], rest⟩ := by
  rw [chainSegment, bind_of_ok (ahead_apply s rest)]
  rcases rest with _ | ⟨dot, _ | ⟨t, rest⟩⟩
  · rfl
  · rfl
  · rw [begins_cons] at h
    simp [h]

/-- A dot and a name are the next segment of a chain. -/
theorem chainSegment_more (hdot : dot.IsSign ".") (ht : t.isName) :
    chainSegment s (dot :: t :: rest) = .ok ⟨some t.text, [], rest⟩ := by
  rw [chainSegment, bind_of_ok (ahead_apply s _)]
  simp [hdot.spells, ht, bind_apply]

/-- The segments of a chain are read to its end. -/
theorem chainSegments_apply (s : Scope) (h : Segments ts names) (hrest : begins "." rest = false) :
    chainSegments s (ts ++ rest) = .ok ⟨names, [], rest⟩ := by
  rw [chainSegments_eq]
  induction h with
  | nil => exact gather_done (chainSegment_done hrest)
  | cons hdot ht _ ih =>
    refine gather_again (chainSegment_more hdot ht.isName) ?_ ih
    simp only [List.length_cons]
    omega

/-- A chain of names records its field accesses if neither arguments nor a word that ends it in
another way follow. -/
theorem nameChain_accesses (ht : t.IsIdentifier)
    (hmore : chainSegments s ts = .ok ⟨names, [], rest⟩) (hcall : begins "(" rest = false)
    (hclass : (begins "." rest && begins "class" rest.tail) = false)
    (hthis : (begins "." rest && begins "this" rest.tail) = false) :
    nameChain nested s (t :: ts) = .ok ⟨(), chainAccesses t.line [t.text] names, rest⟩ := by
  rw [nameChain, bind_of_ok (name_cons ht.isName s ts), recording_nil, bind_of_ok hmore,
    recording_nil, bind_of_ok (ahead_apply s rest), recording_nil, hclass, if_neg (by simp), hcall,
    if_neg (by simp), bind_of_ok (recordAll_apply _ s rest), hthis, if_neg (by simp),
    chainFields_one]
  simp

/-- A chain of names that no arguments follow records its field accesses. -/
theorem nameChain_fields (ht : t.IsIdentifier) (h : Segments ts names)
    (hdot : begins "." rest = false) (hcall : begins "(" rest = false) :
    nameChain nested s (t :: (ts ++ rest)) =
      .ok ⟨(), chainAccesses t.line [t.text] names, rest⟩ :=
  nameChain_accesses ht (chainSegments_apply s h hdot) hcall (by simp [hdot]) (by simp [hdot])

/-! ## Calls -/

/-- A group ahead is what stands between its brackets. -/
theorem groupAhead_bracketed {closer : String} (s : Scope) (hl : l.closer? = some closer)
    (hr : r.Closes closer) (h : Bracketed ts) (rest : List Token) :
    groupAhead s (l :: (ts ++ r :: rest)) = .ok ⟨(ts, rest), [], l :: (ts ++ r :: rest)⟩ := by
  refine groupAhead_of_ok ?_ s
  rw [hl, Option.toList_some, h.splitGroup_eq hr]

/-- The arguments ahead are counted between the parentheses. -/
theorem argumentsAhead_apply (hl : l.IsSign "(") (hr : r.IsSign ")") (h : Bracketed ts)
    (rest : List Token) :
    argumentsAhead s (l :: (ts ++ r :: rest)) =
      .ok ⟨argumentCount ts, [], l :: (ts ++ r :: rest)⟩ := by
  have hgroup := groupAhead_bracketed s (hl.opens rfl) (hr.closes (by decide)) h rest
  rw [argumentsAhead, bind_of_ok hgroup]
  simp

/-- A group is read as an argument list where its inside is. -/
theorem parenthesized_apply (hl : l.IsSign "(") (hr : r.IsSign ")")
    (h : Inside nested s ts facts) (rest : List Token) :
    parenthesized nested s (l :: (ts ++ r :: rest)) = .ok ⟨(), facts, rest⟩ := by
  have hinside := h r rest (hr.closes (by decide)).1
  simp [parenthesized, bind_apply, expect_cons, hl.spells, hr.spells, hinside]

/-- A call records itself before the accesses in its arguments. -/
theorem call_apply (hl : l.IsSign "(") (hr : r.IsSign ")") (hbrackets : Bracketed as)
    (h : Inside nested s as facts) (name qualifier : String) (kind : QualifierKind) (line : Nat)
    (rest : List Token) :
    call nested name qualifier kind line s (l :: (as ++ r :: rest)) =
      .ok ⟨(), methodAccess name qualifier kind line (argumentCount as) :: facts, rest⟩ := by
  rw [call, bind_of_ok (argumentsAhead_apply hl hr hbrackets rest), recording_nil]
  have haccess : accessMethod name qualifier kind line (argumentCount as) s
      (l :: (as ++ r :: rest)) = .ok ⟨(), [methodAccess name qualifier kind line
        (argumentCount as)], l :: (as ++ r :: rest)⟩ := rfl
  rw [bind_of_ok haccess, parenthesized_apply hl hr h]
  rfl

/-- A chain of names with arguments records its field accesses, the call of its last name and what
the arguments record. -/
theorem nameChain_called (ht : t.IsIdentifier)
    (hmore : chainSegments s ts = .ok ⟨names, [], l :: (as ++ r :: rest)⟩) (hl : l.IsSign "(")
    (hr : r.IsSign ")") (hbrackets : Bracketed as) (has : Inside nested s as facts) :
    nameChain nested s (t :: ts) =
      .ok ⟨(), chainCall t names (argumentCount as) ++ facts, rest⟩ := by
  cases hlast : names.getLast? with
  | none =>
    simp [nameChain, bind_apply, name_cons ht.isName, hmore, hl.spells, hlast, chainCall,
      chainFields_one, call_apply hl hr hbrackets has]
  | some last =>
    simp [nameChain, bind_apply, name_cons ht.isName, hmore, hl.spells, hlast, chainCall,
      chainFields_one, call_apply hl hr hbrackets has]

/-- A chain with arguments is read as a call, whose facts come before those of its arguments. -/
theorem nameChain_call (ht : t.IsIdentifier) (h : Segments ts names) (hl : l.IsSign "(")
    (hr : r.IsSign ")") (hbrackets : Bracketed as) (has : Inside nested s as facts)
    (rest : List Token) :
    nameChain nested s (t :: (ts ++ l :: (as ++ r :: rest))) =
      .ok ⟨(), chainCall t names (argumentCount as) ++ facts, rest⟩ :=
  nameChain_called ht (chainSegments_apply s h (by simp [hl.spells])) hl hr hbrackets has

/-! ## Selections -/

/-- A selected name without arguments is the access of a field. -/
theorem selected_field (ht : t.IsIdentifier) (hcall : begins "(" rest = false) (qualifier : String)
    (kind : QualifierKind) :
    selected nested qualifier kind s (t :: rest) =
      .ok ⟨(), [fieldAccess t.text qualifier kind t.line], rest⟩ := by
  rw [selected, bind_of_ok (name_cons ht.isName s rest), bind_of_ok (sees_apply "(" s rest), hcall]
  rfl

/-- A selected name with arguments is the access of a method, before the facts of its arguments. -/
theorem selected_call (ht : t.IsIdentifier) (hl : l.IsSign "(") (hr : r.IsSign ")")
    (hbrackets : Bracketed as) (has : Inside nested s as facts) (qualifier : String)
    (kind : QualifierKind) (rest : List Token) :
    selected nested qualifier kind s (t :: l :: (as ++ r :: rest)) =
      .ok ⟨(), methodAccess t.text qualifier kind t.line (argumentCount as) :: facts, rest⟩ := by
  rw [selected, bind_of_ok (name_cons ht.isName s _), bind_of_ok (sees_apply "(" s _)]
  simp [hl.spells, call_apply hl hr hbrackets has]

/-- A selection is a dot and what `selected` reads. -/
theorem selector_apply (hdot : dot.IsSign ".") (ht : t.IsIdentifier) :
    selector nested s (dot :: t :: rest) = selected nested "" .expression s (t :: rest) := by
  have hargs : skipOptionalTypeArguments s (t :: rest) = .ok ⟨(), [], t :: rest⟩ :=
    skipOptionalTypeArguments_of_not_less (by simp [ht.spells_signs])
  simp [selector, bind_apply, expect_cons, hdot.spells, hargs, ht.spells_words]

/-- `this` and `super` qualify the member that follows them. -/
theorem thisOrSuper_selected (receiver : Receiver) (h : t.IsWord receiver.word)
    (hdot : dot.IsSign ".") {n : Token} (hn : n.IsIdentifier) :
    thisOrSuper nested s (t :: dot :: n :: rest) =
      selected nested receiver.word receiver.kind s (n :: rest) := by
  cases receiver <;>
    simp [thisOrSuper, bind_apply, h.2, hdot.spells, hn.isName, hn.spells_signs, Receiver.word,
      Receiver.kind]

/-! ## Creations -/

/-- The name of a created class, which its arguments follow. -/
theorem createdName_apply (s : Scope) (ht : t.IsIdentifier) (hl : l.IsSign "(") (rest : List Token) :
    createdName s (t :: l :: rest) = .ok ⟨(), [], l :: rest⟩ := by
  have hargs : skipOptionalTypeArguments s (t :: l :: rest) = .ok ⟨(), [], t :: l :: rest⟩ :=
    skipOptionalTypeArguments_of_not_less (by simp [ht.spells_signs])
  have hannotations : skipAnnotations s (t :: l :: rest) = .ok ⟨(), [], t :: l :: rest⟩ :=
    skipAnnotations_done (by simp [ht.spells_signs])
  have hmore : skipOptionalTypeArguments s (l :: rest) = .ok ⟨(), [], l :: rest⟩ :=
    skipOptionalTypeArguments_of_not_less (by simp [hl.spells])
  have hname := discard_of_ok (name_cons ht.isName s (l :: rest))
  rw [createdName, bind_of_ok hargs, bind_of_ok hannotations, bind_of_ok (ahead_apply s _)]
  simp only [recording_nil, startsWith_cons, ht.isPrimitive, Bool.false_eq_true, if_false]
  rw [bind_of_ok hname, bind_of_ok hmore]
  simp only [recording_nil]
  apply repeatWhile_done
  rw [bind_of_ok (ahead_apply s _)]
  simp [hl.spells]

/-- A creation records what its arguments record. -/
theorem creation_apply (hnew : t.IsWord "new") {c : Token} (hc : c.IsIdentifier) (hl : l.IsSign "(")
    (hr : r.IsSign ")") (has : Inside nested s as facts) (hrest : begins "\x7b" rest = false) :
    creation nested s (t :: c :: l :: (as ++ r :: rest)) = .ok ⟨(), facts, rest⟩ := by
  have hcreated := createdName_apply s hc hl (as ++ r :: rest)
  simp [creation, bind_apply, expect_cons, hnew.spells, hcreated, hl.spells,
    parenthesized_apply hl hr has, hrest]

end Parser

end Assay.Source

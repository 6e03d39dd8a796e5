import Assay.Proofs.Reading

/-!
# Written types

How a type is written without wildcards, bounds and annotations: a primitive type or a dotted name
with type arguments of the same form, and pairs of square brackets after it. The tests that look
ahead for a type find its end, and the parser of types reads exactly its tokens.
-/

namespace Assay.Source

/-- Identifiers joined by dots. -/
inductive DottedName : List Token → Prop
  | one {t : Token} (ht : t.IsIdentifier) : DottedName [t]
  | more {t dot : Token} {ts : List Token} (ht : t.IsIdentifier) (hdot : dot.IsSign ".")
      (hts : DottedName ts) : DottedName (t :: dot :: ts)

/-- The primitive types other than `void`. -/
def valueTypes : List String :=
  ["boolean", "byte", "char", "short", "int", "long", "float", "double"]

/-- A primitive type other than `void`. -/
def Token.IsValueType (t : Token) : Prop := t.kind = .identifier ∧ t.text ∈ valueTypes

/-- One type, or several separated by commas. -/
inductive TypeCount
  | one
  | several

/-- The tokens are types, written without wildcards, bounds and annotations. -/
inductive WrittenType : TypeCount → List Token → Prop
  | primitive {t : Token} (ht : t.IsValueType) : WrittenType .one [t]
  | named {ns : List Token} (hns : DottedName ns) : WrittenType .one ns
  | generic {ns as : List Token} {less greater : Token} (hns : DottedName ns)
      (hless : less.IsSign "<") (has : WrittenType .several as) (hgreater : greater.IsSign ">") :
      WrittenType .one (ns ++ less :: (as ++ [greater]))
  | array {ts : List Token} {l r : Token} (hts : WrittenType .one ts) (hl : l.IsSign "[")
      (hr : r.IsSign "]") : WrittenType .one (ts ++ [l, r])
  | last {ts : List Token} (hts : WrittenType .one ts) : WrittenType .several ts
  | more {ts us : List Token} {comma : Token} (hts : WrittenType .one ts)
      (hcomma : comma.IsSign ",") (hus : WrittenType .several us) :
      WrittenType .several (ts ++ comma :: us)

variable {count : TypeCount} {ts ns rest : List Token} {t : Token}

/-- A primitive type is known for one. -/
theorem Token.IsValueType.isPrimitive (h : t.IsValueType) : t.isPrimitive = true := by
  have hsub : ∀ word ∈ valueTypes, word ∈ primitiveTypes := by decide
  simp [Token.isPrimitive, Token.isIdentifier, h.1, hsub _ h.2]

/-- A primitive type spells no other word. -/
theorem Token.IsValueType.spells (h : t.IsValueType) (word : String)
    (hw : word ∉ valueTypes) : t.spells word = false := by
  have hne : t.text ≠ word := fun heq => hw (heq ▸ h.2)
  simp [Token.spells, hne]

/-! ## What a scan sees -/

/-- The token is a word or joins the words of a type. -/
def Token.InType (t : Token) : Prop :=
  (t.isIdentifier ∧ t.text ∉ signs) ∨ t.IsSign "." ∨ t.IsSign ","

/-- Tokens of one sort and pairs of square brackets, with angle brackets that match. -/
inductive AnglesMatch (sort : Token → Prop) : List Token → Prop
  | nil : AnglesMatch sort []
  | token {t : Token} {ts : List Token} (ht : sort t) (hts : AnglesMatch sort ts) :
      AnglesMatch sort (t :: ts)
  | pair {l r : Token} {ts : List Token} (hl : l.IsSign "[") (hr : r.IsSign "]")
      (hts : AnglesMatch sort ts) : AnglesMatch sort (l :: r :: ts)
  | group {less greater : Token} {inside ts : List Token} (hless : less.IsSign "<")
      (hinside : AnglesMatch sort inside) (hgreater : greater.IsSign ">")
      (hts : AnglesMatch sort ts) : AnglesMatch sort (less :: (inside ++ greater :: ts))

namespace AnglesMatch

variable {sort sort' : Token → Prop}

/-- Two such parts make one. -/
theorem append (h : AnglesMatch sort ts) (hrest : AnglesMatch sort rest) :
    AnglesMatch sort (ts ++ rest) := by
  induction h with
  | nil => exact hrest
  | token ht _ ih => exact .token ht ih
  | pair hl hr _ ih => exact .pair hl hr ih
  | group hless hinside hgreater _ _ ih =>
    rw [List.cons_append, List.append_assoc]
    exact .group hless hinside hgreater ih

/-- Tokens of a narrower sort are also of the wider one. -/
theorem mono (h : AnglesMatch sort ts) (hsort : ∀ t, sort t → sort' t) : AnglesMatch sort' ts := by
  induction h with
  | nil => exact .nil
  | token ht _ ih => exact .token (hsort _ ht) ih
  | pair hl hr _ ih => exact .pair hl hr ih
  | group hless _ hgreater _ ihinside ih => exact .group hless ihinside hgreater ih

end AnglesMatch

/-- Words, dots, commas and pairs of square brackets, with angle brackets that match. -/
abbrev Angled (ts : List Token) : Prop := AnglesMatch Token.InType ts

/-- A name may be in a type. -/
theorem Token.IsIdentifier.inType (h : t.IsIdentifier) : t.InType := .inl ⟨h.isIdentifier, h.2⟩

/-- A primitive type may be in a type. -/
theorem Token.IsValueType.inType (h : t.IsValueType) : t.InType := by
  have hsub : ∀ word ∈ valueTypes, word ∉ signs := by decide
  exact .inl ⟨by simp [Token.isIdentifier, h.1], hsub _ h.2⟩

/-- Names joined by dots are what a type is made of. -/
theorem DottedName.angled (h : DottedName ns) : Angled ns := by
  induction h with
  | one ht => exact .token ht.inType .nil
  | more ht hdot _ ih => exact .token ht.inType (.token (.inr (.inl hdot)) ih)

/-- The angle brackets of written types match. -/
theorem WrittenType.angled (h : WrittenType count ts) : Angled ts := by
  induction h with
  | primitive ht => exact .token ht.inType .nil
  | named hns => exact hns.angled
  | generic hns hless _ hgreater ih => exact hns.angled.append (.group hless ih hgreater .nil)
  | array _ hl hr ih => exact ih.append (.pair hl hr .nil)
  | last _ ih => exact ih
  | more _ hcomma _ ihts ihus => exact ihts.append (.token (.inr (.inr hcomma)) ihus)

/-- A word or joint of a type spells no other sign. -/
theorem Token.InType.spells (h : t.InType) (word : String) (hw : word ∈ signs)
    (hdot : word ≠ ".") (hcomma : word ≠ ",") : t.spells word = false := by
  rcases h with ⟨_, hne⟩ | ht | ht
  · have : t.text ≠ word := fun heq => hne (heq ▸ hw)
    simp [Token.spells, this]
  · simp [ht.spells, Ne.symm hdot]
  · simp [ht.spells, Ne.symm hcomma]

/-- What is in a type spells none of the signs for which the scans look. -/
theorem Token.InType.spells_signs (h : t.InType) :
    t.spells "<" = false ∧ t.spells ">" = false ∧ t.spells ";" = false ∧ t.spells "?" = false ∧
      t.spells ":" = false ∧ t.spells "\x7b" = false ∧ t.spells "\x7d" = false := by
  repeat' apply And.intro
  all_goals exact h.spells _ (by decide) (by decide) (by decide)

/-! ## Between angle brackets -/

/-- The signs that may stand between the words of type arguments, brackets apart. -/
def argumentSigns : List String := [".", ",", "?", "&", "@"]

/-- The token may stand between angle brackets, and is no bracket. -/
def Token.InArguments (t : Token) : Prop :=
  (t.isIdentifier ∧ t.text ∉ signs) ∨ (t.kind = .operator ∧ t.text ∈ argumentSigns)

/-- Whatever may stand between angle brackets: words, the signs between them, pairs of square
brackets, and angle brackets that match. -/
abbrev AngleBody (ts : List Token) : Prop := AnglesMatch Token.InArguments ts

/-- Some signs may stand between angle brackets. -/
theorem Token.IsSign.inArguments {sign : String} (h : t.IsSign sign)
    (hsign : sign ∈ argumentSigns) : t.InArguments := .inr ⟨h.1, h.2 ▸ hsign⟩

/-- What may be in a type may stand between angle brackets. -/
theorem Token.InType.inArguments (h : t.InType) : t.InArguments := by
  rcases h with h | h | h
  · exact .inl h
  · exact h.inArguments (by decide)
  · exact h.inArguments (by decide)

/-- What a type is made of may stand between angle brackets. -/
theorem Angled.angleBody (h : Angled ts) : AngleBody ts := h.mono fun _ => Token.InType.inArguments

/-- The wildcards among tokens. -/
def wildcards (ts : List Token) : Nat := ts.countP (·.spells "?")

/-- Wildcards of two parts are counted one after the other. -/
theorem wildcards_append (ts us : List Token) :
    wildcards (ts ++ us) = wildcards ts + wildcards us := List.countP_append

/-- A token that is no wildcard does not count. -/
theorem wildcards_cons (h : t.spells "?" = false) (ts : List Token) :
    wildcards (t :: ts) = wildcards ts := List.countP_cons_of_neg (by simp [h])

/-- A wildcard counts once. -/
theorem wildcards_question (h : t.spells "?") (ts : List Token) :
    wildcards (t :: ts) = wildcards ts + 1 := List.countP_cons_of_pos h

/-- A written type has no wildcards. -/
theorem Angled.wildcards (h : Angled ts) : wildcards ts = 0 := by
  induction h with
  | nil => rfl
  | token ht _ ih => rw [wildcards_cons ht.spells_signs.2.2.2.1, ih]
  | pair hl hr _ ih =>
    rw [wildcards_cons (by simp [hl.spells]), wildcards_cons (by simp [hr.spells]), ih]
  | group hless _ hgreater _ ihinside ih =>
    rw [wildcards_cons (by simp [hless.spells]), wildcards_append,
      wildcards_cons (by simp [hgreater.spells]), ihinside, ih]

/-- A written type may stand between angle brackets. -/
theorem WrittenType.angleBody (h : WrittenType count ts) : AngleBody ts := h.angled.angleBody

/-- What may stand between angle brackets spells no other sign. -/
theorem Token.InArguments.spells (h : t.InArguments) (word : String) (hw : word ∈ signs)
    (hsigns : word ∉ argumentSigns) : t.spells word = false := by
  have hne : t.text ≠ word := by
    rintro rfl
    rcases h with h | h
    · exact h.2 hw
    · exact hsigns h.2
  simp [Token.spells, hne]

/-- What scans for the end of type arguments ask of a token. -/
theorem Token.InArguments.spells_signs (h : t.InArguments) :
    t.spells "<" = false ∧ t.spells ">" = false ∧
      t.spellsAny [";", "\x7b", "\x7d"] = false := by
  refine ⟨h.spells _ (by decide) (by decide), h.spells _ (by decide) (by decide), ?_⟩
  simp [h.spells ";" (by decide) (by decide), h.spells "\x7b" (by decide) (by decide),
    h.spells "\x7d" (by decide) (by decide)]

/-- What may stand between angle brackets is no bracket of another kind. -/
theorem Token.InArguments.not_bracket (h : t.InArguments) :
    t.closer? = none ∧ t.isCloser = false := by
  have hnone : ∀ sign ∈ argumentSigns, bracketPairs.lookup sign = none ∧ sign ∉ closers := by
    decide
  rcases h with ⟨hid, -⟩ | ⟨hkind, htext⟩
  · have hop : t.isOperator = false := by
      cases hk : t.kind <;> simp_all [Token.isIdentifier, Token.isOperator]
    simp [Token.closer?, Token.isCloser, hop]
  · simp [Token.closer?, Token.isCloser, hnone _ htext]

/-- What may stand between angle brackets does not stop the scan for the closing one. -/
theorem Token.InArguments.continues (h : t.InArguments) :
    (t.isIdentifier || t.spellsAny typeArgumentOperators) = true := by
  have hsub : ∀ sign ∈ argumentSigns, sign ∈ typeArgumentOperators := by decide
  rcases h with ⟨hid, -⟩ | ⟨hkind, htext⟩
  · simp [hid]
  · have hany : t.spellsAny typeArgumentOperators = true := by
      rw [Token.spellsAny, Bool.and_eq_true]
      exact ⟨by simp [Token.isOperator, hkind], by simpa using hsub _ htext⟩
    rw [hany, Bool.or_true]

/-- A token that is no angle bracket and does not stop the scan is passed over. -/
theorem typeArgumentsRest?_plain (hless : t.spells "<" = false) (hgreater : t.spells ">" = false)
    (hcontinue : (t.isIdentifier || t.spellsAny typeArgumentOperators) = true) (depth : Nat)
    (ts : List Token) : typeArgumentsRest? depth (t :: ts) = typeArgumentsRest? depth ts := by
  rw [typeArgumentsRest?, hless, hgreater, if_neg (by simp), if_neg (by simp), if_pos hcontinue]

/-- An angle bracket that opens is to be closed. -/
theorem typeArgumentsRest?_less (h : t.spells "<") (depth : Nat) (ts : List Token) :
    typeArgumentsRest? depth (t :: ts) = typeArgumentsRest? (depth + 1) ts := by
  rw [typeArgumentsRest?, if_pos h]

/-- An angle bracket that closes the first one ends the scan. -/
theorem typeArgumentsRest?_greater (h : t.IsSign ">") (depth : Nat) (ts : List Token) :
    typeArgumentsRest? depth (t :: ts) =
      if depth ≤ 1 then some ts else typeArgumentsRest? (depth - 1) ts := by
  rw [typeArgumentsRest?, if_neg (by simp [h.spells]), if_pos (by simp [h.spells])]

/-- Inside type arguments, a part whose angle brackets match is passed over. -/
theorem AngleBody.typeArgumentsRest? (h : AngleBody ts) {depth : Nat} (hd : 0 < depth)
    (rest : List Token) :
    typeArgumentsRest? depth (ts ++ rest) = typeArgumentsRest? depth rest := by
  induction h generalizing depth rest with
  | nil => rfl
  | token ht _ ih =>
    rw [List.cons_append, typeArgumentsRest?_plain ht.spells_signs.1 ht.spells_signs.2.1
      ht.continues, ih hd]
  | pair hl hr _ ih =>
    rw [List.cons_append, List.cons_append, typeArgumentsRest?_plain, typeArgumentsRest?_plain,
      ih hd]
    all_goals simp [hl.spells, hr.spells, hl.spellsAny, hr.spellsAny, typeArgumentOperators]
  | group hless _ hgreater _ ihinside ih =>
    rw [List.cons_append, List.append_assoc, typeArgumentsRest?_less (by simp [hless.spells]),
      ihinside (Nat.succ_pos _), List.cons_append, typeArgumentsRest?_greater hgreater,
      if_neg (by omega), Nat.succ_sub_one, ih hd]

/-! ## The colon of a `for` header -/

/-- Behind a bracket that opens, the search for the colon is one deeper. -/
theorem isForEach_opener (h : t.isOpener) (depth pending : Nat) (ts : List Token) :
    isForEach depth pending (t :: ts) = isForEach (depth + 1) pending ts := by
  rw [isForEach.eq_def]
  simp [h]

/-- Behind a bracket that closes, the search for the colon is one less deep. -/
theorem isForEach_closer (ho : t.isOpener = false) (hc : t.isCloser) (depth pending : Nat)
    (ts : List Token) : isForEach (depth + 1) pending (t :: ts) = isForEach depth pending ts := by
  rw [isForEach.eq_def]
  simp [ho, hc]

/-- Other tokens leave the search for the colon where it is. -/
theorem isForEach_plain (ho : t.isOpener = false) (hc : t.isCloser = false)
    (hsigns : t.spells ";" = false ∧ t.spells "?" = false ∧ t.spells ":" = false)
    (depth pending : Nat) (ts : List Token) :
    isForEach depth pending (t :: ts) = isForEach depth pending ts := by
  rw [isForEach.eq_def]
  simp [ho, hc, hsigns]

/-- A question mark outside of brackets makes the search wait for one more colon. -/
theorem isForEach_question (ho : t.isOpener = false) (hc : t.isCloser = false)
    (hsemicolon : t.spells ";" = false) (h : t.spells "?") (pending : Nat) (ts : List Token) :
    isForEach 0 pending (t :: ts) = isForEach 0 (pending + 1) ts := by
  rw [isForEach.eq_def]
  simp [ho, hc, hsemicolon, h]

/-- The scan for the colon of a `for` header takes every wildcard for the start of a conditional
expression, and passes over the rest of type arguments. -/
theorem AngleBody.isForEach (h : AngleBody ts) (pending : Nat) (rest : List Token) :
    isForEach 0 pending (ts ++ rest) = isForEach 0 (pending + wildcards ts) rest := by
  -- inside angles only a question mark is anything to the scan: no semicolon or colon stands there
  induction h generalizing pending rest with
  | nil => rfl
  | @token t ts ht _ ih =>
    have hopener : t.isOpener = false := by simp [Token.isOpener, ht.not_bracket]
    have hsemicolon : t.spells ";" = false := ht.spells _ (by decide) (by decide)
    rw [List.cons_append]
    by_cases hq : t.spells "?"
    · rw [isForEach_question hopener ht.not_bracket.2 hsemicolon hq, ih, wildcards_question hq,
        Nat.add_assoc, Nat.add_comm 1]
    · rw [isForEach_plain hopener ht.not_bracket.2 ⟨hsemicolon, by simpa using hq,
        ht.spells _ (by decide) (by decide)⟩, ih, wildcards_cons (by simpa using hq)]
  | pair hl hr _ ih =>
    rw [List.cons_append, List.cons_append, isForEach_opener, isForEach_closer, ih,
      wildcards_cons (by simp [hl.spells]), wildcards_cons (by simp [hr.spells])]
    · simp [Token.isOpener, hr.closer?, bracketPairs]
    · simp [hr.isCloser, closers]
    · simp [Token.isOpener, hl.closer?, bracketPairs]
  | group hless _ hgreater _ ihinside ih =>
    rw [List.cons_append, List.append_assoc, isForEach_plain, ihinside, List.cons_append,
      isForEach_plain, ih, wildcards_cons (by simp [hless.spells]), wildcards_append,
      wildcards_cons (by simp [hgreater.spells]), Nat.add_assoc]
    · simp [Token.isOpener, hgreater.closer?, bracketPairs]
    · simp [hgreater.isCloser, closers]
    · simp [hgreater.spells]
    · simp [Token.isOpener, hless.closer?, bracketPairs]
    · simp [hless.isCloser, closers]
    · simp [hless.spells]

/-- A type without wildcards is passed over. -/
theorem Angled.isForEach (h : Angled ts) (pending : Nat) (rest : List Token) :
    isForEach 0 pending (ts ++ rest) = isForEach 0 pending rest := by
  rw [h.angleBody.isForEach, h.wildcards, Nat.add_zero]

/-! ## The end of a type -/

/-- There are no type arguments without an angle bracket. -/
theorem optionalTypeArgumentsRest?_of_not_less (h : begins "<" rest = false) :
    optionalTypeArgumentsRest? rest = some rest := by
  rw [optionalTypeArgumentsRest?, h, if_neg (by simp)]

/-- The arguments of a type end at the bracket that closes the first one. -/
theorem optionalTypeArgumentsRest?_angleBody {less greater : Token} (hless : less.IsSign "<")
    (h : AngleBody ts) (hgreater : greater.IsSign ">") (rest : List Token) :
    optionalTypeArgumentsRest? (less :: (ts ++ greater :: rest)) = some rest := by
  have hbegins : less.spells "<" := by simp [hless.spells]
  rw [optionalTypeArgumentsRest?, begins_cons, if_pos hbegins, typeArgumentsRest?_less hbegins,
    h.typeArgumentsRest? Nat.one_pos, typeArgumentsRest?_greater hgreater, if_pos (Nat.le_refl 1)]

/-- A type ends where no dot comes behind a name and its arguments. -/
theorem segmentsRest?_done {mid : List Token} (hopt : optionalTypeArgumentsRest? ts = some mid)
    (hdot : begins "." mid = false) : segmentsRest? ts = some mid := by
  unfold segmentsRest?
  split
  · next h => rw [hopt] at h; cases h
  · next dot segment rest h =>
    rw [hopt] at h
    cases h
    rw [begins_cons] at hdot
    simp [hdot]
  · next rest _ h =>
    rw [hopt] at h
    exact h.symm ▸ rfl

/-- A type goes on with a name behind a dot. -/
theorem segmentsRest?_more {dot : Token} (hopt : optionalTypeArgumentsRest? ts = some (dot :: t :: rest))
    (hdot : dot.IsSign ".") (ht : t.isName) : segmentsRest? ts = segmentsRest? rest := by
  conv => lhs; unfold segmentsRest?
  split
  · next h => rw [hopt] at h; cases h
  · next h =>
    rw [hopt] at h
    cases h
    simp [hdot.spells, ht]
  · next mid hmid h =>
    rw [hopt] at h
    exact absurd (Option.some.inj h).symm (hmid _ _ _)

/-- What follows the name of a type: no type arguments and no further name. -/
def EndsName (rest : List Token) : Prop := begins "<" rest = false ∧ begins "." rest = false

/-- A type that starts with a name is its segments and then its dimensions. -/
theorem typeRest?_name (ht : t.IsIdentifier) :
    typeRest? (t :: rest) = (segmentsRest? rest).map dimensionsRest := by
  rw [typeRest?, ht.isPrimitive, if_neg (by simp), if_pos ht.isName]

/-- The rest of a type after the first name of a dotted name, whatever comes after the name. -/
theorem segmentsRest?_dottedName (h : DottedName ns) :
    ∃ t us, ns = t :: us ∧ t.IsIdentifier ∧
      ∀ rest, begins "." rest = false → segmentsRest? (us ++ rest) = segmentsRest? rest := by
  induction h with
  | @one t ht => exact ⟨t, [], rfl, ht, fun rest _ => rfl⟩
  | @more t dot ts ht hdot _ ih =>
    obtain ⟨u, us, rfl, hu, hus⟩ := ih
    refine ⟨t, dot :: u :: us, rfl, ht, fun rest hrest => ?_⟩
    rw [← hus rest hrest, List.cons_append, List.cons_append]
    refine segmentsRest?_more (optionalTypeArgumentsRest?_of_not_less ?_) hdot hu.isName
    simp [hdot.spells]

/-- A pair of square brackets is one dimension. -/
theorem dimensionsRest_pair {l r : Token} (hl : l.IsSign "[") (hr : r.IsSign "]")
    (rest : List Token) : dimensionsRest (l :: r :: rest) = dimensionsRest rest := by
  rw [dimensionsRest, if_pos (by simp [hl.spells, hr.spells])]

/-- The tokens after a written type are found by looking ahead. -/
theorem WrittenType.typeRest? (h : WrittenType .one ts) (hrest : EndsName rest) :
    typeRest? (ts ++ rest) = some (dimensionsRest rest) := by
  generalize hc : TypeCount.one = count at h
  induction h generalizing rest with
  | primitive ht =>
    rw [List.singleton_append, Source.typeRest?, if_pos ht.isPrimitive]
  | named hns =>
    obtain ⟨t, us, rfl, ht, hus⟩ := segmentsRest?_dottedName hns
    rw [List.cons_append, typeRest?_name ht, hus rest hrest.2,
      segmentsRest?_done (optionalTypeArgumentsRest?_of_not_less hrest.1) hrest.2, Option.map_some]
  | @generic ns as less greater hns hless has hgreater _ =>
    obtain ⟨t, us, rfl, ht, hus⟩ := segmentsRest?_dottedName hns
    rw [List.cons_append, List.cons_append, typeRest?_name ht, List.append_assoc, hus,
      List.cons_append, List.append_assoc, List.singleton_append,
      segmentsRest?_done (optionalTypeArgumentsRest?_angleBody hless has.angleBody hgreater rest) hrest.2,
      Option.map_some]
    simp [hless.spells]
  | @array ts l r _ hl hr ih =>
    have hends : EndsName (l :: r :: rest) := by simp [EndsName, hl.spells]
    rw [List.append_assoc, List.cons_append, List.singleton_append, ih hends rfl,
      dimensionsRest_pair hl hr]
  | last => cases hc
  | more => cases hc

/-! ## Reading a type -/

namespace Parser

/-- One round of passing over type arguments of which `depth` are open. -/
def angleRound (depth : Nat) : Parser (Nat ⊕ Unit) := do
  let t ← next
  if t.spells "<" then return .inl (depth + 1)
  else if t.spells ">" then
    if depth ≤ 1 then return .inr () else return .inl (depth - 1)
  else if t.spellsAny [";", "\x7b", "\x7d"] then failOn t.line (.unterminatedTypeArguments t.text)
  else return .inl depth

/-- One more name of a type, if there is one. -/
def typeSegment : Parser Bool := do
  let ts ← ahead
  if begins "." ts && (startsWith (·.isName) ts.tail || begins "@" ts.tail) then
    skip
    skipAnnotations
    discard name
    skipOptionalTypeArguments
    return true
  return false

variable {s : Scope} {mid : List Token}

/-- A token that is no angle bracket and may be in type arguments is passed over. -/
theorem angleRound_plain (hless : t.spells "<" = false) (hgreater : t.spells ">" = false)
    (hstop : t.spellsAny [";", "\x7b", "\x7d"] = false) (depth : Nat) (s : Scope)
    (ts : List Token) : angleRound depth s (t :: ts) = .ok ⟨.inl depth, [], ts⟩ := by
  rw [angleRound, bind_of_ok (next_cons s t ts)]
  simp [hless, hgreater, hstop]

/-- An angle bracket that opens is to be closed, for the parser as for the scan. -/
theorem angleRound_less (h : t.spells "<") (depth : Nat) (s : Scope) (ts : List Token) :
    angleRound depth s (t :: ts) = .ok ⟨.inl (depth + 1), [], ts⟩ := by
  rw [angleRound, bind_of_ok (next_cons s t ts)]
  simp [h]

/-- An angle bracket that closes the first one ends the type arguments. -/
theorem angleRound_greater (h : t.spells ">") (depth : Nat) (s : Scope) (ts : List Token) :
    angleRound depth s (t :: ts) =
      .ok ⟨if depth ≤ 1 then .inr () else .inl (depth - 1), [], ts⟩ := by
  rw [angleRound, bind_of_ok (next_cons s t ts)]
  by_cases hd : depth ≤ 1 <;> simp [Token.spells_of_spells h, hd]

/-- A loop goes on behind a token that is passed over. -/
theorem iterate_angleRound_plain (hless : t.spells "<" = false) (hgreater : t.spells ">" = false)
    (hstop : t.spellsAny [";", "\x7b", "\x7d"] = false) (depth : Nat) (s : Scope)
    (ts : List Token) : iterate angleRound depth s (t :: ts) = iterate angleRound depth s ts := by
  rw [iterate_again (angleRound_plain hless hgreater hstop depth s ts) (by simp), recording_nil]

/-- A part of type arguments whose angle brackets match is passed over. -/
theorem iterate_angleRound_angleBody (h : AngleBody ts) {depth : Nat} (hd : 0 < depth)
    (rest : List Token) :
    iterate angleRound depth s (ts ++ rest) = iterate angleRound depth s rest := by
  induction h generalizing depth rest with
  | nil => rfl
  | token ht _ ih =>
    rw [List.cons_append, iterate_angleRound_plain ht.spells_signs.1 ht.spells_signs.2.1
      (by simp [ht.spells_signs]), ih hd]
  | pair hl hr _ ih =>
    rw [List.cons_append, List.cons_append, iterate_angleRound_plain, iterate_angleRound_plain,
      ih hd]
    all_goals simp [hl.spells, hr.spells]
  | @group less greater inside ts hless _ hgreater _ ihinside ih =>
    have hspells : greater.spells ">" := by simp [hgreater.spells]
    have hround := angleRound_greater hspells (depth + 1) s (ts ++ rest)
    rw [if_neg (by omega), Nat.add_sub_cancel] at hround
    rw [List.cons_append, List.append_assoc,
      iterate_again (angleRound_less (by simp [hless.spells]) _ _ _) (by simp), recording_nil,
      ihinside (Nat.succ_pos _), List.cons_append, iterate_again hround (by simp), recording_nil,
      ih hd]

/-- Type arguments are passed over up to the bracket that closes the first one. -/
theorem skipTypeArguments_angleBody {less greater : Token} (hless : less.IsSign "<")
    (h : AngleBody ts) (hgreater : greater.IsSign ">") (rest : List Token) :
    skipTypeArguments s (less :: (ts ++ greater :: rest)) = .ok ⟨(), [], rest⟩ := by
  have hread : skipTypeArguments s (less :: (ts ++ greater :: rest)) =
      recording [] (iterate angleRound 1 s (ts ++ greater :: rest)) :=
    bind_of_ok (expect_cons (by simp [hless.spells]) s _)
  rw [hread, recording_nil, iterate_angleRound_angleBody h Nat.one_pos]
  exact iterate_done (angleRound_greater (by simp [hgreater.spells]) 1 s rest)

/-- Type arguments that are not there are not passed over. -/
theorem skipOptionalTypeArguments_of_not_less (h : begins "<" rest = false) :
    skipOptionalTypeArguments s rest = .ok ⟨(), [], rest⟩ := by
  rw [skipOptionalTypeArguments, bind_of_ok (sees_apply "<" s rest), h]
  rfl

/-- Type arguments are passed over up to the bracket that closes the first one. -/
theorem skipOptionalTypeArguments_angleBody {less greater : Token} (hless : less.IsSign "<")
    (h : AngleBody ts) (hgreater : greater.IsSign ">") (rest : List Token) :
    skipOptionalTypeArguments s (less :: (ts ++ greater :: rest)) = .ok ⟨(), [], rest⟩ := by
  rw [skipOptionalTypeArguments, bind_of_ok (sees_apply "<" s _), begins_cons,
    if_pos (by simp [hless.spells]), skipTypeArguments_angleBody hless h hgreater, recording_nil]

/-- There are no annotations without their sign. -/
theorem skipAnnotations_done (h : begins "@" ts = false) :
    skipAnnotations s ts = .ok ⟨(), [], ts⟩ := by
  apply repeatWhile_done
  rw [bind_of_ok (ahead_apply s ts)]
  simp [beginsAnnotations, h]

/-- A type has no further segment without a dot. -/
theorem typeSegment_done (h : begins "." ts = false) :
    typeSegment s ts = .ok ⟨false, [], ts⟩ := by
  rw [typeSegment, bind_of_ok (ahead_apply s ts)]
  simp [h]

/-- A further segment of a type is a name behind a dot with its arguments. -/
theorem typeSegment_more {dot : Token} (hdot : dot.IsSign ".") (ht : t.IsIdentifier)
    (hopt : skipOptionalTypeArguments s ts = .ok ⟨(), [], mid⟩) :
    typeSegment s (dot :: t :: ts) = .ok ⟨true, [], mid⟩ := by
  have hannotations : skipAnnotations s (t :: ts) = .ok ⟨(), [], t :: ts⟩ :=
    skipAnnotations_done (by simp [ht.spells_signs])
  have hname := discard_of_ok (name_cons ht.isName s ts)
  simp [typeSegment, bind_apply, hdot.spells, ht.isName, hannotations, hname, hopt]

/-- The parser of types goes through the names after the first and the arguments after the last,
whose end is `mid`. -/
theorem repeatWhile_typeSegment (h : DottedName ns) :
    ∃ t us, ns = t :: us ∧ t.IsIdentifier ∧ ∀ rest mid, mid.length ≤ rest.length →
      begins "." mid = false → skipOptionalTypeArguments s rest = .ok ⟨(), [], mid⟩ →
        ∃ next, next.length ≤ (us ++ rest).length ∧
          skipOptionalTypeArguments s (us ++ rest) = .ok ⟨(), [], next⟩ ∧
          repeatWhile typeSegment s next = .ok ⟨(), [], mid⟩ := by
  induction h with
  | @one t ht =>
    exact ⟨t, [], rfl, ht, fun rest mid hle hdot hopt =>
      ⟨mid, hle, hopt, repeatWhile_done (typeSegment_done hdot)⟩⟩
  | @more t dot ts ht hdot _ ih =>
    obtain ⟨u, us, rfl, hu, hus⟩ := ih
    refine ⟨t, dot :: u :: us, rfl, ht, fun rest mid hle hmid hopt => ?_⟩
    obtain ⟨next, hlen, hnext, hloop⟩ := hus rest mid hle hmid hopt
    refine ⟨dot :: u :: (us ++ rest), Nat.le_refl _, ?_, ?_⟩
    · exact skipOptionalTypeArguments_of_not_less (by simp [hdot.spells])
    · have hlt : next.length < (dot :: u :: (us ++ rest)).length := by
        simp only [List.length_cons]
        omega
      rw [repeatWhile_again (typeSegment_more hdot hu hnext) hlt, hloop]
      rfl

/-- The loop for the segments of a type, by its rounds. -/
theorem type_eq : type = (do
    skipAnnotations
    if startsWith (·.isPrimitive) (← ahead) then skip
    else
      discard name
      skipOptionalTypeArguments
      repeatWhile typeSegment
    dimensions) := rfl

/-- Dimensions are passed over. -/
theorem dimensions_apply (s : Scope) (ts : List Token) :
    dimensions s ts = .ok ⟨(), [], dimensionsRest ts⟩ := rfl

/-- A type that starts with a primitive one is that and its dimensions. -/
theorem type_of_isPrimitive (ht : t.isPrimitive) (hat : t.spells "@" = false) (s : Scope)
    (rest : List Token) : type s (t :: rest) = .ok ⟨(), [], dimensionsRest rest⟩ := by
  have hannotations : skipAnnotations s (t :: rest) = .ok ⟨(), [], t :: rest⟩ :=
    skipAnnotations_done hat
  simp [type_eq, bind_apply, hannotations, ht, dimensions_apply]

/-- A primitive type is read with its dimensions. -/
theorem type_primitive (ht : t.IsValueType) (s : Scope) (rest : List Token) :
    type s (t :: rest) = .ok ⟨(), [], dimensionsRest rest⟩ :=
  type_of_isPrimitive ht.isPrimitive (ht.spells "@" (by decide)) s rest

/-- A named type is its first name, the rest of its names and arguments, and its brackets. -/
theorem type_named {next mid : List Token} (ht : t.IsIdentifier)
    (hopt : skipOptionalTypeArguments s rest = .ok ⟨(), [], next⟩)
    (hloop : repeatWhile typeSegment s next = .ok ⟨(), [], mid⟩) :
    type s (t :: rest) = .ok ⟨(), [], dimensionsRest mid⟩ := by
  have hannotations : skipAnnotations s (t :: rest) = .ok ⟨(), [], t :: rest⟩ :=
    skipAnnotations_done (by simp [ht.spells_signs])
  have hname := discard_of_ok (name_cons ht.isName s rest)
  simp [type_eq, bind_apply, hannotations, ht.isPrimitive, hname, hopt, hloop, dimensions_apply]

/-- The parser of types reads a written type, and pairs of square brackets that follow. -/
theorem type_writtenType (h : WrittenType .one ts) (hrest : EndsName rest) :
    type s (ts ++ rest) = .ok ⟨(), [], dimensionsRest rest⟩ := by
  generalize hc : TypeCount.one = count at h
  induction h generalizing rest with
  | primitive ht => exact type_primitive ht s rest
  | named hns =>
    obtain ⟨t, us, rfl, ht, hus⟩ := repeatWhile_typeSegment hns
    obtain ⟨next, _, hopt, hloop⟩ := hus rest rest (Nat.le_refl _) hrest.2
      (skipOptionalTypeArguments_of_not_less hrest.1)
    exact type_named ht hopt hloop
  | @generic ns as less greater hns hless has hgreater _ =>
    obtain ⟨t, us, rfl, ht, hus⟩ := repeatWhile_typeSegment hns
    have harguments : skipOptionalTypeArguments s (less :: (as ++ greater :: rest)) = _ :=
      skipOptionalTypeArguments_angleBody hless has.angleBody hgreater rest
    obtain ⟨next, _, hopt, hloop⟩ := hus _ rest (by simp; omega) hrest.2 harguments
    rw [List.append_assoc, List.cons_append, List.cons_append, List.append_assoc,
      List.singleton_append]
    exact type_named ht hopt hloop
  | @array ts l r _ hl hr ih =>
    have hends : EndsName (l :: r :: rest) := by simp [EndsName, hl.spells]
    rw [List.append_assoc, List.cons_append, List.singleton_append, ih hends rfl,
      dimensionsRest_pair hl hr]
  | last => cases hc
  | more => cases hc

end Parser

end Assay.Source

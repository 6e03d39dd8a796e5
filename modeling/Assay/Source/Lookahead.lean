import Assay.Source.Parser

/-!
# Looking ahead

What can be told from the tokens ahead before any of them is read: where a bracket closes, whether a
type stands there and where it ends, how many arguments a call has, whether a parenthesis opens the
parameters of a lambda expression or a cast. Each test is a function on token lists; those that find
an end give the tokens after it, always fewer than they were given.
-/

namespace Assay.Source

/-! ## Brackets -/

/-- Splits tokens at the closer of the innermost of the open brackets, whose closers are given from
the inside out. Fails with the first closer that does not match, or with nothing if the tokens end
first. -/
def splitGroup : List String → List Token → Except (Option Token) (List Token × List Token)
  | _, [] => .error none
  | closing, t :: ts =>
    match t.closer? with
    | some closer =>
      (splitGroup (closer :: closing) ts).map fun (inside, rest) => (t :: inside, rest)
    | none =>
      if t.isCloser then
        match closing with
        | [] => .error (some t)
        | closer :: outer =>
          if t.text == closer then
            -- the closer of the outermost bracket ends the group, and is in neither part
            if outer.isEmpty then .ok ([], ts)
            else (splitGroup outer ts).map fun (inside, rest) => (t :: inside, rest)
          else .error (some t)
      else (splitGroup closing ts).map fun (inside, rest) => (t :: inside, rest)

/-- A search that goes on behind a token. -/
theorem splitGroup_kept {stack : List String} {t : Token} {ts inside rest : List Token}
    (h : ((splitGroup stack ts).map fun (inside, rest) => (t :: inside, rest)) = .ok (inside, rest)) :
    ∃ more, splitGroup stack ts = .ok (more, rest) ∧ inside = t :: more := by
  cases hsplit : splitGroup stack ts with
  | error e =>
    rw [hsplit] at h
    cases h
  | ok parts =>
    rw [hsplit] at h
    cases h
    exact ⟨parts.1, rfl, rfl⟩

/-- A group is made of the tokens inside it and the bracket that closes it. -/
theorem splitGroup_eq_append {closing : List String} {ts inside rest : List Token}
    (h : splitGroup closing ts = .ok (inside, rest)) : ∃ close, ts = inside ++ close :: rest := by
  induction ts generalizing closing inside with
  | nil => cases h
  | cons t ts ih =>
    have keep : ∀ {stack : List String},
        ((splitGroup stack ts).map fun (inside, rest) => (t :: inside, rest)) = .ok (inside, rest) →
          ∃ close, t :: ts = inside ++ close :: rest := by
      intro stack hm
      obtain ⟨more, hsplit, rfl⟩ := splitGroup_kept hm
      obtain ⟨close, hmore⟩ := ih hsplit
      exact ⟨close, by rw [hmore, List.cons_append]⟩
    simp only [splitGroup] at h
    split at h
    · exact keep h
    · split at h
      · split at h
        · cases h
        · split at h
          · split at h
            · cases h
              exact ⟨t, rfl⟩
            · exact keep h
          · cases h
      · exact keep h

theorem splitGroup_shorter {closing : List String} {ts inside rest : List Token}
    (h : splitGroup closing ts = .ok (inside, rest)) : rest.length < ts.length := by
  obtain ⟨close, rfl⟩ := splitGroup_eq_append h
  rw [List.length_append, List.length_cons]
  omega

/-! ## Types -/

/-- The tokens after type arguments of which `depth` angle brackets are open, if the tokens read as
such. -/
def typeArgumentsRest? : Nat → List Token → Option (List Token)
  | _, [] => none
  | depth, t :: ts =>
    if t.spells "<" then typeArgumentsRest? (depth + 1) ts
    else if t.spells ">" then
      -- the look may start at the first angle or behind it
      if depth ≤ 1 then some ts else typeArgumentsRest? (depth - 1) ts
    else if t.isIdentifier || t.spellsAny typeArgumentOperators then typeArgumentsRest? depth ts
    else none

theorem typeArgumentsRest?_shorter {depth : Nat} {ts rest : List Token}
    (h : typeArgumentsRest? depth ts = some rest) : rest.length < ts.length := by
  induction ts generalizing depth with
  | nil => simp [typeArgumentsRest?] at h
  | cons t ts ih =>
    simp only [typeArgumentsRest?] at h
    split at h
    · exact Nat.lt_succ_of_lt (ih h)
    · split at h
      · split at h
        · cases h; simp
        · exact Nat.lt_succ_of_lt (ih h)
      · split at h
        · exact Nat.lt_succ_of_lt (ih h)
        · cases h

/-- The tokens after type arguments, if any stand there; nothing if they do not read as such. -/
def optionalTypeArgumentsRest? (ts : List Token) : Option (List Token) :=
  if begins "<" ts then typeArgumentsRest? 0 ts else some ts

theorem optionalTypeArgumentsRest?_le {ts rest : List Token}
    (h : optionalTypeArgumentsRest? ts = some rest) : rest.length ≤ ts.length := by
  simp only [optionalTypeArgumentsRest?] at h
  split at h
  · exact Nat.le_of_lt (typeArgumentsRest?_shorter h)
  · cases h; exact Nat.le_refl _

/-- The tokens after the rest of a type whose first name is read: type arguments and further names,
each after a dot. -/
def segmentsRest? (ts : List Token) : Option (List Token) :=
  match _h : optionalTypeArgumentsRest? ts with
  | none => none
  | some (dot :: segment :: rest) =>
    if dot.spells "." && segment.isName then segmentsRest? rest else some (dot :: segment :: rest)
  | some rest => some rest
termination_by ts.length
decreasing_by
  have := optionalTypeArgumentsRest?_le _h
  simp only [List.length_cons] at this
  omega

/-- The tokens after pairs of square brackets. -/
def dimensionsRest : List Token → List Token
  | opening :: closing :: rest =>
    if opening.spells "[" && closing.spells "]" then dimensionsRest rest
    else opening :: closing :: rest
  | ts => ts

/-- The tokens after a type, if one stands there. -/
def typeRest? : List Token → Option (List Token)
  | [] => none
  | t :: rest =>
    if t.isPrimitive then some (dimensionsRest rest)
    else if t.isName then (segmentsRest? rest).map dimensionsRest
    else none

theorem segmentsRest?_le (ts : List Token) :
    ∀ rest, segmentsRest? ts = some rest → rest.length ≤ ts.length := by
  fun_induction segmentsRest? ts with
  | case1 => intro rest h; cases h
  | case2 ts dot segment tail hopt _ ih =>
    intro rest h
    have := optionalTypeArgumentsRest?_le hopt
    simp only [List.length_cons] at this
    have := ih rest h
    omega
  | case3 ts dot segment tail hopt _ =>
    intro rest h
    cases h
    exact optionalTypeArgumentsRest?_le hopt
  | case4 ts tail hne hopt =>
    intro rest h
    cases h
    exact optionalTypeArgumentsRest?_le hopt

theorem dimensionsRest_le (ts : List Token) : (dimensionsRest ts).length ≤ ts.length := by
  fun_induction dimensionsRest ts with
  | case1 opening closing rest _ ih => simp only [List.length_cons]; omega
  | case2 => exact Nat.le_refl _
  | case3 => exact Nat.le_refl _

theorem typeRest?_shorter {ts rest : List Token} (h : typeRest? ts = some rest) :
    rest.length < ts.length := by
  cases ts with
  | nil => simp [typeRest?] at h
  | cons t tail =>
    simp only [typeRest?] at h
    split at h
    · cases h
      exact Nat.lt_succ_of_le (dimensionsRest_le tail)
    · split at h
      · obtain ⟨mid, hmid, rfl⟩ := Option.map_eq_some_iff.1 h
        exact Nat.lt_succ_of_le (Nat.le_trans (dimensionsRest_le mid) (segmentsRest?_le _ _ hmid))
      · cases h

/-! ## Declarations and loops -/

/-- A local variable declaration starts here: a type other than `void`, a name and one of the tokens
that can follow the first name. -/
def isLocalDeclaration (ts : List Token) : Bool :=
  if begins "yield" ts || begins "void" ts then false
  else match typeRest? ts with
    | some (declared :: follower :: _) =>
      declared.isName && follower.spellsAny ["=", ";", ",", ":", "["]
    | _ => false

/-- After the parenthesis of a `for`: a colon that belongs to no conditional expression comes before
any semicolon, outside all brackets. The counts are of open brackets and of question marks whose
colon is due. -/
def isForEach : Nat → Nat → List Token → Bool
  | _, _, [] => false
  | depth, pending, t :: ts =>
    if t.isOpener then isForEach (depth + 1) pending ts
    else if t.isCloser then
      match depth with
      -- the parenthesis of the header closes
      | 0 => false
      | depth + 1 => isForEach depth pending ts
    else if depth == 0 then
      if t.spells ";" then false
      else if t.spells "?" then isForEach depth (pending + 1) ts
      else if t.spells ":" then
        match pending with
        | 0 => true
        | pending + 1 => isForEach depth pending ts
      else isForEach depth pending ts
    else isForEach depth pending ts

/-- What starts a type declaration, and the number of tokens up to its name. -/
def typeKeyword? : List Token → Option (DeclarationKind × Nat)
  | [] => none
  | t :: ts =>
    if t.spells "class" then some (.classType, 1)
    else if t.spells "interface" then some (.interfaceType, 1)
    else if t.spells "enum" then some (.enumType, 1)
    else if t.spells "@" && begins "interface" ts then some (.annotationType, 2)
    else if t.spells "record" && startsWith (·.isName) ts &&
        startsWith (·.spellsAny ["(", "<"]) ts.tail then
      some (.recordType, 1)
    else none

/-! ## Arguments, lambda parameters and casts -/

/-- The tokens after the group that an opening bracket starts; none if it does not close. -/
def afterGroup (opener : Token) (ts : List Token) : List Token :=
  match splitGroup opener.closer?.toList ts with
  | .ok (_, rest) => rest
  | .error _ => []

theorem afterGroup_le (opener : Token) (ts : List Token) :
    (afterGroup opener ts).length ≤ ts.length := by
  simp only [afterGroup]
  split
  · next h => exact Nat.le_of_lt (splitGroup_shorter h)
  · simp

/-- The tokens after type arguments inside the arguments of a call: what follows has to confirm that
they were type arguments, and the parenthesis that ends the call does. -/
def confirmedTypeArgumentsRest? (ts : List Token) : Option (List Token) :=
  (typeArgumentsRest? 0 ts).filter fun rest =>
    rest.isEmpty || startsWith (·.spellsAny afterTypeArguments) rest

theorem confirmedTypeArgumentsRest?_shorter {ts rest : List Token}
    (h : confirmedTypeArgumentsRest? ts = some rest) : rest.length < ts.length := by
  simp only [confirmedTypeArgumentsRest?, Option.filter_eq_some_iff] at h
  exact typeArgumentsRest?_shorter h.1

/-- The number of commas between the arguments of a call, given the tokens inside its parentheses:
those inside brackets and type arguments do not count. -/
def commaCount : List Token → Nat
  | [] => 0
  | t :: ts =>
    if t.isOpener then commaCount (afterGroup t ts)
    else
      -- an angle that opens no type arguments is a comparison, and a token like any other
      match _h : if t.spells "<" then confirmedTypeArgumentsRest? (t :: ts) else none with
      | some rest => commaCount rest
      | none => (if t.spells "," then 1 else 0) + commaCount ts
termination_by ts => ts.length
decreasing_by
  · exact Nat.lt_succ_of_le (afterGroup_le t ts)
  · split at _h
    · exact confirmedTypeArgumentsRest?_shorter _h
    · cases _h
  · simp

/-- The number of arguments of a call, given the tokens inside its parentheses. -/
def argumentCount (inside : List Token) : Nat :=
  if inside.isEmpty then 0 else commaCount inside + 1

/-- The parameter names of a lambda expression, given the tokens inside its parentheses: the last
name before each comma or closing parenthesis outside angle brackets. The list of tokens since the
last of these is kept in reverse. -/
def lambdaParameters (angle : Int) (group : List Token) : List Token → List Token
  -- what stands behind the last comma is a parameter as well
  | [] => if angle == 0 then (group.find? (·.isName)).toList else []
  | t :: ts =>
    let angle := if t.spells "<" then angle + 1 else if t.spells ">" then angle - 1 else angle
    if angle == 0 && t.spellsAny [",", ")"] then
      (group.find? (·.isName)).toList ++ lambdaParameters angle [] ts
    else lambdaParameters angle (t :: group) ts

/-- The tokens after several types joined by ampersands. -/
def boundsRest? (ts : List Token) : Option (List Token) :=
  match _h : typeRest? ts with
  | none => none
  | some [] => some []
  | some (t :: rest) => if t.spells "&" then boundsRest? rest else some (t :: rest)
termination_by ts.length
decreasing_by
  have := typeRest?_shorter _h
  simp only [List.length_cons] at this
  omega

/-- The token can start the operand of a cast, to a primitive type or not. -/
def startsCastOperand (primitive : Bool) (t : Token) : Bool :=
  if t.isLiteral then true
  else if t.isIdentifier then t.isName || castOperandKeywords.contains t.text
  else castOperandOperators.contains t.text ||
    (primitive && primitiveCastOperators.contains t.text)

/-- After an opening parenthesis: the operand of a cast to the types that stand there. -/
def castRest? (ts : List Token) : Option (List Token) :=
  match boundsRest? ts with
  | some (closing :: operand :: rest) =>
    if closing.spells ")" && startsCastOperand (startsWith (·.isPrimitive) ts) operand then
      some (operand :: rest)
    else none
  | _ => none

end Assay.Source

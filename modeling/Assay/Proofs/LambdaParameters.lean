import Assay.Proofs.ExpressionForms

/-!
# The parameters of lambda expressions

The parameters of a lambda expression are not read by a grammar of their own: the tokens in the
parentheses are cut at the commas and closing parentheses outside angle brackets, and the last name
of each piece is declared. `LambdaParameters` is the grammar of such lists. Without arguments of
annotations the pieces are the parameters; with them, the parenthesis that closes the arguments cuts
off a piece of its own, and a name is declared too many (`lambda_parameters`).
-/

namespace Assay.Source

open Assay.Source.Parser

variable {nested : Construct → Parser Unit} {s : Scope} {t l r x less greater arrow : Token}
  {ts us as ds ms ns ps xs group rest : List Token} {gs : List (List Token)} {angle : Int}

/-! ## Grammar -/

/-- The modifiers of a parameter, and what stands in the parentheses of its annotations. -/
inductive ParameterModifiers : List Token → List (List Token) → Prop
  | none : ParameterModifiers [] []
  | final {t : Token} {ms : List Token} {gs : List (List Token)} (ht : t.IsWord "final")
      (hms : ParameterModifiers ms gs) : ParameterModifiers (t :: ms) gs
  | marker {a : Token} {ns ms : List Token} {gs : List (List Token)} (ha : a.IsSign "@")
      (hns : DottedName ns) (hms : ParameterModifiers ms gs) :
      ParameterModifiers (a :: (ns ++ ms)) gs
  | arguments {a l r : Token} {ns as ms : List Token} {gs : List (List Token)} (ha : a.IsSign "@")
      (hns : DottedName ns) (hl : l.IsSign "(") (has : Bracketed as) (hr : r.IsSign ")")
      (hms : ParameterModifiers ms gs) :
      ParameterModifiers (a :: (ns ++ l :: (as ++ r :: ms))) (as :: gs)

/-- The type of a parameter, which may be left out. -/
inductive ParameterType : List Token → Prop
  | none : ParameterType []
  | type {ts : List Token} (hts : TypeForm .type ts) : ParameterType ts
  | several {ts : List Token} {ellipsis : Token} (hts : TypeForm .type ts)
      (hellipsis : ellipsis.IsSign "...") : ParameterType (ts ++ [ellipsis])

/-- Pairs of square brackets, or none. -/
inductive SquarePairs : List Token → Prop
  | none : SquarePairs []
  | pair {l r : Token} {ds : List Token} (hl : l.IsSign "[") (hr : r.IsSign "]")
      (hds : SquarePairs ds) : SquarePairs (l :: r :: ds)

/-- A parameter of the name, and what stands in the parentheses of its annotations. -/
inductive LambdaParameter (x : Token) : List Token → List (List Token) → Prop
  | mk {ms ts ds : List Token} {gs : List (List Token)} (hms : ParameterModifiers ms gs)
      (hts : ParameterType ts) (hx : x.IsIdentifier) (hds : SquarePairs ds) :
      LambdaParameter x (ms ++ (ts ++ x :: ds)) gs

/-- Parameters of the names, separated by commas, and what stands in the parentheses of their
annotations. -/
inductive LambdaParameters : List Token → List Token → List (List Token) → Prop
  | none : LambdaParameters [] [] []
  | one {x : Token} {ps : List Token} {gs : List (List Token)} (hps : LambdaParameter x ps gs) :
      LambdaParameters [x] ps gs
  | more {x y comma : Token} {xs ps qs : List Token} {gs hs : List (List Token)}
      (hps : LambdaParameter x ps gs) (hcomma : comma.IsSign ",")
      (hqs : LambdaParameters (y :: xs) qs hs) :
      LambdaParameters (x :: y :: xs) (ps ++ comma :: qs) (gs ++ hs)

/-! ## Brackets -/

/-- A dotted name has its brackets balanced. -/
theorem DottedName.bracketed (h : DottedName ns) : Bracketed ns := h.angled.angleBody.bracketed

/-- The modifiers of a parameter have their brackets balanced. -/
theorem ParameterModifiers.bracketed (h : ParameterModifiers ms gs) : Bracketed ms := by
  induction h with
  | none => exact .nil
  | final ht _ ih => exact .token ht.isPlain ih
  | marker ha hns _ ih =>
    exact .token (ha.isPlain (by decide) (by decide)) (hns.bracketed.append ih)
  | arguments ha hns hl has hr _ ih =>
    exact .token (ha.isPlain (by decide) (by decide))
      (hns.bracketed.append (.group (hl.opens rfl) has (hr.closes (by decide)) ih))

/-- The type of a parameter has its brackets balanced. -/
theorem ParameterType.bracketed (h : ParameterType ts) : Bracketed ts := by
  cases h with
  | none => exact .nil
  | type hts => exact hts.angleBody.bracketed
  | several hts hellipsis =>
    exact hts.angleBody.bracketed.append (.token (hellipsis.isPlain (by decide) (by decide)) .nil)

/-- Pairs of brackets are balanced. -/
theorem SquarePairs.bracketed (h : SquarePairs ds) : Bracketed ds := by
  induction h with
  | none => exact .nil
  | pair hl hr _ ih => exact .group (hl.opens rfl) .nil (hr.closes (by decide)) ih

/-- A parameter of a lambda has its brackets balanced. -/
theorem LambdaParameter.bracketed (h : LambdaParameter x ps gs) : Bracketed ps := by
  cases h with
  | mk hms hts hx hds =>
    exact hms.bracketed.append (hts.bracketed.append (.token hx.isPlain hds.bracketed))

/-- The parameters of a lambda have their brackets balanced. -/
theorem LambdaParameters.bracketed (h : LambdaParameters xs ps gs) : Bracketed ps := by
  induction h with
  | none => exact .nil
  | one hps => exact hps.bracketed
  | more hps hcomma _ ih =>
    exact hps.bracketed.append (.token (hcomma.isPlain (by decide) (by decide)) ih)

/-! ## One token of the scan -/

/-- An angle that opens is counted up and joins the group. -/
theorem lambdaParameters_less (h : t.IsSign "<") (angle : Int) (group ts : List Token) :
    lambdaParameters angle group (t :: ts) = lambdaParameters (angle + 1) (t :: group) ts := by
  simp [lambdaParameters, h.spells]

/-- An angle that closes is counted down and joins the group. -/
theorem lambdaParameters_greater (h : t.IsSign ">") (angle : Int) (group ts : List Token) :
    lambdaParameters angle group (t :: ts) = lambdaParameters (angle - 1) (t :: group) ts := by
  simp [lambdaParameters, h.spells]

/-- Outside angle brackets, a comma or closing parenthesis declares the last name before it. -/
theorem lambdaParameters_cut {sign : String} (h : t.IsSign sign) (hsign : sign = "," ∨ sign = ")")
    (group ts : List Token) :
    lambdaParameters 0 group (t :: ts) =
      (group.find? (·.isName)).toList ++ lambdaParameters 0 [] ts := by
  rcases hsign with rfl | rfl <;> simp [lambdaParameters, h.spells]

/-! ## Pieces -/

/-- None of the tokens cuts off a piece, and the angle brackets among them match. -/
def Uncut (angle : Int) (ts : List Token) : Prop :=
  ∀ group rest, lambdaParameters angle group (ts ++ rest) =
    lambdaParameters angle (ts.reverse ++ group) rest

namespace Uncut

/-- No token cuts nothing. -/
theorem nil : Uncut angle [] := fun _ _ => rfl

/-- Two uncut parts make an uncut whole. -/
theorem append (hts : Uncut angle ts) (hus : Uncut angle us) : Uncut angle (ts ++ us) :=
  fun group rest => by
    rw [List.append_assoc, hts, hus, List.reverse_append, List.append_assoc]

/-- A token that is neither an angle bracket nor a cut. -/
theorem token (hless : t.spells "<" = false) (hgreater : t.spells ">" = false)
    (hcut : angle = 0 → t.spellsAny [",", ")"] = false) : Uncut angle [t] := fun group rest => by
  rw [List.singleton_append, lambdaParameters, hless, hgreater]
  by_cases hzero : angle = 0
  · simp [hzero, hcut hzero]
  · simp [hzero]

/-- An identifier cuts no group. -/
theorem identifier (h : t.IsIdentifier) : Uncut angle [t] :=
  .token (h.spells _ (by decide)) (h.spells _ (by decide)) fun _ => h.spellsAny _ (by decide)

/-- A sign cuts no group, except angles, the comma and the closing parenthesis. -/
theorem sign {sign : String} (h : t.IsSign sign) (hsign : sign ∉ ["<", ">", ",", ")"]) :
    Uncut angle [t] := by
  simp only [List.mem_cons, List.not_mem_nil, or_false, not_or] at hsign
  exact .token (by simp [h.spells, hsign]) (by simp [h.spells, hsign])
    fun _ => by simp [h.spells, hsign]

/-- Between angle brackets nothing is cut, as far as nothing is inside them. -/
theorem angles (hless : less.IsSign "<") (h : Uncut (angle + 1) ts)
    (hgreater : greater.IsSign ">") :
    Uncut angle (less :: (ts ++ [greater])) := fun group rest => by
  rw [List.cons_append, List.append_assoc, lambdaParameters_less hless, h, List.singleton_append,
    lambdaParameters_greater hgreater, Int.add_sub_cancel]
  simp

end Uncut

/-- Inside angle brackets, a part whose angle brackets match is not cut. -/
theorem AngleBody.uncut (h : AngleBody ts) (hangle : 0 < angle) : Uncut angle ts := by
  induction h generalizing angle with
  | nil => exact .nil
  | token ht _ ih =>
    exact (Uncut.token ht.spells_signs.1 ht.spells_signs.2.1 (by omega)).append (ih hangle)
  | pair hl hr _ ih =>
    exact ((Uncut.sign hl (by decide)).append (.sign hr (by decide))).append (ih hangle)
  | @group less greater inside ts hless _ hgreater _ ihinside ih =>
    have hinside : Uncut (angle + 1) inside := ihinside (by omega)
    have hgroup := (Uncut.angles hless hinside hgreater).append (ih hangle)
    simpa using hgroup

/-- A dotted name cuts no group. -/
theorem DottedName.uncut (h : DottedName ns) : Uncut angle ns := by
  induction h with
  | one ht => exact .identifier ht
  | more ht hdot _ ih => exact ((Uncut.identifier ht).append (.sign hdot (by decide))).append ih

/-- Type arguments cut no group outside angles. -/
theorem OptionalArguments.uncut (h : OptionalArguments as) : Uncut 0 as := by
  cases h with
  | none => exact .nil
  | list hless has hgreater => exact .angles hless (has.uncut (by decide)) hgreater

/-- The tail of a type name cuts no group outside angles. -/
theorem NameTail.uncut (h : NameTail us) : Uncut 0 us := by
  induction h with
  | last has => exact has.uncut
  | more has hdot hu _ ih =>
    exact has.uncut.append (((Uncut.sign hdot (by decide)).append (.identifier hu)).append ih)

/-- A type is not cut: its commas are between angle brackets. -/
theorem TypeForm.uncut (h : TypeForm .type ts) : Uncut 0 ts := by
  generalize hsort : TypeSort.type = sort at h
  induction h with
  | primitive ht =>
    exact .token (ht.spells _ (by decide)) (ht.spells _ (by decide))
      fun _ => by simp [ht.spells "," (by decide), ht.spells ")" (by decide)]
  | named ht hus => exact (Uncut.identifier ht).append hus.seenAs.uncut
  | array _ hl hr ih =>
    exact (ih hsort).append ((Uncut.sign hl (by decide)).append (.sign hr (by decide)))
  | _ => cases hsort

/-- The type of a parameter cuts no group. -/
theorem ParameterType.uncut (h : ParameterType ts) : Uncut 0 ts := by
  cases h with
  | none => exact .nil
  | type hts => exact hts.uncut
  | several hts hellipsis => exact hts.uncut.append (.sign hellipsis (by decide))

/-- Pairs of brackets cut no group. -/
theorem SquarePairs.uncut (h : SquarePairs ds) : Uncut 0 ds := by
  induction h with
  | none => exact .nil
  | pair hl hr _ ih => exact ((Uncut.sign hl (by decide)).append (.sign hr (by decide))).append ih

/-- The brackets after a name hold no name. -/
theorem SquarePairs.find?_isName (h : SquarePairs ds) (group : List Token) :
    (ds.reverse ++ group).find? (·.isName) = group.find? (·.isName) := by
  rw [List.find?_append, List.find?_eq_none.2, Option.none_or]
  intro t ht
  rw [List.mem_reverse] at ht
  induction h with
  | none => cases ht
  | pair hl hr _ ih =>
    rcases List.mem_cons.1 ht with rfl | ht
    · simp [hl.isName]
    · rcases List.mem_cons.1 ht with rfl | ht
      · simp [hr.isName]
      · exact ih ht

/-! ## Arguments of annotations -/

/-- The opening angle brackets less the closing ones. -/
def angleBalance (ts : List Token) : Int :=
  (ts.countP (·.spells "<") : Int) - ts.countP (·.spells ">")

/-- The balance of angles counts the first token and the others. -/
theorem angleBalance_cons (t : Token) (ts : List Token) :
    angleBalance (t :: ts) =
      (if t.spells "<" then 1 else if t.spells ">" then -1 else 0) + angleBalance ts := by
  have hsplit : t.spells "<" → t.spells ">" = false := fun h => by
    simp only [Token.spells, Bool.and_eq_true, beq_iff_eq] at h
    simp [Token.spells, h.2]
  rw [angleBalance, angleBalance, List.countP_cons, List.countP_cons]
  by_cases hless : t.spells "<"
  · simp [hless, hsplit hless]
    omega
  · by_cases hgreater : t.spells ">" <;> simp [hless, hgreater]
    omega

/-- The piece that the scan is in holds a name. -/
def Named (group : List Token) : Prop := (group.find? (·.isName)).isSome

/-- A named group stays named with more tokens. -/
theorem Named.cons (h : Named group) (t : Token) : Named (t :: group) := by
  rw [Named, List.find?_cons]
  split
  · rfl
  · exact h

/-- Whatever tokens are scanned, what they declare comes before the rest. A name in the piece before
them is not lost: it is in the piece after them, or something is declared. -/
theorem lambdaParameters_append (ts : List Token) (angle : Int) (group : List Token) :
    ∃ declared group', (∀ rest, lambdaParameters angle group (ts ++ rest) =
        declared ++ lambdaParameters (angle + angleBalance ts) group' rest) ∧
      (Named group → declared = [] → Named group') := by
  induction ts generalizing angle group with
  | nil => exact ⟨[], group, fun rest => by simp [angleBalance], fun h _ => h⟩
  | cons t ts ih =>
    rw [angleBalance_cons, ← Int.add_assoc]
    -- the angle brackets that are open behind the token decide whether it cuts
    generalize hnext : angle + (if t.spells "<" then 1 else if t.spells ">" then -1 else 0) = next
    have hopen : (if t.spells "<" then angle + 1 else if t.spells ">" then angle - 1 else angle) =
        next := by
      rw [← hnext]
      split
      · rfl
      · split <;> omega
    by_cases hcut : (next == 0 && t.spellsAny [",", ")"]) = true
    · obtain ⟨declared, group', hscan, -⟩ := ih next []
      refine ⟨(group.find? (·.isName)).toList ++ declared, group', fun rest => ?_,
        fun h hnone => ?_⟩
      · rw [List.cons_append, lambdaParameters, hopen, if_pos hcut, hscan, List.append_assoc]
      · obtain ⟨y, hy⟩ := Option.isSome_iff_exists.1 h
        simp [hy] at hnone
    · obtain ⟨declared, group', hscan, hnamed⟩ := ih next (t :: group)
      refine ⟨declared, group', fun rest => ?_, fun h => hnamed (h.cons t)⟩
      rw [List.cons_append, lambdaParameters, hopen, if_neg hcut, hscan]

/-- A dotted name gives its group a name. -/
theorem DottedName.named (h : DottedName ns) (group : List Token) :
    Named (ns.reverse ++ group) := by
  induction h generalizing group with
  | one ht => simp [Named, ht.isName]
  | more _ _ _ ih => simpa using ih _

/-- The arguments of an annotation declare a name at least. -/
theorem annotation_declares {a : Token} (ha : a.IsSign "@") (hns : DottedName ns)
    (hl : l.IsSign "(") (has : angleBalance as = 0) (hr : r.IsSign ")") (group : List Token) :
    ∃ declared, 0 < declared.length ∧
      ∀ rest, lambdaParameters 0 group (a :: (ns ++ l :: (as ++ r :: rest))) =
        declared ++ lambdaParameters 0 [] rest := by
  have hname : Uncut 0 (a :: (ns ++ [l])) :=
    (Uncut.sign ha (by decide)).append (hns.uncut.append (.sign hl (by decide)))
  have hnamed : Named ((a :: (ns ++ [l])).reverse ++ group) := by
    simpa using (hns.named (a :: group)).cons l
  obtain ⟨declared, group', hscan, hkept⟩ :=
    lambdaParameters_append as 0 ((a :: (ns ++ [l])).reverse ++ group)
  rw [has, Int.add_zero] at hscan
  refine ⟨declared ++ (group'.find? (·.isName)).toList, ?_, fun rest => ?_⟩
  · cases declared with
    | nil =>
      obtain ⟨y, hy⟩ := Option.isSome_iff_exists.1 (hkept hnamed rfl)
      simp [hy]
    | cons y ys => simp
  · have hstart := hname group (as ++ r :: rest)
    rw [hscan, lambdaParameters_cut hr (.inr rfl)] at hstart
    simpa using hstart

/-! ## Parameters -/

/-- What the scan makes of modifiers: without arguments of annotations nothing, and else at least
one name for each. -/
theorem ParameterModifiers.scanned (h : ParameterModifiers ms gs)
    (hgs : ∀ g ∈ gs, angleBalance g = 0) (group : List Token) :
    ∃ declared group', (gs = [] → declared = []) ∧ gs.length ≤ declared.length ∧
      ∀ rest, lambdaParameters 0 group (ms ++ rest) =
        declared ++ lambdaParameters 0 group' rest := by
  -- on the modifiers; only the parenthesis behind arguments ends a group and declares something
  induction h generalizing group with
  | none => exact ⟨[], group, fun _ => rfl, Nat.le_refl _, fun _ => rfl⟩
  | @final t ms gs ht _ ih =>
    obtain ⟨declared, group', hnone, hlength, hscan⟩ := ih hgs (t :: group)
    refine ⟨declared, group', hnone, hlength, fun rest => ?_⟩
    have hword : Uncut 0 [t] :=
      .token (by simp [ht.spells]) (by simp [ht.spells]) fun _ => by simp [ht.spells]
    exact (hword group (ms ++ rest)).trans (hscan rest)
  | @marker a ns ms gs ha hns _ ih =>
    have hname : Uncut 0 (a :: ns) := (Uncut.sign ha (by decide)).append hns.uncut
    obtain ⟨declared, group', hnone, hlength, hscan⟩ := ih hgs ((a :: ns).reverse ++ group)
    refine ⟨declared, group', hnone, hlength, fun rest => ?_⟩
    have hstart := hname group (ms ++ rest)
    rw [hscan] at hstart
    simpa using hstart
  | @arguments a l r ns as ms gs ha hns hl _ hr _ ih =>
    obtain ⟨first, hfirst, hcall⟩ :=
      annotation_declares ha hns hl (hgs as List.mem_cons_self) hr group
    obtain ⟨declared, group', -, hlength, hscan⟩ :=
      ih (fun g hg => hgs g (List.mem_cons_of_mem as hg)) []
    refine ⟨first ++ declared, group', nofun, ?_, fun rest => ?_⟩
    · rw [List.length_append, List.length_cons]
      omega
    · have hstart := hcall (ms ++ rest)
      rw [hscan, ← List.append_assoc] at hstart
      simpa using hstart

/-- What the scan makes of one parameter: at its end, its name is the last one. -/
theorem LambdaParameter.scanned (h : LambdaParameter x ps gs) (hgs : ∀ g ∈ gs, angleBalance g = 0) :
    ∃ declared group, (gs = [] → declared = []) ∧ gs.length ≤ declared.length ∧
      group.find? (·.isName) = some x ∧
      ∀ rest, lambdaParameters 0 [] (ps ++ rest) = declared ++ lambdaParameters 0 group rest := by
  cases h with
  | @mk ms ts ds _ hms hts hx hds =>
    obtain ⟨declared, group, hnone, hlength, hscan⟩ := hms.scanned hgs []
    refine ⟨declared, ds.reverse ++ x :: (ts.reverse ++ group), hnone, hlength, ?_, fun rest => ?_⟩
    · rw [hds.find?_isName, List.find?_cons_of_pos hx.isName]
    · have hrest : Uncut 0 (ts ++ x :: ds) :=
        hts.uncut.append ((Uncut.identifier hx).append hds.uncut)
      rw [List.append_assoc, hscan, hrest]
      simp

/-- The names that are declared are those of the parameters, and others before them where
annotations have arguments. -/
theorem LambdaParameters.scanned (h : LambdaParameters xs ps gs)
    (hgs : ∀ g ∈ gs, angleBalance g = 0) :
    (gs = [] → lambdaParameters 0 [] ps = xs) ∧ xs.Sublist (lambdaParameters 0 [] ps) ∧
      xs.length + gs.length ≤ (lambdaParameters 0 [] ps).length := by
  induction h with
  | none => exact ⟨fun _ => rfl, List.nil_sublist _, Nat.zero_le _⟩
  | @one x ps gs hps =>
    obtain ⟨declared, group, hnone, hlength, hname, hscan⟩ := hps.scanned hgs
    have hlast := hscan []
    rw [List.append_nil, lambdaParameters, hname] at hlast
    rw [hlast]
    refine ⟨fun hempty => by simp [hnone hempty], List.sublist_append_right _ _, ?_⟩
    simp
    omega
  | @more x y comma xs ps qs gs hs hps hcomma _ ih =>
    obtain ⟨declared, group, hnone, hlength, hname, hscan⟩ :=
      hps.scanned fun g hg => hgs g (List.mem_append_left _ hg)
    obtain ⟨hexact, hsublist, hcount⟩ := ih fun g hg => hgs g (List.mem_append_right _ hg)
    rw [hscan, lambdaParameters_cut hcomma (.inl rfl), hname]
    refine ⟨fun hempty => ?_, ?_, ?_⟩
    · obtain ⟨hgs', hhs⟩ := List.append_eq_nil_iff.1 hempty
      simp [hnone hgs', hexact hhs]
    · exact (hsublist.cons_cons x).trans (List.sublist_append_right _ _)
    · simp only [Option.toList_some, List.singleton_append, List.length_append, List.length_cons]
        at hcount ⊢
      omega

/-- The parameters of a lambda expression are recognised by the arrow behind them, which is read
next. Exactly they are declared if no annotation of them has arguments; arguments in which the angle
brackets match leave them declared, and declare another name each. -/
theorem lambda_parameters (nested : Construct → Parser Unit) (s : Scope)
    (hps : LambdaParameters xs ps gs) (hl : l.IsSign "(") (hr : r.IsSign ")")
    (harrow : arrow.IsSign "->") :
    ∃ declared,
      (∀ rest, fromParenthesis nested (ps ++ r :: arrow :: rest) s
          (l :: (ps ++ r :: arrow :: rest)) =
        .ok ⟨true, declared.flatMap (declaredValue .parameter s.owner), arrow :: rest⟩) ∧
      (gs = [] → declared = xs) ∧
      ((∀ g ∈ gs, angleBalance g = 0) →
        xs.Sublist declared ∧ xs.length + gs.length ≤ declared.length) := by
  refine ⟨lambdaParameters 0 [] ps, fun rest => fromParenthesis_lambda hl hr hps.bracketed harrow,
    fun hempty => ?_, fun hgs => (hps.scanned hgs).2⟩
  subst hempty
  exact (hps.scanned (by simp)).1 rfl

/-- The parameters of `(final Map<K, V> m, @A int... xs) ->` are `m` and `xs`. -/
theorem lambda_parameters_two :
    let ps : List Token := [.word "final" 1, .word "Map" 1, .sign "<" 1, .word "K" 1, .sign "," 1,
      .word "V" 1, .sign ">" 1, .word "m" 1, .sign "," 1, .sign "@" 1, .word "A" 1, .word "int" 1,
      .sign "..." 1, .word "xs" 1]
    let behind : List Token := [.sign ")" 1, .sign "->" 1, .word "m" 1]
    fromParenthesis (construct 1) (ps ++ behind) ⟨some ⟨"N", .classType⟩, 1⟩
        (.sign "(" 1 :: (ps ++ behind)) =
      .ok ⟨true, declaredValue .parameter "N" (.word "m" 1) ++
        declaredValue .parameter "N" (.word "xs" 1), [.sign "->" 1, .word "m" 1]⟩ := by
  intro ps behind
  have harguments : TypeForm .arguments [.word "K" 1, .sign "," 1, .word "V" 1] :=
    .cons (.argument (.named (by decide) (.last .none))) ⟨rfl, rfl⟩
      (.one (.argument (.named (by decide) (.last .none))))
  have hmap : LambdaParameter (.word "m" 1) [.word "final" 1, .word "Map" 1, .sign "<" 1,
      .word "K" 1, .sign "," 1, .word "V" 1, .sign ">" 1, .word "m" 1] [] :=
    .mk (.final ⟨rfl, rfl⟩ .none)
      (.type (.named (by decide) (.last (.list ⟨rfl, rfl⟩ harguments ⟨rfl, rfl⟩))))
      (by decide) .none
  have hints : LambdaParameter (.word "xs" 1) [.sign "@" 1, .word "A" 1, .word "int" 1,
      .sign "..." 1, .word "xs" 1] [] :=
    .mk (.marker ⟨rfl, rfl⟩ (.one (by decide)) .none)
      (.several (.primitive ⟨rfl, by decide⟩) ⟨rfl, rfl⟩) (by decide) .none
  have hps : LambdaParameters [.word "m" 1, .word "xs" 1] ps [] :=
    .more hmap ⟨rfl, rfl⟩ (.one hints)
  obtain ⟨declared, hread, hexact, -⟩ := lambda_parameters (construct 1) ⟨some ⟨"N", .classType⟩, 1⟩
    hps (⟨rfl, rfl⟩ : (Token.sign "(" 1).IsSign "(") (⟨rfl, rfl⟩ : (Token.sign ")" 1).IsSign ")")
    (⟨rfl, rfl⟩ : (Token.sign "->" 1).IsSign "->")
  rw [hexact rfl] at hread
  exact hread [.word "m" 1]

/-- Not every list declares exactly its parameters: `(@B(1) int x) ->` declares `B` too. -/
theorem annotation_declared :
    ¬ ∀ (nested : Construct → Parser Unit) (s : Scope) (l r arrow : Token)
      (xs ps rest : List Token) (gs : List (List Token)), LambdaParameters xs ps gs →
      l.IsSign "(" → r.IsSign ")" → arrow.IsSign "->" →
        fromParenthesis nested (ps ++ r :: arrow :: rest) s (l :: (ps ++ r :: arrow :: rest)) =
          .ok ⟨true, xs.flatMap (declaredValue .parameter s.owner), arrow :: rest⟩ := by
  intro h
  have hps : LambdaParameters [.word "x" 1] [.sign "@" 1, .word "B" 1, .sign "(" 1,
      ⟨.number, "1", 1, 1⟩, .sign ")" 1, .word "int" 1, .word "x" 1] [[⟨.number, "1", 1, 1⟩]] :=
    .one (.mk (.arguments ⟨rfl, rfl⟩ (.one (by decide)) ⟨rfl, rfl⟩ (.token (by decide) .nil)
      ⟨rfl, rfl⟩ .none) (.type (.primitive ⟨rfl, by decide⟩)) (by decide) .none)
  have hread := h (construct 1) ⟨none, 1⟩ (.sign "(" 1) (.sign ")" 1) (.sign "->" 1) _ _ [] _ hps
    ⟨rfl, rfl⟩ ⟨rfl, rfl⟩ ⟨rfl, rfl⟩
  have hfour := congrArg (fun o => (o.toOption.map (·.facts.length))) hread
  exact absurd hfour (by decide)

end Assay.Source

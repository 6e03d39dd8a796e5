import Assay.Proofs.Bracket
import Assay.Proofs.LookaheadEnds
import Assay.Proofs.SimulationLookahead

/-!
# Bracketed groups alike

The end of a bracketed group, the arguments of a call and the parameters of a lambda expression in
tokens that are read alike, and the simulation of lists that are alike token by token.
-/

namespace Assay.Source

open Assay.Source.Parser

variable {line : Nat → Nat → Prop} {strict : Prop} {ts us inside rest : List Token}

/-! ## The end of a group -/

/-- A token may stand first in a group on both sides. -/
theorem GroupAlike.map_cons {tokens : List Token → List Token → Prop} {t u : Token}
    {o o' : Except (Option Token) (List Token × List Token)} (halike : t.Alike line u)
    (h : GroupAlike line tokens strict o o') :
    GroupAlike line tokens strict (o.map fun (inside, rest) => (t :: inside, rest))
      (o'.map fun (inside, rest) => (u :: inside, rest)) := by
  match o with
  | .ok (inside, rest) =>
    obtain ⟨inside', rest', rfl, hinside, hrest⟩ := h
    exact ⟨u :: inside', rest', rfl, .cons halike hinside, hrest⟩
  | .error none =>
    intro hstrict
    rw [h hstrict]
    rfl
  | .error (some closer) =>
    intro hstrict
    obtain ⟨closer', rfl, hcloser⟩ := h hstrict
    exact ⟨closer', rfl, hcloser⟩

/-- Groups in lists that are alike token by token. -/
theorem splitGroup_alike (h : List.Forall₂ (Token.Alike line) ts us) (closing : List String) :
    GroupAlike line (List.Forall₂ (Token.Alike line)) strict (splitGroup closing ts)
      (splitGroup closing us) := by
  induction h generalizing closing with
  | nil => exact fun _ => rfl
  | @cons t u ts us halike htail ih =>
    simp only [splitGroup, ← halike.closer?, ← halike.isCloser]
    cases hopen : t.closer? with
    | some closer => exact (ih _).map_cons halike
    | none =>
      cases hclose : t.isCloser with
      | false => exact (ih _).map_cons halike
      | true =>
        -- a closer is no literal, so its text is the same on both sides
        have hliteral : t.isLiteral = false := by
          cases hlit : t.isLiteral with
          | false => rfl
          | true => simp [Token.isCloser, Token.isOperator_of_isLiteral hlit] at hclose
        cases closing with
        | nil => exact fun _ => ⟨u, rfl, halike⟩
        | cons closer outer =>
          simp only [← halike.text hliteral, if_true]
          split
          · split
            · exact ⟨[], us, rfl, .nil, htail⟩
            · exact (ih _).map_cons halike
          · exact fun _ => ⟨u, rfl, halike⟩

/-- The look for a colon of `for` answers alike. -/
theorem isForEach_alike (h : List.Forall₂ (Token.Alike line) ts us) (depth pending : Nat) :
    isForEach depth pending ts = isForEach depth pending us := by
  induction h generalizing depth pending with
  | nil => rfl
  | @cons t u ts us halike _ ih =>
    simp only [isForEach, ← halike.isOpener, ← halike.isCloser, ← halike.spells, ih]

/-- A token is alike itself. -/
theorem Token.Alike.refl (t : Token) : t.Alike Eq t := ⟨.inl ⟨rfl, rfl⟩, rfl⟩

/-- Tokens are alike themselves. -/
theorem forall₂_alike_refl (ts : List Token) : List.Forall₂ (Token.Alike Eq) ts ts :=
  List.forall₂_same.2 fun t _ => .refl t

/-! ## Two simulations -/

namespace Simulation

/-- Lists that are alike token by token. -/
def pointwise (line : Nat → Nat → Prop) (strict : Prop) : Simulation where
  line := line
  tokens := List.Forall₂ (Token.Alike line)
  ended := fun _ _ => False
  kept := fun _ => True
  whole := True
  strict := strict
  uncons := fun h => by
    cases h with
    | nil => exact .inl ⟨rfl, rfl, trivial⟩
    | cons halike htail => exact .inr ⟨_, _, _, _, rfl, rfl, halike, .inl htail⟩
  shorter := fun h h' => by rw [h.length_eq, h'.length_eq]
  kept_of_suffix := fun _ _ => trivial
  not_kept := fun h => h.elim
  kept_of_ended := fun h _ _ => h.elim
  kept_of_strict := fun _ _ => trivial
  whole_of_strict := fun _ => trivial
  splitGroup := fun h _ => by
    rw [(List.forall₂_cons.1 h).1.closer?]
    exact splitGroup_alike (List.forall₂_cons.1 h).2 _
  isForEach := fun h _ _ => by
    have htail : ∀ {ts us}, List.Forall₂ (Token.Alike line) ts us →
        List.Forall₂ (Token.Alike line) ts.tail us.tail := by
      rintro _ _ (_ | ⟨-, htail⟩)
      · exact .nil
      · exact htail
    exact isForEach_alike (htail (htail h)) 0 0

end Simulation

/-! ## Arguments and lambda parameters -/

/-- Behind a group the tokens stay alike. -/
theorem afterGroup_alike {t u : Token} (halike : t.Alike line u)
    (h : List.Forall₂ (Token.Alike line) ts us) :
    List.Forall₂ (Token.Alike line) (afterGroup t ts) (afterGroup u us) := by
  have hgroup : GroupAlike line (List.Forall₂ (Token.Alike line)) True _ _ :=
    splitGroup_alike h t.closer?.toList
  unfold afterGroup
  rw [← halike.closer?]
  cases hsplit : splitGroup t.closer?.toList ts with
  | ok parts =>
    rw [hsplit] at hgroup
    obtain ⟨inside', rest', hsplit', -, hrest⟩ := hgroup
    rw [hsplit']
    exact hrest
  | error e =>
    rw [hsplit] at hgroup
    cases e with
    | none =>
      rw [hgroup trivial]
      exact .nil
    | some closer =>
      obtain ⟨closer', hsplit', -⟩ := hgroup trivial
      rw [hsplit']
      exact .nil

/-- The look over confirmed type arguments stops alike. -/
theorem confirmedTypeArgumentsRest?_alike (h : List.Forall₂ (Token.Alike line) ts us) :
    Option.Rel (List.Forall₂ (Token.Alike line)) (confirmedTypeArgumentsRest? ts)
      (confirmedTypeArgumentsRest? us) := by
  have htokens : (Simulation.pointwise line True).tokens ts us := h
  have hrel := Simulation.typeArgumentsRest?_alike htokens 0
  unfold confirmedTypeArgumentsRest?
  generalize typeArgumentsRest? 0 ts = o at hrel ⊢
  generalize typeArgumentsRest? 0 us = o' at hrel ⊢
  cases hrel with
  | none => exact .none
  | @some rest rest' hrest =>
    have hstarts := Simulation.startsAny_alike hrest afterTypeArguments
    have hempty : rest.isEmpty = rest'.isEmpty := by
      cases hrest <;> rfl
    simp only [Option.filter_some, hstarts, hempty]
    split
    · exact .some hrest
    · exact .none

/-- The count of commas, one token written out. -/
theorem commaCount_cons (t : Token) (ts : List Token) :
    commaCount (t :: ts) =
      if t.isOpener then commaCount (afterGroup t ts)
      else
        ((if t.spells "<" then confirmedTypeArgumentsRest? (t :: ts) else none).map
          commaCount).getD ((if t.spells "," then 1 else 0) + commaCount ts) := by
  rw [commaCount]
  congr 1
  split
  · next h => rw [h]; rfl
  · next h => rw [h]; rfl

/-- Alike tokens have as many commas outside groups. -/
theorem commaCount_alike (h : List.Forall₂ (Token.Alike line) ts us) :
    commaCount ts = commaCount us := by
  -- on the number of tokens, since groups and type arguments are passed over at once
  induction hn : ts.length using Nat.strongRecOn generalizing ts us with
  | ind n ih =>
    subst hn
    cases h with
    | nil => rfl
    | @cons t u ts us halike htail =>
      have hangle : Option.Rel (List.Forall₂ (Token.Alike line))
          (if t.spells "<" then confirmedTypeArgumentsRest? (t :: ts) else none)
          (if u.spells "<" then confirmedTypeArgumentsRest? (u :: us) else none) := by
        rw [← halike.spells]
        split
        · exact confirmedTypeArgumentsRest?_alike (.cons halike htail)
        · exact .none
      rw [commaCount_cons, commaCount_cons, ← halike.isOpener, ← halike.spells ",",
        ih _ (Nat.lt_succ_self _) htail rfl]
      split
      · exact ih _ (Nat.lt_succ_of_le (afterGroup_le t ts)) (afterGroup_alike halike htail) rfl
      · generalize hfound : (if t.spells "<" then confirmedTypeArgumentsRest? (t :: ts)
            else none) = found at hangle ⊢
        generalize (if u.spells "<" then confirmedTypeArgumentsRest? (u :: us)
            else none) = found' at hangle ⊢
        cases hangle with
        | none => rfl
        | @some rest rest' hrest =>
          have hlt : rest.length < (t :: ts).length := by
            split_ifs at hfound
            exact confirmedTypeArgumentsRest?_shorter hfound
          exact ih _ hlt hrest rfl

/-- Alike tokens are as many arguments. -/
theorem argumentCount_alike (h : List.Forall₂ (Token.Alike line) ts us) :
    argumentCount ts = argumentCount us := by
  have hempty : ts.isEmpty = us.isEmpty := by
    cases h <;> rfl
  rw [argumentCount, argumentCount, commaCount_alike h, hempty]

/-- The first names of alike groups are alike. -/
theorem find_name_alike (h : List.Forall₂ (Token.Alike line) ts us) :
    List.Forall₂ (NameAlike line) (ts.find? (·.isName)).toList (us.find? (·.isName)).toList := by
  induction h with
  | nil => exact .nil
  | @cons t u ts us halike _ ih =>
    rw [List.find?_cons, List.find?_cons, ← halike.isName]
    cases hname : t.isName with
    | true => exact .cons (halike.name hname) .nil
    | false => exact ih

/-- The parameters of alike lambdas are alike. -/
theorem lambdaParameters_alike {group group' : List Token}
    (h : List.Forall₂ (Token.Alike line) ts us)
    (hgroup : List.Forall₂ (Token.Alike line) group group') (angle : Int) :
    List.Forall₂ (NameAlike line) (lambdaParameters angle group ts)
      (lambdaParameters angle group' us) := by
  induction h generalizing group group' angle with
  | nil =>
    rw [lambdaParameters, lambdaParameters]
    split
    · exact find_name_alike hgroup
    · exact .nil
  | @cons t u ts us halike _ ih =>
    simp only [lambdaParameters, ← halike.spells, ← halike.spellsAny]
    generalize (if t.spells "<" then angle + 1 else if t.spells ">" then angle - 1 else angle) =
      angle'
    split
    · exact List.rel_append (find_name_alike hgroup) (ih .nil _)
    · exact ih (.cons halike hgroup) _

/-! ## Groups ahead -/

namespace Simulation

variable {σ : Simulation} {α : Type} {R : Prop} {last : Bool} {V : α → α → Prop}

/-- A parser that goes on by the group ahead, if the two groups are alike. -/
theorem SimAt.groupOf {f g : List Token × List Token → Parser α} (htokens : R → σ.tokens ts us)
    (hgroup : R → ∀ l ts' l' us', ts = l :: ts' → us = l' :: us' →
      GroupAlike σ.line σ.tokens σ.strict (Source.splitGroup l.closer?.toList ts')
        (Source.splitGroup l'.closer?.toList us'))
    (hf : ∀ inside rest inside' rest', rest <:+ ts →
      σ.SimAt (R ∧ List.Forall₂ (Token.Alike σ.line) inside inside' ∧ σ.tokens rest rest') last V
        ts us (f (inside, rest)) (g (inside', rest'))) :
    σ.SimAt R last V ts us (groupAhead >>= f) (groupAhead >>= g) := by
  refine ⟨fun s r hr => ?_, fun hR s s' hs => ?_⟩
  -- the group is looked at without being consumed, so only what follows moves forward
  · obtain ⟨a, ha, b, hb, rfl⟩ := bind_eq_ok.1 hr
    obtain ⟨l, ts, inside, rest, rfl, hsplit, rfl⟩ := groupAhead_eq_ok ha
    have hsuffix := (splitGroup_suffix hsplit).trans (List.suffix_cons l ts)
    exact (hf inside rest inside rest hsuffix).forward s b hb
  · rcases σ.uncons (htokens hR) with ⟨rfl, rfl, hwhole⟩ | ⟨l, ts', l', us', rfl, rfl, halike, -⟩
    · exact fun _ => ⟨_, rfl, rfl, hs.2 hwhole⟩
    -- both groups end, or neither does, at the end of the text or at a wrong closer
    · have hparts := hgroup hR l ts' l' us' rfl rfl
      cases hsplit : Source.splitGroup l.closer?.toList ts' with
      | ok parts =>
        rw [hsplit] at hparts
        obtain ⟨inside', rest', hsplit', hinside, hrest⟩ := hparts
        rw [bind_of_ok (groupAhead_of_ok hsplit s), bind_of_ok (groupAhead_of_ok hsplit' s'),
          recording_nil, recording_nil]
        have hsuffix := (splitGroup_suffix hsplit).trans (List.suffix_cons l ts')
        exact (hf _ _ _ _ hsuffix).alike ⟨hR, hinside, hrest⟩ s s' hs
      | error e =>
        rw [hsplit] at hparts
        cases e with
        | none =>
          rw [bind_of_error (groupAhead_of_end hsplit s)]
          exact fun hstrict =>
            ⟨_, bind_of_error (groupAhead_of_end (hparts hstrict) s'), rfl, halike.2⟩
        | some closer =>
          rw [bind_of_error (groupAhead_of_closer hsplit s)]
          intro hstrict
          obtain ⟨closer', hsplit', hcloser⟩ := hparts hstrict
          exact ⟨_, bind_of_error (groupAhead_of_closer hsplit' s'), rfl, hcloser.2⟩

/-- A parser that goes on by the group in parentheses ahead. -/
theorem SimAt.group {f g : List Token × List Token → Parser α}
    (hopen : R → begins "(" ts ∧ σ.tokens ts us)
    (hf : ∀ inside rest inside' rest', rest <:+ ts →
      σ.SimAt (R ∧ List.Forall₂ (Token.Alike σ.line) inside inside' ∧ σ.tokens rest rest') last V
        ts us (f (inside, rest)) (g (inside', rest'))) :
    σ.SimAt R last V ts us (groupAhead >>= f) (groupAhead >>= g) := by
  refine .groupOf (fun hR => (hopen hR).2) (fun hR l ts' l' us' hts hus => ?_) hf
  obtain ⟨hbegins, htokens⟩ := hopen hR
  rw [hts] at hbegins htokens
  rw [hus] at htokens
  exact σ.splitGroup htokens hbegins

/-- A group is skipped on both sides. -/
theorem SimAt.skipGroup (hopen : R → begins "(" ts ∧ σ.tokens ts us) :
    σ.SimAt R false Eq ts us Parser.skipGroup Parser.skipGroup :=
  .group hopen fun _ _ _ _ hsuffix => .resumeAt hsuffix fun hR => hR.2.2

/-- The arguments ahead are counted alike. -/
theorem SimAt.argumentsAhead (hopen : R → begins "(" ts ∧ σ.tokens ts us) :
    σ.SimAt R false Eq ts us Parser.argumentsAhead Parser.argumentsAhead := by
  refine .group hopen fun inside rest inside' rest' _ => ?_
  have hcount : σ.Sim (List.Forall₂ (Token.Alike σ.line) inside inside') false Eq
      (Pure.pure (argumentCount inside)) (Pure.pure (argumentCount inside')) :=
    .pure argumentCount_alike
  exact hcount.at fun hR => ⟨hR.2.1, (hopen hR.1).2⟩

end Simulation

end Assay.Source

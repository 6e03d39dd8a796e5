import Assay.Proofs.Bracket
import Assay.Proofs.LexicalTokens
import Assay.Proofs.SimulationMembers

/-!
# Two files with the same start

Two token lists that start alike and then go on differently cannot be told apart by a parser of
members, as long as the common start closes the brackets that are due and ends with a semicolon or a
closing brace. Main statement: members that were read in front of a closing brace are read in the
same way in front of any tokens (`members_append`).
-/

namespace Assay.Source

open Assay.Source.Parser

variable {t u : Token} {ts us rest : List Token} {due stack : List String} {closer : String}

/-! ## Tests inside open brackets -/

/-- A group that is open closes before the tokens are through. -/
theorem GroupEnd.of_unclosed (hne : stack ≠ []) (h : unclosed (stack ++ due) ts = some []) :
    ∃ inside r rest, ts = inside ++ r :: rest ∧ GroupEnd stack inside r ∧
      unclosed due rest = some [] := by
  induction ts generalizing stack with
  | nil =>
    rw [unclosed_nil, Option.some.injEq, List.append_eq_nil_iff] at h
    exact absurd h.1 hne
  | cons t ts ih =>
    rcases unclosed_cons_eq_some h with ⟨closer, hopener, h⟩ | ⟨closer, _, hcloser, hdue, h⟩ |
      ⟨hplain, h⟩
    · obtain ⟨inside, r, rest, rfl, hend, hrest⟩ := ih (List.cons_ne_nil closer stack) h
      exact ⟨t :: inside, r, rest, rfl, .opener hopener hend, hrest⟩
    · obtain ⟨_, outer, rfl⟩ := List.exists_cons_of_ne_nil hne
      obtain ⟨rfl, rfl⟩ := List.cons.inj hdue
      by_cases houter : outer = []
      · subst houter
        exact ⟨[], t, ts, rfl, .last hcloser, h⟩
      · obtain ⟨inside, r, rest, rfl, hend, hrest⟩ := ih houter h
        exact ⟨t :: inside, r, rest, rfl, .closer hcloser houter hend, hrest⟩
    · obtain ⟨inside, r, rest, rfl, hend, hrest⟩ := ih hne h
      exact ⟨t :: inside, r, rest, rfl, .plain hplain hend, hrest⟩

/-- The header of a loop is told by what comes before the bracket that closes it. -/
theorem isForEach_of_unclosed (h : unclosed (stack ++ closer :: due) ts = some [])
    (pending : Nat) (z z' : List Token) :
    isForEach stack.length pending (ts ++ z) = isForEach stack.length pending (ts ++ z') := by
  induction ts generalizing stack pending with
  | nil => simp at h
  | cons t ts ih =>
    rw [List.cons_append, List.cons_append]
    simp only [isForEach]
    rcases unclosed_cons_eq_some h with ⟨opened, hopen, h⟩ | ⟨_, _, hcloser, hdue, h⟩ | ⟨hplain, h⟩
    · have hopener : t.isOpener := by rw [Token.isOpener, hopen]; rfl
      rw [← List.cons_append] at h
      rw [if_pos hopener, if_pos hopener]
      exact ih h pending
    · have hopener : ¬ t.isOpener := by rw [Token.isOpener, closer?_eq_none hcloser.1]; simp
      rw [if_neg hopener, if_neg hopener, if_pos hcloser.1, if_pos hcloser.1]
      cases stack with
      | nil => rfl
      | cons closed stack =>
        obtain ⟨-, rfl⟩ := List.cons.inj hdue
        exact ih h pending
    · have hopener : ¬ t.isOpener := by rw [Token.isOpener, hplain.1]; simp
      have hsame := fun pending => ih h pending
      simp only [hopener, hplain.2, hsame, Bool.false_eq_true, if_false]

/-! ## Complete starts -/

/-- Tokens after which nothing is left to be read of what they belong to: they end something, and
close the brackets that are due. -/
structure Complete (ts : List Token) : Prop where
  lexical : Lexical ts
  ends : ∃ pre t, ts = pre ++ [t] ∧ t.Ends
  closes : ∃ due, unclosed due ts = some []

theorem Complete.ne_nil (h : Complete ts) : ts ≠ [] := by
  obtain ⟨pre, t, rfl, -⟩ := h.ends
  simp

theorem Token.IsLexical.isLast (h : t.IsLexical) (ht : t.Ends) : t.IsLast := by
  rcases ht with ht | ht
  · exact .inl (h.isSign (by decide) ht)
  · exact .inr (h.isSign (by decide) ht)

theorem unclosed_tail (h : ∃ due, unclosed due (t :: ts) = some []) :
    ∃ due, unclosed due ts = some [] := by
  obtain ⟨due, h⟩ := h
  rw [unclosed_cons] at h
  obtain ⟨due', -, hdue'⟩ := Option.bind_eq_some_iff.1 h
  exact ⟨due', hdue'⟩

/-- What is left of such tokens after the first one, if anything is. -/
theorem Complete.tail (h : Complete (t :: ts)) : (ts = [] ∧ t.IsLast) ∨ Complete ts := by
  obtain ⟨pre, last, hpre, hlast⟩ := h.ends
  cases pre with
  | nil =>
    cases hpre
    exact .inl ⟨rfl, (h.lexical t (by simp)).isLast hlast⟩
  | cons first pre =>
    obtain ⟨rfl, rfl⟩ := List.cons.inj hpre
    exact .inr ⟨fun u hu => h.lexical u (List.mem_cons_of_mem _ hu), ⟨pre, last, rfl, hlast⟩,
      unclosed_tail h.closes⟩

theorem Complete.of_append {pre : List Token} (h : Complete (pre ++ ts)) (hne : ts ≠ []) :
    Complete ts := by
  induction pre with
  | nil => exact h
  | cons t pre ih =>
    rcases h.tail with ⟨hnil, -⟩ | htail
    · exact absurd (List.append_eq_nil_iff.1 hnil).2 hne
    · exact ih htail

/-- A closing parenthesis is not the end of such tokens. -/
theorem Complete.after_parenthesis {pre : List Token} (h : Complete (pre ++ t :: ts))
    (ht : t.Closes ")") : Complete ts := by
  refine Complete.of_append (by rwa [← List.append_cons] : Complete ((pre ++ [t]) ++ ts)) ?_
  rintro rfl
  obtain ⟨before, last, hlast, hends⟩ := h.ends
  obtain ⟨-, hsame⟩ := List.append_inj' hlast rfl
  cases hsame
  rcases hends with hends | hends <;> simp [Token.spells, ht.2] at hends

/-- The brackets behind an opening one: its own closer is due before the others. -/
theorem Complete.inside (h : Complete (t :: ts)) (ht : t.spells "(") :
    t.closer? = some ")" ∧ ∃ due, unclosed (")" :: due) ts = some [] := by
  have hopen := ((h.lexical t (by simp)).isSign (by decide) ht).opens rfl
  obtain ⟨due, hdue⟩ := h.closes
  exact ⟨hopen, due, by rwa [unclosed_opener hopen] at hdue⟩

/-! ## The simulation -/

/-- Lists with a common start before `z` and `z'`. -/
def Simulation.shared (z z' : List Token) : Simulation where
  line := Eq
  tokens := fun ts us => ∃ start, Complete start ∧ ts = start ++ z ∧ us = start ++ z'
  ended := fun ts us => ts = z ∧ us = z'
  kept := fun ts => z <:+ ts ∧ z.length < ts.length
  whole := False
  strict := False
  uncons := by
    rintro _ _ ⟨start, hstart, rfl, rfl⟩
    obtain ⟨t, start, rfl⟩ := List.exists_cons_of_ne_nil hstart.ne_nil
    refine .inr ⟨t, start ++ z, t, start ++ z', rfl, rfl, .refl t, ?_⟩
    rcases hstart.tail with ⟨rfl, hlast⟩ | htail
    · exact .inr ⟨hlast, rfl, rfl⟩
    · exact .inl ⟨start, htail, rfl, rfl⟩
  shorter := by
    rintro _ _ _ _ ⟨start, -, rfl, rfl⟩ ⟨rest, -, rfl, rfl⟩
    simp only [List.length_append]
    omega
  kept_of_suffix := fun hsuffix hkept =>
    ⟨hkept.1.trans hsuffix, Nat.lt_of_lt_of_le hkept.2 hsuffix.length_le⟩
  not_kept := by
    rintro _ _ ⟨rfl, rfl⟩ hkept
    exact Nat.lt_irrefl _ hkept.2
  kept_of_ended := by
    rintro _ _ _ ⟨rfl, rfl⟩ hsuffix hlt
    exact ⟨hsuffix, hlt⟩
  kept_of_strict := False.elim
  whole_of_strict := False.elim
  splitGroup := by
    rintro l l' ts us ⟨start, hstart, hts, hus⟩ hopen
    obtain ⟨t, start, rfl⟩ := List.exists_cons_of_ne_nil hstart.ne_nil
    obtain ⟨rfl, rfl⟩ : l = t ∧ ts = start ++ z := List.cons.inj hts
    obtain ⟨rfl, rfl⟩ : l' = l ∧ us = start ++ z' := List.cons.inj hus
    obtain ⟨hcloser, due, hdue⟩ := hstart.inside hopen
    rw [← List.singleton_append] at hdue
    obtain ⟨inside, r, rest, rfl, hend, -⟩ := GroupEnd.of_unclosed (List.cons_ne_nil _ _) hdue
    rw [hcloser, Option.toList_some, List.append_assoc, List.append_assoc, List.cons_append,
      List.cons_append, hend.splitGroup, hend.splitGroup]
    rw [← List.cons_append] at hstart
    exact ⟨inside, rest ++ z', rfl, forall₂_alike_refl inside, rest,
      hstart.after_parenthesis (hend.closes (List.cons_ne_nil _ _)), rfl, rfl⟩
  isForEach := by
    rintro _ _ ⟨start, hstart, rfl, rfl⟩ hfor hopen
    obtain ⟨k, start, rfl⟩ := List.exists_cons_of_ne_nil hstart.ne_nil
    -- the word at the front ends nothing, so the parenthesis behind it is a common token too
    rcases hstart.tail with ⟨-, hlast⟩ | hparenthesis
    · rw [List.cons_append, begins_cons, hlast.spells "for" rfl rfl] at hfor
      cases hfor
    obtain ⟨l, start, rfl⟩ := List.exists_cons_of_ne_nil hparenthesis.ne_nil
    obtain ⟨-, due, hdue⟩ := hparenthesis.inside hopen
    exact isForEach_of_unclosed (by rwa [List.nil_append] : unclosed ([] ++ ")" :: due) start = some [])
      0 z z'

/-! ## Members -/

theorem Fact.Alike.eq {f g : Fact} (h : f.Alike Eq g) : f = g := by
  cases h with
  | declaration h => rw [h]
  | loop h => rw [h]
  | catchClause h => rw [h]
  | access h => rw [h]
  | value => rfl
  | field => rfl
  | importOf => rfl

theorem eq_of_forall₂_alike {facts gs : List Fact} (h : List.Forall₂ (Fact.Alike Eq) facts gs) :
    facts = gs := List.forall₂_eq_eq_eq ▸ h.imp fun _ _ => Fact.Alike.eq

variable {depth depth' : Nat} {s s' : Scope} {facts : List Fact}

/-- A member stops behind a token that ends something. -/
theorem member_forward (depth : Nat) (s : Scope) (ts : List Token) :
    Simulation.Forward true ts (construct depth .member s ts) := by
  cases depth with
  | zero => exact nofun
  | succ depth =>
    have hnests : (Simulation.shared [] []).Nests (construct depth) (construct depth) :=
      Simulation.nests_construct (Nat.le_refl depth) fun _ => rfl
    have hmember : (Simulation.shared [] []).Sim True true Eq (member (construct depth))
        (member (construct depth)) := hnests.member
    exact (hmember ts ts).forward s

theorem members_suffix {r : Parsed Unit}
    (h : untilSees "\x7d" (construct depth .member) s ts = .ok r) : r.rest <:+ ts := by
  have hnests : (Simulation.shared [] []).Nests (construct depth) (construct depth) :=
    Simulation.nests_construct (Nat.le_refl depth) fun _ => rfl
  have hmembers : (Simulation.shared [] []).Sim True false Eq
      (untilSees "\x7d" (construct depth .member)) (untilSees "\x7d" (construct depth .member)) :=
    .untilSees "\x7d" (hnests.sim _)
  exact ((hmembers ts ts).forward s r h).1

/-- What was read before some tokens is read in the same way before others. -/
theorem Simulation.Sim.shared {start rest z z' : List Token} {p q : Parser Unit}
    (hsim : (Simulation.shared z z').Sim True true Eq p q) (hscope : s.enclosing = s'.enclosing)
    (hstart : Complete (start ++ rest))
    (h : p s (start ++ rest ++ z) = .ok ⟨(), facts, rest ++ z⟩) :
    q s' (start ++ rest ++ z') = .ok ⟨(), facts, rest ++ z'⟩ := by
  have halike := (hsim _ (start ++ rest ++ z')).alike ⟨trivial, _, hstart, rfl, rfl⟩ s s'
    ⟨hscope, nofun⟩
  rw [h] at halike
  have hreached : (Simulation.shared z z').Reached true (rest ++ z) := by
    by_cases hrest : rest = []
    · exact .inr ⟨rfl, z', by rw [hrest, List.nil_append], rfl⟩
    · refine .inl ⟨List.suffix_append rest z, ?_⟩
      rw [List.length_append]
      have := List.length_pos_iff.2 hrest
      omega
  obtain ⟨⟨_, facts', rest'⟩, hrun', -, hfacts, hleft⟩ := halike hreached
  have hsame : rest' = rest ++ z' := by
    rcases hleft with ⟨common, -, hcommon, hrest'⟩ | ⟨-, hended, hrest'⟩
    · rw [List.append_cancel_right hcommon]
      exact hrest'
    · rw [List.append_left_eq_self.1 hended]
      exact hrest'
  have hsameFacts : facts = facts' := eq_of_forall₂_alike hfacts
  rw [hsameFacts, ← hsame]
  exact hrun'

/-- A member that was read before some tokens is read in the same way before others. -/
theorem member_shared {start rest z z' : List Token} (hdepth : depth ≤ depth')
    (hscope : s.enclosing = s'.enclosing) (hstart : Complete (start ++ rest))
    (h : construct depth .member s (start ++ rest ++ z) = .ok ⟨(), facts, rest ++ z⟩) :
    construct depth' .member s' (start ++ rest ++ z') = .ok ⟨(), facts, rest ++ z'⟩ := by
  obtain - | depth := depth
  · cases h
  obtain - | depth' := depth'
  · omega
  have hnests : (Simulation.shared z z').Nests (construct depth) (construct depth') :=
    Simulation.nests_construct (Nat.le_of_succ_le_succ hdepth) nofun
  have hmember : (Simulation.shared z z').Sim True true Eq (member (construct depth))
      (member (construct depth')) := hnests.member
  exact hmember.shared hscope hstart h

/-- A block that was read before some tokens is read in the same way before others, also where
constructs may nest deeper. -/
theorem block_shared {bs z z' : List Token} (hdepth : depth ≤ depth') (hbs : Complete bs)
    (h : block (construct depth) s (bs ++ z) = .ok ⟨(), facts, z⟩) :
    block (construct depth') s (bs ++ z') = .ok ⟨(), facts, z'⟩ := by
  have hnests : (Simulation.shared z z').Nests (construct depth) (construct depth') :=
    Simulation.nests_construct hdepth nofun
  have hblock : (Simulation.shared z z').Sim True true Eq (block (construct depth))
      (block (construct depth')) := hnests.block
  have hshared : block (construct depth') s (bs ++ [] ++ z') = .ok ⟨(), facts, [] ++ z'⟩ :=
    hblock.shared rfl (by rwa [List.append_nil]) (by rwa [List.append_nil])
  rwa [List.append_nil] at hshared

/-- Members up to a closing brace are a first member, which ends with a token that ends something,
and the others. -/
theorem members_cons {close : Token} {ms : List Token} (hms : ms ≠ [])
    (h : untilSees "\x7d" (construct depth .member) s (ms ++ [close]) = .ok ⟨(), facts, [close]⟩) :
    ∃ pre t rest first more, ms = pre ++ t :: rest ∧ t.Ends ∧
      begins "\x7d" (ms ++ [close]) = false ∧
      construct depth .member s (ms ++ [close]) = .ok ⟨(), first, rest ++ [close]⟩ ∧
      untilSees "\x7d" (construct depth .member) s (rest ++ [close]) = .ok ⟨(), more, [close]⟩ ∧
      facts = first ++ more := by
  rcases untilSees_eq_ok h with ⟨-, hdone⟩ | ⟨hword, first, mid, ⟨_, more, left⟩, hfirst, -, hmore, hr⟩
  · have hrest : ms ++ [close] = [close] := (congrArg Parsed.rest hdone).symm
    exact absurd (List.append_left_eq_self.1 hrest) hms
  · obtain ⟨hfacts, rfl⟩ : facts = first ++ more ∧ left = [close] := by
      cases hr
      exact ⟨rfl, rfl⟩
    obtain ⟨-, hends⟩ := member_forward depth s _ _ hfirst
    obtain ⟨pre, t, hpre, ht⟩ := hends rfl
    obtain ⟨rest, rfl⟩ : [close] <:+ mid := members_suffix hmore
    refine ⟨pre, t, rest, first, more, ?_, ht, hword, hfirst, hmore, hfacts⟩
    exact List.append_cancel_right (hpre.trans (by simp))

/-- Members that were read before a closing brace end with a token that ends something. -/
theorem members_end {close : Token} {ms : List Token} (hms : ms ≠ [])
    (h : untilSees "\x7d" (construct depth .member) s (ms ++ [close]) = .ok ⟨(), facts, [close]⟩) :
    ∃ pre t, ms = pre ++ [t] ∧ t.Ends := by
  induction hn : ms.length using Nat.strongRecOn generalizing ms facts with
  | ind n ih =>
    obtain ⟨pre, t, rest, -, more, rfl, ht, -, -, hmore, -⟩ := members_cons hms h
    by_cases hrest : rest = []
    · exact ⟨pre, t, by rw [hrest], ht⟩
    · obtain ⟨pre', t', rfl, ht'⟩ := ih _ (by simp [← hn]; omega) hrest hmore rfl
      exact ⟨pre ++ t :: pre', t', by simp, ht'⟩

/-- Members that were read in front of a closing brace are read in the same way in front of any
tokens. -/
theorem members_append {close : Token} {ms : List Token} (hlexical : Lexical ms)
    (hclosed : ∃ due, unclosed due ms = some []) (hdepth : depth ≤ depth')
    (hscope : s.enclosing = s'.enclosing)
    (h : untilSees "\x7d" (construct depth .member) s (ms ++ [close]) = .ok ⟨(), facts, [close]⟩)
    (z : List Token) :
    untilSees "\x7d" (construct depth' .member) s' (ms ++ z) =
      recording facts (untilSees "\x7d" (construct depth' .member) s' z) := by
  -- on the tokens of the members, one member each time
  induction hn : ms.length using Nat.strongRecOn generalizing ms facts with
  | ind n ih =>
    -- no member at all: a round would go past the closing brace
    by_cases hms : ms = []
    · subst hms
      rcases untilSees_eq_ok h with ⟨-, hdone⟩ | ⟨-, _, mid, more, -, hlt, hmore, hr⟩
      · have hfacts : facts = [] := congrArg Parsed.facts hdone
        rw [hfacts, List.nil_append, recording_nil]
      · have hclose : [close] <:+ mid := by
          have hrest : [close] = more.rest := congrArg Parsed.rest hr
          exact hrest ▸ members_suffix hmore
        have := hclose.length_le
        simp only [List.nil_append, List.length_cons, List.length_nil] at hlt this
        omega
    · have hcomplete : Complete ms := ⟨hlexical, members_end hms h, hclosed⟩
      obtain ⟨pre, t, rest, first, more, rfl, -, hword, hfirst, hmore, rfl⟩ := members_cons hms h
      have hsplit : pre ++ t :: rest = pre ++ [t] ++ rest := by simp
      rw [hsplit] at hcomplete hfirst ⊢
      have hrun : construct depth' .member s' (pre ++ [t] ++ rest ++ z) = .ok ⟨(), first, rest ++ z⟩ :=
        member_shared hdepth hscope hcomplete hfirst
      have hlt : (rest ++ z).length < (pre ++ [t] ++ rest ++ z).length := by simp; omega
      have hstart : begins "\x7d" (pre ++ [t] ++ rest ++ z) = false := by
        cases pre <;> exact hword
      -- the other members are complete as well, so the induction goes on with them
      have hclosed' : ∃ due, unclosed due rest = some [] := by
        obtain ⟨due, hdue⟩ := hclosed
        rw [hsplit, unclosed_append] at hdue
        obtain ⟨due', -, hdue'⟩ := Option.bind_eq_some_iff.1 hdue
        exact ⟨due', hdue'⟩
      have hlexical' : Lexical rest := fun u hu => hlexical u (by simp [hu])
      rw [untilSees_again hstart hrun hlt,
        ih rest.length (by simp [← hn]; omega) hlexical' hclosed' hmore rfl, recording_recording]

end Assay.Source

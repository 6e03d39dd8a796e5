import Assay.Proofs.FactOrder
import Assay.Proofs.SharedStart
import Assay.Proofs.TypeGrammar
import Mathlib.Data.List.Perm.Basic

/-!
# The order of members

A list of members is read without regard to what follows it, so lists of members can be put one
after another, and a class that consists of them is read as their facts in order. Main statement:
members compose, and a class with its members in another order has the same sizes
(`members_compose_and_permute`).
-/

namespace Assay.Source

open Assay.Source.Parser

variable {type : Enclosing} {m m' : List Token} {ms : List (List Token)} {facts gs : List Fact}
  {fss : List (List Fact)} {t close : Token} {ts : List Token} {s : Scope}

/-! ## Lists of members -/

/-- Read as members of the type, the tokens give the facts and end in front of a closing brace. The
depth is that of a file with these tokens and the brace. -/
def MemberList (type : Enclosing) (m : List Token) (facts : List Fact) : Prop :=
  ∃ close : Token, close.IsSign "\x7d" ∧
    untilSees "\x7d" (construct (depthFor (m.length + 1)) .member) ⟨some type, close.endLine⟩
      (m ++ [close]) = .ok ⟨(), facts, [close]⟩

/-- More tokens are given no less depth. -/
theorem depthFor_mono {n k : Nat} (h : n ≤ k) : depthFor n ≤ depthFor k := by
  unfold depthFor
  omega

/-- No tokens are a list of no members. -/
theorem memberList_nil (type : Enclosing) : MemberList type [] [] :=
  ⟨.sign "\x7d" 0, ⟨rfl, rfl⟩, untilSees_done rfl⟩

/-- Members are read in the same way in front of any tokens. -/
theorem MemberList.before (h : MemberList type m facts) (hlexical : Lexical m)
    (hbalanced : Balanced m) {depth : Nat} (hdepth : depthFor (m.length + 1) ≤ depth)
    (hs : s.enclosing = some type) (z : List Token) :
    untilSees "\x7d" (construct depth .member) s (m ++ z) =
      recording facts (untilSees "\x7d" (construct depth .member) s z) := by
  obtain ⟨close, -, hrun⟩ := h
  exact members_append hlexical ⟨[], hbalanced⟩ hdepth hs.symm hrun z

/-- Two lists of members in a row are one, and their facts too. -/
theorem MemberList.append (h : MemberList type m facts) (h' : MemberList type m' gs)
    (hlexical : Lexical m) (hbalanced : Balanced m) (hlexical' : Lexical m')
    (hbalanced' : Balanced m') : MemberList type (m ++ m') (facts ++ gs) := by
  have hclose : begins "\x7d" [Token.sign "\x7d" 0] := rfl
  refine ⟨.sign "\x7d" 0, ⟨rfl, rfl⟩, ?_⟩
  rw [List.append_assoc, h.before hlexical hbalanced (depthFor_mono (by simp)) rfl,
    h'.before hlexical' hbalanced' (depthFor_mono (by simp)) rfl, untilSees_done hclose]
  simp

theorem Balanced.append (h : Balanced m) (h' : Balanced m') : Balanced (m ++ m') := by
  rw [Balanced, unclosed_append, h]
  exact h'

theorem lexical_flatten (h : ∀ m ∈ ms, Lexical m) : Lexical ms.flatten := by
  intro t ht
  obtain ⟨m, hm, ht⟩ := List.mem_flatten.1 ht
  exact h m hm t ht

theorem balanced_flatten (h : ∀ m ∈ ms, Balanced m) : Balanced ms.flatten := by
  induction ms with
  | nil => rfl
  | cons m ms ih =>
    exact (h m (by simp)).append (ih fun m' hm' => h m' (List.mem_cons_of_mem m hm'))

/-- Any number of lists of members, one after another. -/
theorem memberList_flatten (hms : List.Forall₂ (MemberList type) ms fss)
    (hlexical : ∀ m ∈ ms, Lexical m) (hbalanced : ∀ m ∈ ms, Balanced m) :
    MemberList type ms.flatten fss.flatten := by
  induction hms with
  | nil => exact memberList_nil type
  | @cons m facts ms fss hm _ ih =>
    have hlexical' : ∀ m' ∈ ms, Lexical m' := fun m' hm' => hlexical m' (List.mem_cons_of_mem m hm')
    have hbalanced' : ∀ m' ∈ ms, Balanced m' :=
      fun m' hm' => hbalanced m' (List.mem_cons_of_mem m hm')
    exact hm.append (ih hlexical' hbalanced') (hlexical m (by simp)) (hbalanced m (by simp))
      (lexical_flatten hlexical') (balanced_flatten hbalanced')

/-! ## Other lines -/

/-- Members on other lines, in front of any closing brace, give the same facts up to their lines. -/
theorem MemberList.relined (h : MemberList type m facts)
    (hm : List.Forall₂ (Token.Alike fun _ _ => True) m m') (hclose : close.IsSign "\x7d")
    {depth : Nat} (hdepth : depthFor (m.length + 1) ≤ depth) (hs : s.enclosing = some type) :
    ∃ gs, untilSees "\x7d" (construct depth .member) s (m' ++ [close]) = .ok ⟨(), gs, [close]⟩ ∧
      SameFacts facts gs := by
  obtain ⟨brace, hbrace, hrun⟩ := h
  -- the parsers of both runs are alike up to lines, also with more room
  have hnests : (Simulation.pointwise (fun _ _ => True) False).Nests
      (construct (depthFor (m.length + 1))) (construct depth) :=
    Simulation.nests_construct hdepth nofun
  have hsim : (Simulation.pointwise (fun _ _ => True) False).Sim True false Eq
      (untilSees "\x7d" (construct (depthFor (m.length + 1)) .member))
      (untilSees "\x7d" (construct depth .member)) := .untilSees "\x7d" (hnests.sim _)
  have hbraces : brace.Alike (fun _ _ => True) close :=
    ⟨.inl ⟨hbrace.1.trans hclose.1.symm, hbrace.2.trans hclose.2.symm⟩, trivial⟩
  have halike := (hsim (m ++ [brace]) (m' ++ [close])).alike
    ⟨trivial, List.rel_append hm (.cons hbraces .nil)⟩ ⟨some type, brace.endLine⟩ s
    ⟨hs.symm, fun _ => trivial⟩
  rw [hrun] at halike
  obtain ⟨⟨_, gs, rest⟩, hrun', -, hfacts, hleft⟩ := halike (.inl trivial)
  -- what is left is one token, so it is the closing brace
  have hrest : rest = [close] := by
    have hlength : rest.length = 1 := by
      rcases hleft with hleft | ⟨-, hended⟩
      · exact (List.Forall₂.length_eq hleft).symm
      · exact hended.elim
    obtain ⟨before, hbefore⟩ := members_suffix hrun'
    exact (List.append_inj' hbefore (by simpa using hlength)).2
  exact ⟨gs, by rw [hrun', hrest], sameFacts_of_alike hfacts⟩

/-! ## A file with one class -/

/-- The code is that of a class of the name that consists of these members, lines and the texts of
literals aside. -/
inductive ClassOf (name : String) (members : List Token) : List Token → Prop
  | mk {kw declared opening close : Token} {body : List Token} (hkw : kw.IsWord "class")
      (hname : declared.isName) (htext : declared.text = name) (hopening : opening.IsSign "\x7b")
      (hbody : List.Forall₂ (Token.Alike fun _ _ => True) members body)
      (hclose : close.IsSign "\x7d") :
      ClassOf name members (kw :: declared :: opening :: (body ++ [close]))

/-- At a class there is no package to declare. -/
theorem packageDeclaration_class (ht : t.IsWord "class") :
    packageDeclaration s (t :: ts) = .ok ⟨(), [], t :: ts⟩ := by
  simp [packageDeclaration, bind_apply, skipAnnotations_done, ht.spells]

/-- No modifier stands before `class`. -/
theorem modifiers_class (ht : t.IsWord "class") :
    modifiers memberModifiers s (t :: ts) = .ok ⟨[], [], t :: ts⟩ := by
  have hmodifier : t.spellsAny memberModifiers = false := by
    rw [ht.spellsAny]
    rfl
  have hfound : ∀ round : Parser (Option (List String)),
      round s (t :: ts) = .ok ⟨none, [], t :: ts⟩ →
        (do return (← gather round).flatten) s (t :: ts) = .ok ⟨[], [], t :: ts⟩ :=
    fun round hround => bind_of_ok (gather_done hround)
  refine hfound _ ?_
  simp [bind_apply, hmodifier, beginsAnnotations, ht.spells]

/-- The declaration that stands for a class at the top of a file. -/
def classFact (t declared : Token) : Fact :=
  .declaration ⟨.classType, declared.text, t.line, "", 0, false, false⟩

/-- A class is read as its members and its closing brace. -/
theorem topLevelDeclaration_class {declared opening : Token} {body : List Token} {last : Nat}
    {nested : Construct → Parser Unit} (ht : t.IsWord "class") (hname : declared.isName)
    (hopening : opening.IsSign "\x7b") (hclose : close.IsSign "\x7d")
    (hbody : untilSees "\x7d" (nested .member) ⟨some ⟨declared.text, .classType⟩, last⟩
      (body ++ [close]) = .ok ⟨(), facts, [close]⟩) :
    topLevelDeclaration nested ⟨none, last⟩ (t :: declared :: opening :: (body ++ [close])) =
      .ok ⟨(), classFact t declared :: facts, []⟩ := by
  have hheader : untilSees "\x7b" skip ⟨some ⟨declared.text, .classType⟩, last⟩
      (opening :: (body ++ [close])) = .ok ⟨(), [], opening :: (body ++ [close])⟩ :=
    untilSees_done (by simp [hopening.spells])
  have hdeclaration : typeDeclaration nested t.line ⟨none, last⟩
      (t :: declared :: opening :: (body ++ [close])) =
        .ok ⟨true, classFact t declared :: facts, []⟩ := by
    simp [typeDeclaration, bind_apply, typeKeyword?, ht.spells, name_cons, hname, declare,
      declareCallable, Scope.owner, classFact, hheader, classBody, expect_cons, hopening.spells,
      hclose.spells, hbody]
  have hmodifiers : discard (modifiers memberModifiers) ⟨none, last⟩
      (t :: declared :: opening :: (body ++ [close])) =
        .ok ⟨(), [], t :: declared :: opening :: (body ++ [close])⟩ :=
    discard_of_ok (modifiers_class ht)
  simp [topLevelDeclaration, bind_apply, ht.spells, hmodifiers, lineAt, hdeclaration]

/-- A file of one class is read as its members. -/
theorem file_class {declared opening : Token} {body : List Token} {last : Nat}
    {nested : Construct → Parser Unit} (ht : t.IsWord "class") (hname : declared.isName)
    (hopening : opening.IsSign "\x7b") (hclose : close.IsSign "\x7d")
    (hbody : untilSees "\x7d" (nested .member) ⟨some ⟨declared.text, .classType⟩, last⟩
      (body ++ [close]) = .ok ⟨(), facts, [close]⟩) :
    file nested ⟨none, last⟩ (t :: declared :: opening :: (body ++ [close])) =
      .ok ⟨(), classFact t declared :: facts, []⟩ := by
  have htop := topLevelDeclaration_class ht hname hopening hclose hbody
  generalize hcode : t :: declared :: opening :: (body ++ [close]) = code at htop ⊢
  have hne : code ≠ [] := by simp [← hcode]
  have hstart : ∀ word, begins word code = ("class" == word) := by simp [← hcode, ht.spells]
  have himports : ∀ round : Parser Bool, round ⟨none, last⟩ code = .ok ⟨false, [], code⟩ →
      repeatWhile round ⟨none, last⟩ code = .ok ⟨(), [], code⟩ := fun _ hround =>
    repeatWhile_done hround
  have htops : ∀ round : Parser Bool,
      round ⟨none, last⟩ code = .ok ⟨true, classFact t declared :: facts, []⟩ →
      round ⟨none, last⟩ [] = .ok ⟨false, [], []⟩ →
      repeatWhile round ⟨none, last⟩ code = .ok ⟨(), classFact t declared :: facts, []⟩ := by
    intro round hround hend
    rw [repeatWhile_again hround (List.length_pos_iff.2 hne), repeatWhile_done hend]
    simp
  have hpackage : packageDeclaration ⟨none, last⟩ code = .ok ⟨(), [], code⟩ :=
    hcode ▸ packageDeclaration_class ht
  unfold file
  rw [bind_of_ok hpackage, recording_nil, bind_of_ok (himports _ ?_), recording_nil]
  · exact htops _ (by simp [bind_apply, hne, htop]) (by simp [bind_apply])
  · simp [bind_apply, hstart]

/-- A class that consists of a list of members is read as its own declaration and their facts, up to
lines. -/
theorem factsOf_class {name : String} {code : List Token} (hcode : ClassOf name m code)
    (hm : MemberList ⟨name, .classType⟩ m facts) :
    ∃ gs, factsOf code = .ok gs ∧
      SameFacts (.declaration ⟨.classType, name, 0, "", 0, false, false⟩ :: facts) gs := by
  obtain @⟨kw, declared, opening, close, body, hkw, hname, rfl, hopening, hbody, hclose⟩ := hcode
  have hlength : m.length + 1 ≤ (kw :: declared :: opening :: (body ++ [close])).length := by
    simp [hbody.length_eq]
  obtain ⟨gs, hrun, hgs⟩ := hm.relined (s := ⟨some ⟨declared.text, .classType⟩, close.endLine⟩)
    hbody hclose (depthFor_mono hlength) rfl
  have hlast : (kw :: declared :: opening :: (body ++ [close])).getLast? = some close :=
    List.getLast?_concat (l := kw :: declared :: opening :: body)
  refine ⟨classFact kw declared :: gs, ?_, List.Perm.cons _ hgs⟩
  rw [factsOf, factsWithin, openingScope, hlast, Option.map_some, Option.getD_some,
    file_class hkw hname hopening hclose hrun]
  rfl

/-! ## Composition and order -/

/-- What is counted in a unit is that of a first unit followed by that of a second. -/
structure Composed (u v w : CompilationUnit) : Prop where
  declarations : u.declarations = v.declarations ++ w.declarations
  loops : u.loops = v.loops ++ w.loops
  catchClauses : u.catchClauses = v.catchClauses ++ w.catchClauses
  accesses : u.accesses = v.accesses ++ w.accesses
  valueNames : ∀ name, name ∈ u.valueNames ↔ name ∈ v.valueNames ∨ name ∈ w.valueNames
  fieldFlags : ∀ name, u.fieldFlags name = v.fieldFlags name ++ w.fieldFlags name

/-- Facts that follow one another make composed units. -/
theorem composed_of_facts {u v w : CompilationUnit} (h : u.facts = v.facts ++ w.facts) :
    Composed u v w where
  declarations := by rw [CompilationUnit.declarations, h, List.filterMap_append]; rfl
  loops := by rw [CompilationUnit.loops, h, List.filterMap_append]; rfl
  catchClauses := by rw [CompilationUnit.catchClauses, h, List.filterMap_append]; rfl
  accesses := by rw [CompilationUnit.accesses, h, List.filterMap_append]; rfl
  valueNames := fun name => by
    rw [CompilationUnit.valueNames, h, List.filterMap_append, List.mem_append]
    rfl
  fieldFlags := fun name => by
    rw [CompilationUnit.fieldFlags, CompilationUnit.fields, h, List.filterMap_append,
      List.filterMap_append]
    rfl

/-- Facts for each of several lists of members. -/
theorem exists_memberFacts (h : ∀ m ∈ ms, ∃ facts, MemberList type m facts) :
    ∃ fss, List.Forall₂ (MemberList type) ms fss := by
  induction ms with
  | nil => exact ⟨[], .nil⟩
  | cons m ms ih =>
    obtain ⟨facts, hfacts⟩ := h m (by simp)
    obtain ⟨fss, hfss⟩ := ih fun m' hm' => h m' (List.mem_cons_of_mem m hm')
    exact ⟨facts :: fss, .cons hfacts hfss⟩

/-- Classes that consist of the same lists of members in another order give the same facts up to
order and lines. -/
theorem factsOf_permuted {name : String} {ms' : List (List Token)} {code code' : List Token}
    (hms : ∀ m ∈ ms, Lexical m ∧ Balanced m ∧ ∃ facts, MemberList ⟨name, .classType⟩ m facts)
    (hperm : ms.Perm ms') (hcode : ClassOf name ms.flatten code)
    (hcode' : ClassOf name ms'.flatten code') :
    ∃ facts gs, factsOf code = .ok facts ∧ factsOf code' = .ok gs ∧ SameFacts facts gs := by
  obtain ⟨fss', hfss'⟩ := exists_memberFacts fun m hm => (hms m (hperm.mem_iff.2 hm)).2.2
  obtain ⟨fss, hfss, hfssPerm⟩ := List.perm_comp_forall₂ hperm hfss'
  have hflat : MemberList ⟨name, .classType⟩ ms.flatten fss.flatten :=
    memberList_flatten hfss (fun m hm => (hms m hm).1) fun m hm => (hms m hm).2.1
  have hflat' : MemberList ⟨name, .classType⟩ ms'.flatten fss'.flatten :=
    memberList_flatten hfss' (fun m hm => (hms m (hperm.mem_iff.2 hm)).1)
      fun m hm => (hms m (hperm.mem_iff.2 hm)).2.1
  obtain ⟨facts, hrun, hfacts⟩ := factsOf_class hcode hflat
  obtain ⟨gs, hrun', hgs⟩ := factsOf_class hcode' hflat'
  have hsame : SameFacts (.declaration ⟨.classType, name, 0, "", 0, false, false⟩ :: fss.flatten)
      (.declaration ⟨.classType, name, 0, "", 0, false, false⟩ :: fss'.flatten) :=
    .of_perm (hfssPerm.flatten.cons _)
  exact ⟨facts, gs, hrun, hrun', (hfacts.symm.trans hsame).trans hgs⟩

/-- Members compose and their order does not matter. Of two lists of members with balanced brackets,
one after the other is again a list of members, which gives the facts of the first and then those of
the second. In a class that consists of any number of such lists, another order of the lists leaves
every size that counts facts as it is, on whatever lines the tokens stand. -/
theorem members_compose_and_permute :
    (∀ {type : Enclosing} {m m' : List Token} {facts gs : List Fact},
      Lexical m → Balanced m → MemberList type m facts →
      Lexical m' → Balanced m' → MemberList type m' gs →
      MemberList type (m ++ m') (facts ++ gs) ∧
        ∀ u v w : CompilationUnit, u.facts = facts ++ gs → v.facts = facts → w.facts = gs →
          Composed u v w) ∧
    ∀ {name : String} {ms ms' : List (List Token)} {code code' : List Token},
      (∀ m ∈ ms, Lexical m ∧ Balanced m ∧ ∃ facts, MemberList ⟨name, .classType⟩ m facts) →
      ms.Perm ms' → ClassOf name ms.flatten code → ClassOf name ms'.flatten code' →
      ∃ facts gs, factsOf code = .ok facts ∧ factsOf code' = .ok gs ∧
        ∀ u u' : CompilationUnit, u.facts = facts → u'.facts = gs →
          ∀ rule : CountingRule, rule.countsFacts → rule.count u = rule.count u' := by
  constructor
  · intro type m m' facts gs hlexical hbalanced hm hlexical' hbalanced' hm'
    refine ⟨hm.append hm' hlexical hbalanced hlexical' hbalanced', fun u v w hu hv hw => ?_⟩
    exact composed_of_facts (by rw [hu, hv, hw])
  · intro name ms ms' code code' hms hperm hcode hcode'
    obtain ⟨facts, gs, hrun, hrun', hsame⟩ := factsOf_permuted hms hperm hcode hcode'
    refine ⟨facts, gs, hrun, hrun', fun u u' hu hu' rule hrule => ?_⟩
    rw [← hu, ← hu'] at hsame
    exact hsame.count_eq hrule

/-- A field and a method with a loop, in either order. -/
theorem members_compose_and_permute_field_method :
    let field := [Token.word "int" 1, .word "x" 1, .sign ";" 1]
    let method := [Token.word "void" 2, .word "f" 2, .sign "(" 2, .sign ")" 2, .sign "\x7b" 2,
      .word "while" 2, .sign "(" 2, .word "x" 2, .sign ")" 2, .sign ";" 2, .sign "\x7d" 2]
    let fieldFacts := [Fact.declaration ⟨.instanceField, "x", 1, "N", 0, false, false⟩, .value "x",
      .field "x" false]
    let methodFacts := [Fact.declaration ⟨.method, "f", 2, "N", 0, false, false⟩,
      .loop ⟨.whileLoop, 2⟩]
    let start := [Token.word "class" 1, .word "N" 1, .sign "\x7b" 1]
    MemberList ⟨"N", .classType⟩ (field ++ method) (fieldFacts ++ methodFacts) ∧
      ∃ facts gs, factsOf (start ++ (field ++ method ++ [.sign "\x7d" 3])) = .ok facts ∧
        factsOf (start ++ (method ++ field ++ [.sign "\x7d" 3])) = .ok gs ∧
        ∀ u u' : CompilationUnit, u.facts = facts → u'.facts = gs →
          ∀ rule : CountingRule, rule.countsFacts → rule.count u = rule.count u' := by
  intro field method fieldFacts methodFacts start
  have hfield : MemberList ⟨"N", .classType⟩ field fieldFacts :=
    ⟨.sign "\x7d" 1, by decide, by decide +kernel⟩
  have hmethod : MemberList ⟨"N", .classType⟩ method methodFacts :=
    ⟨.sign "\x7d" 2, by decide, by decide +kernel⟩
  have hms : ∀ m ∈ [field, method], Lexical m ∧ Balanced m ∧
      ∃ facts, MemberList ⟨"N", .classType⟩ m facts := by
    simp only [List.mem_cons, List.not_mem_nil, or_false, forall_eq_or_imp, forall_eq]
    exact ⟨⟨by decide, by decide, _, hfield⟩, by decide, by decide, _, hmethod⟩
  -- the class is compared with itself, so its tokens are alike whatever their lines
  have hlines : ∀ m : List Token, List.Forall₂ (Token.Alike fun _ _ => True) m m := fun m =>
    List.forall₂_same.2 fun _ _ => ⟨.inl ⟨rfl, rfl⟩, trivial⟩
  exact ⟨(members_compose_and_permute.1 (by decide) (by decide) hfield (by decide) (by decide)
      hmethod).1,
    members_compose_and_permute.2 hms (.swap method field [])
      (.mk (by decide) (by decide) rfl (by decide) (hlines _) (by decide))
      (.mk (by decide) (by decide) rfl (by decide) (hlines _) (by decide))⟩

end Assay.Source

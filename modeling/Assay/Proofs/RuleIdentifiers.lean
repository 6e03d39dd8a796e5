import Assay.ViolationKind
import Assay.Proofs.LexemeEnds
import Assay.Proofs.ScoreOrder
import Mathlib.Data.List.Forall2
import Mathlib.Data.List.Pairwise
import Mathlib.Data.List.TakeWhile

/-!
# Rule identifiers

A kind has two identifiers, its rule and its name in capitals. Each leads to the kind and to no other
one: in either letter case, behind any dotted qualifier, between blanks, and with or without the
ending of a checker's class (`rule_identifiers_resolve`). No two kinds share an identifier, in
whatever case, and none ends as the classes of a checker do, so that the order in which the names are
tried does not matter.
-/

namespace Assay

namespace Text

variable {sep c : Char} {cs bare more before last left right : List Char} {p : Char → Bool}

/-! ## Letter case -/

/-- Folding does not tell the cases of a letter apart. -/
theorem foldChar_toLower (c : Char) : foldChar c.toLower = foldChar c := by
  by_cases hcapital : c.toNat ∈ List.range' 65 26
  · have hcodes : ∀ code ∈ List.range' 65 26,
        foldChar (Char.ofNat code).toLower = foldChar (Char.ofNat code) := by decide
    simpa using hcodes _ hcapital
  · have hself : c.toLower = c := by
      refine dif_neg fun h => hcapital ?_
      have hfrom : 65 ≤ c.toNat := UInt32.le_iff_toNat_le.1 h.1
      have hto : c.toNat ≤ 90 := UInt32.le_iff_toNat_le.1 h.2
      rw [List.mem_range'_1]
      omega
    rw [hself]

/-- Folding takes no notice of lower case made before. -/
theorem fold_map_toLower (cs : List Char) : fold (cs.map Char.toLower) = fold cs := by
  rw [fold, List.map_map]
  exact List.map_congr_left fun c _ => foldChar_toLower c

/-- Folding goes letter by letter. -/
theorem fold_append (cs more : List Char) : fold (cs ++ more) = fold cs ++ fold more :=
  List.map_append

/-- The character is a letter of the Latin alphabet, in either case, or an underscore. -/
def isPlain (c : Char) : Bool := c.toLower.isLower || c.toLower == '_'

/-- A plain character is no blank. -/
theorem not_isBlank_of_isPlain (hc : isPlain c) : isBlank c = false := by
  have hwhite : isWhiteSpace c = false := Source.not_white_of_codes (p := isPlain) (by decide) hc
  have hcodes : ∀ code ∈ List.range' 0x1C 4, isPlain (Char.ofNat code) = false := by decide
  cases hblank : isBlank c with
  | false => rfl
  | true =>
    have hseparator : c.toNat ∈ List.range' 0x1C 4 := by
      simp only [isBlank, hwhite, Bool.false_or, Bool.and_eq_true, decide_eq_true_eq] at hblank
      rw [List.mem_range'_1]
      omega
    have hnone := hcodes _ hseparator
    rw [Char.ofNat_toNat, hc] at hnone
    cases hnone

/-! ## Blanks around a text -/

/-- Dropping stops where no character is to be dropped. -/
theorem dropWhile_through (hne : bare ≠ []) (hbare : ∀ c ∈ bare, p c = false) :
    (cs ++ bare ++ more).dropWhile p = cs.dropWhile p ++ bare ++ more := by
  obtain ⟨c, bare, rfl⟩ := List.exists_cons_of_ne_nil hne
  have hc : p c = false := hbare c List.mem_cons_self
  rw [List.append_assoc, List.append_assoc, List.dropWhile_append]
  split
  next hcs => simp [List.isEmpty_iff.1 hcs, hc]
  next => rfl

/-- Behind a text without blanks all of them are dropped, before it those the whole begins with. -/
theorem strip_append (hne : bare ≠ []) (hbare : ∀ c ∈ bare, isBlank c = false)
    (hright : ∀ c ∈ right, isBlank c) :
    strip (cs ++ bare ++ right) = cs.dropWhile isBlank ++ bare := by
  have hfront : (cs ++ bare ++ right).dropWhile isBlank = cs.dropWhile isBlank ++ bare ++ right :=
    dropWhile_through hne hbare
  have hback : (right.reverse ++ bare.reverse ++ (cs.dropWhile isBlank).reverse).dropWhile isBlank =
      right.reverse.dropWhile isBlank ++ bare.reverse ++ (cs.dropWhile isBlank).reverse :=
    dropWhile_through (List.reverse_ne_nil_iff.2 hne) (by simpa using hbare)
  have hnone : right.reverse.dropWhile isBlank = [] :=
    List.dropWhile_eq_nil_iff.2 (by simpa using hright)
  rw [strip, trimWhile, hfront, List.reverse_append, List.reverse_append, ← List.append_assoc, hback,
    hnone]
  simp

/-! ## The last part of a text -/

/-- Nothing, or a text that ends with a separator. -/
def EndsPart (sep : Char) (before : List Char) : Prop :=
  before = [] ∨ ∃ more, before = more ++ [sep]

/-- Blanks taken off in front leave the end of a part where it was. -/
theorem EndsPart.dropWhile (h : EndsPart sep before) (hsep : p sep = false)
    (hleft : ∀ c ∈ left, p c) : EndsPart sep ((left ++ before).dropWhile p) := by
  obtain rfl | ⟨more, rfl⟩ := h
  · left
    simpa [List.dropWhile_eq_nil_iff] using hleft
  · right
    have hdrop : (left ++ more ++ [sep] ++ []).dropWhile p =
        (left ++ more).dropWhile p ++ [sep] ++ [] :=
      dropWhile_through (List.cons_ne_nil sep []) (by simpa using hsep)
    exact ⟨(left ++ more).dropWhile p, by simpa using hdrop⟩

/-- The last part is what stands behind the last separator. -/
theorem afterLast_append (hbefore : EndsPart sep before) (hlast : sep ∉ last) :
    afterLast sep (before ++ last) = last := by
  have hall : ∀ c ∈ last.reverse, (c != sep) = true := by
    intro c hc
    rw [bne_iff_ne]
    rintro rfl
    exact hlast (List.mem_reverse.1 hc)
  obtain rfl | ⟨more, rfl⟩ := hbefore
  · rw [List.nil_append, afterLast, List.takeWhile_eq_self_iff.2 hall, List.reverse_reverse]
  · rw [afterLast, List.reverse_append, List.takeWhile_append_of_pos hall, List.reverse_append]
    simp

end Text

namespace ViolationKind

open Text

variable {k k' : ViolationKind} {name name' letters : List Char} {rule : String}

/-! ## Identifiers -/

/-- What a kind is called: its rule, and its name in capitals. -/
def identifiers (k : ViolationKind) : List (List Char) := [k.rule.toList, k.capitalName.toList]

/-- What can be an identifier: letters that do not end as the classes of a checker do. -/
def IsIdentifier (name : List Char) : Prop :=
  name ≠ [] ∧ name.all isPlain ∧ ¬ fold checkEnding <:+ fold name

/-- The names are the identifiers of the kind, character by character. -/
inductive HasNames : ViolationKind → List (List Char) → Prop
  | intro {k : ViolationKind} {rule capitals : List Char} (hrule : k.rule.toList = rule)
      (hcapitals : k.capitalName.toList = capitals) : HasNames k [rule, capitals]

/-- A kind has the names that are written for it. -/
theorem HasNames.identifiers_eq {names : List (List Char)} (h : HasNames k names) :
    k.identifiers = names := by
  cases h with
  | intro hrule hcapitals => rw [identifiers, hrule, hcapitals]

/-- The table of all names: each can be an identifier, and none is in two rows. -/
theorem exists_names : ∃ table : List (List (List Char)),
    List.Forall₂ HasNames all table ∧ (∀ names ∈ table, ∀ name ∈ names, IsIdentifier name) ∧
      table.Pairwise fun names names' =>
        ∀ name ∈ names, ∀ name' ∈ names', fold name ≠ fold name' := by
  have hending : checkEnding = ['C', 'h', 'e', 'c', 'k'] := String.toList_ofList
  unfold IsIdentifier
  rw [hending]
  -- the rows are found by unification: evaluating the literals is slow
  constructor
  refine ⟨?_, ?_, ?_⟩
  · rw [all]
    repeat' first | exact String.toList_ofList | constructor
  · decide +kernel
  · decide +kernel

/-- The table of names lists what the kinds are called. -/
theorem HasNames.map_identifiers {kinds : List ViolationKind} {table : List (List (List Char))}
    (h : List.Forall₂ HasNames kinds table) : kinds.map identifiers = table := by
  rw [← List.forall₂_eq_eq_eq, List.forall₂_map_left_iff]
  exact h.imp fun _ _ => HasNames.identifiers_eq

/-- A name of a kind is an identifier. -/
theorem isIdentifier_of_mem (h : name ∈ k.identifiers) : IsIdentifier name := by
  obtain ⟨table, hnames, hall, -⟩ := exists_names
  rw [← HasNames.map_identifiers hnames] at hall
  exact hall _ (List.mem_map_of_mem (mem_kinds k)) name h

/-- No two kinds have an identifier in common, in whatever case. -/
theorem eq_of_fold_eq (h : name ∈ k.identifiers) (h' : name' ∈ k'.identifiers)
    (hfold : fold name = fold name') : k = k' := by
  obtain ⟨table, hnames, -, hapart⟩ := exists_names
  rw [← HasNames.map_identifiers hnames, List.pairwise_map] at hapart
  have : Std.Symm fun k k' : ViolationKind =>
      ∀ name ∈ k.identifiers, ∀ name' ∈ k'.identifiers, fold name ≠ fold name' :=
    ⟨fun _ _ hne name hname name' hname' => (hne name' hname' name hname).symm⟩
  by_contra hk
  exact hapart.forall (mem_kinds k) (mem_kinds k') hk name h name' h' hfold

/-! ## Looking a rule up -/

/-- The letters are an identifier of the kind, in whatever case. -/
def IsCalled (k : ViolationKind) (letters : List Char) : Prop :=
  ∃ name ∈ k.identifiers, fold letters = fold name

/-- The kind that is found is called so. -/
theorem isCalled_of_ofLetters? (h : ofLetters? letters = some k) : k.IsCalled letters := by
  rw [ofLetters?, Option.or_eq_some_iff] at h
  obtain h | ⟨-, h⟩ := h
  · have hfold := List.find?_some h
    exact ⟨k.capitalName.toList, by simp [identifiers], (eq_of_beq hfold).symm⟩
  · have hfold := List.find?_some h
    exact ⟨k.rule.toList, by simp [identifiers], (eq_of_beq hfold).symm⟩

/-- Where no kind is found, none is called so. -/
theorem not_isCalled_of_ofLetters? (h : ofLetters? letters = none) (k : ViolationKind) :
    ¬ k.IsCalled letters := by
  rw [ofLetters?, Option.or_eq_none_iff, List.find?_eq_none, List.find?_eq_none] at h
  rintro ⟨name, hname, hfold⟩
  obtain rfl | rfl : name = k.rule.toList ∨ name = k.capitalName.toList := by
    simpa [identifiers] using hname
  · exact h.2 k (mem_kinds k) (beq_iff_eq.2 hfold.symm)
  · exact h.1 k (mem_kinds k) (beq_iff_eq.2 hfold.symm)

/-- A kind is found exactly where it is called so. -/
theorem ofLetters?_eq_some : ofLetters? letters = some k ↔ k.IsCalled letters := by
  refine ⟨isCalled_of_ofLetters?, fun hk => ?_⟩
  cases hfound : ofLetters? letters with
  | none => exact absurd hk (not_isCalled_of_ofLetters? hfound k)
  | some k' =>
    obtain ⟨name, hname, hfold⟩ := hk
    obtain ⟨name', hname', hfold'⟩ := isCalled_of_ofLetters? hfound
    rw [eq_of_fold_eq hname hname' (hfold.symm.trans hfold')]

/-- The last part of a rule that leads to the kind: an identifier of it, which may have the ending of
a checker's class. -/
def IsIdentifiedBy (k : ViolationKind) (letters : List Char) : Prop :=
  k.IsCalled letters ∨ ∃ stem, letters = stem ++ checkEnding ∧ k.IsCalled stem

/-- What ends as the classes of a checker do is no identifier. -/
theorem not_isCalled_append_checkEnding (k : ViolationKind) (stem : List Char) :
    ¬ k.IsCalled (stem ++ checkEnding) := by
  rintro ⟨name, hname, hfold⟩
  refine (isIdentifier_of_mem hname).2.2 ⟨fold stem, ?_⟩
  rw [← hfold, fold_append]

/-- A rule finds the kind that the last part of its stripped text identifies. -/
theorem ofRule?_eq_some :
    ofRule? rule = some k ↔ k.IsIdentifiedBy (afterLast '.' (strip rule.toList)) := by
  generalize hlast : afterLast '.' (strip rule.toList) = last
  rw [ofRule?, hlast, Option.or_eq_some_iff, ofLetters?_eq_some, IsIdentifiedBy]
  refine or_congr_right ⟨?_, ?_⟩
  · rintro ⟨-, hstem⟩
    split at hstem
    next hsuffix =>
      obtain ⟨stem, rfl⟩ := List.isSuffixOf_iff_suffix.1 hsuffix
      exact ⟨stem, rfl, by simpa [ofLetters?_eq_some] using hstem⟩
    next => cases hstem
  · rintro ⟨stem, rfl, hstem⟩
    -- the whole is looked up first, and must not be an identifier of another kind
    have hnone : ofLetters? (stem ++ checkEnding) = none :=
      Option.eq_none_iff_forall_ne_some.2 fun k' hk' =>
        not_isCalled_append_checkEnding k' stem (ofLetters?_eq_some.1 hk')
    refine ⟨hnone, ?_⟩
    rw [if_pos (List.isSuffixOf_iff_suffix.2 (List.suffix_append _ _))]
    simpa [ofLetters?_eq_some] using hstem

/-- A rule is read exactly where its last part identifies a kind. -/
theorem ofRule_eq_ok :
    ofRule rule = .ok k ↔ k.IsIdentifiedBy (afterLast '.' (strip rule.toList)) := by
  rw [← ofRule?_eq_some, ofRule]
  split <;> simp [*]

/-- A rule that identifies no kind is an unknown rule. -/
theorem ofRule_eq_error : ofRule rule = .error (.unknownRule rule) ↔
    ∀ k, ¬ IsIdentifiedBy k (afterLast '.' (strip rule.toList)) := by
  simp only [← ofRule?_eq_some, ofRule]
  split <;> simp [*]

/-! ## Ways to write an identifier -/

/-- An identifier of a kind as a detector may give it: in any letter case, behind a qualifier, with or
without the ending of a checker's class, and between blanks. -/
structure Spelling (k : ViolationKind) where
  left : List Char
  qualifier : List Char
  letters : List Char
  ending : List Char
  right : List Char
  left_blank : ∀ c ∈ left, isBlank c
  qualifier_dotted : EndsPart '.' qualifier
  letters_name : ∃ name ∈ k.identifiers, letters.map Char.toLower = name.map Char.toLower
  ending_check : ending = [] ∨ ending = checkEnding
  right_blank : ∀ c ∈ right, isBlank c

namespace Spelling

variable (s : Spelling k)

/-- The identifier with everything around it. -/
def text : String := String.ofList (s.left ++ s.qualifier ++ s.letters ++ s.ending ++ s.right)

/-- A spelling is made of the letters its kind is called by. -/
theorem isCalled_letters : k.IsCalled s.letters := by
  obtain ⟨name, hname, hcase⟩ := s.letters_name
  refine ⟨name, hname, ?_⟩
  rw [← fold_map_toLower, hcase, fold_map_toLower]

/-- A spelling has letters. -/
theorem letters_ne_nil : s.letters ≠ [] := by
  obtain ⟨name, hname, hcase⟩ := s.letters_name
  intro hnil
  rw [hnil, List.map_nil, eq_comm, List.map_eq_nil_iff] at hcase
  exact (isIdentifier_of_mem hname).1 hcase

/-- The letters of a spelling are plain, its ending included. -/
theorem isPlain_letters : ∀ c ∈ s.letters ++ s.ending, isPlain c := by
  intro c hc
  obtain hc | hc := List.mem_append.1 hc
  · obtain ⟨name, hname, hcase⟩ := s.letters_name
    have hlower : c.toLower ∈ name.map Char.toLower := hcase ▸ List.mem_map_of_mem hc
    obtain ⟨d, hd, hdc⟩ := List.mem_map.1 hlower
    have hplain : isPlain d := List.all_eq_true.1 (isIdentifier_of_mem hname).2.1 d hd
    rwa [isPlain, hdc] at hplain
  · obtain hending | hending := s.ending_check
    · simp [hending] at hc
    · have hcheck : checkEnding.all isPlain := by decide
      exact List.all_eq_true.1 hcheck c (hending ▸ hc)

/-- Of all that is written, the last part is the identifier with its ending. -/
theorem afterLast_text : afterLast '.' (strip s.text.toList) = s.letters ++ s.ending := by
  have hblank : ∀ c ∈ s.letters ++ s.ending, isBlank c = false := fun c hc =>
    not_isBlank_of_isPlain (s.isPlain_letters c hc)
  have hdot : '.' ∉ s.letters ++ s.ending := by
    intro hmem
    exact absurd (s.isPlain_letters _ hmem) (by decide)
  rw [text, String.toList_ofList, List.append_assoc _ s.letters,
    strip_append (by simp [s.letters_ne_nil]) hblank s.right_blank]
  exact afterLast_append (s.qualifier_dotted.dropWhile (by decide) s.left_blank) hdot

/-- The last part of a spelled text identifies its kind. -/
theorem isIdentifiedBy_text : k.IsIdentifiedBy (afterLast '.' (strip s.text.toList)) := by
  rw [s.afterLast_text]
  obtain hending | hending := s.ending_check
  · left
    rw [hending, List.append_nil]
    exact s.isCalled_letters
  · right
    exact ⟨s.letters, by rw [hending], s.isCalled_letters⟩

end Spelling

/-- Every way to write an identifier of a kind leads to the kind. Conversely, a rule leads to a kind
only if its last part is an identifier of that kind, with or without the ending of a checker's class;
any other rule is told to be unknown. -/
theorem rule_identifiers_resolve :
    (∀ k (s : Spelling k), ofRule s.text = .ok k) ∧
      ∀ rule,
        (∀ k, ofRule rule = .ok k ↔ k.IsIdentifiedBy (afterLast '.' (strip rule.toList))) ∧
          (ofRule rule = .error (.unknownRule rule) ↔
            ∀ k, ¬ IsIdentifiedBy k (afterLast '.' (strip rule.toList))) :=
  ⟨fun _ s => ofRule_eq_ok.2 s.isIdentifiedBy_text, fun _ => ⟨fun _ => ofRule_eq_ok, ofRule_eq_error⟩⟩

/-- The rule for the names of types, as a checker's class between blanks. -/
def qualifiedTypeName : Spelling .typeName where
  left := ['\t', ' ']
  qualifier := "com.checks.".toList
  letters := "tYPEnAME".toList
  ending := checkEnding
  right := ['\n']
  left_blank := List.all_eq_true.1 rfl
  qualifier_dotted := .inr ⟨"com.checks".toList, by decide⟩
  letters_name := ⟨"TypeName".toList, by decide, by decide⟩
  ending_check := .inr rfl
  right_blank := List.all_eq_true.1 rfl

/-- A qualified name with blanks around it and its letters mixed. -/
theorem rule_identifiers_resolve_qualified :
    ofRule "\t com.checks.tYPEnAMECheck\n" = .ok .typeName := by
  have htext : qualifiedTypeName.text = "\t com.checks.tYPEnAMECheck\n" := by decide
  rw [← htext]
  exact rule_identifiers_resolve.1 .typeName qualifiedTypeName

end ViolationKind

end Assay

import Assay.Proofs.DeclarationReading
import Assay.Proofs.Delimiters
import Assay.Proofs.FileItems
import Assay.Proofs.MemberOrder

/-!
# Files of every nesting

The nesting of a file has no bound: a class that holds blocks inside one another is read whenever a
construct may be open for each of the blocks, and is too much otherwise. So however much room there is,
some file that can be read needs more. Main statement: every number is the nesting of a file that is
read (`nesting_of_blocks`).
-/

namespace Assay.Source

open Assay.Source.Parser

variable {s : Scope} {ts rest : List Token} {word : String} {depth n : Nat}

/-! ## Where a reading is exhausted -/

namespace Exhausted

/-- A loop up to a word gives up where its first round does. -/
theorem untilSees {p : Parser Unit} (hword : begins word ts = false) (h : Exhausted (p s ts)) :
    Exhausted (Parser.untilSees word p s ts) := by
  have hround : Exhausted ((do
      if ← sees word then return false
      p
      return true : Parser Bool) s ts) := by
    refine behind (sees_apply word s ts) ?_
    rw [hword]
    exact h.bind
  obtain ⟨line, hfails⟩ := hround.bind
  exact ⟨line, iterate_of_error hfails⟩

/-- A class gives up where its members do. -/
theorem topLevelDeclaration {kw declared opening : Token} {nested : Construct → Parser Unit}
    (hkw : kw.IsWord "class") (hname : declared.isName) (hopening : opening.IsSign "\x7b")
    (h : ∀ s, Exhausted (Parser.untilSees "\x7d" (nested .member) s ts)) (s : Scope) :
    Exhausted (Parser.topLevelDeclaration nested s (kw :: declared :: opening :: ts)) := by
  have hbody (s : Scope) : Exhausted (classBody nested s (opening :: ts)) :=
    behind (expect_cons (by simp [hopening.spells]) s ts) (h s).bind
  have htype : Exhausted
      (typeDeclaration nested kw.line s (kw :: declared :: opening :: ts)) := by
    have hkeyword : typeKeyword? (kw :: declared :: opening :: ts) = some (.classType, 1) := by
      simp [typeKeyword?, hkw.spells]
    refine behind (ahead_apply s _) ?_
    rw [hkeyword]
    refine behind (resumeAt_apply _ s _) (behind (name_cons hname s _)
      (behind (declare_apply _ _ _ s _) (bind ?_)))
    exact behind (untilSees_done (by simp [hopening.spells])) (hbody _)
  refine behind (ahead_apply s _) ?_
  rw [if_neg (by simp [hkw.spells]), if_neg (by simp [hkw.spells])]
  exact behind (line_apply s _) (behind (discard_of_ok (modifiers_class hkw)) htype.bind)

/-- A file that begins with a class gives up where the class does. -/
theorem file {kw : Token} {nested : Construct → Parser Unit} (hkw : kw.IsWord "class")
    (h : Exhausted (Parser.topLevelDeclaration nested s (kw :: ts))) :
    Exhausted (Parser.file nested s (kw :: ts)) := by
  have himports : importItems s (kw :: ts) = .ok ⟨(), [], kw :: ts⟩ :=
    items_done (by simp [startsImport, hkw.spells])
  obtain ⟨line, hfails⟩ := h
  rw [file_eq]
  exact behind (packageDeclaration_class hkw) (behind himports ⟨line, items_of_error rfl hfails⟩)

end Exhausted

/-! ## Blocks inside one another -/

/-- So many blocks, each the only statement of the one around it. -/
def nestedBlocks : Nat → List Token
  | 0 => []
  | n + 1 => .sign "\x7b" 1 :: (nestedBlocks n ++ [.sign "\x7d" 1])

/-- Each of the blocks has two tokens. -/
theorem length_nestedBlocks (n : Nat) : (nestedBlocks n).length = 2 * n := by
  induction n with
  | zero => rfl
  | succ n ih => simp [nestedBlocks, ih]; omega

/-- Braces are no comments. -/
theorem not_comment_of_mem_nestedBlocks {t : Token} (h : t ∈ nestedBlocks n) :
    t.isComment = false := by
  induction n with
  | zero => cases h
  | succ n ih =>
    simp only [nestedBlocks, List.mem_cons, List.mem_append, List.not_mem_nil, or_false] at h
    rcases h with rfl | h | rfl
    · rfl
    · exact ih h
    · rfl

/-- A block may stand there. -/
def Construct.TakesBlock (c : Construct) : Prop := c = .member ∨ c = .statement

/-- A member or a statement that begins with a brace is a block. -/
theorem construct_brace {c : Construct} (hc : c.TakesBlock) (depth : Nat) (s : Scope)
    (ts : List Token) :
    construct (depth + 1) c s (.sign "\x7b" 1 :: ts) =
      block (construct depth) s (.sign "\x7b" 1 :: ts) := by
  rcases hc with rfl | rfl
  · exact member_block ⟨rfl, rfl⟩ ts
  · exact bind_of_ok (ahead_apply s _) |>.trans (recording_nil _)

/-- Blocks are read where one construct may be open for each of them. -/
theorem untilSees_nestedBlocks {c : Construct} (hc : c.TakesBlock) (hdepth : n ≤ depth)
    (s : Scope) (rest : List Token) :
    untilSees "\x7d" (construct depth c) s (nestedBlocks n ++ .sign "\x7d" 1 :: rest) =
      .ok ⟨(), [], .sign "\x7d" 1 :: rest⟩ := by
  induction n generalizing depth c rest with
  | zero => exact untilSees_done rfl
  | succ n ih =>
    obtain _ | depth := depth
    · cases hdepth
    have hinner := ih (.inr rfl) (Nat.le_of_succ_le_succ hdepth) (.sign "\x7d" 1 :: rest)
    have hblock : construct (depth + 1) c s (nestedBlocks (n + 1) ++ .sign "\x7d" 1 :: rest) =
        .ok ⟨(), [], .sign "\x7d" 1 :: rest⟩ := by
      rw [nestedBlocks, List.cons_append, List.append_assoc, construct_brace hc, block,
        bind_of_ok (expect_cons rfl s _), recording_nil]
      exact bind_of_ok hinner
    rw [untilSees_again rfl hblock (by simp [nestedBlocks]; omega), untilSees_done rfl]
    rfl

/-- Blocks are too much where fewer constructs may be open. -/
theorem exhausted_nestedBlocks {c : Construct} (hc : c.TakesBlock) (hdepth : depth < n)
    (s : Scope) (rest : List Token) :
    Exhausted (untilSees "\x7d" (construct depth c) s (nestedBlocks n ++ rest)) := by
  induction n generalizing depth c rest with
  | zero => cases hdepth
  | succ n ih =>
    refine .untilSees rfl ?_
    cases depth with
    | zero => exact ⟨_, rfl⟩
    | succ depth =>
      rw [nestedBlocks, List.cons_append, List.append_assoc, construct_brace hc]
      exact .behind (expect_cons rfl s _)
        (ih (.inr rfl) (Nat.lt_of_succ_lt_succ hdepth) _).bind

/-! ## A class of blocks -/

/-- The braces of so many blocks inside one another. -/
def nestedBraces : Nat → List Char
  | 0 => []
  | n + 1 => '\x7b' :: (nestedBraces n ++ ['\x7d'])

/-- A class that holds so many blocks inside one another; its own braces are one pair more. -/
def classOfBlocks (n : Nat) : String :=
  String.ofList (['c', 'l', 'a', 's', 's', ' ', 'A'] ++ nestedBraces (n + 1))

/-- The tokens of that class. -/
def blocksCode (n : Nat) : List Token := .word "class" 1 :: .word "A" 1 :: nestedBlocks (n + 1)

/-- Braces are read one by one. -/
theorem tokensFrom_nestedBraces (n : Nat) (cs : List Char) :
    tokensFrom 1 (nestedBraces n ++ cs) = (tokensFrom 1 cs).map (nestedBlocks n ++ ·) := by
  induction n generalizing cs with
  | zero =>
    show tokensFrom 1 cs = (tokensFrom 1 cs).map id
    cases tokensFrom 1 cs <;> rfl
  | succ n ih =>
    have hopen (cs : List Char) : tokensFrom 1 ('\x7b' :: cs) =
        (tokensFrom 1 cs).map (.sign "\x7b" 1 :: ·) :=
      tokensFrom_of_lexeme? (x := ⟨some .operator, ['\x7b'], cs⟩) rfl 1
    have hclose (cs : List Char) : tokensFrom 1 ('\x7d' :: cs) =
        (tokensFrom 1 cs).map (.sign "\x7d" 1 :: ·) :=
      tokensFrom_of_lexeme? (x := ⟨some .operator, ['\x7d'], cs⟩) rfl 1
    rw [nestedBraces, List.cons_append, List.append_assoc, hopen, ih, List.singleton_append, hclose]
    cases tokensFrom 1 cs with
    | error e => rfl
    | ok ts => simp [nestedBlocks, Except.map]

/-- The tokens of a class of blocks. -/
theorem tokens_classOfBlocks (n : Nat) : tokens (classOfBlocks n) = .ok (blocksCode n) := by
  have hclass (cs : List Char) : tokensFrom 1 ('c' :: 'l' :: 'a' :: 's' :: 's' :: ' ' :: cs) =
      (tokensFrom 1 (' ' :: cs)).map (.word "class" 1 :: ·) :=
    tokensFrom_of_lexeme? (x := ⟨some .identifier, ['c', 'l', 'a', 's', 's'], ' ' :: cs⟩) rfl 1
  have hspace (cs : List Char) : tokensFrom 1 (' ' :: 'A' :: cs) =
      (tokensFrom 1 ('A' :: cs)).map id :=
    tokensFrom_of_lexeme? (x := ⟨none, [' '], 'A' :: cs⟩) rfl 1
  have hname (cs : List Char) : tokensFrom 1 ('A' :: '\x7b' :: cs) =
      (tokensFrom 1 ('\x7b' :: cs)).map (.word "A" 1 :: ·) :=
    tokensFrom_of_lexeme? (x := ⟨some .identifier, ['A'], '\x7b' :: cs⟩) rfl 1
  have hbraces : tokensFrom 1 ('\x7b' :: (nestedBraces n ++ ['\x7d'])) =
      .ok (nestedBlocks (n + 1)) := by
    have hend : tokensFrom 1 [] = .ok [] := by rw [tokensFrom]; rfl
    simpa [hend, Except.map, nestedBraces] using tokensFrom_nestedBraces (n + 1) []
  rw [tokens, classOfBlocks, String.toList_ofList]
  simp only [List.cons_append, List.nil_append]
  rw [hclass, hspace, nestedBraces, hname, hbraces]
  rfl

/-- None of the tokens of a class of blocks is a comment. -/
theorem codeOf_blocksCode (n : Nat) : codeOf (blocksCode n) = blocksCode n := by
  refine List.filter_eq_self.2 fun t ht => ?_
  simp only [blocksCode, List.mem_cons] at ht
  rcases ht with rfl | rfl | ht
  · rfl
  · rfl
  · rw [not_comment_of_mem_nestedBlocks ht]
    rfl

/-- The facts of a class of blocks: its own declaration, or the reading is exhausted. -/
theorem factsWithin_blocksCode (n depth : Nat) :
    (n ≤ depth → factsWithin depth (blocksCode n) =
      .ok [classFact (.word "class" 1) (.word "A" 1)]) ∧
    (depth < n → Exhausted (factsWithin depth (blocksCode n))) := by
  have hscope : openingScope (blocksCode n) = ⟨none, 1⟩ := by
    simp [openingScope, blocksCode, nestedBlocks, List.getLast?_cons, Token.sign]
  have hkw : (Token.word "class" 1).IsWord "class" := ⟨rfl, rfl⟩
  have hname : (Token.word "A" 1).isName := rfl
  have hbrace (text : String) : (Token.sign text 1).IsSign text := ⟨rfl, rfl⟩
  unfold factsWithin
  rw [hscope]
  constructor
  · intro hdepth
    have hblocks := untilSees_nestedBlocks (.inl rfl) hdepth ⟨some ⟨"A", .classType⟩, 1⟩ []
    rw [blocksCode, nestedBlocks, file_class hkw hname (hbrace _) (hbrace _) hblocks]
    rfl
  · intro hdepth
    obtain ⟨line, hfails⟩ := Exhausted.file (s := ⟨none, 1⟩) hkw
      (.topLevelDeclaration hkw hname (hbrace _)
        (fun s => exhausted_nestedBlocks (.inl rfl) hdepth s [.sign "\x7d" 1]) _)
    exact ⟨line, by rw [blocksCode, nestedBlocks, hfails]; rfl⟩

/-- Every number is the nesting of a file that is read: a class that holds so many blocks inside one
another is read where a construct may be open for each of them, and too much otherwise. So no room is
enough for all files. -/
theorem nesting_of_blocks (n : Nat) :
    (CompilationUnit.parse (classOfBlocks n)).isOk ∧ ∀ depth,
      (n ≤ depth → CompilationUnit.parseWithin depth (classOfBlocks n) =
        CompilationUnit.parse (classOfBlocks n)) ∧
      (depth < n → Exhausted (CompilationUnit.parseWithin depth (classOfBlocks n))) := by
  have hread (read : List Token → Except SourceError (List Fact)) :
      CompilationUnit.parseBy read (classOfBlocks n) = (read (blocksCode n)).map fun facts =>
        ⟨facts, docCommentsOf (blocksCode n), lineSpanOf (blocksCode n)⟩ := by
    rw [parseBy_of_tokens (tokens_classOfBlocks n), codeOf_blocksCode]
  -- a file has more tokens than it has blocks, so there is room for them all
  have hroom : n ≤ depthFor (blocksCode n).length := by
    have hlength := length_nestedBlocks (n + 1)
    simp only [depthFor, blocksCode, List.length_cons]
    omega
  have hfacts := (factsWithin_blocksCode n _).1 hroom
  unfold CompilationUnit.parse CompilationUnit.parseWithin
  refine ⟨by rw [hread, factsOf, hfacts]; rfl, fun depth => ⟨fun hdepth => ?_, fun hdepth => ?_⟩⟩
  · rw [hread, hread, factsOf, hfacts, (factsWithin_blocksCode n depth).1 hdepth]
  · obtain ⟨line, hfails⟩ := (factsWithin_blocksCode n depth).2 hdepth
    exact ⟨line, by rw [hread, hfails]; rfl⟩

end Assay.Source

import Assay.Proofs.ScoreOrder
import Mathlib.Algebra.BigOperators.Group.List.Basic
import Mathlib.Data.List.Induction
import Mathlib.Data.List.Perm.Basic

/-!
# Violations by category and by file

Categories divide violations, since every kind belongs to one of them, and so do files. Both
divisions are instances of one: values are divided by any key whose possible values are listed once
(`flatMap_filter_perm`). The groups of files are those of a loop that adds each violation to the
group of its file, and opens a group at the end for a file that has none
(`Violations.byFile_eq_foldl`). The main statement is `violations_divide`.
-/

namespace Assay

/-! ## Values divided by a key -/

section Key

variable {α κ : Type} [DecidableEq κ] (key : α → κ)

/-- Values with one key are found in what is left of all values when another key is taken out. -/
theorem filter_key_of_ne (xs : List α) {k other : κ} (hother : other ≠ k) :
    (xs.filter fun x => !(key x == k)).filter (fun x => key x == other) =
      xs.filter fun x => key x == other := by
  rw [List.filter_filter]
  refine List.filter_congr fun x _ => ?_
  by_cases hx : key x = other
  · simp [hx, hother]
  · simp [hx]

/-- Keys that are listed once, and that no value lacks, divide the values. -/
theorem flatMap_filter_perm {keys : List κ} (hnodup : keys.Nodup) {xs : List α}
    (hkeys : ∀ x ∈ xs, key x ∈ keys) :
    (keys.flatMap fun k => xs.filter fun x => key x == k).Perm xs := by
  induction keys generalizing xs with
  | nil =>
    have hempty : xs = [] := List.eq_nil_iff_forall_not_mem.2 fun x hx =>
      List.not_mem_nil (hkeys x hx)
    rw [hempty]
    exact .nil
  | cons k keys ih =>
    obtain ⟨hk, hnodup⟩ := List.nodup_cons.1 hnodup
    have hrest : ∀ x ∈ xs.filter (fun x => !(key x == k)), key x ∈ keys := by
      intro x hx
      obtain ⟨hx, hne⟩ := List.mem_filter.1 hx
      exact (List.mem_cons.1 (hkeys x hx)).resolve_left (by simpa using hne)
    have hsame : (keys.flatMap fun other => xs.filter fun x => key x == other) =
        keys.flatMap fun other =>
          (xs.filter fun x => !(key x == k)).filter fun x => key x == other :=
      List.flatMap_congr fun other hother =>
        (filter_key_of_ne key xs (ne_of_mem_of_not_mem hother hk)).symm
    rw [List.flatMap_cons, hsame]
    exact ((ih hnodup hrest).append_left _).trans (List.filter_append_perm _ xs)

end Key

/-- One more value is listed behind the others, unless it is one of them. -/
theorem eraseDups_append_singleton {κ : Type} [DecidableEq κ] (xs : List κ) (x : κ) :
    (xs ++ [x]).eraseDups = if x ∈ xs then xs.eraseDups else xs.eraseDups ++ [x] := by
  rw [List.eraseDups_append]
  by_cases hx : x ∈ xs
  · simp [List.removeAll, hx]
  · simp [List.removeAll, hx, List.eraseDups_cons]

/-- Values that are listed once each stand in the order in which they were first seen. -/
theorem eraseDups_pairwise_idxOf {κ : Type} [DecidableEq κ] (xs : List κ) :
    xs.eraseDups.Pairwise fun a b => xs.idxOf a < xs.idxOf b := by
  induction xs using List.reverseRecOn with
  | nil => exact .nil
  | append_singleton xs x ih =>
    have hold : xs.eraseDups.Pairwise fun a b => (xs ++ [x]).idxOf a < (xs ++ [x]).idxOf b :=
      ih.imp_of_mem fun ha hb hlt => by
        rwa [List.idxOf_append_of_mem (List.mem_eraseDups.1 ha),
          List.idxOf_append_of_mem (List.mem_eraseDups.1 hb)]
    rw [eraseDups_append_singleton]
    by_cases hx : x ∈ xs
    · rwa [if_pos hx]
    · rw [if_neg hx, List.pairwise_append]
      refine ⟨hold, List.pairwise_singleton _ _, fun a ha b hb => ?_⟩
      have ha := List.mem_eraseDups.1 ha
      rw [List.mem_singleton.1 hb, List.idxOf_append_of_mem ha, List.idxOf_append_of_notMem hx]
      exact Nat.lt_add_right _ (List.idxOf_lt_length_of_mem ha)

/-- No key is left twice. -/
theorem nodup_eraseDups {κ : Type} [DecidableEq κ] (xs : List κ) : xs.eraseDups.Nodup :=
  (eraseDups_pairwise_idxOf xs).imp fun hlt heq => by simp [heq] at hlt

/-! ## Categories -/

theorem Category.mem_all (c : Category) : c ∈ Category.all := by cases c <;> decide

/-- No category lists a kind twice. -/
theorem ViolationKind.nodup_ofCategory (c : Category) : (ofCategory c).Nodup :=
  List.Nodup.filter _ (by decide)

namespace Violations

variable (vs ws : Violations)

/-- The violations of a category are those of its kinds. -/
theorem ofCategory_eq_filter (c : Category) :
    vs.ofCategory c = vs.filter (·.kind ∈ ViolationKind.ofCategory c) :=
  List.filter_congr fun v _ => by simp only [mem_ofCategory, beq_eq_decide]

/-- Violations are divided by category, and those of a category by kind. -/
structure DividedByCategory : Prop where
  part : ∀ c, vs.ofCategory c = vs.filter (·.kind ∈ ViolationKind.ofCategory c)
  once : ∀ v ∈ vs, ∃! c, c ∈ Category.all ∧ v ∈ vs.ofCategory c
  whole : (Category.all.flatMap vs.ofCategory).Perm vs
  kinds : ∀ c, vs.countCategory c = ((ViolationKind.ofCategory c).map vs.countKind).sum
  total : (Category.all.map vs.countCategory).sum = vs.length

/-- The kinds of all categories together are all violations, in another order. -/
theorem flatMap_ofCategory_perm : (Category.all.flatMap vs.ofCategory).Perm vs :=
  flatMap_filter_perm (fun v : Violation => v.kind.category) (by decide) fun v _ =>
    v.kind.category.mem_all

/-- The kinds of a category share its violations among themselves. -/
theorem countCategory_eq_sum (c : Category) :
    vs.countCategory c = ((ViolationKind.ofCategory c).map vs.countKind).sum := by
  have hkinds : ∀ v ∈ vs.ofCategory c, v.kind ∈ ViolationKind.ofCategory c := by
    intro v hv
    rw [ofCategory_eq_filter] at hv
    exact of_decide_eq_true (List.mem_filter.1 hv).2
  have hperm := flatMap_filter_perm (fun v : Violation => v.kind) (ViolationKind.nodup_ofCategory c)
    hkinds
  rw [countCategory, ← hperm.length_eq, List.length_flatMap]
  refine congrArg List.sum (List.map_congr_left fun k hk => ?_)
  -- a violation of a kind of the category is one of the category's
  rw [← List.countP_eq_length_filter, ofCategory, List.countP_filter, countKind]
  refine List.countP_congr fun v _ => ?_
  have hcategory := mem_ofCategory.1 hk
  by_cases hv : v.kind = k
  · simp [hv, hcategory]
  · simp [hv]

theorem dividedByCategory : vs.DividedByCategory where
  part := vs.ofCategory_eq_filter
  once := by
    intro v hv
    refine ⟨v.kind.category, ⟨Category.mem_all _, List.mem_filter.2 ⟨hv, beq_self_eq_true _⟩⟩, ?_⟩
    rintro c ⟨-, hc⟩
    exact (eq_of_beq (List.mem_filter.1 hc).2).symm
  whole := vs.flatMap_ofCategory_perm
  kinds := vs.countCategory_eq_sum
  total := by rw [← vs.flatMap_ofCategory_perm.length_eq, List.length_flatMap]; rfl

example : Category.all.length = 21 := rfl

/-! ## Files -/

/-- A violation is added to the group of its file, or opens one behind all others. -/
def enter : List (String × Violations) → Violation → List (String × Violations)
  | [], v => [(v.file, [v])]
  | group :: groups, v =>
    if group.1 = v.file then (group.1, group.2 ++ [v]) :: groups else group :: enter groups v

/-- The violations of one file. -/
abbrev ofFile (file : String) : Violations := vs.filter (·.file == file)

variable {vs} in
/-- A violation behind the others comes last in its own file. -/
theorem ofFile_append_self {v : Violation} {file : String} (h : v.file = file) :
    ofFile (vs ++ [v]) file = vs.ofFile file ++ [v] := by
  simp [List.filter_append, h]

variable {vs} in
/-- A violation in another file leaves a file as it was. -/
theorem ofFile_append_other {v : Violation} {file : String} (h : v.file ≠ file) :
    ofFile (vs ++ [v]) file = vs.ofFile file := by
  simp [List.filter_append, h]

/-- Entering a violation of a file that has a group. -/
theorem enter_of_mem {files : List String} (hnodup : files.Nodup) {v : Violation}
    (hv : v.file ∈ files) :
    enter (files.map fun file => (file, vs.ofFile file)) v =
      files.map fun file => (file, ofFile (vs ++ [v]) file) := by
  induction files with
  | nil => cases hv
  | cons file files ih =>
    obtain ⟨hfile, hnodup⟩ := List.nodup_cons.1 hnodup
    rw [List.map_cons, List.map_cons, enter]
    by_cases heq : file = v.file
    · have hothers : ∀ other ∈ files, vs.ofFile other = ofFile (vs ++ [v]) other := by
        intro other hother
        exact (ofFile_append_other fun h => hfile (heq.trans h ▸ hother)).symm
      rw [if_pos heq, ofFile_append_self heq.symm,
        List.map_congr_left fun other hother => by rw [hothers other hother]]
    · have hv := (List.mem_cons.1 hv).resolve_left (Ne.symm heq)
      rw [if_neg heq, ih hnodup hv, ofFile_append_other (Ne.symm heq)]

/-- Entering a violation of a file that has no group. -/
theorem enter_of_not_mem {files : List String} {v : Violation} (hv : v.file ∉ files) :
    enter (files.map fun file => (file, vs.ofFile file)) v =
      (files.map fun file => (file, ofFile (vs ++ [v]) file)) ++ [(v.file, [v])] := by
  induction files with
  | nil => rfl
  | cons file files ih =>
    obtain ⟨hne, hv⟩ := not_or.1 (List.mem_cons.not.1 hv)
    rw [List.map_cons, List.map_cons, enter, if_neg (Ne.symm hne), ih hv, ofFile_append_other hne,
      List.cons_append]

/-- One more violation is entered into the groups of those before it. -/
theorem byFile_append (v : Violation) : byFile (vs ++ [v]) = enter vs.byFile v := by
  rw [byFile, byFile, List.map_append, List.map_singleton, eraseDups_append_singleton]
  by_cases hv : v.file ∈ vs.map (·.file)
  · rw [if_pos hv, enter_of_mem vs (nodup_eraseDups _) (List.mem_eraseDups.2 hv)]
  · have hnone : vs.ofFile v.file = [] := List.filter_eq_nil_iff.2 fun w hw hfile =>
      hv (List.mem_map.2 ⟨w, hw, eq_of_beq hfile⟩)
    have hself : (vs ++ [v]).filter (·.file == v.file) = [v] :=
      (ofFile_append_self rfl).trans (congrArg (· ++ [v]) hnone)
    rw [if_neg hv, enter_of_not_mem vs (mt List.mem_eraseDups.1 hv), List.map_append,
      List.map_singleton, hself]

/-- The groups of files are those of a loop over the violations. -/
theorem byFile_eq_foldl : vs.byFile = vs.foldl enter [] := by
  induction vs using List.reverseRecOn with
  | nil => rfl
  | append_singleton vs v ih => rw [byFile_append, ih, List.foldl_append]; rfl

/-- Violations are divided by file, in the order in which files were first seen. -/
structure DividedByFile : Prop where
  loop : vs.byFile = vs.foldl enter []
  file : ∀ file, file ∈ vs.byFile.map (·.1) ↔ ∃ v ∈ vs, v.file = file
  once : (vs.byFile.map (·.1)).Nodup
  order : (vs.byFile.map (·.1)).Pairwise fun file later =>
    (vs.map (·.file)).idxOf file < (vs.map (·.file)).idxOf later
  group : ∀ group ∈ vs.byFile, group.2 = vs.filter (·.file == group.1)
  whole : (vs.byFile.flatMap (·.2)).Perm vs
  counts : ∀ c, (vs.byFile.map (·.2.countCategory c)).sum = vs.countCategory c

/-- The files of the groups are the files of the violations, each once. -/
theorem byFile_files : vs.byFile.map (·.1) = (vs.map (·.file)).eraseDups := by
  rw [byFile, List.map_map]
  exact List.map_id _

/-- The groups together are all violations, in another order. -/
theorem flatMap_byFile_perm : (vs.byFile.flatMap (·.2)).Perm vs := by
  rw [byFile, List.flatMap_map]
  exact flatMap_filter_perm (fun v : Violation => v.file) (nodup_eraseDups _) fun v hv =>
    List.mem_eraseDups.2 (List.mem_map_of_mem hv)

theorem dividedByFile : vs.DividedByFile where
  loop := vs.byFile_eq_foldl
  file := by simp [byFile_files, List.mem_eraseDups]
  once := by rw [byFile_files]; exact nodup_eraseDups _
  order := by rw [byFile_files]; exact eraseDups_pairwise_idxOf _
  group := by
    intro group hgroup
    obtain ⟨file, -, rfl⟩ := List.mem_map.1 hgroup
    rfl
  whole := vs.flatMap_byFile_perm
  counts := by
    intro c
    rw [← countCategory_perm vs.flatMap_byFile_perm, countCategory_eq_countP, List.countP_flatMap]
    exact congrArg List.sum (List.map_congr_left fun group _ => countCategory_eq_countP _ c)

/-! ## Both -/

/-- Every list of violations is divided by category and by file, each violation falling into one
part; and numbers of violations add up when lists are put together. -/
theorem violations_divide (vs ws : Violations) :
    vs.DividedByCategory ∧ vs.DividedByFile ∧
      (∀ c, countCategory (vs ++ ws) c = vs.countCategory c + ws.countCategory c) ∧
      (∀ k, countKind (vs ++ ws) k = vs.countKind k + ws.countKind k) ∧
      (vs ++ ws).length = vs.length + ws.length :=
  ⟨vs.dividedByCategory, vs.dividedByFile, countCategory_append vs ws,
    fun _ => List.countP_append, List.length_append⟩

end Violations

end Assay

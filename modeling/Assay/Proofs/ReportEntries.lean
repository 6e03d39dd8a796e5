import Mathlib.Data.List.Forall2
import Assay.Proofs.ReportFaults

/-!
# Entries of a report

Every entry of a report is read by itself: as a violation, as a rule to skip, or as what the report is
refused for. Main statement: a report that consists of two is read as the one and then the other, is
refused where the first of them that is refused is, and accounts for every entry (`entries_compose`).
-/

namespace Assay

namespace ViolationKind

/-- No kind has a name without letters. -/
theorem ofLetters?_nil : ofLetters? [] = none := by
  have hcapital : ∀ k : ViolationKind, k.capitalName ≠ "" := by
    intro k
    cases k <;> decide
  have hrule : ∀ k : ViolationKind, k.rule ≠ "" := by
    intro k
    cases k <;> decide
  have hfold : ∀ name : String, name ≠ "" → (Text.fold name.toList == Text.fold []) = false := by
    intro name hname
    simpa [Text.fold] using hname
  simp [ofLetters?, hfold, hcapital, hrule]

/-- The rule of no name is unknown. -/
theorem ofRule?_empty : ofRule? "" = none := by
  have hlast : Text.afterLast '.' (Text.strip "".toList) = [] := by decide
  simp only [ofRule?, hlast, ofLetters?_nil, Option.none_or]
  rfl

end ViolationKind

namespace Report

variable {source : String} {index n : Nat} {entry : Json} {before after entries : List Json}
  {found found' : List Entry} {r : Reading}

/-! ## Readings entry by entry -/

/-- What entries report: the violations and the rules to skip, both in the order of the entries. -/
def Reading.ofEntries (found : List Entry) : Reading where
  violations := found.filterMap fun | .ok v => some v | .error _ => none
  skipped := found.filterMap fun | .ok _ => none | .error rule => some rule

namespace Reading

@[simp] theorem ofEntries_nil : ofEntries [] = .empty := rfl

@[simp] theorem ofEntries_cons (e : Entry) (found : List Entry) :
    ofEntries (e :: found) = (ofEntry e).append (ofEntries found) := by
  cases e <;> rfl

theorem ofEntries_append (found found' : List Entry) :
    ofEntries (found ++ found') = (ofEntries found).append (ofEntries found') := by
  simp [ofEntries, append]

/-- Every entry is read as a violation or skipped. -/
theorem length_ofEntries (found : List Entry) :
    (ofEntries found).violations.length + (ofEntries found).skipped.length = found.length := by
  induction found with
  | nil => rfl
  | cons e found ih =>
    rw [ofEntries_cons, List.length_cons, ← ih]
    cases e <;> simp only [append, ofEntry, List.length_append, List.length_cons, List.length_nil]
      <;> omega

end Reading

/-! ## Lists of entries -/

section Loop

variable {α : Type} {read : α → Except ViolationFault Entry}
  {loop : Nat → List α → Except ReportError Reading}

/-- A loop that reads item by item succeeds exactly if every item is read. -/
theorem loop_eq_ok (hnil : ∀ n, loop n [] = .ok .empty)
    (hfails : ∀ {fault} n item items, read item = .error fault →
      ∃ error, loop n (item :: items) = .error error)
    (hreads : ∀ {e} n item items, read item = .ok e →
      loop n (item :: items) = (loop (n + 1) items).map (Reading.ofEntry e).append)
    (items : List α) :
    loop index items = .ok r ↔
      ∃ found, List.Forall₂ (fun item e => read item = .ok e) items found ∧ r = .ofEntries found := by
  -- on the items; the index only tells where a refusal is
  induction items generalizing index r with
  | nil => simp [hnil, eq_comm]
  | cons item items ih =>
    cases hitem : read item with
    | error fault =>
      obtain ⟨error, herror⟩ := hfails index item items hitem
      simp [herror, hitem, List.forall₂_cons_left_iff]
    | ok e =>
      rw [hreads index item items hitem]
      constructor
      · intro h
        cases hmore : loop (index + 1) items with
        | error error =>
          rw [hmore] at h
          cases h
        | ok more =>
          rw [hmore] at h
          cases h
          obtain ⟨found, hfound, rfl⟩ := ih.1 hmore
          exact ⟨e :: found, .cons hitem hfound, (Reading.ofEntries_cons e found).symm⟩
      · rintro ⟨_, hread, rfl⟩
        obtain ⟨e', found, hitem', hfound, rfl⟩ := List.forall₂_cons_left_iff.1 hread
        obtain rfl : e = e' := Except.ok.inj (hitem.symm.trans hitem')
        rw [ih.2 ⟨found, hfound, rfl⟩, Reading.ofEntries_cons]
        rfl

end Loop

/-- The entries are read one by one. -/
def ReadAs (entries : List Json) (found : List Entry) : Prop :=
  List.Forall₂ (fun entry e => readEntry entry = .ok e) entries found

/-- A list of entries is read exactly if each of them is. -/
theorem readEntries_eq_ok :
    readEntries source index entries = .ok r ↔
      ∃ found, ReadAs entries found ∧ r = .ofEntries found := by
  refine loop_eq_ok (fun _ => rfl) ?_ ?_ entries
  · intro fault n entry entries hentry
    exact ⟨_, by rw [readEntries, hentry]⟩
  · intro e n entry entries hentry
    rw [readEntries, hentry]

section FirstFailure

variable {α β ε : Type} {f : α → Except ε β} {items more : List α} {e : ε}

/-- What comes behind the first failure does not matter. -/
theorem FailsAt.append (h : FailsAt f items n e) (more : List α) : FailsAt f (items ++ more) n e := by
  obtain ⟨hbefore, item, hitem, hfails⟩ := h
  obtain ⟨hlt, -⟩ := List.getElem?_eq_some_iff.1 hitem
  refine ⟨?_, item, ?_, hfails⟩
  · rwa [List.take_append_of_le_length (Nat.le_of_lt hlt)]
  · rwa [List.getElem?_append_left hlt]

/-- Behind items that do not fail, the first failure is as many places later. -/
theorem FailsAt.behind (h : FailsAt f more n e) (hitems : ∀ item ∈ items, ∃ b, f item = .ok b) :
    FailsAt f (items ++ more) (items.length + n) e := by
  obtain ⟨hbefore, item, hitem, hfails⟩ := h
  refine ⟨?_, item, ?_, hfails⟩
  · rw [List.take_length_add_append, List.forall_mem_append]
    exact ⟨hitems, hbefore⟩
  · rwa [List.getElem?_append_right (Nat.le_add_right _ _), Nat.add_sub_cancel_left]

end FirstFailure

/-- An entry with a rule and a file is skipped if the rule is unknown. -/
theorem readEntry_of_unknown {members : List (String × Json)} {rule : String} {file : Json}
    (hrule : (Json.member? "rule" members).or (Json.member? "kind" members) = some (.string rule))
    (hfile : Json.member? "file" members = some file) (hkind : ViolationKind.ofRule? rule = none) :
    readEntry (.object members) = .ok (.error rule) := by
  simp only [readEntry, hrule, hfile, hkind]

/-- Entries that are read do not fail. -/
theorem ReadAs.forall_ok (h : ReadAs entries found) :
    ∀ entry ∈ entries, ∃ e, readEntry entry = .ok e := by
  induction h with
  | nil => simp
  | cons hentry _ ih => exact List.forall_mem_cons.2 ⟨⟨_, hentry⟩, ih⟩

/-- Reports compose. If two lists of entries are read, so is the one followed by the other, as the
violations of the one followed by those of the other, and every rule is skipped as often as in both. If
the first is refused, so is the whole, with the same error; if only the second is, the whole is refused
for the same fault, as many entries later as the first has. Whatever is read accounts for all entries:
each is a violation or is skipped, in order. -/
theorem entries_compose (source : String) (before after : List Json) :
    (∀ r r', ofJson source (.array before) = .ok r → ofJson source (.array after) = .ok r' →
      ∃ whole, ofJson source (.array (before ++ after)) = .ok whole ∧
        whole.violations = r.violations ++ r'.violations ∧
        ∀ rule, whole.skipped.count rule = r.skipped.count rule + r'.skipped.count rule) ∧
    (∀ error, ofJson source (.array before) = .error error →
      ofJson source (.array (before ++ after)) = .error error) ∧
    (∀ r error, ofJson source (.array before) = .ok r → ofJson source (.array after) = .error error →
      ∃ n fault, FailsAt readEntry after n fault ∧ error = .violation (place source n) fault ∧
        ofJson source (.array (before ++ after)) =
          .error (.violation (place source (before.length + n)) fault)) ∧
    ∀ entries r, ofJson source (.array entries) = .ok r →
      (∃ found, ReadAs entries found ∧ r = .ofEntries found) ∧
        r.violations.length + r.skipped.length = entries.length := by
  simp only [ofJson_array, readEntries_eq_ok, readEntries_eq_error, Nat.zero_add]
  refine ⟨?_, ?_, ?_, ?_⟩
  · rintro _ _ ⟨found, hfound, rfl⟩ ⟨found', hfound', rfl⟩
    refine ⟨_, ⟨found ++ found', List.rel_append hfound hfound', rfl⟩, ?_⟩
    rw [Reading.ofEntries_append]
    exact ⟨rfl, fun rule => List.count_append⟩
  · rintro _ ⟨n, fault, hfails, rfl⟩
    exact ⟨n, fault, hfails.append after, rfl⟩
  · rintro _ _ ⟨found, hfound, rfl⟩ ⟨n, fault, hfails, rfl⟩
    exact ⟨n, fault, hfails, rfl, before.length + n, fault, hfails.behind hfound.forall_ok, rfl⟩
  · rintro entries _ ⟨found, hfound, rfl⟩
    refine ⟨⟨found, hfound, rfl⟩, ?_⟩
    rw [Reading.length_ofEntries, List.Forall₂.length_eq hfound]

/-- Two reports with an entry of a known rule and one of an unknown rule each, and one whose second
entry is no object. -/
theorem entries_compose_unknown_rule :
    let members : List (String × Json) := [("kind", .string "Indentation"), ("file", .string "A.java")]
    let known : Json := .object members
    let unknown : Json := .object [("rule", .string ""), ("file", .null)]
    let found : Violation := ⟨.indentation, "A.java", 0, none, none, ""⟩
    ofJson "r" (.array [known, unknown]) = .ok ⟨[found], [""]⟩ ∧
      ofJson "r" (.array [known, .null]) = .error (.violation (place "r" 1) .notObject) ∧
      (∃ whole, ofJson "r" (.array ([known, unknown] ++ [unknown, known])) = .ok whole ∧
        whole.violations = [found, found] ∧ whole.skipped.count "" = 2) ∧
      ofJson "r" (.array ([known, unknown] ++ [known, .null])) =
        .error (.violation (place "r" 3) .notObject) := by
  intro members known unknown found
  have hkind : ViolationKind.ofRule? "Indentation" = some .indentation := by decide +kernel
  have hknown : readEntry known = .ok (.ok found) := by
    have hrule : (Json.member? "rule" members).or (Json.member? "kind" members) =
        some (.string "Indentation") := rfl
    have hfile : Json.member? "file" members = some (.string "A.java") := rfl
    show readEntry (.object members) = _
    simp only [readEntry, hrule, hfile, hkind]
    rfl
  have hunknown : readEntry unknown = .ok (.error "") :=
    readEntry_of_unknown rfl rfl ViolationKind.ofRule?_empty
  have hnull : readEntry .null = .error .notObject := rfl
  -- each list alone, read entry by entry
  have hfirst : ofJson "r" (.array [known, unknown]) = .ok ⟨[found], [""]⟩ :=
    (ofJson_array ..).trans (readEntries_eq_ok.2 ⟨_, .cons hknown (.cons hunknown .nil), rfl⟩)
  have hsecond : ofJson "r" (.array [unknown, known]) = .ok ⟨[found], [""]⟩ :=
    (ofJson_array ..).trans (readEntries_eq_ok.2 ⟨_, .cons hunknown (.cons hknown .nil), rfl⟩)
  have hthird : ofJson "r" (.array [known, .null]) =
      .error (.violation (place "r" 1) .notObject) :=
    (ofJson_array ..).trans (readEntries_eq_error.2
      ⟨1, .notObject, (failsAt_of_ok hknown).2 ⟨0, rfl, (failsAt_of_error hnull).2 ⟨rfl, rfl⟩⟩, rfl⟩)
  obtain ⟨whole, hwhole, hviolations, hskipped⟩ :=
    (entries_compose "r" [known, unknown] [unknown, known]).1 _ _ hfirst hsecond
  obtain ⟨n, fault, hfails, herror, hrefused⟩ :=
    (entries_compose "r" [known, unknown] [known, .null]).2.2.1 _ _ hfirst hthird
  -- the first entry of the second list is read, so the second one is refused
  obtain ⟨k, rfl, hk⟩ := (failsAt_of_ok hknown).1 hfails
  obtain ⟨rfl, rfl⟩ := (failsAt_of_error hnull).1 hk
  have hcount : whole.skipped.count "" = 2 := (hskipped "").trans (by decide)
  exact ⟨hfirst, hthird, ⟨whole, hwhole, hviolations, hcount⟩, hrefused⟩

end Report

end Assay

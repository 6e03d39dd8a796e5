import Assay.Proofs.Traversal
import Assay.Report.Reader

/-!
# Reports that are refused

A report in decoded data is refused at the first entry that is wrong, and the refusal is a
diagnostic that names the place of the entry. One refusal is none: an infinite number where a whole
one belongs ends a run as an accident. The entries at which this happens are the `Overflowing` ones:
entries of a known rule of whose numbers the first that is no whole one is infinite. Main statement:
data is read or refused with a diagnostic exactly if no such entry is the first that is refused
(`refusals_are_told`).
-/

namespace Assay.Report

variable {source : String} {members : List (String × Json)} {key field : String}
  {fault : ViolationFault} {error : ReportError}

/-! ## First failures -/

section FirstFailure

variable {α β ε : Type} {f : α → Except ε β} {item : α} {items : List α} {n : Nat} {e : ε}

/-- The item at the given number is the first of the list that fails. -/
def FailsAt (f : α → Except ε β) (items : List α) (n : Nat) (e : ε) : Prop :=
  (∀ other ∈ items.take n, ∃ b, f other = .ok b) ∧ ∃ item, items[n]? = some item ∧ f item = .error e

@[simp] theorem not_failsAt_nil : ¬ FailsAt f [] n e := by
  simp [FailsAt]

@[simp] theorem failsAt_zero : FailsAt f (item :: items) 0 e ↔ f item = .error e := by
  simp [FailsAt]

@[simp] theorem failsAt_succ :
    FailsAt f (item :: items) (n + 1) e ↔ (∃ b, f item = .ok b) ∧ FailsAt f items n e := by
  simp [FailsAt, and_assoc]

/-- A list whose first item fails has no other first failure. -/
theorem failsAt_of_error (h : f item = .error e) {e' : ε} :
    FailsAt f (item :: items) n e' ↔ n = 0 ∧ e = e' := by
  cases n <;> simp [h]

/-- After an item that does not fail, the failure is among the others. -/
theorem failsAt_of_ok {b : β} (h : f item = .ok b) :
    FailsAt f (item :: items) n e ↔ ∃ k, n = k + 1 ∧ FailsAt f items k e := by
  cases n <;> simp [h]

/-- A traversal fails exactly by the first item that does. -/
theorem mapM_eq_error_iff_failsAt : items.mapM f = .error e ↔ ∃ n, FailsAt f items n e := by
  rw [mapM_eq_error]
  constructor
  · rintro ⟨before, item, after, rfl, hbefore, hitem⟩
    refine ⟨before.length, ?_, item, ?_, hitem⟩
    · rwa [List.take_left]
    · rw [List.getElem?_append_right (Nat.le_refl _), Nat.sub_self, List.getElem?_cons_zero]
  · rintro ⟨n, hbefore, item, hget, hitem⟩
    obtain ⟨hn, rfl⟩ := List.getElem?_eq_some_iff.1 hget
    refine ⟨items.take n, items[n], items.drop (n + 1), ?_, hbefore, hitem⟩
    rw [← List.drop_eq_getElem_cons hn, List.take_append_drop]

end FirstFailure

/-! ## Numbers -/

/-- A value is refused as infinite exactly if it is an infinite number. -/
theorem wholeNumber_eq_infinite {given : Json} :
    wholeNumber field given = .error .infinite ↔
      ∃ negative, given = .real (.infinite negative) := by
  cases given with
  | real x => cases x <;> simp [wholeNumber, Binary64.truncate?]
  | string s =>
    by_cases hs : s.isEmpty = true
    · simp [wholeNumber, hs]
    · cases hn : Text.integer? s.toList <;> simp [wholeNumber, hs, hn]
  | _ => simp [wholeNumber]

/-- The keys of the numbers of an entry, in the order in which they are read. -/
def numberKeys : List String := ["line", "end_line", "column"]

/-- A member is refused as infinite exactly if it is an infinite number. -/
theorem wholeMember_eq_infinite :
    wholeMember members key = .error .infinite ↔
      ∃ negative, Json.member? key members = some (.real (.infinite negative)) := by
  rw [wholeMember, wholeNumber_eq_infinite]
  cases Json.member? key members <;> simp

/-! ## Entries -/

/-- An entry with a file and a rule that some kind of violation has. -/
def Known (members : List (String × Json)) : Prop :=
  ∃ rule kind file,
    (Json.member? "rule" members).or (Json.member? "kind" members) = some (.string rule) ∧
      ViolationKind.ofRule? rule = some kind ∧ Json.member? "file" members = some file

/-- An entry of a known rule of whose numbers the first that is no whole one is infinite. -/
inductive Overflowing : Json → Prop
  | entry {members : List (String × Json)} {n : Nat} {key : String} {negative : Bool}
    (hknown : Known members) (hkey : numberKeys[n]? = some key)
    (hbefore : ∀ other ∈ numberKeys.take n, ∃ number, wholeMember members other = .ok number)
    (hinfinite : Json.member? key members = some (.real (.infinite negative))) :
    Overflowing (.object members)

/-- An entry of a known rule is refused exactly for the first of its numbers that is refused. -/
theorem readEntry_eq_error (h : Known members) :
    readEntry (.object members) = .error fault ↔
      ∃ n, FailsAt (wholeMember members) numberKeys n fault := by
  obtain ⟨rule, kind, file, hrule, hkind, hfile⟩ := h
  rw [← mapM_eq_error_iff_failsAt]
  simp only [readEntry, hrule, hfile, hkind, numberKeys, List.mapM_cons, List.mapM_nil]
  -- the numbers are read in the order of their keys
  rcases wholeMember members "line" with _ | line
  · simp [bind, Except.bind]
  rcases wholeMember members "end_line" with _ | endLine
  · simp [bind, Except.bind]
  rcases wholeMember members "column" with _ | column
  · simp [bind, Except.bind]
  · simp [bind, Except.bind, pure, Except.pure]

/-- Only the numbers of an entry of a known rule are looked at. -/
theorem known_of_infinite (h : readEntry (.object members) = .error .infinite) :
    Known members := by
  simp only [readEntry] at h
  split at h
  · next rule file hrule hfile =>
    split at h
    · cases h
    · next kind hkind => exact ⟨rule, kind, file, hrule, hkind, hfile⟩
  · cases h

/-- The entries that are refused as infinite are the overflowing ones. -/
theorem readEntry_eq_infinite {entry : Json} :
    readEntry entry = .error .infinite ↔ Overflowing entry := by
  constructor
  · intro h
    cases entry with
    | object members =>
      have hknown := known_of_infinite h
      obtain ⟨n, hbefore, key, hkey, hfails⟩ := (readEntry_eq_error hknown).1 h
      obtain ⟨negative, hinfinite⟩ := wholeMember_eq_infinite.1 hfails
      exact .entry hknown hkey hbefore hinfinite
    | _ => cases h
  · rintro ⟨hknown, hkey, hbefore, hinfinite⟩
    apply (readEntry_eq_error hknown).2
    exact ⟨_, hbefore, _, hkey, wholeMember_eq_infinite.2 ⟨_, hinfinite⟩⟩

/-- Any refusal but one is a diagnostic that names the place. -/
theorem account_of_ne_infinite (spot : String) (h : fault ≠ .infinite) :
    ∃ message, fault.account spot = .plain .report (spot ++ message) := by
  cases fault with
  | notObject => exact ⟨_, rfl⟩
  | incomplete => exact ⟨_, rfl⟩
  | notInteger field given =>
    refine ⟨": " ++ field ++ " is not an integer: " ++ given.literal, ?_⟩
    simp only [ViolationFault.account, String.append_assoc]
  | infinite => exact absurd rfl h

/-! ## Data -/

/-- The place of the entry of the given number. -/
def place (source : String) (n : Nat) : String := source ++ "[" ++ toString n ++ "]"

/-- A list of entries is refused exactly at the first entry that is wrong. -/
theorem readEntries_eq_error {index : Nat} {entries : List Json} :
    readEntries source index entries = .error error ↔
      ∃ n fault, FailsAt readEntry entries n fault ∧
        error = .violation (place source (index + n)) fault := by
  -- on the entries; the index counts those that were read
  induction entries generalizing index with
  | nil => simp [readEntries]
  | cons entry entries ih =>
    cases hentry : readEntry entry with
    | error fault =>
      simp only [readEntries, hentry, failsAt_of_error hentry, Except.error.injEq]
      constructor
      · intro h
        exact ⟨0, fault, ⟨rfl, rfl⟩, h.symm⟩
      · rintro ⟨_, _, ⟨rfl, rfl⟩, h⟩
        exact h.symm
    | ok found =>
      have hpass : readEntries source index (entry :: entries) = .error error ↔
          readEntries source (index + 1) entries = .error error := by
        rw [readEntries, hentry]
        cases readEntries source (index + 1) entries <;> simp [Except.map]
      rw [hpass, ih]
      constructor
      · rintro ⟨n, fault, h, herror⟩
        refine ⟨n + 1, fault, failsAt_succ.2 ⟨⟨found, hentry⟩, h⟩, ?_⟩
        rw [herror, Nat.add_assoc, Nat.add_comm 1]
      · rintro ⟨n, fault, h, herror⟩
        obtain ⟨k, rfl, hk⟩ := (failsAt_of_ok hentry).1 h
        refine ⟨k, fault, hk, ?_⟩
        rw [herror, Nat.add_assoc, Nat.add_comm 1]

/-- Data that is a list is read as the entries in it. -/
theorem ofJson_array (source : String) (entries : List Json) :
    ofJson source (.array entries) = readEntries source 0 entries := rfl

/-- The first entry that is refused is an overflowing one. -/
def Overflows (data : Json) : Prop :=
  ∃ entries n entry, data.listed? "violations" = some entries ∧ entries[n]? = some entry ∧
    Overflowing entry ∧ ∀ other ∈ entries.take n, ∃ found, readEntry other = .ok found

/-- Data is refused for an infinite number exactly if it overflows. -/
theorem ofJson_eq_infinite {data : Json} :
    (∃ spot, ofJson source data = .error (.violation spot .infinite)) ↔ Overflows data := by
  rw [ofJson, Overflows]
  cases data.listed? "violations" with
  | none => simp
  | some entries =>
    simp only [readEntries_eq_error, Option.some.injEq, ReportError.violation.injEq]
    constructor
    · rintro ⟨_, n, _, ⟨hbefore, entry, hentry, hfails⟩, rfl, rfl⟩
      exact ⟨entries, n, entry, rfl, hentry, readEntry_eq_infinite.1 hfails, hbefore⟩
    · rintro ⟨_, n, entry, rfl, hentry, hoverflowing, hbefore⟩
      exact ⟨_, n, _, ⟨hbefore, entry, hentry, readEntry_eq_infinite.2 hoverflowing⟩, rfl, rfl⟩

/-- Data is read or refused, and a refusal is a diagnostic unless it is for an infinite number. -/
theorem ofJson_cases (source : String) (data : Json) :
    (∃ reading, ofJson source data = .ok reading) ∨
      (∃ error message, ofJson source data = .error error ∧
        error.account = .plain .report (source ++ message)) ∨
      ∃ spot, ofJson source data = .error (.violation spot .infinite) := by
  rw [ofJson]
  cases data.listed? "violations" with
  | none => exact .inr (.inl ⟨_, _, rfl, rfl⟩)
  | some entries =>
    simp only
    cases hread : readEntries source 0 entries with
    | ok reading => exact .inl ⟨reading, rfl⟩
    | error error =>
      obtain ⟨n, fault, -, rfl⟩ := readEntries_eq_error.1 hread
      by_cases hfault : fault = .infinite
      · exact .inr (.inr ⟨_, by rw [hfault]⟩)
      · obtain ⟨message, hmessage⟩ := account_of_ne_infinite (place source (0 + n)) hfault
        refine .inr (.inl ⟨_, "[" ++ toString (0 + n) ++ "]" ++ message, rfl, ?_⟩)
        rw [ReportError.account, hmessage, place]
        simp only [String.append_assoc]

/-- The refusal for an infinite number has an account of its own. -/
theorem account_eq_infiniteNumber :
    error.account = .accident .infiniteNumber ↔ ∃ spot, error = .violation spot .infinite := by
  cases error with
  | violation spot fault => cases fault <;> simp [ReportError.account, ViolationFault.account,
      Account.plain]
  | unreadable path fault => cases fault <;> simp [ReportError.account, Account.unreadable,
      SystemFault.number?]
  | refused path why => cases why <;> simp [ReportError.account, Account.plain]
  | _ => simp [ReportError.account, Account.plain]

/-- Data is read, or refused with a diagnostic of a report that names the source, exactly if it does
not overflow; the refusal of data that overflows is an accident. -/
theorem refusals_are_told (source : String) (data : Json) :
    (((∃ reading, ofJson source data = .ok reading) ∨
      ∃ error message, ofJson source data = .error error ∧
        error.account = .plain .report (source ++ message)) ↔ ¬ Overflows data) ∧
    ((∃ error, ofJson source data = .error error ∧ error.account = .accident .infiniteNumber) ↔
      Overflows data) := by
  have hinfinite := @ofJson_eq_infinite source data
  rw [← hinfinite]
  constructor
  · constructor
    · rintro (⟨reading, hread⟩ | ⟨error, message, hread, haccount⟩) ⟨spot, hinfinite⟩
      · rw [hread] at hinfinite
        cases hinfinite
      · -- a diagnostic is no accident
        rw [hread] at hinfinite
        rw [account_eq_infiniteNumber.2 ⟨spot, Except.error.inj hinfinite⟩] at haccount
        cases haccount
    · intro h
      rcases ofJson_cases source data with hread | hrefused | hinfinite
      · exact .inl hread
      · exact .inr hrefused
      · exact absurd hinfinite h
  · constructor
    · rintro ⟨error, hread, haccount⟩
      obtain ⟨spot, rfl⟩ := account_eq_infiniteNumber.1 haccount
      exact ⟨spot, hread⟩
    · rintro ⟨spot, hread⟩
      exact ⟨_, hread, account_eq_infiniteNumber.2 ⟨spot, rfl⟩⟩

/-- A report whose one entry, of a known rule, has an infinite line is refused by an accident. -/
theorem infinite_line_untold :
    ¬ ∀ data, (∃ reading, ofJson "<data>" data = .ok reading) ∨
      ∃ error message, ofJson "<data>" data = .error error ∧
        error.account = .plain .report message := by
  intro h
  let members : List (String × Json) :=
    [("rule", .string "Indentation"), ("file", .string "a"), ("line", .real (.infinite false))]
  have hkind : ViolationKind.ofRule? "Indentation" = some .indentation := by decide +kernel
  have hentry : Overflowing (.object members) :=
    .entry ⟨_, _, _, rfl, hkind, rfl⟩ (n := 0) rfl nofun rfl
  obtain ⟨spot, hread⟩ := (@ofJson_eq_infinite "<data>" (.array [.object members])).2
    ⟨[.object members], 0, .object members, rfl, rfl, hentry, nofun⟩
  rcases h (.array [.object members]) with ⟨reading, hok⟩ | ⟨error, message, herror, haccount⟩
  · rw [hread] at hok
    cases hok
  · rw [hread] at herror
    cases herror
    cases haccount

end Assay.Report

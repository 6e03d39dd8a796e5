import Assay.CommandLine.Run
import Assay.Proofs.JsonLimits
import Assay.Proofs.RubricLoading

/-!
# Rubric files that are refused

A rubric file that cannot be used is told with a diagnostic of the configuration, whether it is
out of reach, no JSON, or JSON of another shape, and `score` then ends with one. There are two
exceptions, which end a run as accidents. A file may be no text: one whose bytes are not UTF-8, or a
path with a NUL in it. Or its text goes beyond a limit of the machine, with a number of too many
digits or with brackets that are open in too many others. Main statement: these are the only
exceptions (`rubric_files_are_told`).
-/

namespace Assay

variable {tree : FileTree} {path : Path}

/-! ## Files -/

/-- A walk is never refused for the path that it was given. -/
theorem FileTree.walk_ne_unnameable (above : List FileTree) (here : FileTree)
    (parts : List String) : walk above here parts ≠ .error .unnameable := by
  induction parts generalizing above here with
  | nil => simp [walk]
  | cons part parts ih =>
    cases here with
    | file _ => simp [walk]
    | directory entries =>
      by_cases hup : (part == "..") = true
      · cases above with
        | nil => simp [walk, hup]
        | cons parent above => simpa [walk, hup] using ih above parent
      · by_cases hlong : isLongName part = true
        · simp [walk, hup, hlong]
        · cases hentry : entries.lookup part with
          | none => simp [walk, hup, hlong, hentry]
          | some entry => simpa [walk, hup, hlong, hentry] using ih _ entry

/-- A file cannot be asked for exactly if there is a NUL in its path. -/
theorem FileTree.read_eq_unnameable :
    tree.read path = .error .unnameable ↔ path.parts.any holdsNul = true := by
  have hfind : tree.find path = .error .unnameable ↔ path.parts.any holdsNul = true := by
    by_cases hnul : path.parts.any holdsNul = true
    · simp [find, Path.fault?, hnul]
    · have hwalk := walk_ne_unnameable [] tree path.parts
      by_cases hlong : path.toString.utf8ByteSize ≥ 4096
      · simp [find, Path.fault?, hnul, hlong]
      · simpa [find, Path.fault?, hnul, hlong] using hwalk
  rw [← hfind, read]
  cases tree.find path with
  | error fault => simp
  | ok found => cases found <;> simp

/-- There is no text to be had at a path: a NUL is in it, or the file at it is not UTF-8. -/
def Textless (tree : FileTree) (path : Path) : Prop :=
  path.parts.any holdsNul = true ∨
    ∃ bytes error, tree.read path = .ok bytes ∧ Text.decodeUtf8 bytes = .error error

/-- The file at a path has text that goes beyond a limit of the machine. -/
def Oversized [Machine] (tree : FileTree) (path : Path) : Prop :=
  ∃ bytes cs what, tree.read path = .ok bytes ∧ Text.decodeUtf8 bytes = .ok cs ∧
    Json.read (Text.unifyLineEnds cs) = .error (.exceeded what)

/-- A file of opening brackets is text. -/
theorem decodeUtf8_brackets (n : Nat) :
    Text.decodeUtf8 (List.replicate n 0x5b) = .ok (List.replicate n '[') := by
  have hreadings (offset : Nat) : Text.utf8Readings offset (List.replicate n 0x5b) =
      List.replicate n (.ok '[') := by
    induction n generalizing offset with
    | zero => simp [Text.utf8Readings]
    | succ n ih =>
      have hpiece : Text.utf8Piece 0x5b (List.replicate n 0x5b) = ⟨.ok '[', 0⟩ := rfl
      rw [List.replicate_succ, Text.utf8Readings, hpiece, List.drop_zero, ih]
      rfl
  refine mapM_eq_ok.2 ?_
  rw [hreadings, List.map_id, List.map_replicate]

/-- A file with more opening brackets than there is room for goes beyond the limit. -/
theorem oversized_of_brackets [Machine] {n : Nat} (h : Machine.room < n) :
    Oversized (.directory [("r.json", .file (List.replicate n 0x5b))]) ⟨1, ["r.json"]⟩ := by
  have hlines (k : Nat) : Text.unifyLineEnds (List.replicate k '[') = List.replicate k '[' := by
    induction k with
    | zero => rfl
    | succ k ih => simp [List.replicate_succ, Text.unifyLineEnds, ih]
  have hjson := Json.read_openings h []
  rw [List.append_nil] at hjson
  exact ⟨_, _, _, rfl, decodeUtf8_brackets n, (hlines n).symm ▸ hjson⟩

/-! ## Accounts -/

/-- A failure is told with a diagnostic of the configuration. -/
def Account.Configuration (account : Account) : Prop :=
  ∃ d, account = .diagnosed d ∧ d.family = .configuration

theorem Account.Configuration.ne_accident {account : Account} (h : account.Configuration)
    (what : Accident) : account ≠ .accident what := by
  obtain ⟨d, rfl, -⟩ := h
  exact nofun

theorem Account.Configuration.exitCode_eq {account : Account} (h : account.Configuration) :
    account.exitCode = 1 := by
  obtain ⟨d, rfl, hd⟩ := h
  simp [Account.exitCode, hd, Family.isAnalysis]

namespace Rubric

/-- Data that is no rubric is told. -/
theorem ofJson_error_account {source : String} {data : Json} {error : RubricError}
    (h : ofJson source data = .error error) : error.account.Configuration := by
  rw [ofJson] at h
  cases hentries : data.listed? "categories" with
  | none =>
    rw [hentries] at h
    cases h
    exact ⟨_, rfl, rfl⟩
  | some entries =>
    rw [hentries] at h
    obtain ⟨k, fault, rfl, -⟩ := extendAll_error h
    exact ⟨_, rfl, rfl⟩

/-- Without text at its path, or with text beyond a limit, the refusal of a rubric file is an
accident. -/
theorem ofFile_of_beyond [Machine] (h : Textless tree path ∨ Oversized tree path) :
    ∃ error what, ofFile tree path = .error error ∧ error.account = .accident what := by
  rcases h with (hnul | ⟨bytes, error, hread, hdecode⟩) | ⟨bytes, cs, what, hread, hdecode, hjson⟩
  · have hread := (@FileTree.read_eq_unnameable tree path).2 hnul
    have hfile : ofFile tree path = .error (.unreadable path .unnameable) := by
      simp only [ofFile, Json.ofFile, hread]
    exact ⟨_, _, hfile, rfl⟩
  · have hfile : ofFile tree path = .error (.undecodable error) := by
      simp only [ofFile, Json.ofFile, Json.ofBytes, hread, hdecode]
    exact ⟨_, _, hfile, rfl⟩
  · have hfile : ofFile tree path = .error (.exceeded what) := by
      simp only [ofFile, Json.ofFile, Json.ofBytes, hread, hdecode, hjson]
    exact ⟨_, _, hfile, rfl⟩

/-- With text within the limits at its path a rubric file is read or its refusal is told. -/
theorem ofFile_of_text [Machine] (htext : ¬ Textless tree path) (hlimits : ¬ Oversized tree path) :
    (∃ rubric, ofFile tree path = .ok rubric) ∨
      ∃ error, ofFile tree path = .error error ∧ error.account.Configuration := by
  -- each step of reading a file has its own failures, and those beyond the limits are excluded
  cases hread : tree.read path with
  | error fault =>
    have hfile : ofFile tree path = .error (.unreadable path fault) := by
      simp only [ofFile, Json.ofFile, hread]
    refine .inr ⟨_, hfile, ?_⟩
    cases fault with
    | unnameable => exact absurd (.inl (FileTree.read_eq_unnameable.1 hread)) htext
    | _ => exact ⟨_, rfl, rfl⟩
  | ok bytes =>
    cases hdecode : Text.decodeUtf8 bytes with
    | error error => exact absurd (.inr ⟨bytes, error, hread, hdecode⟩) htext
    | ok cs =>
      cases hjson : Json.read (Text.unifyLineEnds cs) with
      | error error =>
        cases error with
        | exceeded what => exact absurd ⟨bytes, cs, what, hread, hdecode, hjson⟩ hlimits
        | malformed found =>
          have hfile : ofFile tree path = .error (.malformed path found) := by
            simp only [ofFile, Json.ofFile, Json.ofBytes, hread, hdecode, hjson]
          exact .inr ⟨_, hfile, _, rfl, rfl⟩
      | ok data =>
        have hfile : ofFile tree path = ofJson path.toString data := by
          simp only [ofFile, Json.ofFile, Json.ofBytes, hread, hdecode, hjson]
          rfl
        rw [hfile]
        cases hdata : ofJson path.toString data with
        | ok rubric => exact .inl ⟨rubric, rfl⟩
        | error error => exact .inr ⟨error, rfl, ofJson_error_account hdata⟩

/-- A file whose refusal is an accident is neither read nor is its refusal told. -/
theorem untold_of_accident [Machine] {error : RubricError} {what : Accident}
    (hfile : ofFile tree path = .error error) (haccident : error.account = .accident what) :
    ¬ ((∃ rubric, ofFile tree path = .ok rubric) ∨
      ∃ error, ofFile tree path = .error error ∧ error.account.Configuration) := by
  rintro (⟨rubric, hok⟩ | ⟨error', herror, htold⟩)
  · rw [hfile] at hok
    cases hok
  · obtain rfl : error = error' := Except.error.inj (hfile.symm.trans herror)
    exact htold.ne_accident what haccident

end Rubric

/-! ## Runs -/

namespace CommandLine

variable {s : Surroundings} {r : ScoreRequest} {error : RubricError}

/-- A run that fails before its answer ends as the account of the failure says. -/
theorem exitCode_of_error [Machine] {request : Request} {d : Delivery} {failure : Failure}
    (h : (answer s d request).result = .error failure) (verbosity : Nat) :
    (runCommand s verbosity request d).exitCode = failure.account.exitCode := by
  simp only [runCommand, h, Except.bind]

/-- A rubric is the first thing that `score` reads. -/
theorem scoreAnswer_of_refused [Machine]
    (hpath : (s.locate "configuration" r.configuration).result = .ok path)
    (hfile : Rubric.ofFile s.tree path = .error error) (d : Delivery) :
    (scoreAnswer s r d).result = .error (.rubric error) := by
  simp only [scoreAnswer, Logged.result_bind, hpath, Except.bind, hfile, Except.mapError,
    Logged.lift]

/-- A run of `score` with a rubric file that is refused ends as the account of the refusal says. -/
theorem exitCode_of_refused [Machine]
    (hpath : (s.locate "configuration" r.configuration).result = .ok path)
    (hfile : Rubric.ofFile s.tree path = .error error) (verbosity : Nat) (d : Delivery) :
    (runCommand s verbosity (.score r) d).exitCode = error.account.exitCode := by
  have hanswer : (answer s d (.score r)).result = .error (.rubric error) :=
    scoreAnswer_of_refused hpath hfile d
  rw [exitCode_of_error hanswer, Failure.account]

end CommandLine

open CommandLine in
/-- A rubric file is read, or refused with a diagnostic of the configuration, exactly if there is
text within the limits of the machine at its path; else the refusal is an accident. So a run of
`score` whose rubric file is there but is refused ends with one in the first case and with two in
the second. A text beyond the limits has more digits in a row than are converted, or opens more
arrays and objects than there is room for. -/
theorem rubric_files_are_told [Machine] (tree : FileTree) (path : Path) :
    (((∃ rubric, Rubric.ofFile tree path = .ok rubric) ∨
      ∃ error, Rubric.ofFile tree path = .error error ∧ error.account.Configuration) ↔
        ¬ Textless tree path ∧ ¬ Oversized tree path) ∧
    ((∃ error what, Rubric.ofFile tree path = .error error ∧ error.account = .accident what) ↔
      Textless tree path ∨ Oversized tree path) ∧
    (∀ (s : Surroundings) (r : ScoreRequest) (verbosity : Nat) (d : Delivery), s.tree = tree →
      (s.locate "configuration" r.configuration).result = .ok path →
      (∀ rubric, Rubric.ofFile tree path ≠ .ok rubric) →
      ((runCommand s verbosity (.score r) d).exitCode = 1 ↔
          ¬ Textless tree path ∧ ¬ Oversized tree path) ∧
        ((runCommand s verbosity (.score r) d).exitCode = 2 ↔
          Textless tree path ∨ Oversized tree path)) ∧
    (Oversized tree path → ∃ bytes cs what, tree.read path = .ok bytes ∧
      Text.decodeUtf8 bytes = .ok cs ∧
        Json.Exceeds Machine.room (Text.unifyLineEnds cs) what) := by
  have hexit {s : Surroundings} {r : ScoreRequest} {error : RubricError}
      (hfile : Rubric.ofFile tree path = .error error) (hs : s.tree = tree)
      (hpath : (s.locate "configuration" r.configuration).result = .ok path) (verbosity : Nat)
      (d : Delivery) :
      (runCommand s verbosity (.score r) d).exitCode = error.account.exitCode :=
    exitCode_of_refused hpath (hs ▸ hfile) verbosity d
  -- what exceeds a limit is seen in the text itself
  have hshown : Oversized tree path → ∃ bytes cs what, tree.read path = .ok bytes ∧
      Text.decodeUtf8 bytes = .ok cs ∧
        Json.Exceeds Machine.room (Text.unifyLineEnds cs) what := by
    rintro ⟨bytes, cs, what, hread, hdecode, hjson⟩
    exact ⟨bytes, cs, what, hread, hdecode, Json.exceeds_of_read hjson⟩
  rw [← not_or]
  -- either there is no text within the limits, or all that can go wrong is told
  by_cases hbeyond : Textless tree path ∨ Oversized tree path
  · obtain ⟨error, what, hfile, haccident⟩ := Rubric.ofFile_of_beyond hbeyond
    have huntold := Rubric.untold_of_accident hfile haccident
    refine ⟨iff_of_false huntold (not_not_intro hbeyond),
      iff_of_true ⟨_, _, hfile, haccident⟩ hbeyond, ?_, hshown⟩
    intro s r verbosity d hs hpath _
    rw [hexit hfile hs hpath, haccident]
    exact ⟨iff_of_false nofun (not_not_intro hbeyond), iff_of_true rfl hbeyond⟩
  · obtain ⟨htext, hlimits⟩ := not_or.1 hbeyond
    have htold := Rubric.ofFile_of_text htext hlimits
    refine ⟨iff_of_true htold hbeyond, iff_of_false ?_ hbeyond, ?_, hshown⟩
    · rintro ⟨error, what, hfile, haccident⟩
      exact Rubric.untold_of_accident hfile haccident htold
    · intro s r verbosity d hs hpath hunread
      rcases htold with ⟨rubric, hok⟩ | ⟨error, hfile, htold⟩
      · exact absurd hok (hunread rubric)
      · rw [hexit hfile hs hpath, htold.exitCode_eq]
        exact ⟨iff_of_true rfl hbeyond, iff_of_false nofun hbeyond⟩

/-- A file with a byte that starts no character is no text. -/
theorem textless_of_bad_byte :
    Textless (.directory [("r.json", .file [0x5b, 0xff, 0x5d])]) ⟨1, ["r.json"]⟩ := by
  have hdecode : Text.decodeUtf8 [0x5b, 0xff, 0x5d] = .error ⟨.invalidStart, 1, [0xff]⟩ := by
    decide +kernel
  exact .inr ⟨_, _, rfl, hdecode⟩

open CommandLine in
/-- A run of `score` that finds its rubric in such a file ends with two. -/
theorem rubric_files_are_told_bad_byte :
    (runCommand ⟨.directory [("r.json", .file [0x5b, 0xff, 0x5d])], ⟨1, []⟩, [], [], false⟩ 0
      (.score ⟨".", "r.json", [], [], false, false, none⟩) ⟨none, true⟩).exitCode = 2 := by
  obtain ⟨error, what, hfile, -⟩ := Rubric.ofFile_of_beyond (.inl textless_of_bad_byte)
  obtain ⟨-, -, hrun, -⟩ := rubric_files_are_told
    (.directory [("r.json", .file [0x5b, 0xff, 0x5d])]) ⟨1, ["r.json"]⟩
  refine (hrun _ _ 0 _ rfl rfl ?_).2.2 (.inl textless_of_bad_byte)
  intro rubric hok
  rw [hfile] at hok
  cases hok

/-- Such a file is neither read nor refused with a diagnostic. -/
theorem bad_byte_untold :
    ¬ ∀ tree path, (∃ rubric, Rubric.ofFile tree path = .ok rubric) ∨
      ∃ error, Rubric.ofFile tree path = .error error ∧ error.account.Configuration := by
  intro h
  obtain ⟨error, what, hfile, haccident⟩ := Rubric.ofFile_of_beyond (.inl textless_of_bad_byte)
  exact Rubric.untold_of_accident hfile haccident (h _ _)

end Assay

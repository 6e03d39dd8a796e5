import Assay.Json.Reader
import Mathlib.Data.List.Infix

/-!
# Texts that go beyond a limit

A reader of JSON only moves forward, and it stops for a limit only at a text that shows why: one
that opens more brackets than there is room for, or one with a run of more digits than are converted.
Both happen. Main statements: what a text holds at which a limit is exceeded (`exceeds_of_read`), and
texts of either kind at which one is (`read_openings`, `read_long`).
-/

namespace Assay.Json

variable {α β : Type} {room budget n : Nat} {cs rest : List Char} {what : Excess}

/-! ## What shows that a limit is exceeded -/

/-- The character opens an array or an object. -/
def isOpening (c : Char) : Bool := c == '[' || c == '\x7b'

/-- How many arrays and objects a text opens, if none of its brackets is in a string. -/
def openings (cs : List Char) : Nat := cs.countP isOpening

/-- So many digits follow one another in the text. -/
def HasDigits (cs : List Char) (n : Nat) : Prop :=
  ∃ digits, digits <:+: cs ∧ digits.length = n ∧ ∀ d ∈ digits, d.isDigit

/-- The text goes beyond a limit in the given way, with room for so many open arrays and objects. -/
def Exceeds (room : Nat) (cs : List Char) : Excess → Prop
  | .digits n => Text.longestNumber < n ∧ HasDigits cs n
  | .array | .object => room < openings cs
  | .construct => False

/-- What a last part of a text shows, the text shows. -/
theorem Exceeds.of_suffix (h : Exceeds room rest what) (hsuffix : rest <:+ cs) :
    Exceeds room cs what := by
  have hopenings : openings rest ≤ openings cs := hsuffix.sublist.countP_le
  cases what with
  | digits n =>
    obtain ⟨hn, digits, hdigits, hlength, hall⟩ := h
    exact ⟨hn, digits, hdigits.trans hsuffix.isInfix, hlength, hall⟩
  | array => exact Nat.lt_of_lt_of_le h hopenings
  | object => exact Nat.lt_of_lt_of_le h hopenings
  | construct => exact h

/-- An opening bracket is counted. -/
theorem openings_cons {c : Char} (hc : isOpening c) : openings (c :: cs) = openings cs + 1 :=
  List.countP_cons_of_pos hc

/-- A text that starts with an opening bracket has one at least. -/
theorem openings_pos {c : Char} (hc : isOpening c) : 0 < openings (c :: cs) :=
  openings_cons hc ▸ Nat.succ_pos _

/-- Behind one bracket that opens something there is room for one less. -/
theorem Exceeds.cons {c : Char} (hc : isOpening c) (h : Exceeds room cs what) :
    Exceeds (room + 1) (c :: cs) what := by
  have hopenings : room < openings cs → room + 1 < openings (c :: cs) := by
    rw [openings_cons hc]
    exact Nat.succ_lt_succ
  cases what with
  | digits n => exact h.of_suffix (List.suffix_cons c cs)
  | array => exact hopenings h
  | object => exact hopenings h
  | construct => exact h

/-! ## Readers -/

/-- What a reader may make of a text: it leaves a last part of it, finds a fault, or stops for a limit
that the text goes beyond. -/
def Fits (room : Nat) (cs : List Char) : Reading α → Prop
  | .ok r => r.2 <:+ cs
  | .error (.fault _ _) => True
  | .error (.excess what) => Exceeds room cs what

namespace Fits

variable {r : Reading α}

/-- A reader that gives up where another does fits as that one. -/
theorem error {stop : Stop} (h : Fits room cs (.error stop : Reading α)) :
    Fits room cs (.error stop : Reading β) := by
  cases stop <;> exact h

/-- A reader that keeps its rest fits as before. -/
theorem map {f : α × List Char → β × List Char} (h : Fits room cs r)
    (hf : ∀ a, (f a).2 = a.2) : Fits room cs (r.map f) := by
  match r, h with
  | .ok a, h =>
    have hrest : (f a).2 <:+ cs := by
      rw [hf]
      exact h
    exact hrest
  | .error (.fault _ _), h => exact h
  | .error (.excess _), h => exact h

/-- What fits a rest fits the text it ends. -/
theorem of_suffix (h : Fits room rest r) (hsuffix : rest <:+ cs) : Fits room cs r := by
  match r, h with
  | .ok _, h => exact List.IsSuffix.trans h hsuffix
  | .error (.fault _ _), h => exact h
  | .error (.excess _), h => exact Exceeds.of_suffix h hsuffix

/-- One more bracket in front takes one more level of room. -/
theorem cons {c : Char} (hc : isOpening c) (h : Fits room cs r) : Fits (room + 1) (c :: cs) r := by
  match r, h with
  | .ok _, h => exact List.IsSuffix.trans h (List.suffix_cons c cs)
  | .error (.fault _ _), h => exact h
  | .error (.excess _), h => exact Exceeds.cons hc h

end Fits

/-- Blanks are skipped at the front. -/
theorem skipSpace_suffix (cs : List Char) : skipSpace cs <:+ cs := List.dropWhile_suffix _

/-- The text behind the first sign, which is found behind white space. -/
theorem suffix_of_skipSpace {c : Char} (h : skipSpace cs = c :: rest) : rest <:+ cs :=
  (List.suffix_cons c rest).trans (h ▸ skipSpace_suffix cs)

/-- What comes behind a sign and blanks ends the text that holds them. -/
theorem suffix_behind_sign {c : Char} {more : List Char} (hsign : skipSpace rest = c :: more)
    (h : rest <:+ cs) : skipSpace more <:+ cs :=
  (skipSpace_suffix more).trans ((suffix_of_skipSpace hsign).trans h)

/-! ## Strings and numbers -/

/-- A code unit is taken from the front. -/
theorem codeUnit?_suffix {unit : Nat} (h : codeUnit? cs = some (unit, rest)) : rest <:+ cs := by
  unfold codeUnit? at h
  split at h
  · next a b c d rest' =>
    split at h
    · cases h
    · simp only [Option.pure_def, Option.bind_eq_bind, Option.bind_eq_some_iff] at h
      obtain ⟨_, -, _, -, _, -, _, -, h⟩ := h
      cases h
      exact ⟨[a, b, c, d], rfl⟩
  · cases h

/-- An escape is taken from the front. -/
theorem escapedUnit?_suffix {c : Char} (h : escapedUnit? cs = some (c, rest)) : rest <:+ cs := by
  simp only [escapedUnit?, Option.bind_eq_bind, Option.bind_eq_some_iff] at h
  obtain ⟨⟨unit, behind⟩, hunit, h⟩ := h
  have hbehind := codeUnit?_suffix hunit
  have hsingle {c' : Char} (h : some (c', behind) = some (c, rest)) : rest <:+ cs := by
    cases h
    exact hbehind
  dsimp only at h
  split at h
  · next second =>
    split at h
    · simp only [Option.bind_eq_some_iff] at h
      obtain ⟨⟨low, rest'⟩, hlow, h⟩ := h
      dsimp only at h
      split at h
      · -- two escapes that make one character
        obtain ⟨-, rfl⟩ := Prod.mk.inj (Option.some.inj h)
        have hsecond : second <:+ '\\' :: 'u' :: second := ⟨['\\', 'u'], rfl⟩
        exact (codeUnit?_suffix hlow).trans (hsecond.trans hbehind)
      · exact hsingle h
    · exact hsingle h
  · exact hsingle h

/-- A string is read forward, and none is too long. -/
theorem stringBody_fits (start : List Char) (budget : Nat) (cs : List Char) :
    Fits room cs (stringBody start budget cs) := by
  induction budget generalizing cs with
  | zero => trivial
  | succ budget ih =>
    cases cs with
    | nil => trivial
    | cons c cs =>
      have hgo {rest : List Char} (hrest : rest <:+ c :: cs) :
          Fits room (c :: cs) (stringBody start budget rest) := (ih rest).of_suffix hrest
      unfold stringBody
      split_ifs
      · exact List.suffix_cons c cs
      · trivial
      · exact (hgo (List.suffix_cons c cs)).map fun _ => rfl
      · -- an escape: a code unit, or a letter
        dsimp only
        split
        · trivial
        · next digits =>
          cases hescaped : escapedUnit? digits with
          | none => trivial
          | some found =>
            obtain ⟨c', rest⟩ := found
            have hrest := (escapedUnit?_suffix hescaped).trans ⟨[c, 'u'], rfl⟩
            exact (hgo hrest).map fun _ => rfl
        · next letter rest _ =>
          cases hescape : simpleEscape? letter with
          | none => trivial
          | some c' => exact (hgo ⟨[c, letter], rfl⟩).map fun _ => rfl

/-- A string fits any room. -/
theorem readString_fits (cs : List Char) : Fits room cs (readString cs) := by
  unfold readString
  split
  · next body =>
    exact ((stringBody_fits _ _ body).of_suffix (List.suffix_cons '"' body)).map fun _ => rfl
  · trivial

/-- A minus sign is taken from the front. -/
theorem minusSign_suffix (cs : List Char) : (minusSign cs).2 <:+ cs := by
  unfold minusSign
  split
  · exact List.suffix_cons _ _
  · exact List.suffix_refl cs

/-- A sign is taken from the front. -/
theorem sign_suffix (cs : List Char) : (sign cs).2 <:+ cs := by
  unfold sign
  split
  · exact List.suffix_cons _ _
  · exact minusSign_suffix cs

/-- A fraction is taken from the front. -/
theorem fraction_suffix (cs : List Char) : (fraction cs).2 <:+ cs := by
  unfold fraction
  split
  · next rest =>
    dsimp only
    split
    · exact List.suffix_refl _
    · exact (List.dropWhile_suffix _).trans (List.suffix_cons '.' rest)
  · exact List.suffix_refl _

/-- An exponent is taken from the front. -/
theorem exponent_suffix (cs : List Char) : (exponent cs).2 <:+ cs := by
  cases cs with
  | nil => exact List.suffix_refl _
  | cons letter rest =>
    have hsign := (sign_suffix rest).trans (List.suffix_cons letter rest)
    unfold exponent
    dsimp only
    split
    · exact (List.dropWhile_suffix _).trans hsign
    · exact List.suffix_refl _

/-- The digits before the point and what follows them. -/
theorem wholeDigits_append (cs : List Char) : (wholeDigits cs).1 ++ (wholeDigits cs).2 = cs := by
  unfold wholeDigits
  split
  · rfl
  · exact List.takeWhile_append_dropWhile

/-- The whole digits are digits. -/
theorem isDigit_of_wholeDigits : ∀ d ∈ (wholeDigits cs).1, d.isDigit := by
  unfold wholeDigits
  split
  · simp
  · exact fun d hd => (List.all_eq_true.1 (List.all_takeWhile ..)) d hd

/-- A number is read forward, and it is too long only if so many digits follow one another. -/
theorem readNumber_fits (cs : List Char) : Fits room cs (readNumber cs) := by
  rcases hsign : minusSign cs with ⟨negative, unsigned⟩
  rcases hwhole : wholeDigits unsigned with ⟨whole, behind⟩
  rcases hfraction : fraction behind with ⟨decimals, behindPoint⟩
  rcases hexponent : exponent behindPoint with ⟨power, rest⟩
  have hunsigned : unsigned <:+ cs := by
    have h := minusSign_suffix cs
    rwa [hsign] at h
  have happend : whole ++ behind = unsigned := by
    have h := wholeDigits_append unsigned
    rwa [hwhole] at h
  have hrest : rest <:+ cs := by
    have hpoint := fraction_suffix behind
    have hpower := exponent_suffix behindPoint
    rw [hfraction] at hpoint
    rw [hexponent] at hpower
    exact ((hpower.trans hpoint).trans ⟨whole, happend⟩).trans hunsigned
  have hdigits : HasDigits cs whole.length := by
    have hall := @isDigit_of_wholeDigits unsigned
    rw [hwhole] at hall
    have hinfix : whole <:+: unsigned := happend ▸ (List.prefix_append whole behind).isInfix
    exact ⟨whole, hinfix.trans hunsigned.isInfix, rfl, hall⟩
  simp only [readNumber, hsign, hwhole, hfraction, hexponent]
  split
  · trivial
  · split
    · split
      · next hlong => exact ⟨hlong, hdigits⟩
      · exact hrest
    · exact hrest

/-- A value without brackets fits any room. -/
theorem readScalar_fits (cs : List Char) : Fits room cs (readScalar cs) := by
  unfold readScalar
  split
  · next reading hword =>
    obtain ⟨⟨word, value⟩, -, hfound⟩ := List.exists_of_findSome?_eq_some hword
    dsimp only at hfound
    split at hfound
    · cases hfound
      exact List.drop_suffix _ cs
    · cases hfound
  · exact readNumber_fits cs

/-! ## Values -/

/-- A value with one more level of reading fits where its items and its members do. -/
theorem readValue_succ_fits {budget : Nat}
    (hitems : ∀ room cs, Fits room cs (readItems budget room cs))
    (hmembers : ∀ room before cs, Fits room cs (readMembers budget room before cs)) (room : Nat)
    (cs : List Char) : Fits room cs (readValue (budget + 1) room cs) := by
  unfold readValue
  split
  · exact (readString_fits _).map fun _ => rfl
  -- an array takes a level of room; without one its bracket is already too much
  · next rest =>
    cases room with
    | zero =>
      show 0 < openings ('[' :: rest)
      exact openings_pos rfl
    | succ room =>
      dsimp only
      split
      · next h => exact (suffix_of_skipSpace h).trans (List.suffix_cons _ _)
      · next h =>
        exact (((hitems room _).of_suffix (skipSpace_suffix rest)).cons rfl).map fun _ => rfl
  -- and so does an object
  · next rest =>
    cases room with
    | zero =>
      show 0 < openings ('\x7b' :: rest)
      exact openings_pos rfl
    | succ room =>
      dsimp only
      split
      · next h => exact (suffix_of_skipSpace h).trans (List.suffix_cons _ _)
      · next h =>
        exact (((hmembers room [] _).of_suffix (skipSpace_suffix rest)).cons rfl).map fun _ => rfl
  · exact readScalar_fits _

/-- Items with one more level of reading fit where the first value and the other items do. -/
theorem readItems_succ_fits {budget : Nat}
    (hvalue : ∀ room cs, Fits room cs (readValue budget room cs))
    (hitems : ∀ room cs, Fits room cs (readItems budget room cs)) (room : Nat) (cs : List Char) :
    Fits room cs (readItems (budget + 1) room cs) := by
  have h := hvalue room cs
  unfold readItems
  cases hrun : readValue budget room cs with
  | error stop => exact (hrun ▸ h).error
  | ok found =>
    rw [hrun] at h
    dsimp only
    split
    · next hclose => exact (suffix_of_skipSpace hclose).trans h
    · next hcomma =>
      exact ((hitems room _).of_suffix (suffix_behind_sign hcomma h)).map fun _ => rfl
    · trivial

/-- Members with one more level of reading fit where the first value and the other members do. -/
theorem readMembers_succ_fits {budget : Nat}
    (hvalue : ∀ room cs, Fits room cs (readValue budget room cs))
    (hmembers : ∀ room before cs, Fits room cs (readMembers budget room before cs)) (room : Nat)
    (before : List (String × Json)) (cs : List Char) :
    Fits room cs (readMembers (budget + 1) room before cs) := by
  have hkey := @readString_fits room cs
  unfold readMembers
  cases hrun : readString cs with
  | error stop => exact (hrun ▸ hkey).error
  | ok key =>
    rw [hrun] at hkey
    dsimp only
    split
    · next hcolon =>
      have hitem := (hvalue room _).of_suffix (suffix_behind_sign hcolon hkey)
      split
      · next stop hfails => exact (hfails ▸ hitem).error
      · next hread =>
        rw [hread] at hitem
        split
        · next hclose => exact (suffix_of_skipSpace hclose).trans hitem
        · next hcomma =>
          exact (hmembers room _ _).of_suffix (suffix_behind_sign hcomma hitem)
        · trivial
    · trivial

/-- The three readers of values only move forward, and stop for a limit only at a text that goes
beyond it. -/
theorem readValue_fits_and (budget : Nat) :
    (∀ room cs, Fits room cs (readValue budget room cs)) ∧
    (∀ room cs, Fits room cs (readItems budget room cs)) ∧
    ∀ room before cs, Fits room cs (readMembers budget room before cs) := by
  induction budget with
  | zero => exact ⟨fun _ _ => trivial, fun _ _ => trivial, fun _ _ _ => trivial⟩
  | succ budget ih =>
    obtain ⟨hvalue, hitems, hmembers⟩ := ih
    exact ⟨readValue_succ_fits hitems hmembers, readItems_succ_fits hvalue hitems,
      readMembers_succ_fits hvalue hmembers⟩

/-- A limit is exceeded only by a text that goes beyond it: one that opens more arrays and objects
than there is room for, or one with too many digits in a row. -/
theorem exceeds_of_read [Machine] (h : read cs = .error (.exceeded what)) :
    Exceeds Machine.room cs what := by
  have hvalue := (readValue_fits_and (2 * cs.length + 2)).1 Machine.room (skipSpace cs)
  unfold read at h
  split at h
  · cases h
  · split at h
    · cases h
    · next hread =>
      cases h
      rw [hread] at hvalue
      exact Exceeds.of_suffix hvalue (skipSpace_suffix cs)
    · split at h <;> cases h

/-! ## Texts at which a limit is exceeded -/

/-- Brackets are read until there is no room left. -/
theorem readValue_brackets (hroom : room < n) (hbudget : 2 * room < budget) (rest : List Char) :
    readValue budget room (List.replicate n '[' ++ rest) = .error (.excess .array) := by
  induction room generalizing n budget with
  | zero =>
    obtain ⟨n, rfl⟩ := Nat.exists_eq_succ_of_ne_zero (Nat.ne_of_gt hroom)
    obtain ⟨budget, rfl⟩ := Nat.exists_eq_succ_of_ne_zero (Nat.ne_of_gt hbudget)
    rfl
  | succ room ih =>
    obtain ⟨n, rfl⟩ : ∃ m, n = m + 2 := ⟨n - 2, by omega⟩
    obtain ⟨budget, rfl⟩ : ∃ m, budget = m + 2 := ⟨budget - 2, by omega⟩
    -- behind a bracket the next one starts the first item
    have hinner := @ih budget (n + 1) (by omega) (by omega)
    rw [List.replicate_succ, List.cons_append] at hinner
    have hitems : readItems (budget + 1) room ('[' :: (List.replicate n '[' ++ rest)) =
        .error (.excess .array) := by
      simp only [readItems, hinner]
    show Except.map _ (readItems (budget + 1) room ('[' :: (List.replicate n '[' ++ rest))) = _
    rw [hitems]
    rfl

/-- A text that starts with more brackets than there is room for goes beyond the limit, whatever
comes behind them. -/
theorem read_openings [Machine] (hn : Machine.room < n) (rest : List Char) :
    read (List.replicate n '[' ++ rest) = .error (.exceeded .array) := by
  obtain ⟨n, rfl⟩ := Nat.exists_eq_succ_of_ne_zero (Nat.ne_of_gt (Nat.zero_lt_of_lt hn))
  have hspace : skipSpace (List.replicate (n + 1) '[' ++ rest) =
      List.replicate (n + 1) '[' ++ rest := rfl
  have hmark : ((List.replicate (n + 1) '[' ++ rest).head? == some '\ufeff') = false := rfl
  have hvalue := @readValue_brackets Machine.room
    (2 * (List.replicate (n + 1) '[' ++ rest).length + 2) (n + 1) hn (by simp; omega) rest
  simp only [read, hmark, hspace, hvalue]
  rfl

/-- A digit is no other character. -/
theorem ne_of_isDigit {c d : Char} (hd : d.isDigit) (hc : c.isDigit = false) : d ≠ c := by
  rintro rfl
  rw [hc] at hd
  cases hd

/-- What starts with a digit is read as a number. -/
theorem readValue_digit {d : Char} (hd : d.isDigit) (budget : Nat) :
    readValue (budget + 1) room (d :: cs) = readNumber (d :: cs) := by
  have hword : readWord? (d :: cs) = none := by
    have h {c : Char} (hc : c.isDigit = false) : ¬ c = d := (ne_of_isDigit hd hc).symm
    simp [readWord?, words, h]
  unfold readValue
  split
  · next h => exact absurd (List.cons.inj h).1 (ne_of_isDigit hd rfl)
  · next h => exact absurd (List.cons.inj h).1 (ne_of_isDigit hd rfl)
  · next h => exact absurd (List.cons.inj h).1 (ne_of_isDigit hd rfl)
  · rw [readScalar, hword]

/-- A whole number of too many digits goes beyond the limit, whatever comes behind it that is not
part of a number. -/
theorem readNumber_long {d : Char} {more : List Char} (hdigits : ∀ c ∈ d :: more, c.isDigit)
    (hzero : d ≠ '0') (hlong : Text.longestNumber < (d :: more).length)
    (hrest : ∀ c ∈ rest.head?, ¬ c.isDigit ∧ c ∉ ['.', 'e', 'E']) :
    readNumber (d :: more ++ rest) = .error (.excess (.digits (d :: more).length)) := by
  -- the digits end where the rest begins
  have hhead : rest.takeWhile (·.isDigit) = [] ∧ rest.dropWhile (·.isDigit) = rest := by
    cases rest with
    | nil => exact ⟨rfl, rfl⟩
    | cons c rest =>
      have hc := (hrest c rfl).1
      exact ⟨List.takeWhile_cons_of_neg hc, List.dropWhile_cons_of_neg hc⟩
  have hsign : minusSign (d :: more ++ rest) = (false, d :: more ++ rest) := by
    unfold minusSign
    split
    · next h =>
      exact absurd (List.cons.inj h).1 (ne_of_isDigit (hdigits d List.mem_cons_self) rfl)
    · rfl
  have hwhole : wholeDigits (d :: more ++ rest) = (d :: more, rest) := by
    unfold wholeDigits
    split
    · next h => exact absurd (List.cons.inj h).1 hzero
    · rw [List.takeWhile_append_of_pos hdigits, List.dropWhile_append_of_pos hdigits, hhead.1,
        hhead.2, List.append_nil]
  -- what follows is neither a point nor an exponent, so the number is a whole one
  have hfraction : fraction rest = (none, rest) := by
    unfold fraction
    split
    · exact absurd (List.mem_cons_self) (hrest '.' rfl).2
    · rfl
  have hexponent : exponent rest = (none, rest) := by
    cases rest with
    | nil => rfl
    | cons c rest =>
      have hc := (hrest c rfl).2
      simp only [List.mem_cons, not_or] at hc
      simp [exponent, hc]
  simp only [readNumber, hsign, hwhole, hfraction, hexponent, List.isEmpty_cons, if_pos hlong]
  rfl

/-- A text that starts with a whole number of too many digits goes beyond the limit. -/
theorem read_long [Machine] {d : Char} {more : List Char} (hdigits : ∀ c ∈ d :: more, c.isDigit)
    (hzero : d ≠ '0') (hlong : Text.longestNumber < (d :: more).length)
    (hrest : ∀ c ∈ rest.head?, ¬ c.isDigit ∧ c ∉ ['.', 'e', 'E']) :
    read (d :: more ++ rest) = .error (.exceeded (.digits (d :: more).length)) := by
  have hd := hdigits d List.mem_cons_self
  have hspace : skipSpace (d :: (more ++ rest)) = d :: (more ++ rest) := by
    have h {c : Char} (hc : c.isDigit = false) : (d == c) = false :=
      beq_false_of_ne (ne_of_isDigit hd hc)
    exact List.dropWhile_cons_of_neg (by simp [isSpace, h])
  have hmark : ((d :: (more ++ rest)).head? == some '\ufeff') = false :=
    beq_false_of_ne fun h => ne_of_isDigit hd rfl (Option.some.inj h)
  have hnumber := readNumber_long hdigits hzero hlong hrest
  rw [List.cons_append] at hnumber ⊢
  simp only [read, hmark, hspace, readValue_digit hd, hnumber]
  rfl

end Assay.Json

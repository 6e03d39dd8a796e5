import Mathlib.Data.List.Forall2

/-!
# Tasks in a row

A list of tasks that may fail gives the results of all of them, or it fails as the first one that
does. Surveys, gradings and reports are such lists, and so is what workers have to agree with.
-/

namespace Assay

variable {α β ε : Type} {task : α → Except ε β} {item : α} {items : List α} {results : List β}
  {failure : ε}

/-! ## The first task and the others -/

theorem mapM_cons_eq_ok :
    (item :: items).mapM task = .ok results ↔
      ∃ first more, task item = .ok first ∧ items.mapM task = .ok more ∧ results = first :: more := by
  rw [List.mapM_cons]
  cases task item with
  | error => simp [bind, Except.bind]
  | ok first =>
    cases items.mapM task with
    | error => simp [bind, Except.bind]
    | ok more => simp [bind, Except.bind, pure, Except.pure, eq_comm]

theorem mapM_cons_eq_error :
    (item :: items).mapM task = .error failure ↔
      task item = .error failure ∨
        (∃ first, task item = .ok first) ∧ items.mapM task = .error failure := by
  rw [List.mapM_cons]
  cases task item with
  | error => simp [bind, Except.bind]
  | ok first => cases items.mapM task <;> simp [bind, Except.bind, pure, Except.pure]

/-! ## All tasks -/

/-- A list of tasks gives results exactly if each of them does. -/
theorem mapM_eq_ok : items.mapM task = .ok results ↔ items.map task = results.map .ok := by
  induction items generalizing results with
  | nil => cases results <;> simp [pure, Except.pure]
  | cons item items ih =>
    rw [mapM_cons_eq_ok]
    cases results with
    | nil => simp
    | cons first more => simp [ih]

/-- A list of tasks fails as the first one that fails. -/
theorem mapM_eq_error :
    items.mapM task = .error failure ↔
      ∃ before item after, items = before ++ item :: after ∧
        (∀ a ∈ before, ∃ result, task a = .ok result) ∧ task item = .error failure := by
  induction items with
  | nil => simp [pure, Except.pure]
  | cons item items ih =>
    rw [mapM_cons_eq_error, ih]
    constructor
    · rintro (h | ⟨hitem, before, later, after, rfl, hbefore, hlater⟩)
      · exact ⟨[], item, items, rfl, nofun, h⟩
      · exact ⟨item :: before, later, after, rfl, List.forall_mem_cons.2 ⟨hitem, hbefore⟩, hlater⟩
    · rintro ⟨before, later, after, hitems, hbefore, hlater⟩
      cases before with
      | nil =>
        obtain ⟨rfl, -⟩ := List.cons.inj hitems
        exact .inl hlater
      | cons first before =>
        obtain ⟨rfl, rfl⟩ := List.cons.inj hitems
        obtain ⟨hitem, hbefore⟩ := List.forall_mem_cons.1 hbefore
        exact .inr ⟨hitem, before, later, after, rfl, hbefore, hlater⟩

/-- A list of results is there if each result is. -/
theorem mapM_ok (h : items.mapM task = .ok results) :
    List.Forall₂ (fun a b => task a = .ok b) items results := by
  have hpairs : List.Forall₂ Eq (items.map task) (results.map .ok) := by
    rw [List.forall₂_eq_eq_eq]
    exact mapM_eq_ok.1 h
  exact List.forall₂_map_right_iff.1 (List.forall₂_map_left_iff.1 hpairs)

/-- A list of tasks fails as one of them does. -/
theorem mapM_error (h : items.mapM task = .error failure) :
    ∃ a ∈ items, task a = .error failure := by
  obtain ⟨before, a, after, rfl, -, hfails⟩ := mapM_eq_error.1 h
  exact ⟨a, by simp, hfails⟩

/-- Each task of a list that succeeds has its result in the list. -/
theorem mem_of_mapM_ok (h : items.mapM task = .ok results) {a : α} (ha : a ∈ items) :
    ∃ b ∈ results, task a = .ok b := by
  have hpairs := mapM_ok h
  clear h
  induction hpairs with
  | nil => cases ha
  | @cons first result items results hfirst _ ih =>
    rcases List.mem_cons.1 ha with rfl | ha
    · exact ⟨result, List.mem_cons_self .., hfirst⟩
    · obtain ⟨b, hb, hresult⟩ := ih ha
      exact ⟨b, List.mem_cons_of_mem _ hb, hresult⟩

/-! ## Other tasks on the same items -/

/-- A second list of results is there if each result comes with a second one. -/
theorem mapM_transfer {g : α → Except ε β} {R : β → β → Prop} (h : items.mapM task = .ok results)
    (hstep : ∀ a ∈ items, ∀ b, task a = .ok b → ∃ b', g a = .ok b' ∧ R b b') :
    ∃ results', items.mapM g = .ok results' ∧ List.Forall₂ R results results' := by
  have hpairs := mapM_ok h
  clear h
  induction hpairs with
  | nil => exact ⟨[], rfl, .nil⟩
  | @cons a b items results hfirst _ ih =>
    obtain ⟨b', hsecond, hb⟩ := hstep a (by simp) b hfirst
    obtain ⟨results', hmore, hresults⟩ := ih fun c hc => hstep c (by simp [hc])
    exact ⟨b' :: results', mapM_cons_eq_ok.2 ⟨b', results', hsecond, hmore, rfl⟩, .cons hb hresults⟩

/-- Results depend on the items of the list only. -/
theorem mapM_congr {g : α → Except ε β} (h : ∀ a ∈ items, task a = g a) :
    items.mapM task = items.mapM g := by
  induction items with
  | nil => rfl
  | cons a items ih =>
    rw [List.mapM_cons, List.mapM_cons, h a (by simp), ih fun b hb => h b (by simp [hb])]

end Assay

import Assay.Proofs.SurveyMemory
import Mathlib.Data.List.Perm.Subperm

/-!
# Pools of workers

Several workers share the items of a list, and one caller collects the outcomes in the order of the
items. Which worker gets done when is not known, so a `Pool` moves by any `Step` that is possible,
and a `Run` is one way it may go. A `Sound` pool has taken what the task gives on a first part of
the list; every step keeps that (`Step.sound`). Main statements: whatever the order in which the
workers get done, the caller ends with all results or with the failure that stands first in the list
(`Run.answer_eq`), and every run comes to its end (`Run.length_add_left_le`,
`Step.exists_of_not_ended`).
-/

namespace Assay.Workers

variable {α β ε : Type}

/-- Items on their way through a pool, each with its place in the list. -/
structure Pool (α β ε : Type) where
  /-- What no worker has begun, in the order of the items. -/
  waiting : List (α × Nat)
  /-- What workers are busy with, one item each. -/
  running : List (α × Nat)
  /-- The outcomes that are there, the latest first. -/
  finished : List (Except ε β × Nat)
  /-- The results that the caller has taken. -/
  taken : List β
  /-- What the caller ends with, once it does. -/
  answer : Option (Except ε (List β))
  deriving DecidableEq

namespace Pool

/-- A pool that was just given its items. -/
def start (items : List α) : Pool α β ε := ⟨items.zipIdx, [], [], [], none⟩

/-- The caller has its answer and no work is left. -/
def Ended (s : Pool α β ε) : Prop := s.answer.isSome ∧ s.waiting = [] ∧ s.running = []

/-- The places of all items that are not called off. -/
def places (s : Pool α β ε) : List Nat :=
  s.waiting.map Prod.snd ++ (s.running.map Prod.snd ++ s.finished.map Prod.snd)

/-- One thing that can happen next. -/
inductive Step (task : α → Except ε β) (items : List α) (workers : Nat) :
    Pool α β ε → Pool α β ε → Prop
  /-- A free worker begins the item that has waited longest. -/
  | begin {s : Pool α β ε} {next : α × Nat} {waiting : List (α × Nat)}
    (hwaiting : s.waiting = next :: waiting) (hfree : s.running.length < workers) :
    Step task items workers s { s with waiting, running := next :: s.running }
  /-- A busy worker, whichever, gets done. -/
  | finish {s : Pool α β ε} {item : α} {place : Nat} {before after : List (α × Nat)}
    (hrunning : s.running = before ++ (item, place) :: after) :
    Step task items workers s
      { s with running := before ++ after, finished := (task item, place) :: s.finished }
  /-- The caller takes the result whose turn it is. -/
  | take {s : Pool α β ε} {result : β} (hopen : s.answer = none)
    (hturn : (.ok result, s.taken.length) ∈ s.finished) :
    Step task items workers s { s with taken := s.taken ++ [result] }
  /-- The outcome whose turn it is is a failure, and the caller ends with it. -/
  | fail {s : Pool α β ε} {failure : ε} (hopen : s.answer = none)
    (hturn : (.error failure, s.taken.length) ∈ s.finished) :
    Step task items workers s { s with answer := some (.error failure) }
  /-- After a failure, an item that no worker has begun is called off. -/
  | callOff {s : Pool α β ε} {failure : ε} {item : α × Nat} {before after : List (α × Nat)}
    (hfailed : s.answer = some (.error failure)) (hwaiting : s.waiting = before ++ item :: after) :
    Step task items workers s { s with waiting := before ++ after }
  /-- All results are taken, and the caller ends with them. -/
  | close {s : Pool α β ε} (hopen : s.answer = none) (hall : s.taken.length = items.length) :
    Step task items workers s { s with answer := some (.ok s.taken) }

/-- What a pool may have come to after a number of steps. -/
inductive Run (task : α → Except ε β) (items : List α) (workers : Nat) : Nat → Pool α β ε → Prop
  | start : Run task items workers 0 (.start items)
  | step {n : Nat} {s s' : Pool α β ε} (hrun : Run task items workers n s)
    (hstep : Step task items workers s s') : Run task items workers (n + 1) s'

variable {task : α → Except ε β} {items : List α} {workers n : Nat} {s s' : Pool α β ε}

/-! ## What every step keeps -/

/-- A pool whose outcomes are those of the task. -/
structure Sound (task : α → Except ε β) (items : List α) (s : Pool α β ε) : Prop where
  /-- No item is begun twice. -/
  places : s.places.Subperm (List.range items.length)
  /-- No item is lost while the caller has no answer. -/
  complete : s.answer = none → s.places.Perm (List.range items.length)
  waiting : ∀ p ∈ s.waiting, items[p.2]? = some p.1
  running : ∀ p ∈ s.running, items[p.2]? = some p.1
  finished : ∀ p ∈ s.finished, items[p.2]?.map task = some p.1
  /-- What the caller has taken are the results of the first items. -/
  taken : (items.take s.taken.length).map task = s.taken.map .ok
  answer : ∀ answer, s.answer = some answer → answer = items.mapM task

theorem places_start (items : List α) :
    (start items : Pool α β ε).places = List.range items.length := by
  simp [places, start, List.range_eq_range']

/-- A pool is sound as it starts. -/
theorem sound_start (task : α → Except ε β) (items : List α) : (start items).Sound task items where
  places := by rw [places_start]
  complete _ := by rw [places_start]
  waiting := fun p hp => List.mem_zipIdx_iff_getElem?.1 hp
  running := nofun
  finished := nofun
  taken := rfl
  answer := nofun

/-- A step moves items from one stage to another; only a call-off leaves one out. -/
theorem Step.places (h : Step task items workers s s') :
    s'.places.Perm s.places ∨ s'.answer ≠ none ∧ s'.places.Sublist s.places := by
  cases h with
  | @begin next waiting hwaiting _ =>
    left
    simp only [Pool.places, hwaiting, List.map_cons, List.cons_append]
    exact List.perm_middle
  | @finish item place before after hrunning =>
    left
    simp only [Pool.places, hrunning, List.map_cons, List.map_append, List.append_assoc,
      List.cons_append]
    exact (List.perm_middle.append_left _).append_left _
  | take | fail | close => exact .inl (.refl _)
  | @callOff failure item before after hfailed hwaiting =>
    refine .inr ⟨by simp [hfailed], ?_⟩
    simp only [Pool.places, hwaiting, List.map_append, List.map_cons]
    exact ((List.sublist_cons_self ..).append_left _).append_right _

/-- Every outcome is that of an item of the list. -/
theorem Sound.exists_of_finished (h : s.Sound task items) {outcome : Except ε β} {place : Nat}
    (hdone : (outcome, place) ∈ s.finished) :
    ∃ item, items[place]? = some item ∧ task item = outcome :=
  Option.map_eq_some_iff.1 (h.finished _ hdone)

/-- The next result extends the ones that are taken. -/
theorem Sound.take (h : s.Sound task items) {result : β}
    (hturn : (.ok result, s.taken.length) ∈ s.finished) :
    (items.take (s.taken ++ [result]).length).map task = (s.taken ++ [result]).map .ok := by
  obtain ⟨item, hitem, hresult⟩ := h.exists_of_finished hturn
  rw [List.length_append, List.length_singleton, List.take_add_one, hitem]
  simp [h.taken, hresult]

/-- A failure whose turn it is comes first in the list. -/
theorem Sound.fail (h : s.Sound task items) {failure : ε}
    (hturn : (.error failure, s.taken.length) ∈ s.finished) :
    items.mapM task = .error failure := by
  obtain ⟨item, hitem, hfails⟩ := h.exists_of_finished hturn
  obtain ⟨hlt, hget⟩ := List.getElem?_eq_some_iff.1 hitem
  refine mapM_eq_error.2 ⟨items.take s.taken.length, item, items.drop (s.taken.length + 1), ?_, ?_,
    hfails⟩
  · rw [← hget, List.getElem_cons_drop, List.take_append_drop]
  · intro earlier hearlier
    have hmem : task earlier ∈ s.taken.map .ok := h.taken ▸ List.mem_map_of_mem hearlier
    obtain ⟨result, -, hresult⟩ := List.mem_map.1 hmem
    exact ⟨result, hresult.symm⟩

/-- A caller that has taken a result for every item has taken them all. -/
theorem Sound.close (h : s.Sound task items) (hall : s.taken.length = items.length) :
    items.mapM task = .ok s.taken := by
  refine mapM_eq_ok.2 ?_
  rw [← h.taken, hall, List.take_length]

/-- A step keeps a pool sound, whichever it is. -/
theorem Step.sound (hstep : Step task items workers s s') (h : s.Sound task items) :
    s'.Sound task items := by
  -- a step moves places about, or drops some once the pool has answered
  have hplaces : s'.places.Subperm (List.range items.length) := by
    rcases hstep.places with hperm | ⟨-, hsublist⟩
    · exact hperm.subperm.trans h.places
    · exact hsublist.subperm.trans h.places
  -- no step takes an answer back
  have hopen : s'.answer = none → s.answer = none := by
    cases hstep with
    | begin | finish | take | callOff => exact id
    | fail | close => exact nofun
  have hcomplete : s'.answer = none → s'.places.Perm (List.range items.length) := by
    intro hopen'
    rcases hstep.places with hperm | ⟨hanswer, -⟩
    · exact hperm.trans (h.complete (hopen hopen'))
    · exact absurd hopen' hanswer
  -- what waits, runs and is finished stays as it was, but for the place of the step
  cases hstep with
  | begin hwaiting _ =>
    obtain ⟨hnext, hrest⟩ := List.forall_mem_cons.1 (hwaiting ▸ h.waiting)
    exact { h with
      places := hplaces
      complete := hcomplete
      waiting := hrest
      running := List.forall_mem_cons.2 ⟨hnext, h.running⟩ }
  | @finish item place before after hrunning =>
    obtain ⟨hbefore, hrest⟩ := List.forall_mem_append.1 (hrunning ▸ h.running)
    obtain ⟨hitem, hafter⟩ := List.forall_mem_cons.1 hrest
    exact { h with
      places := hplaces
      complete := hcomplete
      running := List.forall_mem_append.2 ⟨hbefore, hafter⟩
      finished := List.forall_mem_cons.2 ⟨by rw [hitem]; rfl, h.finished⟩ }
  | take _ hturn => exact { h with places := hplaces, complete := hcomplete, taken := h.take hturn }
  | fail _ hturn =>
    refine { h with places := hplaces, complete := hcomplete, answer := ?_ }
    rintro _ ⟨⟩
    exact (h.fail hturn).symm
  | @callOff failure item before after _ hwaiting =>
    obtain ⟨hbefore, hrest⟩ := List.forall_mem_append.1 (hwaiting ▸ h.waiting)
    exact { h with
      places := hplaces
      complete := hcomplete
      waiting := List.forall_mem_append.2 ⟨hbefore, (List.forall_mem_cons.1 hrest).2⟩ }
  | close _ hall =>
    refine { h with places := hplaces, complete := hcomplete, answer := ?_ }
    rintro _ ⟨⟩
    exact (h.close hall).symm

/-! ## Every run -/

/-- A pool is sound all along. -/
theorem Run.sound (h : Run task items workers n s) : s.Sound task items := by
  induction h with
  | start => exact sound_start task items
  | step _ hstep ih => exact hstep.sound ih

/-- The caller gets what the tasks give in a row. -/
theorem Run.answer_eq (h : Run task items workers n s) {answer : Except ε (List β)}
    (hanswer : s.answer = some answer) : answer = items.mapM task :=
  h.sound.answer answer hanswer

/-- No item is worked on twice. -/
theorem Run.nodup_finished (h : Run task items workers n s) : (s.finished.map Prod.snd).Nodup := by
  obtain ⟨places, hperm, hsublist⟩ := h.sound.places
  have hplaces : s.places.Nodup := hperm.nodup_iff.1 (hsublist.nodup List.nodup_range)
  exact (List.nodup_append.1 (List.nodup_append.1 hplaces).2.1).2.1

/-! ## Ends -/

/-- The steps that are still possible: an item that waits has two before it, one that is worked on
has one, and so has every result that is not taken and an answer that is not there. -/
def left (items : List α) (s : Pool α β ε) : Nat :=
  2 * s.waiting.length + s.running.length + (items.length - s.taken.length) +
    if s.answer.isNone then 1 else 0

theorem left_start (items : List α) :
    (start items : Pool α β ε).left items = 3 * items.length + 1 := by
  simp [left, start]
  omega

/-- Every step leaves fewer. -/
theorem Step.left_lt (hstep : Step task items workers s s') (h : s.Sound task items) :
    s'.left items < s.left items := by
  cases hstep with
  | begin hwaiting _ =>
    simp only [left, hwaiting, List.length_cons]
    omega
  | finish hrunning =>
    simp only [left, hrunning, List.length_append, List.length_cons]
    omega
  | take hopen hturn =>
    obtain ⟨item, hitem, -⟩ := h.exists_of_finished hturn
    obtain ⟨hlt, -⟩ := List.getElem?_eq_some_iff.1 hitem
    simp only [left, List.length_append, List.length_singleton]
    omega
  | fail hopen _ | close hopen _ => simp [left, hopen]
  | callOff _ hwaiting =>
    simp only [left, hwaiting, List.length_append, List.length_cons]
    omega

/-- A run has only so many steps. -/
theorem Run.length_add_left_le (h : Run task items workers n s) :
    n + s.left items ≤ 3 * items.length + 1 := by
  induction h with
  | start =>
    rw [left_start]
    omega
  | step hrun hstep ih =>
    have hlt := hstep.left_lt hrun.sound
    omega

/-- As long as there is a worker, a pool that has not ended can go on. -/
theorem Step.exists_of_not_ended (hworkers : 1 ≤ workers) (h : s.Sound task items)
    (hopen : ¬ s.Ended) : ∃ s', Step task items workers s s' := by
  cases hrunning : s.running with
  | cons next running =>
    have hfirst : s.running = [] ++ next :: running := hrunning
    exact ⟨_, .finish hfirst⟩
  | nil =>
    cases hwaiting : s.waiting with
    | cons next waiting => exact ⟨_, .begin hwaiting (by rw [hrunning]; exact hworkers)⟩
    | nil =>
      have hanswer : s.answer = none := by
        by_contra hanswer
        exact hopen ⟨Option.isSome_iff_ne_none.2 hanswer, hwaiting, hrunning⟩
      -- every outcome is there, that of the caller's turn among them
      by_cases hturn : s.taken.length < items.length
      · have hmem : s.taken.length ∈ s.places :=
          (h.complete hanswer).mem_iff.2 (List.mem_range.2 hturn)
        simp only [Pool.places, hwaiting, hrunning, List.map_nil, List.nil_append] at hmem
        obtain ⟨⟨outcome, place⟩, hdone, hplace⟩ := List.mem_map.1 hmem
        obtain rfl : place = s.taken.length := hplace
        cases outcome with
        | error failure => exact ⟨_, .fail hanswer hdone⟩
        | ok result => exact ⟨_, .take hanswer hdone⟩
      · have hle : s.taken.length ≤ items.length := by
          have hlength := congrArg List.length h.taken
          simp only [List.length_map, List.length_take] at hlength
          omega
        exact ⟨_, .close hanswer (by omega)⟩

/-- Whatever has happened so far, a pool can come to its end. -/
theorem Run.exists_ended (hworkers : 1 ≤ workers) {n : Nat} {s : Pool α β ε}
    (h : Run task items workers n s) :
    ∃ m s', Run task items workers m s' ∧ s'.Ended := by
  by_cases hended : s.Ended
  · exact ⟨n, s, h, hended⟩
  · obtain ⟨s', hstep⟩ := Step.exists_of_not_ended hworkers h.sound hended
    have hlt := hstep.left_lt h.sound
    exact exists_ended hworkers (h.step hstep)
termination_by s.left items

/-! ## Orders of completion -/

/-- With a worker for every item, all items can be in work at a time. -/
theorem Run.exists_begun (task : α → Except ε β) (hworkers : items.length ≤ workers) {begun : Nat}
    (hbegun : begun ≤ items.length) :
    ∃ n s, Run task items workers n s ∧ s.waiting = items.zipIdx.drop begun ∧
      s.running.length = begun ∧ s.finished = [] ∧ s.answer = none := by
  induction begun with
  | zero => exact ⟨0, _, .start, rfl, rfl, rfl, rfl⟩
  | succ begun ih =>
    obtain ⟨n, s, hrun, hwaiting, hlength, hfinished, hopen⟩ := ih (by omega)
    have hlt : begun < items.zipIdx.length := by
      rw [List.length_zipIdx]
      omega
    rw [List.drop_eq_getElem_cons hlt] at hwaiting
    exact ⟨n + 1, _, hrun.step (.begin hwaiting (by omega)), rfl,
      by rw [List.length_cons, hlength], hfinished, hopen⟩

/-- With a worker for every item, any items can get done first, in any order. -/
theorem Run.exists_order (task : α → Except ε β) (hworkers : items.length ≤ workers)
    {order : List Nat} (horder : order.Nodup) (hplaces : order ⊆ List.range items.length) :
    ∃ n s, Run task items workers n s ∧ s.waiting = [] ∧ s.finished.map Prod.snd = order ∧
      s.answer = none := by
  induction order with
  | nil =>
    obtain ⟨n, s, hrun, hwaiting, -, hfinished, hopen⟩ :=
      exists_begun task hworkers (Nat.le_refl items.length)
    refine ⟨n, s, hrun, ?_, by rw [hfinished]; rfl, hopen⟩
    exact hwaiting.trans (List.drop_eq_nil_of_le (Nat.le_of_eq List.length_zipIdx))
  | cons place order ih =>
    obtain ⟨hnew, hold⟩ := List.nodup_cons.1 horder
    obtain ⟨hplace, hrest⟩ := List.cons_subset.1 hplaces
    obtain ⟨n, s, hrun, hwaiting, hfinished, hopen⟩ := ih hold hrest
    -- the item is still in work: it does not wait, and it is not among those that are done
    have hmem : place ∈ s.places := (hrun.sound.complete hopen).mem_iff.2 hplace
    rw [places, hwaiting, hfinished, List.map_nil, List.nil_append, List.mem_append,
      or_iff_left hnew] at hmem
    obtain ⟨⟨item, _⟩, hitem, rfl⟩ := List.mem_map.1 hmem
    obtain ⟨before, after, hrunning⟩ := List.append_of_mem hitem
    exact ⟨n + 1, _, hrun.step (.finish hrunning), hwaiting,
      by rw [List.map_cons, hfinished], hopen⟩

end Pool

end Assay.Workers

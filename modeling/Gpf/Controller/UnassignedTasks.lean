import Mathlib.Data.List.Pairwise
import Gpf.Controller.TaskLocality

/-!
# Which tasks are unassigned

An id is put among the unassigned ones when its task is submitted to a named engine, and leaves
them when an engine is named for it later. A task which is submitted without an engine, and so
waits for one, is never among them.
-/

namespace Gpf

open Transition

namespace Incoming

/-- The message submits the given task to the task queue, for the given engine if any. -/
def Submits (wire : Wire) (incoming : Incoming) (id : String) (engine : Option ℤ) : Prop :=
  incoming.type = "intask" ∧
    ∃ msg, wire.intask incoming.header = some msg ∧ msg.msgId = id ∧ msg.eid = engine

/-- The message names an engine for the given task: its result or its arrival tells one. -/
def Places (wire : Wire) (incoming : Incoming) (id : String) : Prop :=
  (incoming.type = "outtask" ∧
      ∃ msg, wire.outtask incoming.header = some msg ∧ msg.msgId = id ∧ msg.hasEid = true) ∨
    (incoming.type = "tracktask" ∧ ∃ msg, wire.tracktask incoming.header = some msg ∧ msg.msgId = id)

/-- A message of the task queue. -/
def OfTaskQueue (incoming : Incoming) : Prop :=
  incoming.type = "intask" ∨ incoming.type = "tracktask" ∨ incoming.type = "outtask"

variable {wire : Wire} {m : Incoming} {id : String} {v : TaskView}

/-- A submission is about its task. -/
theorem Submits.taskId? {engine : Option ℤ} (h : m.Submits wire id engine) :
    m.taskId? wire = some id := by
  obtain ⟨htype, msg, hparse, rfl, _⟩ := h
  unfold taskId? action?
  rw [htype]
  simp only [hparse]
  rfl

/-- What a submission has as its effect. -/
theorem Submits.effect {engine : Option ℤ} (h : m.Submits wire id engine) (v : TaskView) :
    (m.effect wire v).record.isSome ∧ (m.effect wire v).pending = true ∧
      (m.effect wire v).unassigned = (v.unassigned || engine.isSome) := by
  obtain ⟨htype, msg, hparse, rfl, rfl⟩ := h
  have haction : ∃ task, m.action? wire = some (.submit task msg.eid.isSome) := by
    unfold action?
    rw [htype]
    simp only [hparse]
    exact ⟨_, rfl⟩
  obtain ⟨task, haction⟩ := haction
  unfold Incoming.effect
  rw [haction]
  cases hrecord : v.record <;> simp [TaskAction.effect, hrecord]

/-- A message which names an engine is a report with one or a move. -/
theorem Places.action? (h : m.Places wire id) :
    (∃ completed started engine, m.action? wire = some (.report id completed started m (some engine))) ∨
      ∃ engine, m.action? wire = some (.move id engine) := by
  rcases h with ⟨htype, msg, hparse, rfl, hengine⟩ | ⟨htype, msg, hparse, rfl⟩
  · left
    unfold Incoming.action?
    rw [htype]
    simp only [hparse, Option.map_some, hengine, if_true]
    exact ⟨_, _, _, rfl⟩
  · right
    unfold Incoming.action?
    rw [htype]
    simp only [hparse]
    exact ⟨_, rfl⟩

/-- A message which names an engine for a task is about that task. -/
theorem Places.taskId? (h : m.Places wire id) : m.taskId? wire = some id := by
  unfold Incoming.taskId?
  rcases h.action? with ⟨_, _, _, haction⟩ | ⟨_, haction⟩
  · rw [haction]
    rfl
  · rw [haction]
    rfl

/-- What naming an engine has as its effect: nothing without a record, else the task is assigned. -/
theorem Places.effect (h : m.Places wire id) (v : TaskView) :
    (m.effect wire v).record.isSome = v.record.isSome ∧
      (m.effect wire v).unassigned = (v.unassigned && v.record.isNone) := by
  unfold Incoming.effect
  rcases h.action? with ⟨_, _, _, haction⟩ | ⟨_, haction⟩
  · rw [haction]
    cases hrecord : v.record <;> simp [TaskAction.effect, hrecord]
  · rw [haction]
    cases hrecord : v.record <;> simp [TaskAction.effect, hrecord]

/-- A message of the task queue about a task submits it or names an engine for it. -/
theorem OfTaskQueue.cases (h : m.OfTaskQueue) (hid : m.taskId? wire = some id) :
    (∃ engine, m.Submits wire id engine) ∨ m.Places wire id := by
  unfold Incoming.taskId? Incoming.action? at hid
  rcases h with htype | htype | htype
  · rw [htype] at hid
    simp only [Option.map_map, Option.map_eq_some_iff] at hid
    obtain ⟨msg, hparse, hmsg⟩ := hid
    exact .inl ⟨msg.eid, htype, msg, hparse, hmsg, rfl⟩
  · rw [htype] at hid
    simp only [Option.map_map, Option.map_eq_some_iff] at hid
    obtain ⟨msg, hparse, hmsg⟩ := hid
    exact .inr (.inr ⟨htype, msg, hparse, hmsg⟩)
  · rw [htype] at hid
    simp only [Option.map_map, Option.map_eq_some_iff] at hid
    obtain ⟨msg, hparse, hmsg⟩ := hid
    exact .inr (.inl ⟨htype, msg, hparse, hmsg, rfl⟩)

/-- No message both submits a task and names an engine for one. -/
theorem Submits.not_places {engine : Option ℤ} {id' : String} (h : m.Submits wire id engine) :
    ¬m.Places wire id' := by
  intro hplaces
  rcases hplaces with ⟨htype, _⟩ | ⟨htype, _⟩ <;>
    exact absurd (h.1.symm.trans htype) (by decide)

end Incoming

/-- Something in a list, after which nothing is of a certain kind, is the last element, or comes before it
and the last one is not of that kind. -/
theorem exists_suffix_concat {α : Type*} {p q : α → Prop} {l : List α} {a : α} :
    (∃ b after, b :: after <:+ l ++ [a] ∧ p b ∧ ∀ c ∈ after, q c) ↔
      p a ∨ q a ∧ ∃ b after, b :: after <:+ l ∧ p b ∧ ∀ c ∈ after, q c := by
  simp only [List.suffix_concat_iff, List.cons_ne_nil, false_or]
  constructor
  · rintro ⟨b, after, ⟨init, heq, hsuffix⟩, hb, hafter⟩
    cases init with
    | nil =>
      simp only [List.nil_append, List.cons.injEq] at heq
      exact .inl (heq.1 ▸ hb)
    | cons b' init =>
      simp only [List.cons_append, List.cons.injEq] at heq
      obtain ⟨rfl, rfl⟩ := heq
      refine .inr ⟨hafter a (by simp), b, init, hsuffix, hb, ?_⟩
      intro c hc
      exact hafter c (List.mem_append_left _ hc)
  · rintro (ha | ⟨ha, b, after, hsuffix, hb, hafter⟩)
    · exact ⟨a, [], ⟨[], rfl, List.nil_suffix⟩, ha, by simp⟩
    · refine ⟨b, after ++ [a], ⟨b :: after, rfl, hsuffix⟩, hb, ?_⟩
      intro c hc
      rcases List.mem_append.mp hc with hold | hnew
      · exact hafter c hold
      · rw [List.mem_singleton.mp hnew]
        exact ha

/-- What the messages of the task queue make of one task, in terms of the messages alone. -/
structure TaskView.Summarizes (wire : Wire) (messages : List Incoming) (id : String) (v : TaskView) :
    Prop where
  record : v.record.isSome ↔ ∃ m ∈ messages, ∃ engine, m.Submits wire id engine
  pending : (∃ m ∈ messages, ∃ engine, m.Submits wire id engine) →
    (∀ m ∈ messages, ¬m.Places wire id) → v.pending = true
  unassigned : v.unassigned = true ↔ ∃ m after, m :: after <:+ messages ∧
    (∃ engine, m.Submits wire id (some engine)) ∧ ∀ m' ∈ after, ¬m'.Places wire id

namespace TaskView.Summarizes

variable {wire : Wire} {messages : List Incoming} {m : Incoming} {id : String} {v : TaskView}

/-- A submission of the task. -/
theorem submits (h : Summarizes wire messages id v) {engine : Option ℤ}
    (hm : m.Submits wire id engine) : Summarizes wire (messages ++ [m]) id (m.effect wire v) where
  record := by
    apply iff_of_true (hm.effect v).1
    exact ⟨m, by simp, engine, hm⟩
  pending _ _ := (hm.effect v).2.1
  unassigned := by
    rw [(hm.effect v).2.2, Bool.or_eq_true, h.unassigned, exists_suffix_concat,
      and_iff_right hm.not_places, or_comm]
    apply or_congr_left
    constructor
    · intro hsome
      obtain ⟨eid, rfl⟩ := Option.isSome_iff_exists.mp hsome
      exact ⟨eid, hm⟩
    · intro hexists
      obtain ⟨eid, _, msg, hparse, _, heid⟩ := hexists
      obtain ⟨_, msg', hparse', _, rfl⟩ := hm
      rw [Option.some.inj (hparse'.symm.trans hparse), heid]
      rfl

/-- A message which names an engine for the task. -/
theorem places (h : Summarizes wire messages id v) (hm : m.Places wire id) :
    Summarizes wire (messages ++ [m]) id (m.effect wire v) where
  record := by
    rw [(hm.effect v).1, h.record]
    constructor
    · intro hexists
      obtain ⟨m', hm', hsubmits⟩ := hexists
      exact ⟨m', List.mem_append_left _ hm', hsubmits⟩
    · intro hexists
      obtain ⟨m', hm', engine, hsubmits⟩ := hexists
      rcases List.mem_append.mp hm' with hold | hnew
      · exact ⟨m', hold, engine, hsubmits⟩
      · rw [List.mem_singleton.mp hnew] at hsubmits
        exact absurd hm hsubmits.not_places
  pending _ hnone := absurd hm (hnone m (by simp))
  unassigned := by
    rw [(hm.effect v).2, exists_suffix_concat]
    apply iff_of_false
    · intro hboth
      rw [Bool.and_eq_true, h.unassigned] at hboth
      obtain ⟨⟨m', after, hsuffix, ⟨engine, hsubmits⟩, _⟩, hnone⟩ := hboth
      have hrecord := h.record.mpr ⟨m', hsuffix.subset List.mem_cons_self, _, hsubmits⟩
      rw [Option.isNone_iff_eq_none.mp hnone] at hrecord
      cases hrecord
    · intro hcase
      rcases hcase with ⟨engine, hsubmits⟩ | ⟨hplaces, _⟩
      · exact hsubmits.not_places hm
      · exact hplaces hm

/-- A message which is about another task. -/
theorem other (h : Summarizes wire messages id v) (hsubmits : ∀ engine, ¬m.Submits wire id engine)
    (hplaces : ¬m.Places wire id) : Summarizes wire (messages ++ [m]) id v where
  record := by
    rw [h.record]
    simp [hsubmits]
  pending := by
    intro hexists hnone
    apply h.pending
    · simpa [hsubmits] using hexists
    · intro m' hm'
      exact hnone m' (List.mem_append_left _ hm')
  unassigned := by
    rw [h.unassigned, exists_suffix_concat, or_iff_right fun hexists => ?_, and_iff_right hplaces]
    obtain ⟨engine, hm⟩ := hexists
    exact hsubmits _ hm

variable {t : TaskTracker}

/-- An unassigned task was submitted with an engine, and since then none has been named for it. -/
theorem mem_unassigned (h : Summarizes wire messages id (t.view id)) :
    id ∈ t.unassigned ↔ ∃ m after, m :: after <:+ messages ∧
      (∃ engine, m.Submits wire id (some engine)) ∧ ∀ m' ∈ after, ¬m'.Places wire id := by
  rw [← h.unassigned, TaskTracker.view, decide_eq_true_eq]

/-- A task for which no engine has been named is pending. -/
theorem waits_iff (h : Summarizes wire messages id (t.view id)) :
    ((∃ m ∈ messages, m.Submits wire id none) ∧ id ∈ t.pending ∧ ∀ m ∈ messages, ¬m.Places wire id) ↔
      (∃ m ∈ messages, m.Submits wire id none) ∧ ∀ m ∈ messages, ¬m.Places wire id := by
  apply and_congr_right
  intro hexists
  obtain ⟨m, hm, hsubmits⟩ := hexists
  apply and_iff_right_of_imp
  intro hnone
  exact of_decide_eq_true (h.pending ⟨m, hm, none, hsubmits⟩ hnone)

end TaskView.Summarizes

/-- What is held of a task after messages of the task queue is what the messages tell of it. -/
theorem summarizes_foldl {wire : Wire} {messages : List Incoming}
    (hqueue : ∀ m ∈ messages, m.OfTaskQueue) (id : String) :
    TaskView.Summarizes wire messages id
      ((labelsAt (Incoming.taskId? wire) id messages).foldl (fun v m => m.effect wire v) {}) := by
  induction messages using List.reverseRecOn with
  | nil =>
    refine ⟨?_, ?_, ?_⟩
    · simp [labelsAt]
    · simp
    · simp [labelsAt]
  | append_singleton messages m ih =>
    have hbefore := ih fun m' hm' => hqueue m' (List.mem_append_left _ hm')
    by_cases hid : m.taskId? wire = some id
    · have hlabels : labelsAt (Incoming.taskId? wire) id (messages ++ [m]) =
          labelsAt (Incoming.taskId? wire) id messages ++ [m] := by
        simp [labelsAt, hid]
      rw [hlabels, List.foldl_append]
      rcases (hqueue m (by simp)).cases hid with ⟨engine, hsubmits⟩ | hplaces
      · exact hbefore.submits hsubmits
      · exact hbefore.places hplaces
    · have hlabels : labelsAt (Incoming.taskId? wire) id (messages ++ [m]) =
          labelsAt (Incoming.taskId? wire) id messages := by
        simp [labelsAt, hid]
      rw [hlabels]
      apply hbefore.other
      · intro engine hsubmits
        exact hid hsubmits.taskId?
      · intro hplaces
        exact hid hplaces.taskId?

/-- The unassigned ids are exactly those of the tasks which wait for an engine: submitted without one,
still pending, and not placed by any message. -/
def UnassignedExact (wire : Wire) (messages : List Incoming) (t : TaskTracker) : Prop :=
  ∀ id, id ∈ t.unassigned ↔ (∃ m ∈ messages, m.Submits wire id none) ∧ id ∈ t.pending ∧
    ∀ m ∈ messages, ¬m.Places wire id

/-- An engine is named for every task: after its submission if that already named one, and anywhere in the
messages if it did not. -/
def EveryTaskPlaced (wire : Wire) (messages : List Incoming) : Prop :=
  (∀ m after id engine, m :: after <:+ messages → m.Submits wire id (some engine) →
      ∃ m' ∈ after, m'.Places wire id) ∧
    ∀ m ∈ messages, ∀ id, m.Submits wire id none → ∃ m' ∈ messages, m'.Places wire id

/-- Submissions of distinct ids do not submit one task both with and without an engine. -/
theorem submits_unique {wire : Wire} {messages : List Incoming} {m m' : Incoming} {id : String}
    (hdistinct : (messages.filterMap (Incoming.submits? wire)).Nodup) (hm : m ∈ messages)
    (hm' : m' ∈ messages) {engine : ℤ} (hsome : m.Submits wire id (some engine))
    (hnone : m'.Submits wire id none) : False := by
  have hsubmits : ∀ {m : Incoming} {engine : Option ℤ}, m.Submits wire id engine →
      m.submits? wire = some id := by
    intro m engine h
    obtain ⟨htype, msg, hparse, rfl, _⟩ := h
    unfold Incoming.submits?
    rw [htype]
    simp only [hparse]
    rfl
  have hne : m ≠ m' := by
    intro heq
    subst heq
    obtain ⟨_, msg, hparse, _, heid⟩ := hsome
    obtain ⟨_, msg', hparse', _, heid'⟩ := hnone
    rw [← Option.some.inj (hparse.symm.trans hparse'), heid] at heid'
    cases heid'
  have hpairwise := List.pairwise_filterMap.mp hdistinct
  have : Std.Symm fun a b : Incoming =>
      ∀ x, a.submits? wire = some x → ∀ y, b.submits? wire = some y → x ≠ y :=
    ⟨fun a b hab y hy x hx => (hab x hx y hy).symm⟩
  exact hpairwise.forall hm hm' hne id (hsubmits hsome) id (hsubmits hnone) rfl

/-- From the empty tracker, messages of the task queue with timestamps that parse and distinct submitted
ids leave exactly the waiting tasks unassigned, exactly when an engine is named for every task. -/
theorem unassigned_exact_iff {wire : Wire} {messages : List Incoming}
    (hqueue : ∀ m ∈ messages, m.OfTaskQueue) (htimed : ∀ m ∈ messages, m.Timed wire)
    (hdistinct : (messages.filterMap (Incoming.submits? wire)).Nodup) :
    ∃ t, TaskTracker.handleAll wire {} messages = some t ∧
      (UnassignedExact wire messages t ↔ EveryTaskPlaced wire messages) := by
  obtain ⟨t, ht, hrun⟩ := TaskTracker.exists_handleAll {} htimed
  have hview : ∀ id, TaskView.Summarizes wire messages id (t.view id) := by
    intro id
    rw [hrun.component (TaskTracker.view_monitored wire) id]
    exact summarizes_foldl hqueue id
  refine ⟨t, ht, ?_⟩
  constructor
  · -- a task on either side would have been submitted both with an engine and without one
    intro hexact
    constructor
    · intro m after id engine hsuffix hsubmits
      by_contra hno
      have hnone : ∀ m' ∈ after, ¬m'.Places wire id := fun m' hm' hplaces => hno ⟨m', hm', hplaces⟩
      have hid := (hview id).mem_unassigned.mpr ⟨m, after, hsuffix, ⟨engine, hsubmits⟩, hnone⟩
      obtain ⟨⟨m', hm', hfree⟩, _⟩ := (hexact id).mp hid
      exact submits_unique hdistinct (hsuffix.subset List.mem_cons_self) hm' hsubmits hfree
    · intro m hm id hsubmits
      by_contra hno
      have hnone : ∀ m' ∈ messages, ¬m'.Places wire id := fun m' hm' hplaces =>
        hno ⟨m', hm', hplaces⟩
      have hid := (hexact id).mpr ((hview id).waits_iff.mpr ⟨⟨m, hm, hsubmits⟩, hnone⟩)
      obtain ⟨m', after, hsuffix, ⟨engine, hbound⟩, _⟩ := (hview id).mem_unassigned.mp hid
      exact submits_unique hdistinct (hsuffix.subset List.mem_cons_self) hm hbound hsubmits
  · intro hplaced id
    obtain ⟨hbound, hfree⟩ := hplaced
    rw [(hview id).mem_unassigned, (hview id).waits_iff]
    apply iff_of_false
    · intro hexists
      obtain ⟨m, after, hsuffix, ⟨engine, hsubmits⟩, hnone⟩ := hexists
      obtain ⟨m', hm', hplaces⟩ := hbound m after id engine hsuffix hsubmits
      exact hnone m' hm' hplaces
    · intro hboth
      obtain ⟨⟨m, hm, hsubmits⟩, hnone⟩ := hboth
      obtain ⟨m', hm', hplaces⟩ := hfree m hm id hsubmits
      exact hnone m' hm' hplaces

/-- A task which is submitted without an engine waits for one, and is not unassigned. -/
theorem free_task_not_unassigned :
    ∃ t, TaskTracker.handleAll .taskQueue {} [.taskFree] = some t ∧
      ¬UnassignedExact .taskQueue [.taskFree] t := by
  obtain ⟨t, ht, hcheck⟩ := (Option.any_eq_true _ _).mp
    (show (TaskTracker.handleAll .taskQueue {} [.taskFree]).any (fun t =>
      decide ("t" ∉ t.unassigned ∧ "t" ∈ t.pending)) = true by decide)
  obtain ⟨hunassigned, hpending⟩ := of_decide_eq_true hcheck
  refine ⟨t, ht, fun hexact => hunassigned ((hexact "t").mpr ⟨?_, hpending, ?_⟩)⟩
  · exact ⟨.taskFree, List.mem_singleton_self _, rfl, _, rfl, rfl, rfl⟩
  · intro m hm hplaces
    rw [List.mem_singleton.mp hm] at hplaces
    rcases hplaces with ⟨htype, _⟩ | ⟨htype, _⟩
    · exact absurd htype (by decide)
    · exact absurd htype (by decide)

/-- The law for a free task, a bound one, and the arrival of the free one on an engine. -/
theorem unassigned_exact_taskQueue :
    ∃ t, TaskTracker.handleAll .taskQueue {} [.taskFree, .taskBound, .taskArrives] = some t ∧
      (UnassignedExact .taskQueue [.taskFree, .taskBound, .taskArrives] t ↔
        EveryTaskPlaced .taskQueue [.taskFree, .taskBound, .taskArrives]) := by
  apply unassigned_exact_iff
  · intro m hm
    simp only [List.mem_cons, List.not_mem_nil, or_false] at hm
    rcases hm with rfl | rfl | rfl
    · exact .inl rfl
    · exact .inl rfl
    · exact .inr (.inl rfl)
  · intro m hm
    exact Incoming.timed_taskQueue hm
  · have hids : [Incoming.taskFree, .taskBound, .taskArrives].filterMap (Incoming.submits? .taskQueue) =
        ["t", "u"] := rfl
    rw [hids]
    decide

end Gpf

import Mathlib.Data.List.Basic

/-!
# Labelled runs and conditions on their steps

A system is a relation `step : σ → ε → σ → Prop`. A run follows a list of labels, one step
each. `Throughout` asks something of every step that such a list can take, and `Always` asks
something of every state. The rules below turn facts about one step into facts about whole
runs, with or without a condition on the steps.
-/

namespace Transition

variable {σ ε : Type*} {step : σ → ε → σ → Prop}

/-- A finite run which takes one step for each label. -/
inductive Run (step : σ → ε → σ → Prop) : σ → List ε → σ → Prop
  | nil (s : σ) : Run step s [] s
  | cons {s t u : σ} {e : ε} {es : List ε} :
      step s e t → Run step t es u → Run step s (e :: es) u

/-- The states that some run reaches from the start. -/
def Reachable (step : σ → ε → σ → Prop) (start s : σ) : Prop := ∃ es, Run step start es s

/-- Every step that the labels can take from the start satisfies the given condition. -/
def Throughout (step : σ → ε → σ → Prop) (cond : σ → ε → σ → Prop) : σ → List ε → Prop
  | _, [] => True
  | s, e :: es => ∀ t, step s e t → cond s e t ∧ Throughout step cond t es

/-- Every state that the labels can reach, the start included, satisfies the property. -/
def Always (step : σ → ε → σ → Prop) (prop : σ → Prop) (s : σ) (es : List ε) : Prop :=
  prop s ∧ Throughout step (fun _ _ t => prop t) s es

/-- A single step is a run of length one. -/
theorem Run.single {s t : σ} {e : ε} (h : step s e t) : Run step s [e] t := .cons h (.nil t)

/-- Runs compose, and so do their labels. -/
theorem Run.append {s t u : σ} {es fs : List ε} (hfirst : Run step s es t)
    (hsecond : Run step t fs u) : Run step s (es ++ fs) u := by
  induction hfirst with
  | nil _ => exact hsecond
  | cons hstep _ ih => exact .cons hstep (ih hsecond)

/-- What a run reaches from a reachable state is reachable. -/
theorem Reachable.extend {start s t : σ} {es : List ε} (h : Reachable step start s)
    (hrun : Run step s es t) : Reachable step start t := by
  obtain ⟨before, hbefore⟩ := h
  exact ⟨before ++ es, hbefore.append hrun⟩

/-- A run of a system whose steps are steps of another is a run of the other. -/
theorem Run.imp {other : σ → ε → σ → Prop} (himp : ∀ s e t, step s e t → other s e t) {s t : σ} {es : List ε}
    (hrun : Run step s es t) : Run other s es t := by
  induction hrun with
  | nil s => exact .nil s
  | cons hstep _ ih => exact .cons (himp _ _ _ hstep) ih

/-- A run whose steps are those of other labels is a run along these. -/
theorem Run.map_labels {δ : Type*} {f : δ → ε} {s t : σ} {ds : List δ}
    (hrun : Run (fun s d t => step s (f d) t) s ds t) : Run step s (ds.map f) t := by
  induction hrun with
  | nil s => exact .nil s
  | cons hstep _ ih => exact .cons hstep ih

/-- Where the next state can be computed, so can the end of a run, and what is computed of it holds at
the end of a run. -/
theorem exists_run {next : σ → ε → Option σ} (hnext : ∀ s e t, next s e = some t → step s e t)
    (s : σ) (es : List ε) (P : σ → Prop) [DecidablePred P]
    (h : (es.foldlM next s).any (fun t => decide (P t)) = true) : ∃ t, Run step s es t ∧ P t := by
  obtain ⟨t, hrun, ht⟩ := (Option.any_eq_true _ _).mp h
  refine ⟨t, ?_, of_decide_eq_true ht⟩
  clear h ht
  induction es generalizing s with
  | nil =>
    cases hrun
    exact .nil _
  | cons e es ih =>
    obtain ⟨mid, hstep, hrest⟩ := Option.bind_eq_some_iff.mp hrun
    exact .cons (hnext s e mid hstep) (ih mid hrest)

/-- Where every step is the computed one, the end of a run is what is computed along its labels. -/
theorem Run.foldlM {next : σ → ε → Option σ} (hnext : ∀ s e t, step s e t → next s e = some t)
    {s t : σ} {es : List ε} (hrun : Run step s es t) : es.foldlM next s = some t := by
  induction hrun with
  | nil s => rfl
  | cons hstep _ ih =>
    rw [List.foldlM_cons, hnext _ _ _ hstep]
    exact ih

/-- Every label of a run is that of one of its steps. -/
theorem Run.exists_step {s t : σ} {es : List ε} (hrun : Run step s es t) {e : ε} (he : e ∈ es) :
    ∃ u v, step u e v := by
  induction hrun with
  | nil s => exact absurd he List.not_mem_nil
  | @cons s mid t e' es hstep _ ih =>
    rcases List.mem_cons.mp he with rfl | hrest
    · exact ⟨s, mid, hstep⟩
    · exact ih hrest

/-- A property which every step preserves holds at the end of every run. -/
theorem Run.preserves (inv : σ → Prop) (hstep : ∀ s e t, inv s → step s e t → inv t)
    {s t : σ} {es : List ε} (hrun : Run step s es t) (hs : inv s) : inv t := by
  induction hrun with
  | nil _ => exact hs
  | cons h _ ih => exact ih (hstep _ _ _ hs h)

/-- A property which every step with a good label preserves holds at the end of every run whose labels
are good. -/
theorem Run.preserves_of_forall (inv : σ → Prop) {good : ε → Prop}
    (hstep : ∀ s e t, good e → inv s → step s e t → inv t) {s t : σ} {es : List ε}
    (hrun : Run step s es t) (hes : ∀ e ∈ es, good e) (hs : inv s) : inv t := by
  induction hrun with
  | nil _ => exact hs
  | cons h _ ih =>
    rw [List.forall_mem_cons] at hes
    exact ih hes.2 (hstep _ _ _ hes.1 hs h)

/-- A property of states and of the labels that led to them, which every step keeps when its label is
added, holds at the end of every run with the labels of the run. -/
theorem Run.history (inv : List ε → σ → Prop)
    (hstep : ∀ es s e t, inv es s → step s e t → inv (es ++ [e]) t)
    {s t : σ} {es fs : List ε} (hrun : Run step s fs t) (hs : inv es s) : inv (es ++ fs) t := by
  induction hrun generalizing es with
  | nil s =>
    rw [List.append_nil]
    exact hs
  | cons h _ ih =>
    rw [List.append_cons]
    exact ih (hstep _ _ _ _ hs h)

/-- An initial property which every step preserves holds in every reachable state. -/
theorem Reachable.preserves (inv : σ → Prop) {start s : σ} (hstart : inv start)
    (hstep : ∀ s e t, inv s → step s e t → inv t) (h : Reachable step start s) : inv s := by
  obtain ⟨es, hrun⟩ := h
  exact hrun.preserves inv hstep hstart

/-- A property which every step from a reachable state preserves holds at the end of a run from one. -/
theorem Reachable.along (inv : σ → Prop) {start s t : σ} {es : List ε}
    (hstep : ∀ s e t, Reachable step start s → inv s → step s e t → inv t)
    (hreach : Reachable step start s) (hrun : Run step s es t) (hs : inv s) : inv t := by
  induction hrun with
  | nil _ => exact hs
  | cons h _ ih => exact ih (hreach.extend (.single h)) (hstep _ _ _ hreach hs h)

/-- An initial property which every step from a reachable state preserves holds in every reachable state. -/
theorem Reachable.induct (inv : σ → Prop) {start s : σ} (hstart : inv start)
    (hstep : ∀ s e t, Reachable step start s → inv s → step s e t → inv t)
    (h : Reachable step start s) : inv s := by
  obtain ⟨es, hrun⟩ := h
  exact Reachable.along inv hstep ⟨[], .nil start⟩ hrun hstart

/-- Something that does not hold at the start and holds at the end of a run began to hold in one of its
steps, and that step met the condition which steps must meet to bring it about. -/
theorem Run.occurred (inv mark : σ → Prop) {cond : σ → ε → σ → Prop}
    (hinv : ∀ s e t, inv s → step s e t → inv t)
    (hmark : ∀ s e t, inv s → step s e t → ¬mark s → mark t → cond s e t)
    {start u : σ} {es : List ε} (hrun : Run step start es u) (hstart : inv start)
    (hbefore : ¬mark start) (hafter : mark u) :
    ∃ first e rest s t, es = first ++ e :: rest ∧ Run step start first s ∧ step s e t ∧
      Run step t rest u ∧ ¬mark s ∧ cond s e t := by
  induction hrun with
  | nil s => exact absurd hafter hbefore
  | @cons s t u e es hstep hrest ih =>
    by_cases ht : mark t
    · exact ⟨[], e, es, s, t, rfl, .nil s, hstep, hrest, hbefore, hmark s e t hstart hstep hbefore ht⟩
    · obtain ⟨first, e', rest, s', t', rfl, hfirst, hrun⟩ := ih (hinv s e t hstart hstep) ht hafter
      exact ⟨e :: first, e', rest, s', t', rfl, .cons hstep hfirst, hrun⟩

/-- A run whose steps all meet a condition on their labels is one of the restricted steps, and the other way
round. -/
theorem Run.restrict_iff {good : ε → Prop} {s t : σ} {es : List ε} :
    Run (fun s e t => step s e t ∧ good e) s es t ↔ Run step s es t ∧ ∀ e ∈ es, good e := by
  constructor
  · intro hrun
    induction hrun with
    | nil s => exact ⟨.nil s, fun _ h => absurd h List.not_mem_nil⟩
    | cons h _ ih => exact ⟨.cons h.1 ih.1, List.forall_mem_cons.mpr ⟨h.2, ih.2⟩⟩
  · intro hboth
    obtain ⟨hrun, hes⟩ := hboth
    induction hrun with
    | nil s => exact .nil s
    | cons h _ ih =>
      rw [List.forall_mem_cons] at hes
      exact .cons ⟨h, hes.1⟩ (ih hes.2)

/-- Something that a step brings about, or leaves as it was unless it undoes it, and that does not hold at
the start, holds at the end of a run exactly if some step has brought it about and none has undone it
since. -/
theorem Run.standing (inv mark : σ → Prop) {made undone : σ → ε → Prop}
    (hinv : ∀ s e t, inv s → step s e t → inv t)
    (hmark : ∀ s e t, inv s → step s e t → (mark t ↔ mark s ∧ ¬undone s e ∨ made s e))
    {start u : σ} {es : List ε} (hrun : Run step start es u) (hstart : inv start)
    (hnone : ¬mark start) :
    mark u ↔ ∃ first e rest s t, es = first ++ e :: rest ∧ Run step start first s ∧ step s e t ∧
      Run (fun s e t => step s e t ∧ ¬undone s e) t rest u ∧ made s e := by
  constructor
  · intro hu
    -- the last step which brings it about, looking from the front: either it still holds or it comes later
    have hlast : mark start ∧ Run (fun s e t => step s e t ∧ ¬undone s e) start es u ∨
        ∃ first e rest s t, es = first ++ e :: rest ∧ Run step start first s ∧ step s e t ∧
          Run (fun s e t => step s e t ∧ ¬undone s e) t rest u ∧ made s e := by
      clear hnone
      induction hrun with
      | nil s => exact .inl ⟨hu, .nil s⟩
      | @cons s t u e es hstep hrest ih =>
        rcases ih (hinv s e t hstart hstep) hu with ⟨ht, hkeeps⟩ | hlater
        · rcases (hmark s e t hstart hstep).mp ht with ⟨hs, he⟩ | hmade
          · exact .inl ⟨hs, .cons ⟨hstep, he⟩ hkeeps⟩
          · exact .inr ⟨[], e, es, s, t, rfl, .nil s, hstep, hkeeps, hmade⟩
        · obtain ⟨first, d, rest, v, w, rfl, hfirst, hmid⟩ := hlater
          exact .inr ⟨e :: first, d, rest, v, w, rfl, .cons hstep hfirst, hmid⟩
    exact hlast.resolve_left fun h => hnone h.1
  · intro hexists
    obtain ⟨first, e, rest, s, t, rfl, hfirst, hstep, hrest, hmade⟩ := hexists
    have hs := hfirst.preserves inv hinv hstart
    have ht := (hmark s e t hs hstep).mpr (.inr hmade)
    have hboth : inv u ∧ mark u := by
      apply hrest.preserves (fun s => inv s ∧ mark s) _ ⟨hinv s e t hs hstep, ht⟩
      intro s e t hmid h
      exact ⟨hinv s e t hmid.1 h.1, (hmark s e t hmid.1 h.1).mpr (.inl ⟨hmid.2, h.2⟩)⟩
    exact hboth.2

/-- The same where it depends only on the label whether a step undoes it. -/
theorem Run.inertia (inv mark : σ → Prop) {made : σ → ε → Prop} {undone : ε → Prop}
    (hinv : ∀ s e t, inv s → step s e t → inv t)
    (hmark : ∀ s e t, inv s → step s e t → (mark t ↔ mark s ∧ ¬undone e ∨ made s e))
    {start u : σ} {es : List ε} (hrun : Run step start es u) (hstart : inv start)
    (hnone : ¬mark start) :
    mark u ↔ ∃ first e rest s t, es = first ++ e :: rest ∧ Run step start first s ∧ step s e t ∧
      Run step t rest u ∧ made s e ∧ ∀ d ∈ rest, ¬undone d := by
  rw [hrun.standing inv mark hinv hmark hstart hnone]
  simp only [Run.restrict_iff, and_comm, and_left_comm]

/-- Along a run in which nothing drops it, something that is there becomes what the labels make of it. -/
theorem Run.changes {V : Type*} (inv : σ → Prop) {value : σ → Option V} {change : ε → V → V}
    {dropped : σ → ε → Prop} (hinv : ∀ s e t, inv s → step s e t → inv t)
    (hkept : ∀ s e t v, inv s → step s e t → value s = some v → ¬dropped s e → value t = some (change e v))
    {start u : σ} {es : List ε} (hrun : Run (fun s e t => step s e t ∧ ¬dropped s e) start es u)
    (hstart : inv start) {v : V} (hv : value start = some v) :
    value u = some (es.foldl (fun v e => change e v) v) := by
  induction hrun generalizing v with
  | nil s => exact hv
  | cons h _ ih => exact ih (hinv _ _ _ hstart h.1) (hkept _ _ _ _ hstart h.1 hv h.2)

/-- Something that a step can bring about, change or drop, and that is not there at the start, is at the
end of a run what the labels have made of it since it was last brought about, if nothing has dropped it
since. -/
theorem Run.lineage {V : Type*} (inv : σ → Prop) {value : σ → Option V} {birth : σ → ε → Option V}
    {change : ε → V → V} {dropped : σ → ε → Prop} (hinv : ∀ s e t, inv s → step s e t → inv t)
    (hborn : ∀ s e t, inv s → step s e t → value s = none → value t = birth s e)
    (hkept : ∀ s e t v, inv s → step s e t → value s = some v → ¬dropped s e → value t = some (change e v))
    (hdropped : ∀ s e t, inv s → step s e t → dropped s e → value t = none)
    {start u : σ} {es : List ε} (hrun : Run step start es u) (hstart : inv start)
    (hnone : value start = none) (v : V) :
    value u = some v ↔ ∃ first e rest s t w, es = first ++ e :: rest ∧ Run step start first s ∧
      step s e t ∧ Run (fun s e t => step s e t ∧ ¬dropped s e) t rest u ∧ value s = none ∧
      birth s e = some w ∧ rest.foldl (fun v e => change e v) w = v := by
  constructor
  · intro hu
    -- looking from the front, what is there at the end has been there all along or is brought about later
    have hlast : (∃ w, value start = some w ∧ Run (fun s e t => step s e t ∧ ¬dropped s e) start es u ∧
          es.foldl (fun v e => change e v) w = v) ∨
        ∃ first e rest s t w, es = first ++ e :: rest ∧ Run step start first s ∧
          step s e t ∧ Run (fun s e t => step s e t ∧ ¬dropped s e) t rest u ∧ value s = none ∧
          birth s e = some w ∧ rest.foldl (fun v e => change e v) w = v := by
      clear hnone
      induction hrun with
      | nil s => exact .inl ⟨v, hu, .nil s, rfl⟩
      | @cons s t u e es hstep hrest ih =>
        rcases ih (hinv s e t hstart hstep) hu with ⟨w, ht, hkeeps, hfold⟩ | hlater
        · cases hs : value s with
          | none =>
            rw [hborn s e t hstart hstep hs] at ht
            exact .inr ⟨[], e, es, s, t, w, rfl, .nil s, hstep, hkeeps, hs, ht, hfold⟩
          | some old =>
            have hstays : ¬dropped s e := by
              intro hdrop
              rw [hdropped s e t hstart hstep hdrop] at ht
              cases ht
            cases ht.symm.trans (hkept s e t old hstart hstep hs hstays)
            exact .inl ⟨old, rfl, .cons ⟨hstep, hstays⟩ hkeeps, hfold⟩
        · obtain ⟨first, d, rest, a, b, w, rfl, hfirst, hmid⟩ := hlater
          exact .inr ⟨e :: first, d, rest, a, b, w, rfl, .cons hstep hfirst, hmid⟩
    apply hlast.resolve_left
    intro hthere
    obtain ⟨w, hw, _⟩ := hthere
    rw [hnone] at hw
    cases hw
  · intro hexists
    obtain ⟨first, e, rest, s, t, w, rfl, hfirst, hstep, hrest, hs, hbirth, rfl⟩ := hexists
    have hinvs := hfirst.preserves inv hinv hstart
    have ht := (hborn s e t hinvs hstep hs).trans hbirth
    exact hrest.changes inv hinv hkept (hinv s e t hinvs hstep) ht

/-- Simulation: if every step of one system is matched by a run of another between the views of its
states, then so is every run. -/
theorem Run.simulate {τ δ : Type*} {other : τ → δ → τ → Prop} {view : σ → τ}
    (hstep : ∀ s e t, step s e t → ∃ ds, Run other (view s) ds (view t))
    {s t : σ} {es : List ε} (hrun : Run step s es t) : ∃ ds, Run other (view s) ds (view t) := by
  induction hrun with
  | nil s => exact ⟨[], .nil _⟩
  | cons h _ ih =>
    obtain ⟨first, hfirst⟩ := hstep _ _ _ h
    obtain ⟨rest, hrest⟩ := ih
    exact ⟨first ++ rest, hfirst.append hrest⟩

/-- A move along an optional label: one step, or none at all. -/
def Moves (step : σ → ε → σ → Prop) (s : σ) : Option ε → σ → Prop
  | none, t => t = s
  | some e, t => step s e t

/-- Projection: if every step of a system moves the view of its state along what the label shows of it, then
every run, viewed, is a run along what the labels show. -/
theorem Run.filterMap {τ δ : Type*} {other : τ → δ → τ → Prop} {view : σ → τ} {label : ε → Option δ}
    {good : ε → Prop} (hstep : ∀ s e t, good e → step s e t → Moves other (view s) (label e) (view t))
    {s t : σ} {es : List ε} (hrun : Run step s es t) (hes : ∀ e ∈ es, good e) :
    Run other (view s) (es.filterMap label) (view t) := by
  induction hrun with
  | nil s => exact .nil _
  | @cons s mid t e es h _ ih =>
    rw [List.forall_mem_cons] at hes
    have hmoves := hstep s e mid hes.1 h
    have hrest := ih hes.2
    cases hlabel : label e with
    | none =>
      rw [hlabel] at hmoves
      rw [List.filterMap_cons_none hlabel, ← show view mid = view s from hmoves]
      exact hrest
    | some d =>
      rw [hlabel] at hmoves
      rw [List.filterMap_cons_some hlabel]
      exact .cons hmoves hrest

/-- What is reachable in a system is reachable, viewed, in one that simulates it, if the start is. -/
theorem Reachable.simulate {τ δ : Type*} {other : τ → δ → τ → Prop} {view : σ → τ} {origin : τ}
    (hstep : ∀ s e t, step s e t → ∃ ds, Run other (view s) ds (view t))
    {start s : σ} (horigin : Reachable other origin (view start)) (h : Reachable step start s) :
    Reachable other origin (view s) := by
  obtain ⟨before, hbefore⟩ := horigin
  obtain ⟨es, hrun⟩ := h
  obtain ⟨ds, hds⟩ := hrun.simulate hstep
  exact ⟨before ++ ds, hbefore.append hds⟩

/-- Simulation by a relation, which may draw on what is reachable in the other system: if every step from
related states is matched by a run to related states, then so is every run. -/
theorem Run.simulate_rel {τ δ : Type*} {other : τ → δ → τ → Prop} {R : σ → τ → Prop}
    {s t : σ} {es : List ε} {origin u : τ} (hrun : Run step s es t) (hs : R s u)
    (horigin : Reachable other origin u)
    (hstep : ∀ s e t u, R s u → Reachable other origin u → step s e t →
      ∃ ds v, Run other u ds v ∧ R t v) : ∃ ds v, Run other u ds v ∧ R t v := by
  induction hrun generalizing u with
  | nil s => exact ⟨[], u, .nil u, hs⟩
  | cons h _ ih =>
    obtain ⟨ds, v, hds, hv⟩ := hstep _ _ _ u hs horigin h
    obtain ⟨before, hbefore⟩ := horigin
    obtain ⟨ds', v', hds', hv'⟩ := ih hv ⟨before ++ ds, hbefore.append hds⟩
    exact ⟨ds ++ ds', v', hds.append hds', hv'⟩

/-- So what is reachable is related to something that is reachable. -/
theorem Reachable.simulate_rel {τ δ : Type*} {other : τ → δ → τ → Prop} {R : σ → τ → Prop}
    {start s : σ} {origin u : τ} (hstart : R start u) (horigin : Reachable other origin u)
    (hstep : ∀ s e t u, R s u → Reachable other origin u → step s e t →
      ∃ ds v, Run other u ds v ∧ R t v)
    (h : Reachable step start s) : ∃ v, R s v ∧ Reachable other origin v := by
  obtain ⟨es, hrun⟩ := h
  obtain ⟨ds, v, hds, hv⟩ := hrun.simulate_rel hstart horigin hstep
  obtain ⟨before, hbefore⟩ := horigin
  exact ⟨v, hv, before ++ ds, hbefore.append hds⟩

/-- A condition which every step meets holds throughout all labels. -/
theorem throughout_of_step {cond : σ → ε → σ → Prop} (hstep : ∀ s e t, step s e t → cond s e t) (s : σ)
    (es : List ε) : Throughout step cond s es := by
  induction es generalizing s with
  | nil => trivial
  | cons e es ih => exact fun t h => ⟨hstep s e t h, ih t⟩

/-- A condition on every step restricts to the labels of a first part. -/
theorem Throughout.left {cond : σ → ε → σ → Prop} {s : σ} {es fs : List ε}
    (h : Throughout step cond s (es ++ fs)) : Throughout step cond s es := by
  induction es generalizing s with
  | nil => trivial
  | cons e es ih => exact fun t hstep => ⟨(h t hstep).1, ih (h t hstep).2⟩

/-- A condition on every step carries over to what follows a first run. -/
theorem Throughout.right {cond : σ → ε → σ → Prop} {s t : σ} {es fs : List ε}
    (h : Throughout step cond s (es ++ fs)) (hrun : Run step s es t) :
    Throughout step cond t fs := by
  induction hrun with
  | nil _ => exact h
  | cons hstep _ ih => exact ih (h _ hstep).2

/-- A property of every state holds at the end of a run along the labels. -/
theorem Always.run {prop : σ → Prop} {s t : σ} {es : List ε} (h : Always step prop s es)
    (hrun : Run step s es t) : prop t := by
  obtain ⟨hs, hrest⟩ := h
  induction hrun with
  | nil _ => exact hs
  | cons hstep _ ih => exact ih (hrest _ hstep).1 (hrest _ hstep).2

/-- Conditions that agree on every step from states of an invariant hold throughout the same
labels. -/
theorem throughout_congr (inv : σ → Prop) {cond cond' : σ → ε → σ → Prop}
    (hinv : ∀ s e t, inv s → step s e t → inv t)
    (hcond : ∀ s e t, inv s → step s e t → (cond s e t ↔ cond' s e t))
    {s : σ} (hs : inv s) (es : List ε) :
    Throughout step cond s es ↔ Throughout step cond' s es := by
  induction es generalizing s with
  | nil => exact Iff.rfl
  | cons e es ih =>
    refine forall_congr' fun t => forall_congr' fun hstep => and_congr ?_ ?_
    · exact hcond s e t hs hstep
    · exact ih (hinv s e t hs hstep)

/-- A property preserved by the steps which meet a condition holds at the end of every run whose
steps all meet it. -/
theorem Run.preserves_throughout (inv : σ → Prop) {cond : σ → ε → σ → Prop}
    (hstep : ∀ s e t, inv s → step s e t → cond s e t → inv t)
    {s t : σ} {es : List ε} (hrun : Run step s es t) (hcond : Throughout step cond s es)
    (hs : inv s) : inv t := by
  induction hrun with
  | nil _ => exact hs
  | cons h _ ih => exact ih (hcond _ h).2 (hstep _ _ _ hs h (hcond _ h).1)

/-- If, from states where the property and an invariant hold, a step keeps the property exactly
when it meets the condition, then the property holds in every state reached exactly when every
step meets the condition. -/
theorem always_iff_throughout (inv : σ → Prop) {prop : σ → Prop} {cond : σ → ε → σ → Prop}
    (hinv : ∀ s e t, inv s → step s e t → inv t)
    (hiff : ∀ s e t, inv s → prop s → step s e t → (prop t ↔ cond s e t))
    {s : σ} (hs : inv s) (hprop : prop s) (es : List ε) :
    Always step prop s es ↔ Throughout step cond s es := by
  have hthroughout : Throughout step (fun _ _ t => prop t) s es ↔ Throughout step cond s es := by
    induction es generalizing s with
    | nil => exact Iff.rfl
    | cons e es ih =>
      refine forall_congr' fun t => forall_congr' fun hstep => ?_
      have hhead := hiff s e t hs hprop hstep
      constructor
      · intro hexists
        obtain ⟨ht, hrest⟩ := hexists
        exact ⟨hhead.mp ht, (ih (hinv s e t hs hstep) ht).mp hrest⟩
      · intro hexists
        obtain ⟨hc, hrest⟩ := hexists
        have ht := hhead.mpr hc
        exact ⟨ht, (ih (hinv s e t hs hstep) ht).mpr hrest⟩
  exact ⟨fun h => hthroughout.mp h.2, fun h => ⟨hprop, hthroughout.mpr h⟩⟩

/-- Whether every step that is computed along the labels meets the condition. -/
def checked (next : σ → ε → Option σ) (cond : σ → ε → σ → Prop) [∀ s e t, Decidable (cond s e t)] :
    σ → List ε → Bool
  | _, [] => true
  | s, e :: es => (next s e).all fun t => decide (cond s e t) && checked next cond t es

/-- Where every step is the computed one, a condition which is checked along the labels holds throughout. -/
theorem throughout_of_checked {next : σ → ε → Option σ} {cond : σ → ε → σ → Prop}
    [∀ s e t, Decidable (cond s e t)] (hnext : ∀ s e t, step s e t → next s e = some t) {s : σ}
    {es : List ε} (h : checked next cond s es = true) : Throughout step cond s es := by
  induction es generalizing s with
  | nil => trivial
  | cons e es ih =>
    intro t hstep
    rw [checked, hnext s e t hstep, Option.all_some, Bool.and_eq_true, decide_eq_true_eq] at h
    exact ⟨h.1, ih h.2⟩

/-- If every label can be followed from every state, so can every list of labels. -/
theorem exists_run_of_forall {good : ε → Prop} (hstep : ∀ s e, good e → ∃ t, step s e t) (s : σ)
    (es : List ε) (hes : ∀ e ∈ es, good e) : ∃ t, Run step s es t := by
  induction es generalizing s with
  | nil => exact ⟨s, .nil s⟩
  | cons e es ih =>
    obtain ⟨mid, hmid⟩ := hstep s e (hes e List.mem_cons_self)
    obtain ⟨t, ht⟩ := ih mid fun e he => hes e (List.mem_cons_of_mem _ he)
    exact ⟨t, .cons hmid ht⟩

section Components

variable {κ V : Type*} [DecidableEq κ]

/-- The labels of a list which name the given component. -/
def labelsAt (key : ε → Option κ) (k : κ) (es : List ε) : List ε :=
  es.filter fun e => decide (key e = some k)

/-- If every step acts on the component which its label names, and on no other, then a component ends up
as what the labels that name it have made of it. -/
theorem Run.component {view : σ → κ → V} {key : ε → Option κ} {act : ε → V → V}
    (hstep : ∀ s e t, step s e t → ∀ k,
      view t k = if key e = some k then act e (view s k) else view s k)
    {s t : σ} {es : List ε} (hrun : Run step s es t) (k : κ) :
    view t k = (labelsAt key k es).foldl (fun v e => act e v) (view s k) := by
  induction hrun with
  | nil s => rfl
  | @cons s mid t e es h _ ih =>
    rw [ih, hstep s e mid h k]
    by_cases hkey : key e = some k
    · simp [labelsAt, hkey]
    · simp [labelsAt, hkey]

/-- Runs whose labels name each component in the same order leave the components the same. -/
theorem Run.component_congr {view : σ → κ → V} {key : ε → Option κ} {act : ε → V → V}
    (hstep : ∀ s e t, step s e t → ∀ k,
      view t k = if key e = some k then act e (view s k) else view s k)
    {s t t' : σ} {es es' : List ε} (hrun : Run step s es t) (hrun' : Run step s es' t')
    (hsame : ∀ k, labelsAt key k es = labelsAt key k es') (k : κ) : view t k = view t' k := by
  rw [hrun.component hstep, hrun'.component hstep, hsame k]

end Components

end Transition

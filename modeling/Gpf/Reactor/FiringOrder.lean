import Gpf.Reactor.FireDue

/-!
# The order in which timers fire

Each call of `operator()` either runs the callbacks of the ready sockets or takes the turns of `fire_due`.
Where no callback schedules a timer in its past, this makes the timers fire in the order of their
deadlines over the whole run of the reactor, across the calls and whatever the polls report, and none of
them is lost.
-/

namespace Gpf

open Transition

variable {γ κ σ : Type}

/-- The callbacks see a clock which does not go back, and what they schedule is not due before they were
called. They are called in good states of the world, and leave it in one. -/
structure Handlers.Punctual (H : Handlers γ κ σ) (clock : σ → Time) (good : σ → Prop) : Prop where
  onActivity : ∀ cb socket w effect, good w → H.onActivity cb socket w = some effect →
    good effect.1 ∧ clock w ≤ clock effect.1 ∧ ∀ timer ∈ scheduled effect.2, clock w ≤ timer.deadline
  onTimeout : ∀ callback w effect, good w → H.onTimeout callback w = some effect →
    good effect.1 ∧ clock w ≤ clock effect.1 ∧ ∀ timer ∈ scheduled effect.2, clock w ≤ timer.deadline

/-- The world goes on during a poll, and its clock does not go back, nor stay behind the time which
`fire_due` reads afterwards. -/
def Round.Forward (clock : σ → Time) (good : σ → Prop) (round : Round σ) : Prop :=
  ∀ timeout w, good w → good ((round.poll timeout).arrivals w) ∧
    clock w ≤ clock ((round.poll timeout).arrivals w) ∧
      (round.poll timeout).now ≤ clock ((round.poll timeout).arrivals w)

/-- What a call does to the timers: those which its callbacks schedule, those which it fires, and those
which it takes out of the queue without firing them. -/
structure Pass (κ : Type) where
  added : List (DeadlineTimer κ)
  fired : List (DeadlineTimer κ)
  skipped : List (DeadlineTimer κ)

/-- What the turns of a call do to the timers. A turn skips the timer on top if it is deactivated. -/
def Pass.ofTurns (turns : List (Turn κ)) : Pass κ where
  added := turns.flatMap Turn.added
  fired := Turn.invoked turns
  skipped := (turns.filter fun turn => !turn.active).map Turn.top

namespace Running

/-- An iteration of the loop in `reactor::run`, with what it does to the timers. -/
inductive Passes {P : TimerQueue κ} (H : Handlers γ κ σ) (timeout : ℤ) :
    Running γ σ P → Round σ × Pass κ → Running γ σ P → Prop
  | served (s : Running γ σ P) (round : Round σ) (world : σ) (actions : List (Action κ))
      (hrunning : s.reactor.stopRequested = false) (hready : 0 < (s.polled timeout round).ret)
      (hactivities : H.activities (s.reactor.socketCalls (s.polled timeout round).revents)
        ((s.polled timeout round).arrivals s.world) = some (world, actions)) :
      Passes H timeout s (round, ⟨scheduled actions, [], []⟩)
        ((s.polledInto (s.polled timeout round)).after (world, actions))
  | swept (s t : Running γ σ P) (round : Round σ) (turns : List (Turn κ))
      (hrunning : s.reactor.stopRequested = false) (hnothing : (s.polled timeout round).ret = 0)
      (hturns : Run (TakesTurn H (s.polled timeout round).now)
        (s.polledInto (s.polled timeout round)) turns t)
      (hdone : t.NoneDue (s.polled timeout round).now) :
      Passes H timeout s (round, .ofTurns turns) t

/-- What a call fires is due when it reads the clock, and if it goes through the timers it leaves none
that is. -/
structure Timely {P : TimerQueue κ} (timeout : ℤ) (before : Running γ σ P) (entry : Round σ × Pass κ)
    (after : Running γ σ P) : Prop where
  due : ∀ timer ∈ entry.2.fired, timer.deadline ≤ (before.polled timeout entry.1).now
  none_due : (before.polled timeout entry.1).ret = 0 →
    ∀ timer ∈ P.elems after.reactor.timerQueue, (before.polled timeout entry.1).now < timer.deadline

end Running

/-- What two parts of a callback schedule. -/
theorem mem_scheduled_append {first second : List (Action κ)} {timer : DeadlineTimer κ} :
    timer ∈ scheduled (first ++ second) ↔ timer ∈ scheduled first ∨ timer ∈ scheduled second := by
  rw [scheduled, List.filterMap_append, List.mem_append]
  rfl

/-- Punctual callbacks which run one after the other are as punctual as one. -/
theorem Handlers.Punctual.activities {H : Handlers γ κ σ} {clock : σ → Time} {good : σ → Prop}
    (h : H.Punctual clock good) (calls : List (γ × ℕ)) {w : σ} {effect : σ × List (Action κ)} (hw : good w)
    (heffect : H.activities calls w = some effect) :
    good effect.1 ∧ clock w ≤ clock effect.1 ∧ ∀ timer ∈ scheduled effect.2, clock w ≤ timer.deadline := by
  induction calls generalizing w effect with
  | nil =>
    cases heffect
    exact ⟨hw, le_rfl, fun _ h => absurd h List.not_mem_nil⟩
  | cons call calls ih =>
    obtain ⟨first, hfirst, hcalls⟩ := Option.bind_eq_some_iff.mp heffect
    obtain ⟨rest, hrest, heq⟩ := Option.bind_eq_some_iff.mp hcalls
    cases heq
    obtain ⟨hgood, hclock, hlate⟩ := h.onActivity call.1 call.2 w first hw hfirst
    obtain ⟨hgood', hclock', hlate'⟩ := ih hgood hrest
    refine ⟨hgood', hclock.trans hclock', ?_⟩
    intro timer htimer
    rcases mem_scheduled_append.mp htimer with hin | hin
    · exact hlate timer hin
    · exact hclock.trans (hlate' timer hin)

namespace Running

section Passes

variable {P : TimerQueue κ} {H : Handlers γ κ σ} {timeout : ℤ} {s t : Running γ σ P} {round : Round σ}
  {pass : Pass κ}

/-- Every iteration does something to the timers. -/
theorem exists_pass (h : Iterates H timeout s round t) : ∃ pass, Passes H timeout s (round, pass) t := by
  obtain ⟨hrunning, fuel, hcall⟩ := h
  rcases call_cases H timeout round fuel hcall with
    ⟨hnothing, hfire⟩ | ⟨hready, world, actions, hactivities, rfl⟩
  · obtain ⟨turns, hturns, hdone⟩ := exists_turns H _ fuel hfire
    exact ⟨_, .swept s t round turns hrunning hnothing hturns hdone⟩
  · exact ⟨_, .served s round world actions hrunning hready hactivities⟩

/-- What does so is an iteration. -/
theorem Passes.iterates {entry : Round σ × Pass κ} (h : Passes H timeout s entry t) :
    Iterates H timeout s entry.1 t := by
  cases h with
  | served round world actions hrunning hready hactivities =>
    refine ⟨hrunning, 0, ?_⟩
    simp only [call]
    rw [if_neg hready.ne', if_neg hready.not_gt, runCallbacks_eq]
    exact Option.map_eq_some_iff.mpr ⟨_, hactivities, rfl⟩
  | swept t round turns hrunning hnothing hturns hdone =>
    refine ⟨hrunning, turns.length + 1, ?_⟩
    simp only [call]
    rw [if_pos hnothing]
    exact fireDue_of_turns hturns hdone

/-- Every run of iterations does something to the timers in each of them. -/
theorem exists_passes {rounds : List (Round σ)} (hrun : Run (Iterates H timeout) s rounds t) :
    ∃ passes : List (Pass κ), passes.length = rounds.length ∧
      Run (Passes H timeout) s (rounds.zip passes) t := by
  induction hrun with
  | nil s => exact ⟨[], rfl, .nil s⟩
  | cons hstep _ ih =>
    obtain ⟨pass, hpass⟩ := exists_pass hstep
    obtain ⟨passes, hlength, hpasses⟩ := ih
    exact ⟨pass :: passes, congrArg Nat.succ hlength, .cons hpass hpasses⟩

/-- Whatever the callbacks do, a call fires what is due when it reads the clock. -/
theorem Passes.timely {entry : Round σ × Pass κ} (h : Passes H timeout s entry t) :
    Timely timeout s entry t := by
  cases h with
  | served round world actions hrunning hready hactivities =>
    exact ⟨fun _ h => absurd h List.not_mem_nil, fun hnothing => absurd hnothing hready.ne'⟩
  | swept t round turns hrunning hnothing hturns hdone =>
    refine ⟨?_, fun _ => fireDue_not_due H _ _ (fireDue_of_turns hturns hdone)⟩
    intro timer htimer
    obtain ⟨turn, hturn, rfl⟩ := List.mem_map.mp htimer
    obtain ⟨u, v, hstep⟩ := hturns.exists_step (List.mem_of_mem_filter hturn)
    exact hstep.top_le

end Passes

/-- The given timers have fired, in the order of their deadlines, and the clock has reached these. What is
queued is not due before them, and the world is in a good state. -/
structure FiredInOrder {P : TimerQueue κ} (clock : σ → Time) (good : σ → Prop)
    (log : List (DeadlineTimer κ)) (s : Running γ σ P) : Prop where
  order : LeftInOrder DeadlineTimer.deadline log (P.elems s.reactor.timerQueue)
  past : ∀ timer ∈ log, timer.deadline ≤ clock s.world
  good : good s.world

section Order

variable {P : TimerQueue κ} {H : Handlers γ κ σ} {clock : σ → Time} {good : σ → Prop} {timeout : ℤ}
  {log : List (DeadlineTimer κ)} {now : Time} {s t : Running γ σ P}

/-- The timer on top fires next. What is queued after the turn was queued before it or has been scheduled
in it, and is not due before any of those that have fired. -/
theorem FiredInOrder.turn (inv : FiredInOrder clock good log s) (hpunctual : H.Punctual clock good)
    (hnow : now ≤ clock s.world) {turn : Turn κ} (h : TakesTurn H now s turn t) :
    FiredInOrder clock good (log ++ Turn.invoked [turn]) t ∧ now ≤ clock t.world ∧
      ∀ timer ∈ turn.added, turn.top.deadline ≤ timer.deadline := by
  have hqueued (timer : DeadlineTimer κ) (htimer : timer ∈ P.elems t.reactor.timerQueue) :
      timer ∈ P.elems s.reactor.timerQueue ∨ timer ∈ turn.added := by
    have hmem : timer ∈ P.elems t.reactor.timerQueue + {turn.taken} := Multiset.mem_add.mpr (.inl htimer)
    rw [h.elems, Multiset.mem_add, Multiset.mem_coe] at hmem
    exact hmem
  cases h with
  | fires top taken effect htop hdue hactive heffect htaken =>
    obtain ⟨hgood, hclock, hlate⟩ := hpunctual.onTimeout top.callback s.world effect inv.good heffect
    have hfired : top.deadline ≤ clock s.world := (of_decide_eq_true hdue).trans hnow
    have hpast (timer : DeadlineTimer κ) (htimer : timer ∈ log ++ [top]) :
        timer.deadline ≤ clock s.world := by
      rcases List.mem_append.mp htimer with hold | hnew
      · exact inv.past timer hold
      · rw [List.mem_singleton.mp hnew]
        exact hfired
    refine ⟨⟨?_, fun timer htimer => (hpast timer htimer).trans hclock, hgood⟩, hnow.trans hclock, ?_⟩
    · apply (inv.order.leave (P.mem_of_top? htop) (P.top?_le _ top htop)).change
      intro timer htimer
      apply (hqueued timer htimer).imp_right
      intro hadded first hfirst
      exact (hpast first hfirst).trans (hlate timer hadded)
    · intro timer htimer
      exact hfired.trans (hlate timer htimer)
  | skips top htop hdue hinactive =>
    have hsame : log ++ Turn.invoked [⟨top, false, [], top, false⟩] = log := List.append_nil log
    rw [hsame]
    refine ⟨⟨?_, inv.past, inv.good⟩, hnow, fun _ h => absurd h List.not_mem_nil⟩
    apply inv.order.change
    intro timer htimer
    exact .inl ((hqueued timer htimer).resolve_right List.not_mem_nil)

/-- The turns of a call fire in order, and are patient. -/
theorem FiredInOrder.turns (inv : FiredInOrder clock good log s) (hpunctual : H.Punctual clock good)
    (hnow : now ≤ clock s.world) {turns : List (Turn κ)} (hrun : Run (TakesTurn H now) s turns t) :
    FiredInOrder clock good (log ++ Turn.invoked turns) t ∧
      ∀ turn ∈ turns, ∀ timer ∈ turn.added, turn.top.deadline ≤ timer.deadline := by
  induction hrun generalizing log with
  | nil s =>
    have hsame : log ++ Turn.invoked [] = log := List.append_nil log
    rw [hsame]
    exact ⟨inv, fun _ h => absurd h List.not_mem_nil⟩
  | @cons s mid t turn turns hstep _ ih =>
    obtain ⟨hmid, hlater, hpatient⟩ := inv.turn hpunctual hnow hstep
    obtain ⟨hlast, hrest⟩ := ih hmid hlater
    have hsplit : Turn.invoked (turn :: turns) = Turn.invoked [turn] ++ Turn.invoked turns := by
      rw [Turn.invoked, Turn.invoked, Turn.invoked, ← List.map_append, ← List.filter_append]
      rfl
    rw [hsplit, ← List.append_assoc]
    exact ⟨hlast, List.forall_mem_cons.mpr ⟨hpatient, hrest⟩⟩

/-- A poll leaves the order as it is. -/
theorem FiredInOrder.poll (inv : FiredInOrder clock good log s) (timeout : ℤ)
    {round : Round σ} (hforward : round.Forward clock good) :
    FiredInOrder clock good log (s.polledInto (s.polled timeout round)) ∧
      (s.polled timeout round).now ≤ clock (s.polledInto (s.polled timeout round)).world := by
  obtain ⟨hgood, hclock, hnow⟩ := hforward _ s.world inv.good
  exact ⟨⟨inv.order, fun timer htimer => (inv.past timer htimer).trans hclock, hgood⟩, hnow⟩

/-- Every call fires in order. -/
theorem FiredInOrder.pass (inv : FiredInOrder clock good log s) (hpunctual : H.Punctual clock good)
    {entry : Round σ × Pass κ} (hforward : entry.1.Forward clock good) (h : Passes H timeout s entry t) :
    FiredInOrder clock good (log ++ entry.2.fired) t := by
  cases h with
  | served round world actions hrunning hready hactivities =>
    obtain ⟨hpolled, -⟩ := inv.poll timeout hforward
    obtain ⟨hgood, hclock, hlate⟩ := hpunctual.activities _ hpolled.good hactivities
    rw [List.append_nil]
    refine ⟨?_, fun timer htimer => (hpolled.past timer htimer).trans hclock, hgood⟩
    apply hpolled.order.change
    intro timer htimer
    rw [after, Reactor.elems_performAll, Multiset.mem_add, Multiset.mem_coe] at htimer
    apply htimer.imp_right
    intro hadded first hfirst
    exact (hpolled.past first hfirst).trans (hlate timer hadded)
  | swept t round turns hrunning hnothing hturns hdone =>
    obtain ⟨hpolled, hnow⟩ := inv.poll timeout hforward
    exact (hpolled.turns hpunctual hnow hturns).1

/-- So does every run of calls. -/
theorem FiredInOrder.run (inv : FiredInOrder clock good log s) (hpunctual : H.Punctual clock good)
    {entries : List (Round σ × Pass κ)} (hforward : ∀ entry ∈ entries, entry.1.Forward clock good)
    (hrun : Run (Passes H timeout) s entries t) :
    FiredInOrder clock good (log ++ entries.flatMap fun entry => entry.2.fired) t := by
  induction hrun generalizing log with
  | nil s =>
    rw [List.flatMap_nil, List.append_nil]
    exact inv
  | cons hstep _ ih =>
    rw [List.forall_mem_cons] at hforward
    rw [List.flatMap_cons, ← List.append_assoc]
    exact ih (inv.pass hpunctual hforward.1 hstep) hforward.2

end Order

section Exact

variable {P : SteadyTimerQueue κ} {H : Handlers γ κ σ} {clock : σ → Time} {good : σ → Prop} {timeout : ℤ}
  {log : List (DeadlineTimer κ)} {s t : Running γ σ P.toPriorityQueue}

/-- Patient turns take out what they fire and what they skip, and nothing else. -/
theorem taken_turns {now : Time} {turns : List (Turn κ)} (hrun : Run (TakesTurn H now) s turns t)
    (hpatient : ∀ turn ∈ turns, ∀ timer ∈ turn.added, turn.top.deadline ≤ timer.deadline) :
    (turns.map Turn.taken : Multiset (DeadlineTimer κ)) =
      (Pass.ofTurns turns).fired + (Pass.ofTurns turns).skipped := by
  have htop : turns.map Turn.taken = turns.map Turn.top := by
    apply List.map_congr_left
    intro turn hturn
    obtain ⟨u, v, hstep⟩ := hrun.exists_step hturn
    exact (hstep.taken_eq (hpatient turn hturn)).1
  have hsplit := List.filter_append_perm Turn.active turns
  rw [htop, Pass.ofTurns, Turn.invoked, Multiset.coe_add, ← List.map_append]
  exact Multiset.coe_eq_coe.mpr (hsplit.symm.map Turn.top)

/-- A call moves what it schedules into the queue, and what it fires and skips out of it. -/
theorem FiredInOrder.elems_pass (inv : FiredInOrder clock good log s) (hpunctual : H.Punctual clock good)
    {entry : Round σ × Pass κ} (hforward : entry.1.Forward clock good) (h : Passes H timeout s entry t) :
    P.elems t.reactor.timerQueue + (entry.2.fired + entry.2.skipped) =
      P.elems s.reactor.timerQueue + (entry.2.added : Multiset (DeadlineTimer κ)) := by
  cases h with
  | served round world actions hrunning hready hactivities =>
    rw [after, Reactor.elems_performAll]
    exact add_zero _
  | swept t round turns hrunning hnothing hturns hdone =>
    obtain ⟨hpolled, hnow⟩ := inv.poll timeout hforward
    rw [← taken_turns hturns (hpolled.turns hpunctual hnow hturns).2]
    have hmoved := elems_turns hturns
    exact hmoved

/-- The calls of a run do so together. -/
theorem FiredInOrder.elems_run (inv : FiredInOrder clock good log s) (hpunctual : H.Punctual clock good)
    {entries : List (Round σ × Pass κ)} (hforward : ∀ entry ∈ entries, entry.1.Forward clock good)
    (hrun : Run (Passes H timeout) s entries t) :
    P.elems t.reactor.timerQueue + ((entries.flatMap fun entry => entry.2.fired) +
        (entries.flatMap fun entry => entry.2.skipped)) =
      P.elems s.reactor.timerQueue +
        (entries.flatMap fun entry => entry.2.added : Multiset (DeadlineTimer κ)) := by
  induction hrun generalizing log with
  | nil s => rfl
  | @cons s mid t entry entries hstep _ ih =>
    rw [List.forall_mem_cons] at hforward
    have hmid := inv.elems_pass hpunctual hforward.1 hstep
    have hrest := ih (inv.pass hpunctual hforward.1 hstep) hforward.2
    simp only [List.flatMap_cons, ← Multiset.coe_add]
    rw [add_add_add_comm, add_left_comm, hrest, ← add_assoc, ← add_assoc, ← hmid, add_comm (P.elems _)]

/-- The second parts of paired lists. -/
theorem flatMap_zip_snd {ρ β : Type} {rounds : List ρ} {passes : List (Pass κ)}
    (hlength : passes.length = rounds.length) (f : Pass κ → List β) :
    ((rounds.zip passes).flatMap fun entry => f entry.2) = passes.flatMap f := by
  rw [← List.flatMap_map Prod.snd f, List.map_snd_zip hlength.le]

/-- What the calls of a run do to the timers together. -/
theorem exists_passes_in_order {rounds : List (Round σ)} (hpunctual : H.Punctual clock good)
    (hgood : good s.world) (hforward : ∀ round ∈ rounds, round.Forward clock good)
    (hrun : Run (Iterates H timeout) s rounds t) :
    ∃ passes : List (Pass κ), passes.length = rounds.length ∧
      Run (Passes H timeout) s (rounds.zip passes) t ∧
      (passes.flatMap Pass.fired).Pairwise (fun first later => first.deadline ≤ later.deadline) ∧
      P.elems t.reactor.timerQueue + (passes.flatMap Pass.fired + passes.flatMap Pass.skipped) =
        P.elems s.reactor.timerQueue + (passes.flatMap Pass.added : Multiset (DeadlineTimer κ)) := by
  obtain ⟨passes, hlength, hpasses⟩ := exists_passes hrun
  have hentries : ∀ entry ∈ rounds.zip passes, entry.1.Forward clock good := by
    intro entry hentry
    exact hforward entry.1 (List.of_mem_zip hentry).1
  have hstart : FiredInOrder clock good [] s :=
    ⟨.nil _, fun _ h => absurd h List.not_mem_nil, hgood⟩
  have hordered := (hstart.run hpunctual hentries hpasses).order.sorted
  have hmoved := hstart.elems_run hpunctual hentries hpasses
  simp only [flatMap_zip_snd hlength] at hordered hmoved
  exact ⟨passes, hlength, hpasses, hordered, hmoved⟩

end Exact

/-- Timers fire in order and none is lost. In every run of `reactor::run`, whatever the polls report, with
callbacks that never schedule a timer in their past: the timers fire in the order of their deadlines over
all calls; those which have fired, those whose turn has come while they were deactivated, and those still
queued are together what was queued at first and has been scheduled; and each call fires only what is due,
and all of it if its poll reports nothing. -/
theorem timers_fire_in_order {P : SteadyTimerQueue κ} {H : Handlers γ κ σ} {clock : σ → Time}
    {good : σ → Prop} {timeout : ℤ} {s t : Running γ σ P.toPriorityQueue} {rounds : List (Round σ)}
    (hpunctual : H.Punctual clock good) (hgood : good s.world)
    (hforward : ∀ round ∈ rounds, round.Forward clock good)
    (hrun : Run (Iterates H timeout) s rounds t) :
    ∃ passes : List (Pass κ), passes.length = rounds.length ∧
      Run (Passes H timeout) s (rounds.zip passes) t ∧
      (passes.flatMap Pass.fired).Pairwise (fun first later => first.deadline ≤ later.deadline) ∧
      P.elems t.reactor.timerQueue + (passes.flatMap Pass.fired + passes.flatMap Pass.skipped) =
        P.elems s.reactor.timerQueue + (passes.flatMap Pass.added : Multiset (DeadlineTimer κ)) ∧
      Throughout (Passes H timeout) (Timely timeout) s (rounds.zip passes) := by
  obtain ⟨passes, hlength, hpasses, hordered, hmoved⟩ :=
    exists_passes_in_order hpunctual hgood hforward hrun
  exact ⟨passes, hlength, hpasses, hordered, hmoved, throughout_of_step (fun _ _ _ h => h.timely) s _⟩

/-- A callback which schedules a timer ten ticks after it is called, the first time it runs. -/
def relayHandlers : Handlers Unit Bool Time :=
  ⟨fun _ _ clock => some (clock, []),
    fun again clock => some (clock, if again then [.add ⟨2, clock + 10, false⟩] else [])⟩

/-- A reactor on a heap with two timers, and the clock. -/
def relayReactor :
    Running Unit Time (SteadyQueue.binaryHeap (DeadlineTimer.deadline (κ := Bool))).toPriorityQueue :=
  { reactor := ({} : Reactor Unit _).performAll [.add ⟨0, 100, false⟩, .add ⟨1, 50, true⟩], world := 0 }

/-- A poll which reports nothing until the given time. -/
def relayRound (now : Time) : Round Time where
  calledAt := 0
  poll _ := ⟨0, fun _ => 0, now, now, fun clock => max clock now⟩

/-- The timer which the first callback schedules fires between the two. -/
theorem timers_fire_in_order_relay :
    ∃ t, Run (Iterates relayHandlers (-1)) relayReactor [relayRound 60, relayRound 120] t ∧
      ∃ passes : List (Pass Bool), passes.length = 2 ∧
        Run (Passes relayHandlers (-1)) relayReactor ([relayRound 60, relayRound 120].zip passes) t ∧
        (passes.flatMap Pass.fired).Pairwise (fun first later => first.deadline ≤ later.deadline) ∧
        (SteadyQueue.binaryHeap DeadlineTimer.deadline).elems t.reactor.timerQueue +
            (passes.flatMap Pass.fired + passes.flatMap Pass.skipped) =
          (SteadyQueue.binaryHeap DeadlineTimer.deadline).elems relayReactor.reactor.timerQueue +
            (passes.flatMap Pass.added : Multiset (DeadlineTimer Bool)) ∧
        Throughout (Passes relayHandlers (-1)) (Timely (-1)) relayReactor
          ([relayRound 60, relayRound 120].zip passes) := by
  have hpunctual : relayHandlers.Punctual id fun _ => True := by
    constructor
    · rintro cb socket w effect - ⟨⟩
      exact ⟨trivial, le_rfl, fun _ h => absurd h List.not_mem_nil⟩
    · rintro again w effect - ⟨⟩
      refine ⟨trivial, le_rfl, ?_⟩
      cases again <;> simp [scheduled, Action.timer?]
  have hforward (now : Time) : (relayRound now).Forward id fun _ => True :=
    fun _ w _ => ⟨trivial, le_max_left w now, le_max_right w now⟩
  have hrun : Run (Iterates relayHandlers (-1)) relayReactor [relayRound 60, relayRound 120] _ :=
    .cons ⟨rfl, 3, rfl⟩ (.cons ⟨rfl, 3, rfl⟩ (.nil _))
  exact ⟨_, hrun, timers_fire_in_order hpunctual trivial (by simp [hforward]) hrun⟩

end Running

end Gpf

import Gpf.Controller.HeartMonitor

/-!
# Rounds of the heartmonitor

A run is cut into rounds: the pongs handled between two beats, whatever else happens to the world
meanwhile, and the beat. After every beat the three sets are determined by the responses of the
last rounds, and so are the hearts that the callbacks of the beat are called for.
-/

namespace Gpf

open HeartMonitor

variable {σ : Type*}

/-- What a run of the heartmonitor depends on: how times are written, what adding a timer does to the
world, and for round `n` its pongs, the other changes of the world, and the clock of beat `n`. -/
structure Rounds (σ : Type*) where
  toIso : Time → String
  add : Time → σ → σ
  pongs : ℕ → List Pong
  meanwhile : ℕ → σ → σ
  toc : ℕ → Time

namespace Rounds

/-- The state after the pongs of round `n`. -/
def listen (rounds : Rounds σ) (n : ℕ) (s : HeartMonitor σ × σ) : HeartMonitor σ × σ :=
  ((rounds.pongs n).foldl (handlePong rounds.toIso) s.1, rounds.meanwhile n s.2)

/-- The state after beat `n`, and for `n = 0` the start. -/
def after (rounds : Rounds σ) (start : HeartMonitor σ × σ) : ℕ → HeartMonitor σ × σ
  | 0 => start
  | n + 1 => beat rounds.toIso rounds.add (rounds.toc (n + 1)) (rounds.listen (n + 1) (rounds.after start n))

/-- The hearts which `handle_pong` puts into `m_responses` in round `n`. -/
def responses (rounds : Rounds σ) (start : HeartMonitor σ × σ) : ℕ → Finset String
  | 0 => ∅
  | n + 1 => (((rounds.pongs (n + 1)).filter
      ((rounds.after start n).1.accepts rounds.toIso)).map Pong.heart).toFinset

end Rounds

namespace HeartMonitor

/-- A pong adds its heart to the responses exactly if it is accepted. -/
theorem handlePong_eq (toIso : Time → String) (m : HeartMonitor σ) (pong : Pong) :
    m.handlePong toIso pong =
      { m with responses := if m.accepts toIso pong then insert pong.heart m.responses
          else m.responses } := by
  unfold handlePong accepts
  by_cases hcurrent : pong.received = toIso m.lifetime
  · simp [hcurrent]
  · by_cases hlast : pong.received = toIso m.lastPing <;> simp [hcurrent, hlast]

/-- A list of pongs adds the hearts of the accepted ones. -/
theorem foldl_handlePong (toIso : Time → String) (m : HeartMonitor σ) (pongs : List Pong) :
    pongs.foldl (handlePong toIso) m =
      { m with responses := m.responses ∪ ((pongs.filter (m.accepts toIso)).map Pong.heart).toFinset } := by
  induction pongs generalizing m with
  | nil => simp
  | cons pong pongs ih =>
    rw [List.foldl_cons, ih, handlePong_eq]
    have hsame : ∀ responses, accepts toIso { m with responses := responses } = m.accepts toIso :=
      fun _ => rfl
    by_cases haccepts : m.accepts toIso pong = true
    · simp [haccepts, hsame, Finset.union_insert, Finset.insert_union]
    · simp [haccepts]

end HeartMonitor

namespace Rounds

variable (rounds : Rounds σ) (start : HeartMonitor σ × σ)

/-- Listening changes only the responses. -/
theorem listen_fst (n : ℕ) :
    (rounds.listen (n + 1) (rounds.after start n)).1 =
      { (rounds.after start n).1 with
        responses := (rounds.after start n).1.responses ∪ rounds.responses start (n + 1) } := by
  rw [listen, foldl_handlePong]
  rfl

/-- The sets of a heartmonitor when a beat has ended, given the responses of the last two rounds. -/
structure Settled (m : HeartMonitor σ) (last previous : Finset String) : Prop where
  hearts : m.hearts = last ∪ previous
  onProbation : m.onProbation = previous \ last
  responses : m.responses = ∅

/-- From settled sets, the new hearts of the next beat are those without a response in the last two
rounds. -/
theorem Settled.newHearts {m m' : HeartMonitor σ} {next last previous : Finset String}
    (h : Settled m last previous) (hm : m' = { m with responses := m.responses ∪ next }) :
    m'.newHearts = next \ (last ∪ previous) := by
  subst hm
  ext heart
  simp only [HeartMonitor.newHearts, goodHearts, h.hearts, h.responses, Finset.mem_sdiff,
    Finset.mem_inter, Finset.mem_union, Finset.notMem_empty]
  tauto

/-- From settled sets, the hearts that fail in the next beat are those without a response since the
round before the last. -/
theorem Settled.heartFailures {m m' : HeartMonitor σ} {next last previous : Finset String}
    (h : Settled m last previous) (hm : m' = { m with responses := m.responses ∪ next }) :
    m'.heartFailures = previous \ (last ∪ next) := by
  subst hm
  ext heart
  simp only [HeartMonitor.heartFailures, missedBeats, goodHearts, h.hearts, h.responses,
    h.onProbation, Finset.mem_sdiff, Finset.mem_inter, Finset.mem_union, Finset.notMem_empty]
  tauto

/-- A beat settles the sets again, one round later. -/
theorem Settled.beat {toIso : Time → String} {add : Time → σ → σ} {toc : Time} {m : HeartMonitor σ}
    {s : HeartMonitor σ × σ} {next last previous : Finset String} (h : Settled m last previous)
    (hs : s.1 = { m with responses := m.responses ∪ next }) :
    Settled (beat toIso add toc s).1 next last := by
  have hhearts : s.1.hearts = last ∪ previous := by rw [hs, h.hearts]
  have hmissed : s.1.missedBeats = (last ∪ previous) \ next := by
    ext heart
    simp only [missedBeats, goodHearts, hs, h.hearts, h.responses, Finset.mem_sdiff,
      Finset.mem_inter, Finset.mem_union, Finset.notMem_empty]
    tauto
  rw [beat_eq]
  refine ⟨?_, ?_, rfl⟩
  · simp only [hhearts, h.newHearts hs, h.heartFailures hs]
    ext heart
    simp only [Finset.mem_sdiff, Finset.mem_union]
    tauto
  · simp only [hhearts, hmissed, h.newHearts hs, h.heartFailures hs]
    ext heart
    simp only [Finset.mem_sdiff, Finset.mem_union, Finset.mem_inter]
    tauto

/-- After every beat the sets are settled. -/
theorem settled_after {start : HeartMonitor σ × σ} (hstart : Settled start.1 ∅ ∅) (n : ℕ) :
    Settled (rounds.after start n).1 (rounds.responses start n) (rounds.responses start (n - 1)) := by
  induction n with
  | zero => exact hstart
  | succ n ih => exact ih.beat (rounds.listen_fst start n)

end Rounds

/-- The events of one heart in the log: `true` when it appears, `false` when it fails. -/
def HeartMonitor.eventsOf (log : List HeartLine) (heart : String) : List Bool :=
  log.filterMap fun line => match line with
    | .newHeart heart' => if heart' = heart then some true else none
    | .failed heart' => if heart' = heart then some false else none

/-- The events of every heart alternate, starting with its appearance, and it is alive exactly after
an appearance which no failure has followed. -/
def HeartMonitor.Alternates (m : HeartMonitor σ) : Prop :=
  ∀ heart, eventsOf m.log heart =
      (List.range (eventsOf m.log heart).length).map (fun i => decide (i % 2 = 0)) ∧
    (m.alive heart = true ↔ (eventsOf m.log heart).length % 2 = 1)

namespace HeartMonitor

/-- One more event keeps the events alternating if it is the one whose turn it is. -/
theorem alternating_append {events : List Bool} {event : Bool}
    (h : events = (List.range events.length).map fun i => decide (i % 2 = 0))
    (hevent : event = decide (events.length % 2 = 0)) :
    events ++ [event] =
      (List.range (events ++ [event]).length).map fun i => decide (i % 2 = 0) := by
  rw [List.length_append, List.length_singleton, List.range_succ, List.map_append, ← h, hevent,
    List.map_singleton]

/-- A heart that is not alive appears. -/
theorem Alternates.handleNewHeart {s : HeartMonitor σ × σ} {heart : String} (h : s.1.Alternates)
    (hheart : heart ∉ s.1.hearts) : (handleNewHeart s heart).1.Alternates := by
  intro heart'
  obtain ⟨halternate, halive⟩ := h heart'
  have hlog : eventsOf (HeartMonitor.handleNewHeart s heart).1.log heart' =
      eventsOf s.1.log heart' ++ if heart = heart' then [true] else [] := by
    simp only [HeartMonitor.handleNewHeart, eventsOf, List.filterMap_append]
    by_cases heq : heart = heart' <;> simp [heq]
  rw [hlog]
  by_cases heq : heart = heart'
  · subst heq
    have heven : (eventsOf s.1.log heart).length % 2 = 0 := by
      have hdead : ¬(eventsOf s.1.log heart).length % 2 = 1 := by
        rw [← halive, alive, decide_eq_true_eq]
        exact hheart
      omega
    rw [if_pos rfl]
    refine ⟨alternating_append halternate (by simp [heven]), ?_⟩
    refine iff_of_true (decide_eq_true (Finset.mem_insert_self _ _)) ?_
    rw [List.length_append, List.length_singleton]
    omega
  · rw [if_neg heq, List.append_nil]
    refine ⟨halternate, Iff.trans ?_ halive⟩
    simp only [alive, HeartMonitor.handleNewHeart, decide_eq_true_eq, Finset.mem_insert]
    exact or_iff_right fun hsame => heq hsame.symm

/-- A heart that is alive fails. -/
theorem Alternates.handleHeartFailure {s : HeartMonitor σ × σ} {heart : String} (h : s.1.Alternates)
    (hheart : heart ∈ s.1.hearts) : (handleHeartFailure s heart).1.Alternates := by
  intro heart'
  obtain ⟨halternate, halive⟩ := h heart'
  have hlog : eventsOf (HeartMonitor.handleHeartFailure s heart).1.log heart' =
      eventsOf s.1.log heart' ++ if heart = heart' then [false] else [] := by
    simp only [HeartMonitor.handleHeartFailure, eventsOf, List.filterMap_append]
    by_cases heq : heart = heart' <;> simp [heq]
  rw [hlog]
  by_cases heq : heart = heart'
  · subst heq
    have hodd : (eventsOf s.1.log heart).length % 2 = 1 := halive.mp (decide_eq_true hheart)
    rw [if_pos rfl]
    refine ⟨alternating_append halternate (by simp [hodd]), ?_⟩
    refine iff_of_false (fun hstill => ?_) ?_
    · exact Finset.notMem_erase _ _ (of_decide_eq_true hstill)
    · rw [List.length_append, List.length_singleton]
      omega
  · rw [if_neg heq, List.append_nil]
    refine ⟨halternate, Iff.trans ?_ halive⟩
    simp only [alive, HeartMonitor.handleHeartFailure, decide_eq_true_eq, Finset.mem_erase]
    exact and_iff_right fun hsame => heq hsame.symm

/-- Distinct hearts that are not alive appear one by one. -/
theorem Alternates.foldl_handleNewHeart {hearts : List String} {s : HeartMonitor σ × σ}
    (h : s.1.Alternates) (hnodup : hearts.Nodup) (hhearts : ∀ heart ∈ hearts, heart ∉ s.1.hearts) :
    (hearts.foldl HeartMonitor.handleNewHeart s).1.Alternates := by
  induction hearts generalizing s with
  | nil => exact h
  | cons heart hearts ih =>
    rw [List.nodup_cons] at hnodup
    rw [List.foldl_cons]
    apply ih (h.handleNewHeart (hhearts heart (by simp))) hnodup.2
    intro heart' hmem
    have hne : heart' ≠ heart := fun heq => hnodup.1 (heq ▸ hmem)
    simp only [HeartMonitor.handleNewHeart, Finset.mem_insert, not_or]
    exact ⟨hne, hhearts heart' (by simp [hmem])⟩

/-- Distinct hearts that are alive fail one by one. -/
theorem Alternates.foldl_handleHeartFailure {hearts : List String} {s : HeartMonitor σ × σ}
    (h : s.1.Alternates) (hnodup : hearts.Nodup) (hhearts : ∀ heart ∈ hearts, heart ∈ s.1.hearts) :
    (hearts.foldl HeartMonitor.handleHeartFailure s).1.Alternates := by
  induction hearts generalizing s with
  | nil => exact h
  | cons heart hearts ih =>
    rw [List.nodup_cons] at hnodup
    rw [List.foldl_cons]
    apply ih (h.handleHeartFailure (hhearts heart (by simp))) hnodup.2
    intro heart' hmem
    have hne : heart' ≠ heart := fun heq => hnodup.1 (heq ▸ hmem)
    simp only [HeartMonitor.handleHeartFailure, Finset.mem_erase]
    exact ⟨hne, hhearts heart' (by simp [hmem])⟩

/-- New hearts are not alive, and failing ones are: a beat keeps the events alternating. -/
theorem Alternates.beat {toIso : Time → String} {add : Time → σ → σ} {toc : Time}
    {s : HeartMonitor σ × σ} (h : s.1.Alternates) : (beat toIso add toc s).1.Alternates := by
  have hnew : ∀ heart ∈ s.1.newHearts.sort (· ≤ ·), heart ∉ s.1.hearts := by
    intro heart hmem
    exact notMem_of_newHearts ((Finset.mem_sort _).mp hmem)
  have hfailed : ∀ heart ∈ s.1.heartFailures.sort (· ≤ ·), heart ∈ s.1.hearts := by
    intro heart hmem
    exact mem_of_heartFailures ((Finset.mem_sort _).mp hmem)
  have happeared := Alternates.foldl_handleNewHeart
    (s := (s.1.advance toc, add (milliseconds s.1.interval) s.2)) h (Finset.sort_nodup _ _) hnew
  apply Alternates.foldl_handleHeartFailure happeared (Finset.sort_nodup _ _)
  intro heart hmem
  rw [HeartMonitor.foldl_handleNewHeart]
  exact Finset.mem_union_left _ (hfailed heart hmem)

end HeartMonitor

namespace Rounds

/-- The events of every heart alternate after every beat. -/
theorem alternates_after (rounds : Rounds σ) {start : HeartMonitor σ × σ} (hstart : start.1.Alternates)
    (n : ℕ) : (rounds.after start n).1.Alternates := by
  induction n with
  | zero => exact hstart
  | succ n ih =>
    have hlisten : (rounds.listen (n + 1) (rounds.after start n)).1.Alternates := by
      rw [listen_fst]
      exact ih
    exact hlisten.beat

/-- A run changes neither the interval nor the callbacks. -/
theorem config_after (rounds : Rounds σ) (start : HeartMonitor σ × σ) (n : ℕ) :
    (rounds.after start n).1.interval = start.1.interval ∧
      (rounds.after start n).1.newHeartCallbacks = start.1.newHeartCallbacks ∧
      (rounds.after start n).1.failedHeartCallbacks = start.1.failedHeartCallbacks := by
  induction n with
  | zero => exact ⟨rfl, rfl, rfl⟩
  | succ n ih =>
    rw [after, beat_eq, listen_fst]
    exact ih

end Rounds

namespace Rounds

variable (rounds : Rounds σ) (start : HeartMonitor σ × σ)

/-- What beat `n + 1` makes of the world if it calls the callbacks for new hearts once for each heart of
a list, and then those for failed hearts once for each heart of another. The timer of the next beat is
added first; during the calls for a heart those hearts are alive that were so before the beat, that the
earlier calls were for as new, and that no earlier call was for as failed. -/
def called (n : ℕ) (appeared failed : List String) : σ :=
  let alive (hearts : Finset String) (heart : String) : Bool := decide (heart ∈ hearts)
  let before := ((rounds.after start n).1.hearts,
    rounds.add (milliseconds start.1.interval) (rounds.meanwhile (n + 1) (rounds.after start n).2))
  let between := appeared.foldl (fun s heart =>
    (insert heart s.1,
      start.1.newHeartCallbacks.foldl (fun w callback => callback heart (alive s.1) w) s.2)) before
  (failed.foldl (fun s heart =>
    (s.1.erase heart,
      start.1.failedHeartCallbacks.foldl (fun w callback => callback heart (alive s.1) w) s.2)) between).2

/-- The hearts which beat `n + 1` calls its callbacks for, given what the last three rounds received. -/
theorem after_snd {start : HeartMonitor σ × σ} (hstart : Settled start.1 ∅ ∅) (n : ℕ) :
    (rounds.after start (n + 1)).2 = rounds.called start n
      ((rounds.responses start (n + 1) \
        (rounds.responses start n ∪ rounds.responses start (n - 1))).sort (· ≤ ·))
      ((rounds.responses start (n - 1) \
        (rounds.responses start n ∪ rounds.responses start (n + 1))).sort (· ≤ ·)) := by
  have hlisten := rounds.listen_fst start n
  have hbefore := rounds.settled_after hstart n
  obtain ⟨hinterval, hnewCallbacks, hfailedCallbacks⟩ := rounds.config_after start n
  rw [after, beat_eq, hbefore.newHearts hlisten, hbefore.heartFailures hlisten, hlisten, hinterval,
    hnewCallbacks, hfailedCallbacks]
  rfl

/-- The lines which beat `n + 1` writes. -/
theorem after_log {start : HeartMonitor σ × σ} (hstart : Settled start.1 ∅ ∅) (n : ℕ) :
    (rounds.after start (n + 1)).1.log = (rounds.after start n).1.log ++
      ((rounds.responses start (n + 1) \
        (rounds.responses start n ∪ rounds.responses start (n - 1))).sort (· ≤ ·)).map .newHeart ++
      ((rounds.responses start (n - 1) \
        (rounds.responses start n ∪ rounds.responses start (n + 1))).sort (· ≤ ·)).map .failed := by
  have hlisten := rounds.listen_fst start n
  have hbefore := rounds.settled_after hstart n
  rw [after, beat_eq, hbefore.newHearts hlisten, hbefore.heartFailures hlisten, hlisten]

end Rounds

/-- The calls for one heart up to beat `n`, in order, given the hearts for which each beat calls the
callbacks: `true` for a call as a new heart, `false` for one as a failed heart. -/
def callsFor (appeared failed : ℕ → List String) (heart : String) (n : ℕ) : List Bool :=
  (List.range n).flatMap fun i =>
    List.replicate ((appeared (i + 1)).count heart) true ++
      List.replicate ((failed (i + 1)).count heart) false

/-- The events of a heart in the lines about new hearts are as many as these have lines for it. -/
theorem HeartMonitor.eventsOf_newHeart (hearts : List String) (heart : String) :
    eventsOf (hearts.map .newHeart) heart = List.replicate (hearts.count heart) true := by
  induction hearts with
  | nil => rfl
  | cons heart' hearts ih =>
    by_cases heq : heart' = heart
    · simpa [eventsOf, heq, List.replicate_succ] using ih
    · simpa [eventsOf, heq, List.count_cons_of_ne heq] using ih

/-- The events of a heart in the lines about failed hearts are as many as these have lines for it. -/
theorem HeartMonitor.eventsOf_failed (hearts : List String) (heart : String) :
    eventsOf (hearts.map .failed) heart = List.replicate (hearts.count heart) false := by
  induction hearts with
  | nil => rfl
  | cons heart' hearts ih =>
    by_cases heq : heart' = heart
    · simpa [eventsOf, heq, List.replicate_succ] using ih
    · simpa [eventsOf, heq, List.count_cons_of_ne heq] using ih

/-- If each beat writes a line for each of its calls, the events in the log are the calls. -/
theorem Rounds.eventsOf_log (rounds : Rounds σ) {start : HeartMonitor σ × σ} (hstart : start.1.log = [])
    {appeared failed : ℕ → List String}
    (hlog : ∀ n, (rounds.after start (n + 1)).1.log = (rounds.after start n).1.log ++
      (appeared (n + 1)).map .newHeart ++ (failed (n + 1)).map .failed) (heart : String) (n : ℕ) :
    eventsOf (rounds.after start n).1.log heart = callsFor appeared failed heart n := by
  induction n with
  | zero =>
    rw [after, hstart]
    rfl
  | succ n ih =>
    have happend : ∀ first second : List HeartLine,
        eventsOf (first ++ second) heart = eventsOf first heart ++ eventsOf second heart :=
      fun _ _ => List.filterMap_append
    rw [hlog, happend, happend, ih, eventsOf_newHeart, eventsOf_failed, callsFor, callsFor,
      List.range_succ, List.flatMap_append, List.flatMap_singleton, List.append_assoc]

/-- What beat `n + 1` of a run does, given the hearts for which each beat calls the callbacks: to the
sets, and to the world by way of the callbacks, each called once for each heart of its list. The calls
for a heart alternate, the first is for it as new, and it is alive exactly after such a call which none
for it as failed has followed. -/
structure HeartbeatLaw (rounds : Rounds σ) (start : HeartMonitor σ × σ)
    (appeared failed : ℕ → List String) (n : ℕ) : Prop where
  responded : (rounds.listen (n + 1) (rounds.after start n)).1.responses =
    rounds.responses start (n + 1)
  hearts : (rounds.after start (n + 1)).1.hearts =
    rounds.responses start (n + 1) ∪ rounds.responses start n
  onProbation : (rounds.after start (n + 1)).1.onProbation =
    rounds.responses start n \ rounds.responses start (n + 1)
  responses : (rounds.after start (n + 1)).1.responses = ∅
  appeared_nodup : (appeared (n + 1)).Nodup
  failed_nodup : (failed (n + 1)).Nodup
  mem_appeared : ∀ heart, heart ∈ appeared (n + 1) ↔ heart ∈ rounds.responses start (n + 1) \
    (rounds.responses start n ∪ rounds.responses start (n - 1))
  mem_failed : ∀ heart, heart ∈ failed (n + 1) ↔ heart ∈ rounds.responses start (n - 1) \
    (rounds.responses start n ∪ rounds.responses start (n + 1))
  world : (rounds.after start (n + 1)).2 = rounds.called start n (appeared (n + 1)) (failed (n + 1))
  log : (rounds.after start (n + 1)).1.log = (rounds.after start n).1.log ++
    (appeared (n + 1)).map .newHeart ++ (failed (n + 1)).map .failed
  alternates : ∀ heart, callsFor appeared failed heart (n + 1) =
    (List.range (callsFor appeared failed heart (n + 1)).length).map (fun i => decide (i % 2 = 0))
  alive : ∀ heart, (rounds.after start (n + 1)).1.alive heart = true ↔
    (callsFor appeared failed heart (n + 1)).length % 2 = 1

/-- The law holds at every beat of every run of a new heartmonitor, whatever its callbacks. -/
theorem heartbeat_law (rounds : Rounds σ) (interval : ℤ) (lifetime tic lastPing : Time)
    (newHeartCallbacks failedHeartCallbacks : List (HeartCallback σ)) (w : σ) :
    ∃ appeared failed : ℕ → List String, ∀ n, HeartbeatLaw rounds
      (.create interval lifetime tic lastPing newHeartCallbacks failedHeartCallbacks, w)
      appeared failed n := by
  generalize hstart : ((HeartMonitor.create interval lifetime tic lastPing newHeartCallbacks
    failedHeartCallbacks, w) : HeartMonitor σ × σ) = start
  have hsettled : Rounds.Settled start.1 ∅ ∅ := by
    rw [← hstart]
    exact ⟨rfl, rfl, rfl⟩
  have halternates : start.1.Alternates := by
    rw [← hstart]
    intro heart
    exact ⟨rfl, by simp [create, alive, eventsOf]⟩
  have hempty : start.1.log = [] := by
    rw [← hstart]
    rfl
  let appeared (n : ℕ) : List String := (rounds.responses start n \
    (rounds.responses start (n - 1) ∪ rounds.responses start (n - 1 - 1))).sort (· ≤ ·)
  let failed (n : ℕ) : List String := (rounds.responses start (n - 1 - 1) \
    (rounds.responses start (n - 1) ∪ rounds.responses start n)).sort (· ≤ ·)
  have hlog : ∀ n, (rounds.after start (n + 1)).1.log = (rounds.after start n).1.log ++
      (appeared (n + 1)).map .newHeart ++ (failed (n + 1)).map .failed := rounds.after_log hsettled
  refine ⟨appeared, failed, fun n => ?_⟩
  have hbefore := rounds.settled_after hsettled n
  have hafter := rounds.settled_after hsettled (n + 1)
  have hcalls := fun heart => rounds.eventsOf_log hempty hlog heart (n + 1)
  have hevents := rounds.alternates_after halternates (n + 1)
  exact {
    responded := by
      rw [rounds.listen_fst start n]
      simp only [hbefore.responses, Finset.empty_union]
    hearts := hafter.hearts
    onProbation := hafter.onProbation
    responses := hafter.responses
    appeared_nodup := Finset.sort_nodup _ _
    failed_nodup := Finset.sort_nodup _ _
    mem_appeared := fun heart => Finset.mem_sort _
    mem_failed := fun heart => Finset.mem_sort _
    world := rounds.after_snd hsettled n
    log := hlog n
    alternates := fun heart => hcalls heart ▸ (hevents heart).1
    alive := fun heart => hcalls heart ▸ (hevents heart).2 }

end Gpf

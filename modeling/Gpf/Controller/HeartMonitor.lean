import Mathlib.Data.Finset.Sort
import Mathlib.Data.String.Basic
import Gpf.Reactor.Timer

/-!
# The heartmonitor

`m_hearts`, `m_responses` and `m_on_probation` are sets of heart names, and the registered callbacks
act on a world of their own, which is a parameter; they may ask the heartmonitor which hearts are
alive. The log keeps the two lines which the handlers of a beat write.
-/

namespace Gpf

/-- A pong, which names its heart and repeats the text of a ping. -/
structure Pong where
  heart : String
  received : String
deriving DecidableEq

/-- `heart`, as far as it answers pings. -/
structure Heart where
  id : String
  count : ℕ := 0

/-- `heart::bumm`: count the ping and send it back under the name of the heart. -/
def Heart.bumm (heart : Heart) (ping : String) : Heart × Pong :=
  ({ heart with count := heart.count + 1 }, ⟨heart.id, ping⟩)

/-- The log lines about hearts: `got new heart` and `just failed`. -/
inductive HeartLine
  | newHeart (heart : String)
  | failed (heart : String)
deriving DecidableEq

/-- A registered callback: it is called for a heart, may ask which hearts are alive, and acts on a world. -/
abbrev HeartCallback (σ : Type*) := String → (String → Bool) → σ → σ

/-- `heartmonitor`, with callbacks which act on a world. -/
structure HeartMonitor (σ : Type*) where
  interval : ℤ
  lifetime : Time
  tic : Time
  lastPing : Time
  hearts : Finset String := ∅
  responses : Finset String := ∅
  onProbation : Finset String := ∅
  failedHeartCallbacks : List (HeartCallback σ) := []
  newHeartCallbacks : List (HeartCallback σ) := []
  log : List HeartLine := []
  pings : List String := []

namespace HeartMonitor

variable {σ : Type*}

/-- The constructor, which reads the clock three times, and the callbacks registered afterwards. -/
def create (interval : ℤ) (lifetime tic lastPing : Time)
    (newHeartCallbacks failedHeartCallbacks : List (HeartCallback σ)) : HeartMonitor σ :=
  { interval := interval
    lifetime := lifetime
    tic := tic
    lastPing := lastPing
    newHeartCallbacks := newHeartCallbacks
    failedHeartCallbacks := failedHeartCallbacks }

/-- `heartmonitor::alive`. -/
def alive (m : HeartMonitor σ) (heart : String) : Bool := decide (heart ∈ m.hearts)

/-- Whether `handle_pong` takes a pong for an answer to one of the last two pings. -/
def accepts (toIso : Time → String) (m : HeartMonitor σ) (pong : Pong) : Bool :=
  decide (pong.received = toIso m.lifetime ∨ pong.received = toIso m.lastPing)

/-- `heartmonitor::handle_pong`. -/
def handlePong (toIso : Time → String) (m : HeartMonitor σ) (pong : Pong) : HeartMonitor σ :=
  if pong.received = toIso m.lifetime then { m with responses := insert pong.heart m.responses }
  else if pong.received = toIso m.lastPing then
    { m with responses := insert pong.heart m.responses }
  else m

/-- Call every callback of a list for a heart. -/
def notify (callbacks : List (HeartCallback σ)) (alive : String → Bool) (w : σ) (heart : String) : σ :=
  callbacks.foldl (fun w callback => callback heart alive w) w

/-- `heartmonitor::handle_new_heart`. The heart is put in after the callbacks. -/
def handleNewHeart (s : HeartMonitor σ × σ) (heart : String) : HeartMonitor σ × σ :=
  ({ s.1 with hearts := insert heart s.1.hearts, log := s.1.log ++ [.newHeart heart] },
    notify s.1.newHeartCallbacks s.1.alive s.2 heart)

/-- `heartmonitor::handle_heart_failure`. The heart is taken out after the callbacks. -/
def handleHeartFailure (s : HeartMonitor σ × σ) (heart : String) : HeartMonitor σ × σ :=
  ({ s.1 with hearts := s.1.hearts.erase heart, log := s.1.log ++ [.failed heart] },
    notify s.1.failedHeartCallbacks s.1.alive s.2 heart)

/-- `goodhearts` of a beat. -/
def goodHearts (m : HeartMonitor σ) : Finset String := m.hearts ∩ m.responses

/-- `missed_beats` of a beat. -/
def missedBeats (m : HeartMonitor σ) : Finset String := m.hearts \ m.goodHearts

/-- `heartfailures` of a beat. -/
def heartFailures (m : HeartMonitor σ) : Finset String := m.onProbation ∩ m.missedBeats

/-- `newhearts` of a beat. -/
def newHearts (m : HeartMonitor σ) : Finset String := m.responses \ m.goodHearts

/-- The clock arithmetic of a beat. -/
def advance (m : HeartMonitor σ) (toc : Time) : HeartMonitor σ :=
  { m with lastPing := m.lifetime, lifetime := m.lifetime + (toc - m.tic), tic := toc }

/-- The end of a beat, given the hearts that missed it. -/
def publish (toIso : Time → String) (missed : Finset String) (m : HeartMonitor σ) : HeartMonitor σ :=
  { m with
    onProbation := missed ∩ m.hearts
    responses := ∅
    pings := m.pings ++ [toIso m.lifetime] }

/-- `heartmonitor::beat`. `add` is what adding the next beat's timer, which waits for the given time,
does to the world; the sets are gone through in the order of `std::set`. -/
def beat (toIso : Time → String) (add : Time → σ → σ) (toc : Time) (s : HeartMonitor σ × σ) :
    HeartMonitor σ × σ :=
  let m := s.1.advance toc
  let appeared := (m.newHearts.sort (· ≤ ·)).foldl handleNewHeart (m, add (milliseconds m.interval) s.2)
  let failed := (m.heartFailures.sort (· ≤ ·)).foldl handleHeartFailure appeared
  (failed.1.publish toIso m.missedBeats, failed.2)

/-- A new heart is not alive yet. -/
theorem notMem_of_newHearts {m : HeartMonitor σ} {heart : String} (h : heart ∈ m.newHearts) :
    heart ∉ m.hearts := by
  intro halive
  simp only [newHearts, goodHearts, Finset.mem_sdiff, Finset.mem_inter, not_and] at h
  exact h.2 halive h.1

/-- A heart that fails is alive. -/
theorem mem_of_heartFailures {m : HeartMonitor σ} {heart : String} (h : heart ∈ m.heartFailures) :
    heart ∈ m.hearts := by
  simp only [heartFailures, missedBeats, Finset.mem_inter, Finset.mem_sdiff] at h
  exact h.2.1

/-- What handling a new heart does to the hearts which are alive and to the world. -/
def appear (callbacks : List (HeartCallback σ)) (s : Finset String × σ) (heart : String) :
    Finset String × σ :=
  (insert heart s.1, notify callbacks (fun heart' => decide (heart' ∈ s.1)) s.2 heart)

/-- What handling a heart failure does to the hearts which are alive and to the world. -/
def fail (callbacks : List (HeartCallback σ)) (s : Finset String × σ) (heart : String) :
    Finset String × σ :=
  (s.1.erase heart, notify callbacks (fun heart' => decide (heart' ∈ s.1)) s.2 heart)

/-- The hearts which are alive when some have appeared. -/
theorem foldl_appear_fst (callbacks : List (HeartCallback σ)) (hearts : List String)
    (s : Finset String × σ) : (hearts.foldl (appear callbacks) s).1 = s.1 ∪ hearts.toFinset := by
  induction hearts generalizing s with
  | nil => simp
  | cons heart hearts ih =>
    rw [List.foldl_cons, ih]
    simp [appear, Finset.union_insert, Finset.insert_union]

/-- A callback which does not ask who is alive sees only the hearts that appear. -/
theorem foldl_appear_snd (f : String → σ → σ) (hearts : List String) (s : Finset String × σ) :
    (hearts.foldl (appear [fun heart _ w => f heart w]) s).2 =
      hearts.foldl (fun w heart => f heart w) s.2 := by
  induction hearts generalizing s with
  | nil => rfl
  | cons heart hearts ih => exact ih _

/-- A callback which does not ask who is alive sees only the hearts that fail. -/
theorem foldl_fail_snd (f : String → σ → σ) (hearts : List String) (s : Finset String × σ) :
    (hearts.foldl (fail [fun heart _ w => f heart w]) s).2 =
      hearts.foldl (fun w heart => f heart w) s.2 := by
  induction hearts generalizing s with
  | nil => rfl
  | cons heart hearts ih => exact ih _

/-- Handling new hearts one by one. -/
theorem foldl_handleNewHeart (hearts : List String) (s : HeartMonitor σ × σ) :
    hearts.foldl handleNewHeart s =
      ({ s.1 with
          hearts := s.1.hearts ∪ hearts.toFinset
          log := s.1.log ++ hearts.map .newHeart },
        (hearts.foldl (appear s.1.newHeartCallbacks) (s.1.hearts, s.2)).2) := by
  induction hearts generalizing s with
  | nil => simp
  | cons heart hearts ih =>
    rw [List.foldl_cons, ih]
    simp only [handleNewHeart, appear, List.foldl_cons, List.map_cons, List.append_assoc,
      List.singleton_append, List.toFinset_cons, Finset.insert_union, Finset.union_insert]
    rfl

/-- Handling heart failures one by one. -/
theorem foldl_handleHeartFailure (hearts : List String) (s : HeartMonitor σ × σ) :
    hearts.foldl handleHeartFailure s =
      ({ s.1 with
          hearts := s.1.hearts \ hearts.toFinset
          log := s.1.log ++ hearts.map .failed },
        (hearts.foldl (fail s.1.failedHeartCallbacks) (s.1.hearts, s.2)).2) := by
  induction hearts generalizing s with
  | nil => simp
  | cons heart hearts ih =>
    rw [List.foldl_cons, ih]
    simp only [handleHeartFailure, fail, List.foldl_cons, List.map_cons, List.append_assoc,
      List.singleton_append, List.toFinset_cons, Finset.erase_sdiff_comm, Finset.sdiff_insert]
    rfl

/-- What a beat leaves: the new hearts are in and the failed ones out, those that missed the beat and
are still in are on probation, and the callbacks were called for exactly the new and the failed
hearts, in this order. -/
theorem beat_eq (toIso : Time → String) (add : Time → σ → σ) (toc : Time) (s : HeartMonitor σ × σ) :
    beat toIso add toc s =
      ({ s.1.advance toc with
          hearts := (s.1.hearts ∪ s.1.newHearts) \ s.1.heartFailures
          onProbation := s.1.missedBeats ∩ ((s.1.hearts ∪ s.1.newHearts) \ s.1.heartFailures)
          responses := ∅
          log := s.1.log ++ (s.1.newHearts.sort (· ≤ ·)).map .newHeart ++
            (s.1.heartFailures.sort (· ≤ ·)).map .failed
          pings := s.1.pings ++ [toIso (s.1.advance toc).lifetime] },
        ((s.1.heartFailures.sort (· ≤ ·)).foldl (fail s.1.failedHeartCallbacks)
          ((s.1.newHearts.sort (· ≤ ·)).foldl (appear s.1.newHeartCallbacks)
            (s.1.hearts, add (milliseconds s.1.interval) s.2))).2) := by
  have hnew : (s.1.advance toc).newHearts = s.1.newHearts := rfl
  have hfailures : (s.1.advance toc).heartFailures = s.1.heartFailures := rfl
  have happeared := foldl_appear_fst s.1.newHeartCallbacks (s.1.newHearts.sort (· ≤ ·))
    (s.1.hearts, add (milliseconds s.1.interval) s.2)
  rw [Finset.sort_toFinset] at happeared
  rw [← Prod.eta (List.foldl (appear _) _ _), happeared]
  simp only [beat, hnew, hfailures, foldl_handleNewHeart, foldl_handleHeartFailure,
    Finset.sort_toFinset]
  rfl

/-- A beat publishes one ping, the lifetime which it leaves. -/
theorem pings_beat (toIso : Time → String) (add : Time → σ → σ) (toc : Time) (s : HeartMonitor σ × σ) :
    (beat toIso add toc s).1.pings = s.1.pings ++ [toIso (beat toIso add toc s).1.lifetime] := by
  rw [beat_eq]

end HeartMonitor

end Gpf

import Mathlib.Tactic.IntervalCases
import Mathlib.Tactic.Linarith
import Mathlib.Tactic.Ring
import Gpf.Controller.HeartbeatRounds

/-!
# Which pongs count

A pong is accepted while its ping is one of the last two. Together with the probation of one beat,
this is just enough for a heart which answers every ping before the second beat after it, and it
lets no heart live that only repeats old pings.
-/

namespace Gpf

open HeartMonitor

variable {σ : Type*}

namespace Rounds

variable (rounds : Rounds σ) (start : HeartMonitor σ × σ)

/-- The lifetime after beat `n`. -/
def lifetime (n : ℕ) : Time := (rounds.after start n).1.lifetime

/-- The text which beat `n` publishes. -/
def ping (n : ℕ) : String := rounds.toIso (rounds.lifetime start n)

/-- The texts published up to beat `n`. -/
theorem pings_after (n : ℕ) :
    (rounds.after start n).1.pings =
      start.1.pings ++ (List.range n).map fun i => rounds.ping start (i + 1) := by
  induction n with
  | zero => simp [after]
  | succ n ih =>
    have hpings : (rounds.after start (n + 1)).1.pings =
        (rounds.after start n).1.pings ++ [rounds.ping start (n + 1)] := by
      rw [ping, lifetime, after, pings_beat, listen_fst]
    rw [hpings, ih, List.range_succ, List.map_append, List.append_assoc, List.map_singleton]

/-- A beat remembers the clock, and the lifetime before it. -/
theorem tic_after (n : ℕ) :
    (rounds.after start (n + 1)).1.tic = rounds.toc (n + 1) ∧
      (rounds.after start (n + 1)).1.lastPing = rounds.lifetime start n := by
  rw [lifetime, after, beat_eq, listen_fst]
  exact ⟨rfl, rfl⟩

/-- A beat adds to the lifetime what has passed since the clock it remembers. -/
theorem lifetime_succ (n : ℕ) :
    rounds.lifetime start (n + 1) =
      rounds.lifetime start n + (rounds.toc (n + 1) - (rounds.after start n).1.tic) := by
  rw [lifetime, after, beat_eq, listen_fst]
  rfl

/-- The lifetime follows the clock. -/
theorem lifetime_eq (n : ℕ) :
    rounds.lifetime start (n + 1) = start.1.lifetime + (rounds.toc (n + 1) - start.1.tic) := by
  induction n with
  | zero => exact rounds.lifetime_succ start 0
  | succ n ih =>
    rw [lifetime_succ, ih, (rounds.tic_after start n).1]
    ring

/-- While the clock increases from beat to beat, so does the lifetime. -/
theorem lifetime_lt {n : ℕ} (hclock : ∀ m, 1 ≤ m → m < n → rounds.toc m < rounds.toc (m + 1))
    {i j : ℕ} (hi : 1 ≤ i) (hij : i < j) (hj : j ≤ n) :
    rounds.lifetime start i < rounds.lifetime start j := by
  induction j with
  | zero => omega
  | succ j ih =>
    have hlast : rounds.lifetime start j < rounds.lifetime start (j + 1) := by
      obtain ⟨k, rfl⟩ := Nat.exists_eq_add_of_le' (hi.trans (Nat.le_of_lt_succ hij))
      have hlt := hclock (k + 1) (by omega) (by omega)
      rw [lifetime_eq, lifetime_eq]
      linarith
    rcases Nat.lt_or_eq_of_le (Nat.le_of_lt_succ hij) with hlt | rfl
    · exact (ih hlt (by omega)).trans hlast
    · exact hlast

/-- After beat `n + 1` exactly the pongs are accepted that repeat one of the last two texts. -/
theorem accepts_iff (n : ℕ) (pong : Pong) :
    (rounds.after start (n + 1)).1.accepts rounds.toIso pong = true ↔
      pong.received = rounds.ping start (n + 1) ∨ pong.received = rounds.ping start n := by
  rw [accepts, (rounds.tic_after start n).2, decide_eq_true_eq]
  rfl

/-- A heart responds in a round exactly if one of its pongs there repeats one of the last two texts. -/
theorem mem_responses (n : ℕ) (heart : String) :
    heart ∈ rounds.responses start (n + 2) ↔
      ∃ pong ∈ rounds.pongs (n + 2), pong.heart = heart ∧
        (pong.received = rounds.ping start (n + 1) ∨ pong.received = rounds.ping start n) := by
  simp only [responses, List.mem_toFinset, List.mem_map, List.mem_filter, accepts_iff]
  constructor
  · rintro ⟨pong, ⟨hpong, hreceived⟩, hheart⟩
    exact ⟨pong, hpong, hheart, hreceived⟩
  · intro hexists
    obtain ⟨pong, hpong, hheart, hreceived⟩ := hexists
    exact ⟨pong, ⟨hpong, hreceived⟩, hheart⟩

/-- Up to beat `n`, every pong of the heart repeats a ping up to `k`, or no ping at all. -/
def EchoesOnlyUpTo (n k : ℕ) (heart : String) : Prop :=
  ∀ m ≤ n, ∀ pong ∈ rounds.pongs m, pong.heart = heart →
    (∃ j, 1 ≤ j ∧ j ≤ k ∧ pong.received = rounds.ping start j) ∨
      ∀ j, 1 ≤ j → j ≤ n → pong.received ≠ rounds.ping start j

/-- The answer of the heart to ping `k` is handled between beat `k` and beat `k + 2`. -/
def EchoedInTime (k : ℕ) (heart : Heart) : Prop :=
  (heart.bumm (rounds.ping start k)).2 ∈ rounds.pongs (k + 1) ++ rounds.pongs (k + 2)

/-- Among the hearts for which beat `n` calls the failed-heart callbacks the given one is not: what the
beat makes of the world is what calls for other hearts make of it. -/
def NotFailedAt (n : ℕ) (heart : String) : Prop :=
  ∃ appeared failed : List String, heart ∉ failed ∧
    (rounds.after start n).2 = rounds.called start (n - 1) appeared failed

variable {rounds start}

/-- A heart that repeats only pings up to `k` does not respond from round `k + 3` on. -/
theorem notMem_responses {n k m : ℕ} {heart : String}
    (hclock : ∀ i, 1 ≤ i → i < n → rounds.toc i < rounds.toc (i + 1))
    (hinj : ∀ i j, 1 ≤ i → i ≤ n → 1 ≤ j → j ≤ n → rounds.ping start i = rounds.ping start j →
      rounds.lifetime start i = rounds.lifetime start j)
    (hold : rounds.EchoesOnlyUpTo start n k heart) (hm : k + 3 ≤ m) (hmn : m ≤ n) :
    heart ∉ rounds.responses start m := by
  obtain ⟨m, rfl⟩ := Nat.exists_eq_add_of_le' (show 2 ≤ m by omega)
  rw [mem_responses]
  intro hexists
  obtain ⟨pong, hpong, hheart, hreceived⟩ := hexists
  -- the text accepted in this round is that of a ping `p` after `k`
  obtain ⟨p, hkp, hpn, hp⟩ : ∃ p, k < p ∧ p ≤ n ∧ pong.received = rounds.ping start p := by
    rcases hreceived with hcurrent | hlast
    · exact ⟨m + 1, by omega, by omega, hcurrent⟩
    · exact ⟨m, by omega, by omega, hlast⟩
  rcases hold (m + 2) hmn pong hpong hheart with ⟨j, hj, hjk, heq⟩ | hnone
  · have hlt := rounds.lifetime_lt start hclock hj (show j < p by omega) hpn
    have hsame := hinj j p hj (by omega) (by omega) hpn (heq.symm.trans hp)
    exact hlt.ne hsame
  · exact hnone p (by omega) hpn hp

/-- A heart whose answer to ping `k` is handled in time responds in one of the two rounds after. -/
theorem EchoedInTime.mem_responses {k : ℕ} {heart : Heart} (h : rounds.EchoedInTime start k heart)
    (hk : 1 ≤ k) :
    heart.id ∈ rounds.responses start (k + 1) ∪ rounds.responses start (k + 2) := by
  obtain ⟨k, rfl⟩ := Nat.exists_eq_add_of_le' hk
  rw [Finset.mem_union, Rounds.mem_responses, Rounds.mem_responses]
  rcases List.mem_append.mp h with hfirst | hsecond
  · exact .inl ⟨_, hfirst, rfl, .inl rfl⟩
  · exact .inr ⟨_, hsecond, rfl, .inr rfl⟩

/-- A beat fails only hearts without a response in its round and the one before. -/
theorem notFailedAt_of_mem {n : ℕ} {heart : String} (hstart : Settled start.1 ∅ ∅)
    (h : heart ∈ rounds.responses start n ∪ rounds.responses start (n + 1)) :
    rounds.NotFailedAt start (n + 1) heart := by
  refine ⟨_, _, ?_, rounds.after_snd hstart n⟩
  rw [Finset.mem_sort, Finset.mem_sdiff]
  exact fun hfailed => hfailed.2 h

end Rounds

/-- Up to beat `n` of a run of a new heartmonitor, with a clock that increases from beat to beat and
distinct texts for distinct times: a heart that repeats only pings up to `k` is dead from beat `k + 4`
on, and a heart whose answers from ping `k₀` on are handled in time is not failed from beat `k₀ + 2`
on. -/
theorem ping_window (rounds : Rounds σ) (interval : ℤ) (lifetime tic lastPing : Time)
    (newHeartCallbacks failedHeartCallbacks : List (HeartCallback σ)) (w : σ) (start : HeartMonitor σ × σ)
    (hstart : start =
      (.create interval lifetime tic lastPing newHeartCallbacks failedHeartCallbacks, w))
    (n : ℕ) (hclock : ∀ i, 1 ≤ i → i < n → rounds.toc i < rounds.toc (i + 1))
    (hinj : ∀ i j, 1 ≤ i → i ≤ n → 1 ≤ j → j ≤ n → rounds.ping start i = rounds.ping start j →
      rounds.lifetime start i = rounds.lifetime start j) (heart : Heart) :
    (∀ k, k + 4 ≤ n → rounds.EchoesOnlyUpTo start n k heart.id →
        (rounds.after start n).1.alive heart.id = false) ∧
      ∀ k₀, 1 ≤ k₀ → k₀ + 2 ≤ n →
        (∀ k, k₀ ≤ k → k + 2 ≤ n → rounds.EchoedInTime start k heart) →
        rounds.NotFailedAt start n heart.id := by
  have hsettled : Rounds.Settled start.1 ∅ ∅ := by
    rw [hstart]
    exact ⟨rfl, rfl, rfl⟩
  constructor
  · intro k hk hold
    have hlast := Rounds.notMem_responses hclock hinj hold (show k + 3 ≤ n by omega) le_rfl
    have hprevious := Rounds.notMem_responses hclock hinj hold (show k + 3 ≤ n - 1 by omega)
      (Nat.sub_le n 1)
    refine decide_eq_false ?_
    rw [(rounds.settled_after hsettled n).hearts, Finset.mem_union]
    exact fun h => h.elim hlast hprevious
  · intro k₀ hk₀ hn hechoed
    obtain ⟨k, rfl⟩ := Nat.exists_eq_add_of_le' (show 2 ≤ n by omega)
    have hmem := (hechoed k (by omega) le_rfl).mem_responses (by omega)
    exact Rounds.notFailedAt_of_mem hsettled hmem

/-- Five beats, two seconds apart: `g` answers each ping at once, and `h` only ever repeats the first.
The world is the list of the calls. -/
def Rounds.fiveBeats : Rounds (List String) where
  toIso t := ["20140101T000000", "20140101T000002", "20140101T000004", "20140101T000006",
    "20140101T000008", "20140101T000010"].getD ((t - 1388534400000000) / 2000000).toNat ""
  add _ w := w
  pongs n := [⟨"g", ["20140101T000000", "20140101T000002", "20140101T000004", "20140101T000006",
    "20140101T000008", "20140101T000010"].getD (n - 1) ""⟩, ⟨"h", "20140101T000002"⟩]
  meanwhile _ w := w
  toc n := 1388534400000000 + 2000000 * n

/-- The heartmonitor of these beats, whose callbacks note what they are called for. -/
def fiveBeatsMonitor : HeartMonitor (List String) :=
  .create 2000 1388534400000000 1388534400000000 1388534400000000
    [fun heart _ w => w ++ ["new", heart]] [fun heart _ w => w ++ ["failed", heart]]

/-- After the five beats `h` is dead, and the fifth does not fail `g`, which is alive: `h` is the only
heart that the failed-heart callback was ever called for. -/
theorem ping_window_fiveBeats :
    ∃ start : HeartMonitor (List String) × List String,
      (Rounds.fiveBeats.after start 5).1.alive "h" = false ∧
        Rounds.fiveBeats.NotFailedAt start 5 "g" ∧
        (Rounds.fiveBeats.after start 5).1.alive "g" = true ∧
        (Rounds.fiveBeats.after start 5).2 = ["new", "g", "new", "h", "failed", "h"] := by
  refine ⟨(fiveBeatsMonitor, []), ?_⟩
  generalize hstart : (fiveBeatsMonitor, ([] : List String)) = start
  have hlifetime : ∀ i, 1 ≤ i → Rounds.fiveBeats.lifetime start i = Rounds.fiveBeats.toc i := by
    intro i hi
    obtain ⟨i, rfl⟩ := Nat.exists_eq_add_of_le' hi
    rw [Rounds.lifetime_eq, ← hstart]
    exact add_sub_cancel _ _
  have hping : ∀ i, 1 ≤ i →
      Rounds.fiveBeats.ping start i = Rounds.fiveBeats.toIso (Rounds.fiveBeats.toc i) := by
    intro i hi
    rw [Rounds.ping, hlifetime i hi]
  have hclock : ∀ i, 1 ≤ i → i < 5 →
      Rounds.fiveBeats.toc i < Rounds.fiveBeats.toc (i + 1) := by
    intro i _ _
    simp only [Rounds.fiveBeats]
    push_cast
    linarith
  have hinj : ∀ i j, 1 ≤ i → i ≤ 5 → 1 ≤ j → j ≤ 5 →
      Rounds.fiveBeats.ping start i = Rounds.fiveBeats.ping start j →
      Rounds.fiveBeats.lifetime start i = Rounds.fiveBeats.lifetime start j := by
    intro i j hi hin hj hjn
    rw [hping i hi, hping j hj, hlifetime i hi, hlifetime j hj]
    interval_cases i <;> interval_cases j <;> decide
  have hold : Rounds.fiveBeats.EchoesOnlyUpTo start 5 1 "h" := by
    intro m _ pong hpong hheart
    refine .inl ⟨1, le_rfl, le_rfl, ?_⟩
    rw [hping 1 le_rfl]
    simp only [Rounds.fiveBeats, List.mem_cons, List.not_mem_nil, or_false] at hpong
    rcases hpong with rfl | rfl
    · exact absurd hheart (show "g" ≠ "h" by decide)
    · decide
  have hechoed : ∀ k, 1 ≤ k → k + 2 ≤ 5 → Rounds.fiveBeats.EchoedInTime start k ⟨"g", 0⟩ := by
    intro k hk hkn
    have hbound : k ≤ 3 := by omega
    rw [Rounds.EchoedInTime, hping k hk]
    interval_cases k <;> decide
  refine ⟨(ping_window _ _ _ _ _ _ _ _ start hstart.symm 5 hclock hinj ⟨"h", 0⟩).1 1 le_rfl hold,
    (ping_window _ _ _ _ _ _ _ _ start hstart.symm 5 hclock hinj ⟨"g", 0⟩).2 1 le_rfl (by omega) hechoed,
    ?_⟩
  rw [← hstart]
  decide +kernel

end Gpf

import Gpf.Library.Transition
import Gpf.Reactor.Dispatch

/-!
# The socket registrations of the reactor

A registration of a socket is spread over three vectors, which `add` extends and from which `remove`
erases at one position. Seen together they are a list of registrations, and the loop of
`operator()`, which advances three iterators at once, goes through that list.
-/

namespace Gpf

open Transition

variable {γ κ σ : Type} {P : TimerQueue κ}

/-- `getIndex`: the position of the first occurrence, with `none` for `-1`. -/
def getIndex (k : List ℕ) (t : ℕ) : Option ℕ := k.idxOf? t

/-- `reactor::remove`, by way of both functions `removeImpl`; the flag says whether it was listed. -/
def Reactor.removeSocket (r : Reactor γ P) (socket : ℕ) : Reactor γ P × Bool :=
  match getIndex r.socks socket with
  | none => (r, false)
  | some pos =>
    ({ r with
        items := r.items.eraseIdx pos
        callbacks := r.callbacks.eraseIdx pos
        socks := r.socks.eraseIdx pos }, true)

/-- The calls which concern the registrations. -/
inductive SocketCall (γ : Type)
  | add (socket : ℕ) (event : BitVec 16) (cb : γ) (checkIfSocketAddedTwice : Bool)
  | addPreReceive (event : BitVec 16) (cb : γ)
  | remove (socket : ℕ)

/-- What one of these calls does, and what it returns. -/
def Reactor.register (r : Reactor γ P) : SocketCall γ → Reactor γ P × Bool
  | .add socket event cb check => r.addSocket socket event cb check
  | .addPreReceive event cb => r.addPreReceive event cb
  | .remove socket => r.removeSocket socket

/-- What a list of calls does, and what each returns. -/
def Reactor.registerAll (r : Reactor γ P) : List (SocketCall γ) → Reactor γ P × List Bool
  | [] => (r, [])
  | call :: calls =>
    let rest := (r.register call).1.registerAll calls
    (rest.1, (r.register call).2 :: rest.2)

/-- The callback which a call registers to run before a receive, if it does. -/
def SocketCall.preReceive? : SocketCall γ → Option γ
  | .addPreReceive event cb => if event = zmqPollin then some cb else none
  | .add _ _ _ _ | .remove _ => none

/-- One registration: the socket, the events to wait for, and the callback. -/
structure Listener (γ : Type) where
  socket : ℕ
  events : BitVec 16
  callback : γ

/-- What the calls are for, together with what they answer: a listener is added at the end, or refused
because its socket must not be listed twice and is listed; the first listener of a socket is removed,
or there is none. -/
inductive Registers : List (Listener γ) → SocketCall γ × Bool → List (Listener γ) → Prop
  | added {ls : List (Listener γ)} (l : Listener γ) {check : Bool}
      (hnew : check = true → ∀ l' ∈ ls, l'.socket ≠ l.socket) :
      Registers ls (.add l.socket l.events l.callback check, true) (ls ++ [l])
  | refused {ls : List (Listener γ)} {socket : ℕ} {event : BitVec 16} {cb : γ}
      (hlisted : ∃ l ∈ ls, l.socket = socket) : Registers ls (.add socket event cb true, false) ls
  | removed {before after : List (Listener γ)} (l : Listener γ)
      (hfirst : ∀ l' ∈ before, l'.socket ≠ l.socket) :
      Registers (before ++ l :: after) (.remove l.socket, true) (before ++ after)
  | absent {ls : List (Listener γ)} {socket : ℕ} (hnone : ∀ l ∈ ls, l.socket ≠ socket) :
      Registers ls (.remove socket, false) ls
  | preReceive {ls : List (Listener γ)} {event : BitVec 16} {cb : γ} :
      Registers ls (.addPreReceive event cb, true) ls

/-- The three vectors are the three columns of a list of listeners. -/
structure Reactor.Aligned (r : Reactor γ P) (ls : List (Listener γ)) : Prop where
  items : r.items = ls.map fun l => ⟨l.socket, l.events⟩
  callbacks : r.callbacks = ls.map Listener.callback
  socks : r.socks = ls.map Listener.socket

/-- The callbacks owed to the listeners whose reported events meet the requested ones, in order: all those
which run before a receive, then its own, each with its own socket. -/
def readyCalls (pre : List γ) (revents : ℕ → BitVec 16) (ls : List (Listener γ)) : List (γ × ℕ) :=
  (ls.zipIdx.filter fun (l, i) => decide (revents i &&& l.events ≠ 0)).flatMap
    fun (l, _) => (pre ++ [l.callback]).map fun cb => (cb, l.socket)

namespace Reactor.Aligned

variable {r : Reactor γ P} {ls : List (Listener γ)}

/-- A socket is among those of the listeners exactly when it has an index. -/
theorem getIndex_eq_none (h : r.Aligned ls) {socket : ℕ} :
    getIndex r.socks socket = none ↔ ∀ l ∈ ls, l.socket ≠ socket := by
  rw [getIndex, List.idxOf?_eq_none_iff, h.socks, List.mem_map]
  simp only [not_exists, not_and, ne_eq]

/-- The index of a socket is that of its first listener. -/
theorem getIndex_some (h : r.Aligned ls) {socket pos : ℕ} (hpos : getIndex r.socks socket = some pos) :
    ∃ before l after, ls = before ++ l :: after ∧ before.length = pos ∧ l.socket = socket ∧
      ∀ l' ∈ before, l'.socket ≠ socket := by
  rw [getIndex, h.socks, List.idxOf?_eq_some_iff] at hpos
  obtain ⟨hlt, hsocket, hfirst⟩ := hpos
  rw [List.length_map] at hlt
  refine ⟨ls.take pos, ls[pos], ls.drop (pos + 1), ?_, ?_, ?_, ?_⟩
  · rw [List.cons_getElem_drop_succ, List.take_append_drop]
  · exact List.length_take_of_le hlt.le
  · rwa [List.getElem_map] at hsocket
  · intro l hl
    obtain ⟨i, hi, rfl⟩ := List.getElem_of_mem hl
    rw [List.length_take] at hi
    have hne := hfirst i (by omega)
    rw [List.getElem_map] at hne
    rwa [List.getElem_take]

/-- The constructor lists its internal socket. -/
theorem init (shutdown : γ) :
    (Reactor.init shutdown : Reactor γ P).Aligned [⟨0, zmqPollin, shutdown⟩] := ⟨rfl, rfl, rfl⟩

/-- Adding a socket adds its listener, or is refused. -/
theorem addSocket (h : r.Aligned ls) (socket : ℕ) (event : BitVec 16) (cb : γ) (check : Bool) :
    ∃ ls', Registers ls (.add socket event cb check, (r.addSocket socket event cb check).2) ls' ∧
      (r.addSocket socket event cb check).1.Aligned ls' := by
  have hcontains : r.socks.contains socket = true ↔ ∃ l ∈ ls, l.socket = socket := by
    rw [List.contains_iff_mem, h.socks, List.mem_map]
  unfold Reactor.addSocket
  by_cases hrefuse : (check && r.socks.contains socket) = true
  · rw [if_pos hrefuse]
    obtain ⟨hcheck, hlisted⟩ := Bool.and_eq_true_iff.mp hrefuse
    subst hcheck
    exact ⟨ls, .refused (hcontains.mp hlisted), h⟩
  · rw [if_neg hrefuse]
    have hnew : check = true → ∀ l' ∈ ls, l'.socket ≠ socket := by
      intro hcheck l' hl' heq
      apply hrefuse
      rw [hcheck, hcontains.mpr ⟨l', hl', heq⟩, Bool.and_self]
    refine ⟨ls ++ [⟨socket, event, cb⟩], .added ⟨socket, event, cb⟩ hnew, ?_, ?_, ?_⟩
    · simp only [h.items, List.map_append, List.map_singleton]
    · simp only [h.callbacks, List.map_append, List.map_singleton]
    · simp only [h.socks, List.map_append, List.map_singleton]

/-- Removing a socket removes its first listener, from all three vectors. -/
theorem removeSocket (h : r.Aligned ls) (socket : ℕ) :
    ∃ ls', Registers ls (.remove socket, (r.removeSocket socket).2) ls' ∧
      (r.removeSocket socket).1.Aligned ls' := by
  unfold Reactor.removeSocket
  cases hpos : getIndex r.socks socket with
  | none => exact ⟨ls, .absent (h.getIndex_eq_none.mp hpos), h⟩
  | some pos =>
    obtain ⟨before, l, after, rfl, rfl, rfl, hfirst⟩ := h.getIndex_some hpos
    have herase {α : Type} (f : Listener γ → α) :
        ((before ++ l :: after).map f).eraseIdx before.length = (before ++ after).map f := by
      rw [List.map_append, List.eraseIdx_append_of_length_le (by simp), List.length_map, Nat.sub_self,
        List.map_cons, List.eraseIdx_cons_zero, List.map_append]
    refine ⟨before ++ after, .removed l hfirst, ?_, ?_, ?_⟩
    · simp only [h.items, herase]
    · simp only [h.callbacks, herase]
    · simp only [h.socks, herase]

/-- Every call does to the listeners what it is for, and answers accordingly. -/
theorem register (h : r.Aligned ls) (call : SocketCall γ) :
    ∃ ls', Registers ls (call, (r.register call).2) ls' ∧ (r.register call).1.Aligned ls' := by
  cases call with
  | add socket event cb check => exact h.addSocket socket event cb check
  | addPreReceive event cb =>
    simp only [Reactor.register, addPreReceive]
    split
    · exact ⟨ls, .preReceive, h.items, h.callbacks, h.socks⟩
    · exact ⟨ls, .preReceive, h⟩
  | remove socket => exact h.removeSocket socket

/-- A list of calls is a run of the list of listeners, with the same answers. -/
theorem registerAll (h : r.Aligned ls) (calls : List (SocketCall γ)) :
    ∃ ls', Run Registers ls (calls.zip (r.registerAll calls).2) ls' ∧
      (r.registerAll calls).1.Aligned ls' ∧ (r.registerAll calls).2.length = calls.length := by
  induction calls generalizing r ls with
  | nil => exact ⟨ls, .nil ls, h, rfl⟩
  | cons call calls ih =>
    obtain ⟨mid, hstep, hmid⟩ := h.register call
    obtain ⟨ls', hrun, hlast, hlength⟩ := ih hmid
    refine ⟨ls', .cons hstep hrun, hlast, ?_⟩
    simp only [Reactor.registerAll, List.length_cons, hlength]

/-- The loop over the three vectors, from any position on, serves the ready listeners. -/
theorem callsFrom_eq (pre : List γ) (revents : ℕ → BitVec 16) (i : ℕ) (ls : List (Listener γ)) :
    callsFrom pre revents i (ls.map fun l => ⟨l.socket, l.events⟩) (ls.map Listener.callback)
        (ls.map Listener.socket) =
      ((ls.zipIdx i).filter fun (l, i) => decide (revents i &&& l.events ≠ 0)).flatMap
        fun (l, _) => (pre ++ [l.callback]).map fun cb => (cb, l.socket) := by
  induction ls generalizing i with
  | nil => rfl
  | cons l ls ih =>
    simp only [List.map_cons, callsFrom, ih, List.zipIdx_cons, List.filter_cons]
    by_cases hready : revents i &&& l.events ≠ 0
    · rw [if_pos hready, if_pos (decide_eq_true hready), List.flatMap_cons, List.map_append]
      rfl
    · rw [if_neg hready, if_neg fun h => hready (of_decide_eq_true h), List.nil_append]

/-- What `operator()` runs on the ready sockets is what is owed to the listeners. -/
theorem socketCalls_eq (h : r.Aligned ls) (revents : ℕ → BitVec 16) :
    r.socketCalls revents = readyCalls r.preReceiveCallbacks revents ls := by
  rw [socketCalls, h.items, h.callbacks, h.socks]
  exact callsFrom_eq r.preReceiveCallbacks revents 0 ls

end Reactor.Aligned

/-- The callbacks which run before a receive are those registered for it, in order. -/
theorem Reactor.registerAll_preReceiveCallbacks (r : Reactor γ P) (calls : List (SocketCall γ)) :
    (r.registerAll calls).1.preReceiveCallbacks =
      r.preReceiveCallbacks ++ calls.filterMap SocketCall.preReceive? := by
  induction calls generalizing r with
  | nil => exact (List.append_nil _).symm
  | cons call calls ih =>
    have hregister : (r.register call).1.preReceiveCallbacks =
        r.preReceiveCallbacks ++ call.preReceive?.toList := by
      cases call with
      | add socket event cb check =>
        simp only [register, addSocket, SocketCall.preReceive?, Option.toList_none, List.append_nil]
        split <;> rfl
      | addPreReceive event cb =>
        simp only [register, addPreReceive, SocketCall.preReceive?]
        split
        · rfl
        · exact (List.append_nil _).symm
      | remove socket =>
        simp only [register, removeSocket, SocketCall.preReceive?, Option.toList_none, List.append_nil]
        split <;> rfl
    rw [registerAll, ih, hregister, List.append_assoc, List.filterMap_cons]
    cases call.preReceive? <;> rfl

/-- Running callbacks one after the other, in the words of a list. -/
theorem Running.runCallbacks_eq_foldlM (H : Handlers γ κ σ) (calls : List (γ × ℕ))
    (s : Running γ σ P) :
    runCallbacks H calls s = calls.foldlM (fun u call => (H.onActivity call.1 call.2 u.world).map
      fun effect => { u with reactor := u.reactor.performAll effect.2, world := effect.1 }) s := by
  induction calls generalizing s with
  | nil => rfl
  | cons call calls ih =>
    rw [List.foldlM_cons, runCallbacks]
    cases H.onActivity call.1 call.2 s.world with
    | none => rfl
    | some effect => exact ih (s.after effect)

/-- The same handlers in a world which notes the calls of socket callbacks, each with its socket. -/
def Handlers.traced (H : Handlers γ κ σ) : Handlers γ κ (σ × List (γ × ℕ)) where
  onActivity cb socket w := (H.onActivity cb socket w.1).map fun effect =>
    ((effect.1, w.2 ++ [(cb, socket)]), effect.2)
  onTimeout callback w := (H.onTimeout callback w.1).map fun effect => ((effect.1, w.2), effect.2)

/-- What the world has noted when callbacks have been run. -/
theorem Running.trace_runCallbacks (H : Handlers γ κ σ) (calls : List (γ × ℕ))
    {s t : Running γ (σ × List (γ × ℕ)) P} (h : runCallbacks H.traced calls s = some t) :
    t.world.2 = s.world.2 ++ calls := by
  induction calls generalizing s with
  | nil =>
    cases h
    exact (List.append_nil _).symm
  | cons call calls ih =>
    obtain ⟨cb, socket⟩ := call
    obtain ⟨effect, heffect, hrest⟩ := Option.bind_eq_some_iff.mp h
    obtain ⟨inner, -, rfl⟩ := Option.map_eq_some_iff.mp heffect
    have htrace := ih hrest
    rw [htrace]
    exact List.append_assoc _ _ _

/-- Whatever calls are made on a new reactor: its vectors are the columns of one list of listeners, on
which every call does what it is for and answers accordingly, and the pre-receive callbacks are those
added, in order. An iteration whose poll reports readiness runs exactly the callbacks owed to the ready
listeners, one after the other, each with its own socket: these calls are what a world that notes them
has seen when the iteration is over. -/
theorem registrations_aligned (shutdown : γ) (calls : List (SocketCall γ)) :
    ∃ ls, Run Registers [⟨0, zmqPollin, shutdown⟩]
        (calls.zip ((Reactor.init shutdown : Reactor γ P).registerAll calls).2) ls ∧
      ((Reactor.init shutdown : Reactor γ P).registerAll calls).2.length = calls.length ∧
      ((Reactor.init shutdown : Reactor γ P).registerAll calls).1.Aligned ls ∧
      ((Reactor.init shutdown : Reactor γ P).registerAll calls).1.preReceiveCallbacks =
        calls.filterMap SocketCall.preReceive? ∧
      ∀ (H : Handlers γ κ σ) (timeout : ℤ) (fuel : ℕ),
        (∀ (round : Round σ) (s : Running γ σ P),
          s.reactor.Aligned ls →
          s.reactor.preReceiveCallbacks = calls.filterMap SocketCall.preReceive? →
          0 < (s.polled timeout round).ret →
          s.call H timeout round fuel =
            (readyCalls (calls.filterMap SocketCall.preReceive?)
                (s.polled timeout round).revents ls).foldlM
              (fun u call => (H.onActivity call.1 call.2 u.world).map fun effect =>
                { u with reactor := u.reactor.performAll effect.2, world := effect.1 })
              (s.polledInto (s.polled timeout round))) ∧
        ∀ (round : Round (σ × List (γ × ℕ))) (s t : Running γ (σ × List (γ × ℕ)) P),
          s.reactor.Aligned ls →
          s.reactor.preReceiveCallbacks = calls.filterMap SocketCall.preReceive? →
          0 < (s.polled timeout round).ret →
          s.call H.traced timeout round fuel = some t →
          t.world.2 = ((s.polled timeout round).arrivals s.world).2 ++
            readyCalls (calls.filterMap SocketCall.preReceive?) (s.polled timeout round).revents ls := by
  have hinit : (Reactor.init shutdown : Reactor γ P).Aligned [⟨0, zmqPollin, shutdown⟩] := .init shutdown
  obtain ⟨ls, hrun, haligned, hlength⟩ := hinit.registerAll calls
  refine ⟨ls, hrun, hlength, haligned, Reactor.registerAll_preReceiveCallbacks _ calls, ?_⟩
  intro H timeout fuel
  constructor
  · intro round s hs hpre hret
    rw [← Running.runCallbacks_eq_foldlM, ← hpre, ← hs.socketCalls_eq]
    simp only [Running.call]
    rw [if_neg hret.ne', if_neg (by omega)]
  · intro round s t hs hpre hret hcall
    simp only [Running.call] at hcall
    rw [if_neg hret.ne', if_neg (by omega), hs.socketCalls_eq, hpre] at hcall
    exact Running.trace_runCallbacks H _ hcall

end Gpf

import Gpf.Library.PriorityQueue
import Gpf.Reactor.Timer

/-!
# The reactor: one loop over sockets and timers

`operator()` polls once and then either fires the timers which are due or runs the callbacks of
the ready sockets. Callbacks act on a world of their own; of the reactor they can only schedule
timers, set the flag of a timer they hold, and, for the internal socket, request a stop.

The timer queue is any implementation of `std::priority_queue` with the latest deadline least.
-/

namespace Gpf

/-- `std::priority_queue` of timers, ordered so that the closest deadline is on top. -/
abbrev TimerQueue (κ : Type) := PriorityQueue (DeadlineTimer κ) DeadlineTimer.deadline

/-- What a callback does to the reactor. -/
inductive Action (κ : Type)
  | add (timer : DeadlineTimer κ)
  | setInactive (ptr : ℕ) (b : Bool)
  | requestStop

/-- The code behind the socket and the timer callbacks; no result stands for an exception. -/
structure Handlers (γ κ σ : Type) where
  onActivity : γ → ℕ → σ → Option (σ × List (Action κ))
  onTimeout : κ → σ → Option (σ × List (Action κ))

/-- `zmq_pollitem_t`, as far as `reactor::add` fills it in. -/
structure PollItem where
  socket : ℕ
  events : BitVec 16

/-- `ZMQ_POLLIN`. -/
def zmqPollin : BitVec 16 := 1

/-- The fields of `reactor`, with the flags of the timer objects it or its users hold. -/
structure Reactor (γ : Type) {κ : Type} (P : TimerQueue κ) where
  items : List PollItem := []
  callbacks : List γ := []
  socks : List ℕ := []
  preReceiveCallbacks : List γ := []
  stopRequested : Bool := false
  timerQueue : P.Carrier := P.empty
  inactive : Finset ℕ := ∅

/-- What `zmq::poll` reports, the clock when it returns and when `fire_due` reads it, and what
happened to the world meanwhile. The two times are independent: the clock may be set back. -/
structure Polled (σ : Type) where
  ret : ℤ
  revents : ℕ → BitVec 16
  returnedAt : Time
  now : Time
  arrivals : σ → σ

/-- The outside of one call of `operator()`: the clock at its start, and the poll it makes. -/
structure Round (σ : Type) where
  calledAt : Time
  poll : ℤ → Polled σ

/-- A round in which only a part of the world changes from outside. -/
def Round.map {ω σ : Type} (lift : (ω → ω) → σ → σ) (round : Round ω) : Round σ where
  calledAt := round.calledAt
  poll timeout :=
    { ret := (round.poll timeout).ret
      revents := (round.poll timeout).revents
      returnedAt := (round.poll timeout).returnedAt
      now := (round.poll timeout).now
      arrivals := lift (round.poll timeout).arrivals }

variable {γ κ σ : Type} {P : TimerQueue κ}

namespace Reactor

/-- `reactor::add` of a socket, by way of `addImpl`; the flag says whether it was added. -/
def addSocket (r : Reactor γ P) (socket : ℕ) (event : BitVec 16) (cb : γ)
    (checkIfSocketAddedTwice : Bool) : Reactor γ P × Bool :=
  if checkIfSocketAddedTwice && r.socks.contains socket then (r, false)
  else
    ({ r with
        items := r.items ++ [⟨socket, event⟩]
        callbacks := r.callbacks ++ [cb]
        socks := r.socks ++ [socket] }, true)

/-- A socket leaves the timers alone. -/
@[simp] theorem addSocket_timerQueue (r : Reactor γ P) (socket : ℕ) (event : BitVec 16) (cb : γ)
    (check : Bool) : (r.addSocket socket event cb check).1.timerQueue = r.timerQueue := by
  unfold addSocket
  split <;> rfl

/-- It leaves their flags alone as well. -/
@[simp] theorem addSocket_inactive (r : Reactor γ P) (socket : ℕ) (event : BitVec 16) (cb : γ)
    (check : Bool) : (r.addSocket socket event cb check).1.inactive = r.inactive := by
  unfold addSocket
  split <;> rfl

/-- The constructor, which adds the internal socket that `_shutdown` listens to. -/
def init (shutdown : γ) : Reactor γ P := (addSocket {} 0 zmqPollin shutdown true).1

/-- `reactor::add` of a callback which runs before those of the sockets. -/
def addPreReceive (r : Reactor γ P) (event : BitVec 16) (cb : γ) : Reactor γ P × Bool :=
  if event = zmqPollin then ({ r with preReceiveCallbacks := r.preReceiveCallbacks ++ [cb] }, true)
  else (r, true)

/-- Whether `m_active` is set in a timer object. -/
def active (r : Reactor γ P) (ptr : ℕ) : Bool := decide (ptr ∉ r.inactive)

/-- One action of a callback. -/
def perform (r : Reactor γ P) : Action κ → Reactor γ P
  | .add timer => { r with timerQueue := P.push r.timerQueue timer }
  | .setInactive ptr true => { r with inactive := insert ptr r.inactive }
  | .setInactive ptr false => { r with inactive := r.inactive.erase ptr }
  | .requestStop => { r with stopRequested := true }

/-- The actions of a callback, in order. -/
def performAll (r : Reactor γ P) (actions : List (Action κ)) : Reactor γ P :=
  actions.foldl perform r

/-- `timer_queue::next_timeout`. -/
def nextTimeout (r : Reactor γ P) (clock : Time) : ℤ :=
  match P.top? r.timerQueue with
  | none => -1
  | some timer => max 0 (timer.deadline - clock)

/-- The timeout which `operator()` hands to the poll. -/
def pollTimeout (r : Reactor γ P) (timeout : ℤ) (clock : Time) : ℤ :=
  if timeout < 0 then r.nextTimeout clock else min timeout (r.nextTimeout clock)

/-- The loop of `operator()` over the three vectors, from position `i` on: the callbacks to run, each
with its socket. For a ready socket these are the pre-receive callbacks, then its own. -/
def callsFrom (pre : List γ) (revents : ℕ → BitVec 16) :
    ℕ → List PollItem → List γ → List ℕ → List (γ × ℕ)
  | i, item :: items, cb :: callbacks, sock :: socks =>
    (if revents i &&& item.events ≠ 0 then pre.map (fun cb => (cb, sock)) ++ [(cb, sock)] else []) ++
      callsFrom pre revents (i + 1) items callbacks socks
  | _, _, _, _ => []

/-- The callbacks that `operator()` runs on the ready sockets, in order. -/
def socketCalls (r : Reactor γ P) (revents : ℕ → BitVec 16) : List (γ × ℕ) :=
  callsFrom r.preReceiveCallbacks revents 0 r.items r.callbacks r.socks

end Reactor

/-- A reactor in its world, with the timers fired by the latest call of `operator()`. -/
structure Running (γ σ : Type) {κ : Type} (P : TimerQueue κ) where
  reactor : Reactor γ P
  world : σ
  fired : List (DeadlineTimer κ) := []

namespace Running

/-- The effects of a callback that has run. -/
def after (s : Running γ σ P) (effect : σ × List (Action κ)) : Running γ σ P :=
  { s with reactor := s.reactor.performAll effect.2, world := effect.1 }

/-- Run the given socket callbacks one after the other. -/
def runCallbacks (H : Handlers γ κ σ) : List (γ × ℕ) → Running γ σ P → Option (Running γ σ P)
  | [], s => some s
  | (cb, socket) :: calls, s => do
    let effect ← H.onActivity cb socket s.world
    runCallbacks H calls (s.after effect)

/-- `deadline_timer::fire`. -/
def fire (H : Handlers γ κ σ) (timer : DeadlineTimer κ) (s : Running γ σ P) :
    Option (Running γ σ P) :=
  if s.reactor.active timer.ptr then do
    let effect ← H.onTimeout timer.callback s.world
    some { s.after effect with fired := s.fired ++ [timer] }
  else some s

/-- `queue.pop()`: whatever is on top by now leaves the queue. -/
def pop (s : Running γ σ P) : Running γ σ P :=
  { s with reactor := { s.reactor with timerQueue := P.pop s.reactor.timerQueue } }

/-- `timer_queue::fire_due`, with fuel for the iterations of its loop. -/
def fireDue (H : Handlers γ κ σ) (now : Time) : ℕ → Running γ σ P → Option (Running γ σ P)
  | 0, _ => none
  | fuel + 1, s =>
    match P.top? s.reactor.timerQueue with
    | none => some s
    | some timer =>
      if timer.isDue now then do
        let s ← s.fire H timer
        fireDue H now fuel s.pop
      else some s

/-- The poll of one call of `operator()`. -/
def polled (s : Running γ σ P) (timeout : ℤ) (round : Round σ) : Polled σ :=
  round.poll (s.reactor.pollTimeout timeout round.calledAt)

/-- The state in which a poll leaves the reactor. -/
def polledInto (s : Running γ σ P) (poll : Polled σ) : Running γ σ P :=
  { s with world := poll.arrivals s.world, fired := [] }

/-- `reactor::operator()`. -/
def call (H : Handlers γ κ σ) (timeout : ℤ) (round : Round σ) (fuel : ℕ) (s : Running γ σ P) :
    Option (Running γ σ P) :=
  let poll := s.polled timeout round
  if poll.ret = 0 then fireDue H poll.now fuel (s.polledInto poll)
  else if poll.ret < 0 then none
  else runCallbacks H (s.reactor.socketCalls poll.revents) (s.polledInto poll)

/-- One iteration of the loop in `reactor::run`: a call of `operator()` that returns. -/
def Iterates (H : Handlers γ κ σ) (timeout : ℤ) (s : Running γ σ P) (round : Round σ)
    (t : Running γ σ P) : Prop :=
  s.reactor.stopRequested = false ∧ ∃ fuel, s.call H timeout round fuel = some t

/-- The state in which `reactor::run` enters its loop. -/
def start (s : Running γ σ P) : Running γ σ P :=
  { s with reactor := { s.reactor with stopRequested := false } }

end Running

end Gpf

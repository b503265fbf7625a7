import Mathlib.Tactic.Ring
import Gpf.Library.Transition
import Gpf.Controller.Hub
import Gpf.Util.UrlRoundTrip

/-!
# The addresses of a hub

The factory takes its ports from a pool that never hands one out twice, and writes every address with
`boost::format`: the interface first, and then, with what it has written as the format, the port. What it
binds and what it tells engines and clients is put together in `get`, and checked by the constructor of the
hub.

`boost::format` is Boost's and appears as a parameter, and so do the answers of libzmq, which may refuse to
bind or to connect a socket.
-/

namespace Gpf

open Transition

/-- `port_t`, an `int`. -/
abbrev Port := ℤ

/-- `portpool`. -/
structure PortPool where
  beginPort : Port
  endPort : Port

namespace PortPool

/-- The constructor of `portpool`. -/
def create (start : Port) : PortPool := { beginPort := start, endPort := start }

/-- `portpool::get`: each round of the loop hands out the next port. -/
def get (pool : PortPool) : (n : ℕ) → Vector Port n × PortPool
  | 0 => (#v[], pool)
  | n + 1 =>
    let (v, pool) := pool.get n
    (v.push pool.endPort, { pool with endPort := pool.endPort + 1 })

/-- One more round of the loop. -/
theorem get_succ (pool : PortPool) (n : ℕ) : pool.get (n + 1) =
    ((pool.get n).1.push (pool.get n).2.endPort,
      { (pool.get n).2 with endPort := (pool.get n).2.endPort + 1 }) := rfl

/-- The pool goes on behind the ports that it has handed out. -/
theorem endPort_get (pool : PortPool) (n : ℕ) : (pool.get n).2.endPort = pool.endPort + n := by
  induction n with
  | zero => simp [get]
  | succ n ih =>
    rw [get_succ, ih]
    push_cast
    ring

/-- It hands out consecutive ports. -/
theorem getElem_get (pool : PortPool) (n i : ℕ) (hi : i < n) :
    (pool.get n).1[i] = pool.endPort + i := by
  induction n with
  | zero => omega
  | succ n ih =>
    simp only [get_succ, Vector.getElem_push]
    split
    · rename_i hlt
      exact ih hlt
    · rw [endPort_get]
      congr
      omega

end PortPool

/-- A directive of a format string with what is written for it, and the text up to the next one. -/
structure Directive where
  conversion : Char
  argument : List Char
  text : List Char

/-- `boost::format`: the string which is written for a format string and its arguments, `none` where it
throws. The arguments take the place of the directives one after the other, and the text around them is
kept. -/
structure Format where
  str : List Char → List (List Char) → Option (List Char)
  str_directives : ∀ (text : List Char) (ds : List Directive), '%' ∉ text →
    (∀ d ∈ ds, (d.conversion = 's' ∨ d.conversion = 'i') ∧ '%' ∉ d.text) →
    str (text ++ ds.flatMap fun d => '%' :: d.conversion :: d.text) (ds.map Directive.argument) =
      some (text ++ ds.flatMap fun d => d.argument ++ d.text)

namespace Format

/-- Write the arguments for the directives; it throws on too many, on too few, and on any other directive. -/
def write? (s : List Char) (args : List (List Char)) : Option (List Char) :=
  match s with
  | [] => if args = [] then some [] else none
  | c :: rest =>
    if c ≠ '%' then (write? rest args).map (c :: ·)
    else
      match rest with
      | [] => none
      | d :: rest =>
        if d = '%' then (write? rest args).map ('%' :: ·)
        else
          match args with
          | [] => none
          | arg :: args => if d = 's' ∨ d = 'i' then (write? rest args).map (arg ++ ·) else none

/-- Text without directives is kept. -/
theorem write?_append {text : List Char} (htext : '%' ∉ text) (s : List Char) (args : List (List Char)) :
    write? (text ++ s) args = (write? s args).map (text ++ ·) := by
  induction text with
  | nil => simp
  | cons c text ih =>
    have hc : c ≠ '%' := fun h => htext (h ▸ List.mem_cons_self)
    have hplain : write? (c :: (text ++ s)) args = (write? (text ++ s) args).map (c :: ·) := by
      rw [write?.eq_def]
      simp only [hc, ne_eq, not_false_eq_true, if_true]
    rw [List.cons_append, hplain, ih fun h => htext (List.mem_cons_of_mem c h), Option.map_map]
    rfl

/-- An argument is written for its directive. -/
theorem write?_directive {c : Char} (hc : c = 's' ∨ c = 'i') (s arg : List Char) (args : List (List Char)) :
    write? ('%' :: c :: s) (arg :: args) = (write? s args).map (arg ++ ·) := by
  have hpercent : c ≠ '%' := by
    rcases hc with rfl | rfl <;> decide
  rw [write?.eq_def]
  simp only [hpercent, hc, ne_eq, not_true_eq_false, if_true, if_false]

/-- Arguments and text take turns. -/
theorem write?_directives (text : List Char) (ds : List Directive) (htext : '%' ∉ text)
    (hds : ∀ d ∈ ds, (d.conversion = 's' ∨ d.conversion = 'i') ∧ '%' ∉ d.text) :
    write? (text ++ ds.flatMap fun d => '%' :: d.conversion :: d.text) (ds.map Directive.argument) =
      some (text ++ ds.flatMap fun d => d.argument ++ d.text) := by
  rw [write?_append htext]
  have hrest : write? (ds.flatMap fun d => '%' :: d.conversion :: d.text) (ds.map Directive.argument) =
      some (ds.flatMap fun d => d.argument ++ d.text) := by
    induction ds with
    | nil => rfl
    | cons d ds ih =>
      obtain ⟨hd, hds⟩ := List.forall_mem_cons.mp hds
      rw [List.flatMap_cons, List.map_cons, List.cons_append, List.cons_append, write?_directive hd.1,
        write?_append hd.2, ih hds]
      simp
  rw [hrest, Option.map_some]

/-- A format with these two directives. -/
def plain : Format := ⟨write?, write?_directives⟩

end Format

/-- An `int` as it is written. -/
def intText : ℤ → List Char
  | .ofNat n => Nat.toDigits 10 n
  | .negSucc n => '-' :: Nat.toDigits 10 (n + 1)

/-- `engine_info`. -/
structure EngineInfo where
  hubRegistration : List Char
  control : List Char
  mux : List Char
  task : List Char
  iopub : List Char
  heartbeat : Vector (List Char) 2

/-- `client_info`. -/
structure ClientInfo where
  hubRegistration : List Char
  control : List Char
  mux : List Char
  task : List Char
  taskScheme : List Char
  iopub : List Char
  notification : List Char

/-- The kinds of sockets in use. -/
inductive SocketType
  | router
  | dealer
  | pub
  | sub
  | req
deriving DecidableEq

/-- The sockets which the factory makes for the hub and its heartmonitor. -/
inductive FactorySocket
  | query
  | heartPub
  | heartRouter
  | notifier
  | monitor
  | resubmit
deriving DecidableEq

/-- The kind of each of them. -/
def FactorySocket.type : FactorySocket → SocketType
  | query => .router
  | heartPub => .pub
  | heartRouter => .router
  | notifier => .pub
  | monitor => .sub
  | resubmit => .dealer

/-- libzmq, as far as the factory can tell: whether a socket can be bound to an address when others have been
bound, and whether one can be connected. A transport it does not know, a name it cannot resolve and an address
in use are reasons not to. -/
structure Zmq where
  canBind : List (FactorySocket × List Char) → FactorySocket × List Char → Bool
  canConnect : FactorySocket × List Char → Bool

namespace Zmq

/-- `bind` of a socket, which comes after the others that have been bound, and `none` where it throws. -/
def bind (zmq : Zmq) (bound : List (FactorySocket × List Char)) (socket : FactorySocket)
    (addr : List Char) : Option (List (FactorySocket × List Char)) :=
  if zmq.canBind bound (socket, addr) = true then some (bound ++ [(socket, addr)]) else none

/-- `connect` of a socket, and `none` where it throws. -/
def connect (zmq : Zmq) (socket : FactorySocket) (addr : List Char) :
    Option (List (FactorySocket × List Char)) :=
  if zmq.canConnect (socket, addr) = true then some [(socket, addr)] else none

/-- Whether sockets can be bound one after the other. -/
def canBindAll (zmq : Zmq) : List (FactorySocket × List Char) → List (FactorySocket × List Char) → Bool
  | _, [] => true
  | bound, b :: bs => zmq.canBind bound b && zmq.canBindAll (bound ++ [b]) bs

/-- What follows a bind comes about if that succeeds. -/
theorem bind_bind {β : Type} (zmq : Zmq) (bound : List (FactorySocket × List Char)) (socket : FactorySocket)
    (addr : List Char) (f : List (FactorySocket × List Char) → Option β) :
    (zmq.bind bound socket addr >>= f) =
      if zmq.canBind bound (socket, addr) = true then f (bound ++ [(socket, addr)]) else none := by
  unfold bind
  split <;> rfl

/-- What follows a connect comes about if that succeeds. -/
theorem connect_bind {β : Type} (zmq : Zmq) (socket : FactorySocket) (addr : List Char)
    (f : List (FactorySocket × List Char) → Option β) : (zmq.connect socket addr >>= f) =
      if zmq.canConnect (socket, addr) = true then f [(socket, addr)] else none := by
  unfold connect
  split <;> rfl

end Zmq

/-- What a socket of the first kind connects to has to be bound by one of the second. -/
def SocketType.Pairs : SocketType → SocketType → Prop
  | sub, pub => True
  | dealer, router => True
  | req, router => True
  | _, _ => False

/-- `hub_factory`, without the objects of libzmq and the reactor. -/
structure HubFactory where
  portpool : PortPool
  heartmonitorIntervalMillisec : ℤ := 2000
  monitorTransport : List Char := []
  monitorIp : List Char := []
  monitorUrl : List Char := []
  engineTransport : List Char := []
  engineIp : List Char := []
  clientTransport : List Char := []
  clientIp : List Char := []
  hbPorts : Vector Port 2
  muxPorts : Vector Port 2
  taskPorts : Vector Port 2
  controlPorts : Vector Port 2
  iopubPorts : Vector Port 2
  monPort : Port
  notifierPort : Port
  regPort : Port

/-- The address inside the process to which the monitor is bound beside its URL. -/
def inprocMonitor : List Char := "inproc://monitor".toList

/-- What `hub_factory::get` makes: the hub, the addresses which its sockets are bound and connected to, in this
order, and what it tells engines and clients. -/
structure HubSetup where
  hub : Hub
  binds : List (FactorySocket × List Char)
  connects : List (FactorySocket × List Char)
  engineInfo : EngineInfo
  clientInfo : ClientInfo

namespace HubFactory

variable (F : Format) (zmq : Zmq)

/-- The constructor of `hub_factory`. -/
def create (startport : Port) : HubFactory :=
  let (hbPorts, pool) := (PortPool.create startport).get 2
  let (muxPorts, pool) := pool.get 2
  let (taskPorts, pool) := pool.get 2
  let (controlPorts, pool) := pool.get 2
  let (iopubPorts, pool) := pool.get 2
  let (monPorts, pool) := pool.get 1
  let (notifierPorts, pool) := pool.get 1
  let (regPorts, pool) := pool.get 1
  { portpool := pool
    hbPorts := hbPorts
    muxPorts := muxPorts
    taskPorts := taskPorts
    controlPorts := controlPorts
    iopubPorts := iopubPorts
    monPort := monPorts[0]
    notifierPort := notifierPorts[0]
    regPort := regPorts[0] }

/-- `hub_factory::_update_monitor_url`. -/
def _updateMonitorUrl (factory : HubFactory) : Option HubFactory :=
  (F.str "%s://%s:%i".toList [factory.monitorTransport, factory.monitorIp, intText factory.monPort]).map
    fun url => { factory with monitorUrl := url }

/-- `hub_factory::ip`. -/
def ip (factory : HubFactory) (ip : List Char) : Option HubFactory :=
  _updateMonitorUrl F { factory with monitorIp := ip, clientIp := ip, engineIp := ip }

/-- `hub_factory::transport`. -/
def transport (factory : HubFactory) (transport : List Char) : Option HubFactory :=
  _updateMonitorUrl F
    { factory with
      monitorTransport := transport
      clientTransport := transport
      engineTransport := transport }

/-- `hub_factory::hm_interval`. -/
def hmInterval (factory : HubFactory) (millisecs : ℤ) : HubFactory :=
  { factory with heartmonitorIntervalMillisec := millisecs }

/-- `hub_factory::get`, on a context with no sockets yet; `none` where it throws. -/
def get (factory : HubFactory) : Option HubSetup := do
  let clientIface ← F.str "%s://%s:".toList [factory.clientTransport, factory.clientIp]
  let engineIface ← F.str "%s://%s:".toList [factory.engineTransport, factory.engineIp]
  let client := fun port => F.str (clientIface ++ "%i".toList) [intText port]
  let engine := fun port => F.str (engineIface ++ "%i".toList) [intText port]
  let bound ← zmq.bind [] .query (← client factory.regPort)
  let bound ←
    if factory.clientIp ≠ factory.engineIp then engine factory.regPort >>= zmq.bind bound .query
    else some bound
  let bound ← zmq.bind bound .heartPub (← engine factory.hbPorts[0])
  let bound ← zmq.bind bound .heartRouter (← engine factory.hbPorts[1])
  let bound ← zmq.bind bound .notifier (← client factory.notifierPort)
  let bound ← zmq.bind bound .monitor factory.monitorUrl
  let bound ← zmq.bind bound .monitor inprocMonitor
  let ci : ClientInfo :=
    { hubRegistration := ← client factory.regPort
      control := ← client factory.controlPorts[0]
      mux := ← client factory.muxPorts[0]
      iopub := ← client factory.iopubPorts[0]
      notification := ← client factory.notifierPort
      task := ← client factory.taskPorts[0]
      taskScheme := "default".toList }
  let ei : EngineInfo :=
    { hubRegistration := ← engine factory.regPort
      control := ← engine factory.controlPorts[1]
      mux := ← engine factory.muxPorts[1]
      iopub := ← engine factory.iopubPorts[1]
      task := ← engine factory.taskPorts[1]
      heartbeat := #v[← engine factory.hbPorts[0], ← engine factory.hbPorts[1]] }
  let connected ← zmq.connect .resubmit ci.task
  pure
    { hub := Hub.create factory.heartmonitorIntervalMillisec
      binds := bound
      connects := connected
      engineInfo := ei
      clientInfo := ci }

end HubFactory

/-- The addresses which the constructor of the hub has `validate_url` check, each ending the process if it is
not valid. -/
def HubSetup.checked (setup : HubSetup) : List (List Char) :=
  [setup.clientInfo.hubRegistration, setup.clientInfo.control, setup.clientInfo.mux, setup.clientInfo.task,
    setup.clientInfo.iopub, setup.clientInfo.notification, setup.engineInfo.hubRegistration,
    setup.engineInfo.control, setup.engineInfo.mux, setup.engineInfo.task, setup.engineInfo.iopub,
    setup.engineInfo.heartbeat[0], setup.engineInfo.heartbeat[1]]

/-- The addresses at which clients and engines are told to find the queues. -/
def HubSetup.queueAddresses (setup : HubSetup) : List (List Char) :=
  [setup.clientInfo.control, setup.clientInfo.mux, setup.clientInfo.task, setup.clientInfo.iopub,
    setup.engineInfo.control, setup.engineInfo.mux, setup.engineInfo.task, setup.engineInfo.iopub]

/-- What `engine::run` connects the engine and its heart to, each address checked by `validate_url` before. -/
def EngineInfo.connects (ei : EngineInfo) : List (SocketType × List Char) :=
  [(.dealer, ei.heartbeat[1]), (.sub, ei.heartbeat[0]), (.req, ei.hubRegistration)]

/-- Whether libzmq lets all sockets be bound and connected which the setup has bound and connected. -/
def Zmq.allows (zmq : Zmq) (setup : HubSetup) : Bool :=
  zmq.canBindAll [] setup.binds && setup.connects.all zmq.canConnect

/-- A call of one of the setters of the factory. -/
inductive Setting
  | ip (ip : List Char)
  | transport (transport : List Char)
  | hmInterval (millisecs : ℤ)

namespace Setting

/-- The IP address which is set. -/
def ip? : Setting → Option (List Char)
  | ip s => some s
  | _ => none

/-- The transport which is set. -/
def transport? : Setting → Option (List Char)
  | transport s => some s
  | _ => none

/-- The interval which is set. -/
def hmInterval? : Setting → Option ℤ
  | hmInterval ms => some ms
  | _ => none

/-- What has been set last. -/
def last {α : Type} (f : Setting → Option α) (settings : List Setting) : Option α :=
  settings.reverse.findSome? f

/-- A new setting takes the place of the one before. -/
theorem last_concat {α : Type} (f : Setting → Option α) (settings : List Setting) (setting : Setting) :
    last f (settings ++ [setting]) = (f setting).or (last f settings) := by
  rw [last, List.reverse_append, List.reverse_singleton, List.singleton_append, List.findSome?_cons]
  cases f setting <;> rfl

end Setting

/-- `transport://ip:port`. -/
def address (transport ip : List Char) (port : ℕ) : List Char :=
  transport ++ ("://".toList ++ (ip ++ ':' :: Nat.toDigits 10 port))

/-- The setup with all sockets at one transport and one IP address, and the ports from the first one on. -/
def HubSetup.standard (transport ip : List Char) (start : ℕ) (interval : ℤ) : HubSetup :=
  let port := fun k => address transport ip (start + k)
  { hub := Hub.create interval
    binds := [(.query, port 12), (.heartPub, port 0), (.heartRouter, port 1), (.notifier, port 11),
      (.monitor, port 10), (.monitor, inprocMonitor)]
    connects := [(.resubmit, port 4)]
    engineInfo :=
      { hubRegistration := port 12
        control := port 7
        mux := port 3
        task := port 5
        iopub := port 9
        heartbeat := #v[port 0, port 1] }
    clientInfo :=
      { hubRegistration := port 12
        control := port 6
        mux := port 2
        task := port 4
        taskScheme := "default".toList
        iopub := port 8
        notification := port 11 } }

namespace HubFactory

variable {F : Format}

/-- One call of a setter. -/
def set (F : Format) (factory : HubFactory) : Setting → Option HubFactory
  | .ip s => factory.ip F s
  | .transport s => factory.transport F s
  | .hmInterval millisecs => some (factory.hmInterval millisecs)

/-- The ports of the factory are consecutive, each in its place. -/
structure HasPorts (factory : HubFactory) (start : ℕ) : Prop where
  hb : factory.hbPorts[0] = ((start + 0 : ℕ) : ℤ) ∧ factory.hbPorts[1] = ((start + 1 : ℕ) : ℤ)
  mux : factory.muxPorts[0] = ((start + 2 : ℕ) : ℤ) ∧ factory.muxPorts[1] = ((start + 3 : ℕ) : ℤ)
  task : factory.taskPorts[0] = ((start + 4 : ℕ) : ℤ) ∧ factory.taskPorts[1] = ((start + 5 : ℕ) : ℤ)
  control : factory.controlPorts[0] = ((start + 6 : ℕ) : ℤ) ∧ factory.controlPorts[1] = ((start + 7 : ℕ) : ℤ)
  iopub : factory.iopubPorts[0] = ((start + 8 : ℕ) : ℤ) ∧ factory.iopubPorts[1] = ((start + 9 : ℕ) : ℤ)
  mon : factory.monPort = ((start + 10 : ℕ) : ℤ)
  notifier : factory.notifierPort = ((start + 11 : ℕ) : ℤ)
  reg : factory.regPort = ((start + 12 : ℕ) : ℤ)

/-- A new factory has taken its ports from the pool. -/
theorem create_hasPorts (start : ℕ) : (create start).HasPorts start := by
  constructor
  all_goals simp only [create, PortPool.getElem_get, PortPool.endPort_get, PortPool.create]
  all_goals push_cast
  all_goals simp only [add_assoc]
  all_goals norm_num

/-- The factory is set as the last settings say, and its monitor URL is up to date. -/
structure SetTo (start : ℕ) (settings : List Setting) (factory : HubFactory) : Prop where
  ports : factory.HasPorts start
  ip : (Setting.last Setting.ip? settings).getD [] = factory.monitorIp
  transport : (Setting.last Setting.transport? settings).getD [] = factory.monitorTransport
  interval : (Setting.last Setting.hmInterval? settings).getD 2000 = factory.heartmonitorIntervalMillisec
  client : factory.clientIp = factory.monitorIp ∧ factory.clientTransport = factory.monitorTransport
  engine : factory.engineIp = factory.monitorIp ∧ factory.engineTransport = factory.monitorTransport
  url : Setting.last Setting.ip? settings ≠ none →
    factory.monitorUrl = address factory.monitorTransport factory.monitorIp (start + 10)

/-- The monitor URL can always be written. -/
theorem _updateMonitorUrl_eq (factory : HubFactory) : _updateMonitorUrl F factory =
    some { factory with
      monitorUrl := factory.monitorTransport ++
        ("://".toList ++ (factory.monitorIp ++ ':' :: intText factory.monPort)) } := by
  have hstr := F.str_directives []
    [⟨'s', factory.monitorTransport, "://".toList⟩, ⟨'s', factory.monitorIp, ":".toList⟩,
      ⟨'i', intText factory.monPort, []⟩] List.not_mem_nil (by simp)
  have hurl : F.str "%s://%s:%i".toList [factory.monitorTransport, factory.monitorIp, intText factory.monPort] =
      some (factory.monitorTransport ++
        ("://".toList ++ (factory.monitorIp ++ ':' :: intText factory.monPort))) := by
    simpa using hstr
  rw [_updateMonitorUrl, hurl, Option.map_some]

/-- So the setters never throw. -/
theorem exists_set (factory : HubFactory) (setting : Setting) :
    ∃ factory', set F factory setting = some factory' := by
  cases setting with
  | ip s => exact ⟨_, _updateMonitorUrl_eq _⟩
  | transport s => exact ⟨_, _updateMonitorUrl_eq _⟩
  | hmInterval millisecs => exact ⟨_, rfl⟩

/-- Each setter sets what it is for and keeps the monitor URL up to date. -/
theorem SetTo.step {start : ℕ} {settings : List Setting} {factory factory' : HubFactory} {setting : Setting}
    (h : SetTo start settings factory) (hset : set F factory setting = some factory') :
    SetTo start (settings ++ [setting]) factory' := by
  cases setting with
  | ip s =>
    cases (_updateMonitorUrl_eq _).symm.trans hset
    exact
      { ports := ⟨h.ports.hb, h.ports.mux, h.ports.task, h.ports.control, h.ports.iopub, h.ports.mon,
          h.ports.notifier, h.ports.reg⟩
        ip := by simp [Setting.last_concat, Setting.ip?]
        transport := by simpa [Setting.last_concat, Setting.transport?] using h.transport
        interval := by simpa [Setting.last_concat, Setting.hmInterval?] using h.interval
        client := ⟨rfl, h.client.2⟩
        engine := ⟨rfl, h.engine.2⟩
        url := fun _ => by rw [h.ports.mon]; rfl }
  | transport s =>
    cases (_updateMonitorUrl_eq _).symm.trans hset
    exact
      { ports := ⟨h.ports.hb, h.ports.mux, h.ports.task, h.ports.control, h.ports.iopub, h.ports.mon,
          h.ports.notifier, h.ports.reg⟩
        ip := by simpa [Setting.last_concat, Setting.ip?] using h.ip
        transport := by simp [Setting.last_concat, Setting.transport?]
        interval := by simpa [Setting.last_concat, Setting.hmInterval?] using h.interval
        client := ⟨h.client.1, rfl⟩
        engine := ⟨h.engine.1, rfl⟩
        url := fun _ => by rw [h.ports.mon]; rfl }
  | hmInterval millisecs =>
    cases hset
    exact
      { ports := ⟨h.ports.hb, h.ports.mux, h.ports.task, h.ports.control, h.ports.iopub, h.ports.mon,
          h.ports.notifier, h.ports.reg⟩
        ip := by simpa [Setting.last_concat, Setting.ip?, hmInterval] using h.ip
        transport := by simpa [Setting.last_concat, Setting.transport?, hmInterval] using h.transport
        interval := by simp [Setting.last_concat, Setting.hmInterval?, hmInterval]
        client := h.client
        engine := h.engine
        url := fun hip => h.url (by simpa [Setting.last_concat, Setting.ip?] using hip) }

/-- So it is after any number of calls of setters. -/
theorem exists_setTo (F : Format) (start : ℕ) (settings : List Setting) :
    ∃ factory, settings.foldlM (set F) (create start) = some factory ∧ SetTo start settings factory := by
  have hstart : SetTo start [] (create start) :=
    { ports := create_hasPorts start
      ip := rfl
      transport := rfl
      interval := rfl
      client := ⟨rfl, rfl⟩
      engine := ⟨rfl, rfl⟩
      url := fun h => absurd rfl h }
  obtain ⟨factory, hrun⟩ : ∃ factory, Run (fun f setting f' => set F f setting = some f') (create start)
      settings factory :=
    exists_run_of_forall (fun f setting _ => exists_set f setting) _ settings fun _ _ => trivial
  exact ⟨factory, hrun.foldlM fun _ _ _ hset => hset,
    hrun.history (SetTo start) (fun _ _ _ _ h hset => h.step hset) hstart⟩

/-- The interface is written with a directive for the port left. -/
theorem str_iface (transport ip : List Char) : F.str "%s://%s:".toList [transport, ip] =
    some (transport ++ ("://".toList ++ (ip ++ [':']))) := by
  have hstr := F.str_directives [] [⟨'s', transport, "://".toList⟩, ⟨'s', ip, ":".toList⟩] List.not_mem_nil
    (by simp)
  simpa using hstr

/-- Without a percent sign in it, the interface is a format for the addresses on it. -/
theorem str_port {transport ip : List Char} (htransport : '%' ∉ transport) (hip : '%' ∉ ip) (port : ℕ) :
    F.str (transport ++ ("://".toList ++ (ip ++ [':'])) ++ "%i".toList) [intText port] =
      some (address transport ip port) := by
  have hplain : '%' ∉ transport ++ ("://".toList ++ (ip ++ [':'])) := by
    simp [htransport, hip]
  have hstr := F.str_directives _ [⟨'i', intText port, []⟩] hplain (by simp)
  simpa [address, intText] using hstr

/-- The factory makes the setup which its last settings say, if libzmq lets it. -/
theorem get_eq (zmq : Zmq) {start : ℕ} {settings : List Setting} {factory : HubFactory}
    {transport ip : List Char} (h : SetTo start settings factory)
    (htransport : Setting.last Setting.transport? settings = some transport)
    (hip : Setting.last Setting.ip? settings = some ip) (hplain : '%' ∉ transport ∧ '%' ∉ ip) :
    let setup := HubSetup.standard transport ip start ((Setting.last Setting.hmInterval? settings).getD 2000)
    factory.get F zmq = if zmq.allows setup = true then some setup else none := by
  have hmonitorIp := h.ip
  have hmonitorTransport := h.transport
  rw [hip, Option.getD_some] at hmonitorIp
  rw [htransport, Option.getD_some] at hmonitorTransport
  have hurl := h.url (by simp [hip])
  rw [← hmonitorIp, ← hmonitorTransport] at hurl
  have hnone : ¬(ip ≠ ip) := not_not.mpr rfl
  have hwritten {α β : Type} (a : α) (f : α → Option β) : (some a >>= f) = f a := rfl
  simp only [get, h.client.1, h.client.2, h.engine.1, h.engine.2, ← hmonitorIp, ← hmonitorTransport, h.ports.hb.1,
    h.ports.hb.2, h.ports.mux.1, h.ports.mux.2, h.ports.task.1, h.ports.task.2, h.ports.control.1,
    h.ports.control.2, h.ports.iopub.1, h.ports.iopub.2, h.ports.notifier, h.ports.reg, str_iface, hurl,
    ← h.interval]
  -- every address is written, and bound or connected if it can be, one after the other
  repeat first | rw [hwritten] | rw [str_port hplain.1 hplain.2] | rw [if_neg hnone] | rw [Zmq.bind_bind]
  rw [Zmq.connect_bind]
  simp only [Zmq.allows, Zmq.canBindAll, HubSetup.standard, List.all_cons, List.all_nil, Bool.and_true,
    Bool.and_assoc, Bool.and_eq_true, ite_and]
  rfl

end HubFactory

/-- A transport and an IP address of which addresses can be made. -/
structure Addressable (transport ip : List Char) : Prop where
  transport_ne : transport ≠ []
  transport_alphanum : ∀ c ∈ transport, c.isAlphanum
  ip_ne : ip ≠ []
  ip_plain : ':' ∉ ip ∧ '/' ∉ ip ∧ '?' ∉ ip ∧ '%' ∉ ip

namespace Addressable

variable {transport ip : List Char} (h : Addressable transport ip)
include h

/-- Neither is a format with directives. -/
theorem plain : '%' ∉ transport ∧ '%' ∉ ip := by
  refine ⟨fun hmem => ?_, h.ip_plain.2.2.2⟩
  exact absurd (h.transport_alphanum _ hmem) (by decide)

/-- The addresses parse back to their parts. -/
theorem parse_address (cast : LexicalCast) {port : ℕ} (hport : port ≤ 65535) :
    Url.parse cast (address transport ip port) = .ok
      { protocol := transport.map Char.toLower
        host := ip.map Char.toLower
        path := []
        query := []
        port := port } := by
  let u : UrlParts :=
    { protocol := transport
      host := ip
      port := some port
      protocol_ne := h.transport_ne
      protocol_alphanum := h.transport_alphanum
      host_ne := h.ip_ne
      host_plain := ⟨h.ip_plain.1, h.ip_plain.2.1, h.ip_plain.2.2.1⟩
      port_le := fun n hn => Option.some.inj hn ▸ hport
      path_slash := .inl rfl
      path_plain := List.not_mem_nil }
  have htext : u.text = address transport ip port := by
    simp [u, UrlParts.text, UrlParts.rest, address, Url.behind]
  have hparse := (u.parse_text_iff cast).mpr ((u.splits_iff_of_path cast fun hne => absurd rfl hne).mpr
    fun hnone => by cases hnone)
  rwa [htext] at hparse

end Addressable

/-- Different ports have different addresses. -/
@[simp] theorem address_inj {transport ip : List Char} {m n : ℕ} :
    address transport ip m = address transport ip n ↔ m = n := by
  constructor
  · intro h
    have hdigits : Nat.toDigits 10 m = Nat.toDigits 10 n := by simpa [address] using h
    have hvalue := congrArg (fun digits => Nat.ofDigitChars 10 digits 0) hdigits
    simpa [Nat.ofDigitChars_toDigits] using hvalue
  · rintro rfl
    rfl

/-- An address has two colons, so it is not the one inside the process. -/
@[simp] theorem address_ne_inprocMonitor {transport ip : List Char} {port : ℕ} :
    address transport ip port ≠ inprocMonitor := by
  intro heq
  have hcount : (address transport ip port).count ':' = inprocMonitor.count ':' := by rw [heq]
  rw [show inprocMonitor.count ':' = 1 from rfl] at hcount
  simp [address] at hcount
  omega

namespace HubSetup

variable {transport ip : List Char} {start : ℕ} {interval : ℤ}

/-- All addresses that are checked are made from the ports of the factory. -/
theorem mem_checked_standard {a : List Char} (ha : a ∈ (standard transport ip start interval).checked) :
    ∃ k ≤ 12, a = address transport ip (start + k) := by
  simp only [checked, standard, List.mem_cons, List.not_mem_nil, or_false] at ha
  rcases ha with rfl | rfl | rfl | rfl | rfl | rfl | rfl | rfl | rfl | rfl | rfl | rfl | rfl
  all_goals exact ⟨_, by decide, rfl⟩

/-- No address is bound twice. -/
theorem nodup_binds_standard : ((standard transport ip start interval).binds.map Prod.snd).Nodup := by
  simp [standard]

/-- An engine connects to sockets of the hub, each of the kind that it needs. -/
theorem exists_bind_standard {c : SocketType × List Char}
    (hc : c ∈ (standard transport ip start interval).engineInfo.connects) :
    ∃ b ∈ (standard transport ip start interval).binds, b.2 = c.2 ∧ c.1.Pairs b.1.type := by
  simp only [EngineInfo.connects, standard, List.mem_cons, List.not_mem_nil, or_false] at hc
  rcases hc with rfl | rfl | rfl
  · exact ⟨(.heartRouter, _), by simp [standard], rfl, trivial⟩
  · exact ⟨(.heartPub, _), by simp [standard], rfl, trivial⟩
  · exact ⟨(.query, _), by simp [standard], rfl, trivial⟩

/-- No socket of the hub is bound to an address of a queue. -/
theorem queueAddresses_standard {a : List Char}
    (ha : a ∈ (standard transport ip start interval).queueAddresses) :
    a ∉ (standard transport ip start interval).binds.map Prod.snd := by
  simp only [queueAddresses, standard, List.mem_cons, List.not_mem_nil, or_false] at ha
  rcases ha with rfl | rfl | rfl | rfl | rfl | rfl | rfl | rfl
  all_goals simp [standard]

end HubSetup

/-- However the setters of a factory are called, with a transport and an IP address last of which addresses
can be made: if libzmq binds and connects all sockets, the factory makes a hub, and otherwise it throws. The
hub has the interval that was set last; all the addresses which its constructor checks are valid and parse
back to this transport, this IP address and a port of the pool; no address is bound twice; and each address
which an engine connects to is bound, by a socket of the kind that it needs. No socket is bound to the
addresses of the queues, to one of which the hub's own socket for resubmissions connects. -/
theorem hub_factory_addresses (F : Format) (cast : LexicalCast) {start : ℕ} {settings : List Setting}
    {transport ip : List Char} (htransport : Setting.last Setting.transport? settings = some transport)
    (hip : Setting.last Setting.ip? settings = some ip) (haddress : Addressable transport ip)
    (hports : start + 12 ≤ 65535) :
    ∃ factory setup, settings.foldlM (HubFactory.set F) (HubFactory.create start) = some factory ∧
      (∀ zmq, factory.get F zmq = if zmq.allows setup = true then some setup else none) ∧
      setup.hub = Hub.create ((Setting.last Setting.hmInterval? settings).getD 2000) ∧
      (∀ a ∈ setup.checked, Url.validateUrl cast a = true ∧ ∃ port : ℕ, start ≤ port ∧ port ≤ start + 12 ∧
        Url.parse cast a = .ok
          { protocol := transport.map Char.toLower
            host := ip.map Char.toLower
            path := []
            query := []
            port := port }) ∧
      (setup.binds.map Prod.snd).Nodup ∧
      (∀ c ∈ setup.engineInfo.connects, c.2 ∈ setup.checked ∧
        ∃ b ∈ setup.binds, b.2 = c.2 ∧ c.1.Pairs b.1.type) ∧
      (∀ a ∈ setup.queueAddresses, a ∉ setup.binds.map Prod.snd) ∧
      ∀ c ∈ setup.connects, c.2 ∈ setup.queueAddresses := by
  obtain ⟨factory, hfactory, hset⟩ := HubFactory.exists_setTo F start settings
  refine ⟨factory, _, hfactory, fun zmq => HubFactory.get_eq zmq hset htransport hip haddress.plain, rfl, ?_,
    HubSetup.nodup_binds_standard, ?_, fun a ha => HubSetup.queueAddresses_standard ha, ?_⟩
  · intro a ha
    obtain ⟨k, hk, rfl⟩ := HubSetup.mem_checked_standard ha
    have hparse := haddress.parse_address cast (show start + k ≤ 65535 by omega)
    refine ⟨?_, start + k, Nat.le_add_right start k, Nat.add_le_add_left hk start, hparse⟩
    rw [Url.validateUrl, hparse]
  · intro c hc
    refine ⟨?_, HubSetup.exists_bind_standard hc⟩
    simp only [EngineInfo.connects, HubSetup.standard, List.mem_cons, List.not_mem_nil, or_false] at hc
    rcases hc with rfl | rfl | rfl <;> simp [HubSetup.checked, HubSetup.standard]
  · intro c hc
    rw [List.mem_singleton.mp hc]
    simp [HubSetup.queueAddresses, HubSetup.standard]

/-- libzmq on a host where the ports from 5000 to 5012 of the loopback interface are free: an address on it
can be bound once, and so can one inside the process. -/
def Zmq.loopback : Zmq where
  canBind bound b := decide (b.2 ∉ bound.map Prod.snd) && (b.2 == inprocMonitor ||
    (List.range 13).any fun k => b.2 == address "tcp".toList "127.0.0.1".toList (5000 + k))
  canConnect c := (List.range 13).any fun k => c.2 == address "tcp".toList "127.0.0.1".toList (5000 + k)

/-- A factory which starts at port 5000, on this interface and with a short interval. -/
theorem hub_factory_addresses_loopback :
    ∃ factory setup, [.ip "127.0.0.1".toList, .transport "tcp".toList, .hmInterval 100].foldlM
        (HubFactory.set .plain) (HubFactory.create (5000 : ℕ)) = some factory ∧
      factory.get .plain .loopback = some setup ∧ setup.hub = Hub.create 100 ∧
      (∀ a ∈ setup.checked, Url.validateUrl .int32 a = true ∧ ∃ port : ℕ, 5000 ≤ port ∧ port ≤ 5000 + 12 ∧
        Url.parse .int32 a = .ok
          { protocol := "tcp".toList.map Char.toLower
            host := "127.0.0.1".toList.map Char.toLower
            path := []
            query := []
            port := port }) ∧
      (setup.binds.map Prod.snd).Nodup ∧
      (∀ c ∈ setup.engineInfo.connects, c.2 ∈ setup.checked ∧
        ∃ b ∈ setup.binds, b.2 = c.2 ∧ c.1.Pairs b.1.type) ∧
      (∀ a ∈ setup.queueAddresses, a ∉ setup.binds.map Prod.snd) ∧
      ∀ c ∈ setup.connects, c.2 ∈ setup.queueAddresses := by
  have haddress : Addressable "tcp".toList "127.0.0.1".toList := ⟨by decide, by simp, by decide, by decide⟩
  have hip : Setting.last Setting.ip?
      [.ip "127.0.0.1".toList, .transport "tcp".toList, .hmInterval 100] = some "127.0.0.1".toList := rfl
  obtain ⟨factory, setup, hfactory, hget, hrest⟩ := hub_factory_addresses .plain .int32 rfl hip haddress
    (show 5000 + 12 ≤ 65535 by decide)
  have hmakes : (([.ip "127.0.0.1".toList, .transport "tcp".toList, .hmInterval 100].foldlM
      (HubFactory.set .plain) (HubFactory.create (5000 : ℕ))).bind
        (HubFactory.get .plain .loopback)).isSome = true := by
    decide +kernel
  rw [hfactory, Option.bind_some, hget] at hmakes
  refine ⟨factory, setup, hfactory, ?_, hrest⟩
  rw [hget]
  split at hmakes
  · exact if_pos ‹_›
  · cases hmakes

end Gpf

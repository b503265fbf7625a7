import Gpf.Engine.HeartAnswers
import Gpf.Engine.Membership

/-!
# Engines, their hearts, and the hub

`engine::run` makes the heart of the engine and starts it in a thread of its own, and says hello to the hub.
From then on the engine hears from the hub through its request socket, and the hub from the engine through
the pongs of its heart. Seen without the hearts this is the network of the engines, seen without the
engines it is that of the hearts.
-/

namespace Gpf

open Transition

/-- The hub with its heartmonitor, the engines and their hearts, and the messages on their way between them. -/
structure Cluster (ι : Type*) where
  controller : Controller
  engines : ι → Engine := fun _ => {}
  hearts : ι → Option Heart := fun _ => none
  requests : List Incoming := []
  replies : List Sent := []
  beating : ι → Bool := fun _ => false
  pings : ι → List String := fun _ => []
  pongs : List Pong := []

/-- What can happen next. -/
inductive ClusterEvent (ι : Type*)
  | provideService (i : ι) (s : String)
  | run (i : ι) (name : String)
  | logoff (i : ι)
  | request (incoming : Incoming)
  | reply (i : ι) (m : Sent)
  | start (i : ι) (uuid : String)
  | stop (i : ι)
  | bumm (i : ι) (pong : Pong)
  | pong (pong : Pong)
  | losePing (i : ι) (ping : String)
  | losePong (pong : Pong)
  | hub (e : ControllerEvent)

namespace ClusterEvent

variable {ι : Type*}

/-- What the event is to the engines and the hub. -/
def engineEvent? : ClusterEvent ι → Option (NetworkEvent ι)
  | .provideService i s => some (.provideService i s)
  | .run i name => some (.run i name)
  | .logoff i => some (.shutdown i)
  | .request incoming => some (.request incoming)
  | .reply i m => some (.reply i m)
  | .pong echo => some (.hub (.pong echo))
  | .hub e => some (.hub e)
  | .start _ _ | .stop _ | .bumm _ _ | .losePing _ _ | .losePong _ => none

/-- What the event is to the hearts and the hub. -/
def heartEvent? : ClusterEvent ι → Option (HeartEvent ι)
  | .request incoming => some (.hub (.query incoming))
  | .start i uuid => some (.start i uuid)
  | .stop i => some (.shutdown i)
  | .bumm i echo => some (.bumm i echo)
  | .pong echo => some (.pong echo)
  | .losePing i ping => some (.losePing i ping)
  | .losePong echo => some (.losePong echo)
  | .hub e => some (.hub e)
  | .provideService _ _ | .run _ _ | .logoff _ | .reply _ _ => none

/-- A query that does not come from an engine does not come under the envelope of one. -/
def Foreign (T : Transport ι) (e : ClusterEvent ι) : Prop :=
  ∀ incoming, e = .hub (.query incoming) → ∀ i, incoming.envelope ≠ T.envelope i

/-- The event makes a heart only under the name that is foreseen for it. -/
def Foreseen (names : ι → String) (e : ClusterEvent ι) : Prop :=
  ∀ i name, e = .run i name → name ++ "-heart" = names i

end ClusterEvent

namespace Cluster

variable {ι : Type*}

/-- The hub before any engine runs. -/
def initial (interval : ℤ) (clock lifetime tic lastPing : Time) : Cluster ι :=
  { controller := .create interval clock lifetime tic lastPing }

/-- The engines, the hub, and what is on its way between them. -/
def network (c : Cluster ι) : Network ι :=
  { controller := c.controller, engines := c.engines, requests := c.requests, replies := c.replies }

/-- The hearts, the hub, and what is on its way between them. A heart that has not been made yet has the name
that is foreseen for it. -/
def heartNetwork (names : ι → String) (c : Cluster ι) : HeartNetwork ι :=
  { controller := c.controller
    hearts := fun i => (c.hearts i).getD { id := names i }
    beating := c.beating
    pings := c.pings
    pongs := c.pongs }

/-- A handler of the hub has run; what it sent and what it published are on their way. -/
def served (c : Cluster ι) (d : Controller) : Cluster ι :=
  { c with
    controller := d
    replies := c.replies ++ d.hub.sent.drop c.controller.hub.sent.length
    pings := fun i =>
      if c.beating i then c.pings i ++ d.monitor.pings.drop c.controller.monitor.pings.length
      else c.pings i }

/-- Run a handler of the hub. The clock moves on from beat to beat. -/
def serve (T : Transport ι) (toIso : Time → String) (c : Cluster ι) (e : ControllerEvent) :
    Option (Cluster ι) :=
  (c.controller.next T.wire toIso e).bind fun d =>
    if d.monitor.pings = c.controller.monitor.pings ∨ c.controller.monitor.tic < c.controller.hub.clock then
      some (c.served d)
    else none

variable [DecidableEq ι]

/-- Exchange one engine. -/
def setEngine (c : Cluster ι) (i : ι) (engine : Engine) : Cluster ι :=
  { c with engines := Function.update c.engines i engine }

/-- The state after an event, if it can occur and its handler returns. Each engine runs once. -/
def next (T : Transport ι) (toIso : Time → String) (c : Cluster ι) : ClusterEvent ι → Option (Cluster ι)
  | .provideService i s => some (c.setEngine i ((c.engines i).provideService s))
  | .run i name =>
    if (c.engines i).hello.isNone ∧ (c.hearts i).isNone then
      some { c.setEngine i ((c.engines i).run name) with
        hearts := Function.update c.hearts i (some { id := name ++ "-heart" })
        requests := c.requests ++ [T.helloRequest i ((c.engines i).registration name)] }
    else none
  | .logoff i =>
    if (c.engines i).hello.isSome then
      some { c with requests := c.requests ++ [T.logoffRequest i (c.engines i)] }
    else none
  | .request incoming =>
    if incoming ∈ c.requests then
      { c with requests := c.requests.erase incoming }.serve T toIso (.query incoming)
    else none
  | .reply i m =>
    if m ∈ c.replies ∧ m.socket = .query ∧ m.envelope = some (T.envelope i) then
      ((c.engines i).dispatchRegistration m.frames).map fun engine =>
        { c.setEngine i engine with replies := c.replies.erase m }
    else none
  | .start i uuid =>
    if c.beating i then none
    else (c.hearts i).map fun heart =>
      { c with
        hearts := Function.update c.hearts i (some (heart.run uuid))
        beating := Function.update c.beating i true
        pings := Function.update c.pings i [] }
  | .stop i => some { c with beating := Function.update c.beating i false }
  | .bumm i pong =>
    (c.hearts i).bind fun heart =>
      if c.beating i = true ∧ pong.received ∈ c.pings i ∧ pong = (heart.bumm pong.received).2 then
        some { c with
          hearts := Function.update c.hearts i (some (heart.bumm pong.received).1)
          pings := Function.update c.pings i ((c.pings i).erase pong.received)
          pongs := c.pongs ++ [pong] }
      else none
  | .pong pong =>
    if pong ∈ c.pongs then
      some { c with
        controller := c.controller.handlePong toIso pong
        pongs := c.pongs.erase pong }
    else none
  | .losePing i ping => some { c with pings := Function.update c.pings i ((c.pings i).erase ping) }
  | .losePong pong => some { c with pongs := c.pongs.erase pong }
  | .hub e => if e.isPong then none else c.serve T toIso e

/-- One event of a run. -/
def Step (T : Transport ι) (toIso : Time → String) (c : Cluster ι) (e : ClusterEvent ι)
    (c' : Cluster ι) : Prop := c.next T toIso e = some c' ∧ e.Foreign T

/-- What is computed of the last state holds at the end of a run. -/
theorem exists_run (T : Transport ι) (toIso : Time → String) (c : Cluster ι) (es : List (ClusterEvent ι))
    (hforeign : ∀ e ∈ es, e.Foreign T) (P : Cluster ι → Prop) [DecidablePred P]
    (h : (es.foldlM (next T toIso) c).any (fun c' => decide (P c')) = true) :
    ∃ c', Run (Step T toIso) c es c' ∧ P c' := by
  have hexists : ∃ c', Run (fun c e c' => next T toIso c e = some c') c es c' ∧ P c' :=
    Transition.exists_run (fun _ _ _ hnext => hnext) c es P h
  obtain ⟨c', hrun, hc'⟩ := hexists
  exact ⟨c', Run.restrict_iff.mpr ⟨hrun, hforeign⟩, hc'⟩

variable {T : Transport ι} {toIso : Time → String} {names : ι → String} {c c' : Cluster ι}
  {e : ClusterEvent ι}

omit [DecidableEq ι] in
/-- A handler of the hub that has run is a step of the controller. -/
theorem served_of_serve {ce : ControllerEvent} (h : c.serve T toIso ce = some c') :
    ∃ d, Controller.Step T.wire toIso c.controller ce d ∧
      (d.monitor.pings = c.controller.monitor.pings ∨ c.controller.monitor.tic < c.controller.hub.clock) ∧
      c' = c.served d := by
  obtain ⟨d, hstep, hguard⟩ := Option.bind_eq_some_iff.mp h
  split at hguard
  · rename_i hclock
    exact ⟨d, hstep, hclock, (Option.some.inj hguard).symm⟩
  · cases hguard

/-- Without its hearts, the cluster is the network of the engines. -/
theorem moves_network (h : Step T toIso c e c') :
    Moves (Network.Step T toIso) c.network e.engineEvent? c'.network := by
  obtain ⟨h, hforeign⟩ := h
  cases e with
  | provideService i s =>
    cases h
    exact Network.Step.provideService c.network i s
  | run i name =>
    simp only [next] at h
    split at h
    · rename_i hfirst
      cases h
      exact Network.Step.run c.network i name (Option.isNone_iff_eq_none.mp hfirst.1)
    · cases h
  | logoff i =>
    simp only [next] at h
    split at h
    · rename_i hrunning
      cases h
      exact Network.Step.shutdown c.network i (Option.isSome_iff_ne_none.mp hrunning)
    · cases h
  | request incoming =>
    simp only [next] at h
    split at h
    · rename_i hmem
      obtain ⟨d, hstep, -, rfl⟩ := served_of_serve h
      exact Network.Step.request c.network incoming d hmem hstep
    · cases h
  | reply i m =>
    simp only [next] at h
    split at h
    · rename_i hguard
      obtain ⟨engine, hengine, rfl⟩ := Option.map_eq_some_iff.mp h
      exact Network.Step.reply c.network i m engine hguard.1 hguard.2.1 hguard.2.2 hengine
    · cases h
  | start i uuid =>
    simp only [next] at h
    split at h
    · cases h
    · obtain ⟨heart, -, rfl⟩ := Option.map_eq_some_iff.mp h
      exact rfl
  | stop i =>
    cases h
    exact rfl
  | bumm i pong =>
    obtain ⟨heart, -, hguard⟩ := Option.bind_eq_some_iff.mp h
    split at hguard
    · cases hguard
      exact rfl
    · cases hguard
  | pong pong =>
    simp only [next] at h
    split at h
    · cases h
      have hserved : c.network.served (c.controller.handlePong toIso pong) =
          { c.network with controller := c.controller.handlePong toIso pong } := by
        simp [Network.served, network, Controller.handlePong]
      have hstep : Network.Step T toIso c.network (.hub (.pong pong)) _ :=
        .hub c.network (.pong pong) (c.controller.handlePong toIso pong) (by simp) rfl
      rw [hserved] at hstep
      exact hstep
    · cases h
  | losePing i ping =>
    cases h
    exact rfl
  | losePong pong =>
    cases h
    exact rfl
  | hub ce =>
    simp only [next] at h
    split at h
    · cases h
    · obtain ⟨d, hstep, -, rfl⟩ := served_of_serve h
      exact Network.Step.hub c.network ce d (fun incoming heq => hforeign incoming (congrArg _ heq)) hstep

/-- To exchange the heart of an engine is to exchange it among the hearts. -/
theorem hearts_update (names : ι → String) (hearts : ι → Option Heart) (i : ι) (heart : Heart) :
    (fun j => (Function.update hearts i (some heart) j).getD { id := names j }) =
      Function.update (fun j => (hearts j).getD { id := names j }) i heart := by
  funext j
  exact Function.apply_update (fun j (made : Option Heart) => made.getD { id := names j }) hearts i
    (some heart) j

/-- A handler of the hub has run in the network of the hearts as well. -/
theorem heartStep_of_serve {ce : ControllerEvent} (hpong : ce.isPong = false)
    (h : c.serve T toIso ce = some c') :
    HeartNetwork.Step T.wire toIso (c.heartNetwork names) (.hub ce) (c'.heartNetwork names) := by
  obtain ⟨d, hstep, hclock, rfl⟩ := served_of_serve h
  simp only [HeartNetwork.Step, HeartNetwork.next, hpong, Bool.false_eq_true, if_false]
  apply Option.bind_eq_some_iff.mpr
  exact ⟨d, hstep, if_pos hclock⟩

/-- Without its engines, the cluster is the network of the hearts, if the names of the hearts are foreseen. -/
theorem moves_heartNetwork (hforeseen : e.Foreseen names) (h : Step T toIso c e c') :
    Moves (HeartNetwork.Step T.wire toIso) (c.heartNetwork names) e.heartEvent?
      (c'.heartNetwork names) := by
  obtain ⟨h, -⟩ := h
  cases e with
  | provideService i s =>
    cases h
    exact rfl
  | run i name =>
    simp only [next] at h
    split at h
    · rename_i hfirst
      cases h
      have hsame : Function.update (fun j => (c.hearts j).getD { id := names j }) i { id := name ++ "-heart" } =
          fun j => (c.hearts j).getD { id := names j } := by
        apply Function.update_eq_self_iff.mpr
        rw [Option.isNone_iff_eq_none.mp hfirst.2, hforeseen i name rfl]
        rfl
      exact congrArg (fun hearts => { c.heartNetwork names with hearts := hearts })
        ((hearts_update names c.hearts i _).trans hsame)
    · cases h
  | logoff i =>
    simp only [next] at h
    split at h
    · cases h
      exact rfl
    · cases h
  | request incoming =>
    simp only [next] at h
    split at h
    · have hstep : HeartNetwork.Step T.wire toIso
          (heartNetwork names { c with requests := c.requests.erase incoming }) (.hub (.query incoming)) _ :=
        heartStep_of_serve rfl h
      exact hstep
    · cases h
  | reply i m =>
    simp only [next] at h
    split at h
    · obtain ⟨engine, -, rfl⟩ := Option.map_eq_some_iff.mp h
      exact rfl
    · cases h
  | start i uuid =>
    simp only [next] at h
    split at h
    · cases h
    · rename_i hbeating
      obtain ⟨heart, hmade, rfl⟩ := Option.map_eq_some_iff.mp h
      simp only [ClusterEvent.heartEvent?, Moves, HeartNetwork.Step, HeartNetwork.next, heartNetwork, hbeating,
        HeartNetwork.started, hearts_update, hmade]
      rfl
  | stop i =>
    cases h
    exact rfl
  | bumm i pong =>
    obtain ⟨heart, hmade, hguard⟩ := Option.bind_eq_some_iff.mp h
    split at hguard
    · rename_i hread
      cases hguard
      simp only [ClusterEvent.heartEvent?, Moves, HeartNetwork.Step, HeartNetwork.next, heartNetwork,
        HeartNetwork.answered, hearts_update, hmade, Option.getD_some]
      exact if_pos hread
    · cases hguard
  | pong pong =>
    simp only [next] at h
    split at h
    · rename_i hmem
      cases h
      exact if_pos hmem
    · cases h
  | losePing i ping =>
    cases h
    exact rfl
  | losePong pong =>
    cases h
    exact rfl
  | hub ce =>
    simp only [next] at h
    split at h
    · cases h
    · rename_i hpong
      exact heartStep_of_serve (Bool.eq_false_iff.mpr hpong) h

/-- The engine has said hello under this heart name. -/
def Introduces (c : Cluster ι) (i : ι) (heart : String) : Prop :=
  heart ≠ "" ∧ ∃ msg, (c.engines i).hello = some msg ∧ msg.heartbeat = heart

/-- It goes on having done so. -/
theorem Introduces.step {i : ι} {heart : String} (hintroduces : c.Introduces i heart) (h : Step T toIso c e c') :
    c'.Introduces i heart := by
  obtain ⟨hname, msg, hhello, hheart⟩ := hintroduces
  refine ⟨hname, msg, ?_, hheart⟩
  have hmoves := moves_network h
  cases hevent : e.engineEvent? with
  | none =>
    rw [hevent] at hmoves
    have hsame : c'.engines = c.engines := congrArg Network.engines hmoves
    rw [hsame]
    exact hhello
  | some d =>
    rw [hevent] at hmoves
    exact Network.hello_kept hmoves hhello

/-- Hearts are made and answer under the names with which their engines have said hello. -/
structure Named (es : List (ClusterEvent ι)) (c : Cluster ι) : Prop where
  hearts : ∀ i heart, c.hearts i = some heart → c.Introduces i heart.id
  beating : ∀ i, c.beating i = true → c.hearts i ≠ none
  runs : ∀ i name, .run i name ∈ es → c.Introduces i (name ++ "-heart")
  echoes : ∀ i pong, .bumm i pong ∈ es → c.Introduces i pong.heart

namespace Named

variable {es : List (ClusterEvent ι)}

omit [DecidableEq ι] in
/-- A step after which every heart is one from before, or has the name of its engine. -/
theorem extend (inv : Named es c) (hintroduces : ∀ i heart, c.Introduces i heart → c'.Introduces i heart)
    (hhearts : ∀ i heart, c'.hearts i = some heart → c.hearts i = some heart ∨ c'.Introduces i heart.id)
    (hbeating : ∀ i, c'.beating i = true → c'.hearts i ≠ none)
    (hruns : ∀ i name, e = .run i name → c'.Introduces i (name ++ "-heart"))
    (hechoes : ∀ i pong, e = .bumm i pong → c'.Introduces i pong.heart) : Named (es ++ [e]) c' where
  hearts i heart hheart := by
    rcases hhearts i heart hheart with hold | hnew
    · exact hintroduces i _ (inv.hearts i heart hold)
    · exact hnew
  beating := hbeating
  runs i name hmem := by
    rcases List.mem_append.mp hmem with hold | hnew
    · exact hintroduces i _ (inv.runs i name hold)
    · exact hruns i name (List.mem_singleton.mp hnew).symm
  echoes i pong hmem := by
    rcases List.mem_append.mp hmem with hold | hnew
    · exact hintroduces i _ (inv.echoes i pong hold)
    · exact hechoes i pong (List.mem_singleton.mp hnew).symm

/-- A step which leaves the hearts alone. -/
theorem of_same (inv : Named es c) (h : Step T toIso c e c') (hhearts : c'.hearts = c.hearts)
    (hbeating : ∀ i, c'.beating i = true → c.beating i = true) (hruns : ∀ i name, e ≠ .run i name)
    (hechoes : ∀ i pong, e ≠ .bumm i pong) : Named (es ++ [e]) c' := by
  apply inv.extend (fun i heart hintroduces => hintroduces.step h)
  · intro i heart hheart
    rw [hhearts] at hheart
    exact .inl hheart
  · intro i hi
    rw [hhearts]
    exact inv.beating i (hbeating i hi)
  · exact fun i name heq => absurd heq (hruns i name)
  · exact fun i pong heq => absurd heq (hechoes i pong)

/-- A step which gives an engine a heart of its name. -/
theorem of_update (inv : Named es c) (h : Step T toIso c e c') {i : ι} {heart : Heart}
    (hhearts : c'.hearts = Function.update c.hearts i (some heart)) (hname : c'.Introduces i heart.id)
    (hbeating : ∀ j, c'.beating j = true → j = i ∨ c.beating j = true)
    (hruns : ∀ j name, e = .run j name → c'.Introduces j (name ++ "-heart"))
    (hechoes : ∀ j pong, e = .bumm j pong → c'.Introduces j pong.heart) : Named (es ++ [e]) c' := by
  apply inv.extend (fun j heart hintroduces => hintroduces.step h) _ _ hruns hechoes
  · rw [hhearts]
    apply (Function.forall_update_iff c.hearts fun j made => ∀ heart, made = some heart →
      c.hearts j = some heart ∨ c'.Introduces j heart.id).mpr
    refine ⟨fun made heq => .inr ?_, fun j _ made hmade => .inl hmade⟩
    rw [← Option.some.inj heq]
    exact hname
  · intro j hj
    rw [hhearts]
    by_cases hji : j = i
    · rw [hji, Function.update_self]
      exact Option.some_ne_none heart
    · rw [Function.update_of_ne hji]
      exact inv.beating j ((hbeating j hj).resolve_left hji)

/-- Every event keeps the names. -/
theorem step (inv : Named es c) (h : Step T toIso c e c') : Named (es ++ [e]) c' := by
  have hstep := h
  obtain ⟨h, -⟩ := h
  cases e with
  | provideService i s =>
    cases h
    exact inv.of_same hstep rfl (fun _ hi => hi) (by simp) (by simp)
  | run i name =>
    simp only [next] at h
    split at h
    · cases h
      have hintroduces : (c.setEngine i ((c.engines i).run name)).Introduces i (name ++ "-heart") := by
        refine ⟨?_, _, congrArg Engine.hello (Function.update_self i _ c.engines), rfl⟩
        intro hempty
        exact absurd (congrArg String.length hempty) (by simp)
      refine inv.of_update hstep rfl hintroduces (fun _ hj => .inr hj) ?_ (by simp)
      intro j other heq
      cases heq
      exact hintroduces
    · cases h
  | logoff i =>
    simp only [next] at h
    split at h
    · cases h
      exact inv.of_same hstep rfl (fun _ hi => hi) (by simp) (by simp)
    · cases h
  | request incoming =>
    simp only [next] at h
    split at h
    · obtain ⟨d, -, -, rfl⟩ := served_of_serve h
      exact inv.of_same hstep rfl (fun _ hi => hi) (by simp) (by simp)
    · cases h
  | reply i m =>
    simp only [next] at h
    split at h
    · obtain ⟨engine, -, rfl⟩ := Option.map_eq_some_iff.mp h
      exact inv.of_same hstep rfl (fun _ hi => hi) (by simp) (by simp)
    · cases h
  | start i uuid =>
    simp only [next] at h
    split at h
    · cases h
    · obtain ⟨heart, hmade, rfl⟩ := Option.map_eq_some_iff.mp h
      have hname := inv.hearts i heart hmade
      have hid : (heart.run uuid).id = heart.id := congrArg Heart.id (if_neg hname.1)
      have hlater := hname.step hstep
      rw [← hid] at hlater
      refine inv.of_update hstep rfl hlater ?_ (by simp) (by simp)
      intro j hj
      by_cases hji : j = i
      · exact .inl hji
      · exact .inr ((Function.update_of_ne hji _ _).symm.trans hj)
  | stop i =>
    cases h
    refine inv.of_same hstep rfl ?_ (by simp) (by simp)
    intro j hj
    by_cases hji : j = i
    · subst hji
      exact absurd ((Function.update_self j _ _).symm.trans hj) Bool.false_ne_true
    · exact (Function.update_of_ne hji _ _).symm.trans hj
  | bumm i pong =>
    obtain ⟨heart, hmade, hguard⟩ := Option.bind_eq_some_iff.mp h
    split at hguard
    · rename_i hread
      cases hguard
      have hname := (inv.hearts i heart hmade).step hstep
      refine inv.of_update hstep rfl hname (fun _ hj => .inr hj) (by simp) ?_
      intro j echo heq
      cases heq
      rw [hread.2.2]
      exact hname
    · cases hguard
  | pong pong =>
    simp only [next] at h
    split at h
    · cases h
      exact inv.of_same hstep rfl (fun _ hi => hi) (by simp) (by simp)
    · cases h
  | losePing i ping =>
    cases h
    exact inv.of_same hstep rfl (fun _ hi => hi) (by simp) (by simp)
  | losePong pong =>
    cases h
    exact inv.of_same hstep rfl (fun _ hi => hi) (by simp) (by simp)
  | hub ce =>
    simp only [next] at h
    split at h
    · cases h
    · obtain ⟨d, -, -, rfl⟩ := served_of_serve h
      exact inv.of_same hstep rfl (fun _ hi => hi) (by simp) (by simp)

/-- They are right at the end of every run. -/
theorem of_run {interval : ℤ} {clock lifetime tic lastPing : Time}
    (hrun : Run (Step T toIso) (initial interval clock lifetime tic lastPing) es c) : Named es c := by
  have hstart : Named [] (initial (ι := ι) interval clock lifetime tic lastPing) := by
    refine ⟨?_, ?_, ?_, ?_⟩ <;> simp [initial]
  have hall := hrun.history Named (fun _ _ _ _ inv hstep => inv.step hstep) hstart
  exact hall

end Named

omit [DecidableEq ι] in
/-- The name of the heart, once the engine has said hello. -/
def heartName (c : Cluster ι) (i : ι) : String := (c.engines i).hello.elim "" Registration.heartbeat

omit [DecidableEq ι] in
/-- Who has said hello under a heart name has this name. -/
theorem Introduces.heartName_eq {i : ι} {heart : String} (h : c.Introduces i heart) : c.heartName i = heart := by
  obtain ⟨-, msg, hhello, rfl⟩ := h
  rw [heartName, hhello]
  rfl

omit [DecidableEq ι] in
/-- It is the one which the registration names. -/
theorem heartName_of_hello {i : ι} {msg : Registration} (hhello : (c.engines i).hello = some msg) :
    c.heartName i = msg.heartbeat := by
  rw [heartName, hhello]
  rfl

section Runs

variable {interval : ℤ} {clock lifetime tic lastPing : Time} {es fs : List (ClusterEvent ι)}

/-- Without the hearts, a run is one of the network of the engines. -/
theorem run_network (hrun : Run (Step T toIso) c es c') :
    Run (Network.Step T toIso) c.network (es.filterMap ClusterEvent.engineEvent?) c'.network :=
  hrun.filterMap (fun _ _ _ (_ : True) h => moves_network h) fun _ _ => trivial

/-- Without the engines, a run is one of the network of the hearts, under the names they have in the end. -/
theorem run_heartNetwork (hfirst : Run (Step T toIso) (initial interval clock lifetime tic lastPing) es c)
    (hrun : Run (Step T toIso) c fs c') :
    Run (HeartNetwork.Step T.wire toIso) (c.heartNetwork c'.heartName)
      (fs.filterMap ClusterEvent.heartEvent?) (c'.heartNetwork c'.heartName) := by
  have hnamed := Named.of_run (hfirst.append hrun)
  apply hrun.filterMap fun _ _ _ hforeseen h => moves_heartNetwork hforeseen h
  intro e he i name heq
  exact (hnamed.runs i name (List.mem_append_right _ (heq ▸ he))).heartName_eq.symm

/-- What the hearts and the hub reach beside the engines, they reach alone. -/
theorem reachable_heartNetwork
    (hfirst : Run (Step T toIso) (initial interval clock lifetime tic lastPing) es c)
    (hrun : Run (Step T toIso) c fs c') :
    Reachable (HeartNetwork.Step T.wire toIso)
      (.initial interval clock lifetime tic lastPing fun i => { id := c'.heartName i })
      (c.heartNetwork c'.heartName) := by
  have hnamed := Named.of_run (hfirst.append hrun)
  refine ⟨es.filterMap ClusterEvent.heartEvent?, ?_⟩
  apply hfirst.filterMap fun _ _ _ hforeseen h => moves_heartNetwork hforeseen h
  intro e he i name heq
  exact (hnamed.runs i name (List.mem_append_left _ (heq ▸ he))).heartName_eq.symm

end Runs

end Cluster

end Gpf

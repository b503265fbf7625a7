import Gpf.Engine.Cluster

/-!
# What the hub says of an engine, and whether it is there

A registered engine whose heart falls silent is reported as gone, one whose heart answers in time as
registered, and none is reported as registered that has not answered one of the last pings itself. All this
is about engines, hearts and hub at once, and follows from what holds of the hub with the engines and of the
hub with the hearts.
-/

namespace Gpf

open Transition

namespace ClusterEvent

variable {ι : Type*} {es : List (ClusterEvent ι)}

/-- A request that the hub has read is one that it has read from an engine. -/
theorem mem_of_request {incoming : Incoming}
    (h : .request incoming ∈ es.filterMap engineEvent?) : .request incoming ∈ es := by
  obtain ⟨e, he, hevent⟩ := List.mem_filterMap.mp h
  cases e <;> simp only [engineEvent?, reduceCtorEq, Option.some.injEq, NetworkEvent.request.injEq] at hevent
  rw [← hevent]
  exact he

/-- An answer of a heart is one of the heart of an engine. -/
theorem mem_of_bumm {i : ι} {echo : Pong} (h : .bumm i echo ∈ es.filterMap heartEvent?) :
    .bumm i echo ∈ es := by
  obtain ⟨e, he, hevent⟩ := List.mem_filterMap.mp h
  cases e <;> simp only [heartEvent?, reduceCtorEq, Option.some.injEq, HeartEvent.bumm.injEq] at hevent
  rw [← hevent.1, ← hevent.2]
  exact he

end ClusterEvent

/-- Where no engine logs off, all are in lockstep. -/
theorem NetworkEvent.Lockstep.of_notMem {ι : Type*} {es : List (NetworkEvent ι)}
    (h : ∀ i, .shutdown i ∉ es) : Lockstep es := by
  intro before i after hes
  exact absurd (hes ▸ List.mem_append_right before List.mem_cons_self) (h i)

/-- One engine, on whose wire the registration of `e` has its bytes. -/
def Transport.single : Transport Unit where
  wire := { Wire.session with registration := Registration.ofBytes }
  marshal := Registration.bytes
  envelope _ := ["e"]
  registration_marshal := Registration.ofBytes_bytes
  envelope_injective := Function.injective_of_subsingleton _

/-- The engine `e` runs, its heart starts and answers the first ping, and the second beat registers it. -/
def sessionOfE : List (ClusterEvent Unit) :=
  [.run () "e", .start () "", .request (Transport.single.helloRequest () .ofE),
    .hub (.tick 1), .hub (.timeout 0),
    .bumm () ⟨"e-heart", "19700101T000000.000001"⟩, .pong ⟨"e-heart", "19700101T000000.000001"⟩,
    .hub (.tick 2), .hub (.timeout 2),
    .reply () { socket := .query, envelope := some ["e"],
                frames := [.text "registration_request", .text "ACK"] }]

/-- The heart stops, and there are four more beats. -/
def silenceOfE : List (ClusterEvent Unit) :=
  [.stop (), .hub (.tick 3), .hub (.timeout 3), .hub (.tick 4), .hub (.timeout 4),
    .hub (.tick 5), .hub (.timeout 5), .hub (.tick 6), .hub (.timeout 7)]

section Presence

variable {ι : Type*} [DecidableEq ι] {T : Transport ι} {toIso : Time → String} {interval : ℤ}
  {clock lifetime tic lastPing : Time} {es fs : List (ClusterEvent ι)} {before after : Cluster ι} {i : ι}

/-- When no heart under the name of a registered engine has answered for four beats, the engine is listed, has
been reported as gone, and its queue is among the dead, unless the hub has served its logoff. -/
theorem silent_engine_detected (hinj : Function.Injective toIso)
    (hfirst : Run (Cluster.Step T toIso) (.initial interval clock lifetime tic lastPing) es before)
    (hrun : Run (Cluster.Step T toIso) before fs after)
    (hlockstep : NetworkEvent.Lockstep ((es ++ fs).filterMap ClusterEvent.engineEvent?))
    (hunmeddling : ∀ e ∈ (es ++ fs).filterMap ClusterEvent.engineEvent?, e.Unmeddling)
    (hregistered : (after.engines i).registered = true)
    (hsilent : ∀ j pong, .bumm j pong ∈ fs → after.heartName j ≠ after.heartName i)
    (hbeats : before.controller.monitor.pings.length + 4 ≤ after.controller.monitor.pings.length) :
    ∃ msg ec, (after.engines i).hello = some msg ∧ Network.MadeFrom T i msg ec ∧
      (ec ∈ after.controller.hub.tracker.engines ∧
          (after.controller.hub.notices ec.id).getLast? = some false ∧
          msg.queue ∈ after.controller.hub.tracker.deadEngines ∨
        .request (T.logoffRequest i (after.engines i)) ∈ es ++ fs) := by
  have hwhole := hfirst.append hrun
  obtain ⟨msg, ec, hhello, hmade, -, -, hlisted⟩ :=
    (Network.Member.of_run (Cluster.run_network hwhole) hlockstep hunmeddling).member i (.inl hregistered)
  refine ⟨msg, ec, hhello, hmade, ?_⟩
  rcases hlisted with hlisted | hlogoff
  · have hname : after.heartName i = ec.heartbeat :=
      (Cluster.heartName_of_hello hhello).trans hmade.heartbeat.symm
    have hquiet : ∀ j echo, .bumm j echo ∈ fs.filterMap ClusterEvent.heartEvent? →
        echo.heart ≠ ec.heartbeat := by
      intro j echo hbumm heq
      have hanswered := ClusterEvent.mem_of_bumm hbumm
      have hecho := (Cluster.Named.of_run hwhole).echoes j echo (List.mem_append_right _ hanswered)
      exact hsilent j echo hanswered (hecho.heartName_eq.trans (heq.trans hname.symm))
    obtain ⟨-, hgone⟩ := HeartNetwork.silent_heart_detected hinj
      (Cluster.reachable_heartNetwork hfirst hrun) (Cluster.run_heartNetwork hfirst hrun) hquiet hbeats
    obtain ⟨hnotice, hdead⟩ := hgone ec hlisted rfl
    exact .inl ⟨hlisted, hnotice, hmade.queue ▸ hdead⟩
  · exact .inr (ClusterEvent.mem_of_request hlogoff)

/-- The engine of the session whose heart has stopped is reported as gone after four beats. -/
theorem silent_engine_detected_single :
    ∃ before after : Cluster Unit, (after.engines ()).registered = true ∧
      before.controller.monitor.pings.length + 4 ≤ after.controller.monitor.pings.length ∧
      ∃ msg ec, (after.engines ()).hello = some msg ∧ Network.MadeFrom .single () msg ec ∧
        (ec ∈ after.controller.hub.tracker.engines ∧
            (after.controller.hub.notices ec.id).getLast? = some false ∧
            msg.queue ∈ after.controller.hub.tracker.deadEngines ∨
          .request (Transport.single.logoffRequest () (after.engines ())) ∈ sessionOfE ++ silenceOfE) := by
  obtain ⟨before, hfirst, hrest⟩ := Cluster.exists_run .single Time.toIsoString
    (.initial 2000 0 0 0 0) sessionOfE (by simp [sessionOfE, ClusterEvent.Foreign])
    (fun before => (silenceOfE.foldlM (Cluster.next .single Time.toIsoString) before).any (fun after =>
      decide ((after.engines ()).registered = true ∧
        before.controller.monitor.pings.length + 4 ≤ after.controller.monitor.pings.length)) = true)
    (by decide +kernel)
  obtain ⟨after, hrun, hregistered, hbeats⟩ := Cluster.exists_run .single Time.toIsoString before silenceOfE
    (by simp [silenceOfE, ClusterEvent.Foreign]) _ hrest
  refine ⟨before, after, hregistered, hbeats, ?_⟩
  apply silent_engine_detected Time.toIsoString_injective hfirst hrun _ _ hregistered _ hbeats
  · apply NetworkEvent.Lockstep.of_notMem
    simp [sessionOfE, silenceOfE, ClusterEvent.engineEvent?]
  · intro e he incoming heq
    subst heq
    simp [sessionOfE, silenceOfE, ClusterEvent.engineEvent?] at he
  · simp [silenceOfE]

/-- When the heart of an engine has answered in time for three beats, its registration waits no longer: the
request is on its way to the hub, or was refused, or has become a registration, which joined at that event,
and which was purged before or has been acknowledged; and then the engine is listed and was last reported
as registered, unless the hub has served its logoff. -/
theorem timely_engine_settled (hinj : Function.Injective toIso)
    (hfirst : Run (Cluster.Step T toIso) (.initial interval clock lifetime tic lastPing) es before)
    (hrun : Run (Cluster.Step T toIso) before fs after)
    (hlockstep : NetworkEvent.Lockstep ((es ++ fs).filterMap ClusterEvent.engineEvent?))
    (hunmeddling : ∀ e ∈ (es ++ fs).filterMap ClusterEvent.engineEvent?, e.Unmeddling)
    (hbeating : before.beating i = true)
    (htimely : Throughout (HeartNetwork.Step T.wire toIso) (HeartNetwork.Timely toIso i)
      (before.heartNetwork after.heartName) (fs.filterMap ClusterEvent.heartEvent?))
    (hbeats : before.controller.monitor.pings.length + 3 ≤ after.controller.monitor.pings.length) :
    ∃ msg, (after.engines i).hello = some msg ∧ (T.helloRequest i msg ∈ after.requests ∨
      Network.Refused T toIso (.initial interval clock lifetime tic lastPing) i msg
        ((es ++ fs).filterMap ClusterEvent.engineEvent?) after.network ∨
      ∃ ec, Network.MadeFrom T i msg ec ∧
        Network.Admitted T toIso (.initial interval clock lifetime tic lastPing) i msg ec
          ((es ++ fs).filterMap ClusterEvent.engineEvent?) after.network ∧
        (.purging ec.id ∈ after.controller.hub.log ∨
        (Hub.registrationAck ec ∈ after.replies ∨ (after.engines i).registered = true) ∧
          (ec ∈ after.controller.hub.tracker.engines ∧
              (after.controller.hub.notices ec.id).getLast? = some true ∨
            .request (T.logoffRequest i (after.engines i)) ∈ es ++ fs))) := by
  have hwhole := hfirst.append hrun
  have hnamed := Cluster.Named.of_run hfirst
  obtain ⟨heart, hmade⟩ := Option.ne_none_iff_exists'.mp (hnamed.beating i hbeating)
  obtain ⟨-, msg, hhello, hname⟩ := hrun.preserves (fun c => c.Introduces i heart.id)
    (fun _ _ _ hintroduces h => hintroduces.step h) (hnamed.hearts i heart hmade)
  have hid : ((before.heartNetwork after.heartName).hearts i).id = msg.heartbeat := by
    simp only [Cluster.heartNetwork, hmade, Option.getD_some, hname]
  obtain ⟨halive, hannounced⟩ := HeartNetwork.timely_heart_alive hinj
    (Cluster.reachable_heartNetwork hfirst hrun) (Cluster.run_heartNetwork hfirst hrun) hbeating htimely hbeats
  have account := Network.Accounted.of_run (Cluster.run_network hwhole)
  have members := Network.Member.of_run (Cluster.run_network hwhole) hlockstep hunmeddling
  have hview := Controller.reachable_view account.honest.reachable
  refine ⟨msg, hhello, ?_⟩
  apply (account.requests i msg hhello).imp_right fun h => h.imp_right _
  intro hexists
  obtain ⟨ec, hmade, hadmitted, hec | hpurged⟩ := hexists
  · refine ⟨ec, hmade, hadmitted, .inr ?_⟩
    have hheart : ec.heartbeat = ((before.heartNetwork after.heartName).hearts i).id :=
      hmade.heartbeat.trans hid.symm
    -- a heart that is alive is not that of a registration which waits
    have hfinished : after.controller.hub.Finished ec.id := by
      by_contra hwaits
      apply (WaitingTimed.reachable hview).heart_dead ec hec hwaits
      rw [hheart]
      exact of_decide_eq_true halive
    have hack := account.acknowledged hmade hec hfinished
    refine ⟨hack, ?_⟩
    have henvelope : (Hub.registrationAck ec).envelope = some (T.envelope i) :=
      congrArg (fun incoming : Incoming => some incoming.envelope) hmade.incomingMsg
    have hconfirmed : Network.Confirmed T i after.network :=
      hack.symm.imp_right fun hm => ⟨_, hm, henvelope, rfl⟩
    obtain ⟨other, ec', hhello', hmade', hec', -, hlisted⟩ := members.member i hconfirmed
    have hmsg : other = msg := Option.some.inj (hhello'.symm.trans hhello)
    have hsame : ec' = ec := by
      apply (RegistryInvariant.reachable hview).queue_unique ec' hec' ec hec
      rw [hmade'.queue, hmade.queue, hmsg]
    rw [hsame] at hlisted
    rcases hlisted with hlisted | hlogoff
    · exact .inl ⟨hlisted, hannounced ec hlisted hheart⟩
    · exact .inr (ClusterEvent.mem_of_request hlogoff)
  · exact ⟨ec, hmade, hadmitted, .inl hpurged⟩

/-- The engine `e` runs and starts its heart. -/
def startOfE : List (ClusterEvent Unit) := [.run () "e", .start () ""]

/-- It registers, and its heart answers each of two pings before the next. -/
def beatsOfE : List (ClusterEvent Unit) :=
  [.request (Transport.single.helloRequest () .ofE), .hub (.tick 1), .hub (.timeout 0),
    .bumm () ⟨"e-heart", "19700101T000000.000001"⟩, .pong ⟨"e-heart", "19700101T000000.000001"⟩,
    .hub (.tick 2), .hub (.timeout 2),
    .bumm () ⟨"e-heart", "19700101T000000.000002"⟩, .pong ⟨"e-heart", "19700101T000000.000002"⟩,
    .hub (.tick 3), .hub (.timeout 3)]

/-- By the third beat the registration of the engine of the session has been acknowledged and reported. -/
theorem timely_engine_settled_single :
    ∃ before after : Cluster Unit,
      before.controller.monitor.pings.length + 3 ≤ after.controller.monitor.pings.length ∧
      ∃ msg, (after.engines ()).hello = some msg ∧ (Transport.single.helloRequest () msg ∈ after.requests ∨
        Network.Refused .single Time.toIsoString (.initial 2000 0 0 0 0) () msg
          ((startOfE ++ beatsOfE).filterMap ClusterEvent.engineEvent?) after.network ∨
        ∃ ec, Network.MadeFrom .single () msg ec ∧
          Network.Admitted .single Time.toIsoString (.initial 2000 0 0 0 0) () msg ec
            ((startOfE ++ beatsOfE).filterMap ClusterEvent.engineEvent?) after.network ∧
          (.purging ec.id ∈ after.controller.hub.log ∨
          (Hub.registrationAck ec ∈ after.replies ∨ (after.engines ()).registered = true) ∧
            (ec ∈ after.controller.hub.tracker.engines ∧
                (after.controller.hub.notices ec.id).getLast? = some true ∨
              .request (Transport.single.logoffRequest () (after.engines ())) ∈ startOfE ++ beatsOfE))) := by
  obtain ⟨before, hfirst, hbeating, hchecked, hrest⟩ := Cluster.exists_run .single Time.toIsoString
    (.initial 2000 0 0 0 0) startOfE (by simp [startOfE, ClusterEvent.Foreign])
    (fun before => before.beating () = true ∧
      checked (HeartNetwork.next Transport.single.wire Time.toIsoString)
        (HeartNetwork.Timely Time.toIsoString ()) (before.heartNetwork fun _ => "e-heart")
        (beatsOfE.filterMap ClusterEvent.heartEvent?) = true ∧
      (beatsOfE.foldlM (Cluster.next .single Time.toIsoString) before).any (fun after =>
        decide (after.heartName () = "e-heart" ∧
          before.controller.monitor.pings.length + 3 ≤ after.controller.monitor.pings.length)) = true)
    (by decide +kernel)
  obtain ⟨after, hrun, hname, hbeats⟩ := Cluster.exists_run .single Time.toIsoString before beatsOfE
    (by simp [beatsOfE, ClusterEvent.Foreign]) _ hrest
  have hnames : after.heartName = fun _ => "e-heart" := funext fun _ => hname
  refine ⟨before, after, hbeats, ?_⟩
  apply timely_engine_settled Time.toIsoString_injective hfirst hrun _ _ hbeating _ hbeats
  · apply NetworkEvent.Lockstep.of_notMem
    simp [startOfE, beatsOfE, ClusterEvent.engineEvent?]
  · intro e he incoming heq
    subst heq
    simp [startOfE, beatsOfE, ClusterEvent.engineEvent?] at he
  · rw [hnames]
    exact throughout_of_checked (fun _ _ _ hstep => hstep) hchecked

/-- An engine which is reported as registered, and whose heart name no other engine has, has itself answered one
of the last four pings. -/
theorem reported_engine_answered
    (hrun : Run (Cluster.Step T toIso) (.initial interval clock lifetime tic lastPing) es after)
    {msg : Registration} {ec : EngineConnector} (hmade : Network.MadeFrom T i msg ec)
    (hdistinct : ∀ j other, (after.engines j).hello = some other → other.heartbeat = msg.heartbeat → j = i)
    (hlisted : ec ∈ after.controller.hub.tracker.engines)
    (hreported : (after.controller.hub.notices ec.id).getLast? = some true) :
    ∃ echo k, .bumm i echo ∈ es ∧ after.controller.monitor.pings[k]? = some echo.received ∧
      after.controller.monitor.pings.length ≤ k + 4 := by
  have honest := (Network.Accounted.of_run (Cluster.run_network hrun)).honest
  have hstanding := (Announced.reachable (Controller.reachable_view honest.reachable)).standing ec hlisted
  have halive : after.controller.monitor.alive ec.heartbeat = true :=
    (Option.some.inj (hreported.symm.trans hstanding)).symm
  obtain ⟨j, echo, k, hbumm, hheart, hk, hle⟩ :=
    HeartNetwork.alive_heart_answered (Cluster.run_heartNetwork (.nil _) hrun) halive
  have hanswered := ClusterEvent.mem_of_bumm hbumm
  obtain ⟨-, other, hother, hname⟩ := (Cluster.Named.of_run hrun).echoes j echo hanswered
  have hji : j = i := hdistinct j other hother (hname.trans (hheart.trans hmade.heartbeat))
  exact ⟨echo, k, hji ▸ hanswered, hk, hle⟩

/-- The engine of the session is reported after the second beat, and has answered the first ping. -/
theorem reported_engine_answered_single :
    ∃ (after : Cluster Unit) (ec : EngineConnector), ec ∈ after.controller.hub.tracker.engines ∧
      (after.controller.hub.notices ec.id).getLast? = some true ∧
      ∃ echo k, .bumm () echo ∈ sessionOfE ∧ after.controller.monitor.pings[k]? = some echo.received ∧
        after.controller.monitor.pings.length ≤ k + 4 := by
  let ec := Hub.connectorOf 0 .ofE (Transport.single.helloRequest () .ofE) (some 1)
  obtain ⟨after, hrun, hlisted, hreported⟩ := Cluster.exists_run .single Time.toIsoString
    (.initial 2000 0 0 0 0) sessionOfE (by simp [sessionOfE, ClusterEvent.Foreign])
    (fun after => ec ∈ after.controller.hub.tracker.engines.records ∧
      (after.controller.hub.notices ec.id).getLast? = some true) (by decide +kernel)
  exact ⟨after, ec, hlisted, hreported,
    reported_engine_answered hrun ⟨rfl, rfl, rfl, rfl⟩ (fun _ _ _ _ => rfl) hlisted hreported⟩

end Presence

end Gpf

import Gpf.Engine.HeartNetwork
import Gpf.Util.IsoTime

/-!
# The heartmonitor as a failure detector

A heart that falls silent is not alive after four more beats, whatever of its messages is still on its
way. A heart whose messages take less than the time between two beats is alive from the third beat on.
Of the engine that such a heart belongs to, the hub has told its listeners accordingly.
-/

namespace Gpf

open Transition

/-- The event ends the heart, or loses one of its pings or a pong under its name. -/
def HeartEvent.harms {ι : Type*} [DecidableEq ι] (i : ι) (heart : String) : HeartEvent ι → Bool
  | .shutdown j => decide (j = i)
  | .losePing j _ => decide (j = i)
  | .losePong lost => decide (lost.heart = heart)
  | _ => false

namespace HeartNetwork

variable {ι : Type*}

/-- The number of beats so far, each of which has published one ping. -/
def beats (net : HeartNetwork ι) : ℕ := net.controller.monitor.pings.length

/-- Every text on its way is that of a lifetime up to the present one. -/
structure Genuine (toIso : Time → String) (net : HeartNetwork ι) : Prop where
  pings : ∀ i, ∀ ping ∈ net.pings i, ∃ t ≤ net.controller.monitor.lifetime, ping = toIso t
  pongs : ∀ pong ∈ net.pongs, ∃ t ≤ net.controller.monitor.lifetime, pong.received = toIso t

/-- What is left of the hearts of a name `b` beats after the last of them has answered a ping, when the
lifetime was `T`. -/
structure Fading (toIso : Time → String) (heart : String) (T : Time) (b : ℕ)
    (net : HeartNetwork ι) : Prop where
  pongs : ∀ pong ∈ net.pongs, pong.heart = heart → ∃ t ≤ T, pong.received = toIso t
  started : T ≤ net.controller.monitor.lifetime
  lifetime : 1 ≤ b → T < net.controller.monitor.lifetime
  lastPing : 2 ≤ b → T < net.controller.monitor.lastPing
  responses : 2 ≤ b → heart ∉ net.controller.monitor.responses
  probation : 3 ≤ b → heart ∈ net.controller.monitor.hearts →
    heart ∈ net.controller.monitor.onProbation
  hearts : 4 ≤ b → heart ∉ net.controller.monitor.hearts

variable {wire : Wire} {toIso : Time → String} {net net' : HeartNetwork ι}

/-- A beat while the clock has moved on leaves a greater lifetime. -/
theorem lifetime_lt {m m' : HeartMonitor Hub} {toc : Time} (hbeats : m.Beats toIso toc m')
    (hclock : m.tic < toc) : m.lifetime < m'.lifetime := by
  rw [hbeats.lifetime]
  exact Int.lt_add_of_pos_right _ (Int.sub_pos_of_lt hclock)

/-- A beat puts its own text on the way to every heart that is connected. -/
theorem pings_published {d : Controller} {toc : Time}
    (hbeats : net.controller.monitor.Beats toIso toc d.monitor) (i : ι) :
    (net.published d).pings i =
      if net.beating i then net.pings i ++ [toIso d.monitor.lifetime] else net.pings i := by
  simp only [published, hbeats.pings, List.drop_left]

/-- A text is on its way to a heart that starts only if it is on its way to another. -/
theorem mem_pings_update [DecidableEq ι] {i j : ι} {texts : List String} {ping : String}
    (hsub : ∀ text ∈ texts, text ∈ net.pings i) (h : ping ∈ Function.update net.pings i texts j) :
    ping ∈ net.pings j := by
  by_cases hji : j = i
  · subst hji
    rw [Function.update_self] at h
    exact hsub ping h
  · rwa [Function.update_of_ne hji] at h

namespace Genuine

/-- Fewer texts, at a lifetime that is not smaller, are genuine still. -/
theorem mono (inv : Genuine toIso net)
    (hlifetime : net.controller.monitor.lifetime ≤ net'.controller.monitor.lifetime)
    (hpings : ∀ i, ∀ ping ∈ net'.pings i, ping ∈ net.pings i ∨
      ping = toIso net'.controller.monitor.lifetime)
    (hpongs : ∀ pong ∈ net'.pongs, pong ∈ net.pongs ∨ ∃ i, pong.received ∈ net.pings i) :
    Genuine toIso net' where
  pings i ping hping := by
    rcases hpings i ping hping with hold | hnew
    · obtain ⟨t, ht, heq⟩ := inv.pings i ping hold
      exact ⟨t, ht.trans hlifetime, heq⟩
    · exact ⟨_, le_rfl, hnew⟩
  pongs pong hpong := by
    rcases hpongs pong hpong with hold | hread
    · obtain ⟨t, ht, heq⟩ := inv.pongs pong hold
      exact ⟨t, ht.trans hlifetime, heq⟩
    · obtain ⟨i, hread⟩ := hread
      obtain ⟨t, ht, heq⟩ := inv.pings i _ hread
      exact ⟨t, ht.trans hlifetime, heq⟩

/-- Every event keeps the texts genuine. -/
theorem step [DecidableEq ι] (inv : Genuine toIso net) {e : HeartEvent ι} (h : Step wire toIso net e net') :
    Genuine toIso net' := by
  cases step_cases h with
  | start i uuid _ =>
    refine inv.mono le_rfl (fun j ping hping => ?_) fun pong hpong => .inl hpong
    exact .inl (mem_pings_update (fun text htext => absurd htext List.not_mem_nil) hping)
  | shutdown i => exact inv.mono le_rfl (fun _ _ hping => .inl hping) fun _ hpong => .inl hpong
  | bumm i pong _ hping _ =>
    refine inv.mono le_rfl (fun j ping hmem => ?_) fun pong' hpong => ?_
    · exact .inl (mem_pings_update (fun text htext => List.mem_of_mem_erase htext) hmem)
    · rcases List.mem_append.mp hpong with hold | hnew
      · exact .inl hold
      · rw [List.mem_singleton.mp hnew]
        exact .inr ⟨i, hping⟩
  | pong pong _ =>
    refine inv.mono ?_ (fun _ _ hping => .inl hping) fun pong' hpong => .inl (List.mem_of_mem_erase hpong)
    simp only [heard, Controller.handlePong, HeartMonitor.handlePong_eq, le_refl]
  | losePing i ping =>
    refine inv.mono le_rfl (fun j ping' hmem => ?_) fun pong hpong => .inl hpong
    exact .inl (mem_pings_update (fun text htext => List.mem_of_mem_erase htext) hmem)
  | losePong pong =>
    exact inv.mono le_rfl (fun _ _ hping => .inl hping) fun _ hpong => .inl (List.mem_of_mem_erase hpong)
  | served e d _ hmonitor =>
    refine inv.mono ?_ (fun _ _ hping => .inl hping) fun _ hpong => .inl hpong
    rw [hmonitor]
  | beat e d _ hbeats hclock =>
    refine inv.mono (lifetime_lt hbeats hclock).le (fun i ping hping => ?_) fun _ hpong => .inl hpong
    rw [pings_published hbeats] at hping
    split at hping
    · exact (List.mem_append.mp hping).imp_right List.mem_singleton.mp
    · exact .inl hping

/-- Every text on its way is genuine in every reachable state. -/
theorem reachable [DecidableEq ι] {interval : ℤ} {clock lifetime tic lastPing : Time}
    {hearts : ι → Heart}
    (h : Reachable (Step wire toIso) (initial interval clock lifetime tic lastPing hearts) net) :
    Genuine toIso net := by
  refine h.preserves (Genuine toIso) ⟨fun i ping hping => ?_, fun pong hpong => ?_⟩ fun _ _ _ inv => inv.step
  · exact absurd hping List.not_mem_nil
  · exact absurd hpong List.not_mem_nil

end Genuine

namespace Fading

variable {heart : String} {T : Time} {b : ℕ}

/-- The heart begins to fade with whatever is on its way. -/
theorem begin (inv : Genuine toIso net) :
    Fading toIso heart net.controller.monitor.lifetime 0 net where
  pongs pong hpong _ := inv.pongs pong hpong
  started := le_rfl
  lifetime h := by omega
  lastPing h := by omega
  responses h := by omega
  probation h := by omega
  hearts h := by omega

/-- It goes on fading while the heartmonitor is left alone and no heart of the name answers. -/
theorem of_monitor (inv : Fading toIso heart T b net)
    (hmonitor : net'.controller.monitor = net.controller.monitor)
    (hpongs : ∀ pong ∈ net'.pongs, pong.heart = heart → pong ∈ net.pongs) :
    Fading toIso heart T b net' where
  pongs pong hpong hheart := inv.pongs pong (hpongs pong hpong hheart) hheart
  started := by
    rw [hmonitor]
    exact inv.started
  lifetime := by
    rw [hmonitor]
    exact inv.lifetime
  lastPing := by
    rw [hmonitor]
    exact inv.lastPing
  responses := by
    rw [hmonitor]
    exact inv.responses
  probation := by
    rw [hmonitor]
    exact inv.probation
  hearts := by
    rw [hmonitor]
    exact inv.hearts

/-- From the second beat on, its pongs are too late to be accepted. -/
theorem heard (hinj : Function.Injective toIso) (inv : Fading toIso heart T b net) {pong : Pong}
    (hmem : pong ∈ net.pongs) : Fading toIso heart T b (net.heard toIso pong) := by
  have hlate (hheart : pong.heart = heart) (hb : 2 ≤ b) :
      net.controller.monitor.accepts toIso pong = false := by
    obtain ⟨t, ht, heq⟩ := inv.pongs pong hmem hheart
    rw [HeartMonitor.accepts, heq, decide_eq_false_iff_not]
    intro haccepted
    rcases haccepted with hcurrent | hlast
    · have hlt := inv.lifetime (by omega)
      rw [hinj hcurrent] at ht
      exact absurd ht hlt.not_ge
    · have hlt := inv.lastPing hb
      rw [hinj hlast] at ht
      exact absurd ht hlt.not_ge
  have hmonitor : (net.heard toIso pong).controller.monitor =
      { net.controller.monitor with
        responses := if net.controller.monitor.accepts toIso pong then
          insert pong.heart net.controller.monitor.responses
        else net.controller.monitor.responses } := HeartMonitor.handlePong_eq _ _ _
  constructor
  · intro pong' hpong' hheart
    exact inv.pongs pong' (List.mem_of_mem_erase hpong') hheart
  · rw [hmonitor]
    exact inv.started
  · rw [hmonitor]
    exact inv.lifetime
  · rw [hmonitor]
    exact inv.lastPing
  · intro hb
    rw [hmonitor]
    by_cases hheart : pong.heart = heart
    · rw [hlate hheart hb]
      exact inv.responses hb
    · split
      · intro hin
        exact (Finset.mem_insert.mp hin).elim (fun h => hheart h.symm) (inv.responses hb)
      · exact inv.responses hb
  · rw [hmonitor]
    exact inv.probation
  · rw [hmonitor]
    exact inv.hearts

/-- With every beat it fades a bit more. -/
theorem beat (inv : Fading toIso heart T b net) {d : Controller} {toc : Time}
    (hbeats : net.controller.monitor.Beats toIso toc d.monitor)
    (hclock : net.controller.monitor.tic < toc) : Fading toIso heart T (b + 1) (net.published d) where
  pongs := inv.pongs
  started := inv.started.trans (lifetime_lt hbeats hclock).le
  lifetime _ := inv.started.trans_lt (lifetime_lt hbeats hclock)
  lastPing hb := by
    have hlt := inv.lifetime (by omega)
    simp only [published, hbeats.lastPing]
    exact hlt
  responses _ := by
    simp only [published, hbeats.responses, Finset.notMem_empty, not_false_iff]
  probation hb hin := by
    have hsilent := inv.responses (by omega)
    have hmem := ((hbeats.mem_hearts heart).mp hin).resolve_left hsilent
    exact (hbeats.mem_onProbation heart).mpr ⟨hmem.1, hsilent, hmem.2⟩
  hearts hb hin := by
    have hsilent := inv.responses (by omega)
    have hmem := ((hbeats.mem_hearts heart).mp hin).resolve_left hsilent
    exact hmem.2 (inv.probation (by omega) hmem.1)

/-- Every event but an answer of a heart of the name lets it fade. -/
theorem step [DecidableEq ι] (hinj : Function.Injective toIso) {e : HeartEvent ι} {n₀ : ℕ}
    (he : ∀ i pong, e = .bumm i pong → pong.heart ≠ heart)
    (inv : ∃ b, net.beats = n₀ + b ∧ Fading toIso heart T b net) (h : Step wire toIso net e net') :
    ∃ b, net'.beats = n₀ + b ∧ Fading toIso heart T b net' := by
  obtain ⟨b, hbeats, hfading⟩ := inv
  cases step_cases h with
  | start i uuid _ => exact ⟨b, hbeats, hfading.of_monitor rfl fun _ hpong _ => hpong⟩
  | shutdown i => exact ⟨b, hbeats, hfading.of_monitor rfl fun _ hpong _ => hpong⟩
  | bumm i pong _ _ _ =>
    refine ⟨b, hbeats, hfading.of_monitor rfl fun pong' hpong' hheart => ?_⟩
    refine (List.mem_append.mp hpong').resolve_right fun hnew => ?_
    rw [List.mem_singleton.mp hnew] at hheart
    exact he i pong rfl hheart
  | pong pong hmem =>
    refine ⟨b, ?_, hfading.heard hinj hmem⟩
    rw [← hbeats]
    simp only [beats, HeartNetwork.heard, Controller.handlePong, HeartMonitor.handlePong_eq]
  | losePing i ping => exact ⟨b, hbeats, hfading.of_monitor rfl fun _ hpong _ => hpong⟩
  | losePong pong =>
    exact ⟨b, hbeats, hfading.of_monitor rfl fun _ hpong _ => List.mem_of_mem_erase hpong⟩
  | served e d _ hmonitor =>
    refine ⟨b, ?_, hfading.of_monitor hmonitor fun _ hpong _ => hpong⟩
    rw [← hbeats, beats, hmonitor, beats]
  | beat e d _ hbeat hclock =>
    refine ⟨b + 1, ?_, hfading.beat hbeat hclock⟩
    have hpings : (net.published d).beats = net.beats + 1 := by
      simp [beats, published, hbeat.pings]
    rw [hpings, hbeats, Nat.add_assoc]

end Fading

/-- When no heart of a name has answered a ping for four beats, whatever was on its way before, the name is
not alive; and of every engine with this heart the listeners have been told that it has gone, and its
queue name is among the dead engines. -/
theorem silent_heart_detected [DecidableEq ι] {interval : ℤ} {clock lifetime tic lastPing : Time}
    {hearts : ι → Heart} (hinj : Function.Injective toIso)
    (hreach : Reachable (Step wire toIso) (initial interval clock lifetime tic lastPing hearts) net)
    {es : List (HeartEvent ι)} (hrun : Run (Step wire toIso) net es net') {heart : String}
    (hsilent : ∀ i pong, .bumm i pong ∈ es → pong.heart ≠ heart) (hbeats : net.beats + 4 ≤ net'.beats) :
    net'.controller.monitor.alive heart = false ∧
      ∀ ec ∈ net'.controller.hub.tracker.engines, ec.heartbeat = heart →
        (net'.controller.hub.notices ec.id).getLast? = some false ∧
          ec.queue ∈ net'.controller.hub.tracker.deadEngines := by
  have hfading : ∃ b, net'.beats = net.beats + b ∧
      Fading toIso heart net.controller.monitor.lifetime b net' := by
    refine hrun.preserves_of_forall (fun u => ∃ b, u.beats = net.beats + b ∧
        Fading toIso heart net.controller.monitor.lifetime b u)
      (fun s e t he inv hstep => Fading.step hinj he inv hstep) ?_ ⟨0, rfl, .begin (.reachable hreach)⟩
    intro e he i pong heq
    exact hsilent i pong (heq ▸ he)
  obtain ⟨b, hb, hfading⟩ := hfading
  have hdead : heart ∉ net'.controller.monitor.hearts := hfading.hearts (by omega)
  refine ⟨decide_eq_false hdead, ?_⟩
  intro ec hec hheart
  obtain ⟨first, hfirst⟩ := hreach
  have hannounced := Announced.reachable (Controller.reachable_view
    (reachable_controller ⟨first ++ es, hfirst.append hrun⟩))
  have hstanding := hannounced.standing ec hec
  have hfailed : ec.heartbeat ∉ net'.controller.view.hearts := hheart ▸ hdead
  rw [decide_eq_false hfailed] at hstanding
  exact ⟨hstanding, hannounced.dead ec hec hfailed⟩

/-- The heart of the session starts and answers the first ping, its engine registers, and it stops. -/
def sessionBeats : List (HeartEvent Unit) :=
  [.start () "", .hub (.query .register), .hub (.tick 1), .hub (.timeout 0),
    .bumm () ⟨"h", "19700101T000000.000001"⟩, .pong ⟨"h", "19700101T000000.000001"⟩,
    .hub (.tick 2), .hub (.timeout 2), .shutdown ()]

/-- Four beats, a microsecond apart. -/
def silentBeats : List (HeartEvent Unit) :=
  [.hub (.tick 3), .hub (.timeout 3), .hub (.tick 4), .hub (.timeout 4), .hub (.tick 5),
    .hub (.timeout 5), .hub (.tick 6), .hub (.timeout 7)]

/-- The engine whose heart has stopped is still listed four beats later, and known to have gone. -/
theorem silent_heart_detected_session :
    ∃ net net' : HeartNetwork Unit, net.beats + 4 ≤ net'.beats ∧
      (∃ ec ∈ net'.controller.hub.tracker.engines.records, ec.heartbeat = "h") ∧
      net'.controller.monitor.alive "h" = false ∧
      ∀ ec ∈ net'.controller.hub.tracker.engines, ec.heartbeat = "h" →
        (net'.controller.hub.notices ec.id).getLast? = some false ∧
          ec.queue ∈ net'.controller.hub.tracker.deadEngines := by
  obtain ⟨net, hrun, hrest⟩ := exists_run .session Time.toIsoString
    (initial 2000 0 0 0 0 fun _ => { id := "h" }) sessionBeats
    (fun net => (silentBeats.foldlM (next .session Time.toIsoString) net).any (fun net' =>
      decide (net.beats + 4 ≤ net'.beats ∧
        ∃ ec ∈ net'.controller.hub.tracker.engines.records, ec.heartbeat = "h")) = true)
    (by decide +kernel)
  obtain ⟨net', hrun', hbeats, hlisted⟩ := exists_run .session Time.toIsoString net silentBeats _ hrest
  refine ⟨net, net', hbeats, hlisted, ?_⟩
  apply silent_heart_detected Time.toIsoString_injective ⟨_, hrun⟩ hrun' _ hbeats
  simp [silentBeats]

/-- A text is on its way to the heart or from it. -/
def Underway (net : HeartNetwork ι) (i : ι) (text : String) : Prop :=
  text ∈ net.pings i ∨ { heart := (net.hearts i).id, received := text } ∈ net.pongs

/-- The heart goes on, nothing of it is lost, and whenever the heartmonitor beats, nothing but the last
ping and its echo is still on its way to or from the heart. -/
structure Timely [DecidableEq ι] (toIso : Time → String) (i : ι) (net : HeartNetwork ι)
    (e : HeartEvent ι) (net' : HeartNetwork ι) : Prop where
  unharmed : e.harms i (net.hearts i).id = false
  pings : net'.beats ≠ net.beats →
    ∀ ping ∈ net.pings i, ping = toIso net.controller.monitor.lifetime
  pongs : net'.beats ≠ net.beats → ∀ pong ∈ net.pongs, pong.heart = (net.hearts i).id →
    pong.received = toIso net.controller.monitor.lifetime

/-- That an event is timely can be checked. -/
theorem timely_iff [DecidableEq ι] {toIso : Time → String} {i : ι} {net : HeartNetwork ι}
    {e : HeartEvent ι} {net' : HeartNetwork ι} :
    e.harms i (net.hearts i).id = false ∧
      (net'.beats ≠ net.beats →
        (∀ ping ∈ net.pings i, ping = toIso net.controller.monitor.lifetime) ∧
          ∀ pong ∈ net.pongs, pong.heart = (net.hearts i).id →
            pong.received = toIso net.controller.monitor.lifetime) ↔ Timely toIso i net e net' := by
  constructor
  · intro h
    exact ⟨h.1, fun hbeat => (h.2 hbeat).1, fun hbeat => (h.2 hbeat).2⟩
  · intro h
    exact ⟨h.unharmed, fun hbeat => ⟨h.pings hbeat, h.pongs hbeat⟩⟩

instance decidableTimely [DecidableEq ι] (toIso : Time → String) (i : ι) (net : HeartNetwork ι)
    (e : HeartEvent ι) (net' : HeartNetwork ι) : Decidable (Timely toIso i net e net') :=
  decidable_of_iff _ timely_iff

/-- What the heartmonitor has of a timely heart `b` beats after it began to beat. -/
structure Steady (toIso : Time → String) (i : ι) (heart : String) (b : ℕ)
    (net : HeartNetwork ι) : Prop where
  beating : net.beating i = true
  id_eq : (net.hearts i).id = heart
  clock : 1 ≤ b → net.controller.monitor.lastPing < net.controller.monitor.lifetime
  current : 1 ≤ b → net.Underway i (toIso net.controller.monitor.lifetime) ∨
    heart ∈ net.controller.monitor.responses
  last : 2 ≤ b → net.Underway i (toIso net.controller.monitor.lastPing) ∨
    heart ∈ net.controller.monitor.responses ∨
    heart ∈ net.controller.monitor.hearts ∧ heart ∉ net.controller.monitor.onProbation
  alive : 3 ≤ b → heart ∈ net.controller.monitor.hearts

namespace Steady

variable {i : ι} {heart : String} {b : ℕ}

/-- A beating heart has yet to show. -/
theorem begin (hbeating : net.beating i = true) : Steady toIso i (net.hearts i).id 0 net where
  beating := hbeating
  id_eq := rfl
  clock h := by omega
  current h := by omega
  last h := by omega
  alive h := by omega

/-- It stays steady while the heartmonitor keeps its sets or responses are added, and nothing but what has
arrived there is no longer on its way. -/
theorem of_monitor (inv : Steady toIso i heart b net) (hbeating : net'.beating i = net.beating i)
    (hid : (net'.hearts i).id = (net.hearts i).id) {responses : Finset String}
    (hmonitor : net'.controller.monitor = { net.controller.monitor with responses := responses })
    (hresponses : net.controller.monitor.responses ⊆ responses)
    (hunderway : ∀ text, net.Underway i text → net'.Underway i text ∨
      (text = toIso net.controller.monitor.lifetime ∨ text = toIso net.controller.monitor.lastPing →
        heart ∈ responses)) : Steady toIso i heart b net' where
  beating := hbeating.trans inv.beating
  id_eq := hid.trans inv.id_eq
  clock := by
    rw [hmonitor]
    exact inv.clock
  current hb := by
    rw [hmonitor]
    rcases inv.current hb with hway | hin
    · exact (hunderway _ hway).imp_right fun harrived => harrived (.inl rfl)
    · exact .inr (hresponses hin)
  last hb := by
    rw [hmonitor]
    rcases inv.last hb with hway | hin | hgood
    · exact (hunderway _ hway).imp_right fun harrived => .inl (harrived (.inr rfl))
    · exact .inr (.inl (hresponses hin))
    · exact .inr (.inr hgood)
  alive := by
    rw [hmonitor]
    exact inv.alive

/-- It stays steady while the heartmonitor is left alone and nothing on its way gets lost. -/
theorem of_underway (inv : Steady toIso i heart b net) (hbeating : net'.beating i = net.beating i)
    (hid : (net'.hearts i).id = (net.hearts i).id)
    (hmonitor : net'.controller.monitor = net.controller.monitor)
    (hunderway : ∀ text, net.Underway i text → net'.Underway i text) : Steady toIso i heart b net' :=
  inv.of_monitor hbeating hid hmonitor Finset.Subset.rfl fun text hway => .inl (hunderway text hway)

/-- Its echo of one of the last two pings is accepted when it arrives. -/
theorem heard (inv : Steady toIso i heart b net) (pong : Pong) :
    Steady toIso i heart b (net.heard toIso pong) := by
  refine inv.of_monitor rfl rfl (HeartMonitor.handlePong_eq _ _ _) ?_ ?_
  · split
    · exact Finset.subset_insert _ _
    · exact Finset.Subset.rfl
  · intro text hway
    rcases hway with hping | hpong
    · exact .inl (.inl hping)
    · by_cases heq : ({ heart := (net.hearts i).id, received := text } : Pong) = pong
      · right
        intro hrecent
        have haccepts : net.controller.monitor.accepts toIso pong = true := by
          rw [← heq]
          exact decide_eq_true hrecent
        rw [if_pos haccepts, ← inv.id_eq, ← heq]
        exact Finset.mem_insert_self _ _
      · exact .inl (.inr ((List.mem_erase_of_ne heq).mpr hpong))

/-- A beat at which only the last ping is still on its way finds it alive from the third beat on. -/
theorem beat (hinj : Function.Injective toIso) (inv : Steady toIso i heart b net) {d : Controller}
    {toc : Time} (hbeats : net.controller.monitor.Beats toIso toc d.monitor)
    (hclock : net.controller.monitor.tic < toc)
    (hpings : ∀ ping ∈ net.pings i, ping = toIso net.controller.monitor.lifetime)
    (hpongs : ∀ pong ∈ net.pongs, pong.heart = (net.hearts i).id →
      pong.received = toIso net.controller.monitor.lifetime) :
    Steady toIso i heart (b + 1) (net.published d) where
  beating := inv.beating
  id_eq := inv.id_eq
  clock _ := by
    simp only [published, hbeats.lastPing]
    exact lifetime_lt hbeats hclock
  current _ := by
    left
    left
    rw [pings_published hbeats, if_pos inv.beating]
    exact List.mem_append_right _ (List.mem_singleton_self _)
  last hb := by
    rcases inv.current (by omega) with hway | hin
    · left
      simp only [published, hbeats.lastPing]
      refine hway.imp_left fun hping => ?_
      rw [← published, pings_published hbeats, if_pos inv.beating]
      exact List.mem_append_left _ hping
    · right
      right
      refine ⟨(hbeats.mem_hearts heart).mpr (.inl hin), fun hprobation => ?_⟩
      exact ((hbeats.mem_onProbation heart).mp hprobation).2.1 hin
  alive hb := by
    apply (hbeats.mem_hearts heart).mpr
    refine (inv.last (by omega)).resolve_left fun hway => ?_
    -- the ping before the last would have to be the last one
    have hsame : toIso net.controller.monitor.lastPing = toIso net.controller.monitor.lifetime :=
      hway.elim (hpings _) fun hpong => hpongs _ hpong rfl
    exact (inv.clock (by omega)).ne (hinj hsame)

/-- Another heart can do to this one's messages nothing but add to them. -/
theorem underway_update [DecidableEq ι] {j : ι} (hij : i ≠ j) {heart' : Heart} {texts : List String}
    {pongs : List Pong} (hpongs : ∀ pong ∈ net.pongs, pong ∈ pongs) {text : String}
    (hway : net.Underway i text) :
    text ∈ Function.update net.pings j texts i ∨
      { heart := (Function.update net.hearts j heart' i).id, received := text } ∈ pongs := by
  rw [Function.update_of_ne hij, Function.update_of_ne hij]
  exact hway.imp_right fun hpong => hpongs _ hpong

/-- Every timely event keeps the heart steady. -/
theorem step [DecidableEq ι] (hinj : Function.Injective toIso) {e : HeartEvent ι} {n₀ : ℕ}
    (inv : ∃ b, net.beats = n₀ + b ∧ Steady toIso i heart b net) (h : Step wire toIso net e net')
    (htimely : Timely toIso i net e net') : ∃ b, net'.beats = n₀ + b ∧ Steady toIso i heart b net' := by
  obtain ⟨b, hb, hsteady⟩ := inv
  cases step_cases h with
  | start j uuid hstopped =>
    have hij : i ≠ j := by
      intro heq
      rw [← heq, hsteady.beating] at hstopped
      cases hstopped
    refine ⟨b, hb, hsteady.of_underway ?_ ?_ rfl fun text hway => ?_⟩
    · exact Function.update_of_ne hij _ _
    · simp only [started, Function.update_of_ne hij]
    · exact underway_update hij (fun _ hpong => hpong) hway
  | shutdown j =>
    have hij : j ≠ i := of_decide_eq_false htimely.unharmed
    exact ⟨b, hb, hsteady.of_underway (Function.update_of_ne hij.symm _ _) rfl rfl fun _ hway => hway⟩
  | bumm j pong _ _ hpong =>
    refine ⟨b, hb, hsteady.of_underway rfl ?_ rfl fun text hway => ?_⟩
    · by_cases hij : i = j
      · subst hij
        simp only [answered, Function.update_self, Heart.bumm]
      · simp only [answered, Function.update_of_ne hij]
    · by_cases hij : i = j
      · subst hij
        simp only [Underway, answered, Function.update_self, Heart.bumm]
        rcases hway with hping | hold
        · by_cases hread : text = pong.received
          · right
            rw [hread, List.mem_append, List.mem_singleton]
            exact .inr hpong.symm
          · exact .inl ((List.mem_erase_of_ne hread).mpr hping)
        · exact .inr (List.mem_append_left _ hold)
      · exact underway_update hij (fun _ hold => List.mem_append_left _ hold) hway
  | pong pong _ =>
    refine ⟨b, ?_, hsteady.heard pong⟩
    rw [← hb]
    simp only [beats, HeartNetwork.heard, Controller.handlePong, HeartMonitor.handlePong_eq]
  | losePing j ping =>
    have hij : j ≠ i := of_decide_eq_false htimely.unharmed
    refine ⟨b, hb, hsteady.of_underway rfl rfl rfl fun text hway => hway.imp_left fun hping => ?_⟩
    simpa only [Function.update_of_ne hij.symm] using hping
  | losePong pong =>
    refine ⟨b, hb, hsteady.of_underway rfl rfl rfl fun text hway => hway.imp_right fun hold => ?_⟩
    have hother : pong.heart ≠ (net.hearts i).id := of_decide_eq_false htimely.unharmed
    refine (List.mem_erase_of_ne fun heq => ?_).mpr hold
    exact hother (congrArg Pong.heart heq).symm
  | served e d _ hmonitor =>
    refine ⟨b, ?_, hsteady.of_underway rfl rfl hmonitor fun _ hway => hway⟩
    rw [← hb, beats, hmonitor, beats]
  | beat e d _ hbeat hclock =>
    have hpings : (net.published d).beats = net.beats + 1 := by
      simp [beats, published, hbeat.pings]
    have hbeats : (net.published d).beats ≠ net.beats := by omega
    refine ⟨b + 1, ?_, hsteady.beat hinj hbeat hclock (htimely.pings hbeats) (htimely.pongs hbeats)⟩
    rw [hpings, hb, Nat.add_assoc]

end Steady

/-- A heart which goes on beating, loses nothing, and whose messages all take less than the time between two
beats, is alive from the third beat on; and of the engine that it belongs to the listeners have last been
told that it has registered. -/
theorem timely_heart_alive [DecidableEq ι] {interval : ℤ} {clock lifetime tic lastPing : Time}
    {hearts : ι → Heart} (hinj : Function.Injective toIso)
    (hreach : Reachable (Step wire toIso) (initial interval clock lifetime tic lastPing hearts) net)
    {es : List (HeartEvent ι)} (hrun : Run (Step wire toIso) net es net') {i : ι}
    (hbeating : net.beating i = true)
    (htimely : Throughout (Step wire toIso) (Timely toIso i) net es) (hbeats : net.beats + 3 ≤ net'.beats) :
    net'.controller.monitor.alive (net.hearts i).id = true ∧
      ∀ ec ∈ net'.controller.hub.tracker.engines, ec.heartbeat = (net.hearts i).id →
        (net'.controller.hub.notices ec.id).getLast? = some true := by
  have hsteady : ∃ b, net'.beats = net.beats + b ∧ Steady toIso i (net.hearts i).id b net' :=
    hrun.preserves_throughout (fun u => ∃ b, u.beats = net.beats + b ∧
        Steady toIso i (net.hearts i).id b u)
      (fun s e t inv hstep hcond => Steady.step hinj inv hstep hcond) htimely ⟨0, rfl, .begin hbeating⟩
  obtain ⟨b, hb, hsteady⟩ := hsteady
  have halive := hsteady.alive (by omega)
  refine ⟨decide_eq_true halive, ?_⟩
  intro ec hec hheart
  obtain ⟨first, hfirst⟩ := hreach
  have hannounced := Announced.reachable (Controller.reachable_view
    (reachable_controller ⟨first ++ es, hfirst.append hrun⟩))
  have hstanding := hannounced.standing ec hec
  have hbeating' : ec.heartbeat ∈ net'.controller.view.hearts := hheart ▸ halive
  rw [decide_eq_true hbeating'] at hstanding
  exact hstanding

/-- The engine of the session registers, and its heart answers each of three pings before the next. -/
def timelyBeats : List (HeartEvent Unit) :=
  [.hub (.query .register), .hub (.tick 1), .hub (.timeout 0),
    .bumm () ⟨"h", "19700101T000000.000001"⟩, .pong ⟨"h", "19700101T000000.000001"⟩,
    .hub (.tick 2), .hub (.timeout 2),
    .bumm () ⟨"h", "19700101T000000.000002"⟩, .pong ⟨"h", "19700101T000000.000002"⟩,
    .hub (.tick 3), .hub (.timeout 3)]

/-- The heart is alive after the third beat, and its engine is known to be registered. -/
theorem timely_heart_alive_session :
    ∃ net net' : HeartNetwork Unit, net.beats + 3 ≤ net'.beats ∧
      (∃ ec ∈ net'.controller.hub.tracker.engines.records, ec.heartbeat = (net.hearts ()).id) ∧
      net'.controller.monitor.alive (net.hearts ()).id = true ∧
      ∀ ec ∈ net'.controller.hub.tracker.engines, ec.heartbeat = (net.hearts ()).id →
        (net'.controller.hub.notices ec.id).getLast? = some true := by
  obtain ⟨net, hrun, hbeating, hchecked, hrest⟩ := exists_run .session Time.toIsoString
    (initial 2000 0 0 0 0 fun _ => { id := "h" }) [.start () ""]
    (fun net => net.beating () = true ∧
      checked (next .session Time.toIsoString) (Timely Time.toIsoString ()) net timelyBeats = true ∧
      (timelyBeats.foldlM (next .session Time.toIsoString) net).any (fun net' =>
        decide (net.beats + 3 ≤ net'.beats ∧ ∃ ec ∈ net'.controller.hub.tracker.engines.records,
          ec.heartbeat = (net.hearts ()).id)) = true)
    (by decide +kernel)
  obtain ⟨net', hrun', hbeats, hlisted⟩ := exists_run .session Time.toIsoString net timelyBeats _ hrest
  refine ⟨net, net', hbeats, hlisted, ?_⟩
  exact timely_heart_alive Time.toIsoString_injective ⟨_, hrun⟩ hrun' hbeating
    (throughout_of_checked (fun _ _ _ hstep => hstep) hchecked) hbeats

end HeartNetwork

end Gpf

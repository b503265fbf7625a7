import Gpf.Engine.FailureDetection

/-!
# What the hearts have answered

No heart is alive unless one of its name has read one of the last four pings and sent it back, and no heart
answers a ping twice, however late the messages are and in whatever order they come.
-/

namespace Gpf

open Transition

namespace HeartNetwork

variable {ι : Type*} {wire : Wire} {toIso : Time → String} {net net' : HeartNetwork ι}

/-- The text is that of one of the last `n` pings. -/
def Recent (net : HeartNetwork ι) (n : ℕ) (text : String) : Prop :=
  ∃ k, net.controller.monitor.pings[k]? = some text ∧ net.beats ≤ k + n

/-- A heart of the name has read and answered one of the last `n` pings. -/
def Answered (es : List (HeartEvent ι)) (net : HeartNetwork ι) (n : ℕ) (heart : String) : Prop :=
  ∃ i pong, .bumm i pong ∈ es ∧ pong.heart = heart ∧ net.Recent n pong.received

/-- Where the events so far have brought the texts on their way, and the names of the heartmonitor. -/
structure Sourced (toIso : Time → String) (es : List (HeartEvent ι)) (net : HeartNetwork ι) : Prop where
  pings : ∀ i, ∀ ping ∈ net.pings i, ping ∈ net.controller.monitor.pings
  pongs : ∀ pong ∈ net.pongs, pong.received ∈ net.controller.monitor.pings ∧ ∃ i, .bumm i pong ∈ es
  current : 1 ≤ net.beats → net.controller.monitor.pings[net.beats - 1]? =
    some (toIso net.controller.monitor.lifetime)
  last : 2 ≤ net.beats → net.controller.monitor.pings[net.beats - 2]? =
    some (toIso net.controller.monitor.lastPing)
  responses : ∀ heart ∈ net.controller.monitor.responses, Answered es net 2 heart
  good : ∀ heart ∈ net.controller.monitor.hearts, heart ∉ net.controller.monitor.onProbation →
    Answered es net 3 heart
  hearts : ∀ heart ∈ net.controller.monitor.hearts, Answered es net 4 heart

/-- What was recent is recent after a beat if one more ping counts. -/
theorem Recent.beat {d : Controller} {toc : Time} {n : ℕ} {text : String} (h : net.Recent n text)
    (hbeats : net.controller.monitor.Beats toIso toc d.monitor) :
    (net.published d).Recent (n + 1) text := by
  obtain ⟨k, hk, hle⟩ := h
  have hlt : k < net.beats := (List.getElem?_eq_some_iff.mp hk).1
  refine ⟨k, ?_, ?_⟩
  · simp only [published, hbeats.pings]
    rw [List.getElem?_append_left hlt, hk]
  · simp only [beats, published, hbeats.pings, List.length_append, List.length_singleton]
    exact Nat.succ_le_succ hle

/-- What is recent is recent among more pings. -/
theorem Recent.mono {n n' : ℕ} {text : String} (h : net.Recent n text) (hn : n ≤ n') :
    net.Recent n' text := by
  obtain ⟨k, hk, hle⟩ := h
  exact ⟨k, hk, by omega⟩

namespace Sourced

variable {es : List (HeartEvent ι)}

/-- Nothing has happened yet. -/
theorem initial (interval : ℤ) (clock lifetime tic lastPing : Time) (hearts : ι → Heart) :
    Sourced toIso [] (HeartNetwork.initial interval clock lifetime tic lastPing hearts) where
  pings _ _ h := absurd h List.not_mem_nil
  pongs _ h := absurd h List.not_mem_nil
  current h := absurd h (by simp [beats, HeartNetwork.initial, Controller.create, HeartMonitor.create])
  last h := absurd h (by simp [beats, HeartNetwork.initial, Controller.create, HeartMonitor.create])
  responses _ h := absurd h (Finset.notMem_empty _)
  good _ h := absurd h (Finset.notMem_empty _)
  hearts _ h := absurd h (Finset.notMem_empty _)

/-- An accepted pong answers one of the last two pings. -/
theorem recent_of_accepts (inv : Sourced toIso es net) {pong : Pong} (hmem : pong ∈ net.pongs)
    (haccepts : net.controller.monitor.accepts toIso pong = true) : net.Recent 2 pong.received := by
  obtain ⟨k, hk⟩ := List.getElem?_of_mem (inv.pongs pong hmem).1
  have hlt : k < net.beats := (List.getElem?_eq_some_iff.mp hk).1
  by_cases hfirst : net.beats ≤ 2
  · exact ⟨k, hk, by omega⟩
  · rcases of_decide_eq_true haccepts with hcurrent | hlast
    · refine ⟨net.beats - 1, ?_, by omega⟩
      rw [inv.current (by omega), hcurrent]
    · refine ⟨net.beats - 2, ?_, by omega⟩
      rw [inv.last (by omega), hlast]

/-- With the heartmonitor left alone but for responses, what is on its way only has to come from what was. -/
theorem of_monitor (inv : Sourced toIso es net) {es' : List (HeartEvent ι)} {responses : Finset String}
    (hmonitor : net'.controller.monitor = { net.controller.monitor with responses := responses })
    (hes : ∀ e ∈ es, e ∈ es')
    (hresponses : ∀ heart ∈ responses, heart ∈ net.controller.monitor.responses ∨
      Answered es net 2 heart)
    (hpings : ∀ i, ∀ ping ∈ net'.pings i, ping ∈ net.pings i)
    (hpongs : ∀ pong ∈ net'.pongs, pong ∈ net.pongs ∨
      pong.received ∈ net.controller.monitor.pings ∧ ∃ i, .bumm i pong ∈ es') :
    Sourced toIso es' net' := by
  have hanswered {n : ℕ} {heart : String} (h : Answered es net n heart) :
      Answered es' net' n heart := by
    obtain ⟨i, pong, hbumm, hheart, k, hk, hle⟩ := h
    refine ⟨i, pong, hes _ hbumm, hheart, k, ?_, ?_⟩
    · rw [hmonitor]
      exact hk
    · rw [beats, hmonitor]
      exact hle
  constructor
  · intro i ping hping
    rw [hmonitor]
    exact inv.pings i ping (hpings i ping hping)
  · intro pong hpong
    rw [hmonitor]
    rcases hpongs pong hpong with hold | hnew
    · obtain ⟨hread, i, hbumm⟩ := inv.pongs pong hold
      exact ⟨hread, i, hes _ hbumm⟩
    · exact hnew
  · rw [beats, hmonitor]
    exact inv.current
  · rw [beats, hmonitor]
    exact inv.last
  · intro heart hheart
    rw [hmonitor] at hheart
    exact hanswered ((hresponses heart hheart).elim (inv.responses heart) id)
  · rw [hmonitor]
    exact fun heart hheart hgood => hanswered (inv.good heart hheart hgood)
  · rw [hmonitor]
    exact fun heart hheart => hanswered (inv.hearts heart hheart)

/-- A beat publishes one more ping, and every name moves one stage on. -/
theorem beat (inv : Sourced toIso es net) {e : HeartEvent ι} {d : Controller} {toc : Time}
    (hbeats : net.controller.monitor.Beats toIso toc d.monitor) :
    Sourced toIso (es ++ [e]) (net.published d) := by
  have hlength : (net.published d).beats = net.beats + 1 := by
    simp [beats, published, hbeats.pings]
  have hanswered {n : ℕ} {heart : String} (h : Answered es net n heart) :
      Answered (es ++ [e]) (net.published d) (n + 1) heart := by
    obtain ⟨i, pong, hbumm, hheart, hrecent⟩ := h
    exact ⟨i, pong, List.mem_append_left _ hbumm, hheart, hrecent.beat hbeats⟩
  have hmono {n n' : ℕ} {heart : String} (h : Answered (es ++ [e]) (net.published d) n heart)
      (hn : n ≤ n') : Answered (es ++ [e]) (net.published d) n' heart := by
    obtain ⟨i, pong, hbumm, hheart, hrecent⟩ := h
    exact ⟨i, pong, hbumm, hheart, hrecent.mono hn⟩
  have hold {text : String} (htext : text ∈ net.controller.monitor.pings) :
      text ∈ d.monitor.pings := by
    rw [hbeats.pings]
    exact List.mem_append_left _ htext
  constructor
  · intro i ping hping
    rw [pings_published hbeats] at hping
    split at hping
    · rcases List.mem_append.mp hping with hread | hnew
      · exact hold (inv.pings i ping hread)
      · simp only [published, hbeats.pings]
        exact List.mem_append_right _ hnew
    · exact hold (inv.pings i ping hping)
  · intro pong hpong
    obtain ⟨hread, i, hbumm⟩ := inv.pongs pong hpong
    exact ⟨hold hread, i, List.mem_append_left _ hbumm⟩
  · intro _
    rw [hlength, Nat.add_sub_cancel]
    simp only [published, hbeats.pings]
    exact List.getElem?_concat_length
  · intro hb
    have hlt : net.beats - 1 < net.controller.monitor.pings.length := by
      rw [hlength] at hb
      exact Nat.sub_lt (by omega) Nat.one_pos
    rw [hlength, show net.beats + 1 - 2 = net.beats - 1 by omega]
    simp only [published, hbeats.pings, hbeats.lastPing]
    rw [List.getElem?_append_left hlt]
    exact inv.current (by omega)
  · intro heart hheart
    simp only [published, hbeats.responses, Finset.notMem_empty] at hheart
  · intro heart hheart hgood
    rcases (hbeats.mem_hearts heart).mp hheart with hresponse | ⟨hin, hprobation⟩
    · exact hanswered (inv.responses heart hresponse)
    · by_cases hresponse : heart ∈ net.controller.monitor.responses
      · exact hanswered (inv.responses heart hresponse)
      · exact absurd ((hbeats.mem_onProbation heart).mpr ⟨hin, hresponse, hprobation⟩) hgood
  · intro heart hheart
    rcases (hbeats.mem_hearts heart).mp hheart with hresponse | ⟨hin, hprobation⟩
    · exact hmono (hanswered (inv.responses heart hresponse)) (by omega)
    · exact hanswered (inv.good heart hin hprobation)

/-- Every event keeps what it brings about traceable. -/
theorem step [DecidableEq ι] (inv : Sourced toIso es net) {e : HeartEvent ι}
    (h : Step wire toIso net e net') : Sourced toIso (es ++ [e]) net' := by
  have hes : ∀ e' ∈ es, e' ∈ es ++ [e] := fun e' he' => List.mem_append_left _ he'
  cases step_cases h with
  | start i uuid _ =>
    refine inv.of_monitor rfl hes (fun _ hheart => .inl hheart) (fun j ping hping => ?_)
      fun _ hpong => .inl hpong
    exact mem_pings_update (fun text htext => absurd htext List.not_mem_nil) hping
  | shutdown i =>
    exact inv.of_monitor rfl hes (fun _ hheart => .inl hheart) (fun _ _ hping => hping)
      fun _ hpong => .inl hpong
  | bumm i pong _ hping _ =>
    refine inv.of_monitor rfl hes (fun _ hheart => .inl hheart) (fun j ping hmem => ?_)
      fun pong' hpong => ?_
    · exact mem_pings_update (fun text htext => List.mem_of_mem_erase htext) hmem
    · refine (List.mem_append.mp hpong).imp_right fun hnew => ?_
      rw [List.mem_singleton.mp hnew]
      exact ⟨inv.pings i _ hping, i, List.mem_append_right _ (List.mem_singleton_self _)⟩
  | pong pong hmem =>
    refine inv.of_monitor (HeartMonitor.handlePong_eq _ _ _) hes (fun heart hheart => ?_)
      (fun _ _ hping => hping) fun _ hpong => .inl (List.mem_of_mem_erase hpong)
    split at hheart
    · rename_i haccepts
      rcases Finset.mem_insert.mp hheart with rfl | hold
      · obtain ⟨-, i, hbumm⟩ := inv.pongs pong hmem
        exact .inr ⟨i, pong, hbumm, rfl, inv.recent_of_accepts hmem haccepts⟩
      · exact .inl hold
    · exact .inl hheart
  | losePing i ping =>
    refine inv.of_monitor rfl hes (fun _ hheart => .inl hheart) (fun j ping' hmem => ?_)
      fun _ hpong => .inl hpong
    exact mem_pings_update (fun text htext => List.mem_of_mem_erase htext) hmem
  | losePong pong =>
    exact inv.of_monitor rfl hes (fun _ hheart => .inl hheart) (fun _ _ hping => hping)
      fun _ hpong => .inl (List.mem_of_mem_erase hpong)
  | served e d _ hmonitor =>
    exact inv.of_monitor hmonitor hes (fun _ hheart => .inl hheart) (fun _ _ hping => hping)
      fun _ hpong => .inl hpong
  | beat e d _ hbeat _ => exact inv.beat hbeat

end Sourced

/-- In every run, whoever is alive has answered: a heart of that name has read and sent back a ping whose
text is that of one of the last four pings, whatever else was lost, late or out of order. -/
theorem alive_heart_answered [DecidableEq ι] {interval : ℤ} {clock lifetime tic lastPing : Time}
    {hearts : ι → Heart} {es : List (HeartEvent ι)}
    (hrun : Run (Step wire toIso) (initial interval clock lifetime tic lastPing hearts) es net)
    {heart : String} (halive : net.controller.monitor.alive heart = true) :
    ∃ i pong k, .bumm i pong ∈ es ∧ pong.heart = heart ∧
      net.controller.monitor.pings[k]? = some pong.received ∧ net.beats ≤ k + 4 := by
  have hsourced : Sourced toIso ([] ++ es) net :=
    hrun.history (Sourced toIso) (fun _ _ _ _ inv hstep => inv.step hstep) (.initial _ _ _ _ _ _)
  obtain ⟨i, pong, hbumm, hheart, k, hk, hle⟩ := hsourced.hearts heart (of_decide_eq_true halive)
  exact ⟨i, pong, k, hbumm, hheart, hk, hle⟩

/-- After two beats the heart of the session, which has answered the first ping, is alive. -/
theorem alive_heart_answered_session :
    ∃ net : HeartNetwork Unit, net.controller.monitor.alive "h" = true ∧
      ∃ i pong k, .bumm i pong ∈ sessionBeats ∧ pong.heart = "h" ∧
        net.controller.monitor.pings[k]? = some pong.received ∧ net.beats ≤ k + 4 := by
  obtain ⟨net, hrun, halive⟩ := exists_run .session Time.toIsoString
    (initial 2000 0 0 0 0 fun _ => { id := "h" }) sessionBeats
    (fun net => net.controller.monitor.alive "h" = true) (by decide +kernel)
  exact ⟨net, halive, alive_heart_answered hrun halive⟩

/-- The pings which a heart has answered, and those which it can still read. -/
def pingsOf (net : HeartNetwork ι) (i : ι) : ℕ := (net.hearts i).count + (net.pings i).length

/-- What one event does to the pings of a heart: a beat adds one if the heart is connected, and only a loss
or a start of the heart takes any away. -/
theorem pingsOf_step [DecidableEq ι] {e : HeartEvent ι} (h : Step wire toIso net e net') (i : ι) :
    net'.pingsOf i + net.beats ≤ net.pingsOf i + net'.beats ∧
      (net.beating i = true → e ≠ .shutdown i → (∀ ping, e ≠ .losePing i ping) →
        net'.beating i = true ∧ net'.pingsOf i + net.beats = net.pingsOf i + net'.beats) := by
  cases step_cases h with
  | start j uuid hstopped =>
    have hcount : ((net.hearts j).run uuid).count = (net.hearts j).count := by
      rw [Heart.run]
      split <;> rfl
    by_cases hij : i = j
    · subst hij
      simp [pingsOf, started, beats, hcount, hstopped]
    · simp [pingsOf, started, beats, Function.update_of_ne hij]
  | shutdown j =>
    by_cases hij : i = j
    · subst hij
      simp [pingsOf, stopped, beats]
    · simp only [pingsOf, stopped, beats, Function.update_of_ne hij]
      exact ⟨le_rfl, fun hbeating _ _ => ⟨hbeating, trivial⟩⟩
  | bumm j pong _ hping _ =>
    by_cases hij : i = j
    · subst hij
      have hpos : 0 < (net.pings i).length := List.length_pos_of_mem hping
      have hsame : (net.answered i pong).pingsOf i = net.pingsOf i := by
        simp only [pingsOf, answered, Function.update_self, Heart.bumm, List.length_erase_of_mem hping]
        omega
      rw [hsame]
      exact ⟨le_rfl, fun hbeating _ _ => ⟨hbeating, rfl⟩⟩
    · simp [pingsOf, answered, beats, Function.update_of_ne hij]
  | pong pong _ =>
    simp [pingsOf, HeartNetwork.heard, beats, Controller.handlePong, HeartMonitor.handlePong_eq]
  | losePing j ping =>
    by_cases hij : i = j
    · subst hij
      simp [pingsOf, beats, List.length_erase_le]
    · simp only [pingsOf, beats, Function.update_of_ne hij]
      exact ⟨le_rfl, fun hbeating _ _ => ⟨hbeating, trivial⟩⟩
  | losePong pong => simp [pingsOf, beats]
  | served e d _ hmonitor => simp [pingsOf, beats, hmonitor]
  | beat e d _ hbeat _ =>
    have hpings := pings_published hbeat i
    have hlength : (net.published d).beats = net.beats + 1 := by
      simp [beats, published, hbeat.pings]
    rw [pingsOf, hpings, hlength]
    by_cases hbeating : net.beating i = true
    · simp [pingsOf, published, hbeating]
      omega
    · simp [pingsOf, published, hbeating]

/-- No heart answers a ping twice: the pings which it has answered, those from before and those which it can
still read are together no more than were published. And as long as the heart goes on beating and loses no
ping, none is left out. -/
theorem pings_answered_once [DecidableEq ι] {es : List (HeartEvent ι)}
    (hrun : Run (Step wire toIso) net es net') (i : ι) :
    net'.pingsOf i + net.beats ≤ net.pingsOf i + net'.beats ∧
      (net.beating i = true → .shutdown i ∉ es → (∀ ping, .losePing i ping ∉ es) →
        net'.pingsOf i + net.beats = net.pingsOf i + net'.beats) := by
  induction hrun with
  | nil s => exact ⟨le_rfl, fun _ _ _ => rfl⟩
  | cons hstep _ ih =>
    obtain ⟨hle, heq⟩ := pingsOf_step hstep i
    refine ⟨by omega, fun hbeating hshutdown hlose => ?_⟩
    rw [List.mem_cons, not_or] at hshutdown
    have hfirst := heq hbeating (Ne.symm hshutdown.1) fun ping hping =>
      hlose ping (hping ▸ List.mem_cons_self)
    have hrest := ih.2 hfirst.1 hshutdown.2 fun ping hping => hlose ping (List.mem_cons_of_mem _ hping)
    omega

/-- The heart of the session answers two of three pings, and can still read the third. -/
theorem pings_answered_once_session :
    ∃ net net' : HeartNetwork Unit, (net'.hearts ()).count = 2 ∧
      net'.pingsOf () + net.beats ≤ net.pingsOf () + net'.beats ∧
      net'.pingsOf () + net.beats = net.pingsOf () + net'.beats := by
  obtain ⟨net, -, hbeating, hrest⟩ := exists_run .session Time.toIsoString
    (initial 2000 0 0 0 0 fun _ => { id := "h" }) [.start () ""]
    (fun net => net.beating () = true ∧ (timelyBeats.foldlM (next .session Time.toIsoString) net).any
      (fun net' => decide ((net'.hearts ()).count = 2)) = true)
    (by decide +kernel)
  obtain ⟨net', hrun', hcount⟩ := exists_run .session Time.toIsoString net timelyBeats _ hrest
  obtain ⟨hle, heq⟩ := pings_answered_once hrun' ()
  exact ⟨net, net', hcount, hle, heq hbeating (by simp [timelyBeats]) (by simp [timelyBeats])⟩

end HeartNetwork

end Gpf

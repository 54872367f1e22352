import RollupEngine.Proofs.Collecting
import RollupEngine.Proofs.Refinement
import RollupEngine.Proofs.Scripted.Tending

/-!
# The committed history

What an isolated engine does with a guest that keeps a ledger can be told from the ledger alone.
`Room.Historic` says how: the canonical machine holds the committed ledger, an idle engine has no
other machine alive, and every input that is drained then comes to what the guest makes of it with
this ledger (`Advanced`, `Inspected`), in whichever way it is drained (`EngineOp.Drained`).
`EngineOp.run_historic` proves this of every run, with the ledger that the engine began with and the
payloads of the advances that were accepted since.

The guest appends to its ledger before it refuses an advance, and in every inspect. So the ledger
would differ if a rollback were missing, or if the wrong machine were kept.

To drain a session is to pull it until it ends. That it does, whoever answers it, if all its calls
are answered, is `Seat.drains_of_answered`; that the guest answers them is `Tended.replays`.
-/

namespace RollupEngine

open Scripted

variable {W : Type}

/-! ## Draining a session that is answered -/

namespace Seat

variable {b : Backend W} {c : Controller} {fork : Handle} {e : Ending} {w : W}
  {s s' s'' : Seat W} {as : List Break} {events : List StreamEvent} {o : Except Failure Unit}

/-- A drain begins with a pull, whatever else it begins with. -/
theorem Drains.of_pull (h : Drains b s' events o s'') (hpull : (pull b).run s = (pull b).run s') :
    Drains b s events o s'' := by
  cases h with
  | last h ho => exact .last (hpull.trans h) ho
  | delivered h hpatient rest => exact .delivered (hpull.trans h) hpatient rest

theorem lastOutcome_ne_stalled {f : Failure} (h : lastOutcome e = .error f) :
    f.error ≠ .stalled := by
  cases e <;> cases h <;> nofun

/-- A session whose answers are awaited can be drained. -/
theorem Awaits.drains (hs : Awaits b c fork e w s as) :
    ∃ events s', Drains b s events (lastOutcome e) s' ∧
      events.map .stream = s.session.kind.events as ∧
      events.length < (s.session.kind.heard as).length ∧ Concludes b c fork e s as s' := by
  induction hn : (s.session.kind.heard as).length using Nat.strongRecOn generalizing s as with
  | ind n ih =>
    subst hn
    rcases pull_cases hs with ⟨event, s', as', hrun, hreach, hlt, hev⟩ | ⟨s', hrun, hend, hev⟩
    · obtain ⟨events, s'', hdrains, hmap, hlen, hconcludes⟩ :=
        ih _ (by rw [hreach.session]; exact hlt) hreach.awaits rfl
      have hpatient : events.length < budget b s' := by
        rw [budget, hreach.awaits.phase]
        exact Nat.lt_of_lt_of_le hlen hreach.awaits.patient.length_le
      rw [hreach.session] at hmap hlen
      refine ⟨event :: events, s'', .delivered hrun hpatient hdrains, ?_, ?_,
        hconcludes.after hreach⟩
      · rw [hev, List.map_cons, hmap]
      · exact Nat.lt_of_le_of_lt hlen hlt
    · rw [lastPull_eq] at hrun
      exact ⟨[], s', .last hrun fun _ => lastOutcome_ne_stalled, hev.symm,
        InputKind.heard_length_pos hs.ending, hend⟩

/-- A session that is answered can be drained from its beginning. -/
theorem drains_of_answered (hphase : s.session.phase = .start) (hidle : s.controller.Idle)
    (hending : s.session.kind.ending? as = some e)
    (hreadable : ∀ a ∈ s.session.kind.heard as, a.Readable)
    (hreplies : b.Replays s.world (s.session.exchanges s.controller.canonical fork as e) w)
    (hpatient : ∀ v, b.Replays s.world (s.session.beginning s.controller.canonical fork) v →
      b.Patient (s.session.machine s.controller.canonical fork) (s.session.kind.heard as) v) :
    ∃ events s', Drains b s events (lastOutcome e) s' ∧
      events.map .stream = s.session.kind.events as ∧
      s'.session = s.session.inPhase e.phase ∧ s'.controller.Idle := by
  obtain ⟨s₁, ns, hstart, hawaits, ⟨p, hs₁⟩, -⟩ :=
    start_awaits hphase hidle hending hreadable hreplies hpatient
  obtain ⟨events, s₂, hdrains, hevents, -, hsession, hcontroller, -⟩ := hawaits.drains
  have hpull : (pull b).run s = (pull b).run s₁ := by
    rw [run_pull_start b hphase, EStateM.run_bind, hstart, run_pull_running b hawaits.phase, hs₁]
    rfl
  refine ⟨events, s₂, hdrains.of_pull hpull, ?_, ?_, ?_⟩
  · rw [hevents, hs₁]
    rfl
  · rw [hsession, hs₁]
    rfl
  · rw [hcontroller]
    exact hidle.through _ _ _

namespace Drains

/-- A scope over a session that is over in the end comes to what draining it comes to. -/
theorem run_scope_of_done (h : Drains b s events o s') (hs : s'.session.phase.done = true) :
    (scope b none none).run s = .ok ⟨events, .ofPull o⟩ s' := by
  have hscope := Seat.run_scope none h.run_take (run_close_over b hs)
  rw [hscope]
  cases o <;> rfl

theorem run_collect_of_done (h : Drains b s events o s') (hs : s'.session.phase.done = true)
    (kind : InputKind) :
    (Seat.collect b kind).run s = Act.result
      (o.map fun _ => .gather kind events (s'.session.phase.result?.getD [])) s' := by
  rw [Seat.run_collect kind (h.run_scope_of_done hs)]
  cases o <;> rfl

end Drains

end Seat

namespace EngineOp

variable {b : Backend W} {config : EngineConfig} {n : Nat} {r r' : Room W} {s : Session}
  {t : Seat W} {events : List StreamEvent} {o : Except Failure Unit} {p : Phase}

/-- The session `n` was drained, one pull after the other; and to drain it in any other way would
have come to the same. It ended in the phase `p`. -/
structure Drained (b : Backend W) (config : EngineConfig) (n : Nat) (s : Session) (r : Room W)
    (events : List StreamEvent) (o : Except Failure Unit) (p : Phase) (r' : Room W) : Prop where
  pulled : Drains b config n r events o r'
  looped : (session n (.take none)).perform b config r =
    ({ events, outcome := o.map fun _ => .drained true }, r')
  inScope : (session n (.scope none none)).perform b config r =
    ({ events, outcome := o.map fun _ => .drained true }, r')
  collected : (session n (.collect s.kind)).perform b config r =
    ({ outcome := o.map fun _ => .collected (.gather s.kind events (p.result?.getD [])) }, r')
  session : r'.session? n = some (s.inPhase p)

/-- A session is drained in its room as it is where it stands. -/
theorem drains_of_seat (h : Seat.Drains b ⟨r.toDesk, s⟩ events o t) (hn : r.session? n = some s) :
    Drains b config n r events o
      { toDesk := t.toDesk, sessions := r.sessions.set n (some t.session) } := by
  generalize hseat : (⟨r.toDesk, s⟩ : Seat W) = seat at h
  induction h generalizing r s with
  | @last seat t o h ho =>
    subst hseat
    obtain ⟨o', s', hrun, hperform⟩ := perform_pull b config hn
    obtain ⟨rfl, rfl⟩ := Act.result_inj (hrun.symm.trans h)
    refine .last (hperform.trans ?_) ho
    cases o <;> rfl
  | @delivered seat t₁ t event events o h hpatient rest ih =>
    subst hseat
    obtain ⟨o', s', hrun, hperform⟩ := perform_pull b config hn
    have hsame : Act.result o' s' = Act.result (.ok (some event)) t₁ := hrun.symm.trans h
    obtain ⟨rfl, rfl⟩ := Act.result_inj hsame
    have hs' : Room.session? ⟨s'.toDesk, r.sessions.set n (some s'.session)⟩ n =
        some s'.session := by
      rw [Room.session?_set hn, if_pos rfl]
    have hrest := ih hs' rfl
    rw [List.set_set] at hrest
    refine .delivered hperform ?_ hrest
    intro session w hsession hw
    cases hs'.symm.trans hsession
    rw [Seat.budget, hw] at hpatient
    exact hpatient

/-- All ways to drain a session come to the same, if it is over then. -/
theorem drained_of_seat (h : Seat.Drains b ⟨r.toDesk, s⟩ events o t) (hn : r.session? n = some s)
    (ht : t.session = s.inPhase p) (hp : p.done = true) :
    Drained b config n s r events o p
      { toDesk := t.toDesk, sessions := r.sessions.set n (some t.session) } := by
  have hdone : t.session.phase.done = true := by
    rw [ht]
    exact hp
  have hanswer : Answer.ofDrain ⟨events, .ofPull o⟩ =
      { events, outcome := o.map fun _ => .drained true } := by
    cases o <;> rfl
  have htake : SessionOp.perform b (.take none) ⟨r.toDesk, s⟩ = _ :=
    Answer.drain_of_run h.run_take
  have hscope : SessionOp.perform b (.scope none none) ⟨r.toDesk, s⟩ = _ :=
    Answer.drain_of_run (h.run_scope_of_done hdone)
  have hcollect : SessionOp.perform b (.collect s.kind) ⟨r.toDesk, s⟩ =
      ({ outcome := o.map fun _ =>
          .collected (.gather s.kind events (p.result?.getD [])) }, t) := by
    refine Answer.reply_of_run ?_
    rw [EStateM.run_bind, h.run_collect_of_done hdone, ht]
    cases o <;> rfl
  refine ⟨drains_of_seat h hn, ?_, ?_, ?_, ?_⟩
  · rw [perform_session b config hn, htake, ← hanswer]
    rfl
  · rw [perform_session b config hn, hscope, ← hanswer]
    rfl
  · rw [perform_session b config hn, hcollect]
    rfl
  · rw [Room.session?_set hn, if_pos rfl, ht]

/-- The session that is drained by an operation is the one that it acts on. -/
theorem acting?_of_seat (h : Seat.Drains b ⟨r.toDesk, s⟩ events o t)
    (hn : r.session? n = some s) :
    (EngineOp.session n (.take none)).acting? b config r = some (s, t.session) := by
  have htake : SessionOp.perform b (.take none) ⟨r.toDesk, s⟩ = _ :=
    Answer.drain_of_run h.run_take
  rw [acting?, hn, Option.map_some, htake]

/-- To collect an input comes to what draining its session comes to, if it is over then. -/
theorem perform_submit_of_seat {kind : InputKind} {payload : Bytes} {choice : Option Bool}
    (h : Seat.Drains b ⟨r.toDesk, config.session kind payload⟩ events o t)
    (ht : t.session = (config.session kind payload).inPhase p) (hp : p.done = true)
    (hopen : r.controller.closed = false) (hc : config.collects choice = true) :
    (submit kind (.bytes payload) choice).perform b config r =
        ({ outcome := o.map fun _ => .collected (.gather kind events (p.result?.getD [])) },
          { r with toDesk := t.toDesk }) ∧
      (submit kind (.bytes payload) choice).acting? b config r =
        some (config.session kind payload, t.session) := by
  have hcollect := h.run_collect_of_done (by rw [ht]; exact hp) kind
  constructor
  · rw [perform_collected b hopen hc hcollect, ht]
    cases o <;> rfl
  · simp only [acting?, hopen, hc, SessionOp.final_collect hcollect]
    rfl

end EngineOp

/-! ## Sessions of the ledger guest -/

/-- What the guest answers to the input of a session, on a machine that holds `ledger`. -/
def Session.answers (ledger : Ledger) (s : Session) : List Break :=
  breaks (ledgerGuest ledger s.kind.reason s.payload)

namespace Scripted

variable {ledger : Ledger} {c : Controller} {w : World}

/-- Of an idle controller only the canonical machine is alive, and no fork is outstanding. -/
theorem Tended.alone (ht : Tended ledger c w) (hc : c.Idle) :
    w.aliveHandles = [c.canonical] ∧ c.outstanding = 0 := by
  obtain ⟨m, hm, -, ha⟩ := ht.canonical
  rw [hc.1] at ha
  have halive : ∀ h ∈ List.range w.machines.length,
      (w.machines[h]?.any (·.alive)) = (h == c.canonical) := by
    intro h hh
    rw [Bool.eq_iff_iff, beq_iff_eq, Option.any_eq_true]
    constructor
    · rintro ⟨k, hk, hka⟩
      refine (ht.alive h k hk hka).resolve_right fun ⟨_, ht'⟩ => ?_
      cases hc.2.symm.trans ht'
    · rintro rfl
      exact ⟨m, hm, ha⟩
  have hmem : c.canonical ∈ List.range w.machines.length :=
    List.mem_range.2 (List.getElem?_eq_some_iff.1 hm).1
  constructor
  · rw [World.aliveHandles, List.filter_congr halive, List.filter_beq,
      List.count_eq_one_of_mem List.nodup_range hmem]
    rfl
  · have hcounted := ht.counted
    rw [Controller.inTransaction, hc.2] at hcounted
    rw [Controller.outstanding, hcounted]
    exact Int.sub_self _

/-- A session can begin on an idle controller: a fork of the canonical machine takes its input. -/
theorem Tended.replays_beginning (ht : Tended ledger c w) (hc : c.Idle) {s : Session}
    (hm : s.isolation = .isolated) :
    ∃ fork w' m, backend.Replays w (s.beginning c.canonical fork) w' ∧ w'.Tame ∧
      fork ≠ c.canonical ∧ (∃ k, w'.machines[c.canonical]? = some k ∧ k.alive = true) ∧
      w'.machines[fork]? = some m ∧ m.alive = true ∧
      m.actions = ledgerGuest ledger s.kind.reason s.payload := by
  obtain ⟨m, hcanonical, rfl, ha⟩ := ht.canonical
  rw [hc.1] at ha
  obtain ⟨hlt, -⟩ := List.getElem?_eq_some_iff.1 hcanonical
  have hne : w.machines.length ≠ c.canonical := Nat.ne_of_gt hlt
  let w₁ : World := ((w.count .fork).addMachine { ledger := m.ledger }).2
  have hw₁ : w₁.Tame := ⟨ht.tame.faults, ht.tame.programs⟩
  have hfork : backend.Replies w (.fork c.canonical (.ok w.machines.length)) w₁ :=
    fork_of_alive ht.tame.faults hcanonical ha
  have hm₁ : w₁.machines[w.machines.length]? = some { ledger := m.ledger } :=
    List.getElem?_concat_length
  have hk₁ : w₁.machines[c.canonical]? = some m :=
    (List.getElem?_append_left hlt).trans hcanonical
  let m₂ : Machine :=
    { ledger := m.ledger, actions := ledgerGuest m.ledger s.kind.reason s.payload }
  let w₂ : World :=
    { (w₁.count .send).setMachine w.machines.length m₂ with sends := w₁.sends + 1 }
  have hsend : backend.Replies w₁ (.send w.machines.length s.kind.reason s.payload (.ok ())) w₂ :=
    hw₁.send hm₁ rfl _ _
  refine ⟨_, w₂, m₂, ?_, ⟨hw₁.faults, hw₁.programs⟩, hne,
    ⟨m, (List.getElem?_set_ne hne).trans hk₁, ha⟩,
    List.getElem?_set_self (List.getElem?_eq_some_iff.1 hm₁).1, rfl, rfl⟩
  rw [Session.beginning, Session.machine, hm]
  exact .cons hfork (.single hsend)

/-- The calls of a session that begins on an idle controller are answered as the guest does. -/
theorem Tended.replays (ht : Tended ledger c w) (hc : c.Idle) {s : Session}
    (hm : s.isolation = .isolated) (e : Ending) :
    ∃ fork w', backend.Replays w (s.exchanges c.canonical fork (s.answers ledger) e) w' := by
  obtain ⟨fork, w₁, m, hbegin, hw₁, hne, ⟨k, hk, hka⟩, hfork, ha, hactions⟩ :=
    ht.replays_beginning hc hm
  obtain ⟨w₂, m', hbreaks, hw₂, hset, ha'⟩ := hw₁.replays_breaks hfork ha
    (by rw [hactions]; exact plain_ledgerGuest _ _ _)
    ((s.kind.before (breaks m.actions)).length + 1)
  have hrelease (kept : Bool) : ∃ n,
      w₂.machines[if kept then c.canonical else fork]? = some n ∧ n.alive = true := by
    rw [hset]
    cases kept with
    | false => exact ⟨m', List.getElem?_set_self (List.getElem?_eq_some_iff.1 hfork).1, ha'⟩
    | true => exact ⟨k, (List.getElem?_set_ne hne).trans hk, hka⟩
  obtain ⟨n, hn, hna⟩ := hrelease (s.kind.conclusion e).kept
  have hrest : ∃ w₃, backend.Replays w₁ (s.rest c.canonical fork (breaks m.actions) e) w₃ := by
    rw [Session.rest, Session.machine, hm]
    exact ⟨_, hbreaks.append (.single (shutdown_of_alive hw₂.faults hn hna))⟩
  obtain ⟨w₃, hrest⟩ := hrest
  rw [hactions] at hrest
  exact ⟨fork, w₃, hbegin.append hrest⟩

/-! ### What is told of an input -/

/-- What comes of an advance that is drained when `ledger` is committed: its events, how it ends,
and in which phase. -/
structure Advanced (ledger : Ledger) (payload : Bytes) (events : List StreamEvent)
    (o : Except Failure Unit) (p : Phase) : Prop where
  /-- It is accepted if and only if the guest accepts its payload. -/
  accepted : p.state = .accepted ↔ Acceptable payload
  /-- Then the payload is its only output, the number of entries its only report, and the root is
  that of the ledger with the payload. -/
  yields : Acceptable payload → o = .ok () ∧
    events.filterMap StreamEvent.output? = [payload] ∧
    events.filterMap StreamEvent.report? = [Ledger.lengthReport (ledger ++ [payload])] ∧
    p = .accepted (Ledger.root (ledger ++ [payload]))
  fails : ¬Acceptable payload → ∃ f, o = .error f

/-- What comes of an inspect that is drained when `ledger` is committed. -/
structure Inspected (ledger : Ledger) (query : Bytes) (events : List StreamEvent)
    (o : Except Failure Unit) : Prop where
  /-- It reports the entries of the ledger, unless it asks for an output. -/
  reports : query ≠ Utf8.encode "emit-output" → o = .ok () ∧
    events.filterMap StreamEvent.report? = ledger
  fatal : query = Utf8.encode "emit-output" →
    ∃ f, o = .error f ∧ f.error.engineKind? = some .fatal

variable {payload query : Bytes} {events : List StreamEvent}

theorem stream_injective : Function.Injective (List.map Event.stream) :=
  List.map_injective_iff.2 fun _ _ => Event.stream.inj

/-- An advance comes to what the guest does at its end. -/
theorem AdvanceEnds.advanced {last : List Action} {e : Ending}
    (h : AdvanceEnds ledger payload last e)
    (hevents : events.map .stream = InputKind.advance.events
      (breaks (.append payload :: .automatic .progress (Bytes.word32 0) :: last))) :
    Advanced ledger payload events (Seat.lastOutcome e) e.phase := by
  have refused {o : Except Failure Unit} {p : Phase} (hp : p.state ≠ .accepted)
      (hno : ¬Acceptable payload) (ho : ∃ f, o = .error f) : Advanced ledger payload events o p :=
    ⟨⟨fun h => absurd h hp, fun h => absurd h hno⟩, fun h => absurd h hno, fun _ => ho⟩
  cases h with
  | rejected h => exact refused nofun (fun hacc => hacc.not_reject h) ⟨_, rfl⟩
  | exception h => exact refused nofun (fun hacc => hacc.not_raise h) ⟨_, rfl⟩
  | halted h => exact refused nofun (fun hacc => hacc.ne_halt h) ⟨_, rfl⟩
  | accepted h =>
    have hstream := hevents.trans (events_ledgerAdvance (.accepted h))
    obtain rfl : events = [.progress 0, .output payload,
        .report (Ledger.lengthReport (ledger ++ [payload])), .progress 100] :=
      stream_injective hstream
    exact ⟨⟨fun _ => h, fun _ => rfl⟩, fun _ => ⟨rfl, rfl, rfl, rfl⟩, fun hno => absurd h hno⟩

/-- The guest ends every inspect, and tells the ledger unless it is asked for an output. -/
theorem inspected (ledger : Ledger) (query : Bytes) :
    ∃ e, InputKind.inspect.ending? (breaks (ledgerInspect ledger query)) = some e ∧
      ∀ events : List StreamEvent, events.map .stream =
          InputKind.inspect.events (breaks (ledgerInspect ledger query)) →
        Inspected ledger query events (Seat.lastOutcome e) := by
  by_cases hquery : query = Utf8.encode "emit-output"
  · subst hquery
    exact ⟨_, ending?_ledgerInspect_of_output ledger, fun _ _ =>
      ⟨fun hne => absurd rfl hne, fun _ => ⟨_, rfl, rfl⟩⟩⟩
  · obtain ⟨hending, hreports⟩ := ledgerInspect_accepted ledger hquery
    refine ⟨.accepted [], hending, fun events hevents => ?_⟩
    obtain rfl : events = ledger.map .report := by
      refine stream_injective ((hevents.trans hreports).trans ?_)
      rw [List.map_map]
      rfl
    refine ⟨fun _ => ⟨rfl, ?_⟩, fun h => absurd h hquery⟩
    rw [List.filterMap_map]
    exact List.filterMap_some

end Scripted

namespace Session

/-- What is told of a session of the ledger guest that is drained on an idle engine, when `ledger`
is committed. -/
def Told (ledger : Ledger) (s : Session) (events : List StreamEvent) (o : Except Failure Unit)
    (p : Phase) : Prop :=
  match s.kind with
  | .advance => Advanced ledger s.payload events o p
  | .inspect => Inspected ledger s.payload events o

/-- The guest ends every input, and this is what is told of it. -/
theorem told (ledger : Ledger) (s : Session) :
    ∃ e, s.kind.ending? (s.answers ledger) = some e ∧
      ∀ events : List StreamEvent, events.map .stream = s.kind.events (s.answers ledger) →
        s.Told ledger events (Seat.lastOutcome e) e.phase := by
  unfold Told answers
  cases s.kind with
  | advance =>
    obtain ⟨last, e, hactions, hends⟩ := ledgerAdvance_ends ledger s.payload
    simp only [InputKind.reason, ledgerGuest, hactions]
    exact ⟨e, ending?_ledgerAdvance hends, fun _ => hends.advanced⟩
  | inspect => exact inspected ledger s.payload

end Session

/-! ## Engines -/

/-- What an engine has and does whose committed ledger is `ledger`. -/
structure Room.Historic (config : EngineConfig) (ledger : Ledger) (r : Room World) : Prop where
  canonical : r.world.ledgerOf r.controller.canonical = ledger
  /-- When the engine is idle, only its canonical machine is alive, and no fork is outstanding. -/
  alone : r.controller.Idle →
    r.world.aliveHandles = [r.controller.canonical] ∧ r.controller.outstanding = 0
  /-- A session that begins then can be drained. -/
  streamed : r.controller.Idle → ∀ n s, r.session? n = some s → s.phase = .start →
    ∃ events o p r', EngineOp.Drained backend config n s r events o p r' ∧
      s.Told ledger events o p ∧ r'.controller.Idle ∧
      r'.world.ledgerOf r'.controller.canonical = ledger ++ s.adds p
  /-- An input can be collected then. -/
  collected : r.controller.Idle → ∀ kind payload choice, config.collects choice = true →
    let s := config.session kind payload
    let op := EngineOp.submit kind (.bytes payload) choice
    ∃ events o p r', op.perform backend config r =
        ({ outcome := o.map fun _ => .collected (.gather kind events (p.result?.getD [])) }, r') ∧
      op.acting? backend config r = some (s, s.inPhase p) ∧
      s.Told ledger events o p ∧ r'.controller.Idle ∧
      r'.world.ledgerOf r'.controller.canonical = ledger ++ s.adds p
  /-- An inspect that is repeated comes to the same. -/
  repeated : r.controller.Idle → ∀ n m s, m ≠ n → r.session? n = some s → r.session? m = some s →
    s.phase = .start → s.kind = .inspect →
    ∃ events o p r' r'', EngineOp.Drained backend config n s r events o p r' ∧
      EngineOp.Drained backend config m s r' events o p r''

namespace Room.Committed

variable {config : EngineConfig} {ledger : Ledger} {r : Room World} {n : Nat} {s : Session}
  {e : Ending} {own : List Exchange}

theorem ledgerOf (hr : r.Committed ledger) :
    r.world.ledgerOf r.controller.canonical = ledger := by
  obtain ⟨m, hm, hledger, -⟩ := hr.tended.canonical
  rw [World.ledgerOf, hm]
  exact hledger

/-- A session that begins on an idle engine can be drained. -/
theorem drains (hr : r.Committed ledger) (hidle : r.controller.Idle)
    (hm : s.isolation = .isolated) (hp : s.phase = .start)
    (he : s.kind.ending? (s.answers ledger) = some e) :
    ∃ events t, Seat.Drains backend ⟨r.toDesk, s⟩ events (Seat.lastOutcome e) t ∧
      events.map .stream = s.kind.events (s.answers ledger) ∧
      t.session = s.inPhase e.phase ∧ t.controller.Idle := by
  obtain ⟨fork, w, hreplies⟩ := hr.tended.replays hidle hm e
  have hreadable : ∀ a ∈ s.kind.heard (s.answers ledger), a.Readable := fun a ha =>
    readable_of_plain (plain_ledgerGuest _ _ _) a (List.mem_of_mem_take ha)
  refine Seat.drains_of_answered (s := ⟨r.toDesk, s⟩) hp hidle he hreadable hreplies fun v hv => ?_
  obtain ⟨_, hheard, -⟩ := (hv.drop hreplies).split
  exact Scripted.patient s.kind hheard

/-- To drain a session leaves the engine idle, and commits what the session adds. -/
theorem streamed (hr : r.Committed ledger) (hlinked : r.Linked config.isolation own)
    (hm : config.isolation = .isolated) (hidle : r.controller.Idle) (hs : r.session? n = some s)
    (hp : s.phase = .start)
    (he : s.kind.ending? (s.answers ledger) = some e) :
    ∃ events r', EngineOp.Drained backend config n s r events (Seat.lastOutcome e) e.phase r' ∧
      events.map .stream = s.kind.events (s.answers ledger) ∧
      r'.controller.Idle ∧ r'.Committed (ledger ++ s.adds e.phase) ∧
      (∃ own', r'.Linked config.isolation own') ∧
      ∀ m, m ≠ n → r'.session? m = r.session? m := by
  have hisolated : s.isolation = .isolated := (hlinked.isolation n s hs).trans hm
  obtain ⟨events, t, hdrains, hevents, ht, hidle'⟩ := hr.drains hidle hisolated hp he
  have hdrained : EngineOp.Drained backend config n s r events (Seat.lastOutcome e) e.phase _ :=
    EngineOp.drained_of_seat hdrains hs ht e.done_phase
  obtain ⟨xs, ns, fs, hdoes, -⟩ := (EngineOp.session n (.take none)).does backend config r
  have hcommitted := hdoes.committed hm hlinked hr
  have hlinked' := hdoes.linked hlinked
  rw [EngineOp.adds_of_acting (EngineOp.acting?_of_seat hdrains hs), ht,
    hdrained.looped] at hcommitted
  rw [hdrained.looped] at hlinked'
  refine ⟨events, _, hdrained, hevents, hidle', hcommitted, ⟨_, hlinked'⟩, fun m hne => ?_⟩
  rw [Room.session?_set hs, if_neg hne]

/-- To collect an input leaves the engine idle, and commits what its session adds. -/
theorem collected (hr : r.Committed ledger) (hlinked : r.Linked config.isolation own)
    (hm : config.isolation = .isolated) (hidle : r.controller.Idle) {kind : InputKind}
    {payload : Bytes} {choice : Option Bool} (hc : config.collects choice = true)
    (he : kind.ending? ((config.session kind payload).answers ledger) = some e) :
    let s := config.session kind payload
    let op := EngineOp.submit kind (.bytes payload) choice
    ∃ events r', op.perform backend config r =
        ({ outcome := (Seat.lastOutcome e).map fun _ =>
          .collected (.gather kind events (e.phase.result?.getD [])) }, r') ∧
      op.acting? backend config r = some (s, s.inPhase e.phase) ∧
      events.map .stream = kind.events (s.answers ledger) ∧
      r'.controller.Idle ∧ r'.Committed (ledger ++ s.adds e.phase) := by
  intro s op
  obtain ⟨events, t, hdrains, hevents, ht, hidle'⟩ :=
    hr.drains (s := s) hidle hm rfl he
  obtain ⟨hperform, hact⟩ :=
    EngineOp.perform_submit_of_seat hdrains ht e.done_phase hidle.1 hc
  obtain ⟨xs, ns, fs, hdoes, -⟩ := op.does backend config r
  have hcommitted := hdoes.committed hm hlinked hr
  rw [EngineOp.adds_of_acting hact, hperform] at hcommitted
  rw [ht] at hact hcommitted
  exact ⟨events, _, hperform, hact, hevents, hidle', hcommitted⟩

theorem historic (hr : r.Committed ledger) (hlinked : r.Linked config.isolation own)
    (hm : config.isolation = .isolated) : r.Historic config ledger where
  canonical := hr.ledgerOf
  alone hidle := hr.tended.alone hidle
  streamed hidle n s hs hp := by
    obtain ⟨e, he, htold⟩ := s.told ledger
    obtain ⟨events, r', hdrained, hevents, hidle', hr', -⟩ :=
      hr.streamed hlinked hm hidle hs hp he
    exact ⟨events, _, _, r', hdrained, htold events hevents, hidle', hr'.ledgerOf⟩
  collected hidle kind payload choice hc := by
    obtain ⟨e, he, htold⟩ := (config.session kind payload).told ledger
    obtain ⟨events, r', hperform, hact, hevents, hidle', hr'⟩ :=
      hr.collected hlinked hm hidle hc he
    exact ⟨events, _, _, r', hperform, hact, htold events hevents, hidle', hr'.ledgerOf⟩
  repeated hidle n m s hne hn hs hp hkind := by
    obtain ⟨e, he, -⟩ := s.told ledger
    obtain ⟨events, r', hdrained, hevents, hidle', hr', ⟨own', hlinked'⟩, hothers⟩ :=
      hr.streamed hlinked hm hidle hn hp he
    -- an inspect adds nothing, so it is repeated on the same ledger
    have hadds : s.adds e.phase = [] := if_neg fun ⟨h, _⟩ => by cases hkind.symm.trans h
    rw [hadds, List.append_nil] at hr'
    obtain ⟨events', r'', hdrained', hevents', -⟩ :=
      hr'.streamed hlinked' hm hidle' ((hothers m hne).trans hs) hp he
    obtain rfl : events' = events := stream_injective (hevents'.trans hevents.symm)
    exact ⟨_, _, _, r', r'', hdrained, hdrained'⟩

end Room.Committed

namespace EngineOp

/-- The committed history. However an isolated engine on a machine of the ledger guest is used, its
canonical machine holds the ledger it began with and the payloads of the advances that came to be
accepted since, in the order of acceptance; and what it tells of the inputs to come follows from
this ledger. -/
theorem run_historic (config : EngineConfig) (hm : config.isolation = .isolated)
    (ledger : Ledger) (ops : List EngineOp) :
    let r := Room.opening 0 { world := .ofLedger ledger [] [] }
    (run backend config ops r).Historic config
      (ledger ++ history backend config (journal backend config ops r)) := by
  intro r
  obtain ⟨hr, own, hlinked⟩ := run_committed config hm ledger ops
  exact hr.historic hlinked hm

/-- Of two advances that are refused or closed and one that is accepted, one is committed. -/
theorem accepted_historic :
    let r := Room.opening 0 { world := .ofLedger [[7]] [] [] }
    let ops : List EngineOp := [.submit .advance (.bytes (Utf8.encode "reject")) (some true),
      .submit .advance (.bytes [4]) none, .session 0 .pull, .session 0 .close,
      .submit .advance (.bytes [5]) (some true), .submit .inspect (.bytes []) none]
    (run backend {} ops r).Historic {} [[7], [5]] ∧ (run backend {} ops r).controller.Idle ∧
      (run backend {} ops r).session? 1 = some { kind := .inspect, payload := [] } := by
  intro r ops
  have hhistory : history backend {} (journal backend {} ops r) = [[5]] := by decide +kernel
  have hhistoric : (run backend {} ops r).Historic {}
      ([[7]] ++ history backend {} (journal backend {} ops r)) := run_historic {} rfl [[7]] ops
  rw [hhistory] at hhistoric
  exact ⟨hhistoric, ⟨by decide +kernel, by decide +kernel⟩, by decide +kernel⟩

end EngineOp

end RollupEngine

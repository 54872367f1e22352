import RollupEngine.Proofs.Leaks
import RollupEngine.Proofs.Session.Rest

/-!
# Shutting down

An engine comes to its end in one way: it is told to shut down while it is idle. No other operation
closes its controller (`EngineOp.Does.closed_cases`). The controller is closed before the canonical
machine is released, so the engine is shut down even if the release fails, and a busy engine refuses
(`Room.ShutsDown`).

From then on the engine is dead (`Room.Dead`). Its controller was closed without a transaction, so
none of its sessions runs (`Room.Linked.dead`); those that have not begun are refused, and those
that are over call no machine. `EngineOp.run_dead` carries this along every later run.
-/

namespace RollupEngine

variable {W : Type}

theorem Controller.state_eq_shutdown_iff {c : Controller} :
    c.state = .shutdown ↔ c.closed = true := by
  unfold state
  cases c.closed <;> cases c.inTransaction <;> simp

theorem Controller.state_eq_inSession_iff {c : Controller} :
    c.state = .inSession ↔ c.closed = false ∧ c.transaction.isSome = true := by
  unfold state inTransaction
  cases c.closed <;> cases c.transaction.isSome <;> simp

/-! ## Refusals -/

/-- A controller that refuses to open a transaction refuses to save its machine. -/
theorem Desk.runs_store_of_refusal (b : Backend W) (path : String) {d : Desk W} {f : Failure}
    (hf : d.controller.refusal? = some f) :
    (Desk.store b path).Runs b toSite d [] [] (.error f) d := by
  rcases d.controller.closed_or_busy_or_idle with hc | ⟨hc, ht⟩ | hc
  · rw [Controller.refusal?_of_closed hc] at hf
    obtain rfl := Option.some.inj hf
    exact (runs_ensureIdle_closed hc).bind_error
  · rw [Controller.refusal?_of_busy hc (Option.isSome_iff_ne_none.1 ht)] at hf
    obtain rfl := Option.some.inj hf
    exact (runs_ensureIdle_busy hc ht).bind_error
  · exact absurd hc (Controller.not_idle_of_refusal hf)

namespace EngineOp

theorem perform_store_of_refusal (b : Backend W) (config : EngineConfig) (path : String)
    {r : Room W} {f : Failure} (hf : r.controller.refusal? = some f) :
    (store path).perform b config r = ({ outcome := .error f }, r) :=
  Room.reply_onDesk (Desk.runs_store_of_refusal b path hf) fun _ => .itself

/-- To shut a closed engine down has no effect. -/
theorem perform_shutdown_of_closed (b : Backend W) (config : EngineConfig) {r : Room W}
    (hc : r.controller.closed = true) :
    shutdown.perform b config r = ({ outcome := .ok .done }, r) := by
  have hrun : (Desk.shutdown b).Runs b Desk.toSite r.toDesk [] [] (.ok ()) r.toDesk := by
    refine .get_bind ?_
    rw [if_pos hc]
    exact .pure _ r.toDesk
  exact Room.reply_onDesk hrun fun _ => .done

end EngineOp

/-! ## What a shutdown does -/

/-- What it does to shut an engine down that is not dead yet. -/
structure Room.ShutsDown (b : Backend W) (config : EngineConfig) (r : Room W) : Prop where
  /-- The canonical machine of an idle engine is released. Whatever comes of that is the outcome,
  and the engine is shut down in every case. -/
  idle : r.controller.state = .idle → ∃ reply ns s,
    r.toSite.Follows b [.shutdown r.controller.canonical reply] ns s ∧
      EngineOp.shutdown.perform b config r =
        ({ outcome := (Site.raised reply).map fun _ => .done },
          { toSite := s
            controller := { r.controller with closed := true }
            sessions := r.sessions })
  /-- A busy engine refuses, and stays as it is. -/
  inSession : r.controller.state = .inSession →
    EngineOp.shutdown.perform b config r =
      ({ outcome := .error (.ofKind .busy (some "cannot shut down while a session is open")) }, r)

theorem Room.shutsDown (b : Backend W) (config : EngineConfig) (r : Room W) :
    r.ShutsDown b config := by
  obtain ⟨xs, ns, o, d, hrun, hdown⟩ := Desk.shutdown_cases b r.toDesk
  have hperform : EngineOp.shutdown.perform b config r = _ :=
    Room.reply_onDesk hrun fun _ => .done
  have hfollows : r.toSite.Follows b xs ns d.toSite := hrun.follows
  obtain ⟨s, c⟩ := d
  change r.controller.ShutsDown xs ns o c at hdown
  refine ⟨fun hstate => ?_, fun hstate => ?_⟩
  · have hidle : r.controller.Idle := Controller.state_eq_idle_iff.1 hstate
    cases hdown with
    | closed h => cases hidle.1.symm.trans h
    | busy _ ht => simp [hidle.2] at ht
    | released => exact ⟨.ok (), _, s, hfollows, hperform⟩
    | failed _ e => exact ⟨.error e, _, s, hfollows, hperform⟩
  · obtain ⟨hopen, hbusy⟩ := Controller.state_eq_inSession_iff.1 hstate
    cases hdown with
    | closed h => cases hopen.symm.trans h
    | busy =>
      obtain rfl : s = r.toSite := hfollows.eq_of_nil
      exact hperform
    | released h | failed h => simp [h.2] at hbusy

namespace EngineOp

variable {b : Backend W} {config : EngineConfig} {op : EngineOp} {own xs : List Exchange}
  {ns : List Notice} {fs : List Failure} {r r' : Room W}

/-- Only a shutdown closes the controller, and only of an idle engine. -/
theorem Does.closed_cases (h : Does b config r op xs ns fs r') :
    r'.controller.closed = r.controller.closed ∨ op = .shutdown ∧ r.controller.Idle := by
  by_cases hop : op = .shutdown
  · subst hop
    obtain ⟨o, hdown⟩ := h.shutsDown
    generalize r'.controller = c at hdown ⊢
    cases hdown with
    | closed | busy => exact .inl rfl
    | released hidle | failed hidle => exact .inr ⟨rfl, hidle⟩
  · exact .inl (h.countsLeaks hop).closed

/-- The step that shuts an engine down is a shutdown of an idle engine. -/
theorem eq_shutdown_of_state (b : Backend W) (config : EngineConfig) {op : EngineOp} {r : Room W}
    (hr : r.controller.state ≠ .shutdown)
    (h : (op.perform b config r).2.controller.state = .shutdown) :
    op = .shutdown ∧ r.controller.state = .idle := by
  obtain ⟨xs, ns, fs, hdoes, -⟩ := op.does b config r
  rcases hdoes.closed_cases with hsame | ⟨hop, hidle⟩
  · rw [Controller.state_eq_shutdown_iff, hsame] at h
    exact absurd (Controller.state_eq_shutdown_iff.2 h) hr
  · exact ⟨hop, Controller.state_eq_idle_iff.2 hidle⟩

end EngineOp

/-! ## Dead engines -/

/-- The room of an engine that was shut down. -/
structure Room.Dead (b : Backend W) (config : EngineConfig) (r : Room W) : Prop where
  /-- Whatever is done, no machine is called, nothing is noticed, and the controller stays as it
  is. -/
  desk : ∀ op : EngineOp, (op.perform b config r).2.toDesk = r.toDesk
  /-- To shut it down again has no effect. -/
  shutdown : EngineOp.shutdown.perform b config r = ({ outcome := .ok .done }, r)
  store : ∀ path, (EngineOp.store path).perform b config r =
    ({ outcome := .error (.ofKind .closed) }, r)
  submit : ∀ kind input choice, (EngineOp.submit kind input choice).perform b config r =
    ({ outcome := .error (.ofKind .closed) }, r)
  /-- A session that has not begun never will. -/
  pull : ∀ n session, r.session? n = some session → session.phase = .start →
    (EngineOp.session n .pull).perform b config r = ({ outcome := .error (.ofKind .closed) }, r)
  /-- In whatever way it is asked for an event. -/
  pulls : ∀ n session op, r.session? n = some session → session.phase = .start →
    op.pulls = true →
      ((EngineOp.session n op).perform b config r).1.outcome = .error (.ofKind .closed)

/-- A session that does not run has not begun, or it is over. -/
theorem Phase.working?_eq_none_iff {p : Phase} :
    p.working? = none ↔ p = .start ∨ p.done = true := by
  cases p <;> simp [working?, done]

section

variable {mode : Isolation} {b : Backend W} {config : EngineConfig} {own : List Exchange}
  {r : Room W}

/-- No session runs on a closed controller. -/
theorem Room.Linked.start_or_done_of_closed (h : r.Linked mode own)
    (hc : r.controller.closed = true) {n : Nat} {session : Session}
    (hs : r.session? n = some session) : session.phase = .start ∨ session.phase.done = true := by
  rw [← Phase.working?_eq_none_iff, ← working?_eq hs]
  exact h.working?_eq_none (h.fits.closed hc) n

/-- An operation on a session leaves the desk of a dead engine alone. -/
theorem Room.Linked.desk_of_closed (h : r.Linked mode own) (hc : r.controller.closed = true)
    (n : Nat) (op : SessionOp) :
    ((EngineOp.session n op).perform b config r).2.toDesk = r.toDesk := by
  cases hs : r.session? n with
  | none => rw [EngineOp.perform_session_none b config hs]
  | some session =>
    rw [EngineOp.perform_session b config hs]
    rcases h.start_or_done_of_closed hc hs with hp | hp
    · rw [SessionOp.perform_of_refused b (s := ⟨r.toDesk, session⟩) hp
        (Controller.refusal?_of_closed hc)]
    · rw [SessionOp.perform_of_done b (s := ⟨r.toDesk, session⟩) hp]

/-- A closed engine is dead. -/
theorem Room.Linked.dead (h : r.Linked mode own) (hc : r.controller.closed = true) :
    r.Dead b config := by
  have hrefused := Controller.refusal?_of_closed hc
  have hshutdown : EngineOp.shutdown.perform b config r = ({ outcome := .ok .done }, r) :=
    EngineOp.perform_shutdown_of_closed b config hc
  have hstore (path : String) : (EngineOp.store path).perform b config r =
      ({ outcome := .error (.ofKind .closed) }, r) :=
    EngineOp.perform_store_of_refusal b config path hrefused
  have hsubmit (kind : InputKind) (input : Submission) (choice : Option Bool) :
      (EngineOp.submit kind input choice).perform b config r =
        ({ outcome := .error (.ofKind .closed) }, r) :=
    Answer.reply_of_run (o := .error _) (EngineOp.run_submit_closed b config kind input choice hc)
  refine
    { desk := fun op => ?desk, shutdown := hshutdown, store := hstore, submit := hsubmit,
      pull := fun n session hs hp => ?pull, pulls := fun n session op hs hp hop => ?pulls }
  case desk =>
    cases op with
    | submit kind input choice => rw [hsubmit]
    | store path => rw [hstore]
    | shutdown => rw [hshutdown]
    | session n op => exact h.desk_of_closed hc n op
  case pull =>
    have hself : session.inPhase .start = session := by rw [← hp]; rfl
    rw [EngineOp.perform_session b config hs,
      SessionOp.perform_of_refused b (s := ⟨r.toDesk, session⟩) hp hrefused]
    change (_, { r with sessions := r.sessions.set n (some (session.inPhase .start)) }) = _
    rw [hself, Room.sessions_set_self hs]
    rfl
  case pulls =>
    rw [EngineOp.perform_session b config hs,
      SessionOp.perform_of_refused b (s := ⟨r.toDesk, session⟩) hp hrefused]
    exact SessionOp.outcome_answerAtRest_of_pulls hop _ _

end

namespace EngineOp

variable {b : Backend W} {config : EngineConfig} {own : List Exchange} {r : Room W}

/-- A dead engine stays dead, and its machines are left alone. -/
theorem run_dead (later : List EngineOp) (hr : r.Linked config.isolation own)
    (hc : r.controller.closed = true) :
    (run b config later r).toDesk = r.toDesk ∧ (run b config later r).Dead b config := by
  induction later generalizing r own with
  | nil => exact ⟨rfl, hr.dead hc⟩
  | cons op later ih =>
    obtain ⟨xs, ns, fs, hdoes, -⟩ := op.does b config r
    have hdead : r.Dead b config := hr.dead hc
    have hdesk := hdead.desk op
    obtain ⟨hlater, hdeadLater⟩ := ih (hdoes.linked hr) (by rw [hdesk]; exact hc)
    exact ⟨hlater.trans hdesk, hdeadLater⟩

/-- An engine, in whatever room it comes to, is shut down by a shutdown while it is idle, even if
the release of its machine fails, and by nothing else; while it is busy it refuses. Once it is shut
down, nothing that is done with it or with its sessions calls a machine or changes its controller,
and it takes no more work. -/
theorem run_shutdown (b : Backend W) (config : EngineConfig) (machine : Handle) (s : Site W)
    (ops : List EngineOp) :
    let r := run b config ops (.opening machine s)
    (∀ op : EngineOp, r.controller.state ≠ .shutdown →
        (op.perform b config r).2.controller.state = .shutdown →
          op = .shutdown ∧ r.controller.state = .idle) ∧
      r.ShutsDown b config ∧
      (r.controller.state = .shutdown → ∀ later,
        (run b config later r).toDesk = r.toDesk ∧ (run b config later r).Dead b config) := by
  intro r
  obtain ⟨own, _, -, hlinked⟩ := run_linked b config machine s ops
  refine ⟨fun op hr hstate => eq_shutdown_of_state b config hr hstate, r.shutsDown b config, ?_⟩
  intro hstate later
  exact run_dead later hlinked (Controller.state_eq_shutdown_iff.1 hstate)

/-- An engine that is shut down beside a session that has not begun, though its machine is stuck. -/
theorem stuck_shutdown_final :
    let fault : Scripted.Fault :=
      { method := .shutdown, nth := 0, error := .fault "RuntimeError" "stuck" }
    let b := Scripted.backend
    let site : Site Scripted.World := { world := .ofLedger [] [] [fault] }
    let r := run b {} [.submit .advance (.bytes [97]) (some false), .shutdown] (.opening 0 site)
    r.controller.state = .shutdown ∧
      (∀ later, (run b {} later r).toDesk = r.toDesk ∧ (run b {} later r).Dead b {}) ∧
      ((session 0 .pull).perform b {} r).1.failure? = some (.ofKind .closed) := by
  intro fault b site r
  have hstate : r.controller.state = .shutdown := by decide +kernel
  have hdead := (run_shutdown b {} 0 site
    [.submit .advance (.bytes [97]) (some false), .shutdown]).2.2 hstate
  obtain ⟨s, hs, hp⟩ : ∃ s, r.session? 0 = some s ∧ s.phase = .start :=
    ⟨{ kind := .advance, payload := [97] }, by decide +kernel, rfl⟩
  refine ⟨hstate, hdead, ?_⟩
  have hpull : (session 0 .pull).perform b {} r = _ := (hdead []).2.pull 0 s hs hp
  rw [hpull]
  rfl

end EngineOp

end RollupEngine

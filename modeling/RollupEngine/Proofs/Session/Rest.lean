import RollupEngine.Proofs.Session.Course

/-!
# Sessions at rest

A session that has not begun, and one that is over, hold no machine. Operations on them are quick to
tell. `Seat.Rests` says that a session is at rest: a pull delivers nothing and changes nothing, and
a close at most cancels it. Then `SessionOp.perform_of_rests` gives the answer and the effect of
every operation.

There are two ways to be at rest. A session that is over has nothing more to deliver
(`Seat.rests_of_done`). A session that has not begun cannot begin as long as its controller refuses
to open a transaction, because it is closed or has one open already (`Controller.refusal?`); then a
pull fails with the refusal (`Seat.rests_of_refused`).

Loops over a session are unrolled by their pulls: one that is the last (`Seat.run_drain_of_last`),
and one that delivers an event (`Seat.run_drain_of_delivered`).
-/

namespace RollupEngine

variable {W α : Type}

/-! ## Refusals -/

namespace Controller

/-- The failure with which a controller refuses to open a transaction, if it does. -/
def refusal? (c : Controller) : Option Failure :=
  if c.closed then some (.ofKind .closed)
  else if c.inTransaction then some (.ofKind .busy)
  else none

variable {c : Controller} {f : Failure}

theorem refusal?_of_closed (h : c.closed = true) : c.refusal? = some (.ofKind .closed) := by
  rw [refusal?, if_pos h]

theorem refusal?_of_busy (h : c.closed = false) (ht : c.transaction ≠ none) :
    c.refusal? = some (.ofKind .busy) := by
  have hin : c.inTransaction = true := Option.isSome_iff_ne_none.2 ht
  rw [refusal?, h, if_neg (by decide), if_pos hin]

/-- A controller refuses unless it is idle. -/
theorem idle_iff_refusal? : c.Idle ↔ c.refusal? = none := by
  unfold Idle refusal? inTransaction
  cases c.closed <;> cases c.transaction <;> simp

theorem not_idle_of_refusal (h : c.refusal? = some f) : ¬c.Idle := by
  rw [idle_iff_refusal?, h]
  nofun

end Controller

/-- Opening a transaction that is refused changes nothing. -/
theorem Desk.run_begin_of_refusal (b : Backend W) (mode : Isolation) {d : Desk W} {f : Failure}
    (hf : d.controller.refusal? = some f) : (Desk.begin b mode).run d = .error f d := by
  have refused {g : Failure} (h : ensureIdle.Runs b toSite d [] [] (.error g) d) :
      (Desk.begin b mode).run d = .error g d := h.bind_error.run
  rcases d.controller.closed_or_busy_or_idle with hc | ⟨hc, ht⟩ | hc
  · rw [Controller.refusal?_of_closed hc] at hf
    obtain rfl := Option.some.inj hf
    exact refused (runs_ensureIdle_closed hc)
  · rw [Controller.refusal?_of_busy hc (Option.isSome_iff_ne_none.1 ht)] at hf
    obtain rfl := Option.some.inj hf
    exact refused (runs_ensureIdle_busy hc ht)
  · exact absurd hc (Controller.not_idle_of_refusal hf)

/-! ## Loops and their pulls -/

/-- How a loop ends whose last pull ended so. -/
def DrainEnd.ofPull : Except Failure Unit → DrainEnd
  | .ok _ => .exhausted
  | .error f => .failed f

namespace Seat

variable {b : Backend W} {s s' s'' : Seat W} {o : Except Failure Unit}

theorem run_loop_of_last {spent : DrainEnd} (n : Nat)
    (h : (pull b).run s = Act.result (o.map fun _ => none) s') :
    (loop b spent (n + 1)).run s = .ok ⟨[], .ofPull o⟩ s' := by
  rw [loop, EStateM.run_bind, Act.run_attempt_of_run h]
  cases o <;> rfl

theorem run_drain_of_last (h : (pull b).run s = Act.result (o.map fun _ => none) s') :
    (drain b).run s = .ok ⟨[], .ofPull o⟩ s' := by
  rw [drain, EStateM.run_bind, Act.run_attempt_of_run h]
  cases o <;> rfl

/-- A loop that was delivered an event goes on with its rest. -/
theorem run_loop_of_delivered {spent : DrainEnd} {n : Nat} {event : StreamEvent} {d : Drain}
    (h : (pull b).run s = .ok (some event) s') (hrest : (loop b spent n).run s' = .ok d s'') :
    (loop b spent (n + 1)).run s = .ok { d with events := event :: d.events } s'' := by
  rw [loop, EStateM.run_bind, Act.run_attempt_of_run (o := .ok _) h]
  dsimp only
  rw [EStateM.run_bind, hrest]
  rfl

theorem run_drain_of_delivered {event : StreamEvent} {d : Drain}
    (h : (pull b).run s = .ok (some event) s')
    (hrest : (loop b (.failed { error := .stalled }) (budget b s')).run s' = .ok d s'') :
    (drain b).run s = .ok { d with events := event :: d.events } s'' := by
  rw [drain, EStateM.run_bind, Act.run_attempt_of_run (o := .ok _) h]
  change EStateM.run (do
    let rest ← loop b (.failed { error := .stalled }) (budget b s')
    return { rest with events := event :: rest.events } : Act (Seat W) Drain) s' = _
  rw [EStateM.run_bind, hrest]
  rfl

/-- What a loop comes to depends on the session by its first pull alone. -/
theorem run_drain_congr (h : (pull b).run s = (pull b).run s') :
    (drain b).run s = (drain b).run s' := by
  have hattempt : (Act.attempt (pull b)).run s = (Act.attempt (pull b)).run s' := by
    rw [Act.run_attempt, Act.run_attempt, Act.outcome, Act.final, Act.outcome, Act.final, h]
  rw [drain, EStateM.run_bind, EStateM.run_bind, hattempt]

theorem run_take_of_last {limit : Option Nat} (hl : limit ≠ some 0)
    (h : (pull b).run s = Act.result (o.map fun _ => none) s') :
    (take b limit).run s = .ok ⟨[], .ofPull o⟩ s' := by
  rcases limit with _ | _ | n
  · exact run_drain_of_last h
  · exact absurd rfl hl
  · exact run_loop_of_last n h

/-- A loop that wants no event pulls none. -/
theorem run_take_zero (b : Backend W) (s : Seat W) :
    (take b (some 0)).run s = .ok ⟨[], .stopped⟩ s := rfl

theorem run_scope {limit : Option Nat} {d : Drain} (raising : Option Error)
    (htake : (take b limit).run s = .ok d s') (hclose : (close b).run s' = .ok () s'') :
    (scope b limit raising).run s = .ok (raisedIn raising d) s'' := by
  rw [scope, EStateM.run_bind, htake]
  dsimp only
  rw [EStateM.run_bind, Act.run_attempt_of_run (o := .ok ()) hclose]
  rfl

/-- A scope fails as the close of its session does, if that fails. -/
theorem run_scope_of_unclosed {limit : Option Nat} {d : Drain} {f : Failure}
    (raising : Option Error) (htake : (take b limit).run s = .ok d s')
    (hclose : (close b).run s' = .error f s'') :
    (scope b limit raising).run s = .ok { raisedIn raising d with ending := .failed f } s'' := by
  rw [scope, EStateM.run_bind, htake]
  dsimp only
  rw [EStateM.run_bind, Act.run_attempt_of_run (o := .error f) hclose]
  rfl

/-- What a scope comes to is what collecting it comes to. -/
theorem run_collect {d : Drain} (kind : InputKind)
    (hscope : (scope b none none).run s = .ok d s') :
    (collect b kind).run s = Act.result (d.failure?.elim
      (.ok (.gather kind d.events (s'.session.phase.result?.getD []))) .error) s' := by
  rw [collect, EStateM.run_bind, hscope]
  obtain ⟨events, ending⟩ := d
  cases ending <;> rfl

/-! ## Rest -/

/-- A session that is at rest: its pulls end with `o`, and it is `s'` once it is closed. -/
structure Rests (b : Backend W) (s : Seat W) (o : Except Failure Unit) (s' : Seat W) : Prop where
  pull : (pull b).run s = Act.result (o.map fun _ => none) s
  close : (close b).run s = .ok () s'
  abandon : (abandon b).run s = .ok () s
  result : s'.session.phase.result? = s.session.phase.result?

/-- To close a session that is over has no effect. -/
theorem run_close_over (b : Backend W) (h : s.session.phase.done = true) :
    (close b).run s = .ok () s := by
  cases hp : s.session.phase with
  | start | running => simp [hp, Phase.done] at h
  | accepted | rejected | fatal | cancelled =>
    simp only [Seat.close, EStateM.run_bind, EStateM.run_get, hp]
    rfl

/-- To close a session that has not begun needs no machine. -/
theorem run_close_start (b : Backend W) (h : s.session.phase = .start) :
    (close b).run s = .ok () { s with session := s.session.inPhase .cancelled } := by
  simp only [Seat.close, EStateM.run_bind, EStateM.run_get, h]
  rfl

theorem rests_of_done (b : Backend W) (h : s.session.phase.done = true) :
    Rests b s (.ok ()) s where
  pull := run_pull_over b h
  close := run_close_over b h
  abandon := run_abandon b (Phase.working?_of_done h)
  result := rfl

theorem rests_of_refused (b : Backend W) {f : Failure} (h : s.session.phase = .start)
    (hf : s.controller.refusal? = some f) :
    Rests b s (.error f) { s with session := s.session.inPhase .cancelled } where
  pull := by
    have hbegin := Desk.run_begin_of_refusal b s.session.isolation hf
    rw [run_pull_start b h, EStateM.run_bind, start, EStateM.run_bind, EStateM.run_get]
    dsimp only
    rw [EStateM.run_bind, run_onDesk, hbegin]
    rfl
  close := run_close_start b h
  abandon := run_abandon b (by rw [h]; rfl)
  result := by rw [h]; rfl

end Seat

/-! ## Operations on a session at rest -/

namespace SessionOp

/-- Whether an operation asks its session for an event. -/
def pulls : SessionOp → Bool
  | .pull | .next | .collect _ => true
  | .take limit | .scope limit _ => limit != some 0
  | .close | .drop => false

/-- Whether an operation closes its session in the end. -/
def closes : SessionOp → Bool
  | .scope .. | .close | .collect _ => true
  | _ => false

/-- What an operation on a session answers that delivers no event, when its pulls end with `o` and
its result is `root`. -/
def answerAtRest (o : Except Failure Unit) (root : Bytes) : SessionOp → Answer
  | .pull => { outcome := o.map fun _ => .event none }
  | .next => { outcome := o.map fun _ => .stop }
  | .take limit => .ofDrain (ended limit)
  | .scope limit raising => .ofDrain (Seat.raisedIn raising (ended limit))
  | .close | .drop => { outcome := .ok .done }
  | .collect kind => { outcome := o.map fun _ => .collected (.gather kind [] root) }
where
  /-- What a loop over the session comes to. -/
  ended (limit : Option Nat) : Drain :=
    ⟨[], if limit = some 0 then .stopped else .ofPull o⟩

variable {b : Backend W} {s s' : Seat W} {o : Except Failure Unit}

theorem run_take_of_rests (h : Seat.Rests b s o s') (limit : Option Nat) :
    (Seat.take b limit).run s = .ok (answerAtRest.ended o limit) s := by
  unfold answerAtRest.ended
  by_cases hl : limit = some 0
  · subst hl
    exact Seat.run_take_zero b s
  · rw [if_neg hl]
    exact Seat.run_take_of_last hl h.pull

theorem run_scope_of_rests (h : Seat.Rests b s o s') (limit : Option Nat)
    (raising : Option Error) :
    (Seat.scope b limit raising).run s =
      .ok (Seat.raisedIn raising (answerAtRest.ended o limit)) s' :=
  Seat.run_scope raising (run_take_of_rests h limit) h.close

/-- An operation on a session at rest answers at once, and at most closes it. -/
theorem perform_of_rests (h : Seat.Rests b s o s') (op : SessionOp) :
    op.perform b s = (op.answerAtRest o (s.session.phase.result?.getD []),
      if op.closes then s' else s) := by
  cases op with
  | pull =>
    refine Answer.reply_of_run ?_
    rw [EStateM.run_bind, h.pull]
    cases o <;> rfl
  | next =>
    refine Answer.reply_of_run ?_
    rw [EStateM.run_bind, h.pull]
    cases o <;> rfl
  | take limit => exact Answer.drain_of_run (run_take_of_rests h limit)
  | scope limit raising => exact Answer.drain_of_run (run_scope_of_rests h limit raising)
  | close =>
    refine Answer.reply_of_run (o := .ok .done) ?_
    rw [EStateM.run_bind, h.close]
    rfl
  | drop =>
    refine Answer.reply_of_run (o := .ok .done) ?_
    rw [EStateM.run_bind, h.abandon]
    rfl
  | collect kind =>
    refine Answer.reply_of_run ?_
    rw [EStateM.run_bind, Seat.run_collect kind (run_scope_of_rests h none none), h.result]
    cases o <;> rfl

/-- An operation on a session that is over changes nothing. -/
theorem perform_of_done (b : Backend W) (h : s.session.phase.done = true) (op : SessionOp) :
    op.perform b s = (op.answerAtRest (.ok ()) (s.session.phase.result?.getD []), s) := by
  rw [perform_of_rests (Seat.rests_of_done b h), ite_self]

/-- No event is delivered by a session at rest. -/
theorem events_answerAtRest (op : SessionOp) (root : Bytes) :
    (op.answerAtRest o root).events = [] := by
  cases op with
  | pull | next | take | close | drop | collect => rfl
  | scope limit raising =>
    change (Seat.raisedIn raising (answerAtRest.ended o limit)).events = []
    unfold Seat.raisedIn
    split <;> rfl

/-- An operation on a session that is over raises nothing but what it was asked to raise. -/
theorem failure?_answerAtRest {op : SessionOp} {root : Bytes} {f : Failure}
    (h : (op.answerAtRest (.ok ()) root).failure? = some f) : op.raises? = some f.error := by
  have hended (limit : Option Nat) : (answerAtRest.ended (.ok ()) limit).failure? = none := by
    unfold answerAtRest.ended
    by_cases hl : limit = some 0
    · rw [if_pos hl]
      rfl
    · rw [if_neg hl]
      rfl
  cases op with
  | pull | next | close | drop | collect => cases h
  | take limit =>
    have hdrain := (Answer.failure?_ofDrain (answerAtRest.ended (.ok ()) limit)).symm.trans h
    cases (hended limit).symm.trans hdrain
  | scope limit raising =>
    have hdrain := (Answer.failure?_ofDrain _).symm.trans h
    rw [Seat.failure?_raisedIn, hended limit, Option.none_or, Option.map_eq_some_iff] at hdrain
    obtain ⟨e, he, rfl⟩ := hdrain
    exact he

/-- The phase of a session that was refused, after an operation. -/
def phaseRefused (op : SessionOp) : Phase :=
  if op.closes then .cancelled else .start

/-- An operation on a session that cannot begin at most cancels it. -/
theorem perform_of_refused (b : Backend W) {f : Failure} (h : s.session.phase = .start)
    (hf : s.controller.refusal? = some f) (op : SessionOp) :
    op.perform b s = (op.answerAtRest (.error f) [],
      { s with session := s.session.inPhase op.phaseRefused }) := by
  have hstart : s.session.inPhase .start = s.session := by rw [← h]; rfl
  rw [perform_of_rests (Seat.rests_of_refused b h hf), h, phaseRefused]
  cases op.closes
  · rw [if_neg (by decide), if_neg (by decide), hstart]
    rfl
  · rfl

/-- An operation that pulls no event from a session that has not begun at most cancels it. -/
theorem perform_of_unpulled (b : Backend W) (h : s.session.phase = .start) {op : SessionOp}
    (hop : op.pulls = false) :
    op.perform b s = (op.answerAtRest (.ok ()) [],
      { s with session := s.session.inPhase op.phaseRefused }) := by
  have hstart : s.session.inPhase .start = s.session := by rw [← h]; rfl
  have hclose := Seat.run_close_start b h
  cases op with
  | pull | next | collect => cases hop
  | take limit =>
    obtain rfl : limit = some 0 := by simpa [pulls] using hop
    rw [phaseRefused, if_neg (by decide), hstart]
    rfl
  | scope limit raising =>
    obtain rfl : limit = some 0 := by simpa [pulls] using hop
    exact Answer.drain_of_run (Seat.run_scope raising (Seat.run_take_zero b s) hclose)
  | close =>
    refine Answer.reply_of_run (o := .ok .done) ?_
    rw [EStateM.run_bind, hclose]
    rfl
  | drop =>
    refine Answer.reply_of_run (o := .ok .done) ?_
    rw [EStateM.run_bind, Seat.run_abandon b (by rw [h]; rfl), phaseRefused, if_neg (by decide),
      hstart]
    rfl

/-- An operation that pulls a session which is refused fails with the refusal. -/
theorem outcome_answerAtRest_of_pulls {op : SessionOp} (h : op.pulls = true) (f : Failure)
    (root : Bytes) : (op.answerAtRest (.error f) root).outcome = .error f := by
  cases op with
  | pull | next | collect => rfl
  | take limit | scope limit =>
    have hl : limit ≠ some 0 := by simpa [pulls] using h
    simp only [answerAtRest, answerAtRest.ended, if_neg hl]
    rfl
  | close | drop => cases h

end SessionOp

end RollupEngine

import RollupEngine.Proofs.Link
import RollupEngine.Proofs.Session.Rest
import RollupEngine.Scripted.World

/-!
# Collecting

An input can be run to its end at once, or it becomes a session that is pulled until it ends or
fails. `EngineOp.submit_collects` says that both come to the same: the same calls and notices, the
same controller and machines, the same failure or the same events, gathered. The state of the engine
does not matter, nor does what its machines do, as long as none of them raises an interrupt and the
host has the patience to see the end.

A scope closes its session however the loop inside ended, which could be one close too many.
`Seat.Pulled` is what a pull comes to: unless there was an interrupt, or the host gave up, a session
whose last pull failed is over, or has not begun (`Seat.Failed`); so there is nothing left to close.

There is one exception. A break whose code cannot be written leaves its session running. Then only
the scope closes it, and what is collected is what is streamed and closed thereafter;
`EngineOp.streamed_runs_on` shows the difference.
-/

namespace RollupEngine

variable {W : Type}

/-! ## What a pull comes to -/

/-- The phase in which a session may be left by a failure, after the calls `xs`. -/
inductive Seat.Failed (xs : List Exchange) (f : Failure) : Phase → Prop
  | refused (hf : f ≠ .unwritable) : Failed xs f .start
  | done {p : Phase} (h : p.done = true) (hf : f ≠ .unwritable) : Failed xs f p
  | interrupted {p : Phase} {x : Exchange} (hx : x ∈ xs) (h : x.ordinary = false) : Failed xs f p
  | stalled {p : Phase} (h : f.error = .stalled) : Failed xs f p
  | unwritable (w : Handle) (hf : f = .unwritable) : Failed xs f (.running w)

/-- How a pull ends, and the phase in which it leaves a session, after the calls `xs`. -/
inductive Seat.Pulled (xs : List Exchange) : Except Failure (Option StreamEvent) → Phase → Prop
  | delivered (event : StreamEvent) (w : Handle) : Pulled xs (.ok (some event)) (.running w)
  | accepted (result : Bytes) : Pulled xs (.ok none) (.accepted result)
  | failed {f : Failure} {p : Phase} (h : Failed xs f p) : Pulled xs (.error f) p

theorem Seat.Failed.append_left {xs : List Exchange} {f : Failure} {p : Phase}
    (h : Failed xs f p) (ys : List Exchange) : Failed (ys ++ xs) f p := by
  cases h with
  | refused hf => exact .refused hf
  | done h hf => exact .done h hf
  | interrupted hx h => exact .interrupted (List.mem_append_right ys hx) h
  | stalled h => exact .stalled h
  | unwritable w hf => exact .unwritable w hf

theorem Seat.Pulled.append_left {xs : List Exchange} {o : Except Failure (Option StreamEvent)}
    {p : Phase} (h : Pulled xs o p) (ys : List Exchange) : Pulled (ys ++ xs) o p := by
  cases h with
  | delivered event w => exact .delivered event w
  | accepted result => exact .accepted result
  | failed h => exact .failed (h.append_left ys)

/-- Whatever fails besides is reported by an error of the engine's own, or is an interrupt. -/
theorem Failure.ne_unwritable_of_closing (f : Failure) : f.closing ≠ .unwritable := by
  obtain ⟨e, cause⟩ := f
  cases e <;> nofun

theorem Failure.ne_unwritable_of_interrupt {f : Failure} (h : f.ordinary = false) :
    f ≠ .unwritable := by
  rintro rfl
  cases h

theorem Controller.Begins.ne_unwritable {mode : Isolation} {c c' : Controller}
    {xs : List Exchange} {ns : List Notice} {f : Failure}
    (h : c.Begins mode xs ns (.error f) c') : f ≠ .unwritable := by
  cases h with
  | closed | busy | failed => nofun
  | interrupted _ _ _ he => exact Failure.ne_unwritable_of_interrupt he

namespace Session

variable {s : Session} {kind : InputKind} {w : Handle} {c c' : Controller} {p : Phase}
  {xs : List Exchange} {ns : List Notice} {f : Failure}

theorem Ends.ne_unwritable {ending : Ending} {o : Except Failure Seat.Turn}
    (h : Ends kind ending c xs ns o c') (ho : o = .error f) : f ≠ .unwritable := by
  cases h with
  | settled =>
    cases ending with
    | accepted => cases ho
    | rejected | exception | violation =>
      cases ho
      nofun
  | unsettled =>
    cases ho
    exact Failure.ne_unwritable_of_closing _

theorem Fails.ne_unwritable {e : Error} (h : Fails kind e c xs ns f c') : f ≠ .unwritable := by
  cases h with
  | @rolledBack _ o =>
    rcases o with g | _
    · unfold Except.mapError Failure.ofMachine
      dsimp only
      split
      · nofun
      · exact Failure.ne_unwritable_of_closing g
    · nofun

theorem Turns.failed_of_error {o : Except Failure Seat.Turn} (h : Turns kind w c xs ns o c' p)
    (ho : o = .error f) : Seat.Failed xs f p := by
  cases h with
  | heard _ hj =>
    cases hj with
    | delivered | passed => cases ho
    | ended _ he => exact .done (Ending.done_phase _) (he.ne_unwritable ho)
    | refused =>
      cases ho
      exact .unwritable w rfl
  | failed _ _ hf =>
    cases ho
    exact .done rfl hf.ne_unwritable
  | interrupted h he =>
    obtain ⟨x, hx, hraised⟩ := h.raised
    exact .interrupted hx ((Exchange.ordinary_eq hraised).trans he)

theorem Starts.failed_of_error {o : Except Failure Handle} (h : Starts s c xs ns o c' p)
    (ho : o = .error f) : Seat.Failed xs f p := by
  cases h with
  | refused hb =>
    cases ho
    exact .refused hb.ne_unwritable
  | sent => cases ho
  | interrupted _ e he => exact .interrupted (List.mem_append_right _ (List.mem_singleton.2 rfl)) he
  | failed _ _ _ hf =>
    cases ho
    exact .done rfl hf.ne_unwritable

end Session

namespace Seat

variable {b : Backend W} {s s' s'' : Seat W}

theorem turns_pulled (b : Backend W) {w : Handle} (n : Nat) {s : Seat W}
    (hs : s.session.phase = .running w) :
    ∃ xs ns o s', (turns b w n).Runs b site s xs ns o s' ∧ Pulled xs o s'.session.phase := by
  induction n generalizing s with
  | zero => exact ⟨_, _, _, s, .throw _ s, .failed (.stalled rfl)⟩
  | succ n ih =>
    obtain ⟨xs, ns, o, s', hrun, ht, hs'⟩ := turn_cases b hs
    rcases o with f | event | _ | _
    · exact ⟨_, _, _, s', hrun.bind_error, .failed (ht.failed_of_error rfl)⟩
    · refine ⟨_, _, .ok (some event), s', hrun.bind_silent (.pure _ s'), ?_⟩
      rw [ht.running_of_delivered rfl]
      exact .delivered event w
    · obtain ⟨ys, ms, o, s'', hrest, hpulled⟩ := ih (ht.running_of_ignored rfl)
      exact ⟨_, _, o, s'', hrun.bind hrest, hpulled.append_left xs⟩
    · obtain ⟨result, hp⟩ := ht.accepted_of_over rfl
      refine ⟨_, _, .ok none, s', hrun.bind_silent (.pure _ s'), ?_⟩
      rw [hp]
      exact .accepted result

theorem advance_pulled (b : Backend W) {w : Handle} {s : Seat W}
    (hs : s.session.phase = .running w) :
    ∃ xs ns o s', (advance b w).Runs b site s xs ns o s' ∧ Pulled xs o s'.session.phase := by
  obtain ⟨xs, ns, o, s', hrun, hpulled⟩ := turns_pulled b (b.patience w s.world) hs
  exact ⟨xs, ns, o, s', .get_bind hrun, hpulled⟩

theorem pull_pulled (b : Backend W) {s : Seat W} (hs : s.session.phase.done = false) :
    ∃ xs ns o s', (pull b).Runs b site s xs ns o s' ∧ Pulled xs o s'.session.phase := by
  cases hp : s.session.phase with
  | accepted | rejected | fatal | cancelled =>
    rw [hp] at hs
    cases hs
  | running w =>
    obtain ⟨xs, ns, o, s', hrun, hpulled⟩ := advance_pulled b hp
    exact ⟨xs, ns, o, s', ⟨(run_pull_running b hp).trans hrun.run, hrun.follows⟩, hpulled⟩
  | start =>
    obtain ⟨xs, ns, o, s', hrun, hstart, -⟩ := start_cases b hp
    have hpull {ys : List Exchange} {ms : List Notice} {o : Except Failure (Option StreamEvent)}
        {t : Seat W} (h : (start b >>= advance b).Runs b site s ys ms o t) :
        (pull b).Runs b site s ys ms o t := ⟨(run_pull_start b hp).trans h.run, h.follows⟩
    cases o with
    | error f => exact ⟨_, _, _, s', hpull hrun.bind_error, .failed (hstart.failed_of_error rfl)⟩
    | ok w =>
      obtain ⟨ys, ms, o, s'', hrest, hpulled⟩ := advance_pulled b (hstart.running_of_ok rfl)
      exact ⟨_, _, o, s'', hpull (hrun.bind hrest), hpulled.append_left xs⟩

/-- A session that delivered an event runs. -/
theorem running_of_delivered {event : StreamEvent} (h : (pull b).run s = .ok (some event) s') :
    ∃ w, s'.session.phase = .running w := by
  cases hs : s.session.phase.done with
  | true => cases (run_pull_over b hs).symm.trans h
  | false =>
    obtain ⟨xs, ns, o, t, hrun, hpulled⟩ := pull_pulled b hs
    have hsame : Act.result o t = Act.result (.ok (some event)) s' := hrun.run.symm.trans h
    obtain ⟨rfl, rfl⟩ := Act.result_inj hsame
    generalize t.session.phase = p at hpulled
    cases hpulled with
    | delivered _ w => exact ⟨w, rfl⟩

/-! ## Drains -/

/-- The session is pulled until it ends or fails. The host is willing to pull so often. -/
inductive Drains (b : Backend W) :
    Seat W → List StreamEvent → Except Failure Unit → Seat W → Prop
  | last {s s' : Seat W} {o : Except Failure Unit}
      (h : (pull b).run s = Act.result (o.map fun _ => none) s')
      (ho : ∀ f, o = .error f → f.error ≠ .stalled) : Drains b s [] o s'
  | delivered {s s' s'' : Seat W} {event : StreamEvent} {events : List StreamEvent}
      {o : Except Failure Unit} (h : (pull b).run s = .ok (some event) s')
      (hpatient : events.length < budget b s') (rest : Drains b s' events o s'') :
    Drains b s (event :: events) o s''

namespace Drains

variable {events : List StreamEvent} {o : Except Failure Unit}

theorem run_loop (h : Drains b s events o s') (spent : DrainEnd) {n : Nat}
    (hn : events.length < n) : (loop b spent n).run s = .ok ⟨events, .ofPull o⟩ s' := by
  induction h generalizing n with
  | last h =>
    obtain ⟨n, rfl⟩ := Nat.exists_eq_add_one.2 hn
    exact run_loop_of_last n h
  | delivered h _ _ ih =>
    obtain ⟨n, rfl⟩ := Nat.exists_eq_add_one.2 (Nat.zero_lt_of_lt hn)
    exact run_loop_of_delivered h (ih (Nat.lt_of_succ_lt_succ hn))

theorem run_take (h : Drains b s events o s') :
    (take b none).run s = .ok ⟨events, .ofPull o⟩ s' := by
  cases h with
  | last h => exact run_drain_of_last h
  | delivered h hpatient rest => exact run_drain_of_delivered h (rest.run_loop _ hpatient)

/-- What a drain comes to is what its last pull comes to. -/
theorem pulled (h : Drains b s events o s') (hs : s.session.phase.done = false) :
    ∃ xs ns, s.site.Follows b xs ns s'.site ∧
      Pulled xs (o.map fun _ => none) s'.session.phase := by
  induction h with
  | last h =>
    obtain ⟨xs, ns, _, t, hrun, hpulled⟩ := pull_pulled b hs
    obtain ⟨rfl, rfl⟩ := Act.result_inj (hrun.run.symm.trans h)
    exact ⟨xs, ns, hrun.follows, hpulled⟩
  | @delivered _ s₁ _ event _ _ h _ _ ih =>
    obtain ⟨w, hp⟩ := running_of_delivered h
    obtain ⟨ys, ms, hfollows, hrest⟩ := ih (by rw [hp]; rfl)
    obtain ⟨xs, ns, o, t, hrun, -⟩ := pull_pulled b hs
    have hsame : Act.result o t = Act.result (.ok (some event)) s₁ := hrun.run.symm.trans h
    obtain ⟨rfl, rfl⟩ := Act.result_inj hsame
    exact ⟨_, _, hrun.follows.trans hfollows, hrest.append_left xs⟩

theorem not_stalled (h : Drains b s events o s') {f : Failure} (ho : o = .error f) :
    f.error ≠ .stalled := by
  induction h with
  | last _ h => exact h f ho
  | delivered _ _ _ ih => exact ih ho

/-- Without an interrupt, a session that was drained is over, or has not begun, unless a code could
not be written; then it runs on. If nothing failed, its input was accepted. -/
theorem rests (h : Drains b s events o s') (hs : s.session.phase.done = false)
    (hx : ∀ x ∈ s'.calls.drop s.calls.length, x.ordinary = true) :
    (o ≠ .error .unwritable → s'.session.phase = .start ∨ s'.session.phase.done = true) ∧
      (o = .error .unwritable → ∃ w, s'.session.phase = .running w) ∧
      (o = .ok () → ∃ root, s'.session.phase = .accepted root) := by
  obtain ⟨xs, ns, hfollows, hpulled⟩ := h.pulled hs
  rw [show s'.calls = s.calls ++ xs from hfollows.calls, List.drop_left] at hx
  generalize s'.session.phase = p at hpulled
  cases o with
  | ok _ =>
    cases hpulled with
    | accepted root => exact ⟨fun _ => .inr rfl, nofun, fun _ => ⟨root, rfl⟩⟩
  | error f =>
    cases hpulled with
    | failed hfailed =>
      cases hfailed with
      | refused hf => exact ⟨fun _ => .inl rfl, fun ho => absurd (Except.error.inj ho) hf, nofun⟩
      | done hd hf => exact ⟨fun _ => .inr hd, fun ho => absurd (Except.error.inj ho) hf, nofun⟩
      | interrupted hmem h => cases h.symm.trans (hx _ hmem)
      | stalled hstalled => exact absurd hstalled (h.not_stalled rfl)
      | unwritable w hf => exact ⟨fun ho => absurd (congrArg _ hf) ho, fun _ => ⟨w, rfl⟩, nofun⟩

/-- Collecting comes to what draining comes to, if every code can be written. -/
theorem run_collect (h : Drains b s events o s') (hs : s.session.phase.done = false)
    (hx : ∀ x ∈ s'.calls.drop s.calls.length, x.ordinary = true) (hw : o ≠ .error .unwritable)
    (kind : InputKind) :
    ∃ root s'', (collect b kind).run s = Act.result (o.map fun _ => .gather kind events root) s'' ∧
      s''.toDesk = s'.toDesk ∧ (o = .ok () → s'.session.phase = .accepted root) := by
  obtain ⟨hrests, -, haccepted⟩ := h.rests hs hx
  obtain ⟨s'', hclose, hdesk, hresult⟩ : ∃ s'', (close b).run s' = .ok () s'' ∧
      s''.toDesk = s'.toDesk ∧ s''.session.phase.result? = s'.session.phase.result? := by
    rcases hrests hw with hp | hp
    · exact ⟨_, run_close_start b hp, rfl, by rw [hp]; rfl⟩
    · exact ⟨s', run_close_over b hp, rfl, rfl⟩
  have hcollect := Seat.run_collect kind (run_scope none h.run_take hclose)
  cases o with
  | error f => exact ⟨[], s'', hcollect, hdesk, nofun⟩
  | ok _ =>
    obtain ⟨root, hp⟩ := haccepted rfl
    rw [hresult, hp] at hcollect
    exact ⟨root, s'', hcollect, hdesk, fun _ => hp⟩

/-- If a code cannot be written, collecting comes to what draining and closing comes to. -/
theorem run_collect_of_unwritable (h : Drains b s events (.error .unwritable) s')
    {closed : Except Failure Unit} (hclose : (close b).run s' = Act.result closed s'')
    (kind : InputKind) :
    (collect b kind).run s = .error ((failed? closed).getD .unwritable) s'' := by
  cases closed with
  | ok _ => exact Seat.run_collect kind (run_scope none h.run_take hclose)
  | error f => exact Seat.run_collect kind (run_scope_of_unclosed none h.run_take hclose)

end Drains

end Seat

/-! ## Pulls of a session in its room -/

/-- The host is willing to run the machine of a session as often as `k` times. -/
def Room.Willing (b : Backend W) (n k : Nat) (r : Room W) : Prop :=
  ∀ session w, r.session? n = some session → session.phase = .running w → k ≤ b.patience w r.world

namespace EngineOp

/-- The session `n` is pulled until it delivers no event any more, or fails. The host is willing to
pull so often. -/
inductive Drains (b : Backend W) (config : EngineConfig) (n : Nat) :
    Room W → List StreamEvent → Except Failure Unit → Room W → Prop
  | last {r r' : Room W} {o : Except Failure Unit}
      (h : (session n .pull).perform b config r = ({ outcome := o.map fun _ => .event none }, r'))
      (ho : ∀ f, o = .error f → f.error ≠ .stalled) : Drains b config n r [] o r'
  | delivered {r r' r'' : Room W} {event : StreamEvent} {events : List StreamEvent}
      {o : Except Failure Unit}
      (h : (session n .pull).perform b config r = ({ outcome := .ok (.event (some event)) }, r'))
      (hpatient : r'.Willing b n (events.length + 1)) (rest : Drains b config n r' events o r'') :
    Drains b config n r (event :: events) o r''

/-- An input is streamed: it is refused, or it becomes a session, which is drained. -/
inductive Streams (b : Backend W) (config : EngineConfig) (kind : InputKind) (input : Submission)
    (choice : Option Bool) (r : Room W) : List StreamEvent → Except Failure Unit → Room W → Prop
  | refused {f : Failure} {r' : Room W}
      (h : (submit kind input choice).perform b config r = ({ outcome := .error f }, r')) :
    Streams b config kind input choice r [] (.error f) r'
  | drained {n : Nat} {r' r'' : Room W} {events : List StreamEvent} {o : Except Failure Unit}
      (h : (submit kind input choice).perform b config r = ({ outcome := .ok (.session n) }, r'))
      (rest : Drains b config n r' events o r'') :
    Streams b config kind input choice r events o r''

/-- An input was collected in the room `r`, with an answer and the room after it, as it was streamed
with these events, this end and the room `r'`. -/
structure Collects (kind : InputKind) (r : Room W) (events : List StreamEvent)
    (o : Except Failure Unit) (r' : Room W) (collected : Answer × Room W) : Prop where
  /-- The calls, the notices, the machines and the controller are the same. -/
  desk : collected.2.toDesk = r'.toDesk
  /-- No session is handed out. -/
  sessions : collected.2.sessions = r.sessions
  failure : ∀ f, collected.1.outcome = .error f ↔ o = .error f
  /-- What is collected is what was streamed, and the root is what the input was accepted with. -/
  result : o = .ok () → ∃ session root, r'.session? r.sessions.length = some session ∧
    session.phase = .accepted root ∧
    collected.1.outcome = .ok (.collected (match kind with
      | .advance => .advance (events.filterMap StreamEvent.output?)
          (events.filterMap StreamEvent.report?) root
      | .inspect => .inspect (events.filterMap StreamEvent.report?)))

variable {b : Backend W} {config : EngineConfig} {n : Nat} {r r' : Room W}
  {events : List StreamEvent} {o : Except Failure Unit}

/-- A session is pulled in its room as it is where it stands. -/
theorem perform_pull (b : Backend W) (config : EngineConfig) {session : Session}
    (hn : r.session? n = some session) :
    ∃ o s, (Seat.pull b).run ⟨r.toDesk, session⟩ = Act.result o s ∧
      (EngineOp.session n .pull).perform b config r = ({ outcome := o.map .event },
        { toDesk := s.toDesk, sessions := r.sessions.set n (some s.session) }) := by
  obtain ⟨_, _, o, s, hwalk, -⟩ := Seat.pull_walks b ⟨r.toDesk, session⟩
  have hpull : SessionOp.pull.perform b ⟨r.toDesk, session⟩ = ({ outcome := o.map .event }, s) := by
    refine Answer.reply_of_run ?_
    rw [EStateM.run_bind, hwalk.run]
    cases o <;> rfl
  refine ⟨o, s, hwalk.run, ?_⟩
  rw [perform_session b config hn, hpull]
  rfl

theorem Drains.seat (h : Drains b config n r events o r') {session : Session}
    (hn : r.session? n = some session) :
    ∃ s, Seat.Drains b ⟨r.toDesk, session⟩ events o s ∧ r'.toDesk = s.toDesk ∧
      r'.session? n = some s.session := by
  induction h generalizing session with
  | @last r r' o h ho =>
    obtain ⟨o', s, hrun, hperform⟩ := perform_pull b config hn
    obtain ⟨ha, rfl⟩ := Prod.mk.inj (hperform.symm.trans h)
    have hlast : o' = o.map fun _ => none := by
      cases o' <;> cases o <;> cases ha <;> rfl
    rw [hlast] at hrun
    exact ⟨s, .last hrun ho, rfl, by rw [Room.session?_set hn, if_pos rfl]⟩
  | @delivered r r' _ event _ _ h hpatient _ ih =>
    obtain ⟨o', s, hrun, hperform⟩ := perform_pull b config hn
    obtain ⟨ha, rfl⟩ := Prod.mk.inj (hperform.symm.trans h)
    have hevent : o' = .ok (some event) := by
      cases o' <;> cases ha
      rfl
    rw [hevent] at hrun
    have hs : Room.session? ⟨s.toDesk, r.sessions.set n (some s.session)⟩ n = some s.session := by
      rw [Room.session?_set hn, if_pos rfl]
    obtain ⟨s', hdrains, hdesk, hs'⟩ := ih hs
    obtain ⟨w, hp⟩ := Seat.running_of_delivered hrun
    refine ⟨s', .delivered hrun ?_ hdrains, hdesk, hs'⟩
    rw [Seat.budget, hp]
    exact hpatient _ w hs hp

/-- A session is closed in its room as it is where it stands. -/
theorem perform_close (config : EngineConfig) {session : Session}
    (hn : r.session? n = some session) {s : Seat W}
    (h : (Seat.close b).run ⟨r.toDesk, session⟩ = Act.result o s) :
    (EngineOp.session n .close).perform b config r = ({ outcome := o.map fun _ => .done },
      { toDesk := s.toDesk, sessions := r.sessions.set n (some s.session) }) := by
  have hclose : SessionOp.close.perform b ⟨r.toDesk, session⟩ =
      ({ outcome := o.map fun _ => .done }, s) := by
    refine Answer.reply_of_run ?_
    rw [EStateM.run_bind, h]
    cases o <;> rfl
  rw [perform_session b config hn, hclose]
  rfl

section

variable {kind : InputKind} {input : Submission} {payload : Bytes} {choice choice' : Option Bool}
  {t : Seat W}

/-- An input that is refused is refused in both ways. -/
theorem collects_of_refused (choice : Option Bool) {f : Failure} (hf : f ≠ .unwritable)
    (hrun : ∀ choice, (Room.submit b config kind input choice).run r = .error f r)
    (h : Streams b config kind input choice' r events o r') :
    o ≠ .error .unwritable ∧
      Collects kind r events o r' ((submit kind input choice).perform b config r) := by
  have hperform (choice : Option Bool) : (submit kind input choice).perform b config r =
      ({ outcome := .error f }, r) := Answer.reply_of_run (o := .error f) (hrun choice)
  rw [hperform]
  cases h with
  | refused h =>
    cases (hperform choice').symm.trans h
    exact ⟨fun ho => hf (Except.error.inj ho), rfl, rfl, fun _ => by simp, nofun⟩
  | drained h => cases (hperform choice').symm.trans h

/-- What is drained of a new session is collected, if every code can be written. -/
theorem collects_of_drains (hopen : r.controller.closed = false)
    (hc : config.collects choice = true)
    (h : Seat.Drains b ⟨r.toDesk, config.session kind payload⟩ events o t)
    (hx : ∀ x ∈ t.calls.drop r.calls.length, x.ordinary = true) (hw : o ≠ .error .unwritable)
    (hdesk : r'.toDesk = t.toDesk) (ht : r'.session? r.sessions.length = some t.session) :
    Collects kind r events o r' ((submit kind (.bytes payload) choice).perform b config r) := by
  obtain ⟨root, t', hcollect, hdesk', haccepted⟩ := h.run_collect rfl hx hw kind
  rw [perform_collected b hopen hc hcollect]
  refine ⟨hdesk'.trans hdesk.symm, rfl, fun f => ?_, ?_⟩
  · cases o <;> simp [Except.map]
  · rintro rfl
    exact ⟨_, root, ht, haccepted rfl, rfl⟩

/-- If a code cannot be written, to collect an input is to drain a new session and to close it. -/
theorem collects_of_unwritable (hopen : r.controller.closed = false)
    (hc : config.collects choice = true)
    (h : Seat.Drains b ⟨r.toDesk, config.session kind payload⟩ events (.error .unwritable) t)
    (hdesk : r'.toDesk = t.toDesk) (ht : r'.session? r.sessions.length = some t.session) :
    let closed := (session r.sessions.length .close).perform b config r'
    Collects kind r events (.error (closed.1.failure?.getD .unwritable)) closed.2
      ((submit kind (.bytes payload) choice).perform b config r) := by
  intro closed
  obtain ⟨_, _, o, t', hclose, -⟩ := Seat.close_cases b t
  have hclosed : closed = _ := perform_close config ht (by rw [hdesk]; exact hclose.run)
  have hcollect := h.run_collect_of_unwritable hclose.run kind
  rw [perform_collected b (o := .error _) hopen hc hcollect, hclosed]
  refine ⟨rfl, rfl, fun f => ?_, nofun⟩
  cases o <;> simp [Except.map, Answer.failure?, failed?]

end

/-- To collect an input is to stream it and to gather what is streamed, as long as no machine raises
an interrupt. Only if a code cannot be written, the session that is streamed runs on, while the
input that is collected is closed. -/
theorem submit_collects (b : Backend W) (config : EngineConfig) {kind : InputKind}
    {input : Submission} {choice choice' : Option Bool} {r r' : Room W}
    {events : List StreamEvent} {o : Except Failure Unit} (hc : config.collects choice = true)
    (hc' : config.collects choice' = false)
    (h : Streams b config kind input choice' r events o r')
    (hx : ∀ x ∈ r'.calls.drop r.calls.length, x.ordinary = true) :
    let number := r.sessions.length
    let collected := (submit kind input choice).perform b config r
    let closed := (session number .close).perform b config r'
    (o ≠ .error .unwritable → Collects kind r events o r' collected) ∧
      (o = .error .unwritable → (r'.working? number).isSome = true ∧
        Collects kind r events (.error (closed.1.failure?.getD .unwritable)) closed.2
          collected) := by
  intro number collected closed
  cases hopen : r.controller.closed with
  | true =>
    obtain ⟨hne, hcollects⟩ := collects_of_refused choice (f := .ofKind .closed) nofun
      (fun choice => run_submit_closed b config kind input choice hopen) h
    exact ⟨fun _ => hcollects, fun ho => absurd ho hne⟩
  | false =>
    cases input with
    | other typeName =>
      obtain ⟨hne, hcollects⟩ := collects_of_refused choice
        (f := { error := .notBytes kind typeName }) nofun
        (fun choice => run_submit_other b config kind typeName choice hopen) h
      exact ⟨fun _ => hcollects, fun ho => absurd ho hne⟩
    | bytes payload =>
      let s : Session := config.session kind payload
      have hstreamed := perform_opened b kind payload hopen hc'
      cases h with
      | refused h => cases hstreamed.symm.trans h
      | drained h hdrains =>
        cases hstreamed.symm.trans h
        have hs : Room.session? { r with sessions := r.sessions ++ [some s] } number = some s := by
          rw [Room.session?_append, if_pos rfl]
        obtain ⟨t, hseat, hdesk, ht⟩ := hdrains.seat hs
        rw [hdesk] at hx
        refine ⟨fun hw => collects_of_drains hopen hc hseat hx hw hdesk ht, ?_⟩
        rintro rfl
        obtain ⟨w, hp⟩ := (hseat.rests rfl hx).2.1 rfl
        exact ⟨by rw [Room.working?_eq ht, hp]; rfl,
          collects_of_unwritable hopen hc hseat hdesk ht⟩

/-- The last operation of a run, which delivers no events. -/
theorem perform_run (ops : List EngineOp) (op : EngineOp)
    (hevents : (op.perform b config (run b config ops r)).1.events = []) :
    op.perform b config (run b config ops r) =
      ({ outcome := (op.perform b config (run b config ops r)).1.outcome },
        run b config (ops ++ [op]) r) := by
  have hrun : run b config (ops ++ [op]) r = (op.perform b config (run b config ops r)).2 := by
    rw [run, run, List.foldl_append]
    rfl
  rw [hrun]
  generalize op.perform b config (run b config ops r) = a at hevents
  obtain ⟨⟨events, outcome⟩, r'⟩ := a
  obtain rfl : events = [] := hevents
  rfl

/-- The last operation of a run, with its reply. -/
theorem perform_run_ok {reply : Reply} (ops : List EngineOp) (op : EngineOp)
    (hreply : (op.perform b config (run b config ops r)).1.outcome.toOption = some reply)
    (hevents : (op.perform b config (run b config ops r)).1.events = []) :
    op.perform b config (run b config ops r) =
      ({ outcome := .ok reply }, run b config (ops ++ [op]) r) := by
  rw [perform_run ops op hevents]
  generalize (op.perform b config (run b config ops r)).1.outcome = o at hreply
  cases o <;> cases hreply
  rfl

/-- The last operation of a run, with its failure. -/
theorem perform_run_error {f : Failure} (ops : List EngineOp) (op : EngineOp)
    (hfailed : (op.perform b config (run b config ops r)).1.failure? = some f)
    (hevents : (op.perform b config (run b config ops r)).1.events = []) :
    op.perform b config (run b config ops r) =
      ({ outcome := .error f }, run b config (ops ++ [op]) r) := by
  rw [perform_run ops op hevents, Answer.failure?_eq_some.1 hfailed]

/-- An advance that yields an output and a report, collected and streamed. -/
theorem advance_collects :
    let b := Scripted.backend
    let program := Scripted.Program.script
      [.automatic .output [1], .automatic .report [2], .manual .accepted [3]]
    let r : Room Scripted.World := .opening 0 { world := .ofLedger [] [program] [] }
    let streamed := run b {} [.submit .advance (.bytes [5]) none, .session 0 .pull,
      .session 0 .pull, .session 0 .pull] r
    Collects .advance r [.output [1], .report [2]] (.ok ()) streamed
      ((submit .advance (.bytes [5]) (some true)).perform b {} r) := by
  intro b program r streamed
  have willing {r : Room Scripted.World} {k : Nat}
      (hs : r.session? 0 = some { kind := .advance, payload := [5], phase := .running 1 })
      (hk : k ≤ b.patience 1 r.world) : r.Willing b 0 k := by
    intro session w hn hw
    cases hs.symm.trans hn
    cases hw
    exact hk
  have hdrains : Drains b {} 0 (run b {} [.submit .advance (.bytes [5]) none] r)
      [.output [1], .report [2]] (.ok ()) streamed :=
    .delivered (perform_run_ok [_] (session 0 .pull) (by decide +kernel) (by decide +kernel))
      (willing (by decide +kernel) (by decide +kernel)) <|
    .delivered (perform_run_ok [_, _] (session 0 .pull) (by decide +kernel) (by decide +kernel))
      (willing (by decide +kernel) (by decide +kernel)) <|
    .last (o := .ok ())
      (perform_run_ok [_, _, _] (session 0 .pull) (by decide +kernel) (by decide +kernel))
      forall_failure_of_ok
  have hordinary : streamed.calls.all Exchange.ordinary = true := by decide +kernel
  have hstreams : Streams b {} .advance (.bytes [5]) none r _ _ streamed :=
    .drained (perform_run_ok [] _ (by decide +kernel) (by decide +kernel)) hdrains
  have hc : ({} : EngineConfig).collects (some true) = true := rfl
  have hc' : ({} : EngineConfig).collects none = false := rfl
  exact (submit_collects b {} hc hc' hstreams (List.all_eq_true.1 hordinary)).1 nofun

/-- The first break of an advance has a reason that is too long. When the advance is collected, its
session is closed at once; when it is streamed, the session runs on, in an open transaction. -/
theorem streamed_runs_on :
    let b := Scripted.backend
    let long : Int := Numeral.limit
    let r : Room Scripted.World :=
      .opening 0 { world := .ofLedger [] [.script [.breakWith long .absent]] [] }
    let streamed := run b {} [.submit .advance (.bytes [5]) none, .session 0 .pull] r
    let collected := (submit .advance (.bytes [5]) (some true)).perform b {} r
    Streams b {} .advance (.bytes [5]) none r [] (.error .unwritable) streamed ∧
      (∀ x ∈ streamed.calls, x.ordinary = true) ∧
      streamed.controller.inTransaction = true ∧
      collected.2.controller.inTransaction = false ∧
      ¬ Collects .advance r [] (.error .unwritable) streamed collected := by
  intro b long r streamed collected
  let submitted := run b {} [.submit .advance (.bytes [5]) none] r
  have hfailed : (((session 0 .pull).perform b {} submitted).1.failure?.any
      Failure.ordinary) = true := by decide +kernel
  obtain ⟨f, hf, hord⟩ := (Option.any_eq_true _ _).1 hfailed
  have hpull := perform_run_error [.submit .advance (.bytes [5]) none] (session 0 .pull) hf
    (by decide +kernel)
  have hdrains : Drains b {} 0 submitted [] (.error f) streamed := by
    refine .last (o := .error f) hpull ?_
    rintro _ ⟨⟩ hstalled
    rw [Failure.ordinary, hstalled] at hord
    cases hord
  have hordinary : streamed.calls.all Exchange.ordinary = true := by decide +kernel
  have hstreamed : streamed.controller.inTransaction = true := by decide +kernel
  have hcollected : collected.2.controller.inTransaction = false := by decide +kernel
  -- The session runs on, so its failure is the one that leaves it running.
  obtain rfl : f = .unwritable := by
    have hopened : submitted.session? 0 = some { kind := .advance, payload := [5] } := by
      decide +kernel
    obtain ⟨t, hseat, hdesk, ht⟩ := hdrains.seat hopened
    have hphase : streamed.session? 0 =
        some { kind := .advance, payload := [5], phase := .running 1 } := by decide +kernel
    refine Classical.byContradiction fun hne => ?_
    have hrests := (hseat.rests rfl (fun x hx => List.all_eq_true.1 hordinary x
      (hdesk ▸ List.mem_of_mem_drop hx))).1 (fun h => hne (Except.error.inj h))
    rw [Option.some_inj.1 (ht.symm.trans hphase)] at hrests
    rcases hrests with h | h <;> cases h
  refine ⟨.drained (perform_run_ok [] _ (by decide +kernel) (by decide +kernel)) hdrains,
    List.all_eq_true.1 hordinary, hstreamed, hcollected, fun h => ?_⟩
  rw [h.desk, hstreamed] at hcollected
  cases hcollected

end EngineOp

end RollupEngine

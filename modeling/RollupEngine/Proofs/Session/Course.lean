import RollupEngine.Proofs.Session.Path

/-!
# The course of an operation on a session

An operation on a session makes moves until one of them fails, or the host loses its patience, and
it may close the session at the end. `Seat.Course` says so, with the failure that comes of it: the
close has the last word, and what failed before it is raised unless the close fails itself.
`SessionOp.course` says that every operation takes a course and what it answers then, and
`SessionOp.path` that every operation is a path.
-/

namespace RollupEngine

variable {W α β : Type}

/-- The failure of an outcome. -/
def failed? : Except Failure α → Option Failure
  | .ok _ => none
  | .error f => some f

theorem failures_eq (o : Except Failure α) : failures o = (failed? o).toList := by
  cases o <;> rfl

namespace Seat

/-! ## Courses -/

/-- What an operation does to a session, with the calls and the notices on the way and the failure
that comes of it. -/
inductive Course (b : Backend W) :
    Seat W → List Exchange → List Notice → Option Failure → Seat W → Prop
  | rest (s : Seat W) : Course b s [] [] none s
  /-- The host loses its patience. -/
  | stalled {s : Seat W} (h : s.session.phase.done = false) :
    Course b s [] [] (some { error := .stalled }) s
  | failed {s s' : Seat W} {xs : List Exchange} {ns : List Notice} {f : Failure}
      (h : Move b s xs ns [f] s') : Course b s xs ns (some f) s'
  | step {s s' s'' : Seat W} {xs ys : List Exchange} {ns ms : List Notice} {told : Option Failure}
      (head : Move b s xs ns [] s') (tail : Course b s' ys ms told s'') :
    Course b s (xs ++ ys) (ns ++ ms) told s''
  | closed {s s' s'' : Seat W} {xs ys : List Exchange} {ns ms : List Notice}
      {told : Option Failure} {o : Except Failure Unit} (body : Course b s xs ns told s')
      (h : s'.session.Closes s'.controller ys ms o s''.controller s''.session.phase)
      (last : Move b s' ys ms (failures o) s'') :
    Course b s (xs ++ ys) (ns ++ ms) ((failed? o).or told) s''

/-- A failure that was met on the way, or the host's loss of patience. -/
def Blamed (fs : List Failure) (f : Failure) : Prop :=
  f ∈ fs ∨ f.error = .stalled

theorem Blamed.only (f : Failure) : Blamed [f] f :=
  .inl (List.mem_singleton.2 rfl)

namespace Course

variable {b : Backend W} {s s' s'' : Seat W} {xs ys : List Exchange} {ns ms : List Notice}
  {told : Option Failure} {f : Failure}

theorem single {o : Except Failure α} (h : Move b s xs ns (failures o) s') :
    Course b s xs ns (failed? o) s' := by
  cases o with
  | error f => exact .failed h
  | ok _ =>
    have hstep := Course.step h (.rest s')
    rwa [List.append_nil, List.append_nil] at hstep

theorem trans (h : Course b s xs ns none s') (h' : Course b s' ys ms told s'') :
    Course b s (xs ++ ys) (ns ++ ms) told s'' := by
  generalize hn : (none : Option Failure) = n at h
  induction h generalizing ys ms with
  | rest => exact h'
  | stalled | failed => cases hn
  | step head _ ih =>
    rw [List.append_assoc, List.append_assoc]
    exact .step head (ih h' hn)
  | @closed _ _ _ _ _ _ _ _ o _ _ last ih =>
    rw [List.append_assoc, List.append_assoc]
    cases o with
    | error => cases hn
    | ok _ => exact ih (.step last h') hn

/-- A course is a path, on which the failure was met that comes of it. -/
theorem path (h : Course b s xs ns told s') :
    ∃ fs, Path b s xs ns fs s' ∧ ∀ f, told = some f → Blamed fs f := by
  induction h with
  | rest s => exact ⟨[], .refl s, nofun⟩
  | @stalled s _ =>
    refine ⟨[], .refl s, ?_⟩
    rintro f ⟨⟩
    exact .inr rfl
  | failed h =>
    refine ⟨_, .single h, ?_⟩
    rintro _ ⟨⟩
    exact .only _
  | step head _ ih =>
    obtain ⟨fs, hpath, hblame⟩ := ih
    exact ⟨fs, .step head hpath, hblame⟩
  | @closed _ _ _ _ _ _ _ told o _ _ last ih =>
    obtain ⟨fs, hpath, hblame⟩ := ih
    refine ⟨fs ++ failures o, hpath.trans (.single last), ?_⟩
    cases o with
    | ok _ =>
      rw [failures, List.append_nil]
      exact hblame
    | error g =>
      rintro f ⟨⟩
      exact .inl (List.mem_append_right _ (List.mem_singleton.2 rfl))

/-- Nothing comes of an operation on a session that is over. -/
theorem of_done (h : Course b s xs ns told s') (hs : s.session.phase.done = true) :
    told = none ∧ xs = [] ∧ ns = [] ∧ s'.controller = s.controller ∧
      s'.session.phase = s.session.phase := by
  obtain ⟨fs, hpath, -⟩ := h.path
  obtain ⟨hxs, hns, -, hc, hp⟩ := hpath.of_done hs
  refine ⟨?_, hxs, hns, hc, hp⟩
  clear hxs hns hc hp hpath
  induction h with
  | rest => rfl
  | stalled hd => cases hd.symm.trans hs
  | failed h => cases (h.moves.of_done hs).2.2.1
  | step head _ ih => exact ih (by rw [(head.moves.of_done hs).2.2.2.2, hs])
  | closed body _ last ih =>
    obtain ⟨fs, hpath, -⟩ := body.path
    have hover := (last.moves.of_done (by rw [(hpath.of_done hs).2.2.2.2, hs])).2.2.1
    rw [failures_eq, Option.toList_eq_nil_iff] at hover
    rw [hover, ih hs]
    rfl

end Course

/-! ## Operations that take a course -/

/-- Run on `s`, an operation takes a course to `s'` and ends with `o`. -/
structure Walks (b : Backend W) (act : Act (Seat W) α) (s : Seat W) (xs : List Exchange)
    (ns : List Notice) (told : Option Failure) (o : Except Failure α) (s' : Seat W) : Prop where
  run : act.run s = Act.result o s'
  course : Course b s xs ns told s'

namespace Walks

variable {b : Backend W} {act : Act (Seat W) α} {next : α → Act (Seat W) β} {s s' s'' : Seat W}
  {xs ys : List Exchange} {ns ms : List Notice} {told : Option Failure} {o : Except Failure α}
  {p : Except Failure β} {a : α} {f : Failure}

theorem move (h : act.Runs b site s xs ns o s')
    (hm : s.session.Moves s.controller xs ns (failures o) s'.controller s'.session.phase)
    (hs : s'.session = s.session.inPhase s'.session.phase) :
    Walks b act s xs ns (failed? o) o s' :=
  ⟨h.run, .single ⟨hm, h.follows, hs⟩⟩

theorem bind (h : Walks b act s xs ns none (.ok a) s')
    (h' : Walks b (next a) s' ys ms told p s'') :
    Walks b (act >>= next) s (xs ++ ys) (ns ++ ms) told p s'' where
  run := by
    rw [EStateM.run_bind, h.run]
    exact h'.run
  course := h.course.trans h'.course

/-- What follows and does nothing leaves the course as it is. -/
theorem bind_silent (h : Walks b act s xs ns told (.ok a) s')
    (h' : (next a).run s' = Act.result p s') : Walks b (act >>= next) s xs ns told p s' where
  run := by
    rw [EStateM.run_bind, h.run]
    exact h'
  course := h.course

theorem bind_error (h : Walks b act s xs ns told (.error f) s') :
    Walks b (act >>= next) s xs ns told (.error f) s' where
  run := by
    rw [EStateM.run_bind, h.run]
    rfl
  course := h.course

theorem get_bind {next : Seat W → Act (Seat W) β} (h : Walks b (next s) s xs ns told p s') :
    Walks b (get >>= next) s xs ns told p s' :=
  ⟨h.run, h.course⟩

theorem of_run_eq {act' : Act (Seat W) α} (h : Walks b act' s xs ns told o s')
    (hrun : act.run s = act'.run s) : Walks b act s xs ns told o s' :=
  ⟨hrun.trans h.run, h.course⟩

theorem attempt (h : Walks b act s xs ns told o s') :
    Walks b (Act.attempt act) s xs ns told (.ok o) s' where
  run := Act.run_attempt_of_run h.run
  course := h.course

end Walks

/-! ## Pulling -/

/-- A session goes on after it delivered an event. -/
def Goes (o : Except Failure (Option StreamEvent)) (s : Seat W) : Prop :=
  ∀ event, o = .ok (some event) → s.session.phase.done = false

theorem turns_walks (b : Backend W) (w : Handle) (n : Nat) {s : Seat W}
    (hs : s.session.phase = .running w) :
    ∃ xs ns o s', Walks b (turns b w n) s xs ns (failed? o) o s' ∧ Goes o s' := by
  induction n generalizing s with
  | zero => exact ⟨_, _, .error { error := .stalled }, s, ⟨rfl, .stalled (by rw [hs]; rfl)⟩, nofun⟩
  | succ n ih =>
    obtain ⟨xs, ns, o, s', hrun, ht, hs'⟩ := turn_cases b hs
    have hturn := Walks.move hrun (.turn hs ht) hs'
    cases o with
    | error f => exact ⟨_, _, .error f, s', hturn.bind_error, nofun⟩
    | ok t =>
      cases t with
      | delivered event =>
        have hgoes : s'.session.phase.done = false := by
          rw [ht.running_of_delivered rfl]
          rfl
        exact ⟨_, _, .ok (some event), s', hturn.bind_silent rfl, fun _ _ => hgoes⟩
      | «over» => exact ⟨_, _, .ok none, s', hturn.bind_silent rfl, nofun⟩
      | ignored =>
        obtain ⟨ys, ms, o, s'', hrest, hgoes⟩ := ih (ht.running_of_ignored rfl)
        exact ⟨_, _, o, s'', hturn.bind hrest, hgoes⟩

theorem advance_walks (b : Backend W) {w : Handle} {s : Seat W}
    (hs : s.session.phase = .running w) :
    ∃ xs ns o s', Walks b (advance b w) s xs ns (failed? o) o s' ∧ Goes o s' := by
  obtain ⟨xs, ns, o, s', h, hgoes⟩ := turns_walks b w (b.patience w s.world) hs
  exact ⟨xs, ns, o, s', .get_bind h, hgoes⟩

theorem run_pull_start (b : Backend W) {s : Seat W} (hp : s.session.phase = .start) :
    (pull b).run s = (start b >>= advance b).run s := by
  simp only [pull, EStateM.run_bind, EStateM.run_get, hp]

theorem run_pull_running (b : Backend W) {s : Seat W} {w : Handle}
    (hp : s.session.phase = .running w) : (pull b).run s = (advance b w).run s := by
  simp only [pull, EStateM.run_bind, EStateM.run_get, hp]

/-- A session that is over delivers nothing and does nothing. -/
theorem run_pull_over (b : Backend W) {s : Seat W} (hp : s.session.phase.done = true) :
    (pull b).run s = .ok none s := by
  cases h : s.session.phase with
  | start | running => simp [h, Phase.done] at hp
  | accepted | rejected | fatal | cancelled =>
    simp only [pull, EStateM.run_bind, EStateM.run_get, h]
    rfl

theorem pull_walks (b : Backend W) (s : Seat W) :
    ∃ xs ns o s', Walks b (pull b) s xs ns (failed? o) o s' ∧ Goes o s' := by
  cases hp : s.session.phase with
  | start =>
    obtain ⟨xs, ns, o, s', hrun, hstart, hs'⟩ := start_cases b hp
    have hwalk := Walks.move hrun (.start hp hstart) hs'
    cases o with
    | error f =>
      exact ⟨_, _, .error f, s', hwalk.bind_error.of_run_eq (run_pull_start b hp), nofun⟩
    | ok w =>
      obtain ⟨ys, ms, o, s'', hrest, hgoes⟩ := advance_walks b (hstart.running_of_ok rfl)
      exact ⟨_, _, o, s'', (hwalk.bind hrest).of_run_eq (run_pull_start b hp), hgoes⟩
  | running w =>
    obtain ⟨xs, ns, o, s', h, hgoes⟩ := advance_walks b hp
    exact ⟨xs, ns, o, s', h.of_run_eq (run_pull_running b hp), hgoes⟩
  | accepted _ | rejected | fatal | cancelled =>
    have hover := run_pull_over b (s := s) (by rw [hp]; rfl)
    exact ⟨_, _, .ok none, s, ⟨hover, .rest s⟩, nofun⟩

/-! ## Draining -/

theorem loop_walks (b : Backend W) {spent : DrainEnd} (n : Nat) {s : Seat W}
    (hspent : spent = .stopped ∨
      spent = .failed { error := .stalled } ∧ s.session.phase.done = false) :
    ∃ xs ns d s', Walks b (loop b spent n) s xs ns d.failure? (.ok d) s' := by
  induction n generalizing s with
  | zero =>
    refine ⟨[], [], ⟨[], spent⟩, s, rfl, ?_⟩
    rcases hspent with rfl | ⟨rfl, hs⟩
    · exact .rest s
    · exact .stalled hs
  | succ n ih =>
    obtain ⟨xs, ns, o, s', hpull, hgoes⟩ := pull_walks b s
    unfold loop
    rcases o with f | _ | event
    · exact ⟨_, _, ⟨[], .failed f⟩, s', hpull.attempt.bind_silent rfl⟩
    · exact ⟨_, _, ⟨[], .exhausted⟩, s', hpull.attempt.bind_silent rfl⟩
    · obtain ⟨ys, ms, d, s'', hrest⟩ := ih (hspent.imp_right fun h => ⟨h.1, hgoes event rfl⟩)
      exact ⟨_, _, { d with events := event :: d.events }, s'',
        hpull.attempt.bind (hrest.bind_silent rfl)⟩

/-- How often a drain pulls at most after the first event. -/
def budget (b : Backend W) (s : Seat W) : Nat :=
  match s.session.phase with
  | .running working => b.patience working s.world
  | _ => 0

theorem drain_walks (b : Backend W) (s : Seat W) :
    ∃ xs ns d s', Walks b (drain b) s xs ns d.failure? (.ok d) s' := by
  obtain ⟨xs, ns, o, s', hpull, hgoes⟩ := pull_walks b s
  unfold drain
  rcases o with f | _ | event
  · exact ⟨_, _, ⟨[], .failed f⟩, s', hpull.attempt.bind_silent rfl⟩
  · exact ⟨_, _, ⟨[], .exhausted⟩, s', hpull.attempt.bind_silent rfl⟩
  · obtain ⟨ys, ms, d, s'', hrest⟩ := loop_walks b (budget b s') (.inr ⟨rfl, hgoes event rfl⟩)
    exact ⟨_, _, { d with events := event :: d.events }, s'',
      hpull.attempt.bind (.get_bind (hrest.bind_silent rfl))⟩

theorem take_walks (b : Backend W) (limit : Option Nat) (s : Seat W) :
    ∃ xs ns d s', Walks b (take b limit) s xs ns d.failure? (.ok d) s' := by
  cases limit with
  | none => exact drain_walks b s
  | some n => exact loop_walks b n (.inl rfl)

/-! ## Closing -/

theorem close_walks (b : Backend W) (s : Seat W) :
    ∃ xs ns o s', Walks b (close b) s xs ns (failed? o) o s' ∧
      s'.session.phase.working? = none := by
  obtain ⟨xs, ns, o, s', hrun, hclose, hs'⟩ := close_cases b s
  exact ⟨xs, ns, o, s', .move hrun (.close hclose) hs', hclose.working?_eq_none⟩

/-- What is done after the close of a session that nobody holds. -/
def mourn : Except Failure Unit → Act (Seat W) Unit
  | .error f => if f.ordinary then note .cancelFailed else pure ()
  | .ok _ => pure ()

theorem runs_mourn (b : Backend W) (o : Except Failure Unit) (s : Seat W) :
    ∃ s', (mourn o).Runs b site s [] (lament o) (.ok ()) s' ∧ s'.controller = s.controller ∧
      s'.session = s.session := by
  cases o with
  | ok _ => exact ⟨s, .pure () s, rfl, rfl⟩
  | error f =>
    cases hf : f.ordinary with
    | true =>
      simp only [mourn, lament, hf, if_true]
      exact ⟨_, runs_note .cancelFailed s, rfl, rfl⟩
    | false =>
      simp only [mourn, lament, hf, Bool.false_eq_true, if_false]
      exact ⟨s, .pure () s, rfl, rfl⟩

theorem run_abandon_running (b : Backend W) {s : Seat W} {w : Handle}
    (hp : s.session.phase = .running w) :
    (abandon b).run s = (Act.attempt (close b) >>= mourn).run s := by
  simp only [abandon, EStateM.run_bind, EStateM.run_get, hp]
  rfl

/-- A session that does not run is let go without further ado. -/
theorem run_abandon (b : Backend W) {s : Seat W} (hp : s.session.phase.working? = none) :
    (abandon b).run s = .ok () s := by
  cases h : s.session.phase with
  | running => simp [h, Phase.working?] at hp
  | start | accepted | rejected | fatal | cancelled =>
    simp only [abandon, EStateM.run_bind, EStateM.run_get, h]
    rfl

/-- Letting go of a session raises nothing, whatever comes of it, and only releases machines. -/
theorem abandon_cases (b : Backend W) (s : Seat W) :
    ∃ xs ns told s', (abandon b).run s = .ok () s' ∧ Course b s xs ns told s' ∧
      s'.session.phase.working? = none ∧ ∀ x ∈ xs, ∃ m reply, x = .shutdown m reply := by
  cases hp : s.session.phase.working? with
  | none => exact ⟨_, _, _, s, run_abandon b hp, .rest s, hp, List.forall_mem_nil _⟩
  | some w =>
    have hp : s.session.phase = .running w := by
      cases h : s.session.phase <;> simp_all [Phase.working?]
    obtain ⟨xs, ns, o, s', hrun, hclose, hs'⟩ := close_cases b s
    obtain ⟨s'', hmourn, hc, hs''⟩ := runs_mourn b o s'
    have hall := hrun.attempt.bind hmourn
    rw [List.append_nil] at hall
    refine ⟨_, _, failed? o, s'', (run_abandon_running b hp).trans hall.run,
      .single ⟨?_, hall.follows, ?_⟩, ?_, fun x hx => hclose.mem hx⟩
    · rw [hc, hs'']
      exact .abandon hclose
    · rw [hs'', hs']
      rfl
    · rw [hs'']
      exact hclose.working?_eq_none

/-- How a loop ends in whose scope an error is raised. -/
def raisedIn (raising : Option Error) (d : Drain) : Drain :=
  match d.ending, raising with
  | .failed _, _ | _, none => d
  | _, some e => { d with ending := .failed { error := e } }

theorem failure?_raisedIn (raising : Option Error) (d : Drain) :
    (raisedIn raising d).failure? = d.failure?.or (raising.map fun e => { error := e }) := by
  obtain ⟨events, ending⟩ := d
  cases ending <;> cases raising <;> rfl

/-- In a scope, the close has the last word. -/
theorem scope_walks (b : Backend W) (limit : Option Nat) (raising : Option Error) (s : Seat W) :
    ∃ xs ns told d s', Walks b (scope b limit raising) s xs ns told (.ok d) s' ∧
      s'.session.phase.working? = none ∧
      d.failure? = told.or (raising.map fun e => { error := e }) := by
  obtain ⟨xs, ns, d, s', htake⟩ := take_walks b limit s
  obtain ⟨ys, ms, o, s'', hrun, hclose, hs''⟩ := close_cases b s'
  have hcourse := Course.closed htake.course hclose ⟨.close hclose, hrun.follows, hs''⟩
  have hclosed : (Act.attempt (close b)).run s' = .ok o s'' := hrun.attempt.run
  unfold scope
  cases o with
  | error f =>
    refine ⟨_, _, _, { raisedIn raising d with ending := .failed f }, s'', ⟨?_, hcourse⟩,
      hclose.working?_eq_none, rfl⟩
    rw [EStateM.run_bind, htake.run]
    dsimp only [Act.result]
    rw [EStateM.run_bind, hclosed]
    rfl
  | ok _ =>
    refine ⟨_, _, _, raisedIn raising d, s'', ⟨?_, hcourse⟩, hclose.working?_eq_none,
      failure?_raisedIn raising d⟩
    rw [EStateM.run_bind, htake.run]
    dsimp only [Act.result]
    rw [EStateM.run_bind, hclosed]
    rfl

/-- Collecting raises what its scope comes to. -/
theorem collect_walks (b : Backend W) (kind : InputKind) (s : Seat W) :
    ∃ xs ns o s', Walks b (collect b kind) s xs ns (failed? o) o s' ∧
      s'.session.phase.working? = none := by
  obtain ⟨xs, ns, told, d, s', hscope, hs', hfailure⟩ := scope_walks b none none s
  rw [Option.map_none, Option.or_none] at hfailure
  rw [← hfailure] at hscope
  unfold collect
  obtain ⟨events, ending⟩ := d
  cases ending with
  | failed f => exact ⟨_, _, .error f, s', hscope.bind_silent rfl, hs'⟩
  | exhausted | stopped =>
    exact ⟨_, _, .ok (.gather kind events (s'.session.phase.result?.getD [])), s',
      hscope.bind_silent rfl, hs'⟩

end Seat

/-! ## Operations -/

namespace Answer

variable {σ : Type}

theorem reply_of_run {act : Act σ Reply} {s s' : σ} {o : Except Failure Reply}
    (h : act.run s = Act.result o s') : reply act s = ({ outcome := o }, s') := by
  rw [reply, show act s = Act.result o s' from h]
  cases o <;> rfl

theorem drain_of_run {act : Act σ Drain} {s s' : σ} {d : Drain}
    (h : act.run s = Act.result (.ok d) s') : drain act s = (ofDrain d, s') := by
  rw [drain, show act s = .ok d s' from h]

theorem failure?_eq_some {a : Answer} {f : Failure} :
    a.failure? = some f ↔ a.outcome = .error f := by
  unfold failure?
  cases a.outcome <;> simp

theorem failure?_ofDrain (d : Drain) : (ofDrain d).failure? = d.failure? := by
  unfold ofDrain failure? Drain.failure?
  cases d.ending <;> rfl

end Answer

namespace SessionOp

variable {b : Backend W} {s s' : Seat W}

/-- The error that an operation was asked to raise. -/
def raises? : SessionOp → Option Error
  | .scope _ raising => raising
  | _ => none

/-- The failure that an operation answers with: what comes of its course, or else what it was asked
to raise. Nobody is told of what comes of letting go of a session. -/
def answers (op : SessionOp) (told : Option Failure) : Option Failure :=
  if op.keeps then told.or (op.raises?.map fun e => { error := e }) else none

theorem perform_drop (h : (Seat.abandon b).run s = .ok () s') :
    perform b .drop s = ({ outcome := .ok .done }, s') := by
  refine Answer.reply_of_run (o := .ok .done) ?_
  rw [EStateM.run_bind, h]
  rfl

/-- Every operation takes a course. -/
theorem course (b : Backend W) (op : SessionOp) (s : Seat W) :
    ∃ xs ns told, Seat.Course b s xs ns told (op.perform b s).2 ∧
      (op.perform b s).1.failure? = op.answers told := by
  have replied {act : Act (Seat W) Reply} {xs : List Exchange} {ns : List Notice}
      {o : Except Failure Reply} {s' : Seat W} (h : Seat.Walks b act s xs ns (failed? o) o s') :
      ∃ xs ns told, Seat.Course b s xs ns told (Answer.reply act s).2 ∧
        (Answer.reply act s).1.failure? = told.or none := by
    rw [Answer.reply_of_run h.run]
    refine ⟨xs, ns, _, h.course, ?_⟩
    cases o <;> rfl
  have looped {act : Act (Seat W) Drain} {xs : List Exchange} {ns : List Notice}
      {told : Option Failure} {d : Drain} {s' : Seat W} {e? : Option Failure}
      (h : Seat.Walks b act s xs ns told (.ok d) s') (hd : d.failure? = told.or e?) :
      ∃ xs ns told, Seat.Course b s xs ns told (Answer.drain act s).2 ∧
        (Answer.drain act s).1.failure? = told.or e? := by
    rw [Answer.drain_of_run h.run]
    exact ⟨xs, ns, told, h.course, (Answer.failure?_ofDrain d).trans hd⟩
  cases op with
  | pull =>
    obtain ⟨xs, ns, o, s', hwalk, -⟩ := Seat.pull_walks b s
    cases o with
    | error f => exact replied (o := .error f) hwalk.bind_error
    | ok event => exact replied (o := .ok (.event event)) (hwalk.bind_silent rfl)
  | next =>
    obtain ⟨xs, ns, o, s', hwalk, -⟩ := Seat.pull_walks b s
    rcases o with f | _ | event
    · exact replied (o := .error f) hwalk.bind_error
    · exact replied (o := .ok .stop) (hwalk.bind_silent rfl)
    · exact replied (o := .ok (.event event)) (hwalk.bind_silent rfl)
  | take limit =>
    obtain ⟨xs, ns, d, s', hwalk⟩ := Seat.take_walks b limit s
    exact looped hwalk (Option.or_none).symm
  | scope limit raising =>
    obtain ⟨xs, ns, told, d, s', hwalk, -, hd⟩ := Seat.scope_walks b limit raising s
    exact looped hwalk hd
  | close =>
    obtain ⟨xs, ns, o, s', hwalk, -⟩ := Seat.close_walks b s
    cases o with
    | error f => exact replied (o := .error f) hwalk.bind_error
    | ok _ => exact replied (o := .ok .done) (hwalk.bind_silent rfl)
  | drop =>
    obtain ⟨xs, ns, told, s', hrun, hcourse, -⟩ := Seat.abandon_cases b s
    rw [perform_drop hrun]
    exact ⟨xs, ns, told, hcourse, rfl⟩
  | collect kind =>
    obtain ⟨xs, ns, o, s', hwalk, -⟩ := Seat.collect_walks b kind s
    cases o with
    | error f => exact replied (o := .error f) hwalk.bind_error
    | ok r => exact replied (o := .ok (.collected r)) (hwalk.bind_silent rfl)

/-- Every operation on a session is a path of moves. -/
theorem path (b : Backend W) (op : SessionOp) (s : Seat W) :
    ∃ xs ns fs, Seat.Path b s xs ns fs (op.perform b s).2 ∧
      ∀ f, (op.perform b s).1.failure? = some f →
        Seat.Blamed fs f ∨ op.raises? = some f.error := by
  obtain ⟨xs, ns, told, hcourse, hanswer⟩ := course b op s
  obtain ⟨fs, hpath, hblame⟩ := hcourse.path
  refine ⟨xs, ns, fs, hpath, fun f hf => ?_⟩
  rw [hanswer, answers] at hf
  split at hf
  · rcases Option.or_eq_some_iff.1 hf with hf | ⟨-, hf⟩
    · exact .inl (hblame f hf)
    · obtain ⟨e, he, rfl⟩ := Option.map_eq_some_iff.1 hf
      exact .inr he
  · cases hf

theorem final_collect {kind : InputKind} {o : Except Failure Collected}
    (h : (Seat.collect b kind).run s = Act.result o s') :
    (perform b (.collect kind) s).2 = s' := by
  have hrun : EStateM.run (do return .collected (← Seat.collect b kind) : Act (Seat W) Reply) s =
      Act.result (o.map .collected) s' := by
    rw [EStateM.run_bind, h]
    cases o <;> rfl
  rw [show perform b (.collect kind) s = _ from Answer.reply_of_run hrun]

/-- A session that is let go runs no longer. -/
theorem working?_eq_none_of_not_keeps (b : Backend W) {op : SessionOp} (hop : op.keeps = false)
    (s : Seat W) : (op.perform b s).2.session.phase.working? = none := by
  cases op with
  | drop =>
    obtain ⟨_, _, _, s', hrun, -, hs', -⟩ := Seat.abandon_cases b s
    rw [perform_drop hrun]
    exact hs'
  | pull | next | take | scope | close | collect => simp [keeps] at hop

end SessionOp

end RollupEngine

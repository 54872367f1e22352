import RollupEngine.Engine
import RollupEngine.Proofs.Session.Course

/-!
# What an engine does

`EngineOp.Does` says all that an operation on an engine does to its room: it is refused, makes a
session, walks a session along a path, saves the machine, or shuts it down. `EngineOp.does` says
that every operation does one of these, for every backend, and `EngineOp.run_record` carries what
every operation keeps along a run. A run begins in the room of an engine that was just made
(`Room.opening`). Both `Engine.wrap` and `Engine.ofStore` make an engine with this room
(`Engine.room_around`).
-/

namespace RollupEngine

variable {W : Type}

/-! ## Rooms of new engines -/

/-- The room of an engine that was just made around a machine. -/
def Room.opening (machine : Handle) (s : Site W) : Room W where
  toSite := s
  controller := { canonical := machine }

/-- The engine that is made around a machine. -/
def Engine.around (config : EngineConfig) (machine : Handle) : Engine where
  config := config
  controller := { canonical := machine }

theorem Engine.room_around (config : EngineConfig) (machine : Handle) (s : Site W) :
    (around config machine).room s = .opening machine s := rfl

theorem Engine.run_wrap (machine : Handle) (config : Option EngineConfig) (s : Site W) :
    ∃ ns, (wrap machine config).run s =
      .ok (around (config.getD {}) machine) { s with notices := s.notices ++ ns } := by
  unfold wrap
  dsimp only
  split
  · refine ⟨[.directEngine], ?_⟩
    rw [EStateM.run_bind, Site.run_note]
    rfl
  · refine ⟨[], ?_⟩
    rw [List.append_nil]
    rfl

/-- Where the machine of an engine is loaded from. -/
def Engine.origin (path : String) (remote : Option RemoteConfig)
    (runtime : Option MachineSettings) : Origin where
  path
  address := (remote.getD {}).address
  timeout := (remote.getD {}).timeout
  settings := runtime.map MachineSettings.toMapping

/-- Loading is a single call. If it returns a machine, an engine is made around it. -/
theorem Engine.run_ofStore {b : Backend W} {path : String} (config : Option EngineConfig)
    (remote : Option RemoteConfig) (runtime : Option MachineSettings) {s : Site W}
    {reply : Except Error Handle} {w : W}
    (h : b.load (origin path remote runtime) s.world = (reply, w)) :
    ∃ s', (ofStore b path config remote runtime).run s =
        Act.result ((Site.raised reply).map (around (config.getD {}))) s' ∧
      s'.world = w ∧ s'.calls = s.calls ++ [.load (origin path remote runtime) reply] := by
  unfold origin at h ⊢
  unfold ofStore
  dsimp only
  rw [EStateM.run_bind, Site.run_note]
  dsimp only
  rw [EStateM.run_bind, Backend.callLoad, Site.run_call]
  dsimp only
  rw [h]
  cases reply with
  | ok machine =>
    obtain ⟨ns, hwrap⟩ := run_wrap machine config _
    refine ⟨_, hwrap, ?_⟩
    rw [Site.after, h]
    exact ⟨rfl, rfl⟩
  | error e =>
    refine ⟨_, rfl, ?_⟩
    rw [Site.after, h]
    exact ⟨rfl, rfl⟩

/-! ## Operations -/

/-- An operation of the controller, answered. -/
theorem Room.reply_onDesk {α : Type} {b : Backend W} {act : Act (Desk W) α} {r : Room W}
    {d : Desk W} {xs : List Exchange} {ns : List Notice} {o : Except Failure α}
    (h : act.Runs b Desk.toSite r.toDesk xs ns o d) (reply : α → Reply) :
    Answer.reply (do return reply (← Room.onDesk act)) r =
      ({ outcome := o.map reply }, { r with toDesk := d }) := by
  refine Answer.reply_of_run ?_
  rw [EStateM.run_bind, Room.onDesk, Act.run_focus, h.run]
  cases o <;> rfl

theorem Controller.state_eq_idle_iff {c : Controller} : c.state = .idle ↔ c.Idle := by
  unfold state Idle inTransaction
  cases c.closed <;> cases c.transaction <;> simp

/-- The session that an input becomes. -/
def EngineConfig.session (config : EngineConfig) (kind : InputKind) (payload : Bytes) : Session :=
  { kind, payload, isolation := config.isolation }

namespace EngineOp

/-- The session that an operation works on, as it is before and after. -/
def acting? (b : Backend W) (config : EngineConfig) : EngineOp → Room W → Option (Session × Session)
  | .submit kind (.bytes payload) choice, r =>
    if !r.controller.closed && config.collects choice then
      let s := config.session kind payload
      some (s, (SessionOp.perform b (.collect kind) ⟨r.toDesk, s⟩).2.session)
    else none
  | .session number op, r =>
    (r.session? number).map fun s => (s, (op.perform b ⟨r.toDesk, s⟩).2.session)
  | _, _ => none

/-- All that an operation does to a room, with the calls, the notices and the failures on the
way. -/
inductive Does (b : Backend W) (config : EngineConfig) (r : Room W) :
    EngineOp → List Exchange → List Notice → List Failure → Room W → Prop
  /-- An input for a closed engine. -/
  | closed {kind : InputKind} {input : Submission} {choice : Option Bool}
      (h : r.controller.closed = true) :
    Does b config r (.submit kind input choice) [] [] [.ofKind .closed] r
  /-- An input that is no byte string. -/
  | notBytes {kind : InputKind} {typeName : String} {choice : Option Bool}
      (h : r.controller.closed = false) :
    Does b config r (.submit kind (.other typeName) choice) [] []
      [{ error := .notBytes kind typeName }] r
  /-- An input that becomes a session. -/
  | opened {kind : InputKind} {payload : Bytes} {choice : Option Bool}
      (h : r.controller.closed = false) (hc : config.collects choice = false) :
    Does b config r (.submit kind (.bytes payload) choice) [] [] []
      { r with sessions := r.sessions ++ [some (config.session kind payload)] }
  /-- An input that is run to its end. -/
  | collected {kind : InputKind} {payload : Bytes} {choice : Option Bool} {xs : List Exchange}
      {ns : List Notice} {fs : List Failure} {s : Seat W} (h : r.controller.closed = false)
      (hc : config.collects choice = true)
      (hact : acting? b config (.submit kind (.bytes payload) choice) r =
        some (config.session kind payload, s.session))
      (path : Seat.Path b ⟨r.toDesk, config.session kind payload⟩ xs ns fs s)
      (hs : s.session.phase.working? = none) :
    Does b config r (.submit kind (.bytes payload) choice) xs ns fs { r with toDesk := s.toDesk }
  /-- An operation on a session that is not there. -/
  | absent {number : Nat} {op : SessionOp} (h : r.session? number = none) :
    Does b config r (.session number op) [] [] [] r
  /-- An operation on a session. -/
  | walked {number : Nat} {op : SessionOp} {session : Session} {xs : List Exchange}
      {ns : List Notice} {fs : List Failure} {s : Seat W} (h : r.session? number = some session)
      (hact : acting? b config (.session number op) r = some (session, s.session))
      (path : Seat.Path b ⟨r.toDesk, session⟩ xs ns fs s)
      (hs : op.keeps = false → s.session.phase.working? = none) :
    Does b config r (.session number op) xs ns fs
      { toDesk := s.toDesk
        sessions := r.sessions.set number (if op.keeps then some s.session else none) }
  | stored {path : String} {xs : List Exchange} {ns : List Notice} {o : Except Failure Unit}
      {d : Desk W} (h : r.controller.Stores path xs ns o) (hd : d.controller = r.controller)
      (follows : r.toSite.Follows b xs ns d.toSite) :
    Does b config r (.store path) xs ns (failures o) { r with toDesk := d }
  | shutDown {xs : List Exchange} {ns : List Notice} {o : Except Failure Unit} {d : Desk W}
      (h : r.controller.ShutsDown xs ns o d.controller)
      (follows : r.toSite.Follows b xs ns d.toSite) :
    Does b config r .shutdown xs ns (failures o) { r with toDesk := d }

/-- The error that an operation was asked to raise. -/
def raises? : EngineOp → Option Error
  | .session _ op => op.raises?
  | _ => none

/-- A session that is collected where it is made. -/
theorem run_collected {b : Backend W} {session : Session} {r : Room W} {s : Seat W}
    {o : Except Failure Collected}
    (h : (Seat.collect b session.kind).run ⟨r.toDesk, session⟩ = Act.result o s) :
    EStateM.run (do return .collected (← Room.collectFresh b session) : Act (Room W) Reply) r =
      Act.result (o.map .collected) { r with toDesk := s.toDesk } := by
  rw [EStateM.run_bind, Room.collectFresh, Room.onDesk, Act.run_focus, Act.run_focus, h]
  cases o <;> rfl

section

variable (b : Backend W) (config : EngineConfig) (kind : InputKind) {r : Room W}

theorem run_submit_closed (input : Submission) (choice : Option Bool)
    (h : r.controller.closed = true) :
    (Room.submit b config kind input choice).run r = .error (.ofKind .closed) r := by
  simp only [Room.submit, EStateM.run_bind, EStateM.run_get, h]
  rfl

theorem run_submit_other (typeName : String) (choice : Option Bool)
    (h : r.controller.closed = false) :
    (Room.submit b config kind (.other typeName) choice).run r =
      .error { error := .notBytes kind typeName } r := by
  simp only [Room.submit, EStateM.run_bind, EStateM.run_get, h]
  rfl

/-- A byte string becomes a session, which is collected at once or handed out. -/
theorem run_submit_bytes (payload : Bytes) (choice : Option Bool)
    (h : r.controller.closed = false) :
    (Room.submit b config kind (.bytes payload) choice).run r =
      EStateM.run (if config.collects choice then do
          return .collected (← Room.collectFresh b (config.session kind payload))
        else Room.addSession (config.session kind payload) : Act (Room W) Reply) r := by
  simp only [Room.submit, EStateM.run_bind, EStateM.run_get, h]
  rfl

end

/-- An input that is not collected is handed out as a session, with the next number. -/
theorem perform_opened (b : Backend W) {config : EngineConfig} (kind : InputKind) (payload : Bytes)
    {choice : Option Bool} {r : Room W} (h : r.controller.closed = false)
    (hc : config.collects choice = false) :
    (submit kind (.bytes payload) choice).perform b config r =
      ({ outcome := .ok (.session r.sessions.length) },
        { r with sessions := r.sessions ++ [some (config.session kind payload)] }) := by
  have hrun := run_submit_bytes b config kind payload choice h
  rw [hc] at hrun
  exact Answer.reply_of_run (o := .ok (.session r.sessions.length)) hrun

/-- What is collected of an input is what its session collects, which is new. -/
theorem perform_collected (b : Backend W) {config : EngineConfig} {kind : InputKind}
    {payload : Bytes} {choice : Option Bool} {r : Room W} (h : r.controller.closed = false)
    (hc : config.collects choice = true) {o : Except Failure Collected} {s : Seat W}
    (hcollect : (Seat.collect b kind).run ⟨r.toDesk, config.session kind payload⟩ =
      Act.result o s) :
    (submit kind (.bytes payload) choice).perform b config r =
      ({ outcome := o.map .collected }, { r with toDesk := s.toDesk }) := by
  have hrun := run_submit_bytes b config kind payload choice h
  rw [hc] at hrun
  exact Answer.reply_of_run (hrun.trans (run_collected hcollect))

/-- An operation on a session is done where the session stands. -/
theorem perform_session (b : Backend W) (config : EngineConfig) {number : Nat} {session : Session}
    {r : Room W} (h : r.session? number = some session) (op : SessionOp) :
    (EngineOp.session number op).perform b config r =
      ((op.perform b ⟨r.toDesk, session⟩).1,
        { toDesk := (op.perform b ⟨r.toDesk, session⟩).2.toDesk
          sessions := r.sessions.set number
            (if op.keeps then some (op.perform b ⟨r.toDesk, session⟩).2.session else none) }) := by
  change Room.onSession b number op r = _
  rw [Room.onSession, h]

theorem perform_session_none (b : Backend W) (config : EngineConfig) {number : Nat} {r : Room W}
    (h : r.session? number = none) (op : SessionOp) :
    (EngineOp.session number op).perform b config r = ({ outcome := .ok .noSession }, r) := by
  change Room.onSession b number op r = _
  rw [Room.onSession, h]

theorem submit_does (b : Backend W) (config : EngineConfig) (kind : InputKind) (input : Submission)
    (choice : Option Bool) (r : Room W) :
    ∃ xs ns fs, Does b config r (.submit kind input choice) xs ns fs
        ((submit kind input choice).perform b config r).2 ∧
      ∀ f, ((submit kind input choice).perform b config r).1.failure? = some f →
        Seat.Blamed fs f := by
  have replied {xs : List Exchange} {ns : List Notice} {fs : List Failure}
      {o : Except Failure Reply} {r' : Room W}
      (hrun : (Room.submit b config kind input choice).run r = Act.result o r')
      (hdoes : Does b config r (.submit kind input choice) xs ns fs r')
      (hblame : ∀ f, o = .error f → Seat.Blamed fs f) :
      ∃ xs ns fs, Does b config r (.submit kind input choice) xs ns fs
          ((submit kind input choice).perform b config r).2 ∧
        ∀ f, ((submit kind input choice).perform b config r).1.failure? = some f →
          Seat.Blamed fs f := by
    rw [show perform b config (.submit kind input choice) r = _ from Answer.reply_of_run hrun]
    refine ⟨xs, ns, fs, hdoes, fun f hf => hblame f ?_⟩
    cases o <;> cases hf
    rfl
  cases hc : r.controller.closed with
  | true =>
    exact replied (o := .error _) (run_submit_closed b config kind input choice hc) (.closed hc)
      (by rintro f ⟨⟩; exact .only _)
  | false =>
    cases input with
    | other typeName =>
      exact replied (o := .error _) (run_submit_other b config kind typeName choice hc)
        (.notBytes hc) (by rintro f ⟨⟩; exact .only _)
    | bytes payload =>
      have hrun := run_submit_bytes b config kind payload choice hc
      cases hcollect : config.collects choice with
      | false =>
        rw [hcollect] at hrun
        exact replied (o := .ok (.session r.sessions.length)) hrun (.opened hc hcollect)
          forall_failure_of_ok
      | true =>
        rw [hcollect] at hrun
        obtain ⟨xs, ns, o, s, hwalk, hs⟩ :=
          Seat.collect_walks b kind ⟨r.toDesk, config.session kind payload⟩
        obtain ⟨fs, hpath, hblame⟩ := hwalk.course.path
        have hact : acting? b config (.submit kind (.bytes payload) choice) r =
            some (config.session kind payload, s.session) := by
          simp only [acting?, hc, hcollect, SessionOp.final_collect hwalk.run]
          rfl
        refine replied (o := o.map .collected) (hrun.trans (run_collected hwalk.run))
          (.collected hc hcollect hact hpath hs) fun f hf => hblame f ?_
        cases o <;> cases hf
        rfl

/-- Every operation does one of these, and fails with a failure that was met on the way, unless the
host lost patience or the operation was asked to raise it. -/
theorem does (b : Backend W) (config : EngineConfig) (op : EngineOp) (r : Room W) :
    ∃ xs ns fs, Does b config r op xs ns fs (op.perform b config r).2 ∧
      ∀ f, (op.perform b config r).1.failure? = some f →
        Seat.Blamed fs f ∨ op.raises? = some f.error := by
  cases op with
  | submit kind input choice =>
    obtain ⟨xs, ns, fs, hdoes, hblame⟩ := submit_does b config kind input choice r
    exact ⟨xs, ns, fs, hdoes, fun f hf => .inl (hblame f hf)⟩
  | store path =>
    obtain ⟨xs, ns, o, d, hrun, hstores, hd⟩ := Desk.store_cases b path r.toDesk
    rw [show perform b config (.store path) r = _ from Room.reply_onDesk hrun fun _ => .itself]
    refine ⟨xs, ns, failures o, .stored hstores hd hrun.follows, fun f hf => .inl ?_⟩
    cases o <;> cases hf
    exact .only f
  | shutdown =>
    obtain ⟨xs, ns, o, d, hrun, hdown⟩ := Desk.shutdown_cases b r.toDesk
    rw [show perform b config .shutdown r = _ from Room.reply_onDesk hrun fun _ => .done]
    refine ⟨xs, ns, failures o, .shutDown hdown hrun.follows, fun f hf => .inl ?_⟩
    cases o <;> cases hf
    exact .only f
  | session number op =>
    cases hs : r.session? number with
    | none =>
      rw [perform_session_none b config hs]
      exact ⟨[], [], [], .absent hs, by rintro f ⟨⟩⟩
    | some s =>
      obtain ⟨xs, ns, fs, hpath, hblame⟩ := op.path b ⟨r.toDesk, s⟩
      rw [perform_session b config hs]
      exact ⟨xs, ns, fs, .walked hs (by rw [acting?, hs]; rfl) hpath
        fun hop => op.working?_eq_none_of_not_keeps b hop _, hblame⟩

theorem Does.follows {b : Backend W} {config : EngineConfig} {op : EngineOp} {r r' : Room W}
    {xs : List Exchange} {ns : List Notice} {fs : List Failure}
    (h : Does b config r op xs ns fs r') : r.toSite.Follows b xs ns r'.toSite := by
  cases h with
  | closed | notBytes | opened | absent => exact .refl b r.toSite
  | collected _ _ _ path => exact path.follows
  | walked _ _ path => exact path.follows
  | stored _ _ follows => exact follows
  | shutDown _ follows => exact follows

/-! ## Runs -/

variable {b : Backend W} {config : EngineConfig}

@[simp]
theorem run_nil (r : Room W) : run b config [] r = r := rfl

/-- What every operation keeps, of a room and the calls that led to it, holds along a run. -/
theorem run_record {p : List Exchange → Room W → Prop}
    (step : ∀ {r op ys ns fs r'} xs, Does b config r op ys ns fs r' → p xs r → p (xs ++ ys) r')
    (ops : List EngineOp) {r : Room W} {xs : List Exchange} (h : p xs r) :
    ∃ ys ns, r.toSite.Follows b ys ns (run b config ops r).toSite ∧
      p (xs ++ ys) (run b config ops r) := by
  induction ops generalizing r xs with
  | nil => exact ⟨[], [], .refl b r.toSite, by simpa using h⟩
  | cons op ops ih =>
    obtain ⟨ys, ns, fs, hdoes, -⟩ := op.does b config r
    obtain ⟨zs, ms, hfollows, hp⟩ := ih (step xs hdoes h)
    exact ⟨ys ++ zs, ns ++ ms, hdoes.follows.trans hfollows, by rwa [← List.append_assoc]⟩

end EngineOp

end RollupEngine

import RollupEngine.Proofs.Transaction
import RollupEngine.Session.Operation

/-!
# What a session does

A session moves in three ways: it starts, it makes a turn, it is closed. Each is described once, by
a relation between the session and the controller it finds, the calls and notices it makes, how it
ends, and the controller and phase it leaves: `Session.Starts`, `Session.Turns` and
`Session.Closes`. `Seat.start_cases`, `Seat.turn_cases` and `Seat.close_cases` say that they do
nothing else, for every backend.

They share their endings: a turn that reads an ending event closes the transaction as that event
says (`Session.Ends`), and one whose machine fails rolls it back (`Session.Fails`).
-/

namespace RollupEngine

variable {W α : Type}

/-! ## What a session makes of a break -/

/-- What a session does with a reading: deliver it, pass over it with these notices, end, or refuse
to go on with it. -/
inductive Verdict where
  | deliver (event : StreamEvent)
  | pass (notices : List Notice)
  | stop (ending : Ending)
  | refuse

/-- An inspect shows no progress and may emit no output. -/
def InputKind.verdict (kind : InputKind) : Reading → Verdict
  | .event (.stream event) =>
    match kind, event with
    | .inspect, .output _ => .stop (.violation .outputInInspect)
    | .inspect, .progress _ => .pass []
    | _, e => .deliver e
  | .event (.ending ending) => .stop ending
  | .undecodableProgress p => .pass [.undecodableProgress p]
  | .unknownYield reason => .pass [.unknownYield reason]
  | .unwritable _ => .refuse

namespace Ending

/-- The phase in which an ending leaves a session. -/
def phase : Ending → Phase
  | .accepted result => .accepted result
  | .rejected => .rejected
  | .exception _ | .violation _ => .fatal

theorem done_phase (ending : Ending) : ending.phase.done = true := by
  cases ending <;> rfl

/-- Whether what the input did is kept. -/
def keeps (kind : InputKind) : Ending → Bool
  | .accepted _ => kind.commits
  | _ => false

/-- What is noticed once the transaction is closed. -/
def notices (kind : InputKind) : Ending → List Notice
  | .accepted _ => []
  | .rejected => [.rejected kind]
  | .exception description => [.guestException kind description]
  | .violation v => [.violation kind v.description]

/-- The failure that an ending comes to. -/
def failure? : Ending → Option Failure
  | .accepted _ => none
  | .rejected => some (.ofKind .inputRejected)
  | .exception description => some (.ofKind .fatal (some description) (Failure.source "guest"))
  | .violation v => some (.ofKind .fatal (some v.description) (Failure.source "protocol"))

/-- How a turn ends that came to an ending, once the transaction is closed. -/
def outcome (ending : Ending) : Except Failure Seat.Turn :=
  match ending.failure? with
  | none => .ok .over
  | some f => .error f

end Ending

/-- The failure with which a session reports that its transaction could not be closed. -/
def Failure.closing (f : Failure) : Failure :=
  match f.error with
  | .engine _ => f
  | e => if e.ordinary then .fatalFrom "failed to close transaction: " (source "machine") e else f

theorem Failure.closing_of_interrupt {f : Failure} (hf : f.ordinary = false) : f.closing = f := by
  have hf : f.error.ordinary = false := hf
  unfold closing
  split
  · rfl
  · rw [hf]
    rfl

/-- The failure with which a session reports an error of its machine, once the rollback has ended
so. -/
def Failure.ofMachine (e : Error) : Except Failure Unit → Failure
  | .ok _ => .fatalFrom "machine error: " (source "machine") e
  | .error f => if f.ordinary then .fatalFrom "machine error: " (source "machine") e else f

/-- What is noticed of a rollback that followed an error of the machine. -/
def rollbackNotices (kind : InputKind) : Except Failure Unit → List Notice
  | .ok _ => []
  | .error f => if f.ordinary then [.rollbackFailed kind] else []

theorem Ending.channel_of_mem {kind : InputKind} {ending : Ending} :
    ∀ n ∈ ending.notices kind, n.channel ≠ .transaction := by
  cases ending <;> simp [Ending.notices, Notice.channel]

theorem rollbackNotices_channel {kind : InputKind} {o : Except Failure Unit} :
    ∀ n ∈ rollbackNotices kind o, n.channel ≠ .transaction := by
  unfold rollbackNotices
  split
  · simp
  · split <;> simp [Notice.channel]

/-- A reading that is passed over is noticed by the reader. -/
theorem InputKind.channel_of_pass {kind : InputKind} {r : Reading} {ns : List Notice}
    (h : kind.verdict r = .pass ns) : ∀ n ∈ ns, n.channel ≠ .transaction := by
  rcases r with (event | ending) | payload | reason | v
  · cases kind <;> cases event <;> cases h
    simp
  all_goals cases h
  all_goals simp [Notice.channel]

/-- One run of the machine `w`, and what is read of it. -/
inductive Hears (w : Handle) : List Exchange → Except Failure Reading → Prop
  | stopped (e : Error) : Hears w [.run w (.error e)] (.error { error := e })
  | broke (reason : Int) (h : isYield reason = false) :
    Hears w [.run w (.ok reason)] (.ok (readBreak reason none))
  | silent (reason : Int) (h : isYield reason = true) (e : Error) :
    Hears w [.run w (.ok reason), .receive w (.error e)] (.error { error := e })
  | yielded (reason : Int) (h : isYield reason = true) (request : Option YieldRequest) :
    Hears w [.run w (.ok reason), .receive w (.ok request)] (.ok (readBreak reason request))

namespace Session

/-- The session in another phase. -/
def inPhase (s : Session) (p : Phase) : Session :=
  { s with phase := p }

/-- Ending a session as its ending event says. -/
inductive Ends (kind : InputKind) (ending : Ending) (c : Controller) :
    List Exchange → List Notice → Except Failure Seat.Turn → Controller → Prop
  | settled {xs : List Exchange} {ns : List Notice} {c' : Controller}
      (h : c.Settles (ending.keeps kind) xs ns (.ok ()) c') :
    Ends kind ending c xs (ns ++ ending.notices kind) ending.outcome c'
  | unsettled {xs : List Exchange} {ns : List Notice} {f : Failure} {c' : Controller}
      (h : c.Settles (ending.keeps kind) xs ns (.error f) c') :
    Ends kind ending c xs ns (.error f.closing) c'

/-- Ending a session over the error `e` of its machine. -/
inductive Fails (kind : InputKind) (e : Error) (c : Controller) :
    List Exchange → List Notice → Failure → Controller → Prop
  | rolledBack {xs : List Exchange} {ns : List Notice} {o : Except Failure Unit} {c' : Controller}
      (h : c.Settles false xs ns o c') :
    Fails kind e c xs (.machineFailed kind :: ns ++ rollbackNotices kind (o.mapError .closing))
      (.ofMachine e (o.mapError .closing)) c'

/-- Starting a session. -/
inductive Starts (s : Session) (c : Controller) :
    List Exchange → List Notice → Except Failure Handle → Controller → Phase → Prop
  | refused {xs : List Exchange} {ns : List Notice} {f : Failure} {c' : Controller}
      (h : c.Begins s.isolation xs ns (.error f) c') : Starts s c xs ns (.error f) c' .start
  | sent {xs : List Exchange} {ns : List Notice} {w : Handle} {c' : Controller}
      (h : c.Begins s.isolation xs ns (.ok w) c') :
    Starts s c (xs ++ [.send w s.kind.reason s.payload (.ok ())])
      (ns ++ [.started s.kind s.payload.length]) (.ok w) c' (.running w)
  | interrupted {xs : List Exchange} {ns : List Notice} {w : Handle} {c' : Controller}
      (h : c.Begins s.isolation xs ns (.ok w) c') (e : Error) (he : e.ordinary = false) :
    Starts s c (xs ++ [.send w s.kind.reason s.payload (.error e)])
      (ns ++ [.started s.kind s.payload.length]) (.error { error := e }) c' (.running w)
  | failed {xs ys : List Exchange} {ns ms : List Notice} {w : Handle} {f : Failure}
      {c' c'' : Controller} (h : c.Begins s.isolation xs ns (.ok w) c') (e : Error)
      (he : e.ordinary = true) (hf : Fails s.kind e c' ys ms f c'') :
    Starts s c (xs ++ .send w s.kind.reason s.payload (.error e) :: ys)
      (ns ++ .started s.kind s.payload.length :: ms) (.error f) c'' .fatal

/-- What a session that runs on `w` makes of a reading. -/
inductive Judges (kind : InputKind) (w : Handle) (r : Reading) (c : Controller) :
    List Exchange → List Notice → Except Failure Seat.Turn → Controller → Phase → Prop
  | delivered {event : StreamEvent} (h : kind.verdict r = .deliver event) :
    Judges kind w r c [] [] (.ok (.delivered event)) c (.running w)
  | passed {ns : List Notice} (h : kind.verdict r = .pass ns) :
    Judges kind w r c [] ns (.ok .ignored) c (.running w)
  | ended {xs : List Exchange} {ns : List Notice} {ending : Ending}
      {o : Except Failure Seat.Turn} {c' : Controller} (h : kind.verdict r = .stop ending)
      (he : Ends kind ending c xs ns o c') : Judges kind w r c xs ns o c' ending.phase
  | refused (h : kind.verdict r = .refuse) :
    Judges kind w r c [] [] (.error .unwritable) c (.running w)

/-- A turn of a session that runs on `w`. -/
inductive Turns (kind : InputKind) (w : Handle) (c : Controller) :
    List Exchange → List Notice → Except Failure Seat.Turn → Controller → Phase → Prop
  | heard {xs ys : List Exchange} {r : Reading} {ns : List Notice} {o : Except Failure Seat.Turn}
      {c' : Controller} {p : Phase} (h : Hears w xs (.ok r)) (hj : Judges kind w r c ys ns o c' p) :
    Turns kind w c (xs ++ ys) ns o c' p
  | interrupted {xs : List Exchange} {e : Error} (h : Hears w xs (.error { error := e }))
      (he : e.ordinary = false) : Turns kind w c xs [] (.error { error := e }) c (.running w)
  | failed {xs ys : List Exchange} {ns : List Notice} {e : Error} {f : Failure} {c' : Controller}
      (h : Hears w xs (.error { error := e })) (he : e.ordinary = true)
      (hf : Fails kind e c ys ns f c') : Turns kind w c (xs ++ ys) ns (.error f) c' .fatal

/-- Closing a session. -/
inductive Closes (s : Session) (c : Controller) :
    List Exchange → List Notice → Except Failure Unit → Controller → Phase → Prop
  | fresh (h : s.phase = .start) : Closes s c [] [] (.ok ()) c .cancelled
  | done (h : s.phase.done = true) : Closes s c [] [] (.ok ()) c s.phase
  | running {xs : List Exchange} {ns : List Notice} {w : Handle} {o : Except Failure Unit}
      {c' : Controller} (h : s.phase = .running w) (hs : c.Settles false xs ns o c') :
    Closes s c xs (.cancelled s.kind :: ns) (o.mapError .closing) c' .cancelled

end Session

/-! ## The calls of a session -/

/-- To hear a machine, it is run, and perhaps asked for its request. -/
theorem Hears.mem {w : Handle} {xs : List Exchange} {o : Except Failure Reading} (h : Hears w xs o)
    {x : Exchange} (hx : x ∈ xs) : (∃ reply, x = .run w reply) ∨ ∃ reply, x = .receive w reply := by
  cases h with
  | stopped | broke => exact .inl ⟨_, List.mem_singleton.1 hx⟩
  | silent | yielded =>
    exact (List.mem_cons.1 hx).imp (fun h => ⟨_, h⟩) fun h => ⟨_, List.mem_singleton.1 h⟩

/-- An error that comes of hearing a machine is raised by a call. -/
theorem Hears.raised {w : Handle} {xs : List Exchange} {e : Error}
    (h : Hears w xs (.error { error := e })) : ∃ x ∈ xs, x.error? = some e := by
  cases h with
  | stopped => exact ⟨_, List.mem_singleton.2 rfl, rfl⟩
  | silent => exact ⟨_, List.mem_cons_of_mem _ (List.mem_singleton.2 rfl), rfl⟩

namespace Session

variable {s : Session} {kind : InputKind} {c c' : Controller} {p : Phase} {xs : List Exchange}
  {ns : List Notice}

theorem Ends.settles {ending : Ending} {o : Except Failure Seat.Turn}
    (h : Ends kind ending c xs ns o c') : ∃ ns o, c.Settles (ending.keeps kind) xs ns o c' := by
  cases h with
  | settled h | unsettled h => exact ⟨_, _, h⟩

theorem Fails.mem {e : Error} {f : Failure} (h : Fails kind e c xs ns f c') {x : Exchange}
    (hx : x ∈ xs) : ∃ m reply, x = .shutdown m reply := by
  cases h with
  | rolledBack h => exact h.mem hx

/-- What is made of a reading makes no call but to release a machine. -/
theorem Judges.mem {w : Handle} {r : Reading} {o : Except Failure Seat.Turn}
    (h : Judges kind w r c xs ns o c' p) {x : Exchange} (hx : x ∈ xs) :
    ∃ m reply, x = .shutdown m reply := by
  cases h with
  | delivered | passed | refused => cases hx
  | ended _ he =>
    obtain ⟨_, _, hs⟩ := he.settles
    exact hs.mem hx

theorem Closes.mem {o : Except Failure Unit} (h : s.Closes c xs ns o c' p) {x : Exchange}
    (hx : x ∈ xs) : ∃ m reply, x = .shutdown m reply := by
  cases h with
  | fresh | done => cases hx
  | running _ h => exact h.mem hx

end Session

/-! ## The moves -/

namespace Seat

variable {b : Backend W} {xs : List Exchange} {ns : List Notice} {o : Except Failure α}

/-- The site that a session works on. -/
abbrev site (s : Seat W) : Site W :=
  s.toSite

theorem runs_onDesk {act : Act (Desk W) α} {d' : Desk W} (s : Seat W)
    (h : act.Runs b Desk.toSite s.toDesk xs ns o d') :
    (onDesk act).Runs b site s xs ns o { s with toDesk := d' } :=
  h.focus rfl rfl

theorem runs_onSite {act : Act (Site W) α} {s' : Site W} (s : Seat W)
    (h : act.Runs b id s.toSite xs ns o s') :
    (onSite act).Runs b site s xs ns o { s with toSite := s' } :=
  runs_onDesk s (Desk.runs_onSite s.toDesk h)

theorem runs_note (n : Notice) (s : Seat W) :
    (note n).Runs b site s [] [n] (.ok ()) { s with notices := s.notices ++ [n] } :=
  runs_onSite s (Site.runs_note b n s.toSite)

theorem runs_enter (p : Phase) (s : Seat W) :
    (enter p).Runs b site s [] [] (.ok ()) { s with session := s.session.inPhase p } :=
  .silent rfl rfl

theorem settle_cases (b : Backend W) (keeps : Bool) (d : Desk W) :
    ∃ xs ns o d',
      (if keeps then Desk.commit b else Desk.rollback b).Runs b Desk.toSite d xs ns o d' ∧
      d.controller.Settles keeps xs ns o d'.controller := by
  cases keeps with
  | true => exact Desk.commit_cases b d
  | false => exact Desk.rollback_cases b d

/-- What an ordinary failure to close the transaction is answered with. -/
theorem runs_closing {f : Failure} (hf : f.ordinary = true) (s : Seat W) :
    (match f.error with
      | .engine _ => throw f
      | e => throw (.fatalFrom "failed to close transaction: " (Failure.source "machine") e) :
      Act (Seat W) α).Runs b site s [] [] (.error f.closing) s := by
  have hf : f.error.ordinary = true := hf
  unfold Failure.closing
  split
  · exact .throw _ s
  · rw [if_pos hf]
    exact .throw _ s

theorem finish_cases (b : Backend W) (p : Phase) (keeps : Bool) (s : Seat W) :
    ∃ xs ns o s', (finish b p keeps).Runs b site s xs ns (o.mapError .closing) s' ∧
      s.controller.Settles keeps xs ns o s'.controller ∧ s'.session = s.session.inPhase p := by
  obtain ⟨xs, ns, o, d', hrun, hs⟩ := settle_cases b keeps s.toDesk
  replace hrun := runs_onDesk { s with session := s.session.inPhase p } hrun
  refine ⟨xs, ns, o, ⟨d', s.session.inPhase p⟩, (runs_enter p s).bind ?_, hs, rfl⟩
  cases o with
  | ok _ => exact hrun.rescue_ok
  | error f =>
    cases hf : f.ordinary with
    | true => exact hrun.rescue_silent hf (runs_closing hf _)
    | false =>
      have hclosing : Except.mapError Failure.closing (.error f : Except Failure Unit) = .error f :=
        congrArg Except.error (Failure.closing_of_interrupt hf)
      rw [hclosing]
      exact hrun.rescue_interrupt hf

theorem failMachine_cases (b : Backend W) (f : Failure) (s : Seat W) :
    ∃ xs ns g s', (failMachine b f : Act (Seat W) α).Runs b site s xs ns (.error g) s' ∧
      Session.Fails s.session.kind f.error s.controller xs ns g s'.controller ∧
      s'.session = s.session.inPhase .fatal := by
  let noted : Seat W := { s with notices := s.notices ++ [.machineFailed s.session.kind] }
  obtain ⟨xs, ns, o, s', hrun, hs, hs'⟩ := finish_cases b .fatal false noted
  have hnote := runs_note (b := b) (.machineFailed s.session.kind) s
  have hfail : Session.Fails s.session.kind f.error s.controller _ _ _ _ := .rolledBack hs
  cases ho : o.mapError Failure.closing with
  | ok _ =>
    rw [ho] at hrun hfail
    simp only [rollbackNotices, List.append_nil] at hfail
    exact ⟨_, _, _, _, .get_bind <| hnote.bind <| hrun.rescue_ok.bind_silent (.throw _ _), hfail,
      hs'⟩
  | error g =>
    rw [ho] at hrun hfail
    cases hg : g.ordinary with
    | true =>
      simp only [Failure.ofMachine, rollbackNotices, hg, if_true] at hfail
      refine ⟨xs, _, _, { s' with notices := s'.notices ++ [.rollbackFailed s.session.kind] },
        ?_, hfail, hs'⟩
      have hrescue := hrun.rescue_ordinary hg
        (k := fun _ => note (.rollbackFailed s.session.kind)) (runs_note _ _)
      rw [List.append_nil] at hrescue
      exact .get_bind <| hnote.bind <| hrescue.bind_silent (.throw _ _)
    | false =>
      simp only [Failure.ofMachine, rollbackNotices, hg, Bool.false_eq_true, if_false,
        List.append_nil] at hfail
      exact ⟨_, _, _, _, .get_bind <| hnote.bind <| .bind_error <| hrun.rescue_interrupt hg,
        hfail, hs'⟩

theorem start_cases (b : Backend W) {s : Seat W} (hs : s.session.phase = .start) :
    ∃ xs ns o s', (start b).Runs b site s xs ns o s' ∧
      s.session.Starts s.controller xs ns o s'.controller s'.session.phase ∧
      s'.session = s.session.inPhase s'.session.phase := by
  obtain ⟨xs, ns, o, d', hrun, hb⟩ := Desk.begin_cases b s.session.isolation s.toDesk
  replace hrun := runs_onDesk s hrun
  cases o with
  | error f =>
    have hsession : s.session = s.session.inPhase s.session.phase := rfl
    have hstart := Session.Starts.refused hb
    rw [← hs] at hstart
    exact ⟨_, _, _, _, .get_bind hrun.bind_error, hstart, hsession⟩
  | ok w =>
    let sent : Seat W :=
      { toDesk :=
          { d' with notices := d'.notices ++ [.started s.session.kind s.session.payload.length] }
        session := s.session.inPhase (.running w) }
    obtain ⟨reply, t, hcall⟩ :=
      b.runs_callSend sent.toSite w s.session.kind.reason s.session.payload
    replace hcall := runs_onSite sent hcall
    cases reply with
    | ok _ =>
      exact ⟨_, _, _, { sent with toSite := t }, .get_bind <| hrun.bind <| (runs_enter _ _).bind <|
        (runs_note _ _).bind <| hcall.rescue_ok.bind (.pure _ _), .sent hb, rfl⟩
    | error e =>
      cases he : e.ordinary with
      | true =>
        obtain ⟨ys, ms, g, s', hfail, hf, hs'⟩ :=
          failMachine_cases b { error := e } { sent with toSite := t }
        refine ⟨_, _, _, s', .get_bind <| hrun.bind <| (runs_enter _ _).bind <|
          (runs_note _ _).bind <| (hcall.rescue_ordinary he hfail).bind_error, ?_, ?_⟩
        · rw [hs']
          exact .failed hb e he hf
        · rw [hs']
          rfl
      | false =>
        exact ⟨_, _, _, { sent with toSite := t }, .get_bind <| hrun.bind <|
          (runs_enter _ _).bind <| (runs_note _ _).bind <| (hcall.rescue_interrupt he).bind_error,
          .interrupted hb e he, rfl⟩

theorem readTurn_cases (b : Backend W) (w : Handle) (s : Site W) :
    ∃ xs o s', (readTurn b w).Runs b id s xs [] o s' ∧ Hears w xs o := by
  obtain ⟨reply, t, hrun⟩ := b.runs_callRun s w
  cases reply with
  | error e => exact ⟨_, _, _, hrun.bind_error, .stopped e⟩
  | ok reason =>
    cases hy : isYield reason with
    | false =>
      refine ⟨_, _, t, hrun.bind_silent ?_, .broke reason hy⟩
      rw [if_neg (by simp [hy])]
      exact .pure _ t
    | true =>
      obtain ⟨request, u, hreceive⟩ := b.runs_callReceive t w
      cases request with
      | error e =>
        refine ⟨_, _, u, hrun.bind ?_, .silent reason hy e⟩
        rw [if_pos hy]
        exact hreceive.bind_error
      | ok request =>
        refine ⟨_, _, u, hrun.bind ?_, .yielded reason hy request⟩
        rw [if_pos hy]
        exact hreceive.bind_silent (.pure _ u)

/-- Ending a session, once for all endings: `k` is what is done after the transaction is closed. -/
theorem end_cases (b : Backend W) (ending : Ending) (s : Seat W) {k : Unit → Act (Seat W) Turn}
    (hk : ∀ s' : Seat W, ∃ t, (k ()).Runs b site s' [] (ending.notices s.session.kind)
      ending.outcome { s' with toSite := t }) :
    ∃ xs ns o s', (finish b ending.phase (ending.keeps s.session.kind) >>= k).Runs b site s xs ns
        o s' ∧
      Session.Ends s.session.kind ending s.controller xs ns o s'.controller ∧
      s'.session = s.session.inPhase ending.phase := by
  obtain ⟨xs, ns, o, s', hrun, hs, hs'⟩ :=
    finish_cases b ending.phase (ending.keeps s.session.kind) s
  cases o with
  | error f => exact ⟨_, _, _, s', hrun.bind_error, .unsettled hs, hs'⟩
  | ok _ =>
    obtain ⟨t, hk⟩ := hk s'
    have hall := hrun.bind hk
    rw [List.append_nil] at hall
    exact ⟨_, _, _, _, hall, .settled hs, hs'⟩

/-- Noticing an ending and raising its failure. -/
theorem runs_note_throw (n : Notice) (f : Failure) (s : Seat W) :
    ∃ t, (do note n; throw f : Act (Seat W) α).Runs b site s [] [n] (.error f)
      { s with toSite := t } :=
  ⟨_, (runs_note n s).bind (.throw f _)⟩

theorem conclude_cases (b : Backend W) (ending : Ending) (s : Seat W) :
    ∃ xs ns o s', (conclude b ending).Runs b site s xs ns o s' ∧
      Session.Ends s.session.kind ending s.controller xs ns o s'.controller ∧
      s'.session = s.session.inPhase ending.phase := by
  cases ending with
  | accepted result =>
    obtain ⟨xs, ns, o, s', hrun, h⟩ := end_cases b (.accepted result) s
      (k := fun _ => pure .over) (fun s' => ⟨s'.toSite, .pure _ s'⟩)
    exact ⟨xs, ns, o, s', .get_bind hrun, h⟩
  | rejected =>
    obtain ⟨xs, ns, o, s', hrun, h⟩ := end_cases b .rejected s
      (k := fun _ => do note (.rejected s.session.kind); throw _) (runs_note_throw _ _)
    exact ⟨xs, ns, o, s', .get_bind hrun, h⟩
  | exception description =>
    obtain ⟨xs, ns, o, s', hrun, h⟩ := end_cases b (.exception description) s
      (k := fun _ => do note (.guestException s.session.kind description); throw _)
      (runs_note_throw _ _)
    exact ⟨xs, ns, o, s', .get_bind (.get_bind hrun), h⟩
  | violation v =>
    obtain ⟨xs, ns, o, s', hrun, h⟩ := end_cases b (.violation v) s
      (k := fun _ => do note (.violation s.session.kind v.description); throw _)
      (runs_note_throw _ _)
    exact ⟨xs, ns, o, s', .get_bind (.get_bind hrun), h⟩

theorem deliver_cases (b : Backend W) (event : StreamEvent) {s : Seat W} {w : Handle}
    (hs : s.session.phase = .running w) :
    ∃ xs ns o s', (deliver b event).Runs b site s xs ns o s' ∧
      Session.Judges s.session.kind w (.event (.stream event)) s.controller xs ns o s'.controller
        s'.session.phase ∧
      s'.session = s.session.inPhase s'.session.phase := by
  have silent (turn : Turn) (hrun : (deliver b event).run s = .ok turn s)
      (hj : Session.Judges s.session.kind w (.event (.stream event)) s.controller [] [] (.ok turn)
        s.controller (.running w)) :
      ∃ xs ns o s', (deliver b event).Runs b site s xs ns o s' ∧
        Session.Judges s.session.kind w (.event (.stream event)) s.controller xs ns o s'.controller
          s'.session.phase ∧
        s'.session = s.session.inPhase s'.session.phase :=
    ⟨_, _, .ok turn, s, .silent hrun rfl, hs ▸ hj, rfl⟩
  obtain ⟨d, kind, payload, isolation, phase⟩ := s
  cases kind with
  | advance => cases event <;> exact silent _ rfl (.delivered rfl)
  | inspect =>
    cases event with
    | output p =>
      obtain ⟨xs, ns, o, s', hrun, he, hs'⟩ := conclude_cases b (.violation .outputInInspect)
        ⟨d, .inspect, payload, isolation, phase⟩
      have hphase : s'.session.phase = .fatal := by rw [hs']; rfl
      exact ⟨xs, ns, o, s', ⟨hrun.run, hrun.follows⟩, hphase ▸ .ended rfl he,
        by rw [hphase, hs']; rfl⟩
    | report p => exact silent _ rfl (.delivered rfl)
    | progress value => exact silent _ rfl (.passed rfl)

/-- What follows a reading. -/
theorem judge_cases (b : Backend W) (r : Reading) {s : Seat W} {w : Handle}
    (hs : s.session.phase = .running w) :
    ∃ xs ns o s', (match r with
        | .undecodableProgress p => do note (.undecodableProgress p); pure .ignored
        | .unknownYield reason => do note (.unknownYield reason); pure .ignored
        | .unwritable _ => throw .unwritable
        | .event (.stream event) => deliver b event
        | .event (.ending ending) => conclude b ending :
        Act (Seat W) Turn).Runs b site s xs ns o s' ∧
      Session.Judges s.session.kind w r s.controller xs ns o s'.controller s'.session.phase ∧
      s'.session = s.session.inPhase s'.session.phase := by
  cases r with
  | undecodableProgress p =>
    exact ⟨_, _, _, _, (runs_note (.undecodableProgress p) s).bind (.pure _ _), hs ▸ .passed rfl,
      rfl⟩
  | unknownYield reason =>
    exact ⟨_, _, _, _, (runs_note (.unknownYield reason) s).bind (.pure _ _), hs ▸ .passed rfl, rfl⟩
  | unwritable v => exact ⟨_, _, _, s, .throw _ s, hs ▸ .refused rfl, rfl⟩
  | event event =>
    cases event with
    | stream event => exact deliver_cases b event hs
    | ending ending =>
      obtain ⟨xs, ns, o, s', hrun, he, hs'⟩ := conclude_cases b ending s
      have hphase : s'.session.phase = ending.phase := by rw [hs']; rfl
      exact ⟨xs, ns, o, s', hrun, hphase ▸ .ended rfl he, by rw [hphase, hs']⟩

theorem turn_cases (b : Backend W) {s : Seat W} {w : Handle} (hs : s.session.phase = .running w) :
    ∃ xs ns o s', (turn b w).Runs b site s xs ns o s' ∧
      Session.Turns s.session.kind w s.controller xs ns o s'.controller s'.session.phase ∧
      s'.session = s.session.inPhase s'.session.phase := by
  obtain ⟨xs, o, t, hrun, hx⟩ := readTurn_cases b w s.toSite
  replace hrun := runs_onSite s hrun
  cases o with
  | ok r =>
    obtain ⟨ys, ns, o, s', hjudge, hj, hs'⟩ := judge_cases b r (s := { s with toSite := t }) hs
    exact ⟨_, _, _, _, hrun.rescue_ok.bind hjudge, .heard hx hj, hs'⟩
  | error f =>
    obtain ⟨e, rfl⟩ : ∃ e, f = { error := e } := by cases hx <;> exact ⟨_, rfl⟩
    cases he : e.ordinary with
    | true =>
      obtain ⟨ys, ns, g, s', hfail, hf, hs'⟩ :=
        failMachine_cases (α := Reading) b { error := e } { s with toSite := t }
      have hphase : s'.session.phase = .fatal := by rw [hs']; rfl
      exact ⟨_, _, _, s', (hrun.rescue_ordinary he hfail).bind_error,
        hphase ▸ .failed hx he hf, by rw [hphase, hs']⟩
    | false =>
      refine ⟨_, _, _, _, (hrun.rescue_interrupt he).bind_error, ?_, rfl⟩
      exact hs ▸ .interrupted hx he

theorem close_cases (b : Backend W) (s : Seat W) :
    ∃ xs ns o s', (close b).Runs b site s xs ns o s' ∧
      s.session.Closes s.controller xs ns o s'.controller s'.session.phase ∧
      s'.session = s.session.inPhase s'.session.phase := by
  cases hp : s.session.phase with
  | start =>
    refine ⟨_, _, _, { s with session := s.session.inPhase .cancelled }, .get_bind ?_, .fresh hp,
      rfl⟩
    simp only [hp]
    exact runs_enter _ s
  | running w =>
    obtain ⟨xs, ns, o, s', hrun, hset, hs'⟩ := finish_cases b .cancelled false
      { s with notices := s.notices ++ [.cancelled s.session.kind] }
    have hphase : s'.session.phase = .cancelled := by rw [hs']; rfl
    have hclose := Session.Closes.running hp hset
    rw [← hphase] at hclose
    refine ⟨_, _, _, s', .get_bind ?_, hclose, by rw [hphase, hs']⟩
    simp only [hp]
    exact (runs_note _ s).bind hrun
  | accepted _ | rejected | fatal | cancelled =>
    have hover : s.session.Closes s.controller [] [] (.ok ()) s.controller s.session.phase :=
      .done (by rw [hp]; rfl)
    refine ⟨_, _, _, s, .get_bind ?_, hover, rfl⟩
    simp only [hp]
    exact .pure _ s

end Seat

end RollupEngine

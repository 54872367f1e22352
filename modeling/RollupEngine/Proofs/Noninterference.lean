import RollupEngine.Proofs.Correspondence
import RollupEngine.Proofs.Journal
import RollupEngine.Proofs.Session.Rest
import RollupEngine.Scripted.World

/-!
# Noninterference

While a session runs, it has the engine to itself. Other operations stand by
(`EngineOp.Bystands`): they call no machine, change neither the controller nor the session that
runs, and what needs an idle engine (`EngineOp.NeedsIdle`) is refused as busy. All that they can do
is to rearrange the other sessions (`Room.Rearranges`).

So what the holder of the session sees depends on its own operations alone. Two runs that differ
only in what others do while the session runs (`EngineOp.Between`) give it the same answers and
leave the same machines; `EngineOp.run_undisturbed` says both.
-/

namespace RollupEngine

variable {W : Type}

/-! ## What others can do -/

/-- What others may make of the sessions of a room while session `n` runs. -/
inductive Room.Rearranges (n : Nat) (r : Room W) : List (Option Session) → Prop
  | kept : Rearranges n r r.sessions
  | made (session : Session) (h : session.phase = .start) :
    Rearranges n r (r.sessions ++ [some session])
  | cancelled (m : Nat) (session : Session) (hm : m ≠ n) (hs : r.session? m = some session)
      (h : session.phase = .start) :
    Rearranges n r (r.sessions.set m (some (session.inPhase .cancelled)))
  /-- Nobody holds a session any more that does not run. -/
  | letGo (m : Nat) (session : Session) (hm : m ≠ n) (hs : r.session? m = some session)
      (h : session.phase.working? = none) :
    Rearranges n r (r.sessions.set m none)

/-- Rooms that are the same to session `n`. -/
structure Room.Agrees (n : Nat) (r r' : Room W) : Prop where
  desk : r'.toDesk = r.toDesk
  session : r'.session? n = r.session? n

namespace EngineOp

/-- Whether an operation needs an engine without a transaction: it saves or releases the machine,
collects an input, or asks a session for an event that has not begun. -/
def NeedsIdle (config : EngineConfig) (r : Room W) : EngineOp → Prop
  | .submit _ (.bytes _) choice => config.collects choice = true
  | .submit _ (.other _) _ => False
  | .store _ | .shutdown => True
  | .session m op => op.pulls = true ∧ ∃ session, r.session? m = some session ∧
      session.phase = .start

/-- What an operation does that stands by while session `n` runs. -/
structure Bystands (b : Backend W) (config : EngineConfig) (op : EngineOp) (n : Nat)
    (r : Room W) : Prop where
  /-- No machine is called, nothing is noticed, and the controller is as it was. -/
  desk : (op.perform b config r).2.toDesk = r.toDesk
  session : (op.perform b config r).2.session? n = r.session? n
  sessions : r.Rearranges n (op.perform b config r).2.sessions
  busy : op.NeedsIdle config r → ∃ f, (op.perform b config r).1.outcome = .error f ∧
    f.error.engineKind? = some .busy

/-- What is done beside the operations on session `n` is done while it runs. -/
def Between (b : Backend W) (config : EngineConfig) (n : Nat) : List EngineOp → Room W → Prop
  | [], _ => True
  | op :: ops, r => (op.isOn n = false → r.Runs n) ∧
    Between b config n ops (op.perform b config r).2

end EngineOp

/-! ## Rooms in which a session runs -/

namespace Room

variable {mode : Isolation} {own : List Exchange} {r : Room W} {n m : Nat} {session : Session}

/-- While a session runs, the engine is open and busy. -/
theorem Linked.busy (h : r.Linked mode own) (hn : r.Runs n) :
    r.controller.closed = false ∧ r.controller.transaction.isSome = true := by
  obtain ⟨w, hw⟩ := runs_iff.1 hn
  obtain ⟨t, ht, -⟩ := Option.map_eq_some_iff.1 (h.held n w hw)
  refine ⟨?_, by rw [ht]; rfl⟩
  cases hc : r.controller.closed with
  | false => rfl
  | true =>
    rw [h.fits.closed hc] at ht
    cases ht

/-- Beside a session that runs, the others have not begun or are over. -/
theorem Linked.start_or_done (h : r.Linked mode own) (hn : r.Runs n) (hm : m ≠ n)
    (hs : r.session? m = some session) : session.phase = .start ∨ session.phase.done = true := by
  cases hp : session.phase with
  | start => exact .inl rfl
  | accepted | rejected | fatal | cancelled => exact .inr rfl
  | running w =>
    obtain ⟨v, hv⟩ := runs_iff.1 hn
    have hw : r.working? m = some w := by rw [working?_eq hs, hp]; rfl
    exact absurd (h.unique m n w v hw hv) hm

/-- To rearrange the others leaves a session in its place. -/
theorem Rearranges.session?_eq {ss : List (Option Session)} (h : r.Rearranges n ss)
    (hn : r.Runs n) : ({ r with sessions := ss } : Room W).session? n = r.session? n := by
  cases h with
  | kept => rfl
  | made session =>
    obtain ⟨s, hs, -⟩ := hn
    rw [session?_append, if_neg (Nat.ne_of_lt (lt_length hs))]
  | cancelled m session hm hs | letGo m session hm hs =>
    exact (session?_set hs).trans (if_neg (Ne.symm hm))

end Room

namespace EngineOp

variable {b : Backend W} {config : EngineConfig} {op : EngineOp} {own : List Exchange} {n : Nat}
  {r r' : Room W}

/-! ## Standing by -/

/-- An operation stands by that leaves the desk alone, and rearranges the other sessions. -/
theorem Bystands.of_perform {a : Answer} {ss : List (Option Session)} (hn : r.Runs n)
    (h : op.perform b config r = (a, { r with sessions := ss })) (hss : r.Rearranges n ss)
    (hbusy : op.NeedsIdle config r → ∃ f, a.outcome = .error f ∧ f.error.engineKind? = some .busy) :
    op.Bystands b config n r := by
  refine ⟨?_, ?_, ?_, ?_⟩ <;> rw [h]
  · exact hss.session?_eq hn
  · exact hss
  · exact hbusy

/-- To submit an input makes a session at most. -/
theorem bystands_submit (hr : r.Linked config.isolation own) (hn : r.Runs n) (kind : InputKind)
    (input : Submission) (choice : Option Bool) :
    (submit kind input choice).Bystands b config n r := by
  obtain ⟨hopen, hbusy⟩ := hr.busy hn
  cases input with
  | other typeName =>
    have hrun := run_submit_other b config kind typeName choice hopen
    exact .of_perform hn (Answer.reply_of_run (o := .error _) hrun) .kept False.elim
  | bytes payload =>
    cases hc : config.collects choice with
    | false =>
      refine .of_perform hn (perform_opened b kind payload hopen hc)
        (.made (config.session kind payload) rfl) fun h => ?_
      cases hc.symm.trans h
    | true =>
      -- the session that is to be collected cannot begin
      have hrefused : r.controller.refusal? = some (.ofKind .busy) :=
        Controller.refusal?_of_busy hopen (Option.isSome_iff_ne_none.1 hbusy)
      have hrests := Seat.rests_of_refused b (s := ⟨r.toDesk, config.session kind payload⟩)
        (f := .ofKind .busy) rfl hrefused
      have hcollect := Seat.run_collect kind (SessionOp.run_scope_of_rests hrests none none)
      have hperform := perform_collected b (o := .error (.ofKind .busy)) hopen hc hcollect
      exact .of_perform hn hperform .kept fun _ => ⟨_, rfl, rfl⟩

theorem bystands_store (hr : r.Linked config.isolation own) (hn : r.Runs n) (path : String) :
    (store path).Bystands b config n r := by
  obtain ⟨hopen, hbusy⟩ := hr.busy hn
  have hrun : (Desk.store b path).Runs b Desk.toSite r.toDesk [] [] (.error (.ofKind .busy))
      r.toDesk := (Desk.runs_ensureIdle_busy hopen hbusy).bind_error
  exact .of_perform hn (Room.reply_onDesk hrun fun _ => .itself) .kept fun _ => ⟨_, rfl, rfl⟩

theorem bystands_shutdown (hr : r.Linked config.isolation own) (hn : r.Runs n) :
    shutdown.Bystands b config n r := by
  obtain ⟨hopen, hbusy⟩ := hr.busy hn
  obtain ⟨xs, ns, o, d, hrun, hdown⟩ := Desk.shutdown_cases b r.toDesk
  obtain ⟨rfl, rfl, hc, f, rfl, hf⟩ : xs = [] ∧ ns = [] ∧ d.controller = r.controller ∧
      ∃ f, o = .error f ∧ f.error.engineKind? = some .busy := by
    generalize d.controller = c at hdown
    cases hdown with
    | busy => exact ⟨rfl, rfl, rfl, _, rfl, rfl⟩
    | closed h => cases hopen.symm.trans h
    | released h | failed h =>
      rw [h.2] at hbusy
      cases hbusy
  have hd : d = r.toDesk := by
    obtain ⟨site, controller⟩ := d
    obtain rfl : site = r.toSite := hrun.follows.eq_of_nil
    obtain rfl : controller = r.controller := hc
    rfl
  rw [hd] at hrun
  exact .of_perform hn (Room.reply_onDesk hrun fun _ => .done) .kept fun _ => ⟨f, rfl, hf⟩

/-- An operation on another session at most cancels it, or lets it go. -/
theorem bystands_session (hr : r.Linked config.isolation own) (hn : r.Runs n) {m : Nat}
    (hm : m ≠ n) (sop : SessionOp) : (session m sop).Bystands b config n r := by
  obtain ⟨hopen, hbusy⟩ := hr.busy hn
  cases hs : r.session? m with
  | none =>
    refine .of_perform hn (perform_session_none b config hs sop) .kept ?_
    rintro ⟨-, s, hs', -⟩
    cases hs.symm.trans hs'
  | some s =>
    have hperform := perform_session b config hs sop
    rcases hr.start_or_done hn hm hs with hp | hp
    · have hrefused : r.controller.refusal? = some (.ofKind .busy) :=
        Controller.refusal?_of_busy hopen (Option.isSome_iff_ne_none.1 hbusy)
      rw [SessionOp.perform_of_refused b (s := ⟨r.toDesk, s⟩) hp hrefused] at hperform
      refine .of_perform hn hperform ?_ fun h =>
        ⟨_, SessionOp.outcome_answerAtRest_of_pulls h.1 _ _, rfl⟩
      cases hkeeps : sop.keeps with
      | false => exact .letGo m s hm hs (by rw [hp]; rfl)
      | true =>
        rw [if_pos rfl]
        unfold SessionOp.phaseRefused
        split
        · exact .cancelled m s hm hs hp
        · rw [show s.inPhase .start = s by rw [← hp]; rfl, Room.sessions_set_self hs]
          exact .kept
    · rw [SessionOp.perform_of_done b (s := ⟨r.toDesk, s⟩) hp] at hperform
      refine .of_perform hn hperform ?_ ?_
      · cases hkeeps : sop.keeps with
        | false => exact .letGo m s hm hs (Phase.working?_of_done hp)
        | true =>
          rw [if_pos rfl, Room.sessions_set_self hs]
          exact .kept
      · rintro ⟨-, s', hs', hp'⟩
        cases hs.symm.trans hs'
        rw [hp'] at hp
        cases hp

/-- While a session runs, every operation that is not on it stands by. -/
theorem bystands (hr : r.Linked config.isolation own) (hn : r.Runs n) (hop : op.isOn n = false) :
    op.Bystands b config n r := by
  cases op with
  | submit kind input choice => exact bystands_submit hr hn kind input choice
  | store path => exact bystands_store hr hn path
  | shutdown => exact bystands_shutdown hr hn
  | session m sop =>
    have hm : m ≠ n := by
      intro h
      rw [isOn_session.2 h] at hop
      cases hop
    exact bystands_session hr hn hm sop

/-! ## Runs that differ in what others do -/

/-- To rooms that agree on its session, an operation is the same. -/
theorem perform_agrees (b : Backend W) (config : EngineConfig) (h : r.Agrees n r')
    (sop : SessionOp) :
    ((session n sop).perform b config r').1 = ((session n sop).perform b config r).1 ∧
      ((session n sop).perform b config r).2.Agrees n ((session n sop).perform b config r').2 := by
  obtain ⟨hdesk, hsession⟩ := h
  cases hs : r.session? n with
  | none =>
    have hs' := hsession.trans hs
    rw [perform_session_none b config hs, perform_session_none b config hs']
    exact ⟨rfl, hdesk, hsession⟩
  | some s =>
    have hs' := hsession.trans hs
    rw [perform_session b config hs, perform_session b config hs', hdesk]
    refine ⟨rfl, rfl, ?_⟩
    rw [Room.session?_set hs, Room.session?_set hs', if_pos rfl, if_pos rfl]

/-- What is done beside the operations on a session can be left out. -/
theorem run_between (ops : List EngineOp) (hr : r.Linked config.isolation own)
    (hagrees : r.Agrees n r') (hops : Between b config n ops r) :
    sessionAnswers n (journal b config (ops.filter (isOn n)) r') =
        sessionAnswers n (journal b config ops r) ∧
      (run b config ops r).Agrees n (run b config (ops.filter (isOn n)) r') := by
  induction ops generalizing r r' own with
  | nil => exact ⟨rfl, hagrees⟩
  | cons op ops ih =>
    obtain ⟨xs, ns, fs, hdoes, -⟩ := op.does b config r
    cases hop : op.isOn n with
    | true =>
      obtain ⟨sop, rfl⟩ := exists_eq_session_of_isOn hop
      obtain ⟨hanswer, hnext⟩ := perform_agrees b config hagrees sop
      obtain ⟨hanswers, hrooms⟩ := ih (hdoes.linked hr) hnext hops.2
      rw [List.filter_cons_of_pos hop, journal, journal, sessionAnswers_cons_of_isOn hop,
        sessionAnswers_cons_of_isOn hop, hanswers]
      exact ⟨congrArg (· :: _) hanswer, hrooms⟩
    | false =>
      have hstands := bystands (b := b) hr (hops.1 hop) hop
      have hnext : (op.perform b config r).2.Agrees n r' :=
        ⟨hagrees.desk.trans hstands.desk.symm, hagrees.session.trans hstands.session.symm⟩
      rw [List.filter_cons_of_neg (by rw [hop]; decide), journal, sessionAnswers_cons hop]
      exact ih (hdoes.linked hr) hnext hops.2

/-- While a session runs, in whatever room an engine comes to, all other operations stand by. What
its holder is told by any operations on it, and the machines, the controller and the session that
these leave, do not depend on what others do between them. -/
theorem run_undisturbed (b : Backend W) (config : EngineConfig) (machine : Handle) (s : Site W)
    (ops : List EngineOp) {n : Nat} (hn : (run b config ops (.opening machine s)).Runs n) :
    let r := run b config ops (.opening machine s)
    (∀ op : EngineOp, op.isOn n = false → op.Bystands b config n r) ∧
      ∀ ops₁ ops₂, ops₁.filter (isOn n) = ops₂.filter (isOn n) →
        Between b config n ops₁ r → Between b config n ops₂ r →
        sessionAnswers n (journal b config ops₁ r) = sessionAnswers n (journal b config ops₂ r) ∧
          (run b config ops₁ r).Agrees n (run b config ops₂ r) := by
  intro r
  obtain ⟨own, _, -, hr⟩ := run_linked b config machine s ops
  have hself : r.Agrees n r := ⟨rfl, rfl⟩
  refine ⟨fun op hop => bystands hr hn hop, fun ops₁ ops₂ hops h₁ h₂ => ?_⟩
  obtain ⟨hanswers₁, hrooms₁⟩ := run_between ops₁ hr hself h₁
  obtain ⟨hanswers₂, hrooms₂⟩ := run_between ops₂ hr hself h₂
  rw [hops] at hanswers₁ hrooms₁
  exact ⟨hanswers₁.symm.trans hanswers₂, hrooms₂.desk.symm.trans hrooms₁.desk,
    hrooms₂.session.symm.trans hrooms₁.session⟩

/-- An advance that is read event by event, while others ask for the engine in vain. -/
theorem advance_undisturbed :
    let b := Scripted.backend
    let program := Scripted.Program.script
      [.automatic .output [1], .automatic .report [2], .manual .accepted [3]]
    let site : Site Scripted.World := { world := .ofLedger [] [program] [] }
    let r := run b {} [.submit .advance (.bytes [5]) none, .session 0 .pull] (.opening 0 site)
    let alone : List EngineOp := [.session 0 .pull, .session 0 .pull]
    let disturbed : List EngineOp := [.store "a", .submit .inspect (.bytes []) (some false),
      .session 0 .pull, .session 1 .pull, .session 1 .close, .shutdown, .session 0 .pull]
    r.Runs 0 ∧ shutdown.Bystands b {} 0 r ∧
      sessionAnswers 0 (journal b {} alone r) = sessionAnswers 0 (journal b {} disturbed r) ∧
      (run b {} alone r).Agrees 0 (run b {} disturbed r) := by
  intro b program site r alone disturbed
  let s : Session := { kind := .advance, payload := [5], phase := .running 1 }
  have hruns : r.Runs 0 := ⟨s, by decide +kernel, rfl⟩
  obtain ⟨hstands, hsame⟩ := run_undisturbed b {} 0 site
    [.submit .advance (.bytes [5]) none, .session 0 .pull] hruns
  have own {op : EngineOp} {r : Room Scripted.World} (hop : op.isOn 0 = true) :
      op.isOn 0 = false → r.Runs 0 := fun h => Bool.noConfusion (h.symm.trans hop)
  refine ⟨hruns, hstands .shutdown rfl, hsame alone disturbed rfl ⟨own rfl, own rfl, trivial⟩ ?_⟩
  exact ⟨fun _ => hruns, fun _ => ⟨s, by decide +kernel, rfl⟩, own rfl,
    fun _ => ⟨s, by decide +kernel, rfl⟩, fun _ => ⟨s, by decide +kernel, rfl⟩,
    fun _ => ⟨s, by decide +kernel, rfl⟩, own rfl, trivial⟩

end EngineOp

end RollupEngine

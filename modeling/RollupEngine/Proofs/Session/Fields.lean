import RollupEngine.Proofs.Session.Rest
import RollupEngine.Session.Fields

/-!
# Phases and fields

`Phase` holds what a session can be, and no more: the fields of a phase are those that fit together
(`SessionFields.exists_phase_iff`). So the operations of a session can be told in either way.
`Seat.Mirrors` says that an operation on the fields does what one on the phase does. The two are
built alike, and differ where a session ends: its fields change one after the other then, but the
machine is not called, and nothing fails, before the last of them has changed
(`Seat.finish_mirrors`).

A session that runs has a machine, therefore `FieldSeat.hear` always finds it (`Seat.hear_mirrors`),
and `Seat.pull_mirrors`, `Seat.close_mirrors` and `Seat.abandon_mirrors` hold of every session. So
fields that fit together, as those of a new session do, go on fitting together
(`FieldSeat.stays_coherent`).
-/

namespace RollupEngine

variable {W α β : Type}

/-! ## Fields that fit together -/

/-- There is a machine as long as the session runs, and a result once it is accepted. -/
structure SessionFields.Coherent (f : SessionFields) : Prop where
  working : f.working.isSome = true ↔ f.state = .running
  result : f.result.isSome = true ↔ f.state = .accepted

theorem Phase.fields_coherent (p : Phase) : p.fields.Coherent := by
  cases p <;> exact ⟨by simp [fields, state, working?], by simp [fields, state, result?]⟩

theorem Phase.fields_injective : Function.Injective fields := by
  intro p q h
  cases p <;> cases q <;> cases h <;> rfl

/-- The fields that fit together are those of a phase. -/
theorem SessionFields.exists_phase_iff {f : SessionFields} :
    (∃ p : Phase, p.fields = f) ↔ f.Coherent := by
  refine ⟨fun ⟨p, hp⟩ => hp ▸ p.fields_coherent, fun ⟨hw, hr⟩ => ?_⟩
  obtain ⟨state, working, result⟩ := f
  cases state <;> cases working <;> cases result <;> simp at hw hr
  · exact ⟨.start, rfl⟩
  · exact ⟨.running _, rfl⟩
  · exact ⟨.accepted _, rfl⟩
  · exact ⟨.rejected, rfl⟩
  · exact ⟨.fatal, rfl⟩
  · exact ⟨.cancelled, rfl⟩

theorem FieldSeat.run_update (f : SessionFields → SessionFields) (s : FieldSeat W) :
    (update f).run s = .ok () { s with fields := f s.fields } := rfl

namespace Seat

/-- A seat with its session in fields. -/
def inFields (s : Seat W) : FieldSeat W where
  toDesk := s.toDesk
  kind := s.session.kind
  payload := s.session.payload
  isolation := s.session.isolation
  fields := s.session.phase.fields

theorem state_inFields {s : Seat W} {p : Phase} (hp : s.session.phase = p) :
    s.inFields.fields.state = p.state := by
  rw [← hp]
  rfl

theorem runs_inFields {s : Seat W} {w : Handle} (hp : s.session.phase = .running w) :
    s.inFields.fields.state = .running :=
  state_inFields hp

theorem fresh_inFields {s : Seat W} (hp : s.session.phase = .start) :
    s.inFields.fields.state = .start :=
  state_inFields hp

theorem over_inFields {s : Seat W} (hp : s.session.phase.done = true) :
    s.inFields.fields.state ≠ .start ∧ s.inFields.fields.state ≠ .running := by
  rw [state_inFields rfl]
  cases hp' : s.session.phase <;> simp [hp', Phase.done, Phase.state] at hp ⊢

/-- At the seat `s`, an operation on the fields does what one on the phase does. -/
def Mirrors (act : Act (Seat W) α) (act' : Act (FieldSeat W) α) (s : Seat W) : Prop :=
  act'.run s.inFields = Act.mapState inFields (act.run s)

namespace Mirrors

variable {act : Act (Seat W) α} {act' : Act (FieldSeat W) α} {s : Seat W}

/-- Only what is run at the seat counts. -/
theorem of_run {actor : Act (Seat W) α} {actor' : Act (FieldSeat W) α} (h : Mirrors act act' s)
    (ha : actor.run s = act.run s) (ha' : actor'.run s.inFields = act'.run s.inFields) :
    Mirrors actor actor' s := by
  unfold Mirrors at h ⊢
  rw [ha, ha', h]

theorem bind {k : α → Act (Seat W) β} {k' : α → Act (FieldSeat W) β} (h : Mirrors act act' s)
    (hk : ∀ a t, act.run s = .ok a t → Mirrors (k a) (k' a) t) :
    Mirrors (act >>= k) (act' >>= k') s := by
  unfold Mirrors at h ⊢
  rw [EStateM.run_bind, EStateM.run_bind, h]
  cases hrun : act.run s with
  | ok a t => exact hk a t hrun
  | error f t => rfl

theorem rescue {handler : Failure → Act (Seat W) α} {handler' : Failure → Act (FieldSeat W) α}
    (h : Mirrors act act' s)
    (hf : ∀ f t, act.run s = .error f t → Mirrors (handler f) (handler' f) t) :
    Mirrors (Act.rescue act handler) (Act.rescue act' handler') s := by
  unfold Mirrors at h ⊢
  rw [Act.run_rescue, Act.run_rescue, h]
  cases hrun : act.run s with
  | ok a t => rfl
  | error f t =>
    dsimp only [Act.mapState_error]
    split
    · exact hf f t hrun
    · rfl

theorem attempt (h : Mirrors act act' s) : Mirrors (Act.attempt act) (Act.attempt act') s := by
  unfold Mirrors at h ⊢
  rw [Act.run_attempt, Act.run_attempt, Act.outcome, Act.final, Act.outcome, Act.final, h]
  cases act.run s <;> rfl

theorem onDesk (act : Act (Desk W) α) (s : Seat W) :
    Mirrors (Seat.onDesk act) (FieldSeat.onDesk act) s := by
  change Act.mapState _ (act.run s.toDesk) = Act.mapState _ (Act.mapState _ (act.run s.toDesk))
  cases act.run s.toDesk <;> rfl

theorem note (n : Notice) (s : Seat W) : Mirrors (Seat.note n) (FieldSeat.note n) s :=
  onDesk (Desk.onSite (Site.note n)) s

/-- What is done as on a phase leaves fields that fit together. -/
theorem coherent (h : Mirrors act act' s) : (Act.final act' s.inFields).fields.Coherent := by
  unfold Mirrors at h
  rw [Act.final, h]
  cases act.run s <;> exact Phase.fields_coherent _

end Mirrors

/-- What is done at the desk does not touch the session. -/
theorem session_of_onDesk (act : Act (Desk W) α) {s t : Seat W} {o : Except Failure α}
    (h : (onDesk act).run s = Act.result o t) : t.session = s.session := by
  rw [run_onDesk] at h
  cases hrun : act.run s.toDesk <;> rw [hrun] at h <;> cases o <;> cases h <;> rfl

theorem session_of_note {n : Notice} {s t : Seat W} (h : (note n).run s = .ok () t) :
    t.session = s.session :=
  session_of_onDesk (Desk.onSite (Site.note n)) (o := .ok ()) h

variable {b : Backend W} {s : Seat W} {w : Handle} {p : Phase}

/-- A session ends alike, if all that its fields lack of the phase `p` is the state and that there
is no machine. -/
theorem run_finish {t : FieldSeat W} (commits : Bool)
    (ht : { t with fields := { t.fields with state := p.state, working := none } } =
      { s.inFields with fields := p.fields }) :
    (FieldSeat.finish b p.state commits).run t =
      Act.mapState inFields ((finish b p commits).run s) := by
  let s' : Seat W := { s with session := { s.session with phase := p } }
  rw [FieldSeat.finish, EStateM.run_bind, FieldSeat.run_update]
  dsimp only
  rw [EStateM.run_bind, FieldSeat.run_update, finish, EStateM.run_bind, run_enter]
  dsimp only
  rw [ht]
  refine (Mirrors.onDesk _ s').rescue fun f t _ => ?_
  obtain ⟨e, cause⟩ := f
  cases e <;> rfl

theorem finish_mirrors (commits : Bool) (hp : s.session.phase = .running w)
    (hw : p.working? = none) (hr : p.result? = none) :
    Mirrors (finish b p commits) (FieldSeat.finish b p.state commits) s := by
  refine run_finish commits ?_
  simp only [inFields, hp, Phase.fields, hw, hr]
  rfl

theorem failMachine_mirrors (f : Failure) (hp : s.session.phase = .running w) :
    Mirrors (failMachine b f : Act (Seat W) α) (FieldSeat.failMachine b f) s := by
  change Mirrors (do
    note (.machineFailed s.session.kind)
    Act.rescue (finish b .fatal false) fun _ => note (.rollbackFailed s.session.kind)
    throw (.fatalFrom "machine error: " (Failure.source "machine") f.error)) (do
    FieldSeat.note (.machineFailed s.session.kind)
    Act.rescue (FieldSeat.finish b .fatal false)
      fun _ => FieldSeat.note (.rollbackFailed s.session.kind)
    throw (.fatalFrom "machine error: " (Failure.source "machine") f.error)) s
  refine (Mirrors.note _ s).bind fun _ t ht => ?_
  have hp' : t.session.phase = .running w := by
    rw [session_of_note ht, hp]
  have hfinish : Mirrors (finish b .fatal false) (FieldSeat.finish b .fatal false) t :=
    finish_mirrors (p := .fatal) false hp' rfl rfl
  exact (hfinish.rescue fun _ u _ => Mirrors.note _ u).bind fun _ _ _ => rfl

theorem fail_mirrors (notice : InputKind → Notice) (message source : String)
    (hp : s.session.phase = .running w) :
    Mirrors (do
      finish b .fatal false
      note (notice s.session.kind)
      throw (.ofKind .fatal (some message) (Failure.source source)))
      (FieldSeat.fail b notice message source : Act (FieldSeat W) α) s := by
  have hfinish : Mirrors (finish b .fatal false) (FieldSeat.finish b .fatal false) s :=
    finish_mirrors (p := .fatal) false hp rfl rfl
  exact hfinish.bind fun _ t _ => (Mirrors.note _ t).bind fun _ _ _ => rfl

/-- A session starts alike. What its machine is, is told by a field. -/
theorem start_mirrors (hp : s.session.phase = .start) :
    Mirrors (start b >>= fun _ => pure ()) (FieldSeat.start b) s := by
  let mode := s.session.isolation
  have hbegin := Mirrors.onDesk (Desk.begin b mode) s
  change Mirrors ((onDesk (Desk.begin b mode) >>= fun w => do
    enter (.running w)
    note (.started s.session.kind s.session.payload.length)
    Act.rescue (onSite (b.callSend w s.session.kind.reason s.session.payload)) (failMachine b)
    pure w) >>= fun _ => pure ()) _ s
  simp only [bind_assoc, pure_bind]
  refine hbegin.bind fun w t ht => ?_
  have ht : t.session = s.session := session_of_onDesk _ (o := .ok w) ht
  let t' : Seat W := { t with session := { t.session with phase := .running w } }
  have hsend : Mirrors (do
      note (.started s.session.kind s.session.payload.length)
      Act.rescue (onSite (b.callSend w s.session.kind.reason s.session.payload)) (failMachine b)
      pure ()) (do
      FieldSeat.note (.started s.session.kind s.session.payload.length)
      Act.rescue (FieldSeat.onSite (b.callSend w s.session.kind.reason s.session.payload))
        (FieldSeat.failMachine b)) t' := by
    refine (Mirrors.note _ t').bind fun _ u hu => ?_
    have hu : u.session.phase = .running w := by rw [session_of_note hu]
    rw [bind_pure_unit]
    refine (Mirrors.onDesk (Desk.onSite _) u).rescue fun f v hv => ?_
    exact failMachine_mirrors f (by rw [session_of_onDesk _ (o := .error f) hv, hu])
  have hfields : t'.inFields = { t.inFields with
      fields := { state := .running, working := some w, result := t.inFields.fields.result } } := by
    simp only [inFields, t', ht, hp]
    rfl
  unfold Mirrors at hsend
  rw [hfields] at hsend
  exact hsend

/-- A session that runs has a machine to hear. -/
theorem hear_mirrors (hp : s.session.phase = .running w) :
    Mirrors (Act.rescue (onSite (readTurn b w)) (failMachine b)) (FieldSeat.hear b) s := by
  have hear : (FieldSeat.hear b).run s.inFields =
      (Act.rescue (FieldSeat.onSite (readTurn b w)) (FieldSeat.failMachine b)).run s.inFields := by
    rw [FieldSeat.hear, EStateM.run_bind, EStateM.run_get]
    dsimp only
    rw [show s.inFields.fields.working = some w by rw [inFields, hp]; rfl]
  refine hear.trans ((Mirrors.onDesk (Desk.onSite (readTurn b w)) s).rescue fun f t ht => ?_)
  exact failMachine_mirrors f (by rw [session_of_onDesk _ (o := .error f) ht, hp])

/-- A machine that was heard has not ended its session by that. -/
theorem session_of_hear {r : Reading} {t : Seat W}
    (h : (Act.rescue (onSite (readTurn b w)) (failMachine b)).run s = .ok r t) :
    t.session = s.session := by
  rw [Act.run_rescue] at h
  cases hrun : (onSite (readTurn b w)).run s with
  | ok r' t' =>
    rw [hrun] at h
    cases h
    exact session_of_onDesk (Desk.onSite (readTurn b w)) (o := .ok r) hrun
  | error f t' =>
    obtain ⟨_, _, g, u, hfail, -⟩ := failMachine_cases (α := Reading) b f t'
    simp only [hrun] at h
    split at h
    · cases hfail.run.symm.trans h
    · cases h

/-- The event that a turn delivers. -/
def Turn.event? : Turn → Option StreamEvent
  | .delivered event => some event
  | .ignored | .over => none

/-- An event of the stream is delivered alike. -/
theorem deliver_mirrors (event : StreamEvent) (hp : s.session.phase = .running w) :
    Mirrors (deliver b event >>= fun t => pure t.event?) (FieldSeat.act b (.event (.stream event)))
      s := by
  have violated : Mirrors (failProtocol b .outputInInspect >>= fun t => pure (Turn.event? t))
      (FieldSeat.failProtocol b .outputInInspect) s := by
    unfold failProtocol
    simp only [bind_assoc]
    exact fail_mirrors _ _ _ hp
  obtain ⟨d, kind, payload, isolation, phase⟩ := s
  cases kind with
  | advance => cases event <;> rfl
  | inspect =>
    cases event with
    | output => exact violated
    | report | progress => rfl

/-- An ending ends the session alike. -/
theorem conclude_mirrors (ending : Ending) (hp : s.session.phase = .running w) :
    Mirrors (conclude b ending >>= fun t => pure t.event?)
      (FieldSeat.act b (.event (.ending ending))) s := by
  cases ending with
  | accepted result =>
    -- the result is there before the state is, but nobody sees it
    let kept := s.session.kind.commits
    have hfinish : Mirrors (finish b (.accepted result) kept) (do
        FieldSeat.update ({ · with result := some result })
        FieldSeat.finish b .accepted kept) s :=
      run_finish (p := .accepted result) kept (by simp only [inFields, hp, Phase.fields]; rfl)
    have hdone : Mirrors (finish b (.accepted result) kept >>= fun _ => pure Turn.over.event?) (do
        FieldSeat.update ({ · with result := some result })
        FieldSeat.finish b .accepted kept
        pure none) s := hfinish.bind fun _ _ _ => rfl
    simp only [conclude, bind_assoc, pure_bind]
    exact hdone.of_run rfl rfl
  | rejected =>
    have hfinish : Mirrors (finish b .rejected false) (FieldSeat.finish b .rejected false) s :=
      finish_mirrors (p := .rejected) false hp rfl rfl
    simp only [conclude, bind_assoc]
    exact hfinish.bind fun _ t _ => (Mirrors.note _ t).bind fun _ _ _ => rfl
  | exception d =>
    have hfail := fail_mirrors (α := Option StreamEvent) (b := b) (.guestException · d) d "guest" hp
    simp only [conclude, failGuest, bind_assoc]
    exact hfail.of_run rfl rfl
  | violation v =>
    have hfail := fail_mirrors (α := Option StreamEvent) (b := b) (.violation · v.description)
      v.description "protocol" hp
    simp only [conclude, failProtocol, bind_assoc]
    exact hfail.of_run rfl rfl

/-- A turn is to hear the machine and to act on its break. -/
theorem turn_mirrors (hp : s.session.phase = .running w) :
    Mirrors (turn b w >>= fun t => pure t.event?) (FieldSeat.hear b >>= FieldSeat.act b) s := by
  unfold turn
  rw [bind_assoc]
  refine (hear_mirrors hp).bind fun r t ht => ?_
  have hp : t.session.phase = .running w := by rw [session_of_hear ht, hp]
  cases r with
  | undecodableProgress | unknownYield =>
    rw [bind_assoc]
    exact (Mirrors.note _ t).bind fun _ _ _ => rfl
  | unwritable => rfl
  | event event =>
    cases event with
    | stream event => exact deliver_mirrors event hp
    | ending ending => exact conclude_mirrors ending hp

/-- A session that is over delivers nothing any more. -/
theorem run_loop_over (n : Nat) (hp : s.session.phase.done = true) :
    (FieldSeat.loop b n).run s.inFields = .ok none s.inFields := by
  cases n <;> simp [FieldSeat.loop, (over_inFields hp).2]

theorem run_loop_succ (n : Nat) (hp : s.session.phase = .running w) :
    (FieldSeat.loop b (n + 1)).run s.inFields = (FieldSeat.hear b >>= FieldSeat.act b >>= fun
      | some event => pure (some event)
      | none => FieldSeat.loop b n).run s.inFields := by
  rw [bind_assoc, FieldSeat.loop, EStateM.run_bind, EStateM.run_get]
  exact congrArg (EStateM.run · s.inFields) (if_pos (runs_inFields hp))

/-- As long as a session runs, it looks for its machine and finds it. -/
theorem loop_mirrors (n : Nat) (hp : s.session.phase = .running w) :
    Mirrors (turns b w n) (FieldSeat.loop b n) s := by
  induction n generalizing s with
  | zero =>
    rw [Mirrors, FieldSeat.loop, EStateM.run_bind, EStateM.run_get]
    dsimp only
    rw [if_pos (runs_inFields hp)]
    rfl
  | succ n ih =>
    obtain ⟨_, _, o, t, hrun, hturns, -⟩ := turn_cases b hp
    have hevent : (turn b w >>= fun t => pure t.event?).run s =
        Act.result (o.map Turn.event?) t := by
      rw [EStateM.run_bind, hrun.run]
      cases o <;> rfl
    have hturn := turn_mirrors (b := b) hp
    rw [Mirrors, hevent] at hturn
    unfold Mirrors
    rw [run_loop_succ n hp, EStateM.run_bind, hturn, turns, EStateM.run_bind, hrun.run]
    rcases o with f | event | _ | _
    · rfl
    · rfl
    · exact ih (hturns.running_of_ignored rfl)
    · obtain ⟨result, ht⟩ := hturns.accepted_of_over rfl
      exact run_loop_over n (by rw [ht]; rfl)

/-- A session that runs goes on as long as its host is willing to. -/
theorem advance_mirrors (hp : s.session.phase = .running w) :
    Mirrors (advance b w) (do FieldSeat.loop b ((← get).patience b)) s := by
  refine (loop_mirrors (b.patience w s.world) hp).of_run rfl ?_
  have hpatience : s.inFields.patience b = b.patience w s.world := by
    simp [FieldSeat.patience, inFields, hp, Phase.fields, Phase.working?]
  rw [← hpatience]
  rfl

/-- To pull a session comes to the same in both ways. -/
theorem pull_mirrors (b : Backend W) (s : Seat W) : Mirrors (pull b) (FieldSeat.pull b) s := by
  unfold Mirrors
  rw [FieldSeat.pull, EStateM.run_bind, EStateM.run_get]
  dsimp only
  cases hp : s.session.phase with
  | start =>
    obtain ⟨_, _, o, t, hrun, hstarts, -⟩ := start_cases b hp
    have hstart := start_mirrors (b := b) hp
    rw [Mirrors, EStateM.run_bind, hrun.run] at hstart
    rw [run_pull_start b hp, EStateM.run_bind, hrun.run, if_pos (fresh_inFields hp),
      EStateM.run_bind, hstart]
    cases o with
    | error f => rfl
    | ok w => exact advance_mirrors (hstarts.running_of_ok rfl)
  | running w =>
    rw [run_pull_running b hp, if_neg (by rw [runs_inFields hp]; decide)]
    exact advance_mirrors hp
  | accepted | rejected | fatal | cancelled =>
    have hdone : s.session.phase.done = true := by rw [hp]; rfl
    rw [run_pull_over b hdone, if_neg (over_inFields hdone).1]
    exact run_loop_over _ hdone

/-- So does to close it. -/
theorem close_mirrors (b : Backend W) (s : Seat W) : Mirrors (close b) (FieldSeat.close b) s := by
  unfold Mirrors
  rw [FieldSeat.close, EStateM.run_bind, EStateM.run_get]
  dsimp only
  cases hp : s.session.phase with
  | start =>
    rw [run_close_start b hp, if_pos (fresh_inFields hp), FieldSeat.run_update, inFields, hp]
    rfl
  | running w =>
    rw [if_neg (by rw [runs_inFields hp]; decide), if_pos (runs_inFields hp)]
    have hclose : Mirrors (note (.cancelled s.session.kind) >>= fun _ => finish b .cancelled false)
        (FieldSeat.note (.cancelled s.session.kind) >>= fun _ =>
          FieldSeat.finish b .cancelled false) s :=
      (Mirrors.note _ s).bind fun _ t ht =>
        finish_mirrors (p := .cancelled) false (by rw [session_of_note ht, hp]) rfl rfl
    refine hclose.of_run ?_ rfl
    simp only [close, EStateM.run_bind, EStateM.run_get, hp]
  | accepted | rejected | fatal | cancelled =>
    have hdone : s.session.phase.done = true := by rw [hp]; rfl
    rw [run_close_over b hdone, if_neg (over_inFields hdone).1, if_neg (over_inFields hdone).2]
    rfl

/-- And so does to let go of it. -/
theorem abandon_mirrors (b : Backend W) (s : Seat W) :
    Mirrors (abandon b) (FieldSeat.abandon b) s := by
  unfold Mirrors
  rw [FieldSeat.abandon, EStateM.run_bind, EStateM.run_get]
  dsimp only
  cases hp : s.session.phase with
  | running w =>
    rw [if_pos (runs_inFields hp)]
    refine Mirrors.of_run ((close_mirrors b s).attempt.bind fun o t _ => ?_)
      (run_abandon_running b hp) rfl
    cases o with
    | ok => rfl
    | error f =>
      simp only [mourn]
      split
      · exact Mirrors.note _ t
      · rfl
  | start =>
    rw [run_abandon b (by rw [hp]; rfl), if_neg (by rw [fresh_inFields hp]; decide)]
    rfl
  | accepted | rejected | fatal | cancelled =>
    have hdone : s.session.phase.done = true := by rw [hp]; rfl
    rw [run_abandon b (by rw [hp]; rfl), if_neg (over_inFields hdone).2]
    rfl

end Seat

namespace FieldSeat

/-- Fields that fit together are those of a seat. -/
theorem exists_seat {s : FieldSeat W} (h : s.fields.Coherent) : ∃ t : Seat W, t.inFields = s := by
  obtain ⟨d, kind, payload, isolation, fields⟩ := s
  obtain ⟨p, rfl⟩ := SessionFields.exists_phase_iff.2 h
  exact ⟨⟨d, { kind, payload, isolation, phase := p }⟩, rfl⟩

/-- Whatever is done with a session, its fields go on fitting together. -/
theorem stays_coherent (b : Backend W) {s : FieldSeat W} (h : s.fields.Coherent) :
    (Act.final (pull b) s).fields.Coherent ∧ (Act.final (close b) s).fields.Coherent ∧
      (Act.final (abandon b) s).fields.Coherent := by
  obtain ⟨t, rfl⟩ := exists_seat h
  exact ⟨(Seat.pull_mirrors b t).coherent, (Seat.close_mirrors b t).coherent,
    (Seat.abandon_mirrors b t).coherent⟩

end FieldSeat

end RollupEngine

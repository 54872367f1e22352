import RollupEngine.Proofs.Modes
import RollupEngine.Proofs.Scripted.Tending
import RollupEngine.Proofs.Shutdown

/-!
# Engines that hold the same

An engine is known by its answers. In a world of the ledger guest they depend on what the canonical
machine holds, and on nothing else: not on the handles of the machines, not on the machines of
others, and not on how the canonical machine came to hold it.

Two rooms are twins (`Room.Twins`) if their canonical machines hold the same and their sessions have
come equally far. A session that runs is then beside another (`Seat.Beside`), whose machine has the
same left to do. Whatever is done with twins, they answer alike and stay twins
(`EngineOp.perform_twins`), be they isolated or direct.
-/

namespace RollupEngine

open Scripted

variable {W W' : Type}

/-! ## Sessions that are refused -/

namespace Seat

/-- A session at rest, at two desks. -/
structure Barred (d : Desk W) (d' : Desk W') (s : Seat W) (s' : Seat W') : Prop where
  desk : s.toDesk = d
  desk' : s'.toDesk = d'
  session : s'.session = s.session
  rests : s.session.phase.working? = none

/-- At desks that refuse in the same way, a session at rest stays at rest, and its desk stays as it
is. -/
theorem barred_lockstep (b : Backend W) (b' : Backend W') {d : Desk W} {d' : Desk W'} {f : Failure}
    (hf : d.controller.refusal? = some f) (hf' : d'.controller.refusal? = some f) :
    Lockstep b b' (Barred d d') := by
  have rests {s : Seat W} {s' : Seat W'} (h : Barred d d' s s') : ∃ o t t',
      Rests b s o t ∧ Rests b' s' o t' ∧ Barred d d' t t' := by
    obtain ⟨rfl, rfl, hsession, hs⟩ := h
    rcases Phase.working?_eq_none_iff.1 hs with hp | hp
    · refine ⟨.error f, _, _, rests_of_refused b hp hf,
        rests_of_refused b' (by rw [hsession, hp]) hf', rfl, rfl, ?_, rfl⟩
      rw [hsession]
    · exact ⟨.ok (), s, s', rests_of_done b hp, rests_of_done b' (by rw [hsession, hp]),
        rfl, rfl, hsession, hs⟩
  refine
    { pull := fun {s s'} h => ?pull, drain := fun {s s'} h => ?drain,
      close := fun {s s'} h => ?close, abandon := fun {s s'} h => ?abandon,
      looks := fun {s s'} h => ?looks }
  case pull =>
    obtain ⟨o, t, t', hrests, hrests', -⟩ := rests h
    exact ⟨_, s, s', hrests.pull, hrests'.pull, h⟩
  case drain =>
    obtain ⟨o, t, t', hrests, hrests', -⟩ := rests h
    exact ⟨.ok _, s, s', run_drain_of_last hrests.pull, run_drain_of_last hrests'.pull, h⟩
  case close =>
    obtain ⟨o, t, t', hrests, hrests', ht⟩ := rests h
    exact ⟨.ok (), t, t', hrests.close, hrests'.close, ht⟩
  case abandon =>
    obtain ⟨o, t, t', hrests, hrests', -⟩ := rests h
    exact ⟨.ok (), s, s', hrests.abandon, hrests'.abandon, h⟩
  case looks =>
    rw [h.session]
    exact ⟨rfl, rfl⟩

/-! ## Sessions that run side by side -/

variable {g g' : Backdrop} {m n : Machine} {s s' t t' : Seat World}

/-- Two sessions with the same input run on machines that have the same left to do, and the
canonical machines behind them hold the same. -/
structure Beside (g g' : Backdrop) (m : Machine) (s s' : Seat World) : Prop where
  session : s'.session = s.session.inPhase s'.session.phase
  programs : g.programs = []
  programs' : g'.programs = []
  base : g'.base = g.base
  engaged : s.Engaged g m
  engaged' : s'.Engaged g' m

/-- Two sessions with the same input have come equally far, and the canonical machines hold the
same. -/
inductive Twins (s s' : Seat World) : Prop
  | resting {sends sends' : Nat} {ledger : Ledger} (hsession : s'.session = s.session)
    (hp : s.session.phase.working? = none) (h : s.Ready [] sends ledger)
    (h' : s'.Ready [] sends' ledger)
  | running {g g' : Backdrop} {m : Machine} (h : Beside g g' m s s')

namespace Beside

theorem kind_eq (h : Beside g g' m s s') : s'.session.kind = s.session.kind := by
  rw [h.session]
  rfl

theorem isolation_eq (h : Beside g g' m s s') :
    s'.session.isolation = s.session.isolation := by
  rw [h.session]
  rfl

theorem step (h : Beside g g' m s s') (ht : t.session = s.session ∧ t.Engaged g n)
    (ht' : t'.session = s'.session ∧ t'.Engaged g' n) : Beside g g' n t t' :=
  ⟨by rw [ht.1, ht'.1, ← h.session], h.programs, h.programs', h.base, ht.2, ht'.2⟩

/-- Sessions that are left in the same way are twins. -/
theorem left {finale : Finale} (h : Beside g g' m s s') (hfair : finale.Fair s.session.kind)
    (ht : Left g n s t finale) (ht' : Left g' n s' t' finale) : Twins t t' := by
  cases finale with
  | suspended => exact .running (h.step ht ht')
  | ended failure? phase kept =>
    obtain ⟨ht, -, hready⟩ := ht
    obtain ⟨ht', -, hready'⟩ := ht'
    rw [h.programs] at hready
    rw [h.programs', h.isolation_eq, h.base] at hready'
    refine .resting ?_ ?_ hready hready'
    · rw [ht, ht', h.session]
      rfl
    · rw [ht]
      exact Phase.working?_of_done hfair.1

theorem relates (h : Beside g g' m s s') : Relates Twins g g' s s' where
  running ht ht' := .running (h.step ht ht')
  left := h.left

theorem pull_alike (h : Beside g g' m s s') :
    (pull backend).Alike Twins (pull backend) s s' :=
  h.relates.pull_alike h.kind_eq h.engaged h.engaged'

end Beside

namespace Twins

/-- Twins that begin run side by side from then on. -/
theorem beside_of_ready {sends sends' : Nat} {ledger : Ledger} (hsession : s'.session = s.session)
    (hp : s.session.phase = .start) (h : s.Ready [] sends ledger) (h' : s'.Ready [] sends' ledger) :
    ∃ g g' m t t', (pull backend).run s = (pull backend).run t ∧
      (pull backend).run s' = (pull backend).run t' ∧ Beside g g' m t t' := by
  have hp' : s'.session.phase = .start := by rw [hsession, hp]
  obtain ⟨t, hstart, ht, hengaged⟩ := start_of_ready h nofun hp
  obtain ⟨t', hstart', ht', hengaged'⟩ := start_of_ready h' nofun hp'
  rw [hsession] at hengaged'
  refine ⟨s.backdrop [] sends ledger, s'.backdrop [] sends' ledger,
    newMachine ledger .ledger s.session, t, t', run_pull_started hp hstart (by rw [ht]; rfl),
    run_pull_started hp' hstart' (by rw [ht']; rfl), ?_, rfl, rfl, rfl, hengaged, hengaged'⟩
  rw [ht, ht', hsession]
  rfl

theorem pull_alike (h : Twins s s') : (pull backend).Alike Twins (pull backend) s s' := by
  cases h with
  | resting hsession hp h h' =>
    rcases Phase.working?_eq_none_iff.1 hp with hp | hp
    · obtain ⟨g, g', m, t, t', hrun, hrun', hbeside⟩ := beside_of_ready hsession hp h h'
      unfold Act.Alike
      rw [hrun, hrun']
      exact hbeside.pull_alike
    · exact ⟨.ok none, _, _, run_pull_over backend hp,
        run_pull_over backend (by rw [hsession, hp]), .resting hsession ‹_› h h'⟩
  | running h => exact h.pull_alike

theorem budget_eq (h : Twins s s') : budget backend s = budget backend s' := by
  cases h with
  | resting hsession hp =>
    rw [budget_of_not_running hp, budget_of_not_running (by rw [hsession, hp])]
  | running h => rw [h.engaged.budget_eq, h.engaged'.budget_eq]

/-- Whatever is done with twins, they look the same and stay twins. -/
theorem lockstep : Lockstep backend backend Twins where
  pull := pull_alike
  drain := drain_alike pull_alike budget_eq
  close {s s'} h := by
    cases h with
    | resting hsession hp h h' =>
      rcases Phase.working?_eq_none_iff.1 hp with hp | hp
      · refine ⟨.ok (), _, _, run_close_start backend hp,
          run_close_start backend (by rw [hsession, hp]), .resting ?_ rfl h h'⟩
        rw [hsession]
      · exact ⟨.ok (), s, s', run_close_over backend hp,
          run_close_over backend (by rw [hsession, hp]), .resting hsession ‹_› h h'⟩
    | running h =>
      obtain ⟨t, t', hrun, hrun', -, -, ht⟩ := h.relates.closed h.engaged h.engaged'
      exact ⟨.ok (), t, t', hrun, hrun', ht⟩
  abandon {s s'} h := by
    cases h with
    | resting hsession hp h h' =>
      exact ⟨.ok (), s, s', run_abandon backend hp,
        run_abandon backend (by rw [hsession, hp]), .resting hsession hp h h'⟩
    | running h =>
      obtain ⟨t, t', -, -, hrun, hrun', ht⟩ := h.relates.closed h.engaged h.engaged'
      exact ⟨.ok (), t, t', hrun, hrun', ht⟩
  looks h := by
    cases h with
    | resting hsession =>
      rw [hsession]
      exact ⟨rfl, rfl⟩
    | running h => simp [h.engaged.phase, h.engaged'.phase, Phase.state, Phase.result?]

end Twins

end Seat

/-! ## What the answers depend on -/

/-- Phases that look the same are over in the same cases. -/
theorem Phase.done_congr {p q : Phase} (h : p.state = q.state) : p.done = q.done := by
  cases p <;> cases q <;> first | rfl | cases h

/-- What sessions with the same input add is told from how they look. -/
theorem Session.adds_congr {s s' : Session} {p p' : Phase} (hs : s' = s.inPhase s'.phase)
    (hstate : s.phase.state = s'.phase.state) (hp : p.state = p'.state) :
    s'.adds p' = s.adds p := by
  have hdone : s'.phase.done = s.phase.done := (Phase.done_congr hstate).symm
  rw [hs]
  refine if_congr (and_congr Iff.rfl (and_congr ?_ ?_)) rfl rfl
  · rw [← hdone]
    rfl
  · rw [hp]

namespace EngineOp

variable {config : EngineConfig} {r : Room World} {programs : List Program} {sends : Nat}
  {ledger : Ledger}

/-- The canonical machine is saved. -/
theorem perform_store_of_ready (config : EngineConfig) (h : r.Ready programs sends ledger)
    (path : String) : ∃ s, (store path).perform backend config r =
        ({ outcome := .ok .itself }, { r with toSite := s }) ∧
      s.world = (r.world.count .store).save path ledger := by
  obtain ⟨m, hm, ha, rfl⟩ := h.holds
  have hstore := store_of_alive h.quiet.faults hm ha path
  obtain ⟨xs, ns, o, ⟨s, c⟩, hrun, hstores, rfl⟩ := Desk.store_cases backend path r.toDesk
  have hx : backend.Replays r.world xs s.world := hrun.follows.world
  cases hstores with
  | closed hc => cases h.idle.1.symm.trans hc
  | busy _ ht => simp [h.idle.2] at ht
  | failed =>
    obtain ⟨_, hreply, -⟩ := hx.head
    cases hstore.symm.trans hreply
  | stored =>
    obtain ⟨_, hreply, hnil⟩ := hx.head
    cases hnil
    refine ⟨s, Room.reply_onDesk hrun fun _ => .itself, ?_⟩
    exact (Prod.mk.inj (hstore.symm.trans hreply)).2.symm

/-- The canonical machine is released. -/
theorem perform_shutdown_of_ready (config : EngineConfig) (h : r.Ready programs sends ledger) :
    ∃ s, shutdown.perform backend config r = ({ outcome := .ok .done },
        { toSite := s
          controller := { r.controller with closed := true }
          sessions := r.sessions }) ∧
      s.world.ledgerOf r.controller.canonical = ledger := by
  obtain ⟨m, hm, ha, hledger⟩ := h.holds
  have hdown := shutdown_of_alive h.quiet.faults hm ha
  obtain ⟨reply, ns, s, hfollows, hperform⟩ :=
    (r.shutsDown backend config).idle (Controller.state_eq_idle_iff.2 h.idle)
  obtain ⟨w, hreply, hnil⟩ := hfollows.world.head
  obtain rfl : w = s.world := by
    cases hnil
    rfl
  obtain ⟨rfl, hw⟩ := Prod.mk.inj (hdown.symm.trans hreply)
  refine ⟨s, hperform, ?_⟩
  rw [← hw]
  refine Eq.trans (World.ledgerOf_setMachine (w := r.world.count .shutdown) hm ?_ _)
    h.canonicalLedger_eq
  rfl

end EngineOp

/-! ## Rooms -/

/-- Two rooms whose sessions have come equally far. As long as they are open, their canonical
machines hold the same. -/
inductive Room.Twins (r r' : Room World) : Prop
  | idle {sends sends' : Nat} {ledger : Ledger} (hs : r'.sessions = r.sessions)
    (h : r.Ready [] sends ledger) (h' : r'.Ready [] sends' ledger)
  | running {g g' : Backdrop} {m : Machine} {n : Nat} {s s' : Session} (hn : r.session? n = some s)
    (hs : r'.sessions = r.sessions.set n (some s'))
    (h : Seat.Beside g g' m ⟨r.toDesk, s⟩ ⟨r'.toDesk, s'⟩)
  | closed (hs : r'.sessions = r.sessions) (hc : r.controller.closed = true)
    (hc' : r'.controller.closed = true) (hledger : r'.canonicalLedger = r.canonicalLedger)

/-- The canonical machines of twins hold the same. -/
theorem Room.Twins.canonicalLedger_eq {r r' : Room World} (h : r.Twins r') :
    r'.canonicalLedger = r.canonicalLedger := by
  cases h with
  | idle _ h h' => rw [h.canonicalLedger_eq, h'.canonicalLedger_eq]
  | running _ _ h =>
    have hledger := h.engaged.canonicalLedger_eq
    have hledger' := h.engaged'.canonicalLedger_eq
    rw [h.isolation_eq, h.base] at hledger'
    exact hledger'.trans hledger.symm
  | closed _ _ _ hledger => exact hledger

/-- Rooms with twins at a place are twins, if their sessions are the same apart from it. -/
theorem Seat.Twins.room {t t' : Seat World} (h : t.Twins t') {ss : List (Option Session)} {n : Nat}
    (hn : n < ss.length) {keeps : Bool}
    (hkeeps : keeps = false → t.session.phase.working? = none) :
    Room.Twins
      { toDesk := t.toDesk, sessions := ss.set n (if keeps then some t.session else none) }
      { toDesk := t'.toDesk, sessions := ss.set n (if keeps then some t'.session else none) } := by
  cases h with
  | resting hsession _ h h' => exact .idle (by rw [hsession]) h h'
  | running h =>
    cases keeps with
    | false => simp [h.engaged.phase, Phase.working?] at hkeeps
    | true =>
      refine .running (n := n) (s := t.session) ?_ ?_ h
      · simp [Room.session?, hn]
      · simp

namespace EngineOp

/-- Two rooms answer an operation alike, it adds the same to what they have committed, and it leaves
twins. -/
structure Together (config : EngineConfig) (op : EngineOp) (r r' : Room World) : Prop where
  answer : (op.perform backend config r').1 = (op.perform backend config r).1
  adds : op.adds backend config r' = op.adds backend config r
  twins : (op.perform backend config r).2.Twins (op.perform backend config r').2

section

variable {config : EngineConfig} {r r' : Room World} {R : Seat World → Seat World → Prop}

/-- An operation that changes neither room. -/
theorem together_unchanged {op : EngineOp} {a : Answer}
    (hperform : op.perform backend config r = (a, r))
    (hperform' : op.perform backend config r' = (a, r'))
    (hadds : op.adds backend config r' = op.adds backend config r) (h : r.Twins r') :
    op.Together config r r' := by
  refine ⟨?_, hadds, ?_⟩ <;> rw [hperform, hperform']
  exact h

/-- An operation on sessions in lockstep. -/
theorem together_session (hR : Seat.Lockstep backend backend R) {n : Nat} {s s' : Session}
    (hn : r.session? n = some s) (hn' : r'.session? n = some s') (hs : s' = s.inPhase s'.phase)
    (h : R ⟨r.toDesk, s⟩ ⟨r'.toDesk, s'⟩) (op : SessionOp)
    (htwins : ∀ t t', R t t' → (op.keeps = false → t.session.phase.working? = none) →
      Room.Twins
        { toDesk := t.toDesk
          sessions := r.sessions.set n (if op.keeps then some t.session else none) }
        { toDesk := t'.toDesk
          sessions := r'.sessions.set n (if op.keeps then some t'.session else none) }) :
    (session n op).Together config r r' := by
  obtain ⟨hanswer, hafter⟩ := op.perform_alike hR h
  refine ⟨?_, ?_, ?_⟩
  · rw [perform_session backend config hn, perform_session backend config hn']
    exact hanswer.symm
  · rw [adds, adds, acting?, acting?, hn, hn']
    exact Session.adds_congr hs (hR.looks h).1 (hR.looks hafter).1
  · rw [perform_session backend config hn, perform_session backend config hn']
    exact htwins _ _ hafter fun hkeeps =>
      op.working?_eq_none_of_not_keeps backend hkeeps ⟨r.toDesk, s⟩

/-- Sessions in lockstep that are collected where they are made. -/
theorem together_collected (hR : Seat.Lockstep backend backend R) {kind : InputKind}
    {payload : Bytes} {choice : Option Bool} (hc : r.controller.closed = false)
    (hc' : r'.controller.closed = false) (hcollects : config.collects choice = true)
    (h : R ⟨r.toDesk, config.session kind payload⟩ ⟨r'.toDesk, config.session kind payload⟩)
    (htwins : ∀ t t', R t t' → t.session.phase.working? = none →
      Room.Twins { r with toDesk := t.toDesk } { r' with toDesk := t'.toDesk }) :
    (submit kind (.bytes payload) choice).Together config r r' := by
  obtain ⟨o, t, t', hrun, hrun', ht⟩ := hR.collect kind h
  have hcollect {r : Room World} {t : Seat World} (hc : r.controller.closed = false)
      (hrun : (Seat.collect backend kind).run ⟨r.toDesk, config.session kind payload⟩ =
        Act.result o t) :
      (submit kind (.bytes payload) choice).perform backend config r =
          ({ outcome := o.map .collected }, { r with toDesk := t.toDesk }) ∧
        (submit kind (.bytes payload) choice).adds backend config r =
          (config.session kind payload).adds t.session.phase := by
    refine ⟨perform_collected backend hc hcollects hrun, ?_⟩
    simp [adds, acting?, hc, hcollects, SessionOp.final_collect hrun]
  have hrests : t.session.phase.working? = none := by
    obtain ⟨_, _, o', u, hwalks, hu⟩ :=
      Seat.collect_walks backend kind ⟨r.toDesk, config.session kind payload⟩
    obtain ⟨-, rfl⟩ := Act.result_inj (hwalks.run.symm.trans hrun)
    exact hu
  obtain ⟨hperform, hadds⟩ := hcollect hc hrun
  obtain ⟨hperform', hadds'⟩ := hcollect hc' hrun'
  refine ⟨?_, ?_, ?_⟩
  · rw [hperform, hperform']
  · rw [hadds, hadds']
    exact Session.adds_congr rfl rfl (hR.looks ht).1
  · rw [hperform, hperform']
    exact htwins t t' ht hrests

end

section

variable {config : EngineConfig} {r r' : Room World} {own : List Exchange}

/-- Neither room holds the session. -/
theorem together_absent {n : Nat} (hn : r.session? n = none) (hn' : r'.session? n = none)
    (op : SessionOp) (h : r.Twins r') : (session n op).Together config r r' :=
  together_unchanged (perform_session_none backend config hn op)
    (perform_session_none backend config hn' op) (by simp [adds, acting?, hn, hn']) h

/-- The input is no byte string. -/
theorem together_other (kind : InputKind) (typeName : String) (choice : Option Bool)
    (hc : r.controller.closed = false) (hc' : r'.controller.closed = false) (h : r.Twins r') :
    (submit kind (.other typeName) choice).Together config r r' :=
  together_unchanged
    (Answer.reply_of_run (o := .error _) (run_submit_other backend config kind typeName choice hc))
    (Answer.reply_of_run (o := .error _) (run_submit_other backend config kind typeName choice hc'))
    rfl h

/-- The machine is not saved. -/
theorem together_unsaved (path : String) {f : Failure} (hf : r.controller.refusal? = some f)
    (hf' : r'.controller.refusal? = some f) (h : r.Twins r') :
    (store path).Together config r r' :=
  together_unchanged (perform_store_of_refusal backend config path hf)
    (perform_store_of_refusal backend config path hf') rfl h

/-- A session at rest, while the controllers refuse. -/
theorem together_barred {f : Failure} (hf : r.controller.refusal? = some f)
    (hf' : r'.controller.refusal? = some f) {n : Nat} {s : Session} (hn : r.session? n = some s)
    (hn' : r'.session? n = some s) (hs : s.phase.working? = none) (op : SessionOp)
    (htwins : ∀ place, Room.Twins { r with sessions := r.sessions.set n place }
      { r' with sessions := r'.sessions.set n place }) : (session n op).Together config r r' := by
  refine together_session (Seat.barred_lockstep backend backend hf hf') hn hn' rfl
    ⟨rfl, rfl, rfl, hs⟩ op fun t t' ht _ => ?_
  rw [ht.desk, ht.desk', ht.session]
  exact htwins _

/-- Idle twins. -/
theorem together_of_idle {sends sends' : Nat} {ledger : Ledger} (hs : r'.sessions = r.sessions)
    (h : r.Ready [] sends ledger) (h' : r'.Ready [] sends' ledger)
    (hlinked : r.Linked config.isolation own) (op : EngineOp) : op.Together config r r' := by
  have htwins : r.Twins r' := .idle hs h h'
  cases op with
  | submit kind input choice =>
    cases input with
    | other typeName => exact together_other kind typeName choice h.idle.1 h'.idle.1 htwins
    | bytes payload =>
      cases hc : config.collects choice with
      | false =>
        have hopened := perform_opened backend kind payload h.idle.1 hc
        have hopened' := perform_opened backend kind payload h'.idle.1 hc
        refine ⟨?_, ?_, ?_⟩
        · rw [hopened, hopened', hs]
        · simp [adds, acting?, hc]
        · rw [hopened, hopened']
          exact .idle (by rw [hs]) h h'
      | true =>
        refine together_collected Seat.Twins.lockstep h.idle.1 h'.idle.1 hc
          (.resting rfl rfl h h') fun t t' ht hp => ?_
        cases ht with
        | resting _ _ h h' => exact .idle hs h h'
        | running h => simp [h.engaged.phase, Phase.working?] at hp
  | store path =>
    have hready {r : Room World} {s : Site World} {sends : Nat} (h : r.Ready [] sends ledger)
        (hs : s.world = (r.world.count .store).save path ledger) :
        ({ r with toSite := s } : Room World).Ready [] sends ledger := by
      refine ⟨h.idle, ?_, ?_⟩ <;> dsimp only <;> rw [hs]
      · exact ⟨h.quiet.faults, h.quiet.programs, h.quiet.sends⟩
      · exact h.holds
    obtain ⟨site, hstore, hw⟩ := perform_store_of_ready config h path
    obtain ⟨site', hstore', hw'⟩ := perform_store_of_ready config h' path
    refine ⟨?_, rfl, ?_⟩ <;> rw [hstore, hstore']
    exact .idle hs (hready h hw) (hready h' hw')
  | shutdown =>
    obtain ⟨site, hdown, hledger⟩ := perform_shutdown_of_ready config h
    obtain ⟨site', hdown', hledger'⟩ := perform_shutdown_of_ready config h'
    refine ⟨?_, rfl, ?_⟩ <;> rw [hdown, hdown']
    exact .closed hs rfl rfl (hledger'.trans hledger.symm)
  | session n op =>
    have hsame : r'.session? n = r.session? n := by rw [Room.session?, hs]; rfl
    cases hn : r.session? n with
    | none => exact together_absent hn (hsame.trans hn) op htwins
    | some s =>
      have hrests : s.phase.working? = none :=
        (Room.working?_eq hn).symm.trans (hlinked.working?_eq_none h.idle.2 n)
      refine together_session Seat.Twins.lockstep hn (hsame.trans hn) rfl
        (.resting rfl hrests h h') op fun t t' ht hkeeps => ?_
      rw [hs]
      exact ht.room (Room.lt_length hn) hkeeps

/-- While a session runs, the controller is busy. -/
theorem refusal?_of_engaged {g : Backdrop} {m : Machine} {s : Seat World} (h : s.Engaged g m) :
    s.controller.refusal? = some (.ofKind .busy) := by
  obtain ⟨hopen, hbusy⟩ := Controller.state_eq_inSession_iff.1 h.state_eq
  exact Controller.refusal?_of_busy hopen (Option.isSome_iff_ne_none.1 hbusy)

/-- Twins with a session that runs. -/
theorem together_of_running {g g' : Backdrop} {m : Machine} {n : Nat} {s s' : Session}
    (hn : r.session? n = some s) (hs : r'.sessions = r.sessions.set n (some s'))
    (h : Seat.Beside g g' m ⟨r.toDesk, s⟩ ⟨r'.toDesk, s'⟩)
    (hlinked : r.Linked config.isolation own) (op : EngineOp) : op.Together config r r' := by
  have htwins : r.Twins r' := .running hn hs h
  have hlt : n < r.sessions.length := Room.lt_length hn
  have hn' : r'.session? n = some s' := by simp [Room.session?, hs, hlt]
  have hbusy := Controller.state_eq_inSession_iff.1 h.engaged.state_eq
  have hbusy' := Controller.state_eq_inSession_iff.1 h.engaged'.state_eq
  have hf : r.controller.refusal? = some (.ofKind .busy) := refusal?_of_engaged h.engaged
  have hf' : r'.controller.refusal? = some (.ofKind .busy) := refusal?_of_engaged h.engaged'
  have hruns : r.Runs n := ⟨s, hn, by rw [h.engaged.phase]; rfl⟩
  cases op with
  | submit kind input choice =>
    cases input with
    | other typeName => exact together_other kind typeName choice hbusy.1 hbusy'.1 htwins
    | bytes payload =>
      cases hc : config.collects choice with
      | false =>
        have hopened := perform_opened backend kind payload hbusy.1 hc
        have hopened' := perform_opened backend kind payload hbusy'.1 hc
        refine ⟨?_, ?_, ?_⟩
        · rw [hopened, hopened', hs, List.length_set]
        · simp [adds, acting?, hc]
        · rw [hopened, hopened']
          refine .running (n := n) ?_ ?_ h
          · rw [Room.session?_append, if_neg (Nat.ne_of_lt hlt), hn]
          · rw [hs, List.set_append_left _ _ hlt]
      | true =>
        refine together_collected (Seat.barred_lockstep backend backend hf hf') hbusy.1 hbusy'.1 hc
          ⟨rfl, rfl, rfl, rfl⟩ fun t t' ht _ => ?_
        rw [ht.desk, ht.desk']
        exact htwins
  | store path => exact together_unsaved path hf hf' htwins
  | shutdown =>
    exact together_unchanged ((r.shutsDown backend config).inSession h.engaged.state_eq)
      ((r'.shutsDown backend config).inSession h.engaged'.state_eq) rfl htwins
  | session k op =>
    by_cases hk : k = n
    · subst hk
      refine together_session Seat.Twins.lockstep hn hn' h.session (.running h) op
        fun t t' ht hkeeps => ?_
      rw [hs, List.set_set]
      exact ht.room hlt hkeeps
    · have hsame : r'.session? k = r.session? k := by
        rw [Room.session?, hs, List.getElem?_set_ne (Ne.symm hk)]
        rfl
      cases hk' : r.session? k with
      | none => exact together_absent hk' (hsame.trans hk') op htwins
      | some q =>
        have hrests : q.phase.working? = none :=
          Phase.working?_eq_none_iff.2 (hlinked.start_or_done hruns hk hk')
        refine together_barred hf hf' hk' (hsame.trans hk') hrests op fun place => ?_
        refine .running (n := n) (s := s) ?_ ?_ h
        · rw [Room.session?_set hk', if_neg (Ne.symm hk), hn]
        · rw [hs, List.set_comm _ _ (Ne.symm hk)]

/-- Twins that were shut down. -/
theorem together_of_closed (hs : r'.sessions = r.sessions) (hc : r.controller.closed = true)
    (hc' : r'.controller.closed = true) (hledger : r'.canonicalLedger = r.canonicalLedger)
    (hlinked : r.Linked config.isolation own) (op : EngineOp) : op.Together config r r' := by
  have htwins : r.Twins r' := .closed hs hc hc' hledger
  have hf := Controller.refusal?_of_closed hc
  have hf' := Controller.refusal?_of_closed hc'
  cases op with
  | submit kind input choice =>
    refine together_unchanged
      (Answer.reply_of_run (o := .error _) (run_submit_closed backend config kind input choice hc))
      (Answer.reply_of_run (o := .error _) (run_submit_closed backend config kind input choice hc'))
      ?_ htwins
    cases input <;> simp [adds, acting?, hc, hc']
  | store path => exact together_unsaved path hf hf' htwins
  | shutdown =>
    exact together_unchanged (perform_shutdown_of_closed backend config hc)
      (perform_shutdown_of_closed backend config hc') rfl htwins
  | session n op =>
    have hsame : r'.session? n = r.session? n := by rw [Room.session?, hs]; rfl
    cases hn : r.session? n with
    | none => exact together_absent hn (hsame.trans hn) op htwins
    | some s =>
      have hrests : s.phase.working? = none :=
        Phase.working?_eq_none_iff.2 (hlinked.start_or_done_of_closed hc hn)
      exact together_barred hf hf' hn (hsame.trans hn) hrests op fun place =>
        .closed (by rw [hs]) hc hc' hledger

/-- Whatever is done with twins, they answer alike and stay twins. -/
theorem perform_twins (h : r.Twins r') (hlinked : r.Linked config.isolation own) (op : EngineOp) :
    op.Together config r r' := by
  cases h with
  | idle hs h h' => exact together_of_idle hs h h' hlinked op
  | running hn hs h => exact together_of_running hn hs h hlinked op
  | closed hs hc hc' hledger => exact together_of_closed hs hc hc' hledger hlinked op

end

end EngineOp

end RollupEngine

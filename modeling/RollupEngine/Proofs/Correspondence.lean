import Mathlib.Logic.ExistsUnique
import RollupEngine.Proofs.Link

/-!
# Sessions and the transaction correspond

`Room.Corresponds` says how the transaction of a room corresponds to its sessions: it is open if
and only if exactly one session runs, and it works on the machine of that session. So the
controller, which closes whatever transaction is open, always closes that of the session it works
for, and never looks for one in vain (`NoneMissing`). `EngineOp.run_corresponds` proves both of
every run.
-/

namespace RollupEngine

variable {W : Type}

/-! ## The check for an open transaction -/

/-- A failure that says there is no open transaction. -/
def Failure.Missing (f : Failure) : Prop :=
  f.error.engineKind? = some .transaction

theorem Failure.not_missing_of_interrupt {f : Failure} (hf : f.ordinary = false) : ¬f.Missing := by
  obtain ⟨e, cause⟩ := f
  cases e with
  | engine => cases hf
  | fault | notBytes | interrupt | stalled => simp [Missing, Error.engineKind?]

/-- An interrupt of a machine is not about a transaction. -/
theorem Failure.not_missing_interrupt {e : Error} (he : e.ordinary = false) :
    ∀ f ∈ [({ error := e } : Failure)], ¬f.Missing :=
  List.forall_mem_singleton.2 (not_missing_of_interrupt he)

theorem Failure.not_missing_fatalFrom (text : String) (details : Mapping) (e : Error) :
    ¬(fatalFrom text details e).Missing := nofun

theorem Failure.not_missing_ofKind {kind : EngineErrorKind} (h : kind ≠ .transaction)
    (message : Option String) (details : Mapping) :
    ∀ f ∈ [ofKind kind message details], ¬f.Missing :=
  List.forall_mem_singleton.2 fun hf => h (Option.some.inj hf)

theorem Failure.not_missing_unwritable : ∀ f ∈ [unwritable], ¬f.Missing :=
  List.forall_mem_singleton.2 nofun

/-- To report a failure to close does not make up a missing transaction. -/
theorem Failure.Missing.of_closing {f : Failure} (h : f.closing.Missing) : f.closing = f := by
  unfold closing at h ⊢
  split
  · rfl
  · next hne =>
    split at h
    · next he => exact absurd he (hne _)
    · split
      · next ho =>
        rw [if_pos ho] at h
        exact absurd h (not_missing_fatalFrom _ _ _)
      · rfl

/-- A notice of a failure to close the transaction that is raised to nobody. -/
def Notice.hushes : Notice → Bool
  | .rollbackFailed _ | .cancelFailed => true
  | _ => false

/-- No transaction was missing: a failure that says so was raised by a machine, and a failure that
is only noticed is that of a release. -/
structure NoneMissing (xs : List Exchange) (ns : List Notice) (fs : List Failure) : Prop where
  failures : ∀ f ∈ fs, f.Missing → ∃ x ∈ xs, x.error? = some f.error
  notices : ∀ n ∈ ns, n.hushes = true → ∃ m e, .shutdown m (.error e) ∈ xs

namespace NoneMissing

variable {xs ys : List Exchange} {ns ms : List Notice} {fs gs : List Failure}

theorem of_plain (hf : ∀ f ∈ fs, ¬f.Missing) (hn : ∀ n ∈ ns, n.hushes = false) :
    NoneMissing xs ns fs where
  failures f h hmissing := absurd hmissing (hf f h)
  notices n h hhush := by simp [hn n h] at hhush

theorem of_silent (hn : ∀ n ∈ ns, n.hushes = false) : NoneMissing xs ns [] :=
  .of_plain (fun _ h => absurd h List.not_mem_nil) hn

/-- An operation that is refused. -/
theorem of_refused {kind : EngineErrorKind} {message : Option String} {details : Mapping}
    (h : kind ≠ .transaction) : NoneMissing xs [] [.ofKind kind message details] :=
  .of_plain (Failure.not_missing_ofKind h message details) (List.forall_mem_nil _)

/-- A call whose error is passed on. -/
theorem of_call {x : Exchange} {e : Error} (hx : x.error? = some e) :
    NoneMissing [x] [] [{ error := e }] where
  failures := List.forall_mem_singleton.2 fun _ => ⟨x, List.mem_singleton.2 rfl, hx⟩
  notices _ h := absurd h List.not_mem_nil

theorem append (h : NoneMissing xs ns fs) (h' : NoneMissing ys ms gs) :
    NoneMissing (xs ++ ys) (ns ++ ms) (fs ++ gs) where
  failures f hf hmissing := by
    rcases List.mem_append.1 hf with hf | hf
    · obtain ⟨x, hx, hxe⟩ := h.failures f hf hmissing
      exact ⟨x, List.mem_append_left _ hx, hxe⟩
    · obtain ⟨x, hx, hxe⟩ := h'.failures f hf hmissing
      exact ⟨x, List.mem_append_right _ hx, hxe⟩
  notices n hn hhush := by
    rcases List.mem_append.1 hn with hn | hn
    · obtain ⟨m, e, hx⟩ := h.notices n hn hhush
      exact ⟨m, e, List.mem_append_left _ hx⟩
    · obtain ⟨m, e, hx⟩ := h'.notices n hn hhush
      exact ⟨m, e, List.mem_append_right _ hx⟩

end NoneMissing

namespace Controller

variable {mode : Isolation} {c c' : Controller} {xs : List Exchange} {ns : List Notice}

/-- Closing a transaction that is open fails only as a release fails. -/
theorem Settles.raised {keeps : Bool} {f : Failure} (h : c.Settles keeps xs ns (.error f) c')
    (hc : c.transaction ≠ none) : ∃ m, .shutdown m (.error f.error) ∈ xs := by
  generalize ho : Except.error f = o at h
  cases h with
  | absent h => exact absurd h hc
  | direct => cases ho
  | @promoted _ k _ _ reply =>
    cases reply with
    | ok _ => cases ho
    | error e =>
      cases he : e.ordinary with
      | true => simp [forgiven, he] at ho
      | false =>
        simp only [forgiven, he, Bool.false_eq_true, if_false, Except.error.injEq] at ho
        rw [ho]
        exact ⟨k, List.mem_singleton.2 rfl⟩
  | @discarded w _ _ _ reply =>
    cases reply with
    | ok _ => cases ho
    | error e =>
      cases ho
      exact ⟨w, List.mem_singleton.2 rfl⟩

theorem Settles.not_hushes {keeps : Bool} {o : Except Failure Unit}
    (h : c.Settles keeps xs ns o c') : ∀ n ∈ ns, n.hushes = false := by
  cases h with
  | absent => exact List.forall_mem_nil _
  | direct => cases keeps <;> simp [Notice.hushes]
  | promoted _ _ reply => cases leaks reply <;> simp [Notice.hushes]
  | discarded => simp [Notice.hushes]

theorem Begins.noneMissing {o : Except Failure Handle} (h : c.Begins mode xs ns o c') :
    NoneMissing xs ns (failures o) := by
  refine .of_plain ?_ ?_
  · cases h with
    | closed => exact Failure.not_missing_ofKind (by decide) _ _
    | busy => exact Failure.not_missing_ofKind (by decide) _ _
    | direct | isolated => exact List.forall_mem_nil _
    | failed _ _ e => exact List.forall_mem_singleton.2 (Failure.not_missing_fatalFrom _ _ e)
    | interrupted _ _ e he => exact Failure.not_missing_interrupt he
  · cases h with
    | closed | busy | interrupted => exact List.forall_mem_nil _
    | direct | isolated | failed => exact List.forall_mem_singleton.2 rfl

theorem Stores.noneMissing {path : String} {o : Except Failure Unit}
    (h : c.Stores path xs ns o) : NoneMissing xs ns (failures o) := by
  cases h with
  | closed | busy => exact .of_refused (by decide)
  | stored => exact .of_silent (List.forall_mem_singleton.2 rfl)
  | failed => exact .of_call rfl

theorem ShutsDown.noneMissing {o : Except Failure Unit} (h : c.ShutsDown xs ns o c') :
    NoneMissing xs ns (failures o) := by
  cases h with
  | closed => exact .of_silent (List.forall_mem_nil _)
  | busy => exact .of_refused (by decide)
  | released => exact .of_silent (List.forall_mem_singleton.2 rfl)
  | failed => exact .of_call rfl

end Controller

namespace Session

variable {s : Session} {kind : InputKind} {c c' : Controller} {p : Phase} {xs : List Exchange}
  {ns : List Notice} {fs : List Failure}

theorem not_missing_ofMachine (e : Error) (o : Except Failure Unit) :
    ¬(Failure.ofMachine e o).Missing := by
  cases o with
  | ok _ => exact Failure.not_missing_fatalFrom _ _ e
  | error f =>
    cases hf : f.ordinary with
    | true =>
      rw [Failure.ofMachine, hf]
      exact Failure.not_missing_fatalFrom _ _ e
    | false =>
      rw [Failure.ofMachine, hf]
      exact Failure.not_missing_of_interrupt hf

theorem Fails.noneMissing {e : Error} {f : Failure} (h : Fails kind e c xs ns f c')
    (hc : c.transaction ≠ none) : NoneMissing xs ns [f] := by
  cases h with
  | @rolledBack ms o _ h =>
    refine ⟨fun f hf hmissing => ?_, ?_⟩
    · rw [List.mem_singleton.1 hf] at hmissing
      exact absurd hmissing (not_missing_ofMachine e _)
    · cases o with
      | ok _ =>
        intro n hn hhush
        change n ∈ .machineFailed kind :: ms ++ [] at hn
        rw [List.append_nil, List.mem_cons] at hn
        rcases hn with rfl | hn
        · cases hhush
        · rw [h.not_hushes n hn] at hhush
          cases hhush
      | error g =>
        obtain ⟨m, hm⟩ := h.raised hc
        exact fun _ _ _ => ⟨m, g.error, hm⟩

/-- Reporting how the transaction was closed. -/
theorem noneMissing_closing {keeps : Bool} {o : Except Failure Unit}
    (h : c.Settles keeps xs ns o c') (hc : c.transaction ≠ none) :
    NoneMissing xs ns (failures (o.mapError .closing)) where
  failures f hf hmissing := by
    cases o with
    | ok _ => cases hf
    | error g =>
      obtain rfl := List.mem_singleton.1 hf
      obtain ⟨m, hm⟩ := h.raised hc
      refine ⟨_, hm, ?_⟩
      rw [hmissing.of_closing]
      rfl
  notices n hn hhush := by simp [h.not_hushes n hn] at hhush

theorem Ends.noneMissing {ending : Ending} {o : Except Failure Seat.Turn}
    (h : Ends kind ending c xs ns o c') (hc : c.transaction ≠ none) :
    NoneMissing xs ns (failures o) := by
  cases h with
  | settled h =>
    have hplain : NoneMissing [] (ending.notices kind) (failures ending.outcome) := by
      refine .of_plain ?_ ?_
      · cases ending with
        | accepted => exact List.forall_mem_nil _
        | rejected => exact Failure.not_missing_ofKind (by decide) _ _
        | exception | violation => exact Failure.not_missing_ofKind (by decide) _ _
      · cases ending with
        | accepted => exact List.forall_mem_nil _
        | rejected | exception | violation => exact List.forall_mem_singleton.2 rfl
    have hall := (noneMissing_closing h hc).append hplain
    rw [List.append_nil] at hall
    exact hall
  | unsettled h => exact noneMissing_closing h hc

theorem Closes.noneMissing {o : Except Failure Unit} (h : s.Closes c xs ns o c' p)
    (hc : ∀ w, s.phase = .running w → c.transaction ≠ none) :
    NoneMissing xs ns (failures o) := by
  cases h with
  | fresh | done => exact .of_silent (List.forall_mem_nil _)
  | running hp hs =>
    have hnoted : NoneMissing [] [.cancelled s.kind] [] :=
      .of_silent (List.forall_mem_singleton.2 rfl)
    simpa using hnoted.append (noneMissing_closing hs (hc _ hp))

/-- A session cannot be closed only if a machine is not released. -/
theorem Closes.raised {o : Except Failure Unit} (h : s.Closes c xs ns o c' p)
    (hc : ∀ w, s.phase = .running w → c.transaction ≠ none) {f : Failure} (ho : o = .error f) :
    ∃ m e, .shutdown m (.error e) ∈ xs := by
  cases h with
  | fresh | done => cases ho
  | @running _ _ _ o _ hp hs =>
    cases o with
    | ok _ => cases ho
    | error g =>
      obtain ⟨m, hm⟩ := hs.raised (hc _ hp)
      exact ⟨m, g.error, hm⟩

theorem not_hushes_of_verdict {r : Reading} (h : kind.verdict r = .pass ns) :
    ∀ n ∈ ns, n.hushes = false := by
  rcases r with (event | ending) | payload | reason | v
  · cases kind <;> cases event <;> cases h
    exact List.forall_mem_nil _
  · cases h
  · cases h
    exact List.forall_mem_singleton.2 rfl
  · cases h
    exact List.forall_mem_singleton.2 rfl
  · cases h

theorem Judges.noneMissing {w : Handle} {r : Reading} {o : Except Failure Seat.Turn}
    (h : Judges kind w r c xs ns o c' p) (hc : c.transaction ≠ none) :
    NoneMissing xs ns (failures o) := by
  cases h with
  | delivered => exact .of_silent (List.forall_mem_nil _)
  | passed hv => exact .of_silent (not_hushes_of_verdict hv)
  | refused => exact .of_plain Failure.not_missing_unwritable (List.forall_mem_nil _)
  | ended _ he => exact he.noneMissing hc

/-- A session that runs while the transaction is open never finds it missing. -/
theorem Moves.noneMissing (h : s.Moves c xs ns fs c' p)
    (hc : ∀ w, s.phase = .running w → c.transaction ≠ none) : NoneMissing xs ns fs := by
  cases h with
  | start hp h =>
    have hstarted : ∀ n ∈ [Notice.started s.kind s.payload.length], n.hushes = false :=
      List.forall_mem_singleton.2 rfl
    cases h with
    | refused h => exact h.noneMissing
    | sent h => exact h.noneMissing.append (.of_silent hstarted)
    | interrupted h e he =>
      exact h.noneMissing.append (.of_plain (Failure.not_missing_interrupt he) hstarted)
    | failed h e he hf =>
      have hsent (x : Exchange) : NoneMissing [x] [.started s.kind s.payload.length] [] :=
        .of_silent hstarted
      exact h.noneMissing.append ((hsent _).append (hf.noneMissing h.opens))
  | turn hp h =>
    have hheard {xs : List Exchange} : NoneMissing xs [] [] := .of_silent (List.forall_mem_nil _)
    cases h with
    | heard _ hj => exact hheard.append (hj.noneMissing (hc _ hp))
    | interrupted _ he => exact .of_plain (Failure.not_missing_interrupt he) (List.forall_mem_nil _)
    | failed _ _ hf => exact hheard.append (hf.noneMissing (hc _ hp))
  | close h => exact h.noneMissing hc
  | @abandon _ o _ _ h =>
    cases o with
    | ok _ => simpa [lament] using h.noneMissing hc
    | error f => exact ⟨(h.noneMissing hc).failures, fun _ _ _ => h.raised hc rfl⟩

end Session

theorem Seat.Path.noneMissing {b : Backend W} {s s' : Seat W} {xs own : List Exchange}
    {ns : List Notice} {fs : List Failure} {foreign : Option Transaction}
    (h : Seat.Path b s xs ns fs s') (hs : s.Linked foreign own) : NoneMissing xs ns fs := by
  induction h generalizing own with
  | refl => exact .of_silent (List.forall_mem_nil _)
  | step head _ ih =>
    refine (head.moves.noneMissing fun w hp => ?_).append (ih (head.linked hs))
    obtain ⟨-, t, ht, -⟩ := hs.of_running hp
    simp [ht]

namespace EngineOp

variable {b : Backend W} {config : EngineConfig} {op : EngineOp} {r r' : Room W}
  {xs own : List Exchange} {ns : List Notice} {fs : List Failure}

/-- No operation on an engine finds a transaction missing. -/
theorem Does.noneMissing (h : Does b config r op xs ns fs r') (hr : r.Linked config.isolation own) :
    NoneMissing xs ns fs := by
  cases h with
  | closed => exact .of_refused (by decide)
  | notBytes => exact .of_plain (List.forall_mem_singleton.2 nofun) (List.forall_mem_nil _)
  | opened | absent => exact .of_silent (List.forall_mem_nil _)
  | collected _ _ _ path => exact path.noneMissing (hr.fresh rfl rfl)
  | walked hn _ path => exact path.noneMissing (hr.seat hn)
  | stored h => exact h.noneMissing
  | shutDown h => exact h.noneMissing

end EngineOp

/-! ## Correspondence -/

namespace Room

/-- Whether a session of the room runs. -/
def Runs (r : Room W) (number : Nat) : Prop :=
  ∃ session, r.session? number = some session ∧ session.phase.state = .running

/-- The transaction of a room corresponds to its sessions, after the calls `own`. -/
structure Corresponds (mode : Isolation) (own : List Exchange) (r : Room W) : Prop where
  /-- The transaction is open if and only if exactly one session runs. -/
  opened : r.controller.transaction.isSome = true ↔ ∃! n, r.Runs n
  /-- There are never two sessions that run. -/
  alone : ∀ n m, r.Runs n → r.Runs m → n = m
  /-- The session that runs works on the machine that the transaction works on. -/
  working : ∀ n session t, r.session? n = some session → session.phase.state = .running →
    r.controller.transaction = some t → session.phase.working? = some t.working
  /-- A session that does not run holds no machine. -/
  resting : ∀ n session, r.session? n = some session → session.phase.state ≠ .running →
    session.phase.working? = none
  /-- An isolated transaction works beside the canonical machine and can go back to it. -/
  isolated : mode = .isolated → ∀ t, r.controller.transaction = some t →
    t.backup? = some r.controller.canonical ∧
      ((∀ m, .fork m (.ok m) ∉ own) → t.working ≠ r.controller.canonical)
  /-- A direct transaction works on the canonical machine and cannot go back. -/
  direct : mode = .direct → ∀ t, r.controller.transaction = some t →
    t.backup? = none ∧ t.working = r.controller.canonical
  /-- A closed controller has no transaction. -/
  closed : r.controller.closed = true → r.controller.transaction = none

theorem runs_iff {r : Room W} {n : Nat} : r.Runs n ↔ ∃ w, r.working? n = some w := by
  unfold Runs working?
  constructor
  · rintro ⟨session, hs, hp⟩
    rw [hs]
    cases h : session.phase with
    | running w => exact ⟨w, by simp [h, Phase.working?]⟩
    | start | accepted | rejected | fatal | cancelled => simp [h, Phase.state] at hp
  · rintro ⟨w, hw⟩
    obtain ⟨session, hs, hp⟩ := Option.bind_eq_some_iff.1 hw
    refine ⟨session, hs, ?_⟩
    cases h : session.phase <;> simp_all [Phase.working?, Phase.state]

theorem Linked.corresponds {mode : Isolation} {own : List Exchange} {r : Room W}
    (h : r.Linked mode own) : r.Corresponds mode own where
  opened := by
    constructor
    · intro ht
      obtain ⟨t, ht⟩ := Option.isSome_iff_exists.1 ht
      obtain ⟨n, hn⟩ := h.holder t ht
      refine ⟨n, runs_iff.2 ⟨_, hn⟩, fun m hm => ?_⟩
      obtain ⟨w, hw⟩ := runs_iff.1 hm
      exact h.unique m n _ _ hw hn
    · rintro ⟨n, hn, -⟩
      obtain ⟨w, hw⟩ := runs_iff.1 hn
      obtain ⟨t, ht, -⟩ := Option.map_eq_some_iff.1 (h.held n w hw)
      rw [ht]
      rfl
  alone n m hn hm := by
    obtain ⟨v, hv⟩ := runs_iff.1 hn
    obtain ⟨w, hw⟩ := runs_iff.1 hm
    exact h.unique n m v w hv hw
  working n session t hs hp ht := by
    obtain ⟨w, hw⟩ := runs_iff.1 ⟨session, hs, hp⟩
    have hheld := h.held n w hw
    rw [ht] at hheld
    rw [working?, hs] at hw
    exact hw.trans hheld.symm
  resting n session hs hp := by
    cases h : session.phase <;> simp_all [Phase.state, Phase.working?]
  isolated hm t ht := by
    cases t with
    | isolated w k =>
      obtain rfl := (h.fits.isolated w k ht).2
      refine ⟨rfl, fun hfork hw => hfork w ?_⟩
      have hforked := h.forked w _ ht
      rwa [← show w = r.controller.canonical from hw] at hforked
    | direct w => cases hm.symm.trans (h.fits.direct w ht).1
  direct hm t ht := by
    cases t with
    | isolated w k => cases hm.symm.trans (h.fits.isolated w k ht).1
    | direct w => exact ⟨rfl, (h.fits.direct w ht).2⟩
  closed := h.fits.closed

end Room

namespace EngineOp

variable {b : Backend W} {config : EngineConfig} {op : EngineOp} {r r' : Room W}
  {xs own : List Exchange} {ns : List Notice} {fs : List Failure}

/-- The operation makes these calls and notices, and closes no transaction but that of the session
it works on, which is open. -/
structure ClosesOwn (b : Backend W) (config : EngineConfig) (op : EngineOp) (r : Room W)
    (xs : List Exchange) (ns : List Notice) : Prop where
  calls : (op.perform b config r).2.calls = r.calls ++ xs
  notices : (op.perform b config r).2.notices = r.notices ++ ns
  /-- A transaction that is open no longer was closed by its own session. -/
  own : ∀ t, r.controller.transaction = some t →
    (op.perform b config r).2.controller.transaction ≠ some t →
    ∃ n sop session, op = .session n sop ∧ r.session? n = some session ∧
      session.phase = .running t.working
  /-- A failure that says there is no transaction comes from a machine or from the caller. -/
  raised : ∀ f, (op.perform b config r).1.failure? = some f → f.Missing →
    op.raises? = some f.error ∨ ∃ x ∈ xs, x.error? = some f.error
  /-- A failure to close that is raised to nobody is that of a release. -/
  hushed : ∀ n ∈ ns, n.hushes = true → ∃ m e, .shutdown m (.error e) ∈ xs

theorem Does.closes_own (h : Does b config r op xs ns fs r') (hr : r.Linked config.isolation own)
    {t : Transaction} (ht : r.controller.transaction = some t)
    (ht' : r'.controller.transaction ≠ some t) :
    ∃ n sop session, op = .session n sop ∧ r.session? n = some session ∧
      session.phase = .running t.working := by
  cases h with
  | closed | notBytes | opened | absent => exact absurd ht ht'
  | collected _ _ _ path hs =>
    have hkept := (path.linked (hr.fresh rfl rfl)).of_not_running hs
    exact absurd (hkept.trans ht) ht'
  | @walked n sop session _ _ _ s hn _ path =>
    have hlinked := path.linked (hr.seat hn)
    cases hp : session.phase.working? with
    | none =>
      have hforeign : r.foreign n = some t := by
        rw [Room.foreign, Room.working?, hn]
        simpa [hp] using ht
      rcases hlinked.link with ⟨hnone, -⟩ | ⟨hkept, -⟩
      · rw [hforeign] at hnone
        cases hnone
      · exact absurd (hkept.trans hforeign) ht'
    | some w =>
      have hheld := hr.held n w (by rw [Room.working?, hn]; exact hp)
      rw [ht] at hheld
      refine ⟨n, sop, session, rfl, hn, ?_⟩
      cases h : session.phase <;> simp_all [Phase.working?]
  | stored _ hd => exact absurd (by rw [hd]; exact ht) ht'
  | @shutDown _ _ _ d h =>
    generalize d.controller = c at h ht'
    cases h with
    | closed | busy => exact absurd ht ht'
    | released h | failed h =>
      rw [h.2] at ht
      cases ht

/-- In every room that an engine comes to, whatever its machines do, the transaction corresponds to
the sessions, and no operation closes a transaction that is not its own. -/
theorem run_corresponds (b : Backend W) (config : EngineConfig) (machine : Handle) (s : Site W)
    (ops : List EngineOp) :
    ∃ own, (run b config ops (.opening machine s)).calls = s.calls ++ own ∧
      (run b config ops (.opening machine s)).Corresponds config.isolation own ∧
      ∀ op : EngineOp, ∃ xs ns,
        op.ClosesOwn b config (run b config ops (.opening machine s)) xs ns := by
  obtain ⟨own, _, hfollows, hr⟩ := run_linked b config machine s ops
  refine ⟨own, hfollows.calls, hr.corresponds, fun op => ?_⟩
  obtain ⟨xs, ns, fs, hdoes, hblame⟩ := op.does b config (run b config ops (.opening machine s))
  have hnone := hdoes.noneMissing hr
  refine ⟨xs, ns, hdoes.follows.calls, hdoes.follows.notices,
    fun t ht ht' => hdoes.closes_own hr ht ht',
    fun f hf hmissing => ?_, hnone.notices⟩
  rcases hblame f hf with (hmem | hstalled) | hraised
  · exact .inr (hnone.failures f hmem hmissing)
  · rw [Failure.Missing, hstalled] at hmissing
    cases hmissing
  · exact .inl hraised

end EngineOp

end RollupEngine

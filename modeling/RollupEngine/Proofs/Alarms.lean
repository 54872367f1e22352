import RollupEngine.Logging.Setup
import RollupEngine.Proofs.Surfacing

/-!
# What the log is told of a failure

Who reads the log alone should learn of every fatal error, and of every input that was rejected.
`Failure.Noticed` says what the log owes to a failure. Every failure of a move is noticed, with one
exception (`Session.Moves.noticed`): what the release raises that a rollback makes
(`Failure.OfRollback`). A commit notices a failing release, and so does a machine error that is
rolled back; but where a rollback ends a session that was closed, rejected or accepted, or that the
guest or the protocol brought to a fatal end, the release of its fork fails in silence.

`EngineOp.page_noticed` says this of every operation on a session, and
`EngineOp.close_fails_silently` shows the exception.
-/

namespace RollupEngine

variable {W : Type}

/-- Every part of the engine tells the package's log. -/
theorem Channel.reachesRoot_logger (c : Channel) : Logging.reachesRoot c.logger = true := by
  cases c <;> decide +kernel

namespace Failure

variable {kind : InputKind} {xs ys : List Exchange} {ns ms : List Notice} {f : Failure}

/-- What the log owes to a failure of a session of a kind: a fatal error is noticed at the severity
of errors, and a rejected input by its kind. -/
structure Noticed (kind : InputKind) (ns : List Notice) (f : Failure) : Prop where
  fatal : f.kind? = some .fatal → ∃ n ∈ ns, n.severity = .error
  rejected : f.kind? = some .inputRejected → .rejected kind ∈ ns

/-- The failure `f` is what the release raised that a rollback made. -/
def OfRollback (xs : List Exchange) (ns : List Notice) (f : Failure) : Prop :=
  .rolledBack .isolated ∈ ns ∧
    ∃ m e, .shutdown m (.error e) ∈ xs ∧ f = Failure.closing { error := e }

/-- To the other failures the log owes nothing. -/
theorem Noticed.of_kind (hfatal : f.kind? ≠ some .fatal)
    (hrejected : f.kind? ≠ some .inputRejected) : f.Noticed kind ns :=
  ⟨fun h => absurd h hfatal, fun h => absurd h hrejected⟩

theorem Noticed.of_interrupt (h : f.ordinary = false) : f.Noticed kind ns := by
  have hkind := kind?_of_interrupt h
  exact .of_kind (by rw [hkind]; nofun) (by rw [hkind]; nofun)

/-- A fatal error is noticed by any notice at the severity of errors. -/
theorem Noticed.of_fatal (hf : f.kind? = some .fatal) {n : Notice} (hn : n ∈ ns)
    (hseverity : n.severity = .error) : f.Noticed kind ns :=
  ⟨fun _ => ⟨n, hn, hseverity⟩, fun h => nomatch hf.symm.trans h⟩

theorem Noticed.mono (h : f.Noticed kind ns) (hns : ns ⊆ ms) : f.Noticed kind ms :=
  ⟨fun hf => (h.fatal hf).imp fun _ hn => ⟨hns hn.1, hn.2⟩, fun hf => hns (h.rejected hf)⟩

theorem OfRollback.mono (h : f.OfRollback xs ns) (hxs : xs ⊆ ys) (hns : ns ⊆ ms) :
    f.OfRollback ys ms :=
  ⟨hns h.1, h.2.imp fun _ => Exists.imp fun _ he => ⟨hxs he.1, he.2⟩⟩

end Failure

/-! ## The controller -/

namespace Controller

variable {kind : InputKind} {c c' : Controller} {xs : List Exchange} {ns : List Notice}
  {f : Failure}

theorem Begins.noticed {mode : Isolation} (h : c.Begins mode xs ns (.error f) c') :
    f.Noticed kind ns := by
  cases h with
  | closed | busy => exact .of_kind nofun nofun
  | failed => exact .of_fatal rfl (List.mem_singleton.2 rfl) rfl
  | interrupted _ _ _ he => exact .of_interrupt he

/-- A commit fails with interrupts only, so it is a rollback whose failure is not noticed. -/
theorem Settles.noticed {keeps : Bool} {o : Except Failure Unit} (h : c.Settles keeps xs ns o c')
    (hf : f ∈ failures (o.mapError .closing)) : f.Noticed kind ns ∨ f.OfRollback xs ns := by
  cases h with
  | absent =>
    obtain rfl := List.mem_singleton.1 hf
    exact .inl (.of_kind nofun nofun)
  | direct => cases hf
  | promoted _ _ reply =>
    rcases reply with e | _
    · cases he : e.ordinary with
      | true =>
        rw [forgiven, he, if_pos rfl] at hf
        cases hf
      | false =>
        have hinterrupt : Failure.ordinary { error := e } = false := he
        rw [forgiven, he, if_neg (by decide)] at hf
        obtain rfl := List.mem_singleton.1 hf
        rw [Failure.closing_of_interrupt hinterrupt]
        exact .inl (.of_interrupt hinterrupt)
    · cases hf
  | @discarded w _ _ _ reply =>
    rcases reply with e | _
    · exact .inr ⟨List.mem_singleton.2 rfl, w, e, List.mem_singleton.2 rfl,
        List.mem_singleton.1 hf⟩
    · cases hf

end Controller

/-! ## Sessions -/

namespace Session

variable {s : Session} {kind : InputKind} {c c' : Controller} {p : Phase} {xs : List Exchange}
  {ns : List Notice} {fs : List Failure} {f : Failure}

/-- An error of the machine is noticed before the rollback that follows it. -/
theorem Fails.noticed {e : Error} (h : Fails kind e c xs ns f c') : f.Noticed kind ns := by
  cases h with
  | @rolledBack ms o =>
    have hmem : Notice.machineFailed kind ∈
        .machineFailed kind :: ms ++ rollbackNotices kind (o.mapError .closing) :=
      List.mem_append_left _ List.mem_cons_self
    generalize Except.mapError Failure.closing o = closed at hmem ⊢
    cases closed with
    | ok _ => exact .of_fatal rfl hmem rfl
    | error g =>
      cases hg : g.ordinary with
      | true =>
        simp only [Failure.ofMachine, hg, if_true]
        exact .of_fatal rfl hmem rfl
      | false =>
        simp only [Failure.ofMachine, hg, Bool.false_eq_true, if_false]
        exact .of_interrupt hg

/-- A session that ends is noticed once its transaction is closed. -/
theorem Ends.noticed {ending : Ending} {o : Except Failure Seat.Turn}
    (h : Ends kind ending c xs ns o c') (hf : f ∈ failures o) :
    f.Noticed kind ns ∨ f.OfRollback xs ns := by
  cases h with
  | unsettled h => exact h.noticed hf
  | settled h =>
    refine .inl ?_
    cases ending with
    | accepted => cases hf
    | rejected =>
      obtain rfl := List.mem_singleton.1 hf
      exact ⟨nofun, fun _ => List.mem_append_right _ (List.mem_singleton.2 rfl)⟩
    | exception | violation =>
      obtain rfl := List.mem_singleton.1 hf
      exact .of_fatal rfl (List.mem_append_right _ (List.mem_singleton.2 rfl)) rfl

theorem Closes.noticed {o : Except Failure Unit} (h : s.Closes c xs ns o c' p)
    (hf : f ∈ failures o) : f.Noticed s.kind ns ∨ f.OfRollback xs ns := by
  cases h with
  | fresh | done => cases hf
  | running _ h =>
    exact (h.noticed hf).imp (·.mono (List.subset_cons_self ..))
      (·.mono (List.Subset.refl _) (List.subset_cons_self ..))

theorem Starts.noticed {o : Except Failure Handle} (h : s.Starts c xs ns o c' p)
    (hf : f ∈ failures o) : f.Noticed s.kind ns := by
  cases h with
  | sent => cases hf
  | refused hb =>
    obtain rfl := List.mem_singleton.1 hf
    exact hb.noticed
  | interrupted _ e he =>
    obtain rfl := List.mem_singleton.1 hf
    exact .of_interrupt he
  | failed _ _ _ hfails =>
    obtain rfl := List.mem_singleton.1 hf
    exact hfails.noticed.mono fun n hn => List.mem_append_right _ (List.mem_cons_of_mem _ hn)

theorem Turns.noticed {w : Handle} {o : Except Failure Seat.Turn}
    (h : Turns kind w c xs ns o c' p) (hf : f ∈ failures o) :
    f.Noticed kind ns ∨ f.OfRollback xs ns := by
  cases h with
  | interrupted _ he =>
    obtain rfl := List.mem_singleton.1 hf
    exact .inl (.of_interrupt he)
  | failed _ _ hfails =>
    obtain rfl := List.mem_singleton.1 hf
    exact .inl hfails.noticed
  | heard _ hj =>
    cases hj with
    | delivered | passed => cases hf
    | refused =>
      obtain rfl := List.mem_singleton.1 hf
      exact .inl (.of_kind nofun nofun)
    | ended _ he =>
      exact (he.noticed hf).imp_right
        (·.mono (List.subset_append_right ..) (List.Subset.refl _))

/-- Every failure of a move is noticed, unless the release of a rollback raised it. -/
theorem Moves.noticed (h : s.Moves c xs ns fs c' p) (hf : f ∈ fs) :
    f.Noticed s.kind ns ∨ f.OfRollback xs ns := by
  cases h with
  | start _ h => exact .inl (h.noticed hf)
  | turn _ h => exact h.noticed hf
  | close h => exact h.noticed hf
  | abandon h =>
    exact (h.noticed hf).imp (·.mono (List.subset_append_left ..))
      (·.mono (List.Subset.refl _) (List.subset_append_left ..))

end Session

/-- Along a path, nothing of what was noticed is lost. -/
theorem Seat.Path.noticed {b : Backend W} {s s' : Seat W} {xs : List Exchange} {ns : List Notice}
    {fs : List Failure} {f : Failure} (h : Path b s xs ns fs s') (hf : f ∈ fs) :
    f.Noticed s.session.kind ns ∨ f.OfRollback xs ns := by
  induction h with
  | refl => cases hf
  | @step s s' _ _ _ _ _ _ _ head _ ih =>
    rcases List.mem_append.1 hf with hf | hf
    · exact (head.moves.noticed hf).imp (·.mono (List.subset_append_left ..))
        (·.mono (List.subset_append_left ..) (List.subset_append_left ..))
    · have hkind : s'.session.kind = s.session.kind := by rw [head.session]; rfl
      rw [← hkind]
      exact (ih hf).imp (·.mono (List.subset_append_right ..))
        (·.mono (List.subset_append_right ..) (List.subset_append_right ..))

/-! ## Operations on an engine -/

namespace EngineOp

variable {b : Backend W} {config : EngineConfig} {op : EngineOp} {r r' : Room W} {s t : Session}
  {xs : List Exchange} {ns : List Notice} {fs : List Failure} {f : Failure}

/-- An operation that works on a session is noticed as its path is. -/
theorem Does.noticed (h : Does b config r op xs ns fs r')
    (hact : op.acting? b config r = some (s, t)) (hf : f ∈ fs) :
    f.Noticed s.kind ns ∨ f.OfRollback xs ns := by
  cases h with
  | collected _ _ hact' path | walked _ hact' path =>
    cases hact'.symm.trans hact
    exact path.noticed hf
  | closed =>
    obtain rfl := List.mem_singleton.1 hf
    exact .inl (.of_kind nofun nofun)
  | notBytes | stored | shutDown => cases hact
  | opened | absent => cases hf

/-- If an operation on a session, which is asked to raise nothing, fails with a fatal error, this
was noticed as an error meanwhile, and if it fails because the input was rejected, the rejection
was noticed. The one exception is an error that the release of a rollback raised. -/
theorem page_noticed (b : Backend W) (config : EngineConfig) {op : EngineOp} {r : Room W}
    {s t : Session} (hact : op.acting? b config r = some (s, t)) (hraises : op.raises? = none) :
    let p := op.page b config r
    ∀ f, p.answer.outcome = .error f →
      (f.kind? = some .fatal →
        (∃ n ∈ p.notices, n.severity = .error ∧
          Logging.reachesRoot n.channel.logger = true) ∨ f.OfRollback p.calls p.notices) ∧
      (f.kind? = some .inputRejected →
        (∃ n ∈ p.notices, n.severity = .info ∧
          n.text = Labelled.label s.kind ++ " input rejected" ∧
          Logging.reachesRoot n.channel.logger = true) ∨ f.OfRollback p.calls p.notices) := by
  intro p f hf
  obtain ⟨xs, ns, fs, hdoes, hblame⟩ := op.does b config r
  have hxs : p.calls = xs := Page.calls_of_follows hdoes.follows
  have hns : p.notices = ns := Page.notices_of_follows hdoes.follows
  rw [hxs, hns]
  rcases hblame f (Answer.failure?_eq_some.2 hf) with (hmem | hstalled) | hasked
  · have hlogger (n : Notice) := n.channel.reachesRoot_logger
    refine ⟨fun hfatal => ?_, fun hrejected => ?_⟩
    · refine (hdoes.noticed hact hmem).imp_left fun hnoticed => ?_
      exact (hnoticed.fatal hfatal).imp fun n hn => ⟨hn.1, hn.2, hlogger n⟩
    · refine (hdoes.noticed hact hmem).imp_left fun hnoticed => ?_
      exact ⟨_, hnoticed.rejected hrejected, rfl, rfl, hlogger _⟩
  · -- the host's loss of patience is no error of the engine's own
    have hkind : f.kind? = none := by rw [Failure.kind?, hstalled]; rfl
    rw [hkind]
    exact ⟨nofun, nofun⟩
  · cases hraises.symm.trans hasked

/-- A fork that fails is noticed while the pull fails. -/
theorem refused_fork_noticed :
    let fault : Scripted.Fault := { method := .fork, nth := 1, error := .fault "OSError" "full" }
    let b := Scripted.backend
    let r := run b {} [submit .advance (.bytes [97]) (some false)]
      (.opening 0 { world := .ofLedger [] [] [fault] })
    let p := (session 0 .pull).page b {} r
    ∃ f, p.answer.outcome = .error f ∧ f.kind? = some .fatal ∧
      ∃ n ∈ p.notices, n.severity = .error ∧ Logging.reachesRoot n.channel.logger = true := by
  intro fault b r p
  obtain ⟨⟨s, t⟩, hact⟩ : ∃ x, (session 0 .pull).acting? b {} r = some x :=
    Option.isSome_iff_exists.1 (by decide +kernel)
  obtain ⟨f, hf, hfatal⟩ := Option.bind_eq_some_iff.1
    (show p.answer.failure?.bind Failure.kind? = some .fatal by decide +kernel)
  have hkept : ¬Notice.rolledBack .isolated ∈ p.notices := by decide +kernel
  have hf := Answer.failure?_eq_some.1 hf
  refine ⟨f, hf, hfatal, ?_⟩
  exact ((page_noticed b {} hact rfl f hf).1 hfatal).resolve_right fun h => hkept h.1

/-- A session whose fork cannot be released is closed with a fatal error, and nothing is noticed at
the severity of errors. -/
theorem close_fails_silently :
    let fault : Scripted.Fault :=
      { method := .shutdown, nth := 1, error := .fault "RuntimeError" "stuck" }
    let b := Scripted.backend
    let r := run b {} [submit .advance (.bytes [97]) (some false), session 0 .pull]
      (.opening 0 { world := .ofLedger [] [] [fault] })
    let p := (session 0 .close).page b {} r
    ¬∀ f, p.answer.outcome = .error f → f.kind? = some .fatal →
      ∃ n ∈ p.notices, n.severity = .error := by
  intro fault b r p hnoticed
  obtain ⟨f, hf, hfatal⟩ := Option.bind_eq_some_iff.1
    (show p.answer.failure?.bind Failure.kind? = some .fatal by decide +kernel)
  obtain ⟨n, hn, hseverity⟩ := hnoticed f (Answer.failure?_eq_some.1 hf) hfatal
  have hquiet : ∀ n ∈ p.notices, n.severity ≠ .error := by decide +kernel
  exact hquiet n hn hseverity

end EngineOp

end RollupEngine

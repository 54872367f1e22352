import RollupEngine.Proofs.Fate
import RollupEngine.Proofs.Noninterference

/-!
# When the release of a machine fails

Every transaction on a fork ends with the release of a machine: the fork if it is discarded, the old
canonical machine if it is kept. If that fails in turn, the session ends as it would have, and the
machine counts as leaked. What is raised depends on what brought the session to its end
(`Session.Leaks`): an error of the machine stays what it is, a commit stands and raises nothing, and
of everything else that is discarded the failed release is all that is told.

The counters are compared with the room before the session. It is the last room in which the session
did not run (`Room.eve`); from there on until the session ends the controller changes no more, since
everything else stands by (`EngineOp.Recalls`).
-/

namespace RollupEngine

variable {W : Type}

/-! ## Discarding and keeping a fork -/

/-- To report that a machine could not be released makes nothing of an interrupt. -/
theorem Failure.ordinary_closing (f : Failure) : f.closing.ordinary = f.ordinary := by
  obtain ⟨e, cause⟩ := f
  cases e <;> rfl

/-- The failure with which a session reports that its machine could not be released. -/
theorem Failure.closing_of_foreign {e : Error} (he : e.ordinary = true)
    (hk : e.engineKind? = none) :
    Failure.closing { error := e } =
      .fatalFrom "failed to close transaction: " (source "machine") e := by
  cases e with
  | engine => cases hk
  | fault | notBytes => rfl
  | interrupt | stalled => cases he

namespace Controller

variable {eve c : Controller} {w m : Handle} {ys : List Exchange} {ks : List Notice}
  {o : Except Failure Unit} {e : Error}

/-- The controller `c` is `eve` after a session whose fork was discarded and is still there. -/
structure Undone (eve c : Controller) : Prop where
  canonical : c.canonical = eve.canonical
  outstanding : c.outstanding = eve.outstanding + 1

/-- However a fork is settled, a machine that cannot be released is counted. -/
theorem Settles.leaked_of_release {keeps : Bool}
    (h : (eve.openedIsolated w).Settles keeps ys ks o c)
    (hx : .shutdown m (.error e) ∈ ys) (he : e.ordinary = true) :
    c.leaked = eve.leaked + 1 := by
  cases h with
  | absent | direct => cases hx
  | promoted | discarded =>
    cases List.mem_singleton.1 hx
    change eve.leaked + (leaks (.error e)).toNat = eve.leaked + 1
    rw [leaks, he]
    rfl

/-- A fork that is discarded stays outstanding if it cannot be released. -/
theorem Settles.undone (h : (eve.openedIsolated w).Settles false ys ks o c)
    (hx : .shutdown m (.error e) ∈ ys) : o = .error { error := e } ∧ eve.Undone c := by
  cases h with
  | absent | direct => cases hx
  | promoted _ hk => cases hk
  | discarded =>
    cases List.mem_singleton.1 hx
    refine ⟨rfl, rfl, ?_⟩
    change ((eve.created + 1 : Nat) : Int) - (eve.released : Nat) = eve.created - eve.released + 1
    omega

/-- A fork that is kept is canonical, whether or not the machine before it can be released. -/
theorem Settles.kept (h : (eve.openedIsolated w).Settles true ys ks o c)
    (hx : .shutdown m (.error e) ∈ ys) (he : e.ordinary = true) :
    o = .ok () ∧ c.canonical = w ∧ c.outstanding = eve.outstanding := by
  cases h with
  | absent | direct => cases hx
  | discarded _ hk => cases hk
  | promoted hw =>
    cases List.mem_singleton.1 hx
    cases hw
    refine ⟨by rw [forgiven, he]; rfl, rfl, ?_⟩
    change ((eve.created + 1 : Nat) : Int) - ((eve.released + 1 : Nat) : Int) =
      eve.created - eve.released
    omega

end Controller

/-! ## Sessions whose machine cannot be released -/

namespace Session

variable {s : Session} {eve c c' : Controller} {p : Phase} {w m : Handle} {xs : List Exchange}
  {ns : List Notice} {told : Option Failure} {e : Error}

/-- What comes of an end of the session `s` in which the release of a machine raises `e`: this is
`told`, and the session is left in the phase `p` and the controller as `c`. Before the session, the
controller was `eve`. -/
structure Leaks (s : Session) (eve : Controller) (xs : List Exchange) (e : Error)
    (told : Option Failure) (c : Controller) (p : Phase) : Prop where
  transaction : c.transaction = none
  leaked : c.leaked = eve.leaked + 1
  /-- The error of a machine stays the cause. -/
  failed : ∀ x, s.kind.fate xs = .failed x →
    told = some (.fatalFrom "machine error: " (Failure.source "machine") x) ∧ p = .fatal ∧
      eve.Undone c
  /-- An input that is over and discarded raises only that its machine was not released. -/
  ended : ∀ ending, s.kind.fate xs = .ended ending → ending.keeps s.kind = false →
    told = some (.fatalFrom "failed to close transaction: " (Failure.source "machine") e) ∧
      p = ending.phase ∧ eve.Undone c
  closed : s.kind.fate xs = .closed →
    told = some (.fatalFrom "failed to close transaction: " (Failure.source "machine") e) ∧
      p = .cancelled ∧ eve.Undone c
  /-- An advance that is accepted stands. -/
  kept : ∀ result, s.kind = .advance → s.kind.fate xs = .ended (.accepted result) →
    told = none ∧ p = .accepted result ∧ c.outstanding = eve.outstanding ∧
      (s.phase = .running c.canonical ∨
        s.phase = .start ∧ .fork eve.canonical (.ok c.canonical) ∈ xs)

/-- A session that runs in isolation ran before, or it was begun on a new fork. -/
theorem Stands.running_cases (h : s.Stands c c' (.running w)) (hm : s.isolation = .isolated) :
    s.phase = .running w ∧ c' = c ∨ s.phase = .start ∧ c' = c.openedIsolated w := by
  generalize hp : Phase.running w = p at h
  cases h with
  | same => exact .inl ⟨rfl, rfl⟩
  | withdrawn => cases hp
  | opened hs hb =>
    cases hp
    cases hb with
    | direct _ hd => cases hm.symm.trans hd
    | isolated => exact .inr ⟨hs, rfl⟩

theorem Quits.settles {kind : InputKind} {fate : Fate} {ys : List Exchange} {quit : Option Failure}
    (h : Quits kind c fate ys ns quit c' p) : ∃ keeps o, c.Settles keeps ys ns o c' := by
  cases h with
  | failed _ h | ended _ h | closed h => exact ⟨_, _, h⟩

/-- A machine that failed stays the cause, however its release ends. -/
theorem Departs.told_of_failed {x : Error} (h : s.Departs c xs ns told c' p)
    (hfate : s.kind.fate xs = .failed x)
    (hx : ∀ m e, .shutdown m (.error e) ∈ xs → e.ordinary = true) :
    told = some (.fatalFrom "machine error: " (Failure.source "machine") x) ∧ p = .fatal := by
  obtain ⟨-, quits, releases, -, -, rfl, -⟩ := h
  rw [hfate] at quits
  cases quits with
  | failed _ h =>
    refine ⟨?_, rfl⟩
    rw [Option.some_or]
    cases h with
    | absent | direct => rfl
    | promoted _ hk => cases hk
    | @discarded v _ _ _ reply =>
      cases reply with
      | ok _ => rfl
      | error e =>
        have hmem : .shutdown v (.error e) ∈ xs.filter Exchange.isRelease := by
          rw [releases]
          exact List.mem_singleton.2 rfl
        have hord : e.ordinary = true := hx _ e (List.mem_filter.1 hmem).1
        have hclosing : (Failure.closing { error := e }).ordinary = true :=
          (Failure.ordinary_closing _).trans hord
        change some (Failure.ofMachine x (.error (Failure.closing { error := e }))) = _
        rw [Failure.ofMachine, if_pos hclosing]

/-- A session that comes to its end while the release of its machine fails. -/
theorem Departs.leaks (h : s.Departs c xs ns told c' p) (hm : s.isolation = .isolated)
    (hstart : s.phase = .start → c = eve)
    (hrun : ∀ w, s.phase = .running w → c = eve.openedIsolated w)
    (hfork : ∀ result, s.Accepts p result → s.phase = .running c'.canonical ∨
      s.phase = .start ∧ .fork eve.canonical (.ok c'.canonical) ∈ xs)
    (hx : .shutdown m (.error e) ∈ xs) (he : e.ordinary = true) (hk : e.engineKind? = none) :
    s.Leaks eve xs e told c' p := by
  obtain @⟨d, w, ys, ks, quit, pending, stands, quits, releases, -, -, rfl, hpending⟩ := h
  have hmem : .shutdown m (.error e) ∈ ys := by
    rw [← releases]
    exact List.mem_filter.2 ⟨hx, rfl⟩
  obtain ⟨hdone, rfl⟩ : s.phase.done = false ∧ d = eve.openedIsolated w := by
    rcases stands.running_cases hm with ⟨hp, rfl⟩ | ⟨hp, rfl⟩
    · exact ⟨by rw [hp]; rfl, hrun w hp⟩
    · exact ⟨by rw [hp]; rfl, by rw [hstart hp]⟩
  obtain ⟨keeps, o, hsettles⟩ := quits.settles
  have hclosing := Failure.closing_of_foreign he hk
  refine ⟨hsettles.transaction, hsettles.leaked_of_release hmem he, fun x hfate => ?failed,
    fun ending hfate hkeeps => ?ended, fun hfate => ?closed, fun result hkind hfate => ?kept⟩ <;>
    clear hsettles <;> rw [hfate] at quits
  case failed =>
    cases quits with
    | failed _ hs =>
      obtain ⟨rfl, hundone⟩ := hs.undone hmem
      exact ⟨by rw [Failure.mapError_closing, hclosing]; rfl, rfl, hundone⟩
  case ended =>
    cases quits with
    | ended _ hs =>
      rw [hkeeps] at hs
      obtain ⟨rfl, hundone⟩ := hs.undone hmem
      exact ⟨by rw [Failure.mapError_closing, hclosing]; rfl, rfl, hundone⟩
  case closed =>
    cases quits with
    | closed hs =>
      obtain ⟨rfl, hundone⟩ := hs.undone hmem
      exact ⟨by rw [Failure.mapError_closing, hclosing]; rfl, rfl, hundone⟩
  case kept =>
    cases quits with
    | ended _ hs =>
      have hkeeps : (Ending.accepted result).keeps s.kind = true := by rw [hkind]; rfl
      rw [hkeeps] at hs
      obtain ⟨rfl, -, houtstanding⟩ := hs.kept hmem he
      refine ⟨?_, rfl, houtstanding, hfork result ⟨hkind, hdone, rfl⟩⟩
      cases pending with
      | none => rfl
      | some f => cases hfate.symm.trans (hpending f rfl).2

end Session

namespace Seat

variable {b : Backend W} {s s' : Seat W} {xs : List Exchange} {ns : List Notice}
  {told : Option Failure} {w : Handle}

theorem Course.running_cases (h : Course b s xs ns told s') (hp : s'.session.phase = .running w)
    (hm : s.session.isolation = .isolated) :
    s.session.phase = .running w ∧ s'.controller = s.controller ∨
      s.session.phase = .start ∧ s'.controller = s.controller.openedIsolated w := by
  cases hd : s.session.phase.done with
  | true =>
    rw [← (h.of_done hd).2.2.2.2, hp] at hd
    cases hd
  | false =>
    rcases h.departs_or_stays hd with hdeparts | hstays
    · have hover := hdeparts.done
      rw [hp] at hover
      cases hover
    · have hstands := hstays.stands
      rw [hp] at hstands
      exact hstands.running_cases hm

end Seat

/-! ## The room before a session -/

/-- The last room in which the session with a number did not run, on the way to a room. -/
def Room.eve (number : Nat) (js : List (Page W)) (r : Room W) : Room W :=
  ((r :: (js.map Page.before).reverse).find? fun q => (q.working? number).isNone).getD r

namespace EngineOp

/-- The controller before the session that an operation is on. -/
def eve (op : EngineOp) (js : List (Page W)) (r : Room W) : Controller :=
  match op with
  | .session number _ => (r.eve number js).controller
  | _ => r.controller

variable {b : Backend W} {config : EngineConfig} {op : EngineOp} {r r' : Room W}
  {js : List (Page W)} {xs own : List Exchange} {ns : List Notice} {fs : List Failure} {n : Nat}
  {w : Handle} {s t : Session}

/-- Beside the sessions of a room, the journal recalls the controller before the one that runs. -/
structure Recalls (mode : Isolation) (js : List (Page W)) (r : Room W) : Prop where
  linked : ∃ own, r.Linked mode own
  begun : ∀ n w, r.working? n = some w → ∃ q,
    ((js.map Page.before).reverse.find? fun q => (q.working? n).isNone) = some q ∧
      r.controller = q.controller.openedIsolated w

theorem Recalls.eve_of_start (hn : r.working? n = none) : r.eve n js = r := by
  rw [Room.eve, List.find?_cons_of_pos (by rw [hn]; rfl), Option.getD_some]

theorem Recalls.eve_of_running (h : Recalls config.isolation js r) (hn : r.working? n = some w) :
    r.controller = (r.eve n js).controller.openedIsolated w := by
  obtain ⟨q, hq, hc⟩ := h.begun n w hn
  rw [Room.eve, List.find?_cons_of_neg (by rw [hn]; nofun), hq, Option.getD_some]
  exact hc

/-- A session that runs after an operation in isolation ran before, or it was begun on a new
fork. -/
theorem Does.running_cases (h : Does b config r op xs ns fs (op.perform b config r).2)
    (hr : r.Linked config.isolation own) (hm : config.isolation = .isolated)
    (hw : (op.perform b config r).2.working? n = some w) :
    r.working? n = some w ∧ (op.perform b config r).2.controller = r.controller ∨
      r.working? n = none ∧
        (op.perform b config r).2.controller = r.controller.openedIsolated w := by
  cases hop : op.isOn n with
  | false =>
    rcases h.session?_cases hop with hsame | ⟨-, kind, payload, hnew⟩
    · rw [Room.working?, hsame] at hw
      have hstands := bystands (b := b) hr (Room.runs_iff.2 ⟨w, hw⟩) hop
      exact .inl ⟨hw, by rw [hstands.desk]⟩
    · rw [Room.working?_eq hnew] at hw
      cases hw
  | true =>
    obtain ⟨sop, rfl⟩ := exists_eq_session_of_isOn hop
    cases hs : r.session? n with
    | none =>
      rw [perform_session_none b config hs, Room.working?, hs] at hw
      cases hw
    | some s =>
      obtain ⟨_, _, _, hcourse, -⟩ := sop.course b ⟨r.toDesk, s⟩
      rw [perform_session b config hs] at hw ⊢
      rw [Room.working?, Room.session?_set hs, if_pos rfl] at hw
      split at hw
      · have hp := Phase.eq_running hw
        rw [Room.working?_eq hs]
        refine (hcourse.running_cases hp ((hr.isolation n s hs).trans hm)).imp ?_ ?_
        · rintro ⟨hs, hc⟩
          exact ⟨by rw [hs]; rfl, hc⟩
        · rintro ⟨hs, hc⟩
          exact ⟨by rw [hs]; rfl, hc⟩
      · cases hw

theorem Does.recalls (h : Does b config r op xs ns fs (op.perform b config r).2)
    (hm : config.isolation = .isolated) (hr : Recalls config.isolation js r) :
    Recalls config.isolation (js ++ [op.page b config r]) (op.perform b config r).2 := by
  obtain ⟨own, hlinked⟩ := hr.linked
  refine ⟨⟨_, h.linked hlinked⟩, fun n w hw => ?_⟩
  rw [List.map_append, List.reverse_append]
  change ∃ q, ((r :: (js.map Page.before).reverse).find? _) = some q ∧ _
  rcases h.running_cases hlinked hm hw with ⟨hbefore, hc⟩ | ⟨hbefore, hc⟩
  · rw [List.find?_cons_of_neg (by rw [hbefore]; nofun), hc]
    exact hr.begun n w hbefore
  · rw [List.find?_cons_of_pos (by rw [hbefore]; rfl)]
    exact ⟨r, rfl, hc⟩

/-- The session that an operation is on has the controller before it, or runs on a fork of it. -/
theorem Recalls.eve_cases (h : Recalls config.isolation js r)
    (hact : op.acting? b config r = some (s, t)) :
    (s.phase = .start → r.controller = op.eve js r) ∧
      ∀ w, s.phase = .running w → r.controller = (op.eve js r).openedIsolated w := by
  cases op with
  | store | shutdown => cases hact
  | session n sop =>
    obtain ⟨session, hs, hst⟩ := Option.map_eq_some_iff.1 hact
    obtain ⟨rfl, -⟩ := Prod.mk.inj hst
    have hworking := Room.working?_eq hs
    refine ⟨fun hp => ?_, fun w hp => ?_⟩ <;> rw [hp] at hworking
    · rw [eve, eve_of_start hworking]
    · exact h.eve_of_running hworking
  | submit kind input choice =>
    cases input with
    | other => cases hact
    | bytes payload =>
      simp only [acting?] at hact
      split at hact
      · obtain ⟨rfl, -⟩ := Prod.mk.inj (Option.some.inj hact)
        refine ⟨fun _ => rfl, fun w hw => ?_⟩
        cases hw
      · cases hact

/-- In every room that an isolated engine comes to, an operation on a session that comes to its end
raises what that end says, whether or not the machine of the session can be released. -/
theorem run_leaks (b : Backend W) (config : EngineConfig) (machine : Handle) (site : Site W)
    (ops : List EngineOp) (hm : config.isolation = .isolated)
    (hact : op.acting? b config (run b config ops (.opening machine site)) = some (s, t)) :
    let r := run b config ops (.opening machine site)
    let eve := op.eve (journal b config ops (.opening machine site)) r
    let p := op.page b config r
    ∃ told, p.answer.failure? = op.answers told ∧
      (∀ x, s.kind.fate p.calls = .failed x →
        (∀ m e, .shutdown m (.error e) ∈ p.calls → e.ordinary = true) →
          told = some (.fatalFrom "machine error: " (Failure.source "machine") x) ∧
            t.phase = .fatal) ∧
      ∀ m e, .shutdown m (.error e) ∈ p.calls → e.ordinary = true → e.engineKind? = none →
        s.Leaks eve p.calls e told p.after.controller t.phase := by
  intro r eve p
  have hopening : Recalls config.isolation [] (Room.opening machine site) :=
    ⟨⟨[], Room.opening_linked _ machine site⟩, nofun⟩
  have hrecalls : Recalls config.isolation (journal b config ops (.opening machine site)) r :=
    run_journal (fun _ _ _ _ hdoes _ _ => hdoes.recalls hm) ops hopening
  obtain ⟨own, hlinked⟩ := hrecalls.linked
  obtain ⟨hstart, hrun⟩ := hrecalls.eve_cases hact
  have hisolated : s.isolation = .isolated := (isolation_of_acting hlinked hact).trans hm
  have hfork : ∀ result, s.Accepts t.phase result →
      s.phase = .running p.after.controller.canonical ∨
        s.phase = .start ∧ .fork eve.canonical (.ok p.after.controller.canonical) ∈ p.calls := by
    intro result ha
    obtain ⟨xs, ns, fs, hdoes, -⟩ := op.does b config r
    have hcalls : p.calls = xs := Page.calls_of_follows hdoes.follows
    obtain ⟨s', t', w, _, _, pre, hact', -, hxs, hc, hw⟩ :=
      hdoes.promoted hlinked hm ⟨s, t, hact, ha⟩
    cases hact.symm.trans hact'
    rw [hcalls, hxs, show p.after.controller.canonical = w from hc]
    refine hw.imp_right fun ⟨hp, hmem⟩ => ⟨hp, ?_⟩
    rw [show eve.canonical = r.controller.canonical by rw [hstart hp]]
    exact List.mem_append_left _ hmem
  obtain ⟨told, seat, hcourse, rfl, hc, hanswer⟩ := course hact
  refine ⟨told, hanswer, ?_⟩
  rw [hc] at hfork ⊢
  cases hd : s.phase.done with
  | true =>
    obtain ⟨-, hcalls, -⟩ := hcourse.of_done hd
    rw [show p.calls = [] from hcalls]
    exact ⟨(fun _ hfate => nomatch hfate), fun _ _ hx => nomatch hx⟩
  | false =>
    rcases hcourse.departs_or_stays hd with hdeparts | hstays
    · exact ⟨fun x hfate hx => hdeparts.told_of_failed hfate hx,
        fun m e hx he hk => hdeparts.leaks hisolated hstart hrun hfork hx he hk⟩
    · refine ⟨fun x hfate => ?_, fun m e hx => ?_⟩
      · cases hstays.fate.symm.trans hfate
      · have hmem : .shutdown m (.error e) ∈ p.calls.filter Exchange.isRelease :=
          List.mem_filter.2 ⟨hx, rfl⟩
        rw [show p.calls.filter Exchange.isRelease = [] from hstays.releases] at hmem
        cases hmem

/-- A session that is closed, and whose fork cannot be released. -/
theorem close_leaks :
    let fault : Scripted.Fault :=
      { method := .shutdown, nth := 1, error := Scripted.machineError "lost" }
    let ops := [submit .advance (.bytes [97]) (some false), session 0 .pull]
    let r := run Scripted.backend {} ops (.opening 0 { world := .ofLedger [] [] [fault] })
    let p := (session 0 .close).page Scripted.backend {} r
    ∃ f, p.answer.failure? = some f ∧ f.error.message = "failed to close transaction: lost" ∧
      p.after.controller.leaked = 1 ∧ p.after.controller.outstanding = 1 := by
  intro fault ops r p
  let s : Session := { kind := .advance, payload := [97], phase := .running 1 }
  have hact :
      (session 0 .close).acting? Scripted.backend {} r = some (s, s.inPhase .cancelled) := by
    decide +kernel
  obtain ⟨told, hanswer, -, hleaks⟩ :=
    run_leaks Scripted.backend {} 0 { world := .ofLedger [] [] [fault] } ops rfl hact
  obtain ⟨x, hx, hrelease, e, he, hord, hkind, hmessage⟩ : ∃ x ∈ p.calls, x.isRelease = true ∧
      ∃ e, x.error? = some e ∧ e.ordinary = true ∧ e.engineKind?.isNone = true ∧
        e.message = "lost" := by
    have hany : (p.calls.any fun x => x.isRelease && x.error?.any fun e =>
        e.ordinary && (e.engineKind?.isNone && e.message = "lost")) = true := by decide +kernel
    simpa [Option.any_eq_true] using hany
  obtain ⟨m, rfl⟩ := Exchange.eq_shutdown_of_isRelease hrelease he
  have hleaks := hleaks m e hx hord (Option.isNone_iff_eq_none.1 hkind)
  have hfate : s.kind.fate p.calls = .closed :=
    InputKind.fate_eq_closed (Option.isNone_iff_eq_none.1 (by decide +kernel))
      (Option.isNone_iff_eq_none.1 (by decide +kernel))
  obtain ⟨rfl, -, hundone⟩ := hleaks.closed hfate
  refine ⟨_, hanswer, ?_, ?_, ?_⟩
  · change "failed to close transaction: " ++ e.message = _
    rw [hmessage]
    rfl
  · rw [hleaks.leaked]
    decide +kernel
  · rw [hundone.outstanding]
    decide +kernel

end EngineOp

end RollupEngine

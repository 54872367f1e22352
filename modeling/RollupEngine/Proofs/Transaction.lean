import RollupEngine.Controller
import RollupEngine.Proofs.Record

/-!
# What the controller does

Each operation of the controller is described once, by a relation between the controller it finds,
the calls and notices it makes, how it ends, and the controller it leaves: `Controller.Begins` for
opening a transaction, `Controller.Settles` for closing one, whether it is kept or discarded,
`Controller.Stores` and `Controller.ShutsDown`. `Desk.begin_cases`, `Desk.commit_cases`,
`Desk.rollback_cases`, `Desk.store_cases` and `Desk.shutdown_cases` say that the operations do
nothing else, for every backend. What follows about transactions follows from these relations.
-/

namespace RollupEngine

variable {W α : Type}

/-! ## Releases -/

/-- Whether releasing a machine failed in the ordinary way. -/
def leaks : Except Error Unit → Bool
  | .ok _ => false
  | .error e => e.ordinary

/-- Whether a machine was released. -/
def released : Except Error Unit → Bool
  | .ok _ => true
  | .error _ => false

/-- How an operation ends that goes on after an ordinary failure. -/
def forgiven : Except Error Unit → Except Failure Unit
  | .ok _ => .ok ()
  | .error e => if e.ordinary then .ok () else .error { error := e }

namespace Controller

/-- Whether the controller is open and without a transaction. -/
def Idle (c : Controller) : Prop :=
  c.closed = false ∧ c.transaction = none

/-- The controller with a transaction on the canonical machine itself. -/
def openedDirect (c : Controller) : Controller :=
  { c with transaction := some (.direct c.canonical) }

/-- The controller with a transaction on the fork `w`. -/
def openedIsolated (c : Controller) (w : Handle) : Controller :=
  { c with created := c.created + 1, transaction := some (.isolated w c.canonical) }

/-- The controller after its transaction was closed without a call. -/
def cleared (c : Controller) : Controller :=
  { c with transaction := none }

/-- The controller after the fork `w` became canonical, with the reply of the machine released. -/
def promoted (c : Controller) (w : Handle) (reply : Except Error Unit) : Controller :=
  { c with
    canonical := w
    transaction := none
    released := c.released + 1
    leaked := c.leaked + (leaks reply).toNat }

/-- The controller after a fork was discarded, with its reply. -/
def discarded (c : Controller) (reply : Except Error Unit) : Controller :=
  { c with
    transaction := none
    released := c.released + (RollupEngine.released reply).toNat
    leaked := c.leaked + (leaks reply).toNat }

/-- Opening a transaction. -/
inductive Begins (mode : Isolation) (c : Controller) :
    List Exchange → List Notice → Except Failure Handle → Controller → Prop
  | closed (h : c.closed = true) : Begins mode c [] [] (.error (.ofKind .closed)) c
  | busy (h : c.closed = false) (ht : c.transaction.isSome = true) :
    Begins mode c [] [] (.error (.ofKind .busy)) c
  | direct (h : c.Idle) (hm : mode = .direct) :
    Begins mode c [] [.began .direct] (.ok c.canonical) c.openedDirect
  | isolated (h : c.Idle) (hm : mode = .isolated) (w : Handle) :
    Begins mode c [.fork c.canonical (.ok w)] [.began .isolated] (.ok w) (c.openedIsolated w)
  | failed (h : c.Idle) (hm : mode = .isolated) (e : Error) (he : e.ordinary = true) :
    Begins mode c [.fork c.canonical (.error e)] [.forkFailed]
      (.error (.fatalFrom "fork failed: " [] e)) c
  | interrupted (h : c.Idle) (hm : mode = .isolated) (e : Error) (he : e.ordinary = false) :
    Begins mode c [.fork c.canonical (.error e)] [] (.error { error := e }) c

/-- Closing the open transaction, which is kept if `keeps` and else discarded. -/
inductive Settles (keeps : Bool) (c : Controller) :
    List Exchange → List Notice → Except Failure Unit → Controller → Prop
  | absent (h : c.transaction = none) : Settles keeps c [] [] (.error (.ofKind .transaction)) c
  | direct {w : Handle} (h : c.transaction = some (.direct w)) :
    Settles keeps c [] [if keeps then .committed .direct else .rolledBack .direct] (.ok ())
      c.cleared
  | promoted {w k : Handle} (h : c.transaction = some (.isolated w k)) (hk : keeps = true)
      (reply : Except Error Unit) :
    Settles keeps c [.shutdown k reply]
      (.committed .isolated :: if leaks reply then [.releaseFailed] else []) (forgiven reply)
      (c.promoted w reply)
  | discarded {w k : Handle} (h : c.transaction = some (.isolated w k)) (hk : keeps = false)
      (reply : Except Error Unit) :
    Settles keeps c [.shutdown w reply] [.rolledBack .isolated] (Site.raised reply)
      (c.discarded reply)

/-- Saving the canonical machine. -/
inductive Stores (path : String) (c : Controller) :
    List Exchange → List Notice → Except Failure Unit → Prop
  | closed (h : c.closed = true) : Stores path c [] [] (.error (.ofKind .closed))
  | busy (h : c.closed = false) (ht : c.transaction.isSome = true) :
    Stores path c [] [] (.error (.ofKind .busy))
  | stored (h : c.Idle) : Stores path c [.store c.canonical path (.ok ())] [.stored path] (.ok ())
  | failed (h : c.Idle) (e : Error) :
    Stores path c [.store c.canonical path (.error e)] [] (.error { error := e })

/-- Releasing the canonical machine for good. -/
inductive ShutsDown (c : Controller) :
    List Exchange → List Notice → Except Failure Unit → Controller → Prop
  | closed (h : c.closed = true) : ShutsDown c [] [] (.ok ()) c
  | busy (h : c.closed = false) (ht : c.transaction.isSome = true) :
    ShutsDown c [] [] (.error (.ofKind .busy (some "cannot shut down while a session is open"))) c
  | released (h : c.Idle) :
    ShutsDown c [.shutdown c.canonical (.ok ())] [.shutDown] (.ok ()) { c with closed := true }
  | failed (h : c.Idle) (e : Error) :
    ShutsDown c [.shutdown c.canonical (.error e)] [] (.error { error := e })
      { c with closed := true }

/-- A controller is closed, has a transaction, or is idle. -/
theorem closed_or_busy_or_idle (c : Controller) :
    c.closed = true ∨ c.closed = false ∧ c.transaction.isSome = true ∨ c.Idle := by
  unfold Idle
  cases c.closed <;> cases c.transaction <;> simp

variable {mode : Isolation} {c c' : Controller} {xs : List Exchange} {ns : List Notice}

/-- Opening a transaction makes at most one call: to fork the canonical machine. -/
theorem Begins.mem {o : Except Failure Handle} (h : c.Begins mode xs ns o c') {x : Exchange}
    (hx : x ∈ xs) : mode = .isolated ∧ ∃ reply, x = .fork c.canonical reply := by
  cases h with
  | closed | busy | direct => cases hx
  | isolated _ hm | failed _ hm | interrupted _ hm => exact ⟨hm, _, List.mem_singleton.1 hx⟩

/-- Closing a transaction makes no call but to release a machine. -/
theorem Settles.mem {keeps : Bool} {o : Except Failure Unit} (h : c.Settles keeps xs ns o c')
    {x : Exchange} (hx : x ∈ xs) : ∃ m reply, x = .shutdown m reply := by
  cases h with
  | absent | direct => cases hx
  | promoted | discarded => exact ⟨_, _, List.mem_singleton.1 hx⟩

end Controller

/-! ## The operations -/

namespace Desk

variable {b : Backend W} {xs : List Exchange} {ns : List Notice} {o : Except Failure α}

theorem runs_onSite {act : Act (Site W) α} {s' : Site W} (d : Desk W)
    (h : act.Runs b id d.toSite xs ns o s') :
    (onSite act).Runs b toSite d xs ns o { d with toSite := s' } :=
  h.focus rfl rfl

theorem runs_update (f : Controller → Controller) (d : Desk W) :
    (update f).Runs b toSite d [] [] (.ok ()) { d with controller := f d.controller } :=
  .silent rfl rfl

theorem runs_note (n : Notice) (d : Desk W) :
    (note n).Runs b toSite d [] [n] (.ok ()) { d with notices := d.notices ++ [n] } :=
  runs_onSite d (Site.runs_note b n d.toSite)

theorem runs_ensureIdle {d : Desk W} (h : d.controller.Idle) :
    ensureIdle.Runs b toSite d [] [] (.ok ()) d :=
  .silent (by simp [ensureIdle, h.1, h.2, Controller.inTransaction, Act.result]) rfl

theorem runs_ensureIdle_closed {d : Desk W} (h : d.controller.closed = true) :
    ensureIdle.Runs b toSite d [] [] (.error (.ofKind .closed)) d :=
  .silent (by simp [ensureIdle, h, Act.result]) rfl

theorem runs_ensureIdle_busy {d : Desk W} (h : d.controller.closed = false)
    (ht : d.controller.transaction.isSome = true) :
    ensureIdle.Runs b toSite d [] [] (.error (.ofKind .busy)) d :=
  .silent (by simp [ensureIdle, h, ht, Controller.inTransaction, Act.result]) rfl

theorem runs_takeTransaction {d : Desk W} {t : Transaction}
    (h : d.controller.transaction = some t) :
    takeTransaction.Runs b toSite d [] [] (.ok t)
      { d with controller := d.controller.cleared } := by
  refine .get_bind ?_
  rw [h]
  exact (runs_update _ d).bind (.pure t _)

/-- Without a transaction there is nothing to close. -/
theorem runs_takeTransaction_none {d : Desk W} (h : d.controller.transaction = none) :
    takeTransaction.Runs b toSite d [] [] (.error (.ofKind .transaction)) d := by
  refine .get_bind ?_
  rw [h]
  exact .throw _ d

theorem begin_cases (b : Backend W) (mode : Isolation) (d : Desk W) :
    ∃ xs ns o d', (Desk.begin b mode).Runs b toSite d xs ns o d' ∧
      d.controller.Begins mode xs ns o d'.controller := by
  rcases d.controller.closed_or_busy_or_idle with h | ⟨h, ht⟩ | h
  · exact ⟨_, _, _, _, (runs_ensureIdle_closed h).bind_error, .closed h⟩
  · exact ⟨_, _, _, _, (runs_ensureIdle_busy h ht).bind_error, .busy h ht⟩
  cases mode with
  | direct =>
    exact ⟨_, _, _, _, (runs_ensureIdle h).bind <| .get_bind <| (runs_update _ d).bind <|
      (runs_note _ _).bind (.pure _ _), .direct h rfl⟩
  | isolated =>
    obtain ⟨reply, s', hcall⟩ := b.runs_callFork d.toSite d.controller.canonical
    replace hcall := runs_onSite d hcall
    cases reply with
    | ok w =>
      exact ⟨_, _, _, _, (runs_ensureIdle h).bind <| .get_bind <|
        (Act.Runs.get_bind hcall.rescue_ok).bind <| (runs_update _ _).bind <|
        (runs_note _ _).bind (.pure _ _), .isolated h rfl w⟩
    | error e =>
      cases he : e.ordinary with
      | true =>
        exact ⟨_, _, _, _, (runs_ensureIdle h).bind <| .get_bind <| .bind_error <| .get_bind <|
          hcall.rescue_ordinary he <| (runs_note _ _).bind (.throw _ _), .failed h rfl e he⟩
      | false =>
        exact ⟨_, _, _, _, (runs_ensureIdle h).bind <| .get_bind <| .bind_error <| .get_bind <|
          hcall.rescue_interrupt he, .interrupted h rfl e he⟩

theorem commit_cases (b : Backend W) (d : Desk W) :
    ∃ xs ns o d', (commit b).Runs b toSite d xs ns o d' ∧
      d.controller.Settles true xs ns o d'.controller := by
  rcases ht : d.controller.transaction with _ | ⟨working, backup⟩ | working
  · exact ⟨_, _, _, _, (runs_takeTransaction_none ht).bind_error, .absent ht⟩
  · -- the fork is canonical before its backup is released
    let switched : Desk W :=
      { d with
        notices := d.notices ++ [.committed .isolated]
        controller := { d.controller.cleared with
          canonical := working, released := d.controller.released + 1 } }
    obtain ⟨reply, s', hcall⟩ := b.runs_callShutdown switched.toSite backup
    replace hcall := runs_onSite switched hcall
    have hrelease : ∃ d', (Act.rescue (onSite (b.callShutdown backup)) fun _ => do
        update fun c => { c with leaked := c.leaked + 1 }
        note .releaseFailed).Runs b toSite switched [.shutdown backup reply]
          (if leaks reply then [.releaseFailed] else []) (forgiven reply) d' ∧
        d'.controller = d.controller.promoted working reply := by
      rcases reply with e | _
      · cases he : e.ordinary with
        | true =>
          rw [leaks, forgiven, he]
          refine ⟨_, hcall.rescue_ordinary he <| (runs_update _ _).bind (runs_note _ _), ?_⟩
          simp [switched, Controller.promoted, Controller.cleared, leaks, he]
        | false =>
          rw [leaks, forgiven, he]
          refine ⟨_, hcall.rescue_interrupt he, ?_⟩
          simp [switched, Controller.promoted, Controller.cleared, leaks, he]
      · exact ⟨_, hcall.rescue_ok, rfl⟩
    obtain ⟨d', hrelease, hd'⟩ := hrelease
    refine ⟨_, _, _, d', (runs_takeTransaction ht).bind <| (runs_update _ _).bind <|
      (runs_note _ _).bind hrelease, ?_⟩
    rw [hd']
    exact .promoted ht rfl reply
  · exact ⟨_, _, _, _, (runs_takeTransaction ht).bind (runs_note _ _), .direct ht⟩

theorem rollback_cases (b : Backend W) (d : Desk W) :
    ∃ xs ns o d', (rollback b).Runs b toSite d xs ns o d' ∧
      d.controller.Settles false xs ns o d'.controller := by
  rcases ht : d.controller.transaction with _ | ⟨working, backup⟩ | working
  · exact ⟨_, _, _, _, (runs_takeTransaction_none ht).bind_error, .absent ht⟩
  · let noted : Desk W :=
      { d with
        notices := d.notices ++ [.rolledBack .isolated]
        controller := d.controller.cleared }
    obtain ⟨reply, s', hcall⟩ := b.runs_callShutdown noted.toSite working
    replace hcall := runs_onSite noted hcall
    rcases reply with e | _
    · cases he : e.ordinary with
      | true =>
        refine ⟨_, _, _, _, (runs_takeTransaction ht).bind <| (runs_note _ _).bind <| .bind_error <|
          hcall.rescue_ordinary he <| (runs_update _ _).bind (.throw _ _), ?_⟩
        have hc : d.controller.discarded (.error e) =
            { d.controller.cleared with leaked := d.controller.leaked + 1 } := by
          simp [Controller.discarded, Controller.cleared, leaks, released, he]
        have hd := Controller.Settles.discarded ht rfl (.error e)
        rw [hc] at hd
        exact hd
      | false =>
        refine ⟨_, _, _, _, (runs_takeTransaction ht).bind <| (runs_note _ _).bind <| .bind_error <|
          hcall.rescue_interrupt he, ?_⟩
        have hc : d.controller.discarded (.error e) = d.controller.cleared := by
          simp [Controller.discarded, Controller.cleared, leaks, released, he]
        have hd := Controller.Settles.discarded ht rfl (.error e)
        rw [hc] at hd
        exact hd
    · exact ⟨_, _, _, _, (runs_takeTransaction ht).bind <| (runs_note _ _).bind <|
        hcall.rescue_ok.bind (runs_update _ _), .discarded ht rfl (.ok ())⟩
  · exact ⟨_, _, _, _, (runs_takeTransaction ht).bind (runs_note _ _), .direct ht⟩

theorem store_cases (b : Backend W) (path : String) (d : Desk W) :
    ∃ xs ns o d', (store b path).Runs b toSite d xs ns o d' ∧
      d.controller.Stores path xs ns o ∧ d'.controller = d.controller := by
  rcases d.controller.closed_or_busy_or_idle with h | ⟨h, ht⟩ | h
  · exact ⟨_, _, _, _, (runs_ensureIdle_closed h).bind_error, .closed h, rfl⟩
  · exact ⟨_, _, _, _, (runs_ensureIdle_busy h ht).bind_error, .busy h ht, rfl⟩
  obtain ⟨reply, s', hcall⟩ := b.runs_callStore d.toSite d.controller.canonical path
  replace hcall := runs_onSite d hcall
  cases reply with
  | ok _ =>
    exact ⟨_, _, _, _, (runs_ensureIdle h).bind <| .get_bind <| hcall.bind (runs_note _ _),
      .stored h, rfl⟩
  | error e =>
    exact ⟨_, _, _, _, (runs_ensureIdle h).bind <| .get_bind hcall.bind_error, .failed h e, rfl⟩

theorem shutdown_cases (b : Backend W) (d : Desk W) :
    ∃ xs ns o d', (shutdown b).Runs b toSite d xs ns o d' ∧
      d.controller.ShutsDown xs ns o d'.controller := by
  rcases d.controller.closed_or_busy_or_idle with h | ⟨h, ht⟩ | h
  · have hrun : (shutdown b).Runs b toSite d [] [] (.ok ()) d := by
      refine .get_bind ?_
      rw [if_pos h]
      exact .pure _ d
    exact ⟨_, _, _, _, hrun, .closed h⟩
  · refine ⟨_, _, _, d, ?_, .busy h ht⟩
    refine .get_bind ?_
    rw [if_neg (by simp [h]), if_pos (show d.controller.inTransaction = true from ht)]
    exact .throw _ d
  have hopen : ¬d.controller.closed = true := by simp [h.1]
  have hidle : ¬d.controller.inTransaction = true := by simp [Controller.inTransaction, h.2]
  let closed : Desk W := { d with controller := { d.controller with closed := true } }
  obtain ⟨reply, s', hcall⟩ := b.runs_callShutdown closed.toSite d.controller.canonical
  replace hcall := runs_onSite closed hcall
  cases reply with
  | ok _ =>
    refine ⟨_, _, _, { closed with toSite := { s' with notices := s'.notices ++ [.shutDown] } },
      .get_bind ?_, .released h⟩
    rw [if_neg hopen, if_neg hidle]
    exact (runs_update ({ · with closed := true }) d).bind <| hcall.bind (runs_note .shutDown _)
  | error e =>
    refine ⟨_, _, _, { closed with toSite := s' }, .get_bind ?_, .failed h e⟩
    rw [if_neg hopen, if_neg hidle]
    exact (runs_update ({ · with closed := true }) d).bind hcall.bind_error

end Desk

end RollupEngine

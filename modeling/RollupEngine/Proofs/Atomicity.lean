import RollupEngine.Proofs.Link
import RollupEngine.Proofs.Room
import RollupEngine.Proofs.Session.Rest
import RollupEngine.Scripted.World

/-!
# Operations of the controller as wholes

An operation of the controller may be refused, and it may raise where it calls a machine. `Atomic`
says what this leaves behind: nothing where the controller refuses or a transaction cannot be
opened, and everything where a transaction is closed or the controller is shut down, because these
are done before any machine is called. `ControllerOp.Does.atomic` proves it from the relations that
describe the operations, for every controller and every reply of the machines.

So an open transaction goes in one way only. The transactions that were opened in a run are those
that were closed and the one that is still open, in this order (`ControllerOp.run_atomic`): each is
closed once, and by a commit or a rollback.
-/

namespace RollupEngine

variable {W : Type}

/-- What can be done with a controller itself. -/
inductive ControllerOp where
  | begin (mode : Isolation)
  | commit
  | rollback
  | store (path : String)
  | shutdown
  deriving DecidableEq, Repr

/-- The machine that is of no more use once the transaction is closed. -/
def Transaction.superseded? (t : Transaction) (keeps : Bool) : Option Handle :=
  match t with
  | isolated working backup => some (if keeps then backup else working)
  | direct _ => none

/-- The mode of the open transaction, and the machine that it works on. -/
def Controller.held? (c : Controller) : Option (Isolation × Handle) :=
  c.transaction.map fun t => (t.mode, t.working)

namespace ControllerOp

/-- The operation on a room with this controller. -/
def toRoom : ControllerOp → RoomOp
  | .begin mode => .begin mode
  | .commit => .commit
  | .rollback => .rollback
  | .store path => .store path
  | .shutdown => .shutdown

/-- Whether an operation is for an idle controller only. -/
def needsIdle : ControllerOp → Bool
  | .begin _ | .store _ => true
  | _ => false

/-- Whether an operation keeps the transaction that it closes, if it is to close one. -/
def keeps? : ControllerOp → Option Bool
  | .commit => some true
  | .rollback => some false
  | _ => none

/-- The failure with which a controller refuses an operation, if it does. -/
def refusal? (c : Controller) : ControllerOp → Option Failure
  | .begin _ | .store _ => c.refusal?
  | .commit | .rollback => if c.inTransaction then none else some (.ofKind .transaction)
  | .shutdown =>
    if !c.closed && c.inTransaction then
      some (.ofKind .busy (some "cannot shut down while a session is open"))
    else none

/-- The kinds of the errors with which a controller refuses. -/
def refusals : List EngineErrorKind :=
  [.busy, .closed, .transaction]

/-- An operation that finds the controller `c`, makes the calls `xs`, ends with `o` and leaves `c'`
does all that it is for or nothing. -/
structure Atomic (op : ControllerOp) (c : Controller) (xs : List Exchange)
    (o : Except Failure Reply) (c' : Controller) : Prop where
  /-- An operation that is refused does nothing. -/
  refused : ∀ f, op.refusal? c = some f → xs = [] ∧ o = .error f ∧ c' = c
  /-- A failure of one of these kinds that no machine raised is a refusal. -/
  checked : ∀ f k, o = .error f → f.error.engineKind? = some k → k ∈ refusals →
    (∀ x ∈ xs, x.error? ≠ some f.error) → op.refusal? c = some f
  /-- If the machine raises, no transaction is opened and nothing is saved. -/
  raised : op.needsIdle = true → ∀ x ∈ xs, ∀ e, x.error? = some e → c' = c ∧
    ∃ f, o = .error f ∧ (f = { error := e } ∨ f = .fatalFrom "fork failed: " [] e)
  /-- A transaction that is opened works on the machine that is replied. -/
  opened : ∀ mode reply, op = .begin mode → o = .ok reply → c.Idle ∧
    ∃ t, reply = .working t.working ∧ c' = { c with created := c'.created, transaction := some t } ∧
      t.mode = mode ∧ t.backup? = if mode = .isolated then some c.canonical else none
  /-- What is saved is the canonical machine. -/
  saved : ∀ path reply, op = .store path → o = .ok reply →
    xs = [.store c.canonical path (.ok ())] ∧ c' = c
  /-- An open transaction is closed, whatever comes of releasing the machine that it spares. -/
  settled : ∀ keeps t, op.keeps? = some keeps → c.transaction = some t →
    c'.transaction = none ∧ c'.closed = c.closed ∧
      c'.canonical = (if keeps = true ∧ t.mode = .isolated then t.working else c.canonical) ∧
      ∃ reply, xs = (t.superseded? keeps).toList.map (.shutdown · reply)
  /-- An idle controller is closed, whatever comes of releasing its machine. -/
  shut : op = .shutdown → c.Idle →
    c' = { c with closed := true } ∧ ∃ reply, xs = [.shutdown c.canonical reply]

/-! ## One operation -/

/-- All that an operation does, with its calls, its notices and how it ends. -/
inductive Does (c : Controller) :
    ControllerOp → List Exchange → List Notice → Except Failure Reply → Controller → Prop
  | began {mode : Isolation} {xs : List Exchange} {ns : List Notice} {o : Except Failure Handle}
      {c' : Controller} (h : c.Begins mode xs ns o c') :
    Does c (.begin mode) xs ns (o.map .working) c'
  | committed {xs : List Exchange} {ns : List Notice} {o : Except Failure Unit} {c' : Controller}
      (h : c.Settles true xs ns o c') : Does c .commit xs ns (o.map fun _ => .done) c'
  | rolledBack {xs : List Exchange} {ns : List Notice} {o : Except Failure Unit} {c' : Controller}
      (h : c.Settles false xs ns o c') : Does c .rollback xs ns (o.map fun _ => .done) c'
  | stored {path : String} {xs : List Exchange} {ns : List Notice} {o : Except Failure Unit}
      (h : c.Stores path xs ns o) : Does c (.store path) xs ns (o.map fun _ => .done) c
  | shutDown {xs : List Exchange} {ns : List Notice} {o : Except Failure Unit} {c' : Controller}
      (h : c.ShutsDown xs ns o c') : Does c .shutdown xs ns (o.map fun _ => .done) c'

/-- Every operation does one of these, and leaves the sessions of the room alone. -/
theorem does (b : Backend W) (op : ControllerOp) (r : Room W) :
    ∃ xs ns o d, op.toRoom.perform b r = ({ outcome := o }, { r with toDesk := d }) ∧
      r.toSite.Follows b xs ns d.toSite ∧ Does r.controller op xs ns o d.controller := by
  cases op with
  | begin mode =>
    obtain ⟨xs, ns, o, d, hrun, h⟩ := Desk.begin_cases b mode r.toDesk
    exact ⟨xs, ns, _, d, Room.reply_onDesk hrun .working, hrun.follows, .began h⟩
  | commit =>
    obtain ⟨xs, ns, o, d, hrun, h⟩ := Desk.commit_cases b r.toDesk
    exact ⟨xs, ns, _, d, Room.reply_onDesk hrun fun _ => .done, hrun.follows, .committed h⟩
  | rollback =>
    obtain ⟨xs, ns, o, d, hrun, h⟩ := Desk.rollback_cases b r.toDesk
    exact ⟨xs, ns, _, d, Room.reply_onDesk hrun fun _ => .done, hrun.follows, .rolledBack h⟩
  | store path =>
    obtain ⟨xs, ns, o, d, hrun, h, hd⟩ := Desk.store_cases b path r.toDesk
    refine ⟨xs, ns, _, d, Room.reply_onDesk hrun fun _ => .done, hrun.follows, ?_⟩
    rw [hd]
    exact .stored h
  | shutdown =>
    obtain ⟨xs, ns, o, d, hrun, h⟩ := Desk.shutdown_cases b r.toDesk
    exact ⟨xs, ns, _, d, Room.reply_onDesk hrun fun _ => .done, hrun.follows, .shutDown h⟩

namespace Does

variable {op : ControllerOp} {c c' : Controller} {xs : List Exchange} {ns : List Notice}
  {o : Except Failure Reply}

theorem refused (h : Does c op xs ns o c') {f : Failure} (hf : op.refusal? c = some f) :
    xs = [] ∧ o = .error f ∧ c' = c := by
  have closed (h : c.closed = true) (hf : c.refusal? = some f) : .ofKind .closed = f :=
    Option.some.inj ((Controller.refusal?_of_closed h).symm.trans hf)
  have busy (h : c.closed = false) (ht : c.transaction.isSome = true) (hf : c.refusal? = some f) :
      .ofKind .busy = f :=
    Option.some.inj <|
      (Controller.refusal?_of_busy h (Option.isSome_iff_ne_none.1 ht)).symm.trans hf
  cases h with
  | began h =>
    cases h with
    | closed h => exact ⟨rfl, congrArg Except.error (closed h hf), rfl⟩
    | busy h ht => exact ⟨rfl, congrArg Except.error (busy h ht hf), rfl⟩
    | direct h | isolated h | failed h | interrupted h =>
      exact absurd h (Controller.not_idle_of_refusal hf)
  | committed h | rolledBack h =>
    rw [refusal?, Controller.inTransaction] at hf
    cases h with
    | absent h =>
      rw [h] at hf
      cases hf
      exact ⟨rfl, rfl, rfl⟩
    | direct h | promoted h | discarded h => simp [h] at hf
  | stored h =>
    cases h with
    | closed h => exact ⟨rfl, congrArg Except.error (closed h hf), rfl⟩
    | busy h ht => exact ⟨rfl, congrArg Except.error (busy h ht hf), rfl⟩
    | stored h | failed h => exact absurd h (Controller.not_idle_of_refusal hf)
  | shutDown h =>
    rw [refusal?, Controller.inTransaction] at hf
    cases h with
    | closed h => simp [h] at hf
    | busy h ht =>
      rw [h, ht] at hf
      cases hf
      exact ⟨rfl, rfl, rfl⟩
    | released h | failed h => simp [h.2] at hf

/-- An operation that fails was refused, or a machine raised. -/
theorem failure_cases (h : Does c op xs ns o c') {f : Failure} (ho : o = .error f) :
    op.refusal? c = some f ∨ (∃ x ∈ xs, x.error? = some f.error) ∨
      ∃ e, f = .fatalFrom "fork failed: " [] e := by
  have called {x : Exchange} (hx : xs = [x]) (he : x.error? = some f.error) :
      ∃ x ∈ xs, x.error? = some f.error :=
    ⟨x, by simp [hx], he⟩
  have idle (hop : op.needsIdle = true) (hf : c.refusal? = some f) : op.refusal? c = some f := by
    cases op <;> first | exact hf | cases hop
  cases h with
  | began h =>
    cases h with
    | closed h => cases ho; exact .inl (idle rfl (Controller.refusal?_of_closed h))
    | busy h ht =>
      cases ho
      exact .inl (idle rfl (Controller.refusal?_of_busy h (Option.isSome_iff_ne_none.1 ht)))
    | direct | isolated => cases ho
    | failed _ _ e => cases ho; exact .inr (.inr ⟨e, rfl⟩)
    | interrupted => cases ho; exact .inr (.inl (called rfl rfl))
  | committed h =>
    cases h with
    | absent h => cases ho; simp [refusal?, Controller.inTransaction, h]
    | direct => cases ho
    | promoted _ _ reply =>
      rcases reply with e | _
      · rw [forgiven] at ho
        split at ho
        · cases ho
        · cases ho; exact .inr (.inl (called rfl rfl))
      · cases ho
    | discarded _ hkeeps => cases hkeeps
  | rolledBack h =>
    cases h with
    | absent h => cases ho; simp [refusal?, Controller.inTransaction, h]
    | direct => cases ho
    | promoted _ hkeeps => cases hkeeps
    | discarded _ _ reply =>
      cases reply with
      | ok => cases ho
      | error => cases ho; exact .inr (.inl (called rfl rfl))
  | stored h =>
    cases h with
    | closed h => cases ho; exact .inl (idle rfl (Controller.refusal?_of_closed h))
    | busy h ht =>
      cases ho
      exact .inl (idle rfl (Controller.refusal?_of_busy h (Option.isSome_iff_ne_none.1 ht)))
    | stored => cases ho
    | failed => cases ho; exact .inr (.inl (called rfl rfl))
  | shutDown h =>
    cases h with
    | closed | released => cases ho
    | busy h ht => cases ho; simp [refusal?, Controller.inTransaction, h, ht]
    | failed => cases ho; exact .inr (.inl (called rfl rfl))

/-- A failure of a kind that a controller refuses with is a refusal, unless a machine raised it. -/
theorem checked (h : Does c op xs ns o c') {f : Failure} {k : EngineErrorKind}
    (ho : o = .error f) (hk : f.error.engineKind? = some k) (hmem : k ∈ refusals)
    (hraised : ∀ x ∈ xs, x.error? ≠ some f.error) : op.refusal? c = some f := by
  rcases h.failure_cases ho with hf | ⟨x, hx, he⟩ | ⟨e, rfl⟩
  · exact hf
  · exact absurd he (hraised x hx)
  · -- what is made of a fork that failed is of another kind
    obtain rfl : .fatal = k := Option.some.inj hk
    exact absurd hmem (by decide)

theorem raised (h : Does c op xs ns o c') (hop : op.needsIdle = true) {x : Exchange} (hx : x ∈ xs)
    {e : Error} (he : x.error? = some e) : c' = c ∧
      ∃ f, o = .error f ∧ (f = { error := e } ∨ f = .fatalFrom "fork failed: " [] e) := by
  cases h with
  | began h =>
    cases h with
    | closed | busy | direct => cases hx
    | isolated => cases List.mem_singleton.1 hx; cases he
    | failed =>
      cases List.mem_singleton.1 hx
      cases he
      exact ⟨rfl, _, rfl, .inr rfl⟩
    | interrupted =>
      cases List.mem_singleton.1 hx
      cases he
      exact ⟨rfl, _, rfl, .inl rfl⟩
  | stored h =>
    cases h with
    | closed | busy => cases hx
    | stored => cases List.mem_singleton.1 hx; cases he
    | failed =>
      cases List.mem_singleton.1 hx
      cases he
      exact ⟨rfl, _, rfl, .inl rfl⟩
  | committed | rolledBack | shutDown => cases hop

theorem opened {mode : Isolation} {reply : Reply} (h : Does c (.begin mode) xs ns (.ok reply) c') :
    c.Idle ∧ ∃ t, reply = .working t.working ∧
      c' = { c with created := c'.created, transaction := some t } ∧
      t.mode = mode ∧ t.backup? = if mode = .isolated then some c.canonical else none := by
  generalize ho : (Except.ok reply : Except Failure Reply) = o at h
  cases h with
  | began h =>
    cases h with
    | closed | busy | failed | interrupted => cases ho
    | direct hc hm =>
      cases ho
      exact ⟨hc, .direct c.canonical, rfl, rfl, hm.symm, by simp [hm]; rfl⟩
    | isolated hc hm w =>
      cases ho
      exact ⟨hc, .isolated w c.canonical, rfl, rfl, hm.symm, by simp [hm]; rfl⟩

theorem saved {path : String} {reply : Reply} (h : Does c (.store path) xs ns (.ok reply) c') :
    xs = [.store c.canonical path (.ok ())] ∧ c' = c := by
  generalize ho : (Except.ok reply : Except Failure Reply) = o at h
  cases h with
  | stored h =>
    cases h with
    | closed | busy | failed => cases ho
    | stored => exact ⟨rfl, rfl⟩

end Does

end ControllerOp

namespace Controller

/-- An open transaction is closed, whatever comes of releasing the machine that it spares. -/
theorem Settles.settled {keeps : Bool} {c c' : Controller} {xs : List Exchange} {ns : List Notice}
    {o : Except Failure Unit} (h : c.Settles keeps xs ns o c') {t : Transaction}
    (ht : c.transaction = some t) : c'.transaction = none ∧ c'.closed = c.closed ∧
      c'.canonical = (if keeps = true ∧ t.mode = .isolated then t.working else c.canonical) ∧
      ∃ reply, xs = (t.superseded? keeps).toList.map (.shutdown · reply) := by
  refine ⟨h.transaction, h.closed, ?_⟩
  cases h with
  | absent h => cases h.symm.trans ht
  | direct h =>
    cases h.symm.trans ht
    exact ⟨by simp [Transaction.mode, cleared], .ok (), rfl⟩
  | promoted h hk reply =>
    cases h.symm.trans ht
    subst hk
    exact ⟨by simp [Transaction.mode, Transaction.working, Controller.promoted], reply, rfl⟩
  | discarded h hk reply =>
    cases h.symm.trans ht
    subst hk
    exact ⟨by simp [Controller.discarded], reply, rfl⟩

end Controller

namespace ControllerOp

variable {op : ControllerOp} {c c' : Controller} {xs : List Exchange} {ns : List Notice}
  {o : Except Failure Reply}

theorem Does.shut (h : Does c .shutdown xs ns o c') (hc : c.Idle) :
    c' = { c with closed := true } ∧ ∃ reply, xs = [.shutdown c.canonical reply] := by
  cases h with
  | shutDown h =>
    cases h with
    | closed h => exact absurd (h.symm.trans hc.1) (by decide)
    | busy _ ht => simp [hc.2] at ht
    | released | failed => exact ⟨rfl, _, rfl⟩

/-- Whatever an operation finds and however the machines reply, it is done as a whole. -/
theorem Does.atomic (h : Does c op xs ns o c') : op.Atomic c xs o c' where
  refused _ := h.refused
  checked _ _ := h.checked
  raised hop _ hx _ := h.raised hop hx
  opened mode reply hop ho := by
    subst hop ho
    exact h.opened
  saved path reply hop ho := by
    subst hop ho
    exact h.saved
  settled keeps t hop ht := by
    cases h with
    | committed h | rolledBack h =>
      cases hop
      exact h.settled ht
    | began | stored | shutDown => cases hop
  shut hop hc := by
    subst hop
    exact h.shut hc

end ControllerOp

/-! ## Runs -/

namespace Entry

/-- The transaction that an operation opened. -/
def opened (e : Entry W) : List (Isolation × Handle) :=
  match e.op, e.answer.outcome with
  | .begin mode, .ok (.working w) => [(mode, w)]
  | _, _ => []

/-- The transaction that an operation closed. -/
def destroyed (e : Entry W) : List (Isolation × Handle) :=
  match e.op with
  | .commit | .rollback => e.before.controller.held?.toList
  | _ => []

end Entry

namespace ControllerOp

variable (b : Backend W)

/-- The room after a sequence of operations on its controller, failures or not. -/
def run (ops : List ControllerOp) (r : Room W) : Room W :=
  RoomOp.run b (ops.map toRoom) r

/-- An entry for every operation on the controller. -/
def record (ops : List ControllerOp) (r : Room W) : List (Entry W) :=
  RoomOp.record b (ops.map toRoom) r

/-- The entry of an operation on the controller. -/
def entry (op : ControllerOp) (r : Room W) : Entry W :=
  op.toRoom.entry b r

/-- Every operation on a controller is done as a whole. -/
theorem atomic (op : ControllerOp) (r : Room W) :
    op.Atomic r.controller (op.entry b r).calls (op.entry b r).answer.outcome
      (op.entry b r).after.controller := by
  obtain ⟨xs, ns, o, d, hperform, hfollows, hdoes⟩ := op.does b r
  have hanswer : (op.entry b r).answer = { outcome := o } := congrArg Prod.fst hperform
  have hafter : (op.entry b r).after = { r with toDesk := d } := congrArg Prod.snd hperform
  have hsite : (op.entry b r).before.toSite.Follows b xs ns (op.entry b r).after.toSite := by
    rw [hafter]
    exact hfollows
  rw [hanswer, hafter, Entry.calls_of_follows hsite]
  exact hdoes.atomic

/-- The transaction that is open after an operation is the one that was open before or the one that
it opened, unless the operation closed it. -/
theorem held_entry (op : ControllerOp) (r : Room W) :
    r.controller.held?.toList ++ (op.entry b r).opened =
      (op.entry b r).destroyed ++ (op.entry b r).after.controller.held?.toList := by
  obtain ⟨xs, ns, o, d, hperform, -, hdoes⟩ := op.does b r
  have hanswer : (op.entry b r).answer = { outcome := o } := congrArg Prod.fst hperform
  have hafter : (op.entry b r).after = { r with toDesk := d } := congrArg Prod.snd hperform
  have hop : (op.entry b r).op = op.toRoom := rfl
  have hbefore : (op.entry b r).before = r := rfl
  rw [Entry.opened, Entry.destroyed, hanswer, hafter, hop, hbefore]
  dsimp only
  generalize d.controller = c at hdoes
  cases hdoes with
  | began h =>
    cases h with
    | closed | busy | failed | interrupted => simp [toRoom, Except.map]
    | direct h hm | isolated h hm =>
      simp [toRoom, Except.map, Controller.held?, h.2, hm, Transaction.mode, Transaction.working,
        Controller.openedDirect, Controller.openedIsolated]
  | committed h | rolledBack h => simp [toRoom, Controller.held?, h.transaction]
  | stored => simp [toRoom]
  | shutDown h =>
    cases h with
    | closed | busy | released | failed => simp [toRoom, Controller.held?]

/-- Along a run, a transaction that is open stays so until it is closed. -/
theorem held_run (ops : List ControllerOp) (r : Room W) :
    r.controller.held?.toList ++ (record b ops r).flatMap Entry.opened =
      (record b ops r).flatMap Entry.destroyed ++ (run b ops r).controller.held?.toList := by
  induction ops generalizing r with
  | nil => simp [record, run, RoomOp.record]
  | cons op ops ih =>
    have hrecord : record b (op :: ops) r =
        op.entry b r :: record b ops (op.entry b r).after := rfl
    have hrun : run b (op :: ops) r = run b ops (op.entry b r).after := rfl
    rw [hrecord, hrun, List.flatMap_cons, List.flatMap_cons, ← List.append_assoc, held_entry,
      List.append_assoc, ih, List.append_assoc]

/-- In every state that a controller comes to, and whatever the machines raise, each operation does
all that it is for or nothing. The transactions that were opened are those that were closed, each
once and in this order, and then the one that is open. -/
theorem run_atomic (machine : Handle) (s : Site W) (ops : List ControllerOp) :
    (∀ op : ControllerOp, op.Atomic (run b ops (.opening machine s)).controller
        (op.entry b (run b ops (.opening machine s))).calls
        (op.entry b (run b ops (.opening machine s))).answer.outcome
        (op.entry b (run b ops (.opening machine s))).after.controller) ∧
      (record b ops (.opening machine s)).flatMap Entry.opened =
        (record b ops (.opening machine s)).flatMap Entry.destroyed ++
          (run b ops (.opening machine s)).controller.held?.toList :=
  ⟨fun op => op.atomic b _, held_run b ops (.opening machine s)⟩

/-- A fork whose release raises is let go of all the same, and so is the machine that a commit
supersedes. -/
example :
    let fault : Scripted.Fault := ⟨.shutdown, 0, .fault "runtime" "stuck"⟩
    let r : Room Scripted.World := .opening 0 { world := .ofLedger [] [] [fault] }
    let ops : List ControllerOp := [.begin .isolated, .rollback, .begin .isolated, .commit]
    (record Scripted.backend ops r).flatMap Entry.destroyed = [(.isolated, 1), (.isolated, 2)] ∧
      (run Scripted.backend ops r).controller.canonical = 2 := by
  decide +kernel

end ControllerOp

end RollupEngine

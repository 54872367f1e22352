import RollupEngine.Proofs.Link
import RollupEngine.Proofs.Room
import RollupEngine.Scripted.World

/-!
# The count of leaks

A machine that is to be released leaks if the call raises an ordinary error. Machines are released
in three places: a commit releases the machine that was canonical, a rollback releases its fork, and
a shutdown releases the canonical machine for good. The first two count the machines that leak
(`Controller.CountsLeaks`), and so does every move of a session, every path and every other
operation. The shutdown does not.

A controller may be used by its engine, by sessions that were made on it, and by itself, in any
order (`Work`). `Work.run_counts` says what its counter shows after all of that: every leak but one
of the shutdown (`Work.shutdown_uncounted`).
-/

namespace RollupEngine

variable {W : Type}

/-! ## What is counted -/

/-- Whether a machine was to be released in a call, and leaked. -/
def Exchange.leaks : Exchange → Bool
  | .shutdown _ reply => RollupEngine.leaks reply
  | _ => false

/-- The number of machines that leaked in calls. -/
def leakage (xs : List Exchange) : Nat :=
  xs.countP Exchange.leaks

@[simp]
theorem leakage_nil : leakage [] = 0 := rfl

@[simp]
theorem leakage_cons (x : Exchange) (xs : List Exchange) :
    leakage (x :: xs) = x.leaks.toNat + leakage xs := by
  cases h : x.leaks <;> simp [leakage, h, Nat.add_comm]

@[simp]
theorem leakage_append (xs ys : List Exchange) : leakage (xs ++ ys) = leakage xs + leakage ys :=
  List.countP_append

namespace Controller

variable {mode : Isolation} {c c' c'' : Controller} {xs ys : List Exchange} {ns : List Notice}

/-- Each machine that leaked in the calls `xs` was counted on the way from `c` to `c'`, and the
controller was not shut down. -/
structure CountsLeaks (c : Controller) (xs : List Exchange) (c' : Controller) : Prop where
  leaked : c'.leaked = c.leaked + leakage xs
  closed : c'.closed = c.closed

theorem CountsLeaks.of_silent (c : Controller) (h : leakage xs = 0) : c.CountsLeaks xs c :=
  ⟨by rw [h, Nat.add_zero], rfl⟩

theorem CountsLeaks.trans (h : c.CountsLeaks xs c') (h' : c'.CountsLeaks ys c'') :
    c.CountsLeaks (xs ++ ys) c'' :=
  ⟨by rw [h'.leaked, h.leaked, leakage_append, Nat.add_assoc], h'.closed.trans h.closed⟩

theorem Begins.countsLeaks {o : Except Failure Handle} (h : c.Begins mode xs ns o c') :
    c.CountsLeaks xs c' := by
  refine ⟨?_, h.closed_eq⟩
  cases h <;> simp [openedDirect, openedIsolated, Exchange.leaks]

theorem Settles.countsLeaks {keeps : Bool} {o : Except Failure Unit}
    (h : c.Settles keeps xs ns o c') : c.CountsLeaks xs c' := by
  refine ⟨?_, h.closed⟩
  cases h <;> simp [cleared, Controller.promoted, Controller.discarded, Exchange.leaks]

theorem Stores.countsLeaks {path : String} {o : Except Failure Unit} (h : c.Stores path xs ns o) :
    c.CountsLeaks xs c := by
  cases h <;> exact .of_silent c rfl

/-- What a shutdown does to the counter: nothing, whatever it leaks. It is made at most once. -/
theorem ShutsDown.uncounted {o : Except Failure Unit} (h : c.ShutsDown xs ns o c') :
    c'.leaked = c.leaked ∧
      (xs = [] ∧ c'.closed = c.closed ∨ xs.length = 1 ∧ c.closed = false ∧ c'.closed = true) := by
  cases h with
  | closed | busy => exact ⟨rfl, .inl ⟨rfl, rfl⟩⟩
  | released hc | failed hc => exact ⟨rfl, .inr ⟨rfl, hc.1, rfl⟩⟩

end Controller

/-! ## Sessions -/

namespace Session

variable {s : Session} {kind : InputKind} {c c' : Controller} {p : Phase} {xs : List Exchange}
  {ns : List Notice} {fs : List Failure}

theorem Ends.countsLeaks {ending : Ending} {o : Except Failure Seat.Turn}
    (h : Ends kind ending c xs ns o c') : c.CountsLeaks xs c' := by
  obtain ⟨_, _, hsettles⟩ := h.settles
  exact hsettles.countsLeaks

theorem Fails.countsLeaks {e : Error} {f : Failure} (h : Fails kind e c xs ns f c') :
    c.CountsLeaks xs c' := by
  cases h with
  | rolledBack h => exact h.countsLeaks

theorem Closes.countsLeaks {o : Except Failure Unit} (h : s.Closes c xs ns o c' p) :
    c.CountsLeaks xs c' := by
  cases h with
  | fresh | done => exact .of_silent c rfl
  | running _ h => exact h.countsLeaks

/-- A machine is sent its input without being released. -/
theorem Starts.countsLeaks {o : Except Failure Handle} (h : s.Starts c xs ns o c' p) :
    c.CountsLeaks xs c' := by
  have sent (c : Controller) (w : Handle) (reply : Except Error Unit) :
      c.CountsLeaks [.send w s.kind.reason s.payload reply] c := .of_silent c rfl
  cases h with
  | refused hb => exact hb.countsLeaks
  | sent hb | interrupted hb => exact hb.countsLeaks.trans (sent c' _ _)
  | failed hb _ _ hf => exact hb.countsLeaks.trans ((sent _ _ _).trans hf.countsLeaks)

theorem Turns.countsLeaks {w : Handle} {o : Except Failure Seat.Turn}
    (h : Turns kind w c xs ns o c' p) : c.CountsLeaks xs c' := by
  have heard {xs : List Exchange} {o : Except Failure Reading} (h : Hears w xs o) :
      c.CountsLeaks xs c := by
    cases h <;> exact .of_silent c rfl
  cases h with
  | interrupted hh => exact heard hh
  | failed hh _ hf => exact (heard hh).trans hf.countsLeaks
  | heard hh hj =>
    refine (heard hh).trans ?_
    cases hj with
    | delivered | passed | refused => exact .of_silent c rfl
    | ended _ he => exact he.countsLeaks

theorem Moves.countsLeaks (h : s.Moves c xs ns fs c' p) : c.CountsLeaks xs c' := by
  cases h with
  | start _ h => exact h.countsLeaks
  | turn _ h => exact h.countsLeaks
  | close h | abandon h => exact h.countsLeaks

end Session

theorem Seat.Path.countsLeaks {b : Backend W} {s s' : Seat W} {xs : List Exchange}
    {ns : List Notice} {fs : List Failure} (h : Path b s xs ns fs s') :
    s.controller.CountsLeaks xs s'.controller := by
  induction h with
  | refl s => exact .of_silent s.controller rfl
  | step head _ ih => exact head.moves.countsLeaks.trans ih

/-! ## Operations -/

/-- An operation on an engine counts what it leaks, unless it is to shut the engine down. -/
theorem EngineOp.Does.countsLeaks {b : Backend W} {config : EngineConfig} {op : EngineOp}
    {r r' : Room W} {xs : List Exchange} {ns : List Notice} {fs : List Failure}
    (h : Does b config r op xs ns fs r') (hop : op ≠ .shutdown) :
    r.controller.CountsLeaks xs r'.controller := by
  cases h with
  | closed | notBytes | opened | absent => exact .of_silent r.controller rfl
  | collected _ _ _ path => exact path.countsLeaks
  | walked _ _ path => exact path.countsLeaks
  | stored h hd => simpa [hd] using h.countsLeaks
  | shutDown => exact absurd rfl hop

theorem EngineOp.Does.shutsDown {b : Backend W} {config : EngineConfig} {r r' : Room W}
    {xs : List Exchange} {ns : List Notice} {fs : List Failure}
    (h : Does b config r .shutdown xs ns fs r') :
    ∃ o, r.controller.ShutsDown xs ns o r'.controller := by
  cases h with
  | shutDown h => exact ⟨_, h⟩

/-- An operation on a controller counts what it leaks, unless it is to shut the controller down. -/
theorem RoomOp.Does.countsLeaks {b : Backend W} {op : RoomOp} {r r' : Room W}
    {xs : List Exchange} {ns : List Notice} (h : Does b r op xs ns r') (hop : op ≠ .shutdown) :
    r.controller.CountsLeaks xs r'.controller := by
  cases h with
  | began h => exact h.countsLeaks
  | committed h | rolledBack h => exact h.countsLeaks
  | stored h hd => simpa [hd] using h.countsLeaks
  | shutDown => exact absurd rfl hop
  | made | absent => exact .of_silent r.controller rfl
  | walked _ path => exact path.countsLeaks

theorem RoomOp.Does.shutsDown {b : Backend W} {r r' : Room W} {xs : List Exchange}
    {ns : List Notice} (h : Does b r .shutdown xs ns r') :
    ∃ o, r.controller.ShutsDown xs ns o r'.controller := by
  cases h with
  | shutDown h => exact ⟨_, h⟩

/-- What can be done with a controller: by its engine and the sessions of that, or by itself. -/
inductive Work where
  | engine (op : EngineOp)
  | controller (op : RoomOp)
  deriving Repr

namespace Work

/-- Do an operation. -/
def perform (b : Backend W) (config : EngineConfig) : Work → Room W → Answer × Room W
  | .engine op, r => op.perform b config r
  | .controller op, r => op.perform b r

/-- The room after a sequence of operations, failures or not. -/
def run (b : Backend W) (config : EngineConfig) (ops : List Work) (r : Room W) : Room W :=
  ops.foldl (fun r op => (op.perform b config r).2) r

/-- Whether an operation is to shut the controller down. -/
def isShutdown : Work → Bool
  | .engine .shutdown | .controller .shutdown => true
  | _ => false

/-- The calls that an operation makes. -/
def calls (b : Backend W) (config : EngineConfig) (op : Work) (r : Room W) : List Exchange :=
  (op.perform b config r).2.calls.drop r.calls.length

/-- The calls of those operations of a run that are chosen. -/
def callsOf (b : Backend W) (config : EngineConfig) (chosen : Work → Bool) :
    List Work → Room W → List Exchange
  | [], _ => []
  | op :: ops, r =>
    (if chosen op then op.calls b config r else []) ++
      callsOf b config chosen ops (op.perform b config r).2

variable {b : Backend W} {config : EngineConfig} {op : Work} {r : Room W}

/-- An operation counts what it leaks, or it is to shut the controller down. -/
theorem step (b : Backend W) (config : EngineConfig) (op : Work) (r : Room W) :
    ∃ xs ns, r.toSite.Follows b xs ns (op.perform b config r).2.toSite ∧
      (op.isShutdown = false ∧ r.controller.CountsLeaks xs (op.perform b config r).2.controller ∨
        op.isShutdown = true ∧
          ∃ o, r.controller.ShutsDown xs ns o (op.perform b config r).2.controller) := by
  cases op with
  | engine op =>
    obtain ⟨xs, ns, fs, hdoes, -⟩ := op.does b config r
    refine ⟨xs, ns, hdoes.follows, ?_⟩
    cases op with
    | shutdown => exact .inr ⟨rfl, hdoes.shutsDown⟩
    | submit | store | session => exact .inl ⟨rfl, hdoes.countsLeaks nofun⟩
  | controller op =>
    obtain ⟨xs, ns, hdoes⟩ := op.does b r
    refine ⟨xs, ns, hdoes.follows, ?_⟩
    cases op with
    | shutdown => exact .inr ⟨rfl, hdoes.shutsDown⟩
    | begin | commit | rollback | store | makeSession | session =>
      exact .inl ⟨rfl, hdoes.countsLeaks nofun⟩

theorem calls_of_follows {xs : List Exchange} {ns : List Notice}
    (h : r.toSite.Follows b xs ns (op.perform b config r).2.toSite) : op.calls b config r = xs := by
  rw [calls, h.calls, List.drop_left]

/-- A machine leaks in a shutdown or in another operation. -/
theorem leakage_callsOf (ops : List Work) :
    leakage (callsOf b config (fun _ => true) ops r) =
      leakage (callsOf b config (!·.isShutdown) ops r) +
        leakage (callsOf b config isShutdown ops r) := by
  induction ops generalizing r with
  | nil => rfl
  | cons op ops ih =>
    simp only [callsOf, leakage_append, ih, if_true]
    by_cases hop : op.isShutdown = true
    · simp only [hop, Bool.not_true, Bool.false_eq_true, if_false, if_true, leakage_nil]
      omega
    · simp only [hop, Bool.not_false, Bool.false_eq_true, if_false, if_true, leakage_nil]
      omega

/-- A run from any room adds its calls to the record and counts what leaks in them, shutdowns
apart. A room that is not shut down yet can be shut down once. -/
theorem run_from (b : Backend W) (config : EngineConfig) (ops : List Work) (r : Room W) :
    (run b config ops r).calls = r.calls ++ callsOf b config (fun _ => true) ops r ∧
      (run b config ops r).controller.leaked =
        r.controller.leaked + leakage (callsOf b config (!·.isShutdown) ops r) ∧
      (callsOf b config isShutdown ops r).length ≤ (!r.controller.closed).toNat := by
  induction ops generalizing r with
  | nil => simp [run, callsOf]
  | cons op ops ih =>
    obtain ⟨hcalls, hleaked, hlength⟩ := ih (op.perform b config r).2
    obtain ⟨xs, ns, hfollows, hstep⟩ := op.step b config r
    have hxs : op.calls b config r = xs := calls_of_follows hfollows
    refine ⟨?_, ?_, ?_⟩
    · change (run b config ops (op.perform b config r).2).calls = _
      rw [hcalls, hfollows.calls, callsOf, if_pos rfl, hxs, List.append_assoc]
    · change (run b config ops (op.perform b config r).2).controller.leaked = _
      rw [hleaked, callsOf, hxs]
      rcases hstep with ⟨hop, hcounts⟩ | ⟨hop, _, hdown⟩
      · simp [hop, hcounts.leaked, Nat.add_assoc]
      · simp [hop, hdown.uncounted.1]
    · rw [callsOf, hxs]
      rcases hstep with ⟨hop, hcounts⟩ | ⟨hop, _, hdown⟩
      · simpa [hop, hcounts.closed] using hlength
      · rcases hdown.uncounted.2 with ⟨rfl, hclosed⟩ | ⟨hone, hopen, hclosed⟩
        · simpa [hop, hclosed] using hlength
        · simp only [hclosed, Bool.not_true, Bool.toNat_false, Nat.le_zero] at hlength
          simp [hop, hone, hopen, hlength]

/-- However a controller is used, and whatever its machines do, its counter shows the machines that
leaked in all operations but the shutdown. A machine that leaked there, which is at most one, is
what the counter lacks. -/
theorem run_counts (b : Backend W) (config : EngineConfig) (machine : Handle) (s : Site W)
    (ops : List Work) :
    let r := Room.opening machine s
    let r' := run b config ops r
    r'.calls = s.calls ++ callsOf b config (fun _ => true) ops r ∧
      r'.controller.leaked = leakage (callsOf b config (!·.isShutdown) ops r) ∧
      r'.controller.leaked + leakage (callsOf b config isShutdown ops r) =
        leakage (callsOf b config (fun _ => true) ops r) ∧
      (callsOf b config isShutdown ops r).length ≤ 1 := by
  obtain ⟨hcalls, hleaked, hlength⟩ := run_from b config ops (.opening machine s)
  have hzero : (Room.opening machine s).controller.leaked = 0 := rfl
  rw [hzero, Nat.zero_add] at hleaked
  refine ⟨hcalls, hleaked, ?_, hlength⟩
  rw [hleaked, leakage_callsOf]

/-- A machine that an engine cannot release when it is shut down leaks, and is not counted. -/
theorem shutdown_uncounted :
    let fault : Scripted.Fault :=
      { method := .shutdown, nth := 0, error := .fault "RuntimeError" "stuck" }
    let r := run Scripted.backend {} [.engine .shutdown]
      (.opening 0 { world := .ofLedger [] [] [fault] })
    ¬r.controller.leaked = leakage r.calls := by
  decide +kernel

end Work

end RollupEngine

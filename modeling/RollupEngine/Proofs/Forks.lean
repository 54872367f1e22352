import Mathlib.Algebra.GroupWithZero.Nat
import RollupEngine.Proofs.Link
import RollupEngine.Proofs.Room
import RollupEngine.Scripted.World

/-!
# The count of forks

A controller counts the forks that it makes and those that are scratch no longer, and the two are
changed at different moments: a commit counts before it releases anything, a rollback only after it
did. `Controller.Counts` is what comes of it for any calls and notices: the scratch forks that are
outstanding are the one of an open isolated transaction and those whose rollback could not release
them. Each relation of the controller keeps this, hence each move of a session, and a path as well,
because a move that closes a transaction is the last that does anything
(`Session.Moves.done_or_pauses`). So it is true of every room that operations on a controller lead
to (`RoomOp.run_tallies`), whatever the sessions, the modes and the machines.
-/

namespace RollupEngine

variable {W : Type}

/-! ## What is counted -/

namespace Exchange

/-- Whether a fork was made. -/
def forked : Exchange → Bool
  | .fork _ (.ok _) => true
  | _ => false

/-- Whether a machine was to be released, and the call raised. -/
def failsRelease : Exchange → Bool
  | .shutdown _ (.error _) => true
  | _ => false

end Exchange

/-- The number of forks that were made. -/
def forks (xs : List Exchange) : Nat :=
  xs.countP Exchange.forked

/-- The number of releases that raised in an operation, if it rolled an isolated transaction back.
-/
def failedRollbacks (xs : List Exchange) (ns : List Notice) : Nat :=
  if .rolledBack .isolated ∈ ns then xs.countP Exchange.failsRelease else 0

@[simp]
theorem forks_append (xs ys : List Exchange) : forks (xs ++ ys) = forks xs + forks ys :=
  List.countP_append

/-- Calls and notices that are no rollback: no release failed among them, and none was noticed. -/
def Plain (xs : List Exchange) (ns : List Notice) : Prop :=
  xs.countP Exchange.failsRelease = 0 ∧ .rolledBack .isolated ∉ ns

theorem Plain.failedRollbacks {xs : List Exchange} {ns : List Notice} (h : Plain xs ns) :
    failedRollbacks xs ns = 0 :=
  if_neg h.2

theorem Plain.failedRollbacks_append {xs ys : List Exchange} {ns ms : List Notice}
    (h : Plain xs ns) : RollupEngine.failedRollbacks (xs ++ ys) (ns ++ ms) =
      RollupEngine.failedRollbacks ys ms := by
  simp [RollupEngine.failedRollbacks, List.countP_append, h.1, h.2]

theorem Plain.append {xs ys : List Exchange} {ns ms : List Notice} (h : Plain xs ns)
    (h' : Plain ys ms) : Plain (xs ++ ys) (ns ++ ms) :=
  ⟨by rw [List.countP_append, h.1, h'.1], by simp [h.2, h'.2]⟩

/-! ## The controller -/

namespace Controller

variable {mode : Isolation} {c c' c'' : Controller} {xs ys : List Exchange} {ns ms : List Notice}

/-- The mode of the open transaction. -/
def mode? (c : Controller) : Option Isolation :=
  c.transaction.map Transaction.mode

/-- The forks that an open transaction works on. -/
def scratch (c : Controller) : Nat :=
  if c.mode? = some .isolated then 1 else 0

theorem mode?_of_none (h : c.transaction = none) : c.mode? = none :=
  congrArg (Option.map Transaction.mode) h

theorem mode?_of_some {t : Transaction} (h : c.transaction = some t) : c.mode? = some t.mode :=
  congrArg (Option.map Transaction.mode) h

theorem scratch_of_none (h : c.transaction = none) : c.scratch = 0 :=
  if_neg (by simp [mode?_of_none h])

theorem scratch_of_direct {w : Handle} (h : c.transaction = some (.direct w)) : c.scratch = 0 :=
  if_neg (by simp [mode?_of_some h, Transaction.mode])

theorem scratch_of_isolated {w k : Handle} (h : c.transaction = some (.isolated w k)) :
    c.scratch = 1 :=
  if_pos (mode?_of_some h)

/-- How the counters of forks change with calls and notices. -/
structure Counts (c : Controller) (xs : List Exchange) (ns : List Notice) (c' : Controller) :
    Prop where
  created : c'.created = c.created + forks xs
  outstanding : c'.outstanding + c.scratch = c.outstanding + c'.scratch + failedRollbacks xs ns
  /-- During a direct transaction nothing is counted. -/
  direct : c.mode? = some .direct → c'.created = c.created ∧ c'.released = c.released
  /-- Without an isolated transaction, neither found nor opened, nothing is counted. -/
  absent : c.mode? ≠ some .isolated → .began .isolated ∉ ns →
    c'.mode? ≠ some .isolated ∧ c'.created = c.created ∧ c'.released = c.released

/-- Calls and notices that roll nothing back and leave an open transaction open. -/
structure Pauses (c : Controller) (xs : List Exchange) (ns : List Notice) (c' : Controller) :
    Prop where
  plain : Plain xs ns
  mode : c.mode? ≠ none → c'.mode? = c.mode?

/-- What opens, keeps and discards no transaction changes no counter. -/
theorem Counts.still (hx : forks xs = 0) (hn : failedRollbacks xs ns = 0)
    (ht : c'.transaction = c.transaction) (hcreated : c'.created = c.created)
    (hreleased : c'.released = c.released) : c.Counts xs ns c' := by
  have hmode : c'.mode? = c.mode? := congrArg (Option.map Transaction.mode) ht
  have hscratch : c'.scratch = c.scratch := by simp only [scratch, hmode]
  refine ⟨by rw [hcreated, hx]; rfl, ?_, fun _ => ⟨hcreated, hreleased⟩,
    fun h _ => ⟨hmode ▸ h, hcreated, hreleased⟩⟩
  rw [hn, hscratch, Controller.outstanding, hcreated, hreleased]
  exact (Int.add_zero _).symm

theorem Counts.trans (h : c.Counts xs ns c') (hp : c.Pauses xs ns c') (h' : c'.Counts ys ms c'') :
    c.Counts (xs ++ ys) (ns ++ ms) c'' where
  created := by rw [h'.created, h.created, forks_append, Nat.add_assoc]
  outstanding := by
    have hfirst := h.outstanding
    have hsecond := h'.outstanding
    rw [hp.plain.failedRollbacks] at hfirst
    rw [hp.plain.failedRollbacks_append]
    omega
  direct hc := by
    have hc' : c'.mode? = some .direct := (hp.mode (by simp [hc])).trans hc
    exact ⟨(h'.direct hc').1.trans (h.direct hc).1, (h'.direct hc').2.trans (h.direct hc).2⟩
  absent hc hn := by
    obtain ⟨hns, hms⟩ := not_or.1 (mt List.mem_append.2 hn)
    obtain ⟨hc', hcreated, hreleased⟩ := h.absent hc hns
    obtain ⟨hc'', hcreated', hreleased'⟩ := h'.absent hc' hms
    exact ⟨hc'', hcreated'.trans hcreated, hreleased'.trans hreleased⟩

/-- What others notice is not counted. -/
theorem Counts.noticing (h : c.Counts xs ns c') (hms : ∀ n ∈ ms, n.channel ≠ .transaction) :
    c.Counts xs (ns ++ ms) c' := by
  have hrolled : .rolledBack .isolated ∉ ms := fun hm => hms _ hm rfl
  refine ⟨h.created, ?_, h.direct, fun hc hn => h.absent hc fun hns =>
    hn (List.mem_append_left _ hns)⟩
  rw [h.outstanding, failedRollbacks, failedRollbacks]
  simp only [List.mem_append, or_iff_left hrolled]

theorem Begins.pauses {o : Except Failure Handle} (h : c.Begins mode xs ns o c') :
    c.Pauses xs ns c' := by
  cases h with
  | closed | busy | failed | interrupted => exact ⟨⟨rfl, by simp⟩, fun _ => rfl⟩
  | direct hc | isolated hc =>
    exact ⟨⟨rfl, by simp⟩, fun hopen => absurd (mode?_of_none hc.2) hopen⟩

theorem Begins.counts {o : Except Failure Handle} (h : c.Begins mode xs ns o c') :
    c.Counts xs ns c' := by
  have hplain := h.pauses.plain.failedRollbacks
  cases h with
  | closed | busy | failed | interrupted => exact .still rfl hplain rfl rfl rfl
  | direct hc =>
    refine ⟨rfl, ?_, fun _ => ⟨rfl, rfl⟩, fun _ _ => ⟨?_, rfl, rfl⟩⟩
    · rw [hplain, scratch_of_none hc.2, scratch_of_direct (c := c.openedDirect) rfl]
      simp [outstanding, openedDirect]
    · rw [mode?_of_some (c := c.openedDirect) rfl]
      simp [Transaction.mode]
  | isolated hc _ w =>
    refine ⟨rfl, ?_, fun hopen => ?_, fun _ hn => absurd (List.mem_singleton.2 rfl) hn⟩
    · rw [hplain, scratch_of_none hc.2, scratch_of_isolated (c := c.openedIsolated w) rfl]
      simp only [outstanding, openedIsolated]
      omega
    · rw [mode?_of_none hc.2] at hopen
      cases hopen

theorem Settles.counts {keeps : Bool} {o : Except Failure Unit} (h : c.Settles keeps xs ns o c') :
    c.Counts xs ns c' := by
  have hnone := h.transaction
  have hclosed : c'.mode? ≠ some .isolated := by simp [mode?_of_none hnone]
  have isolated {w k : Handle} (ht : c.transaction = some (.isolated w k)) :
      c.mode? ≠ some .direct ∧ c.mode? = some .isolated := by
    rw [mode?_of_some ht]
    exact ⟨by simp [Transaction.mode], rfl⟩
  cases h with
  | absent => exact .still rfl rfl rfl rfl rfl
  | direct ht =>
    refine ⟨rfl, ?_, fun _ => ⟨rfl, rfl⟩, fun _ _ => ⟨hclosed, rfl, rfl⟩⟩
    rw [scratch_of_none hnone, scratch_of_direct ht]
    cases keeps <;> simp [outstanding, cleared, failedRollbacks]
  | promoted ht _ reply =>
    refine ⟨by cases reply <;> rfl, ?_, fun hc => absurd hc (isolated ht).1,
      fun hc => absurd (isolated ht).2 hc⟩
    rw [scratch_of_none hnone, scratch_of_isolated ht,
      show failedRollbacks _ _ = 0 from if_neg (by cases leaks reply <;> simp)]
    simp only [outstanding, Controller.promoted]
    omega
  | discarded ht _ reply =>
    refine ⟨by cases reply <;> rfl, ?_, fun hc => absurd hc (isolated ht).1,
      fun hc => absurd (isolated ht).2 hc⟩
    rw [scratch_of_none hnone, scratch_of_isolated ht,
      show failedRollbacks _ _ = _ from if_pos (List.mem_singleton.2 rfl)]
    cases reply <;>
      simp [outstanding, Controller.discarded, RollupEngine.released, Exchange.failsRelease]
    omega

theorem Stores.counts {path : String} {o : Except Failure Unit} (h : c.Stores path xs ns o) :
    c.Counts xs ns c := by
  cases h with
  | closed | busy | stored | failed => exact .still rfl (if_neg (by simp)) rfl rfl rfl

theorem ShutsDown.counts {o : Except Failure Unit} (h : c.ShutsDown xs ns o c') :
    c.Counts xs ns c' := by
  cases h with
  | closed | busy | released | failed => exact .still rfl (if_neg (by simp)) rfl rfl rfl

end Controller

/-! ## Sessions -/

theorem Hears.counts {w : Handle} {xs : List Exchange} {o : Except Failure Reading}
    (h : Hears w xs o) (c : Controller) : c.Counts xs [] c := by
  cases h with
  | stopped | broke | silent | yielded => exact .still rfl rfl rfl rfl rfl

theorem Hears.pauses {w : Handle} {xs : List Exchange} {o : Except Failure Reading}
    (h : Hears w xs o) (c : Controller) : c.Pauses xs [] c := by
  cases h with
  | stopped | broke | silent | yielded => exact ⟨⟨rfl, by simp⟩, fun _ => rfl⟩

namespace Session

variable {s : Session} {kind : InputKind} {c c' : Controller} {p : Phase} {xs : List Exchange}
  {ns : List Notice} {fs : List Failure}

theorem Ends.counts {ending : Ending} {o : Except Failure Seat.Turn}
    (h : Ends kind ending c xs ns o c') : c.Counts xs ns c' := by
  cases h with
  | unsettled h => exact h.counts
  | settled h => exact h.counts.noticing Ending.channel_of_mem

theorem Fails.counts {e : Error} {f : Failure} (h : Fails kind e c xs ns f c') :
    c.Counts xs ns c' := by
  cases h with
  | rolledBack h =>
    have hfailed : c.Counts [] [.machineFailed kind] c := .still rfl rfl rfl rfl rfl
    exact hfailed.trans ⟨⟨rfl, by simp⟩, fun _ => rfl⟩ (h.counts.noticing rollbackNotices_channel)

theorem Closes.counts {o : Except Failure Unit} (h : s.Closes c xs ns o c' p) :
    c.Counts xs ns c' := by
  cases h with
  | fresh | done => exact .still rfl rfl rfl rfl rfl
  | running _ h =>
    have hcancelled : c.Counts [] [.cancelled s.kind] c := .still rfl rfl rfl rfl rfl
    exact hcancelled.trans ⟨⟨rfl, by simp⟩, fun _ => rfl⟩ h.counts

/-- A transaction that is opened, and the input sent. -/
theorem counts_sent {mode : Isolation} {w : Handle} (h : c.Begins mode xs ns (.ok w) c')
    (reason : RequestReason) (payload : Bytes) (reply : Except Error Unit) (kind : InputKind) :
    let sent := xs ++ [.send w reason payload reply]
    let noticed := ns ++ [.started kind payload.length]
    c.Counts sent noticed c' ∧ c.Pauses sent noticed c' := by
  have hsend : c'.Counts [.send w reason payload reply] [.started kind payload.length] c' :=
    .still rfl rfl rfl rfl rfl
  exact ⟨h.counts.trans h.pauses hsend, h.pauses.plain.append ⟨rfl, by simp⟩, h.pauses.mode⟩

theorem Judges.counts {w : Handle} {r : Reading} {o : Except Failure Seat.Turn}
    (h : Judges kind w r c xs ns o c' p) : c.Counts xs ns c' := by
  cases h with
  | delivered | refused => exact .still rfl rfl rfl rfl rfl
  | passed h =>
    have hsilent : c.Counts [] [] c := .still rfl rfl rfl rfl rfl
    exact hsilent.noticing (InputKind.channel_of_pass h)
  | ended _ h => exact h.counts

theorem Moves.counts (h : s.Moves c xs ns fs c' p) : c.Counts xs ns c' := by
  cases h with
  | start _ h =>
    cases h with
    | refused h => exact h.counts
    | sent h | interrupted h => exact (counts_sent h _ _ _ _).1
    | failed h e he hf =>
      obtain ⟨hsent, hpauses⟩ := counts_sent h s.kind.reason s.payload (.error e) s.kind
      simpa using hsent.trans hpauses hf.counts
  | turn _ h =>
    cases h with
    | heard hh hj => exact (hh.counts c).trans (hh.pauses c) hj.counts
    | interrupted hh => exact hh.counts c
    | failed hh _ hf => exact (hh.counts c).trans (hh.pauses c) hf.counts
  | close h => exact h.counts
  | abandon h => exact h.counts.noticing lament_channel

/-- A move that closes a transaction is the last of its session. -/
theorem Moves.done_or_pauses (h : s.Moves c xs ns fs c' p) :
    p.done = true ∨ c.Pauses xs ns c' := by
  have hclose {o : Except Failure Unit} {ns : List Notice} (h : s.Closes c xs ns o c' p) :
      p.done = true := by
    cases h with
    | fresh | running => rfl
    | done hd => exact hd
  cases h with
  | start _ h =>
    cases h with
    | refused h => exact .inr h.pauses
    | sent h | interrupted h => exact .inr (counts_sent h _ _ _ _).2
    | failed => exact .inl rfl
  | turn _ h =>
    cases h with
    | interrupted hh => exact .inr (hh.pauses c)
    | failed => exact .inl rfl
    | heard hh hj =>
      have hheard := (hh.pauses c).plain
      cases hj with
      | delivered | refused => exact .inr ⟨hheard.append ⟨rfl, by simp⟩, fun _ => rfl⟩
      | passed h =>
        refine .inr ⟨hheard.append ⟨rfl, fun hn => ?_⟩, fun _ => rfl⟩
        exact InputKind.channel_of_pass h _ hn rfl
      | @ended _ _ ending => exact .inl (by cases ending <;> rfl)
  | close h | abandon h => exact .inl (hclose h)

end Session

theorem Seat.Path.counts {b : Backend W} {s s' : Seat W} {xs : List Exchange} {ns : List Notice}
    {fs : List Failure} (h : Path b s xs ns fs s') : s.controller.Counts xs ns s'.controller := by
  induction h with
  | refl => exact .still rfl rfl rfl rfl rfl
  | step head tail ih =>
    rcases head.moves.done_or_pauses with hdone | hpauses
    · obtain ⟨rfl, rfl, -, hc, -⟩ := tail.of_done hdone
      rw [List.append_nil, List.append_nil, hc]
      exact head.moves.counts
    · exact head.moves.counts.trans hpauses ih

/-! ## Operations on a controller -/

namespace RoomOp

variable {b : Backend W} {op : RoomOp} {r r' : Room W} {xs : List Exchange} {ns : List Notice}

theorem Does.counts (h : Does b r op xs ns r') : r.controller.Counts xs ns r'.controller := by
  cases h with
  | began h => exact h.counts
  | committed h | rolledBack h => exact h.counts
  | stored h hd =>
    rw [hd]
    exact h.counts
  | shutDown h => exact h.counts
  | made | absent => exact .still rfl rfl rfl rfl rfl
  | walked _ path => exact path.counts

end RoomOp

/-- The releases that raised in the rollbacks of a run. -/
def spoiled (es : List (Entry W)) : Nat :=
  (es.map fun e => failedRollbacks e.calls e.notices).sum

/-- The count of the forks of a controller, after a run with these entries. -/
structure Controller.Tallies (es : List (Entry W)) (c : Controller) : Prop where
  /-- Every fork that was made is counted. -/
  created : c.created = forks (es.flatMap Entry.calls)
  /-- Outstanding are the fork of an open isolated transaction and those that no rollback could
  release. -/
  outstanding : c.outstanding = c.scratch + spoiled es
  nonneg : 0 ≤ c.outstanding
  /-- Without a transaction no fork is outstanding, if every rollback could release its own. -/
  settled : c.transaction = none → spoiled es = 0 → c.outstanding = 0
  /-- An operation changes no counter that finds a direct transaction, or that finds none and opens
  no isolated one. -/
  direct : ∀ e ∈ es, e.before.controller.mode? = some .direct ∨
      e.before.controller.mode? = none ∧ .began .isolated ∉ e.notices →
    e.after.controller.created = e.before.controller.created ∧
      e.after.controller.released = e.before.controller.released

theorem Controller.tallies_nil (machine : Handle) :
    Tallies ([] : List (Entry W)) { canonical := machine } where
  created := rfl
  outstanding := rfl
  nonneg := Int.le_refl 0
  settled _ _ := rfl
  direct := List.forall_mem_nil _

theorem Controller.Tallies.concat {es : List (Entry W)} {e : Entry W}
    (h : e.before.controller.Tallies es)
    (he : e.before.controller.Counts e.calls e.notices e.after.controller) :
    e.after.controller.Tallies (es ++ [e]) := by
  have houtstanding : e.after.controller.outstanding =
      e.after.controller.scratch + spoiled (es ++ [e]) := by
    have hbefore := h.outstanding
    have hafter := he.outstanding
    rw [spoiled, List.map_append, List.sum_append, List.map_singleton, List.sum_singleton]
    rw [spoiled] at hbefore
    omega
  refine
    { created := ?created, outstanding := houtstanding, nonneg := by omega, settled := ?settled,
      direct := ?direct }
  case created =>
    rw [he.created, h.created, List.flatMap_append, forks_append, List.flatMap_singleton]
  case settled =>
    intro ht hs
    rw [houtstanding, scratch_of_none ht, hs]
    rfl
  case direct =>
    intro e' he' hmode
    rcases List.mem_append.1 he' with he' | he'
    · exact h.direct e' he' hmode
    obtain rfl := List.mem_singleton.1 he'
    rcases hmode with hdirect | ⟨hnone, hbegan⟩
    · exact he.direct hdirect
    · exact (he.absent (by simp [hnone]) hbegan).2

namespace RoomOp

/-- In every room that operations on a controller lead to, in whatever order and whatever the
machines do, the forks are counted as they were made, kept and released. -/
theorem run_tallies (b : Backend W) (machine : Handle) (s : Site W) (ops : List RoomOp) :
    (run b ops (.opening machine s)).calls =
        s.calls ++ (record b ops (.opening machine s)).flatMap Entry.calls ∧
      (run b ops (.opening machine s)).controller.Tallies
        (record b ops (.opening machine s)) := by
  refine ⟨run_calls b ops _, ?_⟩
  refine run_entries (p := fun es r => r.controller.Tallies es)
    (fun {es r} op xs ns hdoes hcalls hnotices h => ?_) ops (l := [])
    (Controller.tallies_nil machine)
  rw [← hcalls, ← hnotices] at hdoes
  exact h.concat (e := op.entry b r) hdoes.counts

/-- A fork that no rollback could release stays outstanding; one that became canonical does not,
though the machine before it could not be released. -/
example :
    let fault : Scripted.Fault := ⟨.shutdown, 0, .fault "runtime" "stuck"⟩
    let r : Room Scripted.World := .opening 0 { world := .ofLedger [] [] [fault] }
    (run Scripted.backend [.begin .isolated, .rollback] r).controller.outstanding = 1 ∧
      (run Scripted.backend [.begin .isolated, .commit] r).controller.outstanding = 0 := by
  decide +kernel

end RoomOp

end RollupEngine

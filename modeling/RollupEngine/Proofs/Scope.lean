import RollupEngine.Proofs.Fate
import RollupEngine.Proofs.Leaks
import RollupEngine.Proofs.Noninterference

/-!
# Scopes

A scope takes events from a session and then closes it, however the taking ended: with the last
event, with an error of the machine, or with an interrupt, which nothing in a session handles
(`SessionOp.scope?`). Whatever state a scope is left in (`Seat.leaving`), what remains of it is one
close (`EngineOp.perform_of_scope`).

So a scope leaves no transaction behind. `EngineOp.Encloses` says what becomes of its session, of
the engine and of the other sessions, and `EngineOp.run_encloses` proves it in every room that an
engine comes to. If the transaction of the session is still open when the scope is left, the close
rolls it back (`Seat.RollsBack`), and the canonical machine is what it was.
-/

namespace RollupEngine

variable {W : Type}

/-- How many events an operation takes before it closes its session, for one that closes it in every
case. A close is a scope that takes no more events, whatever was done to the session before. -/
def SessionOp.scope? : SessionOp → Option (Option Nat)
  | .scope limit _ => some limit
  | .collect _ => some none
  | .close => some (some 0)
  | .pull | .next | .take _ | .drop => none

/-- How many events a scope of an engine takes. To collect an input is a scope that takes all. -/
def EngineOp.scope? (config : EngineConfig) : EngineOp → Option (Option Nat)
  | .submit _ _ choice => if config.collects choice then some none else none
  | .session _ op => op.scope?
  | .store _ | .shutdown => none

/-! ## Scopes over one session -/

namespace Seat

variable {b : Backend W} {s : Seat W} {limit : Option Nat} {w : Handle}

/-- The seat as it is when a scope is left, before the session is closed. -/
def leaving (b : Backend W) (limit : Option Nat) (s : Seat W) : Seat W :=
  Act.final (take b limit) s

theorem leaving_path (b : Backend W) (limit : Option Nat) (s : Seat W) :
    ∃ xs ns fs, Path b s xs ns fs (s.leaving b limit) := by
  obtain ⟨xs, ns, d, s', htake⟩ := take_walks b limit s
  obtain ⟨fs, hpath, -⟩ := htake.course.path
  rw [leaving, Act.final_of_run htake.run]
  exact ⟨xs, ns, fs, hpath⟩

/-- What remains of a scope that is left is to close its session. -/
theorem final_scope (b : Backend W) (limit : Option Nat) (raising : Option Error) (s : Seat W) :
    Act.final (scope b limit raising) s = Act.final (close b) (s.leaving b limit) := by
  obtain ⟨_, _, d, s', htake⟩ := take_walks b limit s
  obtain ⟨_, _, o, s'', hclose, -⟩ := close_cases b s'
  have hclosed : (Act.attempt (close b)).run s' = .ok o s'' := hclose.attempt.run
  rw [leaving, Act.final_of_run htake.run, Act.final_of_run hclose.run, scope, Act.final,
    EStateM.run_bind, htake.run]
  dsimp only [Act.result]
  rw [EStateM.run_bind, hclosed]
  cases o <;> rfl

theorem final_collect (b : Backend W) (kind : InputKind) (s : Seat W) :
    Act.final (collect b kind) s = Act.final (close b) (s.leaving b none) := by
  rw [← final_scope b none none]
  obtain ⟨_, _, _, ⟨events, ending⟩, s', hscope, -⟩ := scope_walks b none none s
  rw [Act.final_of_run hscope.run, collect, Act.final, EStateM.run_bind, hscope.run]
  cases ending <;> rfl

/-- A session that was running is closed, and its transaction is rolled back. -/
structure RollsBack (b : Backend W) (s s' : Seat W) : Prop where
  phase : s'.session.phase = .cancelled
  canonical : s'.controller.canonical = s.controller.canonical
  settles : ∃ xs ns o, s.controller.Settles false xs ns o s'.controller ∧
    s.toSite.Follows b xs (.cancelled s.session.kind :: ns) s'.toSite

theorem rollsBack_of_running (b : Backend W) (hp : s.session.phase = .running w) :
    RollsBack b s (Act.final (close b) s) := by
  obtain ⟨xs, ns, o, s', hclose, hcloses, -⟩ := close_cases b s
  obtain ⟨hp', ms, o', rfl, -, hsettles⟩ := hcloses.settles hp
  rw [Act.final_of_run hclose.run]
  exact ⟨hp', hcloses.canonical, xs, ms, o', hsettles, hclose.follows⟩

end Seat

/-- A scope takes its events, and closes the session that it leaves. -/
theorem SessionOp.perform_of_scope (b : Backend W) {op : SessionOp} {limit : Option Nat}
    (h : op.scope? = some limit) (s : Seat W) :
    (op.perform b s).2 = Act.final (Seat.close b) (s.leaving b limit) := by
  cases op with
  | scope limit' raising =>
    obtain ⟨_, _, _, d, s', hscope, -⟩ := Seat.scope_walks b limit' raising s
    obtain rfl : limit' = limit := by simpa [scope?] using h
    rw [← Seat.final_scope b limit' raising, Act.final_of_run hscope.run]
    simp [perform, Answer.drain_of_run hscope.run]
  | collect kind =>
    obtain ⟨_, _, o, s', hcollect, -⟩ := Seat.collect_walks b kind s
    obtain rfl : none = limit := by simpa [scope?] using h
    rw [← Seat.final_collect b kind, Act.final_of_run hcollect.run, final_collect hcollect.run]
  | close =>
    obtain ⟨_, _, o, s', hclose, -⟩ := Seat.close_walks b s
    obtain rfl : some 0 = limit := by simpa [scope?] using h
    have hleft : s.leaving b (some 0) = s := by
      rw [Seat.leaving, Act.final_of_run (o := .ok _) (Seat.run_take_zero b s)]
    have hrun : EStateM.run (do Seat.close b; return .done : Act (Seat W) Reply) s =
        Act.result (o.map fun _ => .done) s' := by
      rw [EStateM.run_bind, hclose.run]
      cases o <;> rfl
    rw [hleft, Act.final_of_run hclose.run, perform, Answer.reply_of_run hrun]
  | pull | next | take | drop => simp [scope?] at h

/-! ## Scopes of an engine -/

namespace EngineOp

variable {b : Backend W} {config : EngineConfig} {op : EngineOp} {r : Room W} {s t : Session}
  {limit : Option Nat} {xs own : List Exchange} {ns : List Notice} {fs : List Failure} {n : Nat}

/-- A scope leaves the room as the close of its session does. -/
theorem perform_of_scope (hop : op.scope? config = some limit)
    (h : op.acting? b config r = some (s, t)) :
    let seat := Act.final (Seat.close b) (Seat.leaving b limit ⟨r.toDesk, s⟩)
    (op.perform b config r).2.toDesk = seat.toDesk ∧ t = seat.session := by
  cases op with
  | store | shutdown => simp [scope?] at hop
  | session m sop =>
    obtain ⟨session, hs, hst⟩ := Option.map_eq_some_iff.1 h
    obtain ⟨rfl, rfl⟩ := Prod.mk.inj hst
    rw [perform_session b config hs, sop.perform_of_scope b hop]
    exact ⟨rfl, rfl⟩
  | submit kind input choice =>
    cases input with
    | other => simp [acting?] at h
    | bytes payload =>
      simp only [acting?] at h
      split at h
      · next hopen =>
        rw [Bool.and_eq_true, Bool.not_eq_true'] at hopen
        obtain ⟨rfl, rfl⟩ := Prod.mk.inj (Option.some.inj h)
        obtain rfl : none = limit := by simpa [scope?, hopen.2] using hop
        obtain ⟨_, _, o, seat, hcollect, -⟩ :=
          Seat.collect_walks b kind ⟨r.toDesk, config.session kind payload⟩
        rw [perform_collected b hopen.1 hopen.2 hcollect.run, ← Seat.final_collect b kind,
          Act.final_of_run hcollect.run]
        exact ⟨rfl, congrArg Seat.session (SessionOp.final_collect hcollect.run)⟩
      · cases h

/-- The session of a scope is over afterwards, or it never began. -/
theorem working?_of_scope (hop : op.scope? config = some limit)
    (h : op.acting? b config r = some (s, t)) : t.phase.working? = none := by
  obtain ⟨_, _, o, s', hclose, hover⟩ := Seat.close_walks b (Seat.leaving b limit ⟨r.toDesk, s⟩)
  rw [(perform_of_scope hop h).2, Act.final_of_run hclose.run]
  exact hover

/-- The session that a scope was over does not run in the room that it leaves. -/
theorem not_runs_of_scope (hop : op.scope? config = some limit) (hn : op.isOn n = true) :
    ¬(op.perform b config r).2.Runs n := by
  obtain ⟨sop, rfl⟩ := exists_eq_session_of_isOn hn
  rw [Room.runs_iff]
  rintro ⟨w, hw⟩
  cases hs : r.session? n with
  | none => simp [perform_session_none b config hs, Room.working?, hs] at hw
  | some s =>
    have hact := congrArg (Option.map fun s => (s, (sop.perform b ⟨r.toDesk, s⟩).2.session)) hs
    have hover := working?_of_scope hop hact
    rw [perform_session b config hs, Room.working?, Room.session?_set hs, if_pos rfl] at hw
    cases hkeeps : sop.keeps <;> simp [hkeeps, hover] at hw

/-- If no other session runs, a session that does not run has a room without a transaction. -/
theorem transaction_of_acting (hr : r.Linked config.isolation own)
    (h : op.acting? b config r = some (s, t)) (halone : ∀ n, r.Runs n → op.isOn n = true)
    (hs : s.phase.working? = none) : r.controller.transaction = none := by
  refine Option.eq_none_iff_forall_ne_some.2 fun transaction ht => ?_
  obtain ⟨n, hn⟩ := hr.holder transaction ht
  obtain ⟨sop, rfl⟩ := exists_eq_session_of_isOn (halone n (Room.runs_iff.2 ⟨_, hn⟩))
  obtain ⟨session, hsession, hst⟩ := Option.map_eq_some_iff.1 h
  obtain ⟨rfl, -⟩ := Prod.mk.inj hst
  simp [Room.working?_eq hsession, hs] at hn

/-- The session `s` is left by its scope while its transaction is open. -/
structure LeftOpen (b : Backend W) (config : EngineConfig) (op : EngineOp) (limit : Option Nat)
    (r : Room W) (s t : Session) : Prop where
  acting : op.acting? b config r = some (s, t)
  /-- The transaction is not that of another session. -/
  alone : ∀ n, r.Runs n → op.isOn n = true
  opened : (Seat.leaving b limit ⟨r.toDesk, s⟩).controller.transaction ≠ none

/-- A session whose transaction is open when its scope is left runs. -/
theorem LeftOpen.running (h : LeftOpen b config op limit r s t)
    (hr : r.Linked config.isolation own) :
    ∃ w, (Seat.leaving b limit ⟨r.toDesk, s⟩).session.phase = .running w := by
  obtain ⟨xs, ns, fs, hpath⟩ := Seat.leaving_path b limit ⟨r.toDesk, s⟩
  obtain ⟨foreign, hlinked⟩ := linked_of_acting hr h.acting
  obtain rfl : foreign = none := by
    rcases hlinked.link with ⟨hf, -⟩ | ⟨ht, hs⟩
    · exact hf
    · exact ht.symm.trans (transaction_of_acting hr h.acting h.alone hs)
  rcases (hpath.linked hlinked).link with ⟨-, hlink⟩ | ⟨hnone, -⟩
  · cases hp : (Seat.leaving b limit ⟨r.toDesk, s⟩).session.phase with
    | running w => exact ⟨w, rfl⟩
    | start | accepted | rejected | fatal | cancelled =>
      exact absurd (by simpa [hp, Phase.working?] using hlink) h.opened
  · exact absurd hnone h.opened

theorem LeftOpen.rollsBack (h : LeftOpen b config op limit r s t)
    (hop : op.scope? config = some limit) (hr : r.Linked config.isolation own) :
    Seat.RollsBack b (Seat.leaving b limit ⟨r.toDesk, s⟩)
      ⟨(op.perform b config r).2.toDesk, t⟩ := by
  obtain ⟨w, hw⟩ := h.running hr
  obtain ⟨hdesk, ht⟩ := perform_of_scope hop h.acting
  rw [hdesk, ht]
  exact Seat.rollsBack_of_running b hw

/-- What becomes of a scope, however it is left. -/
structure Encloses (b : Backend W) (config : EngineConfig) (op : EngineOp) (limit : Option Nat)
    (r : Room W) : Prop where
  /-- Its session does not run. -/
  settled : ∀ s t, op.acting? b config r = some (s, t) → t.phase.state ≠ .running
  stopped : ∀ n, op.isOn n = true → ¬(op.perform b config r).2.Runs n
  /-- No transaction is open, unless another session ran before. -/
  free : (∀ n, r.Runs n → op.isOn n = true) →
    (op.perform b config r).2.controller.transaction = none
  idle : r.controller.state = .idle → (op.perform b config r).2.controller.state = .idle
  /-- Another session that ran is as it was, and so are its transaction and the machines. -/
  others : ∀ n, r.Runs n → op.isOn n = false →
    (op.perform b config r).2.toDesk = r.toDesk ∧
      (op.perform b config r).2.session? n = r.session? n
  /-- A transaction that was still open is rolled back. -/
  rolledBack : ∀ s t, LeftOpen b config op limit r s t →
    Seat.RollsBack b (Seat.leaving b limit ⟨r.toDesk, s⟩) ⟨(op.perform b config r).2.toDesk, t⟩
  /-- The canonical machine is then what it was before the scope. -/
  canonical : ∀ s t, LeftOpen b config op limit r s t →
    (op.perform b config r).2.controller.canonical = r.controller.canonical
  /-- In isolation it also holds what it held, if forks are separate machines. -/
  content : ∀ {L : Type} (content : W → Handle → L) s t, LeftOpen b config op limit r s t →
    config.isolation = .isolated → b.Separate content →
    content (op.perform b config r).2.world (op.perform b config r).2.controller.canonical =
      content r.world r.controller.canonical

/-- In every room that an engine comes to, whatever its machines do, every scope encloses what it
does to its session. -/
theorem run_encloses (b : Backend W) (config : EngineConfig) (machine : Handle) (site : Site W)
    (ops : List EngineOp) (hop : op.scope? config = some limit) :
    op.Encloses b config limit (run b config ops (.opening machine site)) := by
  obtain ⟨own, _, hfollows, hr⟩ := run_linked b config machine site ops
  generalize run b config ops (.opening machine site) = r at hfollows hr ⊢
  obtain ⟨xs, ns, fs, hdoes, -⟩ := op.does b config r
  have hfree : (∀ n, r.Runs n → op.isOn n = true) →
      (op.perform b config r).2.controller.transaction = none := by
    intro halone
    refine Option.eq_none_iff_forall_ne_some.2 fun transaction ht => ?_
    obtain ⟨n, hn⟩ := (hdoes.linked hr).holder transaction ht
    have hruns := Room.runs_iff.2 ⟨_, hn⟩
    cases hon : op.isOn n with
    | true => exact not_runs_of_scope hop hon hruns
    | false =>
      rcases hdoes.session?_cases hon with hsame | ⟨-, kind, payload, hnew⟩
      · rw [Room.working?, hsame] at hn
        simp [halone n (Room.runs_iff.2 ⟨_, hn⟩)] at hon
      · simp [Room.working?_eq hnew, EngineConfig.session, Phase.working?] at hn
  have hrefuses {s t : Session} (h : LeftOpen b config op limit r s t) (result : Bytes) :
      ¬op.Accepts b config r result := by
    rintro ⟨s', t', hact, -, -, haccepted⟩
    obtain ⟨rfl, rfl⟩ := Prod.mk.inj (Option.some.inj (h.acting.symm.trans hact))
    have hcancelled : t.phase = .cancelled := (h.rollsBack hop hr).phase
    simp [hcancelled] at haccepted
  refine ⟨fun s t h => ?_, fun n => not_runs_of_scope hop, hfree, fun hidle => ?_,
    fun n hn hon => ?_, fun s t h => h.rollsBack hop hr,
    fun s t h => hdoes.canonical (hrefuses h),
    fun content s t h hm hb => hdoes.content_eq hr hm hb hfollows (hrefuses h)⟩
  · have hover := working?_of_scope hop h
    intro hstate
    cases hp : t.phase <;> simp [hp, Phase.working?, Phase.state] at hover hstate
  · rw [Controller.state_eq_idle_iff] at hidle ⊢
    refine ⟨?_, hfree fun n hn => ?_⟩
    · rw [(hdoes.countsLeaks ?_).closed, hidle.1]
      rintro rfl
      simp [scope?] at hop
    · obtain ⟨w, hw⟩ := Room.runs_iff.1 hn
      simp [hr.working?_eq_none hidle.2] at hw
  · have hstands := bystands (b := b) hr hn hon
    exact ⟨hstands.desk, hstands.session⟩

/-- An advance that is interrupted as it runs, and again as its fork is released: its transaction is
rolled back all the same, and the engine takes the next input. -/
theorem interrupted_encloses :
    let program := Scripted.Program.script
      [.append [1], .automatic .output [2], .raise (.interrupt "KeyboardInterrupt" "")]
    let fault : Scripted.Fault := ⟨.shutdown, 1, .interrupt "SystemExit" "1"⟩
    let b := Scripted.backend
    let op : EngineOp := .submit .advance (.bytes [3]) (some true)
    let r : Room Scripted.World := .opening 0 { world := .ofLedger [[7]] [program] [fault] }
    let r' := (op.perform b {} r).2
    op.scope? {} = some none ∧ op.Encloses b {} none r ∧
      (op.perform b {} r).1.failure?.map Failure.ordinary = some false ∧
      r'.controller.state = .idle ∧ r'.controller.canonical = 0 ∧
      r'.world.ledgerOf r'.controller.canonical = [[7]] := by
  intro program fault b op r r'
  have hop : op.scope? {} = some none := rfl
  have hencloses : op.Encloses b {} none r :=
    run_encloses b {} 0 { world := .ofLedger [[7]] [program] [fault] } [] hop
  exact ⟨hop, hencloses, by decide +kernel, by decide +kernel, by decide +kernel,
    by decide +kernel⟩

end EngineOp

end RollupEngine

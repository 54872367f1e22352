import RollupEngine.Proofs.Surfacing
import RollupEngine.Proofs.Text.Utf8

/-!
# Exceptions of a guest

A guest ends its input with an exception in a manual yield, whose payload is to describe it. The
host reads the payload as text whatever its bytes are (`Utf8.Tolerant`), and that text is what the
holder of the session is told (`EngineOp.run_exception`).

On the way from the yield to the error, a break that ends an input decides the fate of its session:
no machine has failed before it, and none is put to work after it (`Seat.Path.fate_of_mem`).
-/

namespace RollupEngine

variable {W : Type}

/-! ## The break that ends an input -/

namespace Session

variable {s : Session} {kind : InputKind} {w : Handle} {c c' : Controller} {p : Phase}
  {xs : List Exchange} {ns : List Notice} {fs : List Failure} {a : Break} {e : Ending}

theorem Turns.fate_of_mem {o : Except Failure Seat.Turn} (h : Turns kind w c xs ns o c' p)
    (ha : a ∈ Exchange.breaks xs) (he : kind.endingAt? a = some e) : kind.fate xs = .ended e := by
  have silent {xs ys : List Exchange} {f : Failure} (hh : Hears w xs (.error f))
      (hy : ∀ y ∈ ys, ∃ m reply, y = .shutdown m reply) : Exchange.breaks (xs ++ ys) = [] := by
    rcases hh.breaks with ⟨hnil, -⟩ | ⟨_, -, ho⟩
    · rw [(hh.breaks_append hy).2, hnil]
    · cases ho
  cases h with
  | interrupted hh =>
    rw [← List.append_nil xs, silent hh (List.forall_mem_nil _)] at ha
    cases ha
  | failed hh _ hf =>
    rw [silent hh fun y hy => hf.mem hy] at ha
    cases ha
  | @heard xs ys _ _ _ _ _ hh hj =>
    have hys : ∀ y ∈ ys, ∃ m reply, y = .shutdown m reply := fun y hy => hj.mem hy
    rcases hh.breaks with ⟨-, _, ho⟩ | ⟨a', hbreaks, ho⟩
    · cases ho
    rw [(hh.breaks_append hys).2, hbreaks] at ha
    cases List.mem_singleton.1 ha
    cases ho
    have hfate := hh.fate_of_ok kind
    rw [InputKind.verdict_of_ending he] at hfate
    rw [InputKind.fate_append_releases hys, hfate]

/-- A move that hears the break that ends the input has its fate decided by it. -/
theorem Moves.fate_of_mem (h : s.Moves c xs ns fs c' p) (ha : a ∈ Exchange.breaks xs)
    (he : s.kind.endingAt? a = some e) : s.kind.fate xs = .ended e := by
  cases h with
  | turn hp h => exact h.fate_of_mem ha he
  | start hp h =>
    rw [(h.silent hp).2] at ha
    cases ha
  | close h | abandon h =>
    rw [Exchange.breaks_of_shutdowns fun x hx => h.mem hx] at ha
    cases ha

/-- A move raises one failure at most. -/
theorem Moves.exists_told (h : s.Moves c xs ns fs c' p) :
    ∃ told : Option Failure, fs = told.toList := by
  cases h with
  | start | turn | close | abandon => exact ⟨_, failures_eq _⟩

end Session

/-- The break that ends the input decides the fate of the session. -/
theorem Seat.Path.fate_of_mem {b : Backend W} {s s' : Seat W} {xs : List Exchange}
    {ns : List Notice} {fs : List Failure} {a : Break} {e : Ending} (h : Path b s xs ns fs s')
    (ha : a ∈ Exchange.breaks xs) (he : s.session.kind.endingAt? a = some e) :
    s.session.kind.fate xs = .ended e := by
  induction h with
  | refl => cases ha
  | @step s t s'' xs ys _ _ _ _ head tail ih =>
    have hhead := tail.head?_request?
    rw [Exchange.breaks_append hhead, List.mem_append] at ha
    -- once the session is over, nothing more is heard
    have rests (ht : t.session.phase.done = true) : ys = [] := (tail.of_done ht).1
    cases hs : s.session.phase.done with
    | true =>
      obtain ⟨rfl, -, -, -, hp⟩ := head.moves.of_done hs
      rw [rests (by rw [hp, hs])] at ha
      rcases ha with ha | ha <;> cases ha
    | false =>
      obtain ⟨told, rfl⟩ := head.moves.exists_told
      rcases head.moves.departs_or_stays told hs with hdeparts | hstays
      · obtain rfl := rests hdeparts.done
        rw [List.append_nil]
        exact head.moves.fate_of_mem (ha.resolve_right List.not_mem_nil) he
      · rcases ha with ha | ha
        · cases hstays.fate.symm.trans (head.moves.fate_of_mem ha he)
        · have hrest := ih ha (by rw [head.kind]; exact he)
          rw [head.kind] at hrest
          rw [InputKind.fate_append hstays.fate hhead, hrest]

/-! ## Exceptions -/

/-- A manual yield with an exception is read as the text of its payload. -/
theorem eventOf?_exception (command : Int) (p : Bytes) :
    eventOf? 2 (some { command, reason := 4, payload := p }) =
      some (.ending (.exception (Utf8.decode p))) := rfl

/-- The error that a description comes to: there is no text if and only if there is no payload. -/
theorem make_decode (p : Bytes) :
    EngineError.make .fatal (some (Utf8.decode p)) (Failure.source "guest") =
      { kind := .fatal
        message := if p = [] then "Rollups fatal error" else Utf8.decode p
        details := [("source", .text "guest")] } := by
  have hempty : (Utf8.decode p).isEmpty = true ↔ p = [] :=
    String.isEmpty_iff.trans (Utf8.tolerant_decode.eq_empty_iff p)
  simp only [EngineError.make, hempty]
  rfl

/-- What a session is told that ends with an exception, if its transaction is closed in peace. -/
theorem Session.Quits.of_exception {kind : InputKind} {c c' : Controller} {ys : List Exchange}
    {ns : List Notice} {quit : Option Failure} {text : String} {p : Phase}
    (h : Quits kind c (.ended (.exception text)) ys ns quit c' p) (hc : c.transaction ≠ none)
    (hquiet : ∀ m e, .shutdown m (.error e) ∉ ys) :
    p = .fatal ∧ quit = some (.ofKind .fatal (some text) (Failure.source "guest")) := by
  cases h with
  | @ended _ _ o _ _ h =>
    cases o with
    | ok _ => exact ⟨rfl, rfl⟩
    | error f =>
      obtain ⟨m, hm⟩ := h.raised hc
      exact absurd hm (hquiet m _)

namespace EngineOp

variable {b : Backend W} {config : EngineConfig} {op : EngineOp} {r : Room W} {s t : Session}

/-- To let go of a session is to hear nothing of it. -/
theorem keeps_of_breaks (h : op.acting? b config r = some (s, t))
    (ha : Exchange.breaks (op.page b config r).calls ≠ []) : op.keeps = true := by
  cases op with
  | submit | store | shutdown => rfl
  | session n op =>
    cases op with
    | pull | next | take | scope | close | collect => rfl
    | drop =>
      obtain ⟨session, hn, -⟩ := Option.map_eq_some_iff.1 h
      obtain ⟨xs, ns, _, seat, hrun, hcourse, -, hreleases⟩ :=
        Seat.abandon_cases b ⟨r.toDesk, session⟩
      obtain ⟨_, hpath, -⟩ := hcourse.path
      have hcalls : ((EngineOp.session n .drop).page b config r).calls = xs :=
        calls_of_session b config hn (by rw [SessionOp.perform_drop hrun]; exact hpath.follows)
      rw [hcalls] at ha
      exact absurd (Exchange.breaks_of_shutdowns hreleases) ha

/-- A guest that describes its exception has the description read as text, which tolerates whatever
is no text and keeps the rest as it is. In every room that an engine comes to, whatever its machines
do, an operation that hears the exception answers with a fatal error which says that text, or what
fatal errors say that have nothing to say; unless a release raises. -/
theorem run_exception (b : Backend W) (config : EngineConfig) (machine : Handle) (site : Site W)
    (ops : List EngineOp) :
    let r := run b config ops (.opening machine site)
    (∀ command p, eventOf? 2 (some { command, reason := 4, payload := p }) =
      some (.ending (.exception (Utf8.decode p)))) ∧
    Utf8.Tolerant Utf8.decode ∧
    ∀ (op : EngineOp) (s t : Session) (command : Int) (p : Bytes),
      op.acting? b config r = some (s, t) →
      ⟨2, some { command, reason := 4, payload := p }⟩ ∈
        Exchange.breaks (op.page b config r).calls →
      (∀ m e, .shutdown m (.error e) ∉ (op.page b config r).calls) →
      t.phase = .fatal ∧ (op.page b config r).answer.outcome = .error {
        error := .engine {
          kind := .fatal
          message := if p = [] then "Rollups fatal error" else Utf8.decode p
          details := [("source", .text "guest")] } } := by
  intro r
  refine ⟨eventOf?_exception, Utf8.tolerant_decode, fun op s t command p hact ha hquiet => ?_⟩
  obtain ⟨own, -, -, hlinked⟩ := run_linked b config machine site ops
  obtain ⟨foreign, hs⟩ := linked_of_acting hlinked hact
  obtain ⟨told, seat, hcourse, rfl, -, hanswer⟩ := course hact
  obtain ⟨_, hpath, -⟩ := hcourse.path
  rw [answers, if_pos (keeps_of_breaks hact (List.ne_nil_of_mem ha))] at hanswer
  have hending : s.kind.endingAt? ⟨2, some { command, reason := 4, payload := p }⟩ =
      some (.exception (Utf8.decode p)) := by
    rw [InputKind.endingAt?, Break.event?, eventOf?_exception]
    cases s.kind <;> rfl
  have hfate := hpath.fate_of_mem ha hending
  have hdone : s.phase.done = false := by
    cases hd : s.phase.done with
    | false => rfl
    | true =>
      rw [(hpath.of_done hd).1] at ha
      cases ha
  rcases hcourse.departs_or_stays hdone with ⟨stands, quits, releases, -, -, htold, -⟩ | hstays
  · rw [hfate] at quits
    obtain ⟨hphase, rfl⟩ := quits.of_exception (stands.opens hs) fun m e hm => by
      rw [← releases] at hm
      exact hquiet m e (List.mem_filter.1 hm).1
    refine ⟨hphase, Answer.failure?_eq_some.1 ?_⟩
    rw [hanswer, htold, Option.some_or, Option.some_or, Failure.ofKind, make_decode]
  · cases hfate.symm.trans hstays.fate

/-- A sequence that breaks off, a surrogate, and text around them. -/
theorem broken_text_exception :
    let p : Bytes := [0x61, 0xF0, 0x9F, 0x98, 0xED, 0xA0, 0x80, 0xC3, 0xA9]
    let site : Site Scripted.World :=
      { world := .ofLedger [] [.script [.manual .exception p]] [] }
    let submitted : List EngineOp := [.submit .advance (.bytes [5]) none]
    let r := run Scripted.backend {} submitted (.opening 0 site)
    let page := (session 0 .pull).page Scripted.backend {} r
    ⟨2, some { command := 1, reason := 4, payload := p }⟩ ∈ Exchange.breaks page.calls ∧
      (∀ m e, .shutdown m (.error e) ∉ page.calls) ∧
      page.answer.outcome = .error {
        error := .engine {
          kind := .fatal
          message := "a\ufffd\ufffd\ufffd\ufffdé"
          details := [("source", .text "guest")] } } := by
  intro p site submitted r page
  obtain ⟨⟨s, t⟩, hact⟩ : ∃ x, (session 0 .pull).acting? Scripted.backend {} r = some x :=
    Option.isSome_iff_exists.1 (by decide +kernel)
  have ha : ⟨2, some { command := 1, reason := 4, payload := p }⟩ ∈ Exchange.breaks page.calls := by
    decide +kernel
  have hquiet : ∀ m e, .shutdown m (.error e) ∉ page.calls := by
    intro m e hm
    have hall : (page.calls.all fun x => x.error?.isNone) = true := by decide +kernel
    cases List.all_eq_true.1 hall _ hm
  obtain ⟨-, houtcome⟩ := (run_exception Scripted.backend {} 0 site submitted).2.2 (session 0 .pull)
    s t 1 p hact ha hquiet
  have htext : Utf8.decode p = "a\ufffd\ufffd\ufffd\ufffdé" := by decide +kernel
  rw [if_neg (List.cons_ne_nil _ _), htext] at houtcome
  exact ⟨ha, hquiet, houtcome⟩

end EngineOp

end RollupEngine

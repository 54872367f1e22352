import RollupEngine.Proofs.Link
import RollupEngine.Proofs.Separation

/-!
# Isolation

The canonical machine of an isolated engine changes hands only when an advance is accepted, and no
operation drives it: what a session does, it does to a fork. `EngineOp.Isolates` says this of one
operation, and `EngineOp.run_isolates` proves it of every operation in every room that an engine
comes to. If a fork is a machine of its own (`Backend.Separate`), the content of the canonical
machine therefore outlasts every operation that accepts no advance.
-/

namespace RollupEngine

variable {W : Type}

/-! ## How a run ends well -/

theorem readAutomatic_ne_ending (request : YieldRequest) (ending : Ending) :
    readAutomatic request ≠ .event (.ending ending) := by
  unfold readAutomatic
  split <;> try split
  all_goals simp

theorem readBreak_eq_accepted {reason : Int} {request : Option YieldRequest} {result : Bytes}
    (h : readBreak reason request = .event (.ending (.accepted result))) :
    reason = manualBreak ∧ ∃ r, request = some r ∧ readManual r = .accepted result := by
  unfold readBreak at h
  split at h
  · split at h
    · cases Reading.eq_of_ofEnding h
    · next r =>
      split at h
      · next hreason => exact ⟨hreason, r, rfl, Reading.eq_of_ofEnding h⟩
      · exact absurd h (readAutomatic_ne_ending r _)
  · cases Reading.eq_of_ofEnding h

/-! ## The canonical machine in a move -/

namespace Controller

variable {mode : Isolation} {c c' : Controller} {xs : List Exchange} {ns : List Notice}

theorem Begins.canonical {o : Except Failure Handle} (h : c.Begins mode xs ns o c') :
    c'.canonical = c.canonical := by
  cases h with
  | closed | busy | direct | isolated | failed | interrupted => rfl

/-- A transaction that is not kept leaves the canonical machine as it is. -/
theorem Settles.canonical {o : Except Failure Unit} (h : c.Settles false xs ns o c') :
    c'.canonical = c.canonical := by
  cases h with
  | absent | direct | discarded => rfl
  | promoted _ hk => cases hk

theorem Begins.fork_mem {w : Handle} (h : c.Begins .isolated xs ns (.ok w) c') :
    .fork c.canonical (.ok w) ∈ xs := by
  cases h with
  | direct _ hm => cases hm
  | isolated => exact List.mem_singleton.2 rfl

/-- An isolated transaction that is kept makes its fork canonical and releases the backup. -/
theorem Settles.canonical_of_isolated {o : Except Failure Unit} {w k : Handle}
    (h : c.Settles true xs ns o c') (ht : c.transaction = some (.isolated w k)) :
    ∃ reply, xs = [.shutdown k reply] ∧ c'.canonical = w := by
  cases h with
  | absent h | direct h => cases ht.symm.trans h
  | promoted h _ reply =>
    cases ht.symm.trans h
    exact ⟨reply, rfl, rfl⟩
  | discarded _ hk => cases hk

end Controller

namespace Session

variable {s : Session} {kind : InputKind} {c c' : Controller} {p : Phase} {xs : List Exchange}
  {ns : List Notice} {fs : List Failure}

/-- A run that ends well ends with a manual yield that accepts. -/
theorem hears_of_accepted {w : Handle} {r : Reading} {result : Bytes} (h : Hears w xs (.ok r))
    (hv : kind.verdict r = .stop (.accepted result)) :
    ∃ request, xs = [.run w (.ok manualBreak), .receive w (.ok (some request))] ∧
      readManual request = .accepted result := by
  have hr : r = .event (.ending (.accepted result)) := by
    rcases r with (event | ending) | payload | reason | v
    · cases kind <;> cases event <;> cases hv
    · cases hv
      rfl
    all_goals cases hv
  subst hr
  generalize ho : Except.ok (Reading.event (.ending (.accepted result))) = o at h
  cases h with
  | stopped | silent => cases ho
  | broke reason hy =>
    obtain ⟨rfl, -⟩ := readBreak_eq_accepted (Except.ok.inj ho).symm
    cases hy
  | yielded reason hy request =>
    obtain ⟨rfl, request, rfl, hread⟩ := readBreak_eq_accepted (Except.ok.inj ho).symm
    exact ⟨request, rfl, hread⟩

theorem Fails.canonical {e : Error} {f : Failure} (h : Fails kind e c xs ns f c') :
    c'.canonical = c.canonical := by
  cases h with
  | rolledBack h => exact h.canonical

theorem Ends.canonical {ending : Ending} {o : Except Failure Seat.Turn}
    (h : Ends kind ending c xs ns o c') (hk : ending.keeps kind = false) :
    c'.canonical = c.canonical := by
  obtain ⟨_, _, h⟩ := h.settles
  rw [hk] at h
  exact h.canonical

theorem Closes.canonical {o : Except Failure Unit} (h : s.Closes c xs ns o c' p) :
    c'.canonical = c.canonical := by
  cases h with
  | fresh | done => rfl
  | running _ h => exact h.canonical

/-- A session is not accepted by closing it. -/
theorem Closes.over_of_accepted {o : Except Failure Unit} {result : Bytes}
    (h : s.Closes c xs ns o c' p) (hp : p = .accepted result) : s.phase.done = true := by
  cases h with
  | fresh | running => cases hp
  | done hover => exact hover

/-- A move that accepts an advance. -/
def Accepts (s : Session) (p : Phase) (result : Bytes) : Prop :=
  s.kind = .advance ∧ s.phase.done = false ∧ p = .accepted result

/-- The canonical machine changes only when an advance is accepted. -/
theorem Moves.canonical (h : s.Moves c xs ns fs c' p) (hn : ∀ result, ¬s.Accepts p result) :
    c'.canonical = c.canonical := by
  cases h with
  | start hp h =>
    cases h with
    | refused h | sent h | interrupted h => exact h.canonical
    | failed h _ _ hf => exact hf.canonical.trans h.canonical
  | turn hp h =>
    cases h with
    | heard _ hj =>
      cases hj with
      | delivered | passed | refused => rfl
      | @ended _ _ ending _ _ _ he =>
        refine he.canonical ?_
        cases ending with
        | rejected | exception | violation => rfl
        | accepted result =>
          cases hk : s.kind with
          | inspect => rfl
          | advance => exact absurd ⟨hk, by rw [hp]; rfl, rfl⟩ (hn result)
    | interrupted => rfl
    | failed _ _ hf => exact hf.canonical
  | close h | abandon h => exact h.canonical

/-- A move that accepts an advance hears an acceptance, and makes the fork canonical. -/
theorem Moves.accepted {result : Bytes} (h : s.Moves c xs ns fs c' p) (ha : s.Accepts p result)
    (hc : ∀ w, s.phase = .running w → c.transaction = some (.isolated w c.canonical)) :
    ∃ w request reply, s.phase = .running w ∧ readManual request = .accepted result ∧
      xs = [.run w (.ok manualBreak), .receive w (.ok (some request)),
        .shutdown c.canonical reply] ∧ c'.canonical = w := by
  obtain ⟨hk, hd, rfl⟩ := ha
  generalize hp' : Phase.accepted result = p at h
  cases h with
  | start hp h =>
    cases h with
    | refused | sent | interrupted | failed => cases hp'
  | turn hp h =>
    cases h with
    | heard hx hj =>
      cases hj with
      | delivered | passed | refused => cases hp'
      | @ended _ _ ending _ _ hv he =>
        cases ending with
        | rejected | exception | violation => cases hp'
        | accepted =>
          cases hp'
          obtain ⟨request, rfl, hread⟩ := hears_of_accepted hx hv
          obtain ⟨ms, o, hsettled⟩ := he.settles
          rw [hk] at hsettled
          obtain ⟨reply, rfl, hcanonical⟩ := hsettled.canonical_of_isolated (hc _ hp)
          exact ⟨_, request, reply, hp, hread, rfl, hcanonical⟩
    | interrupted | failed => cases hp'
  | close h | abandon h => cases hd.symm.trans (h.over_of_accepted hp'.symm)

/-- An isolated session runs on the fork it started with. -/
theorem Moves.of_running {w : Handle} (h : s.Moves c xs ns fs c' p) (hm : s.isolation = .isolated)
    (hp : p = .running w) :
    s.phase = .running w ∨ s.phase = .start ∧ .fork c.canonical (.ok w) ∈ xs := by
  subst hp
  rcases h.transaction_cases with ⟨-, hp⟩ | ⟨hp, v, ys, ms, hb, hsub, hv⟩ | ⟨-, hp, -⟩
  · refine .inl ?_
    cases hs : s.phase <;> simp_all [Phase.working?]
  · cases hv
    rw [hm] at hb
    exact .inr ⟨hp, hsub hb.fork_mem⟩
  · cases hp

theorem Moves.of_start (h : s.Moves c xs ns fs c' p) (hp : p = .start) : s.phase = .start := by
  cases h with
  | start hs => exact hs
  | turn hs h =>
    cases h with
    | heard _ hj =>
      cases hj with
      | delivered | passed | refused => cases hp
      | ended => cases ‹Ending› <;> cases hp
    | interrupted | failed => cases hp
  | close h | abandon h =>
    cases h with
    | fresh | running => cases hp
    | done => exact hp

/-- What a session touches is the machine it runs on, or the fork it makes. -/
theorem Moves.touched (h : s.Moves c xs ns fs c' p) (hm : s.isolation = .isolated) {x : Exchange}
    (hx : x ∈ xs) {m : Handle} (ht : x.touches? = some m) :
    s.phase = .running m ∨ .fork c.canonical (.ok m) ∈ xs := by
  rcases h.mem hx with
    ⟨-, reply, rfl⟩ | ⟨w, _, _, _, _, rfl, hb, hsub⟩ | ⟨w, hp, ⟨_, rfl⟩ | ⟨_, rfl⟩⟩ | ⟨_, _, rfl⟩
  · cases reply with
    | ok w =>
      cases ht
      exact .inr hx
    | error => cases ht
  · cases ht
    rw [hm] at hb
    exact .inr (hsub hb.fork_mem)
  · cases ht
    exact .inl hp
  · cases ht
    exact .inl hp
  · cases ht

end Session

/-! ## The canonical machine on a path -/

namespace Seat

variable {b : Backend W} {s s' : Seat W} {xs own : List Exchange} {ns : List Notice}
  {fs : List Failure} {foreign : Option Transaction} {w : Handle} {result : Bytes}

/-- An isolated session that runs has a transaction with the canonical machine as its backup. -/
theorem Linked.isolated (h : s.Linked foreign own) (hm : s.session.isolation = .isolated)
    (hp : s.session.phase = .running w) :
    s.controller.transaction = some (.isolated w s.controller.canonical) := by
  obtain ⟨-, t, ht, hw⟩ := h.of_running hp
  cases t with
  | isolated v k =>
    obtain rfl : v = w := hw
    rw [ht, (h.fits.isolated v k ht).2]
  | direct v => cases hm.symm.trans (h.fits.direct v ht).1

theorem Move.kind (h : Move b s xs ns fs s') : s'.session.kind = s.session.kind := by
  rw [h.session]
  rfl

theorem Move.isolation (h : Move b s xs ns fs s') :
    s'.session.isolation = s.session.isolation := by
  rw [h.session]
  rfl

/-- What is accepted after a move was not over before it. -/
theorem Move.accepts (h : Move b s xs ns fs s') {p : Phase} (ha : s'.session.Accepts p result) :
    s.session.Accepts p result := by
  obtain ⟨hk, hd, hp⟩ := ha
  refine ⟨h.kind.symm.trans hk, ?_, hp⟩
  cases hs : s.session.phase.done with
  | false => rfl
  | true =>
    rw [(h.moves.of_done hs).2.2.2.2, hs] at hd
    exact hd

namespace Path

/-- The canonical machine changes only when an advance is accepted. -/
theorem canonical (h : Path b s xs ns fs s')
    (hn : ∀ result, ¬s.session.Accepts s'.session.phase result) :
    s'.controller.canonical = s.controller.canonical := by
  induction h with
  | refl => rfl
  | @step s t s'' _ _ _ _ _ _ head tail ih =>
    have hhead : ∀ result, ¬s.session.Accepts t.session.phase result := by
      intro result ha
      have hover := (tail.of_done (by rw [ha.2.2]; rfl)).2.2.2.2
      exact hn result (hover ▸ ha)
    exact (ih fun result ha => hn result (head.accepts ha)).trans (head.moves.canonical hhead)

/-- A path that accepts an advance ends with it: the fork that the session works on accepts, and is
canonical from then on. -/
theorem accepted (h : Path b s xs ns fs s') (hs : s.Linked foreign own)
    (hm : s.session.isolation = .isolated) (ha : s.session.Accepts s'.session.phase result) :
    ∃ w request reply pre, readManual request = .accepted result ∧
      xs = pre ++ [.run w (.ok manualBreak), .receive w (.ok (some request)),
        .shutdown s.controller.canonical reply] ∧
      s'.controller.canonical = w ∧
      (s.session.phase = .running w ∨
        s.session.phase = .start ∧ .fork s.controller.canonical (.ok w) ∈ pre) := by
  induction h generalizing own with
  | refl s =>
    obtain ⟨-, hd, hp⟩ := ha
    rw [hp] at hd
    cases hd
  | @step s t s'' xs ys _ _ _ _ head tail ih =>
    cases hd : t.session.phase.done with
    | true =>
      obtain ⟨rfl, -, -, hc, hp⟩ := tail.of_done hd
      rw [hp] at ha
      obtain ⟨w, request, reply, hw, hread, rfl, hc'⟩ :=
        head.moves.accepted ha fun w hw => hs.isolated hm hw
      exact ⟨w, request, reply, [], hread, by simp, by rw [hc, hc'], .inl hw⟩
    | false =>
      have hat : t.session.Accepts s''.session.phase result := ⟨head.kind.trans ha.1, hd, ha.2.2⟩
      have hcanonical : t.controller.canonical = s.controller.canonical := by
        refine head.moves.canonical fun result hacc => ?_
        rw [hacc.2.2] at hd
        cases hd
      obtain ⟨w, request, reply, pre, hread, rfl, hc, hw⟩ :=
        ih (head.linked hs) (head.isolation.trans hm) hat
      rw [hcanonical] at hw ⊢
      refine ⟨w, request, reply, xs ++ pre, hread, by simp, hc, ?_⟩
      rcases hw with hw | ⟨hstart, hfork⟩
      · exact (head.moves.of_running hm hw).imp_right (.imp_right (List.mem_append_left _))
      · exact .inr ⟨head.moves.of_start hstart, List.mem_append_right _ hfork⟩

/-- What a path touches is a fork of the canonical machine. -/
theorem touched (h : Path b s xs ns fs s') (hs : s.Linked foreign own)
    (hm : s.session.isolation = .isolated) {x : Exchange} (hx : x ∈ xs) {m : Handle}
    (ht : x.touches? = some m) : .fork s.controller.canonical (.ok m) ∈ own ++ xs := by
  induction h generalizing own with
  | refl => cases hx
  | @step s t s'' xs ys _ _ _ _ head tail ih =>
    rcases List.mem_append.1 hx with hx | hx
    · rcases head.moves.touched hm hx ht with hp | hfork
      · exact List.mem_append_left _ (hs.forked _ _ (hs.isolated hm hp))
      · exact List.mem_append_right _ (List.mem_append_left _ hfork)
    · have hcanonical : t.controller.canonical = s.controller.canonical := by
        refine head.moves.canonical fun result hacc => ?_
        have hover := (tail.of_done (by rw [hacc.2.2]; rfl)).1
        rw [hover] at hx
        cases hx
      have hfork := ih (head.linked hs) (head.isolation.trans hm) hx
      rwa [hcanonical, List.append_assoc] at hfork

end Path

end Seat

/-! ## Operations on an engine -/

namespace EngineOp

variable {b : Backend W} {config : EngineConfig} {op : EngineOp} {r r' : Room W}
  {xs own : List Exchange} {ns : List Notice} {fs : List Failure}

/-- The operation accepts an advance: the session it works on comes to accept. -/
def Accepts (b : Backend W) (config : EngineConfig) (op : EngineOp) (r : Room W)
    (result : Bytes) : Prop :=
  ∃ s t, op.acting? b config r = some (s, t) ∧ s.Accepts t.phase result

/-- What an operation that makes the calls `xs`, after the calls `own`, means for the canonical
machine. -/
structure Isolates (b : Backend W) (config : EngineConfig) (op : EngineOp) (r : Room W)
    (own xs : List Exchange) : Prop where
  calls : (op.perform b config r).2.calls = r.calls ++ xs
  /-- It stays the same unless an advance is accepted. -/
  kept : (∀ result, ¬op.Accepts b config r result) →
    (op.perform b config r).2.controller.canonical = r.controller.canonical
  /-- An advance is accepted by the last break of the machine that its session works on, and then
  this machine is canonical, and the old one is released. -/
  promoted : ∀ result, op.Accepts b config r result →
    ∃ s t w request reply pre, op.acting? b config r = some (s, t) ∧
      readManual request = .accepted result ∧
      xs = pre ++ [.run w (.ok manualBreak), .receive w (.ok (some request)),
        .shutdown r.controller.canonical reply] ∧
      (op.perform b config r).2.controller.canonical = w ∧
      (s.phase = .running w ∨ s.phase = .start ∧ .fork r.controller.canonical (.ok w) ∈ pre)
  /-- It is not driven, if no machine is its own fork. -/
  undriven : (∀ m, .fork m (.ok m) ∉ own ++ xs) →
    ∀ x ∈ xs, x.drives? ≠ some r.controller.canonical
  /-- What it holds is the same unless an advance is accepted, if forks are separate machines. -/
  content : ∀ {L : Type} (content : W → Handle → L), b.Separate content →
    (∀ result, ¬op.Accepts b config r result) →
    content (op.perform b config r).2.world (op.perform b config r).2.controller.canonical =
      content r.world r.controller.canonical

theorem Does.touched (h : Does b config r op xs ns fs r')
    (hr : r.Linked config.isolation own) (hm : config.isolation = .isolated) {x : Exchange}
    (hx : x ∈ xs) {m : Handle} (ht : x.touches? = some m) :
    .fork r.controller.canonical (.ok m) ∈ own ++ xs := by
  cases h with
  | closed | notBytes | opened | absent => cases hx
  | collected _ _ _ path => exact path.touched (hr.fresh rfl rfl) hm hx ht
  | @walked n _ session _ _ _ _ hn _ path =>
    exact path.touched (hr.seat hn) ((hr.isolation n session hn).trans hm) hx ht
  | stored h =>
    cases h with
    | closed | busy => cases hx
    | stored | failed =>
      cases List.mem_singleton.1 hx
      cases ht
  | @shutDown _ _ _ d h =>
    generalize d.controller = c at h
    cases h with
    | closed | busy => cases hx
    | released | failed =>
      cases List.mem_singleton.1 hx
      cases ht

theorem Does.canonical (h : Does b config r op xs ns fs r')
    (hn : ∀ result, ¬op.Accepts b config r result) :
    r'.controller.canonical = r.controller.canonical := by
  cases h with
  | closed | notBytes | opened | absent => rfl
  | collected _ _ hact path | walked _ hact path =>
    exact path.canonical fun result ha => hn result ⟨_, _, hact, ha⟩
  | stored _ hd => rw [hd]
  | @shutDown _ _ _ d h =>
    change d.controller.canonical = _
    generalize d.controller = c at h
    cases h with
    | closed | busy | released | failed => rfl

theorem Does.promoted (h : Does b config r op xs ns fs r')
    (hr : r.Linked config.isolation own) (hm : config.isolation = .isolated) {result : Bytes}
    (ha : op.Accepts b config r result) :
    ∃ s t w request reply pre, op.acting? b config r = some (s, t) ∧
      readManual request = .accepted result ∧
      xs = pre ++ [.run w (.ok manualBreak), .receive w (.ok (some request)),
        .shutdown r.controller.canonical reply] ∧
      r'.controller.canonical = w ∧
      (s.phase = .running w ∨ s.phase = .start ∧ .fork r.controller.canonical (.ok w) ∈ pre) := by
  obtain ⟨s, t, hact, ha⟩ := ha
  cases h with
  | @closed _ input _ h => cases input <;> simp [acting?, h] at hact
  | notBytes => cases hact
  | opened _ h => simp [acting?, h] at hact
  | absent h => simp [acting?, h] at hact
  | collected _ _ hact' path =>
    cases hact.symm.trans hact'
    obtain ⟨w, request, reply, pre, h⟩ := path.accepted (hr.fresh rfl rfl) hm ha
    exact ⟨_, _, w, request, reply, pre, hact, h⟩
  | @walked n _ before _ _ _ _ hn hact' path =>
    have hm := (hr.isolation n before hn).trans hm
    cases hact.symm.trans hact'
    obtain ⟨w, request, reply, pre, h⟩ := path.accepted (hr.seat hn) hm ha
    exact ⟨_, _, w, request, reply, pre, hact, h⟩
  | stored | shutDown => cases hact

/-- What the canonical machine holds is the same unless an advance is accepted, if forks are
separate machines. -/
theorem Does.content_eq {L : Type} {content : W → Handle → L} {s : Site W} {ms : List Notice}
    (h : Does b config r op xs ns fs r') (hr : r.Linked config.isolation own)
    (hm : config.isolation = .isolated) (hb : b.Separate content)
    (hfollows : s.Follows b own ms r.toSite) (hn : ∀ result, ¬op.Accepts b config r result) :
    content r'.world r'.controller.canonical = content r.world r.controller.canonical := by
  rw [h.canonical hn]
  refine h.follows.world.content_eq hb fun x hx htouches => ?_
  exact (hfollows.world.append h.follows.world).fork_ne hb _ (h.touched hr hm hx htouches)

/-- In every room that an isolated engine comes to, whatever its machines do, every operation
isolates the canonical machine from what it does. -/
theorem run_isolates (b : Backend W) (config : EngineConfig) (machine : Handle) (s : Site W)
    (ops : List EngineOp) (hm : config.isolation = .isolated) :
    ∃ own, (run b config ops (.opening machine s)).calls = s.calls ++ own ∧
      ∀ op : EngineOp, ∃ xs,
        op.Isolates b config (run b config ops (.opening machine s)) own xs := by
  obtain ⟨own, _, hfollows, hr⟩ := run_linked b config machine s ops
  refine ⟨own, hfollows.calls, fun op => ?_⟩
  obtain ⟨xs, ns, fs, hdoes, -⟩ := op.does b config (run b config ops (.opening machine s))
  refine ⟨xs, hdoes.follows.calls, hdoes.canonical, fun result => hdoes.promoted hr hm, ?_, ?_⟩
  · intro hfork x hx hdrives
    exact hfork _ (hdoes.touched hr hm hx (Exchange.touches?_of_drives? hdrives))
  · intro L content hb hn
    exact hdoes.content_eq hr hm hb hfollows hn

/-- An inspect that is accepted leaves a ledger as it was. -/
theorem inspect_keeps_ledger :
    let r : Room Scripted.World := .opening 0 { world := .ofLedger [[7]] [] [] }
    let r' := ((submit .inspect (.bytes [1]) (some true)).perform Scripted.backend {} r).2
    r'.world.ledgerOf r'.controller.canonical = [[7]] := by
  obtain ⟨own, -, h⟩ := run_isolates Scripted.backend {} 0 { world := .ofLedger [[7]] [] [] } [] rfl
  obtain ⟨xs, h⟩ := h (.submit .inspect (.bytes [1]) (some true))
  rw [run_nil] at h
  have hkept := h.content Scripted.World.ledgerOf Scripted.separate ?_
  · exact hkept
  · rintro result ⟨s, t, hact, hk, -⟩
    cases hact
    cases hk

/-- If to fork a machine comes back with the machine itself, the canonical machine is driven, and an
inspect that is accepted leaves an entry in its ledger. -/
theorem self_fork_driven :
    let b : Backend Scripted.World := { Scripted.backend with fork := fun m w => (.ok m, w) }
    let r : Room Scripted.World := .opening 0 { world := .ofLedger [[7]] [] [] }
    let r' := ((submit .inspect (.bytes [1]) (some true)).perform b {} r).2
    ({} : EngineConfig).isolation = .isolated ∧
      (∃ x ∈ r'.calls, x.drives? = some r.controller.canonical) ∧
      r'.controller.canonical = r.controller.canonical ∧
      r'.world.ledgerOf r'.controller.canonical ≠ r.world.ledgerOf r.controller.canonical := by
  decide +kernel

end EngineOp

end RollupEngine

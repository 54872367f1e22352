import RollupEngine.Proofs.Isolation
import RollupEngine.Proofs.Session.Reference

/-!
# The words of a session

The calls that a session makes follow a grammar, which the machine that is called can rely on. A
`Block` is one run of a machine, and the question for its request if the run yielded. A session
begins its word by forking the canonical machine, if it is isolated, and by sending its input; then
it adds blocks (`Begun`). The word is finished (`Word`) when the transaction is closed: because of
an ending or a failure, or early. A fork that fails is a word of its own.

`Session.Says` is what a session has said of a word that it has not finished, and every move that
nothing interrupts adds to the word, or finishes it (`Session.Moves.word`). A session that could not
fork may try again, so it can have many words; but it sends its input only once
(`Seat.Path.sends`).
-/

namespace RollupEngine

variable {W : Type}

/-! ## Words -/

/-- One run of the machine `w`. Its request is asked for if and only if the run yielded. What is
heard is a break, unless a call raises an error. -/
inductive Block (w : Handle) : List Exchange → Option Break → Prop
  | raised (e : Error) : Block w [.run w (.error e)] none
  | broke (reason : Int) (h : ¬(reason = 2 ∨ reason = 3)) :
    Block w [.run w (.ok reason)] (some ⟨reason, none⟩)
  | silent (reason : Int) (h : reason = 2 ∨ reason = 3) (e : Error) :
    Block w [.run w (.ok reason), .receive w (.error e)] none
  | yielded (reason : Int) (h : reason = 2 ∨ reason = 3) (request : Option YieldRequest) :
    Block w [.run w (.ok reason), .receive w (.ok request)] (some ⟨reason, request⟩)

/-- The calls that release a machine at the end of a transaction. -/
def Isolation.release (mode : Isolation) (machine : Handle) (reply : Except Error Unit) :
    List Exchange :=
  match mode with
  | .isolated => [.shutdown machine reply]
  | .direct => []

section

variable (mode : Isolation) (kind : InputKind) (payload : Bytes) (canonical : Handle)

/-- The reason that an input is sent with. -/
def InputKind.SentWith (reason : RequestReason) : Prop :=
  Coded.code reason = match kind with
    | .advance => 0
    | .inspect => 1

/-- A word that is not finished: an input was sent to the machine `w`, and none of the breaks since
then ends it. -/
inductive Begun : Handle → List Exchange → Prop
  | sent (fork : Handle) (reason : RequestReason) (h : kind.SentWith reason) :
    Begun (mode.working canonical fork) (mode.opening canonical fork ++
      [.send (mode.working canonical fork) reason payload (.ok ())])
  | went {w : Handle} {xs ys : List Exchange} {a : Break} (begun : Begun w xs)
      (block : Block w ys (some a)) (h : kind.endingAt? a = none) : Begun w (xs ++ ys)

/-- A finished word, and the machine that is canonical after it. -/
inductive Word : List Exchange → Handle → Prop
  | unforked (h : mode = .isolated) (e : Error) : Word [.fork canonical (.error e)] canonical
  | unsent (fork : Handle) (reason : RequestReason) (h : kind.SentWith reason) (e : Error)
      (reply : Except Error Unit) :
    Word (mode.opening canonical fork ++
      .send (mode.working canonical fork) reason payload (.error e) ::
        mode.release (mode.working canonical fork) reply) canonical
  /-- The session is closed before its input comes to an end. -/
  | closed {w : Handle} {xs : List Exchange} (begun : Begun mode kind payload canonical w xs)
      (reply : Except Error Unit) : Word (xs ++ mode.release w reply) canonical
  | failed {w : Handle} {xs ys : List Exchange} (begun : Begun mode kind payload canonical w xs)
      (block : Block w ys none) (reply : Except Error Unit) :
    Word (xs ++ ys ++ mode.release w reply) canonical
  | ended {w : Handle} {xs ys : List Exchange} {a : Break} {ending : Ending}
      (begun : Begun mode kind payload canonical w xs) (block : Block w ys (some a))
      (h : kind.endingAt? a = some ending)
      (hn : ∀ root, kind = .advance → ending ≠ .accepted root) (reply : Except Error Unit) :
    Word (xs ++ ys ++ mode.release w reply) canonical
  /-- Only an advance that is accepted makes its machine canonical. -/
  | accepted {w : Handle} {xs ys : List Exchange} {a : Break} {root : Bytes}
      (begun : Begun mode kind payload canonical w xs) (block : Block w ys (some a))
      (hk : kind = .advance) (h : kind.endingAt? a = some (.accepted root))
      (reply : Except Error Unit) :
    Word (xs ++ ys ++ mode.release canonical reply) w

end

/-! ## What is heard and released -/

theorem InputKind.sentWith (kind : InputKind) : kind.SentWith kind.reason := by
  cases kind <;> rfl

/-- To hear a machine is a block. -/
theorem Hears.block {w : Handle} {xs : List Exchange} {o : Except Failure Reading}
    (h : Hears w xs o) : Block w xs none ∧ (∃ f, o = .error f) ∨
      ∃ a : Break, Block w xs (some a) ∧ o = .ok (readBreak a.reason a.request) := by
  have unyielded {reason : Int} (hy : isYield reason = false) : ¬(reason = 2 ∨ reason = 3) := by
    rw [← isYield_iff, hy]
    decide
  cases h with
  | stopped e => exact .inl ⟨.raised e, _, rfl⟩
  | broke reason hy => exact .inr ⟨⟨reason, none⟩, .broke reason (unyielded hy), rfl⟩
  | silent reason hy e => exact .inl ⟨.silent reason ((isYield_iff reason).1 hy) e, _, rfl⟩
  | yielded reason hy request =>
    exact .inr ⟨⟨reason, request⟩, .yielded reason ((isYield_iff reason).1 hy) request, rfl⟩

/-- Only an advance that is accepted is kept. -/
theorem Ending.of_keeps {kind : InputKind} {ending : Ending} (h : ending.keeps kind = true) :
    kind = .advance ∧ ∃ root, ending = .accepted root := by
  cases ending with
  | rejected | exception | violation => cases h
  | accepted root =>
    cases kind with
    | inspect => cases h
    | advance => exact ⟨rfl, root, rfl⟩

namespace Controller

variable {mode : Isolation} {c c' : Controller} {xs : List Exchange} {ns : List Notice}

theorem Settles.idle {keeps : Bool} {o : Except Failure Unit} (h : c.Settles keeps xs ns o c')
    (hc : c.closed = false) : c'.Idle :=
  ⟨h.closed.trans hc, h.transaction⟩

/-- Closing a transaction that is there releases the canonical machine, if it is kept, and else its
own. -/
theorem Settles.release {keeps : Bool} {o : Except Failure Unit} {t : Transaction}
    (h : c.Settles keeps xs ns o c') (hc : c.Fits mode) (ht : c.transaction = some t) :
    ∃ reply, xs = mode.release (if keeps then c.canonical else t.working) reply ∧
      c'.canonical = if keeps then t.working else c.canonical := by
  cases h with
  | absent h => cases ht.symm.trans h
  | @direct w h =>
    obtain ⟨rfl, rfl⟩ := hc.direct w h
    cases ht.symm.trans h
    exact ⟨.ok (), rfl, by cases keeps <;> rfl⟩
  | promoted h hk reply =>
    obtain ⟨rfl, rfl⟩ := hc.isolated _ _ h
    cases ht.symm.trans h
    rw [hk]
    exact ⟨reply, rfl, rfl⟩
  | discarded h hk reply =>
    obtain ⟨rfl, rfl⟩ := hc.isolated _ _ h
    cases ht.symm.trans h
    rw [hk]
    exact ⟨reply, rfl, rfl⟩

/-- Opening a transaction on an idle controller. -/
theorem Begins.opening {w : Handle} (h : c.Begins mode xs ns (.ok w) c') :
    ∃ fork, xs = mode.opening c.canonical fork ∧ w = mode.working c.canonical fork := by
  cases h with
  | direct _ hm =>
    subst hm
    exact ⟨c.canonical, rfl, rfl⟩
  | isolated _ hm w =>
    subst hm
    exact ⟨w, rfl, rfl⟩

end Controller

/-! ## What a session says -/

namespace Session

/-- A session has said `xs` of a word: nothing, unless it runs. -/
inductive Says (s : Session) (c : Controller) : List Exchange → Prop
  | nothing (h : c.Idle) (hp : s.phase.working? = none) : Says s c []
  | begun {t : Transaction} {xs : List Exchange} (hc : c.closed = false)
      (ht : c.transaction = some t) (hp : s.phase = .running t.working)
      (h : Begun s.isolation s.kind s.payload c.canonical t.working xs) : Says s c xs

variable {s : Session} {kind : InputKind} {w : Handle} {c c' : Controller} {p : Phase}
  {xs ys zs : List Exchange} {ns : List Notice} {fs : List Failure}

/-- A session that does not run has nothing to say. -/
theorem Says.of_not_running (h : s.Says c xs) (hp : s.phase.working? = none) :
    c.Idle ∧ xs = [] := by
  cases h with
  | nothing h => exact ⟨h, rfl⟩
  | begun _ _ hr =>
    rw [hr] at hp
    cases hp

theorem Says.of_running (h : s.Says c xs) (hp : s.phase = .running w) :
    c.closed = false ∧ (∃ t, c.transaction = some t ∧ t.working = w) ∧
      Begun s.isolation s.kind s.payload c.canonical w xs := by
  cases h with
  | nothing _ hr =>
    rw [hp] at hr
    cases hr
  | begun hc ht hr h =>
    cases hp.symm.trans hr
    exact ⟨hc, ⟨_, ht, rfl⟩, h⟩

/-- Nothing more is said of a word once its transaction is closed. -/
theorem says_of_settles {keeps : Bool} {o : Except Failure Unit} (h : c.Settles keeps ys ns o c')
    (hc : c.closed = false) (hp : p.working? = none) : (s.inPhase p).Says c' [] :=
  .nothing (h.idle hc) hp

theorem Fails.settles {e : Error} {f : Failure} (h : Fails kind e c xs ns f c') :
    ∃ ns o, c.Settles false xs ns o c' := by
  cases h with
  | rolledBack h => exact ⟨_, _, h⟩

/-- A session that is closed finishes its word, if it has begun one. -/
theorem Closes.word {o : Except Failure Unit} (h : s.Closes c ys ns o c' p) (hs : s.Says c xs)
    (hc : c.Fits s.isolation) :
    (s.inPhase p).Says c' (xs ++ ys) ∧ c'.canonical = c.canonical ∨
      (s.inPhase p).Says c' [] ∧
        Word s.isolation s.kind s.payload c.canonical (xs ++ ys) c'.canonical := by
  cases h with
  | fresh hp =>
    obtain ⟨hidle, rfl⟩ := hs.of_not_running (by rw [hp]; rfl)
    exact .inl ⟨.nothing hidle rfl, rfl⟩
  | done hd =>
    obtain ⟨hidle, rfl⟩ := hs.of_not_running (Phase.working?_of_done hd)
    exact .inl ⟨.nothing hidle (Phase.working?_of_done hd), rfl⟩
  | running hp hset =>
    obtain ⟨hopen, ⟨t, ht, rfl⟩, hbegun⟩ := hs.of_running hp
    obtain ⟨reply, rfl, hcanonical⟩ := hset.release hc ht
    rw [if_neg (by decide)] at hcanonical
    refine .inr ⟨says_of_settles hset hopen rfl, ?_⟩
    rw [hcanonical]
    exact .closed hbegun reply

/-- A session that starts has said nothing yet. It opens a transaction and sends its input, or its
word is over. -/
theorem Starts.word {o : Except Failure Handle} (h : s.Starts c ys ns o c' p) (hidle : c.Idle)
    (hy : ∀ y ∈ ys, y.ordinary = true) :
    (s.inPhase p).Says c' ys ∧ c'.canonical = c.canonical ∨
      (s.inPhase p).Says c' [] ∧
        Word s.isolation s.kind s.payload c.canonical ys c'.canonical := by
  cases h with
  | refused hb =>
    cases hb with
    | closed h => cases hidle.1.symm.trans h
    | busy _ ht =>
      rw [hidle.2] at ht
      cases ht
    | failed _ hm e => exact .inr ⟨.nothing hidle rfl, .unforked hm e⟩
    | interrupted _ _ e he => cases he.symm.trans (hy _ (List.mem_singleton.2 rfl))
  | sent hb =>
    obtain ⟨t, ht, rfl⟩ := Option.map_eq_some_iff.1 hb.working
    obtain ⟨fork, rfl, hw⟩ := hb.opening
    refine .inl ⟨.begun (hb.closed_eq.trans hidle.1) ht rfl ?_, hb.canonical⟩
    rw [hb.canonical, hw]
    exact .sent fork s.kind.reason s.kind.sentWith
  | interrupted _ e he =>
    cases he.symm.trans (hy _ (List.mem_append_right _ (List.mem_singleton.2 rfl)))
  | failed hb e _ hf =>
    obtain ⟨t, ht, rfl⟩ := Option.map_eq_some_iff.1 hb.working
    obtain ⟨fork, rfl, hw⟩ := hb.opening
    obtain ⟨_, _, hset⟩ := hf.settles
    obtain ⟨reply, rfl, hcanonical⟩ := hset.release hb.fits ht
    rw [if_neg (by decide), hb.canonical] at hcanonical
    refine .inr ⟨says_of_settles hset (hb.closed_eq.trans hidle.1) rfl, ?_⟩
    rw [hcanonical, if_neg (by decide), hw]
    exact .unsent fork _ s.kind.sentWith e reply

/-- A break of the machine is one more block of the word, or its end. -/
theorem Judges.word {a : Break} {o : Except Failure Seat.Turn} (hs : s.Says c xs)
    (hp : s.phase = .running w) (hc : c.Fits s.isolation) (hblock : Block w ys (some a))
    (h : Judges s.kind w (readBreak a.reason a.request) c zs ns o c' p) :
    (s.inPhase p).Says c' (xs ++ (ys ++ zs)) ∧ c'.canonical = c.canonical ∨
      (s.inPhase p).Says c' [] ∧
        Word s.isolation s.kind s.payload c.canonical (xs ++ (ys ++ zs)) c'.canonical := by
  obtain ⟨hopen, ⟨t, ht, rfl⟩, hbegun⟩ := hs.of_running hp
  have goes_on (hv : ∀ e, s.kind.verdict (readBreak a.reason a.request) ≠ .stop e) :
      (s.inPhase (.running t.working)).Says c (xs ++ (ys ++ [])) := by
    rw [List.append_nil]
    exact .begun hopen ht rfl (.went hbegun hblock (InputKind.endingAt?_eq_none_of_verdict hv))
  cases h with
  | delivered hv | passed hv | refused hv => exact .inl ⟨goes_on (by rw [hv]; nofun), rfl⟩
  | @ended _ _ ending _ _ hv he =>
    have hending := InputKind.endingAt?_of_verdict hv
    obtain ⟨_, _, hset⟩ := he.settles
    obtain ⟨reply, rfl, hcanonical⟩ := hset.release hc ht
    refine .inr ⟨says_of_settles hset hopen (by cases ending <;> rfl), ?_⟩
    rw [hcanonical, ← List.append_assoc]
    cases hk : ending.keeps s.kind with
    | true =>
      obtain ⟨hkind, root, rfl⟩ := Ending.of_keeps hk
      exact .accepted hbegun hblock hkind hending reply
    | false =>
      refine .ended hbegun hblock hending ?_ reply
      rintro root hkind rfl
      rw [hkind] at hk
      cases hk

/-- What a session goes on to say with a move: more of its word, or the end of it. -/
theorem Moves.word (h : s.Moves c ys ns fs c' p) (hs : s.Says c xs) (hc : c.Fits s.isolation)
    (hy : ∀ y ∈ ys, y.ordinary = true) :
    (s.inPhase p).Says c' (xs ++ ys) ∧ c'.canonical = c.canonical ∨
      (s.inPhase p).Says c' [] ∧
        Word s.isolation s.kind s.payload c.canonical (xs ++ ys) c'.canonical := by
  cases h with
  | start hp h =>
    obtain ⟨hidle, rfl⟩ := hs.of_not_running (by rw [hp]; rfl)
    exact h.word hidle hy
  | turn hp h =>
    cases h with
    | heard hx hj =>
      rcases hx.block with ⟨-, _, ho⟩ | ⟨a, hblock, ho⟩
      · cases ho
      · cases ho
        exact hj.word hs hp hc hblock
    | interrupted hx he =>
      obtain ⟨x, hmem, hraised⟩ := hx.raised
      rw [← Exchange.ordinary_eq hraised, hy x hmem] at he
      cases he
    | failed hx _ hf =>
      rcases hx.block with ⟨hblock, -⟩ | ⟨_, -, ho⟩
      · obtain ⟨hopen, ⟨t, ht, rfl⟩, hbegun⟩ := hs.of_running hp
        obtain ⟨_, _, hset⟩ := hf.settles
        obtain ⟨reply, rfl, hcanonical⟩ := hset.release hc ht
        refine .inr ⟨says_of_settles hset hopen rfl, ?_⟩
        rw [hcanonical, ← List.append_assoc]
        exact .failed hbegun hblock reply
      · cases ho
  | close h | abandon h => exact h.word hs hc

end Session

/-! ## Sends -/

/-- Whether a call hands an input to a machine. -/
def Exchange.isSend : Exchange → Bool
  | .send .. => true
  | _ => false

/-- How often a session has sent its input that has come to a phase: once, if it has begun. -/
inductive Phase.Sent : Nat → Phase → Prop
  | fresh : Sent 0 .start
  | withdrawn : Sent 0 .cancelled
  | begun {p : Phase} (hp : p ≠ .start) : Sent 1 p

namespace Phase.Sent

variable {k : Nat} {p : Phase}

theorem le_one (h : Sent k p) : k ≤ 1 := by
  cases h with
  | fresh | withdrawn => exact Nat.zero_le 1
  | begun => exact Nat.le_refl 1

theorem of_start (h : Sent k p) (hp : p = .start) : k = 0 := by
  cases h with
  | fresh | withdrawn => rfl
  | begun hne => exact absurd hp hne

theorem of_running {w : Handle} (h : Sent k p) (hp : p = .running w) : k = 1 := by
  cases h with
  | fresh | withdrawn => cases hp
  | begun => rfl

end Phase.Sent

theorem countP_isSend_eq_zero {xs : List Exchange}
    (h : ∀ x ∈ xs, ∀ m reason payload reply, x ≠ .send m reason payload reply) :
    xs.countP Exchange.isSend = 0 := by
  refine List.countP_eq_zero.2 fun x hx hsend => ?_
  cases x with
  | send m reason payload reply => exact h _ hx m reason payload reply rfl
  | fork | run | receive | shutdown | store | load => cases hsend

theorem countP_isSend_of_shutdowns {xs : List Exchange}
    (h : ∀ x ∈ xs, ∃ m reply, x = .shutdown m reply) : xs.countP Exchange.isSend = 0 := by
  refine countP_isSend_eq_zero fun x hx => ?_
  obtain ⟨_, _, rfl⟩ := h x hx
  nofun

namespace Session

variable {s : Session} {c c' : Controller} {p : Phase} {xs : List Exchange} {ns : List Notice}
  {fs : List Failure} {k : Nat}

theorem Starts.sends {o : Except Failure Handle} (h : s.Starts c xs ns o c' p) :
    p.Sent (xs.countP Exchange.isSend) := by
  have opening {mode : Isolation} {ys : List Exchange} {ms : List Notice}
      {o : Except Failure Handle} {c' : Controller} (hb : c.Begins mode ys ms o c') :
      ys.countP Exchange.isSend = 0 := by
    refine countP_isSend_eq_zero fun x hx => ?_
    obtain ⟨-, _, rfl⟩ := hb.mem hx
    nofun
  cases h with
  | refused hb =>
    rw [opening hb]
    exact .fresh
  | sent hb | interrupted hb =>
    rw [List.countP_append, opening hb]
    exact .begun nofun
  | failed hb _ _ hf =>
    have hrest := countP_isSend_of_shutdowns fun x hx => hf.mem hx
    rw [List.countP_append, opening hb, List.countP_cons, hrest]
    exact .begun nofun

/-- Once a session runs, it sends nothing, and it does not go back to its start. -/
theorem Turns.sends {kind : InputKind} {w : Handle} {o : Except Failure Seat.Turn}
    (h : Turns kind w c xs ns o c' p) : xs.countP Exchange.isSend = 0 ∧ p ≠ .start := by
  have heard {ys : List Exchange} {o : Except Failure Reading} (hx : Hears w ys o) :
      ys.countP Exchange.isSend = 0 := by
    refine countP_isSend_eq_zero fun x hmem => ?_
    rcases hx.mem hmem with ⟨_, rfl⟩ | ⟨_, rfl⟩ <;> nofun
  cases h with
  | heard hx hj =>
    rw [List.countP_append, heard hx, countP_isSend_of_shutdowns fun x hx => hj.mem hx]
    refine ⟨rfl, ?_⟩
    cases hj with
    | delivered | passed | refused => nofun
    | ended => cases ‹Ending› <;> nofun
  | interrupted hx => exact ⟨heard hx, nofun⟩
  | failed hx _ hf =>
    rw [List.countP_append, heard hx, countP_isSend_of_shutdowns fun x hx => hf.mem hx]
    exact ⟨rfl, nofun⟩

/-- A move sends the input of a session when it begins, and never again. -/
theorem Moves.sends (h : s.Moves c xs ns fs c' p) (hs : s.phase.Sent k) :
    p.Sent (k + xs.countP Exchange.isSend) := by
  have closes {o : Except Failure Unit} {ns : List Notice} (hclose : s.Closes c xs ns o c' p) :
      p.Sent (k + xs.countP Exchange.isSend) := by
    rw [countP_isSend_of_shutdowns fun x hx => hclose.mem hx, Nat.add_zero]
    cases hclose with
    | fresh hp =>
      rw [hs.of_start hp]
      exact .withdrawn
    | done => exact hs
    | running hp =>
      rw [hs.of_running hp]
      exact .begun nofun
  cases h with
  | start hp h =>
    rw [hs.of_start hp, Nat.zero_add]
    exact h.sends
  | turn hp h =>
    obtain ⟨hnone, hp'⟩ := h.sends
    rw [hs.of_running hp, hnone]
    exact .begun hp'
  | close h | abandon h => exact closes h

end Session

/-- On a path, a session sends its input if it begins, and never again. -/
theorem Seat.Path.sends {b : Backend W} {s s' : Seat W} {xs : List Exchange} {ns : List Notice}
    {fs : List Failure} {k : Nat} (h : Path b s xs ns fs s') (hs : s.session.phase.Sent k) :
    s'.session.phase.Sent (k + xs.countP Exchange.isSend) := by
  induction h generalizing k with
  | refl => exact hs
  | step head _ ih =>
    rw [List.countP_append, ← Nat.add_assoc]
    exact ih (head.moves.sends hs)

end RollupEngine

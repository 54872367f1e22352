import RollupEngine.Proofs.Engine

/-!
# The transaction and its session

A controller does not know which session its transaction belongs to: it closes the one that is
open. The invariant that makes this right is `Seat.Linked` for one session: the open transaction is
the session's own, or it is `foreign` and the session does not run. Every move keeps it
(`Seat.Move.linked`), and `Session.Moves.transaction_cases` is all that a move can do to the
transaction. So the sessions of a room stay linked together (`Room.Linked`), in every room that an
engine comes to (`EngineOp.run_linked`).
-/

namespace RollupEngine

variable {W : Type}

/-! ## The controller -/

namespace Controller

variable {mode : Isolation} {c c' : Controller} {xs : List Exchange} {ns : List Notice}

/-- A closed controller has no transaction, and an open one is made as its mode says. -/
structure Fits (mode : Isolation) (c : Controller) : Prop where
  closed : c.closed = true → c.transaction = none
  isolated : ∀ w k, c.transaction = some (.isolated w k) → mode = .isolated ∧ k = c.canonical
  direct : ∀ w, c.transaction = some (.direct w) → mode = .direct ∧ w = c.canonical

theorem Fits.of_transaction_eq_none (h : c.transaction = none) : c.Fits mode where
  closed _ := h
  isolated w k hw := by simp [h] at hw
  direct w hw := by simp [h] at hw

theorem Begins.idle {w : Handle} (h : c.Begins mode xs ns (.ok w) c') : c.Idle := by
  cases h with
  | direct h | isolated h => exact h

theorem Begins.closed_eq {o : Except Failure Handle} (h : c.Begins mode xs ns o c') :
    c'.closed = c.closed := by
  cases h with
  | closed | busy | direct | isolated | failed | interrupted => rfl

theorem Begins.fits {w : Handle} (h : c.Begins mode xs ns (.ok w) c') : c'.Fits mode := by
  have hopen : ¬c'.closed = true := by
    rw [h.closed_eq, h.idle.1]
    decide
  cases h with
  | direct _ hm =>
    refine ⟨fun hc => absurd hc hopen, nofun, ?_⟩
    rintro w ⟨⟩
    exact ⟨hm, rfl⟩
  | isolated _ hm =>
    refine ⟨fun hc => absurd hc hopen, ?_, nofun⟩
    rintro w k ⟨⟩
    exact ⟨hm, rfl⟩

/-- The transaction works on the machine that opening it replied. -/
theorem Begins.working {w : Handle} (h : c.Begins mode xs ns (.ok w) c') :
    c'.transaction.map Transaction.working = some w := by
  cases h with
  | direct | isolated => rfl

theorem Begins.opens {w : Handle} (h : c.Begins mode xs ns (.ok w) c') : c'.transaction ≠ none := by
  cases h with
  | direct | isolated => nofun

/-- The fork that a transaction works on is made when it is opened. -/
theorem Begins.forked {o : Except Failure Handle} (h : c.Begins mode xs ns o c')
    (hc : c.transaction = none)
    {w k : Handle} (hw : c'.transaction = some (.isolated w k)) : .fork k (.ok w) ∈ xs := by
  cases h with
  | isolated => cases hw; exact List.mem_singleton.2 rfl
  | direct => cases hw
  | closed | busy | failed | interrupted => simp [hc] at hw

theorem Begins.eq_of_error {f : Failure} (h : c.Begins mode xs ns (.error f) c') : c' = c := by
  cases h with
  | closed | busy | failed | interrupted => rfl

/-- However a transaction is closed, it is closed. -/
theorem Settles.transaction {keeps : Bool} {o : Except Failure Unit}
    (h : c.Settles keeps xs ns o c') : c'.transaction = none := by
  cases h with
  | absent h => exact h
  | direct | promoted | discarded => rfl

theorem Settles.closed {keeps : Bool} {o : Except Failure Unit}
    (h : c.Settles keeps xs ns o c') : c'.closed = c.closed := by
  cases h with
  | absent | direct | promoted | discarded => rfl

end Controller

/-! ## One session -/

namespace Session

variable {s : Session} {kind : InputKind} {c c' : Controller} {p : Phase} {xs : List Exchange}
  {ns : List Notice} {fs : List Failure}

/-- The controller `c'` is `c` after its transaction was closed. -/
def Leaves (c c' : Controller) : Prop :=
  c'.closed = c.closed ∧ c'.transaction = none

theorem Ends.leaves {ending : Ending} {o : Except Failure Seat.Turn}
    (h : Ends kind ending c xs ns o c') : Leaves c c' := by
  cases h with
  | settled h | unsettled h => exact ⟨h.closed, h.transaction⟩

theorem Fails.leaves {e : Error} {f : Failure} (h : Fails kind e c xs ns f c') : Leaves c c' := by
  cases h with
  | rolledBack h => exact ⟨h.closed, h.transaction⟩

/-- What a move does to the transaction: nothing, open it, or close what the session opened. -/
theorem Moves.transaction_cases (h : s.Moves c xs ns fs c' p) :
    c' = c ∧ p.working? = s.phase.working? ∨
      (s.phase = .start ∧ ∃ w ys ms, c.Begins s.isolation ys ms (.ok w) c' ∧ ys ⊆ xs ∧
        p = .running w) ∨
      (Leaves c c' ∧ p.working? = none ∧
        (c.transaction = none ∨ ∃ w, s.phase = .running w)) := by
  have closes {o : Except Failure Unit} {ns : List Notice} (h : s.Closes c xs ns o c' p) :
      c' = c ∧ p.working? = s.phase.working? ∨
        (Leaves c c' ∧ p.working? = none ∧ (c.transaction = none ∨ ∃ w, s.phase = .running w)) := by
    cases h with
    | fresh hp => exact .inl ⟨rfl, by rw [hp]; rfl⟩
    | done => exact .inl ⟨rfl, rfl⟩
    | running hp hs => exact .inr ⟨⟨hs.closed, hs.transaction⟩, rfl, .inr ⟨_, hp⟩⟩
  cases h with
  | start hp h =>
    cases h with
    | refused hb => exact .inl ⟨hb.eq_of_error, by rw [hp]⟩
    | sent hb | interrupted hb =>
      exact .inr (.inl ⟨hp, _, _, _, hb, List.subset_append_left .., rfl⟩)
    | failed hb e he hf =>
      have hc := hb.closed_eq
      exact .inr (.inr ⟨⟨hf.leaves.1.trans hc, hf.leaves.2⟩, rfl, .inl hb.idle.2⟩)
  | turn hp h =>
    cases h with
    | heard _ hj =>
      cases hj with
      | delivered | passed | refused => exact .inl ⟨rfl, by rw [hp]⟩
      | ended _ he => exact .inr (.inr ⟨he.leaves, by cases ‹Ending› <;> rfl, .inr ⟨_, hp⟩⟩)
    | interrupted => exact .inl ⟨rfl, by rw [hp]⟩
    | failed _ _ hf => exact .inr (.inr ⟨hf.leaves, rfl, .inr ⟨_, hp⟩⟩)
  | close h | abandon h => exact (closes h).imp_right .inr

end Session

/-- The open transaction is the session's own, or it is `foreign` and the session does not run. Its
fork is among the calls `own`. -/
structure Seat.Linked (foreign : Option Transaction) (own : List Exchange) (s : Seat W) :
    Prop where
  fits : s.controller.Fits s.session.isolation
  link : foreign = none ∧
      s.controller.transaction.map Transaction.working = s.session.phase.working? ∨
    s.controller.transaction = foreign ∧ s.session.phase.working? = none
  forked : ∀ w k, s.controller.transaction = some (.isolated w k) → .fork k (.ok w) ∈ own

namespace Seat

variable {b : Backend W} {s s' : Seat W} {xs own : List Exchange} {ns : List Notice}
  {fs : List Failure} {foreign : Option Transaction}

theorem Linked.foreign_eq_none (h : s.Linked foreign own) (ht : s.controller.transaction = none) :
    foreign = none :=
  h.link.elim And.left fun h => h.1.symm.trans ht

theorem Linked.of_running {w : Handle} (h : s.Linked foreign own)
    (hp : s.session.phase = .running w) :
    foreign = none ∧ ∃ t, s.controller.transaction = some t ∧ t.working = w := by
  rcases h.link with ⟨hf, hlink⟩ | ⟨-, hnone⟩
  · rw [hp] at hlink
    exact ⟨hf, Option.map_eq_some_iff.1 hlink⟩
  · rw [hp] at hnone
    cases hnone

/-- A session that does not run leaves the transaction to others. -/
theorem Linked.of_not_running (h : s.Linked foreign own) (hp : s.session.phase.working? = none) :
    s.controller.transaction = foreign := by
  rcases h.link with ⟨hf, hlink⟩ | ⟨ht, -⟩
  · rw [hp] at hlink
    rw [hf, Option.map_eq_none_iff.1 hlink]
  · exact ht

theorem Move.linked (h : Move b s xs ns fs s') (hs : s.Linked foreign own) :
    s'.Linked foreign (own ++ xs) := by
  have hisolation : s'.session.isolation = s.session.isolation := by rw [h.session]; rfl
  rcases h.moves.transaction_cases with
    ⟨hc, hp⟩ | ⟨hp, w, ys, ms, hb, hsub, hp'⟩ | ⟨hleaves, hp', hfrom⟩
  · refine ⟨by rw [hc, hisolation]; exact hs.fits, by rw [hc, hp]; exact hs.link, ?_⟩
    intro w k hw
    rw [hc] at hw
    exact List.mem_append_left _ (hs.forked w k hw)
  · refine ⟨by rw [hisolation]; exact hb.fits, .inl ⟨hs.foreign_eq_none hb.idle.2, ?_⟩, ?_⟩
    · rw [hb.working, hp']
      rfl
    · intro w k hw
      exact List.mem_append_right _ (hsub (hb.forked hb.idle.2 hw))
  · have hforeign : foreign = none :=
      hfrom.elim hs.foreign_eq_none fun ⟨_, hp⟩ => (hs.of_running hp).1
    refine ⟨.of_transaction_eq_none hleaves.2, .inl ⟨hforeign, by rw [hleaves.2, hp']; rfl⟩, ?_⟩
    intro w k hw
    rw [hleaves.2] at hw
    cases hw

theorem Path.linked (h : Path b s xs ns fs s') (hs : s.Linked foreign own) :
    s'.Linked foreign (own ++ xs) := by
  induction h generalizing own with
  | refl => simpa using hs
  | step head _ ih =>
    rw [← List.append_assoc]
    exact ih (head.linked hs)

end Seat

/-! ## All sessions of a room -/

namespace Room

variable {mode : Isolation} {r r' : Room W} {own own' : List Exchange}

/-- The machine that a session of the room works on. -/
def working? (r : Room W) (number : Nat) : Option Handle :=
  (r.session? number).bind (·.phase.working?)

theorem working?_eq {n : Nat} {session : Session} (h : r.session? n = some session) :
    r.working? n = session.phase.working? := by
  rw [working?, h]
  rfl

/-- The transaction belongs to the one session that runs. Its fork is among the calls `own`. -/
structure Linked (mode : Isolation) (own : List Exchange) (r : Room W) : Prop where
  isolation : ∀ n session, r.session? n = some session → session.isolation = mode
  fits : r.controller.Fits mode
  forked : ∀ w k, r.controller.transaction = some (.isolated w k) → .fork k (.ok w) ∈ own
  holder : ∀ t, r.controller.transaction = some t → ∃ n, r.working? n = some t.working
  held : ∀ n w, r.working? n = some w → r.controller.transaction.map Transaction.working = some w
  unique : ∀ n m v w, r.working? n = some v → r.working? m = some w → n = m

theorem opening_linked (mode : Isolation) (machine : Handle) (s : Site W) :
    (opening machine s).Linked mode [] where
  isolation n session h := by simp [opening, session?] at h
  fits := .of_transaction_eq_none rfl
  forked := nofun
  holder := nofun
  held n w h := by simp [opening, working?, session?] at h
  unique n m v w h := by simp [opening, working?, session?] at h

/-- What the transaction is to a session of the room: its own, or foreign. -/
def foreign (r : Room W) (number : Nat) : Option Transaction :=
  match r.working? number with
  | some _ => none
  | none => r.controller.transaction

namespace Linked

variable {n : Nat} {session : Session}

theorem seat (h : r.Linked mode own) (hs : r.session? n = some session) :
    Seat.Linked (r.foreign n) own ⟨r.toDesk, session⟩ where
  fits := by
    rw [h.isolation n session hs]
    exact h.fits
  link := by
    have hworking := working?_eq hs
    cases hw : r.working? n with
    | none => exact .inr ⟨by rw [foreign, hw], hworking.symm.trans hw⟩
    | some w => exact .inl ⟨by rw [foreign, hw], (h.held n w hw).trans (hw.symm.trans hworking)⟩
  forked := h.forked

/-- A session that is new has no part in the transaction. -/
theorem fresh (h : r.Linked mode own) (hm : session.isolation = mode)
    (hp : session.phase = .start) :
    Seat.Linked r.controller.transaction own ⟨r.toDesk, session⟩ where
  fits := by
    rw [hm]
    exact h.fits
  link := .inr ⟨rfl, by rw [hp]; rfl⟩
  forked := h.forked

/-- The transaction is foreign to every session but the one that runs. -/
theorem foreign_of_ne (h : r.Linked mode own) {m : Nat} {w : Handle} (hm : r.working? m = some w)
    (hn : m ≠ n) : r.foreign n = r.controller.transaction := by
  cases hw : r.working? n with
  | none => rw [foreign, hw]
  | some v => exact absurd (h.unique m n w v hm hw) hn

theorem foreign_ne_none (h : r.Linked mode own) {m : Nat} {w : Handle} (hm : r.working? m = some w)
    (hn : m ≠ n) : r.foreign n ≠ none := by
  rw [h.foreign_of_ne hm hn]
  intro hnone
  have hheld := h.held m w hm
  rw [hnone] at hheld
  cases hheld

/-- No session runs unless there is a transaction. -/
theorem working?_eq_none (h : r.Linked mode own) (ht : r.controller.transaction = none) (n : Nat) :
    r.working? n = none := by
  cases hw : r.working? n with
  | none => rfl
  | some w =>
    have hheld := h.held n w hw
    rw [ht] at hheld
    cases hheld

/-- A session that moves among others leaves all of them linked. -/
theorem move (h : r.Linked mode own) {s : Seat W} (hs : r.session? n = some session)
    (hlinked : s.Linked (r.foreign n) own') (hdesk : r'.toDesk = s.toDesk)
    (hisolation : s.session.isolation = mode)
    (hn : r'.session? n = some s.session ∨ r'.session? n = none ∧ s.session.phase.working? = none)
    (hothers : ∀ m, m ≠ n → r'.session? m = r.session? m) : r'.Linked mode own' := by
  have hworking : r'.working? n = s.session.phase.working? := by
    rcases hn with hn | ⟨hn, hp⟩
    · exact working?_eq hn
    · rw [working?, hn, hp]
      rfl
  have hsame (m : Nat) (hm : m ≠ n) : r'.working? m = r.working? m := by
    rw [working?, hothers m hm, working?]
  -- a session that runs beside the moving one holds the transaction
  have hforeign {m : Nat} {w : Handle} (hm : m ≠ n) (hw : r'.working? m = some w) :
      s.controller.transaction = r.controller.transaction ∧ s.session.phase.working? = none := by
    rw [hsame m hm] at hw
    rcases hlinked.link with ⟨hnone, -⟩ | ⟨ht, hp⟩
    · exact absurd hnone (h.foreign_ne_none hw hm)
    · exact ⟨ht.trans (h.foreign_of_ne hw hm), hp⟩
  refine
    { isolation := ?isolation, fits := ?fits, forked := ?forked, holder := ?holder, held := ?held,
      unique := ?unique }
  case isolation =>
    intro m t hm
    by_cases hmn : m = n
    · subst hmn
      rcases hn with hn | ⟨hn, -⟩
      · cases hn.symm.trans hm
        exact hisolation
      · cases hn.symm.trans hm
    · rw [hothers m hmn] at hm
      exact h.isolation m t hm
  case fits =>
    rw [hdesk, ← hisolation]
    exact hlinked.fits
  case forked =>
    rw [hdesk]
    exact hlinked.forked
  case holder =>
    intro t ht
    rw [hdesk] at ht
    rcases hlinked.link with ⟨-, hown⟩ | ⟨ht', -⟩
    · refine ⟨n, ?_⟩
      rw [hworking, ← hown, ht]
      rfl
    · cases hw : r.working? n with
      | some w => simp [foreign, hw, ht] at ht'
      | none =>
        rw [ht, foreign, hw] at ht'
        obtain ⟨m, hm⟩ := h.holder t ht'.symm
        have hmn : m ≠ n := by rintro rfl; simp [hw] at hm
        exact ⟨m, (hsame m hmn).trans hm⟩
  case held =>
    intro m w hm
    rw [hdesk]
    by_cases hmn : m = n
    · rw [hmn, hworking] at hm
      rcases hlinked.link with ⟨-, hown⟩ | ⟨-, hnone⟩
      · exact hown.trans hm
      · simp [hnone] at hm
    · rw [(hforeign hmn hm).1]
      exact h.held m w ((hsame m hmn).symm.trans hm)
  case unique =>
    intro m k v w hm hk
    by_cases hmn : m = n <;> by_cases hkn : k = n
    · rw [hmn, hkn]
    · rw [hmn, hworking, (hforeign hkn hk).2] at hm
      cases hm
    · rw [hkn, hworking, (hforeign hmn hm).2] at hk
      cases hk
    · rw [hsame m hmn] at hm
      rw [hsame k hkn] at hk
      exact h.unique m k v w hm hk

/-- Rooms in which the same sessions run are linked together. -/
theorem of_working?_eq (h : r.Linked mode own)
    (hisolation : ∀ n session, r'.session? n = some session → session.isolation = mode)
    (hfits : r'.controller.Fits mode)
    (ht : r'.controller.transaction = r.controller.transaction) (hcalls : own ⊆ own')
    (hworking : ∀ n, r'.working? n = r.working? n) : r'.Linked mode own' where
  isolation := hisolation
  fits := hfits
  forked w k hw := hcalls (h.forked w k (ht.symm.trans hw))
  holder t h' := by
    obtain ⟨n, hn⟩ := h.holder t (ht.symm.trans h')
    exact ⟨n, (hworking n).trans hn⟩
  held n w hw := by
    rw [ht]
    exact h.held n w ((hworking n).symm.trans hw)
  unique n m v w hn hm := h.unique n m v w ((hworking n).symm.trans hn) ((hworking m).symm.trans hm)

end Linked

/-- The number of a session that is there. -/
theorem lt_length {n : Nat} {session : Session} (h : r.session? n = some session) :
    n < r.sessions.length := by
  refine Nat.lt_of_not_le fun hn => ?_
  rw [session?, List.getElem?_eq_none hn] at h
  cases h

/-- A new session stands after the others. -/
theorem session?_append {n : Nat} {session : Session} :
    ({ r with sessions := r.sessions ++ [some session] } : Room W).session? n =
      if n = r.sessions.length then some session else r.session? n := by
  unfold session?
  split
  · next h => simp [h]
  · next h =>
    rcases Nat.lt_or_ge n r.sessions.length with hn | hn
    · rw [List.getElem?_append_left hn]
    · rw [List.getElem?_eq_none (by simp; omega), List.getElem?_eq_none hn]

/-- A session is put in its place, and the others keep theirs. -/
theorem session?_set {n m : Nat} {session : Session} {d : Desk W} {place : Option Session}
    (h : r.session? n = some session) :
    ({ toDesk := d, sessions := r.sessions.set n place } : Room W).session? m =
      if m = n then place else r.session? m := by
  have hn := lt_length h
  unfold session?
  rw [List.getElem?_set]
  by_cases hm : m = n
  · simp [hm, hn]
  · simp [hm, Ne.symm hm]

/-- To put a session back in its place changes nothing. -/
theorem sessions_set_self {n : Nat} {session : Session} (h : r.session? n = some session) :
    r.sessions.set n (some session) = r.sessions := by
  obtain ⟨hlt, hget⟩ := List.getElem?_eq_some_iff.1 (Option.join_eq_some_iff.1 h)
  rw [← hget, List.set_getElem_self]

end Room

namespace EngineOp

variable {b : Backend W} {config : EngineConfig} {op : EngineOp} {r r' : Room W}
  {xs own : List Exchange} {ns : List Notice} {fs : List Failure}

/-- Every operation on an engine leaves its sessions linked. -/
theorem Does.linked (h : Does b config r op xs ns fs r') (hr : r.Linked config.isolation own) :
    r'.Linked config.isolation (own ++ xs) := by
  have hcalls : own ⊆ own ++ xs := List.subset_append_left ..
  cases h with
  | closed | notBytes | absent => simpa using hr
  | @opened kind payload =>
    have hsame (n : Nat) : Room.working?
        { r with sessions := r.sessions ++ [some (config.session kind payload)] } n =
          r.working? n := by
      rw [Room.working?, Room.session?_append]
      split
      · next hn =>
        rw [Room.working?, Room.session?, hn, List.getElem?_eq_none (Nat.le_refl _)]
        rfl
      · rfl
    refine hr.of_working?_eq ?_ hr.fits rfl hcalls hsame
    intro n session hn
    rw [Room.session?_append] at hn
    split at hn
    · cases hn
      rfl
    · exact hr.isolation n session hn
  | collected _ _ _ path hs =>
    have hlinked := path.linked (hr.fresh rfl rfl)
    have hisolation := path.session
    refine hr.of_working?_eq hr.isolation ?_ (hlinked.of_not_running hs) hcalls fun _ => rfl
    have hfits := hlinked.fits
    rw [hisolation] at hfits
    exact hfits
  | @walked n sop session _ _ _ s hn _ path hs =>
    refine hr.move hn (path.linked (hr.seat hn)) rfl ?_ ?_ ?_
    · rw [path.session]
      exact hr.isolation n session hn
    · rw [Room.session?_set hn, if_pos rfl]
      cases hop : sop.keeps with
      | true => exact .inl rfl
      | false => exact .inr ⟨rfl, hs hop⟩
    · intro m hm
      rw [Room.session?_set hn, if_neg hm]
  | stored h hd =>
    exact hr.of_working?_eq hr.isolation (by rw [hd]; exact hr.fits) (by rw [hd]) hcalls
      fun _ => rfl
  | @shutDown _ _ _ d h =>
    have hkeeps : d.controller.transaction = r.controller.transaction ∧
        d.controller.Fits config.isolation := by
      generalize d.controller = c at h
      cases h with
      | closed | busy => exact ⟨rfl, hr.fits⟩
      | released h | failed h => exact ⟨rfl, .of_transaction_eq_none h.2⟩
    exact hr.of_working?_eq hr.isolation hkeeps.2 hkeeps.1 hcalls fun _ => rfl

/-- In every room that an engine comes to, the transaction belongs to the one session that runs. -/
theorem run_linked (b : Backend W) (config : EngineConfig) (machine : Handle) (s : Site W)
    (ops : List EngineOp) :
    ∃ own ns, s.Follows b own ns (run b config ops (.opening machine s)).toSite ∧
      (run b config ops (.opening machine s)).Linked config.isolation own :=
  run_record (fun _ h hr => h.linked hr) ops (Room.opening_linked _ machine s)

end EngineOp

end RollupEngine

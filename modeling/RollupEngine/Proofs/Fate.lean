import RollupEngine.Proofs.Lifecycle

/-!
# What ends a session, and what comes of it

A session whose transaction is closed has met its `Fate`: its machine failed, a break ended its
input, or it was closed early. Which one it was can be read off the calls (`InputKind.fate`).
`Session.Quits` says, for each fate, how the transaction is then closed, what is raised, and the
phase in which the session is left.

An operation either brings a session to its end or it does not: `Seat.Course.departs_or_stays` sorts
its course into one that does (`Session.Departs`) and one that does not (`Session.Stays`), where
every move but the last one stays.
-/

namespace RollupEngine

variable {W : Type}

/-! ## Fates -/

/-- What brings a session to its end. -/
inductive Fate where
  /-- An error of its machine. -/
  | failed (error : Error)
  /-- A break that ends its input. -/
  | ended (ending : Ending)
  /-- Neither: it is closed before its input is done. -/
  | closed

namespace Exchange

/-- The error with which a machine fails at its work, which is no interrupt. -/
def breakdown? : Exchange → Option Error
  | .send _ _ _ (.error e) | .run _ (.error e) | .receive _ (.error e) =>
    if e.ordinary then some e else none
  | _ => none

/-- Whether a call is to release a machine. -/
def isRelease : Exchange → Bool
  | .shutdown .. => true
  | _ => false

theorem eq_shutdown_of_isRelease {x : Exchange} {e : Error} (h : x.isRelease = true)
    (he : x.error? = some e) : ∃ m, x = .shutdown m (.error e) := by
  cases x with
  | shutdown m reply =>
    cases reply with
    | ok => cases he
    | error e' => exact ⟨m, by rw [Option.some.inj he]⟩
  | fork | send | run | receive | store | load => cases h

end Exchange

/-- A failure that leaves a session as it is: an interrupt, or that of a code that cannot be
written. -/
def Failure.Suspends (f : Failure) : Prop :=
  f.ordinary = false ∨ f = .unwritable

/-- A fatal error leaves no session as it is. -/
theorem Failure.not_suspends_fatalFrom (text : String) (details : Mapping) (e : Error) :
    ¬(fatalFrom text details e).Suspends := by
  rintro (h | h) <;> cases h

/-- A failure to close a transaction is reported as such. -/
theorem Failure.mapError_closing (f : Failure) :
    (.error f : Except Failure Unit).mapError closing = .error f.closing := rfl

/-- The fate of a session in calls. -/
def InputKind.fate (kind : InputKind) (xs : List Exchange) : Fate :=
  match xs.findSome? Exchange.breakdown? with
  | some e => .failed e
  | none =>
    match kind.ending? (Exchange.breaks xs) with
    | some e => .ended e
    | none => .closed

section

variable {kind : InputKind} {xs ys : List Exchange}

theorem InputKind.fate_of_breakdown {e : Error} (h : xs.findSome? Exchange.breakdown? = some e) :
    kind.fate xs = .failed e := by
  rw [fate, h]

theorem InputKind.fate_of_ending {e : Ending} (h : xs.findSome? Exchange.breakdown? = none)
    (he : kind.ending? (Exchange.breaks xs) = some e) : kind.fate xs = .ended e := by
  rw [fate, h]
  simp only [he]

theorem InputKind.fate_eq_closed (h : xs.findSome? Exchange.breakdown? = none)
    (he : kind.ending? (Exchange.breaks xs) = none) : kind.fate xs = .closed := by
  rw [fate, h]
  simp only [he]

theorem InputKind.of_fate_closed (h : kind.fate xs = .closed) :
    xs.findSome? Exchange.breakdown? = none ∧ kind.ending? (Exchange.breaks xs) = none := by
  unfold fate at h
  split at h
  · cases h
  · next hnone =>
    split at h
    · cases h
    · next he => exact ⟨hnone, he⟩

theorem InputKind.of_fate_ended {e : Ending} (h : kind.fate xs = .ended e) :
    kind.ending? (Exchange.breaks xs) = some e := by
  unfold fate at h
  split at h
  · cases h
  · split at h
    · next he =>
      cases h
      exact he
    · cases h

/-- Calls that end nothing leave the fate to those that follow. -/
theorem InputKind.fate_append (h : kind.fate xs = .closed)
    (hy : ys.head?.bind Exchange.request? = none) : kind.fate (xs ++ ys) = kind.fate ys := by
  obtain ⟨hx, he⟩ := of_fate_closed h
  rw [ending?] at he
  rw [fate, fate, List.findSome?_append, hx, Option.none_or, Exchange.breaks_append hy, ending?,
    ending?, List.findSome?_append, he, Option.none_or]

/-- Calls that put no machine to work decide no fate. -/
theorem InputKind.fate_of_idle (h : ∀ x ∈ xs, x.breakdown? = none)
    (hrun : ∀ x ∈ xs, ∀ m reply, x ≠ .run m reply) : kind.fate xs = .closed := by
  refine fate_eq_closed (List.findSome?_eq_none_iff.2 h) ?_
  rw [Exchange.breaks_eq_nil hrun]
  rfl

end

theorem Controller.Begins.fate {mode : Isolation} {c c' : Controller} {xs : List Exchange}
    {ns : List Notice} {o : Except Failure Handle} (h : c.Begins mode xs ns o c')
    (kind : InputKind) : kind.fate xs = .closed := by
  refine InputKind.fate_of_idle (fun x hx => ?_) fun x hx => ?_ <;>
    obtain ⟨-, reply, rfl⟩ := h.mem hx
  · cases reply <;> rfl
  · nofun

theorem Controller.Settles.fate {keeps : Bool} {c c' : Controller} {xs : List Exchange}
    {ns : List Notice} {o : Except Failure Unit} (h : c.Settles keeps xs ns o c')
    (kind : InputKind) : kind.fate xs = .closed := by
  refine InputKind.fate_of_idle (fun x hx => ?_) fun x hx => ?_ <;>
    obtain ⟨_, _, rfl⟩ := h.mem hx
  · rfl
  · nofun

/-- Whatever is released, the fate of a session stays what it was. -/
theorem InputKind.fate_append_releases {kind : InputKind} {xs ys : List Exchange}
    (h : ∀ y ∈ ys, ∃ m reply, y = .shutdown m reply) : kind.fate (xs ++ ys) = kind.fate xs := by
  have hquiet : ys.findSome? Exchange.breakdown? = none := by
    refine List.findSome?_eq_none_iff.2 fun y hy => ?_
    obtain ⟨_, _, rfl⟩ := h y hy
    rfl
  rw [fate, fate, List.findSome?_append, hquiet, Option.or_none,
    Exchange.breaks_append (Exchange.head?_of_shutdowns h), Exchange.breaks_of_shutdowns h,
    List.append_nil]

/-! ## Hearing a machine -/

namespace Hears

variable {w : Handle} {xs : List Exchange} {kind : InputKind}

/-- A machine that fails at its work decides the fate of its session. -/
theorem fate_of_error {e : Error} (h : Hears w xs (.error { error := e })) (kind : InputKind) :
    kind.fate xs = if e.ordinary then .failed e else .closed := by
  cases he : e.ordinary with
  | true =>
    refine InputKind.fate_of_breakdown ?_
    cases h with
    | stopped | silent => simp [List.findSome?_cons, Exchange.breakdown?, he]
  | false =>
    refine InputKind.fate_eq_closed ?_ ?_
    · cases h with
      | stopped | silent => simp [List.findSome?_cons, Exchange.breakdown?, he]
    · rcases h.breaks with ⟨hnil, -⟩ | ⟨_, -, ho⟩
      · rw [hnil]
        rfl
      · cases ho

/-- A break decides the fate of a session if it ends the input. -/
theorem fate_of_ok {r : Reading} (h : Hears w xs (.ok r)) (kind : InputKind) :
    kind.fate xs = match kind.verdict r with
      | .stop ending => .ended ending
      | _ => .closed := by
  have hquiet : xs.findSome? Exchange.breakdown? = none := by cases h <;> rfl
  rcases h.breaks with ⟨-, _, ho⟩ | ⟨a, ha, ho⟩
  · cases ho
  cases ho
  split
  · next ending hv =>
    refine InputKind.fate_of_ending hquiet ?_
    rw [ha]
    exact InputKind.ending?_cons_of_ending [] (InputKind.endingAt?_of_verdict hv)
  · next hv =>
    refine InputKind.fate_eq_closed hquiet ?_
    rw [ha, InputKind.ending?_cons [] (InputKind.endingAt?_eq_none_of_verdict hv)]
    rfl

end Hears

/-! ## Ends -/

namespace Session

/-- How a session is brought to its end by its fate: the transaction is closed with these calls and
notices, and this is raised. -/
inductive Quits (kind : InputKind) (c : Controller) :
    Fate → List Exchange → List Notice → Option Failure → Controller → Phase → Prop
  | failed {xs : List Exchange} {ns : List Notice} {o : Except Failure Unit} {c' : Controller}
      (e : Error) (h : c.Settles false xs ns o c') :
    Quits kind c (.failed e) xs ns (some (.ofMachine e (o.mapError .closing))) c' .fatal
  | ended {xs : List Exchange} {ns : List Notice} {o : Except Failure Unit} {c' : Controller}
      (ending : Ending) (h : c.Settles (ending.keeps kind) xs ns o c') :
    Quits kind c (.ended ending) xs ns ((failed? (o.mapError .closing)).or ending.failure?) c'
      ending.phase
  | closed {xs : List Exchange} {ns : List Notice} {o : Except Failure Unit} {c' : Controller}
      (h : c.Settles false xs ns o c') :
    Quits kind c .closed xs ns (failed? (o.mapError .closing)) c' .cancelled

/-- How a session stands that has not come to its end: as it was, started, or withdrawn. -/
inductive Stands (s : Session) (c : Controller) : Controller → Phase → Prop
  | same : Stands s c c s.phase
  | opened {xs : List Exchange} {ns : List Notice} {w : Handle} {c' : Controller}
      (hp : s.phase = .start) (h : c.Begins s.isolation xs ns (.ok w) c') :
    Stands s c c' (.running w)
  | withdrawn (hp : s.phase = .start) : Stands s c c .cancelled

/-- What comes to pass in moves that bring a session to its end: the transaction `d` is closed with
the calls `ys`. -/
inductive Departs (s : Session) (c : Controller) (xs : List Exchange) (ns : List Notice)
    (told : Option Failure) (c' : Controller) (p : Phase) : Prop
  | intro {d : Controller} {w : Handle} {ys : List Exchange} {ks : List Notice}
      {quit pending : Option Failure} (stands : s.Stands c d (.running w))
      (quits : Quits s.kind d (s.kind.fate xs) ys ks quit c' p)
      (releases : xs.filter Exchange.isRelease = ys)
      (notices : .rolledBack .isolated ∈ ns → .rolledBack .isolated ∈ ks)
      (raised : ∀ x ∈ xs, ∀ e, x.error? = some e → e.ordinary = true →
        x ∈ ys ∨ s.kind.fate xs = .failed e)
      (told : told = quit.or pending)
      (pending : ∀ f, pending = some f → f.Suspends ∧ s.kind.fate xs = .closed)

/-- What comes to pass in moves that do not bring a session to its end. -/
structure Stays (s : Session) (c : Controller) (xs : List Exchange) (ns : List Notice)
    (told : Option Failure) (c' : Controller) (p : Phase) : Prop where
  stands : s.Stands c c' p
  fate : s.kind.fate xs = .closed
  releases : xs.filter Exchange.isRelease = []
  notices : .rolledBack .isolated ∉ ns
  raised : ∀ x ∈ xs, ∀ e, x.error? = some e → e.ordinary = true →
    told = some (.fatalFrom "fork failed: " [] e)
  told : ∀ f, told = some f → f.Suspends ∨
    s.phase = .start ∧ p.working? = none ∧ ∃ ys ms, c.Begins s.isolation ys ms (.error f) c

/-! ## What each relation contributes -/

section

variable {s : Session} {kind : InputKind} {mode : Isolation} {c c' : Controller} {p : Phase}
  {xs : List Exchange} {ns : List Notice} {fs : List Failure}

theorem releases_of_begins {o : Except Failure Handle} (h : c.Begins mode xs ns o c') :
    xs.filter Exchange.isRelease = [] := by
  refine List.filter_eq_nil_iff.2 fun x hx => ?_
  obtain ⟨-, _, rfl⟩ := h.mem hx
  nofun

theorem releases_of_settles {keeps : Bool} {o : Except Failure Unit}
    (h : c.Settles keeps xs ns o c') : xs.filter Exchange.isRelease = xs := by
  refine List.filter_eq_self.2 fun x hx => ?_
  obtain ⟨_, _, rfl⟩ := h.mem hx
  rfl

theorem releases_of_hears {w : Handle} {o : Except Failure Reading} (h : Hears w xs o) :
    xs.filter Exchange.isRelease = [] := by
  cases h <;> rfl

/-- No call to open a transaction raises if the transaction is opened. -/
theorem error?_of_begins {w : Handle} (h : c.Begins mode xs ns (.ok w) c') {x : Exchange}
    (hx : x ∈ xs) : x.error? = none := by
  cases h with
  | direct => cases hx
  | isolated =>
    cases List.mem_singleton.1 hx
    rfl

theorem error?_of_hears {w : Handle} {r : Reading} (h : Hears w xs (.ok r)) {x : Exchange}
    (hx : x ∈ xs) : x.error? = none := by
  cases h with
  | broke =>
    cases List.mem_singleton.1 hx
    rfl
  | yielded =>
    rcases List.mem_cons.1 hx with rfl | hx
    · rfl
    · cases List.mem_singleton.1 hx
      rfl

theorem error_of_hears {w : Handle} {e e' : Error} (h : Hears w xs (.error { error := e }))
    {x : Exchange} (hx : x ∈ xs) (hraised : x.error? = some e') : e' = e := by
  cases h with
  | stopped =>
    cases List.mem_singleton.1 hx
    exact (Option.some.inj hraised).symm
  | silent =>
    rcases List.mem_cons.1 hx with rfl | hx
    · cases hraised
    · cases List.mem_singleton.1 hx
      exact (Option.some.inj hraised).symm

theorem failed?_outcome (ending : Ending) : failed? ending.outcome = ending.failure? := by
  unfold Ending.outcome
  split <;> simp_all [failed?]

theorem Fails.quits {e : Error} {f : Failure} (h : Fails kind e c xs ns f c') :
    ∃ ks, Quits kind c (.failed e) xs ks (some f) c' .fatal ∧
      (.rolledBack .isolated ∈ ns → .rolledBack .isolated ∈ ks) := by
  cases h with
  | @rolledBack ks _ _ h =>
    refine ⟨ks, .failed e h, fun hn => ?_⟩
    rcases List.mem_append.1 hn with hn | hn
    · exact (List.mem_cons.1 hn).resolve_left nofun
    · exact absurd rfl (rollbackNotices_channel _ hn)

theorem Ends.quits {ending : Ending} {o : Except Failure Seat.Turn}
    (h : Ends kind ending c xs ns o c') :
    ∃ ks, Quits kind c (.ended ending) xs ks (failed? o) c' ending.phase ∧
      (.rolledBack .isolated ∈ ns → .rolledBack .isolated ∈ ks) := by
  cases h with
  | @settled ks _ h =>
    have hquits := Quits.ended ending h
    rw [failed?_outcome]
    exact ⟨ks, hquits, fun hn => (List.mem_append.1 hn).resolve_right fun hn =>
      Ending.channel_of_mem _ hn rfl⟩
  | unsettled h => exact ⟨_, .ended ending h, id⟩

/-! ## Moves -/

/-- A session stays that is not served. -/
theorem Stays.of_stands {told : Option Failure} (h : s.Stands c c' p)
    (htold : ∀ f, told = some f → f.Suspends) : s.Stays c [] [] told c' p where
  stands := h
  fate := rfl
  releases := rfl
  notices := List.not_mem_nil
  raised _ hx := nomatch hx
  told f hf := .inl (htold f hf)

/-- A session whose input was sent has started, even if the call was interrupted. -/
theorem stays_sent {w : Handle} (hp : s.phase = .start) (h : c.Begins s.isolation xs ns (.ok w) c')
    (reply : Except Error Unit) (hreply : ∀ e, reply = .error e → e.ordinary = false) :
    s.Stays c (xs ++ [.send w s.kind.reason s.payload reply])
      (ns ++ [.started s.kind s.payload.length]) (failed? (Site.raised reply)) c' (.running w) where
  stands := .opened hp h
  fate := by
    rw [InputKind.fate_append (h.fate s.kind) rfl]
    refine InputKind.fate_of_idle (fun x hx => ?_) fun x hx => ?_ <;>
      cases List.mem_singleton.1 hx
    · cases reply with
      | ok _ => rfl
      | error e => simp [Exchange.breakdown?, hreply e rfl]
    · nofun
  releases := by
    rw [List.filter_append, releases_of_begins h]
    rfl
  notices := by
    rw [h.notices_of_ok]
    simp
  raised x hx e he hord := by
    rcases List.mem_append.1 hx with hx | hx
    · cases (error?_of_begins h hx).symm.trans he
    · cases List.mem_singleton.1 hx
      cases reply with
      | ok _ => cases he
      | error e' =>
        cases he
        cases (hreply e rfl).symm.trans hord
  told f hf := by
    cases reply with
    | ok _ => cases hf
    | error e =>
      cases hf
      exact .inl (.inl (hreply e rfl))

theorem Starts.departs_or_stays {o : Except Failure Handle} (hp : s.phase = .start)
    (h : s.Starts c xs ns o c' p) :
    s.Departs c xs ns (failed? o) c' p ∨ s.Stays c xs ns (failed? o) c' p := by
  cases h with
  | refused hb =>
    have hc := hb.eq_of_error
    refine .inr ⟨by rw [hc, ← hp]; exact .same, hb.fate s.kind, releases_of_begins hb, ?_, ?_, ?_⟩
    · cases hb <;> simp
    · intro x hx e he hord
      cases hb with
      | closed | busy => cases hx
      | failed =>
        cases List.mem_singleton.1 hx
        cases he
        rfl
      | interrupted _ _ _ hi =>
        cases List.mem_singleton.1 hx
        cases he
        cases hi.symm.trans hord
    · rintro f ⟨⟩
      rw [hc] at hb
      exact .inr ⟨hp, rfl, _, _, hb⟩
  | sent hb => exact .inr (stays_sent hp hb (.ok ()) nofun)
  | interrupted hb e he => exact .inr (stays_sent hp hb (.error e) (by rintro _ ⟨⟩; exact he))
  | @failed xs ys ns ms w f d _ hb e he hf =>
    obtain ⟨ks, hquits, hn⟩ := hf.quits
    have hfate :
        s.kind.fate (xs ++ .send w s.kind.reason s.payload (.error e) :: ys) = .failed e := by
      rw [InputKind.fate_append (hb.fate s.kind) rfl]
      exact InputKind.fate_of_breakdown (by simp [Exchange.breakdown?, he])
    refine .inl ⟨.opened hp hb, by rw [hfate]; exact hquits, ?_, ?_, ?_,
      (Option.or_none).symm, fun _ hf => nomatch hf⟩
    · have hys : ys.filter Exchange.isRelease = ys := List.filter_eq_self.2 fun x hx => by
        obtain ⟨_, _, rfl⟩ := hf.mem hx
        rfl
      rw [List.filter_append, releases_of_begins hb, List.filter_cons_of_neg (by nofun), hys]
      rfl
    · rw [hb.notices_of_ok]
      intro hmem
      exact hn (by simpa using hmem)
    · intro x hx e' he' _
      rcases List.mem_append.1 hx with hx | hx
      · cases (error?_of_begins hb hx).symm.trans he'
      rcases List.mem_cons.1 hx with rfl | hx
      · cases he'
        exact .inr hfate
      · exact .inl hx

/-- A session that heard its machine runs on, unless its fate was decided. -/
theorem stays_heard {w : Handle} {o : Except Failure Reading} {told : Option Failure}
    (hp : s.phase = .running w) (h : Hears w xs o) (hfate : s.kind.fate xs = .closed)
    (hns : ∀ n ∈ ns, n.channel ≠ .transaction)
    (herror : ∀ e, o = .error { error := e } → e.ordinary = false)
    (htold : ∀ f, told = some f → f.Suspends) : s.Stays c xs ns told c (.running w) where
  stands := by
    rw [← hp]
    exact .same
  fate := hfate
  releases := releases_of_hears h
  notices hn := hns _ hn rfl
  raised x hx e he hord := by
    cases o with
    | ok r => cases (error?_of_hears h hx).symm.trans he
    | error f =>
      obtain ⟨e', rfl⟩ : ∃ e', f = { error := e' } := by cases h <;> exact ⟨_, rfl⟩
      obtain rfl := error_of_hears h hx he
      cases (herror e rfl).symm.trans hord
  told f hf := .inl (htold f hf)

theorem Turns.departs_or_stays {w : Handle} {o : Except Failure Seat.Turn}
    (hp : s.phase = .running w) (h : Turns s.kind w c xs ns o c' p) :
    s.Departs c xs ns (failed? o) c' p ∨ s.Stays c xs ns (failed? o) c' p := by
  have stands : s.Stands c c (.running w) := by
    rw [← hp]
    exact .same
  cases h with
  | @interrupted _ e hh he =>
    refine .inr (stays_heard hp hh ?_ (List.forall_mem_nil _) ?_ ?_)
    · rw [hh.fate_of_error, he]
      rfl
    · rintro _ ⟨⟩
      exact he
    · rintro _ ⟨⟩
      exact .inl he
  | @failed xs ys _ e f _ hh he hf =>
    obtain ⟨ks, hquits, hn⟩ := hf.quits
    have hys : ∀ y ∈ ys, ∃ m reply, y = .shutdown m reply := fun y hy => hf.mem hy
    have hfate : s.kind.fate (xs ++ ys) = .failed e := by
      rw [InputKind.fate_append_releases hys, hh.fate_of_error, he]
      rfl
    refine .inl ⟨stands, by rw [hfate]; exact hquits, ?_, hn, ?_, (Option.or_none).symm,
        fun _ hf => nomatch hf⟩
    · rw [List.filter_append, releases_of_hears hh, List.nil_append]
      refine List.filter_eq_self.2 fun y hy => ?_
      obtain ⟨_, _, rfl⟩ := hys y hy
      rfl
    · intro x hx e' he' _
      rcases List.mem_append.1 hx with hx | hx
      · rw [error_of_hears hh hx he']
        exact .inr hfate
      · exact .inl hx
  | @heard xs ys _ _ _ _ _ hh hj =>
    have hheard := hh.fate_of_ok s.kind
    cases hj with
    | delivered hv =>
      rw [hv] at hheard
      rw [List.append_nil]
      exact .inr (stays_heard hp hh hheard (List.forall_mem_nil _) (fun _ ho => nomatch ho)
        fun _ hf => nomatch hf)
    | passed hv =>
      rw [hv] at hheard
      rw [List.append_nil]
      exact .inr (stays_heard hp hh hheard (InputKind.channel_of_pass hv) (fun _ ho => nomatch ho)
        fun _ hf => nomatch hf)
    | refused hv =>
      rw [hv] at hheard
      rw [List.append_nil]
      exact .inr (stays_heard hp hh hheard (List.forall_mem_nil _) (fun _ ho => nomatch ho)
        fun _ hf => .inr (Option.some.inj hf).symm)
    | ended hv he =>
      rw [hv] at hheard
      obtain ⟨ks, hquits, hn⟩ := he.quits
      obtain ⟨_, _, hs⟩ := he.settles
      have hfate : s.kind.fate (xs ++ ys) = s.kind.fate xs :=
        InputKind.fate_append_releases fun y hy => hs.mem hy
      rw [hheard] at hfate
      refine .inl ⟨stands, by rw [hfate]; exact hquits, ?_, hn, ?_, (Option.or_none).symm,
        fun _ hf => nomatch hf⟩
      · rw [List.filter_append, releases_of_hears hh, List.nil_append, releases_of_settles hs]
      · intro x hx e he' _
        rcases List.mem_append.1 hx with hx | hx
        · cases (error?_of_hears hh hx).symm.trans he'
        · exact .inl hx

/-- To close a session that runs brings it to its end. -/
theorem departs_of_settles {w : Handle} {o : Except Failure Unit} (hp : s.phase = .running w)
    (h : c.Settles false xs ns o c') :
    s.Departs c xs (.cancelled s.kind :: ns) (failed? (o.mapError .closing)) c' .cancelled := by
  exact ⟨by rw [← hp]; exact .same, by rw [h.fate]; exact .closed h, releases_of_settles h,
    fun hn => (List.mem_cons.1 hn).resolve_left nofun, fun x hx _ _ _ => .inl hx,
    (Option.or_none).symm, fun _ hf => nomatch hf⟩

theorem Closes.departs_or_stays {o : Except Failure Unit} (hs : s.phase.done = false)
    (h : s.Closes c xs ns o c' p) :
    s.Departs c xs ns (failed? o) c' p ∨ s.Stays c xs ns (failed? o) c' p := by
  cases h with
  | fresh hp => exact .inr (.of_stands (.withdrawn hp) fun _ hf => nomatch hf)
  | done hd => cases hs.symm.trans hd
  | running hp h => exact .inl (departs_of_settles hp h)

/-- A move brings its session to its end, or does not. -/
theorem Moves.departs_or_stays (told : Option Failure) (h : s.Moves c xs ns told.toList c' p)
    (hs : s.phase.done = false) :
    s.Departs c xs ns told c' p ∨ s.Stays c xs ns told c' p := by
  generalize hfs : told.toList = fs at h
  have htold {α : Type} {o : Except Failure α} (ho : told.toList = failures o) :
      failed? o = told := by
    cases o <;> cases told <;> cases ho <;> rfl
  cases h with
  | start hp h =>
    rw [← htold hfs]
    exact h.departs_or_stays hp
  | turn hp h =>
    rw [← htold hfs]
    exact h.departs_or_stays hp
  | close h =>
    rw [← htold hfs]
    exact h.departs_or_stays hs
  | @abandon ns o _ _ h =>
    have hquiet : .rolledBack .isolated ∉ lament o := fun hn => lament_channel _ hn rfl
    rw [← htold hfs]
    rcases h.departs_or_stays hs with hd | hd
    · obtain ⟨stands, quits, releases, notices, raised, told, pending⟩ := hd
      exact .inl ⟨stands, quits, releases,
        fun hn => notices ((List.mem_append.1 hn).resolve_right hquiet), raised, told, pending⟩
    · exact .inr { hd with
        notices := fun hn => hd.notices ((List.mem_append.1 hn).resolve_right hquiet) }

/-! ## One move after the other -/

variable {c'' : Controller} {q : Phase} {ys : List Exchange} {ms : List Notice}
  {told told' : Option Failure}

theorem Stands.trans (h : s.Stands c c' p) (h' : (s.inPhase p).Stands c' c'' q) :
    s.Stands c c'' q := by
  cases h with
  | same => exact h'
  | opened hp hb =>
    cases h' with
    | same => exact .opened hp hb
    | opened hp' | withdrawn hp' => cases hp'
  | withdrawn hp =>
    cases h' with
    | same => exact .withdrawn hp
    | opened hp' | withdrawn hp' => cases hp'

/-- A session that has not begun stands as it was. -/
theorem Stands.of_start (h : s.Stands c c' p) (hp : p = .start) : s.phase = .start ∧ c' = c := by
  cases h with
  | same => exact ⟨hp, rfl⟩
  | opened | withdrawn => cases hp

theorem Stays.trans (h : s.Stays c xs ns none c' p) (h' : (s.inPhase p).Stays c' ys ms told c'' q)
    (hy : ys.head?.bind Exchange.request? = none) : s.Stays c (xs ++ ys) (ns ++ ms) told c'' q where
  stands := h.stands.trans h'.stands
  fate := (InputKind.fate_append h.fate hy).trans h'.fate
  releases := by rw [List.filter_append, h.releases, h'.releases]; rfl
  notices hn := (List.mem_append.1 hn).elim h.notices h'.notices
  raised x hx e he hord := by
    rcases List.mem_append.1 hx with hx | hx
    · cases h.raised x hx e he hord
    · exact h'.raised x hx e he hord
  told f hf := by
    refine (h'.told f hf).imp_right fun ⟨hp, hq, ks, js, hb⟩ => ?_
    obtain ⟨hs, rfl⟩ := h.stands.of_start hp
    exact ⟨hs, hq, ks, js, hb⟩

/-- What failed before a session came to its end is raised if its end raises nothing. -/
theorem Stays.departs (h : s.Stays c xs ns told' c' p)
    (h' : (s.inPhase p).Departs c' ys ms told c'' q)
    (hy : ys.head?.bind Exchange.request? = none)
    (hpending : ∀ f, told' = some f → f.Suspends ∧ s.kind.fate ys = .closed) :
    s.Departs c (xs ++ ys) (ns ++ ms) (told.or told') c'' q := by
  obtain ⟨stands, quits, releases, notices, raised, htold, pending⟩ := h'
  have hfate : s.kind.fate (xs ++ ys) = s.kind.fate ys := InputKind.fate_append h.fate hy
  refine ⟨h.stands.trans stands, by rw [hfate]; exact quits, ?_, fun hn => ?_, ?_,
    by rw [htold, Option.or_assoc], ?_⟩
  · rw [List.filter_append, h.releases]
    exact releases
  · exact notices ((List.mem_append.1 hn).resolve_left h.notices)
  · intro x hx e he hord
    rcases List.mem_append.1 hx with hx | hx
    · exact absurd (hpending _ (h.raised x hx e he hord)).1 (Failure.not_suspends_fatalFrom _ _ _)
    · rw [hfate]
      exact raised x hx e he hord
  · intro f hf
    rw [hfate]
    rcases Option.or_eq_some_iff.1 hf with hf | ⟨-, hf⟩
    · exact pending f hf
    · exact hpending f hf

theorem Quits.done {fate : Fate} {quit : Option Failure} (h : Quits kind c fate xs ns quit c' p) :
    p.done = true := by
  cases h with
  | failed | closed => rfl
  | ended ending => exact ending.done_phase

theorem Departs.done (h : s.Departs c xs ns told c' p) : p.done = true := by
  obtain ⟨-, quits, -⟩ := h
  exact quits.done

end

end Session

namespace Seat

variable {b : Backend W} {s s' : Seat W} {xs : List Exchange} {ns : List Notice}
  {fs : List Failure} {told : Option Failure}

/-- No path begins with an answer. -/
theorem Path.head?_request? (h : Path b s xs ns fs s') :
    xs.head?.bind Exchange.request? = none := by
  induction h with
  | refl => rfl
  | @step _ _ _ xs _ _ _ _ _ head _ ih =>
    cases xs with
    | nil => exact ih
    | cons => exact head.moves.hears.1

/-- An operation brings its session to its end, or does not. -/
theorem Course.departs_or_stays (h : Course b s xs ns told s')
    (hs : s.session.phase.done = false) :
    s.session.Departs s.controller xs ns told s'.controller s'.session.phase ∨
      s.session.Stays s.controller xs ns told s'.controller s'.session.phase := by
  induction h with
  | rest s => exact .inr (.of_stands .same fun _ hf => nomatch hf)
  | stalled =>
    refine .inr (.of_stands .same ?_)
    rintro _ ⟨⟩
    exact .inl rfl
  | @failed _ _ _ _ f h => exact Session.Moves.departs_or_stays (some f) h.moves hs
  | @step s t s'' xs ys ns ms told head tail ih =>
    have rests (hd : t.session.phase.done = true) :
        told = none ∧ ys = [] ∧ ms = [] ∧ s''.controller = t.controller ∧
          s''.session.phase = t.session.phase := tail.of_done hd
    have hhead : ys.head?.bind Exchange.request? = none := by
      obtain ⟨_, hpath, -⟩ := tail.path
      exact hpath.head?_request?
    rcases Session.Moves.departs_or_stays none head.moves hs with hmove | hmove
    · obtain ⟨rfl, rfl, rfl, hc, hp⟩ := rests hmove.done
      rw [hc, hp, List.append_nil, List.append_nil]
      exact .inl hmove
    cases hd : t.session.phase.done with
    | true =>
      obtain ⟨rfl, rfl, rfl, hc, hp⟩ := rests hd
      rw [hc, hp, List.append_nil, List.append_nil]
      exact .inr hmove
    | false =>
      have hrest := ih hd
      rw [head.session] at hrest
      rcases hrest with hrest | hrest
      · have hall := hmove.departs hrest hhead nofun
        rw [Option.or_none] at hall
        exact .inl hall
      · exact .inr (hmove.trans hrest hhead)
  | @closed s t s'' xs ys ns ms told o body h last ih =>
    rcases ih hs with hbody | hbody
    · obtain ⟨rfl, rfl, ho, hc, hp⟩ := last.moves.of_done hbody.done
      rw [failures_eq, Option.toList_eq_nil_iff] at ho
      rw [hc, hp, ho, List.append_nil, List.append_nil, Option.none_or]
      exact .inl hbody
    obtain ⟨_, hpath, -⟩ := body.path
    have hsession := hpath.session
    generalize s''.controller = c at h
    generalize s''.session.phase = p at h
    cases h with
    | done hd =>
      rw [List.append_nil, List.append_nil]
      exact .inr hbody
    | fresh hp =>
      have hstands := hbody.stands
      obtain ⟨hstart, hc⟩ := hstands.of_start hp
      rw [List.append_nil, List.append_nil, hc]
      exact .inr { hbody with
        stands := .withdrawn hstart
        told := fun f hf => (hbody.told f hf).imp_right fun ⟨h, _, hb⟩ => ⟨h, rfl, hb⟩ }
    | running hp hsettles =>
      have hlast := Session.departs_of_settles hp hsettles
      have hhead := Exchange.head?_of_shutdowns fun y hy => hsettles.mem hy
      rw [hsession] at hlast ⊢
      refine .inl (hbody.departs hlast hhead fun f hf => ⟨?_, hsettles.fate _⟩)
      refine (hbody.told f hf).resolve_right fun ⟨_, hrests, _⟩ => ?_
      rw [hp] at hrests
      cases hrests

end Seat

/-! ## Operations on an engine -/

namespace EngineOp

/-- Whether what comes of an operation is told. -/
def keeps : EngineOp → Bool
  | .session _ op => op.keeps
  | _ => true

/-- The failure that an operation on an engine answers with: what comes of its session, or else what
it was asked to raise. -/
def answers (op : EngineOp) (told : Option Failure) : Option Failure :=
  if op.keeps then told.or (op.raises?.map fun e => { error := e }) else none

variable {b : Backend W} {config : EngineConfig} {op : EngineOp} {r : Room W} {s t : Session}

/-- An operation on an engine that acts on a session takes a course there. -/
theorem course (h : op.acting? b config r = some (s, t)) :
    ∃ told seat, Seat.Course b ⟨r.toDesk, s⟩ (op.page b config r).calls (op.page b config r).notices
        told seat ∧
      seat.session = t ∧ (op.page b config r).after.controller = seat.controller ∧
      (op.page b config r).answer.failure? = op.answers told := by
  have paged {xs : List Exchange} {ns : List Notice} {told : Option Failure} {seat : Seat W}
      (hcourse : Seat.Course b ⟨r.toDesk, s⟩ xs ns told seat)
      (hdesk : (op.perform b config r).2.toDesk = seat.toDesk) :
      Seat.Course b ⟨r.toDesk, s⟩ (op.page b config r).calls (op.page b config r).notices told
        seat := by
    obtain ⟨_, hpath, -⟩ := hcourse.path
    have hfollows : (op.page b config r).before.toSite.Follows b xs ns
        (op.page b config r).after.toSite := by
      change r.toSite.Follows b xs ns (op.perform b config r).2.toSite
      rw [hdesk]
      exact hpath.follows
    rwa [Page.calls_of_follows hfollows, Page.notices_of_follows hfollows]
  cases op with
  | store | shutdown => cases h
  | session n op =>
    obtain ⟨session, hs, hst⟩ := Option.map_eq_some_iff.1 h
    obtain ⟨rfl, rfl⟩ := Prod.mk.inj hst
    obtain ⟨xs, ns, told, hcourse, hanswer⟩ := op.course b ⟨r.toDesk, session⟩
    have hperform := perform_session b config hs op
    refine ⟨told, _, paged hcourse (by rw [hperform]), rfl, ?_, ?_⟩
    · change (EngineOp.perform b config _ r).2.controller = _
      rw [hperform]
    · change (EngineOp.perform b config _ r).1.failure? = _
      rw [hperform]
      exact hanswer
  | submit kind input choice =>
    cases input with
    | other => cases h
    | bytes payload =>
      simp only [acting?] at h
      split at h
      · next hopen =>
        rw [Bool.and_eq_true, Bool.not_eq_true'] at hopen
        obtain ⟨rfl, rfl⟩ := Prod.mk.inj (Option.some.inj h)
        obtain ⟨xs, ns, o, seat, hwalk, -⟩ :=
          Seat.collect_walks b kind ⟨r.toDesk, config.session kind payload⟩
        have hperform := perform_collected b hopen.1 hopen.2 hwalk.run
        refine ⟨failed? o, seat, paged hwalk.course (by rw [hperform]),
          (congrArg Seat.session (SessionOp.final_collect hwalk.run)).symm, ?_, ?_⟩
        · change (EngineOp.perform b config _ r).2.controller = _
          rw [hperform]
        · change (EngineOp.perform b config _ r).1.failure? = (failed? o).or none
          rw [hperform]
          cases o <;> rfl
      · cases h

/-- The session that an operation acts on is linked to the transaction, or it is new. -/
theorem linked_of_acting {own : List Exchange} (hr : r.Linked config.isolation own)
    (h : op.acting? b config r = some (s, t)) :
    ∃ foreign, Seat.Linked foreign own ⟨r.toDesk, s⟩ := by
  cases op with
  | store | shutdown => cases h
  | session n op =>
    obtain ⟨session, hs, hst⟩ := Option.map_eq_some_iff.1 h
    obtain ⟨rfl, -⟩ := Prod.mk.inj hst
    exact ⟨_, hr.seat hs⟩
  | submit kind input choice =>
    cases input with
    | other => cases h
    | bytes payload =>
      simp only [acting?] at h
      split at h
      · obtain ⟨rfl, -⟩ := Prod.mk.inj (Option.some.inj h)
        exact ⟨_, hr.fresh rfl rfl⟩
      · cases h

/-- An operation acts on a session of the engine's own mode. -/
theorem isolation_of_acting {own : List Exchange} (hr : r.Linked config.isolation own)
    (h : op.acting? b config r = some (s, t)) : s.isolation = config.isolation := by
  cases op with
  | store | shutdown => cases h
  | session n op =>
    obtain ⟨session, hs, hst⟩ := Option.map_eq_some_iff.1 h
    obtain ⟨rfl, -⟩ := Prod.mk.inj hst
    exact hr.isolation n _ hs
  | submit kind input choice =>
    cases input with
    | other => cases h
    | bytes payload =>
      simp only [acting?] at h
      split at h
      · obtain ⟨rfl, -⟩ := Prod.mk.inj (Option.some.inj h)
        rfl
      · cases h

end EngineOp

end RollupEngine

import RollupEngine.Proofs.Link
import RollupEngine.Scripted.World

/-!
# Ownership of machines

An engine owns the machine it was made around and the forks it makes, until it releases them.
`Books` keeps the account of a trace of calls: which machines it leaves owned, and that no call is
made to a machine after its release. Calls come in three kinds, and each keeps the books in its own
way (`Books.work`, `Books.fork` and `Books.release`). `Controller.Balances` says that the machines
owned are those that the controller knows, which every move of a session keeps. So, as long as every
fork is fresh, an engine leaks no machine, releases none twice and uses none after its release
(`EngineOp.run_accounts`).
-/

namespace RollupEngine

variable {W : Type}

/-! ## The books of a trace -/

/-- A machine that was there at first, or was made by a fork. -/
def Born (machine : Handle) (xs : List Exchange) (h : Handle) : Prop :=
  h = machine ∨ ∃ k, .fork k (.ok h) ∈ xs

/-- A machine that was born and not released; a release that failed counts. -/
def Owned (machine : Handle) (xs : List Exchange) (h : Handle) : Prop :=
  Born machine xs h ∧ ∀ reply, .shutdown h reply ∉ xs

/-- The call `y` is not made to a machine that the call `x` released. -/
def Exchange.Spares (x y : Exchange) : Prop :=
  ∀ h reply, x = .shutdown h reply → y.machine? ≠ some h

/-- Whether a call releases a machine. -/
def Exchange.releases (h : Handle) : Exchange → Bool
  | .shutdown m _ => m = h
  | _ => false

/-- Whether a call is to fork a machine. -/
def Exchange.isFork : Exchange → Bool
  | .fork .. => true
  | _ => false

/-- No fork is a machine that was born before. -/
def Fresh (machine : Handle) (xs : List Exchange) : Prop :=
  (machine :: xs.filterMap Exchange.created?).Nodup

instance (machine : Handle) (xs : List Exchange) : Decidable (Fresh machine xs) :=
  inferInstanceAs (Decidable (List.Nodup _))

/-- The machines that a trace leaves owned are those `held`, and it is orderly. -/
structure Books (machine : Handle) (xs : List Exchange) (held : Handle → Prop) : Prop where
  owned : ∀ h, Owned machine xs h ↔ held h
  born : ∀ h reply, .shutdown h reply ∈ xs → Born machine xs h
  orderly : xs.Pairwise Exchange.Spares

theorem born_concat {machine h : Handle} {xs : List Exchange} {x : Exchange} :
    Born machine (xs ++ [x]) h ↔ Born machine xs h ∨ ∃ k, x = .fork k (.ok h) := by
  unfold Born
  constructor
  · rintro (rfl | ⟨k, hk⟩)
    · exact .inl (.inl rfl)
    · rcases List.mem_append.1 hk with hk | hk
      · exact .inl (.inr ⟨k, hk⟩)
      · exact .inr ⟨k, (List.mem_singleton.1 hk).symm⟩
  · rintro ((rfl | ⟨k, hk⟩) | ⟨k, rfl⟩)
    · exact .inl rfl
    · exact .inr ⟨k, List.mem_append_left _ hk⟩
    · exact .inr ⟨k, List.mem_append_right _ (List.mem_singleton.2 rfl)⟩

theorem owned_concat {machine h : Handle} {xs : List Exchange} {x : Exchange} :
    Owned machine (xs ++ [x]) h ↔ (Born machine xs h ∨ ∃ k, x = .fork k (.ok h)) ∧
      (∀ reply, .shutdown h reply ∉ xs) ∧ ∀ reply, .shutdown h reply ≠ x := by
  rw [Owned, born_concat]
  simp only [List.mem_append, List.mem_singleton, not_or, forall_and, ne_eq]

namespace Fresh

variable {machine w k : Handle} {xs ys : List Exchange}

theorem of_append (h : Fresh machine (xs ++ ys)) : Fresh machine xs := by
  unfold Fresh at *
  rw [List.filterMap_append, ← List.cons_append] at h
  exact (List.nodup_append.1 h).1

theorem not_born (h : Fresh machine (xs ++ [.fork k (.ok w)])) : ¬Born machine xs w := by
  unfold Fresh at h
  rw [List.filterMap_append, ← List.cons_append] at h
  have hw := (List.nodup_append.1 h).2.2
  rintro (rfl | ⟨m, hm⟩)
  · exact hw w List.mem_cons_self w (by simp [Exchange.created?]) rfl
  · have hmem : w ∈ xs.filterMap Exchange.created? := List.mem_filterMap.2 ⟨_, hm, rfl⟩
    exact hw w (List.mem_cons_of_mem _ hmem) w (by simp [Exchange.created?]) rfl

end Fresh

namespace Books

variable {machine k m w : Handle} {xs : List Exchange} {held held' : Handle → Prop}

theorem start (machine : Handle) : Books machine [] (· = machine) where
  owned h := by simp [Owned, Born]
  born := nofun
  orderly := .nil

theorem congr (h : Books machine xs held) (hh : ∀ h, held h ↔ held' h) :
    Books machine xs held' where
  owned m := (h.owned m).trans (hh m)
  born := h.born
  orderly := h.orderly

/-- A call to a machine that is held comes after no release of it. -/
theorem orderly_append (h : Books machine xs held) {x : Exchange} (hx : x.machine? = some m)
    (hm : held m) : (xs ++ [x]).Pairwise Exchange.Spares := by
  refine List.pairwise_append.2 ⟨h.orderly, List.pairwise_singleton .., ?_⟩
  rintro y hy z hz v reply rfl hv
  obtain rfl := List.mem_singleton.1 hz
  obtain rfl := Option.some.inj (hx.symm.trans hv)
  exact ((h.owned m).2 hm).2 reply hy

theorem born_of_concat (h : Books machine xs held) {x : Exchange}
    (hx : ∀ v reply, x = .shutdown v reply → Born machine xs v) (v : Handle)
    (reply : Except Error Unit) (hv : .shutdown v reply ∈ xs ++ [x]) :
    Born machine (xs ++ [x]) v := by
  refine born_concat.2 (.inl ?_)
  rcases List.mem_append.1 hv with hv | hv
  · exact h.born v reply hv
  · exact hx v reply (List.mem_singleton.1 hv).symm

/-- A call that makes no machine and releases none. -/
theorem work (h : Books machine xs held) {x : Exchange} (hx : x.machine? = some m) (hm : held m)
    (hc : x.created? = none) (hr : ∀ v reply, x ≠ .shutdown v reply) :
    Books machine (xs ++ [x]) held where
  owned v := by
    have hfork : ¬∃ k, x = .fork k (.ok v) := by
      rintro ⟨k, rfl⟩
      cases hc
    rw [← h.owned v, owned_concat, or_iff_left hfork]
    exact ⟨fun ⟨hb, hs, _⟩ => ⟨hb, hs⟩, fun ⟨hb, hs⟩ => ⟨hb, hs, fun reply => (hr v reply).symm⟩⟩
  born := h.born_of_concat fun v reply hv => absurd hv (hr v reply)
  orderly := h.orderly_append hx hm

/-- A fork that is fresh is owned from then on. -/
theorem fork (h : Books machine xs held) (hk : held k) (hw : ¬Born machine xs w) :
    Books machine (xs ++ [.fork k (.ok w)]) fun h => held h ∨ h = w where
  owned v := by
    rw [← h.owned v, owned_concat]
    constructor
    · rintro ⟨hb | ⟨k, hk⟩, hs, -⟩
      · exact .inl ⟨hb, hs⟩
      · cases hk
        exact .inr rfl
    · rintro (⟨hb, hs⟩ | rfl)
      · exact ⟨.inl hb, hs, nofun⟩
      · exact ⟨.inr ⟨k, rfl⟩, fun reply hs => hw (h.born v reply hs), nofun⟩
  born := h.born_of_concat nofun
  orderly := h.orderly_append rfl hk

/-- A machine that is released is owned no longer. -/
theorem release (h : Books machine xs held) (hm : held m) (reply : Except Error Unit) :
    Books machine (xs ++ [.shutdown m reply]) fun h => held h ∧ h ≠ m where
  owned v := by
    rw [← h.owned v, owned_concat]
    constructor
    · rintro ⟨hb | ⟨k, hk⟩, hs, hne⟩
      · refine ⟨⟨hb, hs⟩, ?_⟩
        rintro rfl
        exact hne reply rfl
      · cases hk
    · rintro ⟨⟨hb, hs⟩, hne⟩
      refine ⟨.inl hb, hs, fun r hr => hne ?_⟩
      cases hr
      rfl
  born := h.born_of_concat fun v _ hv => by
    cases hv
    exact ((h.owned m).2 hm).1
  orderly := h.orderly_append rfl hm

end Books

/-! ## The controller and the books -/

namespace Controller

variable {mode : Isolation} {machine h w : Handle} {c c' : Controller} {own xs : List Exchange}
  {ns : List Notice}

/-- The machines that a controller knows: the canonical one and the fork of an isolated
transaction, until it is closed. -/
def Holds (c : Controller) (h : Handle) : Prop :=
  c.closed = false ∧ (h = c.canonical ∨ ∃ k, c.transaction = some (.isolated h k))

/-- The machines owned after a trace are those that the controller knows. -/
structure Balances (machine : Handle) (xs : List Exchange) (c : Controller) : Prop where
  books : Books machine xs c.Holds
  apart : ∀ w k, c.transaction = some (.isolated w k) → w ≠ c.canonical

theorem holds_of_idle (hc : c.Idle) : c.Holds h ↔ h = c.canonical := by
  simp [Holds, hc.1, hc.2]

theorem not_holds_of_closed (hc : c.closed = true) : ¬c.Holds h := by
  simp [Holds, hc]

theorem holds_of_isolated {k : Handle} (hc : c.closed = false)
    (ht : c.transaction = some (.isolated w k)) : c.Holds h ↔ h = c.canonical ∨ h = w := by
  simp [Holds, hc, ht, eq_comm]

theorem holds_of_direct (hc : c.closed = false) (ht : c.transaction = some (.direct w)) :
    c.Holds h ↔ h = c.canonical := by
  simp [Holds, hc, ht]

theorem Fits.open_of_transaction {t : Transaction} (hf : c.Fits mode)
    (ht : c.transaction = some t) : c.closed = false := by
  cases hc : c.closed with
  | false => rfl
  | true => cases (hf.closed hc).symm.trans ht

theorem Balances.work (hb : c.Balances machine own) {x : Exchange} (hx : x.machine? = some h)
    (hh : c.Holds h) (hc : x.created? = none) (hr : ∀ v reply, x ≠ .shutdown v reply) :
    c.Balances machine (own ++ [x]) :=
  ⟨hb.books.work hx hh hc hr, hb.apart⟩

/-- The canonical machine was born. -/
theorem Balances.born (hb : c.Balances machine own) (hc : c.Idle) :
    Born machine own c.canonical :=
  ((hb.books.owned _).2 ((holds_of_idle hc).2 rfl)).1

theorem Begins.balances {o : Except Failure Handle} (h : c.Begins mode xs ns o c')
    (hb : c.Balances machine own) (hfresh : Fresh machine (own ++ xs)) :
    c'.Balances machine (own ++ xs) := by
  cases h with
  | closed | busy => simpa using hb
  | direct hc =>
    rw [List.append_nil]
    refine ⟨hb.books.congr fun v => ?_, nofun⟩
    rw [holds_of_idle hc, holds_of_direct (c := c.openedDirect) hc.1 rfl]
    rfl
  | isolated hc _ w =>
    refine ⟨(hb.books.fork ((holds_of_idle hc).2 rfl) hfresh.not_born).congr fun v => ?_, ?_⟩
    · rw [holds_of_idle hc, holds_of_isolated (c := c.openedIsolated w) hc.1 rfl]
      rfl
    · rintro v k ⟨⟩ (hw : w = c.canonical)
      refine hfresh.not_born ?_
      rw [hw]
      exact hb.born hc
  | failed hc | interrupted hc => exact hb.work rfl ((holds_of_idle hc).2 rfl) rfl nofun

/-- The controller knows the machine that it opened a transaction on. -/
theorem Begins.holds (h : c.Begins mode xs ns (.ok w) c') : c'.Holds w := by
  cases h with
  | direct hc => exact ⟨hc.1, .inl rfl⟩
  | isolated hc => exact ⟨hc.1, .inr ⟨_, rfl⟩⟩

theorem Settles.balances {keeps : Bool} {o : Except Failure Unit} (h : c.Settles keeps xs ns o c')
    (hb : c.Balances machine own) (hf : c.Fits mode) : c'.Balances machine (own ++ xs) := by
  cases h with
  | absent => simpa using hb
  | direct ht =>
    have hc := hf.open_of_transaction ht
    rw [List.append_nil]
    refine ⟨hb.books.congr fun v => ?_, nofun⟩
    rw [holds_of_direct hc ht, holds_of_idle (c := c.cleared) ⟨hc, rfl⟩]
    rfl
  | @promoted w k ht _ reply =>
    have hc := hf.open_of_transaction ht
    have hne := hb.apart w k ht
    obtain rfl := (hf.isolated w k ht).2
    have hheld := (holds_of_isolated hc ht).2 (.inl rfl)
    refine ⟨(hb.books.release hheld reply).congr fun v => ?_, nofun⟩
    rw [holds_of_isolated hc ht, holds_of_idle (c := c.promoted w reply) ⟨hc, rfl⟩]
    constructor
    · rintro ⟨rfl | rfl, hv⟩
      · exact absurd rfl hv
      · rfl
    · rintro rfl
      exact ⟨.inr rfl, hne⟩
  | @discarded w k ht _ reply =>
    have hc := hf.open_of_transaction ht
    have hne := hb.apart w k ht
    have hheld := (holds_of_isolated hc ht).2 (.inr rfl)
    refine ⟨(hb.books.release hheld reply).congr fun v => ?_, nofun⟩
    rw [holds_of_isolated hc ht, holds_of_idle (c := c.discarded reply) ⟨hc, rfl⟩]
    constructor
    · rintro ⟨rfl | rfl, hv⟩
      · rfl
      · exact absurd rfl hv
    · rintro rfl
      exact ⟨.inl rfl, hne.symm⟩

end Controller

/-! ## Sessions and the books -/

theorem Hears.balances {machine w : Handle} {own xs : List Exchange} {c : Controller}
    {o : Except Failure Reading} (h : Hears w xs o) (hb : c.Balances machine own) (hw : c.Holds w) :
    c.Balances machine (own ++ xs) := by
  cases h with
  | stopped | broke => exact hb.work rfl hw rfl nofun
  | silent reason _ e =>
    have hrun := hb.work (x := .run w (.ok reason)) rfl hw rfl nofun
    simpa using hrun.work (x := .receive w (.error e)) rfl hw rfl nofun
  | yielded reason _ request =>
    have hrun := hb.work (x := .run w (.ok reason)) rfl hw rfl nofun
    simpa using hrun.work (x := .receive w (.ok request)) rfl hw rfl nofun

namespace Session

variable {mode : Isolation} {machine w : Handle} {s : Session} {kind : InputKind}
  {c c' : Controller} {p : Phase} {own xs : List Exchange} {ns : List Notice} {fs : List Failure}

theorem Fails.balances {e : Error} {f : Failure} (h : Fails kind e c xs ns f c')
    (hb : c.Balances machine own) (hf : c.Fits mode) : c'.Balances machine (own ++ xs) := by
  cases h with
  | rolledBack h => exact h.balances hb hf

theorem Judges.balances {r : Reading} {o : Except Failure Seat.Turn}
    (h : Judges kind w r c xs ns o c' p) (hb : c.Balances machine own) (hf : c.Fits mode) :
    c'.Balances machine (own ++ xs) := by
  cases h with
  | delivered | passed | refused => simpa using hb
  | ended _ he =>
    cases he with
    | settled h | unsettled h => exact h.balances hb hf

theorem Closes.balances {o : Except Failure Unit} (h : s.Closes c xs ns o c' p)
    (hb : c.Balances machine own) (hf : c.Fits mode) : c'.Balances machine (own ++ xs) := by
  cases h with
  | fresh | done => simpa using hb
  | running _ h => exact h.balances hb hf

/-- Whatever a session does, the controller knows what is owned afterwards. -/
theorem Moves.balances (h : s.Moves c xs ns fs c' p) (hb : c.Balances machine own)
    (hf : c.Fits s.isolation) (hw : ∀ w, s.phase = .running w → c.Holds w)
    (hfresh : Fresh machine (own ++ xs)) : c'.Balances machine (own ++ xs) := by
  cases h with
  | start hp h =>
    cases h with
    | refused h => exact h.balances hb hfresh
    | sent h | interrupted h =>
      rw [← List.append_assoc] at hfresh ⊢
      exact (h.balances hb hfresh.of_append).work rfl h.holds rfl nofun
    | @failed xs ys _ _ w _ _ _ h e _ hfail =>
      have hsplit : own ++ (xs ++ .send w s.kind.reason s.payload (.error e) :: ys) =
          own ++ xs ++ [.send w s.kind.reason s.payload (.error e)] ++ ys := by simp
      rw [hsplit] at hfresh ⊢
      have hopened := h.balances hb hfresh.of_append.of_append
      exact hfail.balances (hopened.work rfl h.holds rfl nofun) h.fits
  | turn hp h =>
    cases h with
    | heard hh hj =>
      rw [← List.append_assoc]
      exact hj.balances (hh.balances hb (hw _ hp)) hf
    | interrupted hh => exact hh.balances hb (hw _ hp)
    | failed hh _ hfail =>
      rw [← List.append_assoc]
      exact hfail.balances (hh.balances hb (hw _ hp)) hf
  | close h | abandon h => exact h.balances hb hf

/-- A direct session makes no fork. -/
theorem Moves.not_isFork (h : s.Moves c xs ns fs c' p) (hm : s.isolation = .direct) {x : Exchange}
    (hx : x ∈ xs) : x.isFork = false := by
  rcases h.mem hx with
    ⟨hm', -⟩ | ⟨_, _, _, _, _, rfl, -⟩ | ⟨_, -, ⟨_, rfl⟩ | ⟨_, rfl⟩⟩ | ⟨_, _, rfl⟩
  · cases hm.symm.trans hm'
  · rfl
  · rfl
  · rfl
  · rfl

end Session

namespace Seat

variable {b : Backend W} {machine w : Handle} {s s' : Seat W} {xs own : List Exchange}
  {ns : List Notice} {fs : List Failure} {foreign : Option Transaction}

theorem Linked.holds (h : s.Linked foreign own) (hp : s.session.phase = .running w) :
    s.controller.Holds w := by
  obtain ⟨-, t, ht, hw⟩ := h.of_running hp
  refine ⟨h.fits.open_of_transaction ht, ?_⟩
  cases t with
  | isolated v k =>
    cases hw
    exact .inr ⟨k, ht⟩
  | direct v =>
    cases hw
    exact .inl (h.fits.direct v ht).2

theorem Path.balances (h : Path b s xs ns fs s') (hs : s.Linked foreign own)
    (hb : s.controller.Balances machine own) (hfresh : Fresh machine (own ++ xs)) :
    s'.controller.Balances machine (own ++ xs) := by
  induction h generalizing own with
  | refl => simpa using hb
  | step head _ ih =>
    rw [← List.append_assoc] at hfresh ⊢
    have hhead := head.moves.balances hb hs.fits (fun _ => hs.holds) hfresh.of_append
    exact ih (head.linked hs) hhead hfresh

theorem Path.not_isFork (h : Path b s xs ns fs s') (hm : s.session.isolation = .direct)
    {x : Exchange} (hx : x ∈ xs) : x.isFork = false := by
  induction h with
  | refl => cases hx
  | step head _ ih =>
    rcases List.mem_append.1 hx with hx | hx
    · exact head.moves.not_isFork hm hx
    · refine ih ?_ hx
      rw [head.session]
      exact hm

end Seat

/-! ## Operations on an engine -/

theorem Controller.Stores.balances {machine : Handle} {c : Controller} {path : String}
    {own xs : List Exchange} {ns : List Notice} {o : Except Failure Unit}
    (h : c.Stores path xs ns o) (hb : c.Balances machine own) : c.Balances machine (own ++ xs) := by
  cases h with
  | closed | busy => simpa using hb
  | stored hc | failed hc => exact hb.work rfl ((holds_of_idle hc).2 rfl) rfl nofun

theorem Controller.ShutsDown.balances {machine : Handle} {c c' : Controller}
    {own xs : List Exchange} {ns : List Notice} {o : Except Failure Unit}
    (h : c.ShutsDown xs ns o c') (hb : c.Balances machine own) :
    c'.Balances machine (own ++ xs) := by
  have hreleased (hc : c.Idle) (reply : Except Error Unit) :
      Balances machine (own ++ [Exchange.shutdown c.canonical reply])
        { c with closed := true } := by
    refine ⟨(hb.books.release ((holds_of_idle hc).2 rfl) reply).congr fun v => ?_, hb.apart⟩
    rw [holds_of_idle hc]
    exact iff_of_false (fun h => h.2 h.1) (not_holds_of_closed rfl)
  cases h with
  | closed | busy => simpa using hb
  | released hc | failed hc => exact hreleased hc _

namespace EngineOp

variable {b : Backend W} {config : EngineConfig} {op : EngineOp} {r r' : Room W}
  {xs own : List Exchange} {ns : List Notice} {fs : List Failure} {machine : Handle}

theorem Does.balances (h : Does b config r op xs ns fs r') (hr : r.Linked config.isolation own)
    (hb : r.controller.Balances machine own) (hfresh : Fresh machine (own ++ xs)) :
    r'.controller.Balances machine (own ++ xs) := by
  cases h with
  | closed | notBytes | opened | absent => simpa using hb
  | collected _ _ _ path => exact path.balances (hr.fresh rfl rfl) hb hfresh
  | walked hn _ path => exact path.balances (hr.seat hn) hb hfresh
  | stored h hd =>
    rw [hd]
    exact h.balances hb
  | shutDown h => exact h.balances hb

theorem Does.not_isFork (h : Does b config r op xs ns fs r') (hr : r.Linked config.isolation own)
    (hm : config.isolation = .direct) : ∀ x ∈ xs, x.isFork = false := by
  intro x hx
  cases h with
  | closed | notBytes | opened | absent => cases hx
  | collected _ _ _ path => exact path.not_isFork hm hx
  | walked hn _ path => exact path.not_isFork ((hr.isolation _ _ hn).trans hm) hx
  | stored h =>
    cases h with
    | closed | busy => cases hx
    | stored | failed =>
      cases List.mem_singleton.1 hx
      rfl
  | @shutDown _ _ _ d h =>
    generalize d.controller = c at h
    cases h with
    | closed | busy => cases hx
    | released | failed =>
      cases List.mem_singleton.1 hx
      rfl

end EngineOp

/-- The account of the machines of an engine around `machine`, after the calls `own`. -/
structure Room.Accounts (mode : Isolation) (machine : Handle) (own : List Exchange) (r : Room W) :
    Prop where
  /-- An open engine owns the canonical machine and the fork of an isolated transaction. -/
  held : r.controller.closed = false → ∀ h, Owned machine own h ↔
    h = r.controller.canonical ∨ ∃ k, r.controller.transaction = some (.isolated h k)
  /-- A closed engine owns nothing. -/
  spent : r.controller.closed = true → ∀ h, ¬Owned machine own h
  /-- No machine is released twice. -/
  once : ∀ h, (own.filter (Exchange.releases h)).length ≤ 1
  /-- No machine is called after its release. -/
  orderly : own.Pairwise Exchange.Spares
  /-- A direct engine makes no fork. -/
  direct : mode = .direct → ∀ x ∈ own, x.isFork = false

theorem Books.once {machine : Handle} {xs : List Exchange} {held : Handle → Prop}
    (h : Books machine xs held) (v : Handle) : (xs.filter (Exchange.releases v)).length ≤ 1 := by
  have horderly := h.orderly.filter (Exchange.releases v)
  have hreleases : ∀ x ∈ xs.filter (Exchange.releases v), ∃ reply, x = .shutdown v reply := by
    intro x hx
    have hx := (List.mem_filter.1 hx).2
    cases x with
    | shutdown m reply => exact ⟨reply, by rw [of_decide_eq_true hx]⟩
    | fork | send | run | receive | store | load => cases hx
  generalize xs.filter (Exchange.releases v) = ys at horderly hreleases
  rcases ys with _ | ⟨x, _ | ⟨y, ys⟩⟩
  · simp
  · simp
  · obtain ⟨reply, rfl⟩ := hreleases x List.mem_cons_self
    obtain ⟨reply', rfl⟩ := hreleases y (by simp)
    exact absurd rfl ((List.pairwise_cons.1 horderly).1 _ List.mem_cons_self v reply rfl)

theorem Controller.Balances.accounts {mode : Isolation} {machine : Handle} {own : List Exchange}
    {r : Room W} (h : r.controller.Balances machine own)
    (hm : mode = .direct → ∀ x ∈ own, x.isFork = false) : r.Accounts mode machine own where
  held hc v := (h.books.owned v).trans ⟨And.right, fun hv => ⟨hc, hv⟩⟩
  spent hc v hv := not_holds_of_closed hc ((h.books.owned v).1 hv)
  once := h.books.once
  orderly := h.books.orderly
  direct := hm

theorem Room.Accounts.of_isolated {mode : Isolation} {machine w k : Handle} {own : List Exchange}
    {r : Room W} (h : r.Accounts mode machine own) (hc : r.controller.closed = false)
    (hk : r.controller.canonical = k) (ht : r.controller.transaction = some (.isolated w k))
    (v : Handle) : Owned machine own v ↔ v = k ∨ v = w := by
  rw [h.held hc, hk, ht]
  simp [eq_comm]

/-- What a run keeps true of the machines: the invariant behind `Room.Accounts`. -/
structure Room.Audited (mode : Isolation) (machine : Handle) (own : List Exchange) (r : Room W) :
    Prop where
  linked : r.Linked mode own
  balances : Fresh machine own → r.controller.Balances machine own
  direct : mode = .direct → ∀ x ∈ own, x.isFork = false

theorem Room.opening_audited (mode : Isolation) (machine : Handle) (s : Site W) :
    (opening machine s).Audited mode machine [] where
  linked := opening_linked mode machine s
  balances _ := by
    refine ⟨(Books.start machine).congr fun h => ?_, nofun⟩
    exact (Controller.holds_of_idle (c := (opening machine s).controller) ⟨rfl, rfl⟩).symm
  direct _ := List.forall_mem_nil _

namespace EngineOp

theorem Does.audited {b : Backend W} {config : EngineConfig} {op : EngineOp} {r r' : Room W}
    {xs own : List Exchange} {ns : List Notice} {fs : List Failure} {machine : Handle}
    (h : Does b config r op xs ns fs r') (hr : r.Audited config.isolation machine own) :
    r'.Audited config.isolation machine (own ++ xs) where
  linked := h.linked hr.linked
  balances hfresh := h.balances hr.linked (hr.balances hfresh.of_append) hfresh
  direct hm := List.forall_mem_append.2 ⟨hr.direct hm, h.not_isFork hr.linked hm⟩

/-- As long as every fork is fresh, an engine owns exactly the machines that its controller knows,
in every room that it comes to, whatever its machines do. -/
theorem run_accounts (b : Backend W) (config : EngineConfig) (machine : Handle) (s : Site W)
    (ops : List EngineOp) (own : List Exchange)
    (hown : (run b config ops (.opening machine s)).calls = s.calls ++ own)
    (hfresh : Fresh machine own) :
    (run b config ops (.opening machine s)).Accounts config.isolation machine own := by
  obtain ⟨xs, _, hfollows, haudited⟩ :=
    run_record (fun _ h hr => h.audited hr) ops (Room.opening_audited config.isolation machine s)
  obtain rfl : xs = own := List.append_cancel_left (hfollows.calls.symm.trans hown)
  exact (haudited.balances hfresh).accounts haudited.direct

/-- An engine that was pulled once owns its first machine and the fork that the session works on. -/
theorem pulled_accounts :
    let program := Scripted.Program.script [.automatic .output [1], .manual .accepted []]
    let ops := [submit .advance (.bytes [5]) (some false), .session 0 .pull]
    let r := run Scripted.backend {} ops (.opening 0 { world := .ofLedger [] [program] [] })
    ∀ h, Owned 0 r.calls h ↔ h = 0 ∨ h = 1 := by
  intro program ops r
  have hfresh : Fresh 0 r.calls := by decide +kernel
  have haccounts : r.Accounts .isolated 0 r.calls :=
    run_accounts Scripted.backend {} 0 { world := .ofLedger [] [program] [] } ops r.calls
      (by rw [List.nil_append]) hfresh
  exact haccounts.of_isolated (by decide +kernel) (by decide +kernel) (by decide +kernel)

end EngineOp

end RollupEngine

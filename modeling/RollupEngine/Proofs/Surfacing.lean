import RollupEngine.Proofs.Correspondence
import RollupEngine.Proofs.Fate
import RollupEngine.Scripted.World

/-!
# What surfaces of an error of a machine

An ordinary error that a machine raises comes out of the operation as a fatal error, whichever call
raised it and whatever its class. There is one way around: what the release raises that a rollback
makes is passed on as it is if it is an error of the engine's own (`Failure.closing`), so a machine
can make an operation fail with any of them. `Page.Surfaces` states both, and what follows for the
other errors of the engine: a rejection comes from the guest, and a busy or closed engine refuses by
itself, unless the release raised that very error.
-/

namespace RollupEngine

variable {W : Type}

/-! ## Kinds of failures -/

namespace Failure

/-- The kind of a failure that is an error of the engine's own. -/
def kind? (f : Failure) : Option EngineErrorKind :=
  f.error.engineKind?

/-- An interrupt is no error of the engine's own. -/
theorem kind?_of_interrupt {f : Failure} (h : f.ordinary = false) : f.kind? = none := by
  obtain ⟨e, cause⟩ := f
  cases e <;> first | rfl | cases h

theorem kind?_of_suspends {f : Failure} (h : f.Suspends) : f.kind? = none := by
  rcases h with h | rfl
  · exact kind?_of_interrupt h
  · rfl

/-- A failure to close a transaction is fatal, or it is passed on. -/
theorem closing_cases (f : Failure) :
    f.closing.kind? = some .fatal ∨
      f.closing = f ∧ (f.kind? ≠ none ∨ f.ordinary = false) := by
  obtain ⟨e, cause⟩ := f
  cases e with
  | engine => exact .inr ⟨rfl, .inl nofun⟩
  | interrupt | stalled => exact .inr ⟨rfl, .inr rfl⟩
  | fault | notBytes => exact .inl rfl

end Failure

/-- A controller refuses because it is closed, or because it is busy. -/
theorem Controller.kind?_of_refusal {c : Controller} {f : Failure} (h : c.refusal? = some f) :
    f.kind? = some .closed ∨ f.kind? = some .busy := by
  unfold refusal? at h
  split at h
  · cases h
    exact .inl rfl
  · split at h
    · cases h
      exact .inr rfl
    · cases h

/-- The failure `f` was raised by a release among the calls, and passed on: it is an error of the
engine's own, or an interrupt. -/
def Failure.Released (xs : List Exchange) (f : Failure) : Prop :=
  (∃ m, .shutdown m (.error f.error) ∈ xs) ∧ (f.kind? ≠ none ∨ f.ordinary = false)

/-- Opening a transaction fails with a refusal, with a fatal error, or with an interrupt. -/
theorem Controller.Begins.error_cases {mode : Isolation} {c c' : Controller} {xs : List Exchange}
    {ns : List Notice} {f : Failure} (h : c.Begins mode xs ns (.error f) c') :
    c.refusal? = some f ∨ f.kind? = some .fatal ∨ f.ordinary = false := by
  cases h with
  | closed hc => exact .inl (refusal?_of_closed hc)
  | busy hc ht => exact .inl (refusal?_of_busy hc (Option.isSome_iff_ne_none.1 ht))
  | failed => exact .inr (.inl rfl)
  | interrupted _ _ _ he => exact .inr (.inr he)

/-- A transaction that cannot be closed is reported by a fatal error, or as its release says. -/
theorem Controller.Settles.closing_cases {keeps : Bool} {c c' : Controller} {xs : List Exchange}
    {ns : List Notice} {o : Except Failure Unit} (h : c.Settles keeps xs ns o c')
    (hc : c.transaction ≠ none) {f : Failure} (hf : failed? (o.mapError .closing) = some f) :
    f.kind? = some .fatal ∨ f.Released xs := by
  cases o with
  | ok _ => cases hf
  | error g =>
    obtain rfl := Option.some.inj hf
    rcases g.closing_cases with hfatal | ⟨hg, hkind⟩
    · exact .inl hfatal
    · rw [hg]
      exact .inr ⟨h.raised hc, hkind⟩

/-- A rollback whose release raises fails. -/
theorem Controller.Settles.error_of_release {keeps : Bool} {c c' : Controller} {xs : List Exchange}
    {ns : List Notice} {o : Except Failure Unit} (h : c.Settles keeps xs ns o c')
    (hx : ∃ m e, .shutdown m (.error e) ∈ xs) (hn : .rolledBack .isolated ∈ ns) :
    ∃ f, o = .error f := by
  obtain ⟨m, e, hx⟩ := hx
  cases h with
  | absent | direct => cases hx
  | promoted _ _ reply => cases hl : leaks reply <;> simp [hl] at hn
  | discarded =>
    cases List.mem_singleton.1 hx
    exact ⟨_, rfl⟩

namespace Session

variable {s : Session} {kind : InputKind} {c c' : Controller} {p : Phase} {fate : Fate}
  {xs ys : List Exchange} {ns ks : List Notice} {f : Failure}

/-- A session that failed raises a fatal error, unless its release is interrupted. -/
theorem Quits.raises_of_failed {quit : Option Failure} {e : Error}
    (h : Quits kind c (.failed e) ys ks quit c' p) (hc : c.transaction ≠ none) :
    ∃ f, quit = some f ∧ (f.kind? = some .fatal ∨ f.Released ys ∧ f.ordinary = false) := by
  cases h with
  | @failed _ _ o _ e h =>
    refine ⟨_, rfl, ?_⟩
    cases o with
    | ok _ => exact .inl rfl
    | error g =>
      cases hg : g.closing.ordinary with
      | true =>
        simp only [Failure.mapError_closing, Failure.ofMachine, hg, if_true]
        exact .inl rfl
      | false =>
        have hpassed : Failure.ofMachine e (Except.mapError .closing (.error g)) = g.closing := by
          simp only [Failure.mapError_closing, Failure.ofMachine, hg, Bool.false_eq_true, if_false]
        rw [hpassed]
        exact (h.closing_cases hc rfl).imp_right fun hreleased => ⟨hreleased, hg⟩

/-- What the end of a session raises. -/
theorem Quits.raise_cases (h : Quits kind c fate ys ks (some f) c' p) (hc : c.transaction ≠ none) :
    f.kind? = some .fatal ∨ f.Released ys ∨
      f = .ofKind .inputRejected ∧ fate = .ended .rejected := by
  generalize hq : some f = quit at h
  cases h with
  | failed e h =>
    have hquits : Quits kind c (.failed e) ys _ _ c' .fatal := .failed e h
    obtain ⟨g, hg, hkind⟩ := hquits.raises_of_failed hc
    obtain rfl := Option.some.inj (hq.trans hg)
    exact hkind.imp_right fun hreleased => .inl hreleased.1
  | @ended _ _ o _ ending h =>
    rcases Option.or_eq_some_iff.1 hq.symm with ho | ⟨-, hending⟩
    · exact (h.closing_cases hc ho).imp_right .inl
    · cases ending with
      | accepted => cases hending
      | rejected => exact .inr (.inr ⟨(Option.some.inj hending).symm, rfl⟩)
      | exception | violation =>
        cases hending
        exact .inl rfl
  | closed h => exact (h.closing_cases hc hq.symm).imp_right .inl

/-- A rollback whose release raises makes its operation fail. -/
theorem Quits.raises_of_release {quit : Option Failure} (h : Quits kind c fate ys ks quit c' p)
    (hc : c.transaction ≠ none) (hx : ∃ m e, .shutdown m (.error e) ∈ ys)
    (hn : .rolledBack .isolated ∈ ks) :
    ∃ f, quit = some f ∧ (f.kind? = some .fatal ∨ f.Released ys) := by
  have closing {keeps : Bool} {o : Except Failure Unit} (h : c.Settles keeps ys ks o c') :
      ∃ f, failed? (o.mapError .closing) = some f ∧
        (f.kind? = some .fatal ∨ f.Released ys) := by
    obtain ⟨f, hf⟩ : ∃ f, failed? (o.mapError .closing) = some f := by
      obtain ⟨g, rfl⟩ := h.error_of_release hx hn
      exact ⟨_, rfl⟩
    exact ⟨f, hf, h.closing_cases hc hf⟩
  cases h with
  | failed e h =>
    have hquits : Quits kind c (.failed e) ys ks _ c' .fatal := .failed e h
    obtain ⟨f, hf, hkind⟩ := hquits.raises_of_failed hc
    exact ⟨f, hf, hkind.imp_right And.left⟩
  | ended ending h =>
    obtain ⟨f, hf, hkind⟩ := closing h
    exact ⟨f, by rw [hf, Option.some_or], hkind⟩
  | closed h => exact closing h

/-- A session that is to be brought to its end has its transaction open. -/
theorem Stands.opens {foreign : Option Transaction} {own : List Exchange} {d : Desk W}
    {c' : Controller} {w : Handle} (h : s.Stands d.controller c' (.running w))
    (hs : Seat.Linked foreign own ⟨d, s⟩) : c'.transaction ≠ none := by
  generalize hp : Phase.running w = p at h
  cases h with
  | opened _ hb => exact hb.opens
  | withdrawn => cases hp
  | same =>
    obtain ⟨-, t, ht, -⟩ := hs.of_running hp.symm
    exact Option.ne_none_iff_exists'.2 ⟨t, ht⟩

/-- What comes of an operation on a session. -/
theorem raise_cases {foreign : Option Transaction} {own : List Exchange} {d : Desk W}
    {told : Option Failure} (hs : Seat.Linked foreign own ⟨d, s⟩)
    (h : s.Departs d.controller xs ns told c' p ∨ s.Stays d.controller xs ns told c' p)
    (hf : told = some f) :
    f.kind? = some .fatal ∨ f.Suspends ∨ f.Released xs ∨ d.controller.refusal? = some f ∨
      f = .ofKind .inputRejected ∧ s.kind.fate xs = .ended .rejected := by
  rcases h with ⟨stands, quits, releases, -, -, htold, pending⟩ | hstays
  · rw [htold] at hf
    rcases Option.or_eq_some_iff.1 hf with hquit | ⟨-, hpending⟩
    · rw [hquit] at quits
      rcases quits.raise_cases (stands.opens hs) with hfatal | ⟨⟨m, hm⟩, hkind⟩ | hrejected
      · exact .inl hfatal
      · rw [← releases] at hm
        exact .inr (.inr (.inl ⟨⟨m, (List.mem_filter.1 hm).1⟩, hkind⟩))
      · exact .inr (.inr (.inr (.inr hrejected)))
    · exact .inr (.inl (pending f hpending).1)
  · rcases hstays.told f hf with hsuspends | ⟨-, -, _, _, hb⟩
    · exact .inr (.inl hsuspends)
    · rcases hb.error_cases with hrefusal | hfatal | hinterrupt
      · exact .inr (.inr (.inr (.inl hrefusal)))
      · exact .inl hfatal
      · exact .inr (.inl (.inl hinterrupt))

/-- An ordinary error of a machine surfaces, unless it is of a release after a commit. -/
theorem surfaces {foreign : Option Transaction} {own : List Exchange} {d : Desk W}
    {told : Option Failure} (hs : Seat.Linked foreign own ⟨d, s⟩)
    (h : s.Departs d.controller xs ns told c' p ∨ s.Stays d.controller xs ns told c' p)
    {x : Exchange} {e : Error} (hx : x ∈ xs) (he : x.error? = some e) (hord : e.ordinary = true)
    (hrelease : x.isRelease = true → .rolledBack .isolated ∈ ns) :
    ∃ f, told = some f ∧ (f.kind? = some .fatal ∨
      f.Released xs ∧ (x.isRelease = false → f.ordinary = false)) := by
  rcases h with @⟨_, _, ys, ks, _, _, stands, quits, releases, notices, raised, htold, -⟩ | hstays
  · have hopen := stands.opens hs
    have hreleased {f : Failure} (hf : f.Released ys) : f.Released xs := by
      rw [← releases] at hf
      exact ⟨hf.1.imp fun m hm => (List.mem_filter.1 hm).1, hf.2⟩
    rcases raised x hx e he hord with hmem | hfate
    · have hxr : x.isRelease = true := by
        rw [← releases] at hmem
        exact (List.mem_filter.1 hmem).2
      have hshutdown : ∃ m e, .shutdown m (.error e) ∈ ys := by
        obtain ⟨m, rfl⟩ := Exchange.eq_shutdown_of_isRelease hxr he
        exact ⟨m, e, hmem⟩
      obtain ⟨f, hquit, hkind⟩ := quits.raises_of_release hopen hshutdown (notices (hrelease hxr))
      refine ⟨f, by rw [htold, hquit, Option.some_or], hkind.imp_right fun hf => ?_⟩
      exact ⟨hreleased hf, fun hno => absurd (hxr.symm.trans hno) nofun⟩
    · rw [hfate] at quits
      obtain ⟨f, hquit, hkind⟩ := quits.raises_of_failed hopen
      refine ⟨f, by rw [htold, hquit, Option.some_or], hkind.imp_right fun hf => ?_⟩
      exact ⟨hreleased hf.1, fun _ => hf.2⟩
  · exact ⟨_, hstays.raised x hx e he hord, .inl rfl⟩

end Session

/-! ## Operations on an engine -/

/-- What surfaces in an operation on the session `s`. -/
structure Page.Surfaces (s : Session) (p : Page W) : Prop where
  /-- An ordinary error of any call comes out as a fatal error, unless what the release of a
  rollback raises comes out; and that is an interrupt if it is not the call itself. Only the
  releases after a commit are left out. -/
  fatal : ∀ x ∈ p.calls, ∀ e, x.error? = some e → e.ordinary = true →
    (x.isRelease = true → .rolledBack .isolated ∈ p.notices) →
      ∃ f, p.answer.outcome = .error f ∧ (f.kind? = some .fatal ∨
        f.Released p.calls ∧ (x.isRelease = false → f.ordinary = false))
  /-- An input is rejected by the guest, or as the release says. -/
  rejected : ∀ f, p.answer.outcome = .error f → f.kind? = some .inputRejected →
    s.kind.ending? (Exchange.breaks p.calls) = some .rejected ∨ f.Released p.calls
  /-- A controller that is busy or closed refuses by itself, or the release says so. -/
  refused : ∀ f, p.answer.outcome = .error f →
    f.kind? = some .busy ∨ f.kind? = some .closed ∨ f.kind? = some .transaction →
      p.before.controller.refusal? = some f ∨ f.Released p.calls

namespace EngineOp

/-- In every room that an engine comes to, an operation on a session that is asked to raise nothing
surfaces the errors of the machines as they should, but for those that the release of a rollback
raises. -/
theorem run_surfaces (b : Backend W) (config : EngineConfig) (machine : Handle) (site : Site W)
    (ops : List EngineOp) {op : EngineOp} {s t : Session}
    (hact : op.acting? b config (run b config ops (.opening machine site)) = some (s, t))
    (hkeeps : op.keeps = true) (hraises : op.raises? = none) :
    (op.page b config (run b config ops (.opening machine site))).Surfaces s := by
  obtain ⟨own, -, -, hlinked⟩ := run_linked b config machine site ops
  obtain ⟨foreign, hs⟩ := linked_of_acting hlinked hact
  obtain ⟨told, seat, hcourse, -, -, hanswer⟩ := course hact
  rw [answers, if_pos hkeeps, hraises, Option.map_none, Option.or_none] at hanswer
  generalize run b config ops (.opening machine site) = r at *
  cases hd : s.phase.done with
  | true =>
    obtain ⟨rfl, hcalls, -⟩ := hcourse.of_done hd
    refine ⟨fun x hx => ?_, fun f hf => ?_, fun f hf => ?_⟩
    · rw [hcalls] at hx
      cases hx
    · cases (Answer.failure?_eq_some.2 hf).symm.trans hanswer
    · cases (Answer.failure?_eq_some.2 hf).symm.trans hanswer
  | false =>
    have hcases := hcourse.departs_or_stays hd
    have raised {f : Failure} (hf : (op.page b config r).answer.outcome = .error f) :=
      Session.raise_cases hs hcases (hanswer.symm.trans (Answer.failure?_eq_some.2 hf))
    refine ⟨fun x hx e he hord hrelease => ?_, fun f hf hkind => ?_, fun f hf hkind => ?_⟩
    · obtain ⟨f, rfl, hf⟩ := Session.surfaces hs hcases hx he hord hrelease
      exact ⟨f, Answer.failure?_eq_some.1 hanswer, hf⟩
    · rcases raised hf with hfatal | hsuspends | hreleased | hrefusal | ⟨-, hfate⟩
      · cases hfatal.symm.trans hkind
      · cases (Failure.kind?_of_suspends hsuspends).symm.trans hkind
      · exact .inr hreleased
      · rcases Controller.kind?_of_refusal hrefusal with hk | hk <;> cases hk.symm.trans hkind
      · exact .inl (InputKind.of_fate_ended hfate)
    · rcases raised hf with hfatal | hsuspends | hreleased | hrefusal | ⟨rfl, -⟩
      · rcases hkind with hkind | hkind | hkind <;> cases hfatal.symm.trans hkind
      · have hnone := Failure.kind?_of_suspends hsuspends
        rcases hkind with hkind | hkind | hkind <;> cases hnone.symm.trans hkind
      · exact .inr hreleased
      · exact .inl hrefusal
      · rcases hkind with hkind | hkind | hkind <;> cases hkind

/-- A machine that fails at its work with a rejection has its pull fail with a fatal error. -/
theorem pull_surfaces :
    let fault : Scripted.Fault :=
      { method := .run, nth := 1, error := .engine (.make .inputRejected) }
    let ops := [submit .advance (.bytes [97]) (some false)]
    let r := run Scripted.backend {} ops (.opening 0 { world := .ofLedger [] [] [fault] })
    let p := (session 0 .pull).page Scripted.backend {} r
    ∃ f, p.answer.outcome = .error f ∧ f.kind? = some .fatal := by
  intro fault ops r p
  obtain ⟨⟨s, t⟩, hact⟩ : ∃ x, (session 0 .pull).acting? Scripted.backend {} r = some x :=
    Option.isSome_iff_exists.1 (by decide +kernel)
  have hsurfaces : p.Surfaces s :=
    run_surfaces Scripted.backend {} 0 { world := .ofLedger [] [] [fault] } ops hact rfl rfl
  obtain ⟨x, hx, ⟨e, he, hord⟩, hwork⟩ : ∃ x ∈ p.calls,
      (∃ e, x.error? = some e ∧ e.ordinary = true) ∧ x.isRelease = false := by
    have hany : (p.calls.any fun x => x.error?.any Error.ordinary && !x.isRelease) = true := by
      decide +kernel
    simpa [Option.any_eq_true] using hany
  have hquiet : (p.calls.all fun x => x.error?.all Error.ordinary) = true := by decide +kernel
  obtain ⟨f, hf, hkind⟩ := hsurfaces.fatal x hx e he hord (by rw [hwork]; nofun)
  refine ⟨f, hf, hkind.resolve_right ?_⟩
  rintro ⟨⟨⟨m, hm⟩, -⟩, hinterrupt⟩
  cases (List.all_eq_true.1 hquiet _ hm).symm.trans (hinterrupt hwork)

/-- A machine whose release is refused with a rejection has the close of its session fail with that
rejection, though the guest has rejected nothing. -/
theorem close_passes_rejection :
    let fault : Scripted.Fault :=
      { method := .shutdown, nth := 1, error := .engine (.make .inputRejected) }
    let ops := [submit .advance (.bytes [97]) (some false), session 0 .pull]
    let r := run Scripted.backend {} ops (.opening 0 { world := .ofLedger [] [] [fault] })
    let p := (session 0 .close).page Scripted.backend {} r
    (¬∀ x ∈ p.calls, ∀ e, x.error? = some e → e.ordinary = true →
        ∃ f, p.answer.outcome = .error f ∧ f.kind? = some .fatal) ∧
      ¬∀ f, p.answer.outcome = .error f → f.kind? = some .inputRejected →
        InputKind.advance.ending? (Exchange.breaks p.calls) = some .rejected := by
  intro fault ops r p
  have hrejected : p.answer.failure?.bind Failure.kind? = some .inputRejected := by decide +kernel
  refine ⟨fun hfatal => ?_, fun hguest => ?_⟩
  · obtain ⟨x, hx, e, he, hord⟩ : ∃ x ∈ p.calls, ∃ e, x.error? = some e ∧ e.ordinary = true := by
      have hany : (p.calls.any fun x => x.error?.any Error.ordinary) = true := by decide +kernel
      simpa [Option.any_eq_true] using hany
    obtain ⟨f, hf, hkind⟩ := hfatal x hx e he hord
    rw [Answer.failure?_eq_some.2 hf, Option.bind_some, hkind] at hrejected
    cases hrejected
  · obtain ⟨f, hf, hkind⟩ := Option.bind_eq_some_iff.1 hrejected
    have hending := hguest f (Answer.failure?_eq_some.1 hf) hkind
    have hsilent : Exchange.breaks p.calls = [] := by decide +kernel
    rw [hsilent] at hending
    cases hending

end EngineOp

end RollupEngine

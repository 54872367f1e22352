import RollupEngine.Proofs.Record
import RollupEngine.Scripted.World

/-!
# Separate machines

`Backend.Separate` is what isolation relies on: a fork is another machine, and a machine is touched
only by driving it. Then calls that touch other machines leave the content of a machine as it is
(`Backend.Replays.content_eq`). Scripted machines are separate, with their ledgers for the content
(`Scripted.separate`).
-/

namespace RollupEngine

variable {W : Type}

/-! ## What calls touch -/

namespace Exchange

/-- The machine that a call drives. -/
def drives? : Exchange → Option Handle
  | .send m _ _ _ | .run m _ | .receive m _ => some m
  | _ => none

/-- The machine whose content may be another after a call: it is driven, or made. -/
def touches? (x : Exchange) : Option Handle :=
  x.drives?.or x.created?

theorem touches?_of_drives? {x : Exchange} {m : Handle} (h : x.drives? = some m) :
    x.touches? = some m := by
  rw [touches?, h]
  rfl

end Exchange

/-- A fork is another machine, and no machine is touched through another one. -/
structure Backend.Separate {L : Type} (b : Backend W) (content : W → Handle → L) : Prop where
  fork_ne : ∀ m w, (b.fork m w).1 ≠ .ok m
  frame : ∀ w x w' m, b.Replies w x w' → x.touches? ≠ some m → content w' m = content w m

theorem Backend.Replays.content_eq {L : Type} {b : Backend W} {content : W → Handle → L}
    (hb : b.Separate content) {w w' : W} {xs : List Exchange} (h : b.Replays w xs w') {m : Handle}
    (hm : ∀ x ∈ xs, x.touches? ≠ some m) : content w' m = content w m := by
  induction h with
  | nil => rfl
  | cons head _ ih =>
    obtain ⟨hx, hxs⟩ := List.forall_mem_cons.1 hm
    exact (ih hxs).trans (hb.frame _ _ _ _ head hx)

/-- A machine that is its own fork was never made. -/
theorem Backend.Replays.fork_ne {L : Type} {b : Backend W} {content : W → Handle → L}
    (hb : b.Separate content) {w w' : W} {xs : List Exchange} (h : b.Replays w xs w') (m : Handle) :
    .fork m (.ok m) ∉ xs := by
  induction h with
  | nil => exact List.not_mem_nil
  | @cons w _ _ x _ head _ ih =>
    intro hm
    rcases List.mem_cons.1 hm with rfl | hm
    · exact hb.fork_ne m w (congrArg Prod.fst head)
    · exact ih hm

/-! ## Scripted machines -/

namespace Scripted

namespace World

variable {α : Type} {w : World} {h m : Handle} {mach mach' : Machine}

/-- A call fails and is only counted, or does its body on a machine that is alive. -/
theorem call_cases (w : World) (method : Method) (h : Handle)
    (body : Machine → World → Except Error α × World) :
    (∃ e, w.call method h body = (.error e, w.count method)) ∨
      ∃ mach, w.machines[h]? = some mach ∧
        w.call method h body = body mach (w.count method) := by
  unfold call enter
  dsimp only
  split
  · next e _ => exact .inl ⟨e, rfl⟩
  · split
    · next mach hmach =>
      split
      · exact .inr ⟨mach, hmach, rfl⟩
      · exact .inl ⟨_, rfl⟩
    · exact .inl ⟨_, rfl⟩

/-- A call changes the ledger of a machine only as its body does. -/
theorem ledgerOf_call {method : Method} {body : Machine → World → Except Error α × World}
    {reply : Except Error α} {w' : World} (h' : w.call method h body = (reply, w'))
    (hbody : ∀ mach, w.machines[h]? = some mach →
      (body mach (w.count method)).2.ledgerOf m = w.ledgerOf m) : w'.ledgerOf m = w.ledgerOf m := by
  rcases w.call_cases method h body with ⟨e, he⟩ | ⟨mach, hmach, hcall⟩
  · cases he.symm.trans h'
    rfl
  · rw [← hbody mach hmach, hcall.symm.trans h']

theorem ledgerOf_setMachine_of_ne (hm : h ≠ m) (mach : Machine) :
    (w.setMachine h mach).ledgerOf m = w.ledgerOf m := by
  simp [setMachine, ledgerOf, List.getElem?_set_ne hm]

/-- To put a machine in the place of one that holds the same changes no ledger. -/
theorem ledgerOf_setMachine (hmach : w.machines[h]? = some mach)
    (hledger : mach'.ledger = mach.ledger) (m : Handle) :
    (w.setMachine h mach').ledgerOf m = w.ledgerOf m := by
  by_cases hm : h = m
  · subst hm
    obtain ⟨hlt, hget⟩ := List.getElem?_eq_some_iff.1 hmach
    simp [setMachine, ledgerOf, hlt, hledger, hget]
  · exact ledgerOf_setMachine_of_ne hm mach'

theorem ledgerOf_addMachine (hm : m ≠ w.machines.length) (mach : Machine) :
    (w.addMachine mach).2.ledgerOf m = w.ledgerOf m := by
  unfold addMachine ledgerOf
  rcases Nat.lt_or_gt_of_ne hm with h | h
  · rw [List.getElem?_append_left h]
  · rw [List.getElem?_eq_none (by simp; omega), List.getElem?_eq_none (by omega)]

end World

theorem fork_cases (h : Handle) (w : World) :
    (∃ e, backend.fork h w = (.error e, w.count .fork)) ∨
      ∃ mach, w.machines[h]? = some mach ∧
        backend.fork h w = (w.count .fork).addMachine { ledger := mach.ledger } :=
  w.call_cases .fork h fun m w => w.addMachine { ledger := m.ledger }

theorem ledgerOf_of_replies {w w' : World} {x : Exchange} (h : backend.Replies w x w') {m : Handle}
    (hm : x.touches? ≠ some m) : w'.ledgerOf m = w.ledgerOf m := by
  cases x with
  | fork k reply =>
    rcases fork_cases k w with ⟨e, he⟩ | ⟨mach, -, hfork⟩
    · cases he.symm.trans h
      rfl
    · cases hfork.symm.trans h
      exact World.ledgerOf_addMachine (fun hlen => hm (by rw [hlen]; rfl)) _
  | send k reason payload reply =>
    simp only [Backend.Replies, backend] at h
    exact World.ledgerOf_call h fun mach hmach =>
      World.ledgerOf_setMachine (w := w.count .send) hmach (by rfl) m
  | run k reply =>
    simp only [Backend.Replies, backend] at h
    exact World.ledgerOf_call h fun mach _ =>
      World.ledgerOf_setMachine_of_ne (fun hk => hm (congrArg some hk)) _
  | receive k reply =>
    simp only [Backend.Replies, backend] at h
    exact World.ledgerOf_call h fun _ _ => rfl
  | shutdown k reply =>
    simp only [Backend.Replies, backend] at h
    exact World.ledgerOf_call h fun mach hmach =>
      World.ledgerOf_setMachine (w := w.count .shutdown) hmach (by rfl) m
  | store k path reply =>
    simp only [Backend.Replies, backend] at h
    exact World.ledgerOf_call h fun _ _ => rfl
  | load origin reply =>
    simp only [Backend.Replies, backend, World.enter] at h
    split at h
    · cases h
      rfl
    · split at h
      · cases h
        exact World.ledgerOf_addMachine (fun hlen => hm (by rw [hlen]; rfl)) _
      · cases h
        rfl

/-- Scripted machines are separate, with their ledgers for the content. -/
theorem separate : backend.Separate World.ledgerOf where
  fork_ne m w h := by
    rcases fork_cases m w with ⟨e, he⟩ | ⟨mach, hmach, hfork⟩
    · rw [he] at h
      cases h
    · rw [hfork] at h
      obtain ⟨hlt, -⟩ := List.getElem?_eq_some_iff.1 hmach
      have hlen : w.machines.length = m := Except.ok.inj h
      omega
  frame w x w' m h hm := ledgerOf_of_replies h hm

end Scripted

end RollupEngine

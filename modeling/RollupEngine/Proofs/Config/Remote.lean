import RollupEngine.Config.Remote
import RollupEngine.Proofs.Text.Numeral

/-!
# The timeout of a remote machine

The timeout is a numeral, and the grammar of numerals decides all that can happen when the
configuration of a remote machine is loaded (`RemoteConfig.load_timeout`): unset or empty the
variable leaves the default, and whatever else is not a numeral is refused.
-/

namespace RollupEngine.RemoteConfig

open Numeral (Denotes Spelling decimal)
open Text (Padded isNumeralBlank)

variable {env : Environment}

theorem load_of_unset (h : env timeoutVariable = none ∨ env timeoutVariable = some "") :
    load env = .ok { address := (env addressVariable).getD "127.0.0.1:0", timeout := -1 } := by
  rcases h with h | h <;> rw [load, readTimeout, h] <;> rfl

variable {s : String}

theorem load_of_parse?_eq_some {n : Int} (h : env timeoutVariable = some s) (hs : s ≠ "")
    (hn : Numeral.parse? s = some n) :
    load env = .ok { address := (env addressVariable).getD "127.0.0.1:0", timeout := n } := by
  rw [load, readTimeout, h, Option.getD_some, if_neg (by rwa [String.isEmpty_iff]), hn]
  rfl

theorem load_of_parse?_eq_none (h : env timeoutVariable = some s) (hs : s ≠ "")
    (hn : Numeral.parse? s = none) : load env = .error (.notInteger timeoutVariable) := by
  rw [load, readTimeout, h, Option.getD_some, if_neg (by rwa [String.isEmpty_iff]), hn]
  rfl

/-- The timeout is read exactly by the grammar of numerals. A variable that is unset or empty leaves
the default; any other text gives the number that it denotes, and is refused if it denotes none, as
white space does. Every integer that is not too long is read back from its text, in decimal or in
any other spelling, with any white space around it. -/
theorem load_timeout (env : Environment) :
    let text := env "ROLLKERNEL_REMOTE_TIMEOUT"
    let address := (env "ROLLKERNEL_REMOTE_ADDRESS").getD "127.0.0.1:0"
    (text = none ∨ text = some "" → load env = .ok { address, timeout := -1 }) ∧
    (∀ s, text = some s → s ≠ "" →
      (∀ config, load env = .ok config ↔
        config.address = address ∧ Denotes s config.timeout) ∧
      ((∀ n, ¬ Denotes s n) ∨ (∀ c ∈ s.toList, isNumeralBlank c = true) →
        ∃ e, load env = .error e ∧
          e.message = "ROLLKERNEL_REMOTE_TIMEOUT must be an integer") ∧
      ∀ n t, Spelling n t → (decimal n.natAbs).length ≤ 4300 →
        Padded isNumeralBlank t s.toList → load env = .ok { address, timeout := n }) ∧
    ∀ n, Spelling n (toString n).toList := by
  intro text address
  refine ⟨load_of_unset, fun s h hs => ⟨fun config => ?_, fun hno => ?_, ?_⟩,
    Numeral.spelling_toString⟩
  · rw [← Numeral.parse?_eq_some_iff]
    cases hn : Numeral.parse? s with
    | none =>
      rw [load_of_parse?_eq_none h hs hn]
      exact iff_of_false nofun nofun
    | some n =>
      rw [load_of_parse?_eq_some h hs hn, Except.ok.injEq, Option.some_inj]
      obtain ⟨a, m⟩ := config
      rw [RemoteConfig.mk.injEq]
      exact and_congr_left' eq_comm
  · have hnone (n : Int) : ¬ Denotes s n :=
      hno.elim (fun h => h n) Numeral.not_denotes_of_blank
    simp only [← Numeral.parse?_eq_some_iff] at hnone
    exact ⟨_, load_of_parse?_eq_none h hs (Option.eq_none_iff_forall_ne_some.2 hnone), rfl⟩
  · intro n t hspell hlen hpadded
    exact load_of_parse?_eq_some h hs
      (Numeral.parse?_eq_some_iff.2 ⟨t, hspell.writes hlen, hpadded⟩)

/-- Digits of three scripts with underscores between them, a sign, and white space. -/
theorem load_mixed_scripts :
    let s := "\u3000-1_\u0662\uff130\t"
    let env : Environment := fun v => if v = "ROLLKERNEL_REMOTE_TIMEOUT" then some s else none
    Spelling (-1230) "-1_\u0662\uff130".toList ∧ (decimal 1230).length ≤ 4300 ∧
      Padded isNumeralBlank "-1_\u0662\uff130".toList s.toList ∧
      load env = .ok { address := "127.0.0.1:0", timeout := -1230 } := by
  intro s env
  have hdigits : Numeral.Spells "1_\u0662\uff130".toList (decimal (-1230 : Int).natAbs) :=
    Numeral.digits?_eq_some_iff.1 (by decide +kernel)
  have hspell : Spelling (-1230) "-1_\u0662\uff130".toList := .neg (by decide) hdigits
  have hlen : (decimal (-1230 : Int).natAbs).length ≤ 4300 := by decide +kernel
  have hpadded : Padded isNumeralBlank "-1_\u0662\uff130".toList s.toList :=
    ⟨['\u3000'], ['\t'], List.forall_mem_singleton.2 rfl, List.forall_mem_singleton.2 rfl,
      by decide +kernel⟩
  exact ⟨hspell, hlen, hpadded,
    ((load_timeout env).2.1 s rfl (by decide)).2.2 _ _ hspell hlen hpadded⟩

end RollupEngine.RemoteConfig

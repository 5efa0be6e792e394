import OpteeDrivers.Rk322x.Suspend

/-!
# Resume: the PLLs are locked before anything is restored

On wake, `psci_system_suspend` powers the three PLLs up, waits for the lock of
APLL, GPLL and CPLL in turn, and only then restores the dividers, the PLL
modes and the clock gates. A PLL that does not lock within 500 × 2 µs is a
fatal fault: `pll_wait_lock` panics, and nothing is written after it.

`LockWaits k plls t ok` describes the bus trace `t` of such waits for the PLLs
`plls`, continued by `k` once every lock has been seen. The waits compose one
PLL at a time (`WaitsFor.cons`), which gives the trace of `plls_relock`
(`plls_relock_spec`) and then of the whole resume half
(`psci_system_suspend_relock`).
-/

namespace Optee.Rk322x

/-- The state a run ends in, whether it returned or stopped in `panic()`. -/
def final {α : Type} : Except α α → α
  | .ok a => a
  | .error a => a

@[simp] theorem final_ok {α : Type} (a : α) : final (.ok a : Except α α) = a := rfl
@[simp] theorem final_error {α : Type} (a : α) : final (.error a : Except α α) = a := rfl

/-- The power-up writes that open the resume half, before any lock is polled. -/
def pllPowerUps : List Event :=
  [.write (.cru (CRU_PLL_CON1 APLL_ID)) PLL_POWER_UP,
   .write (.cru (CRU_PLL_CON1 GPLL_ID)) PLL_POWER_UP,
   .write (.cru (CRU_PLL_CON1 CPLL_ID)) PLL_POWER_UP]

/-- The bus trace `t` of waiting for the lock of each PLL of `plls` in turn, as
`pll_wait_lock` does, followed by `k` once every lock has been seen. `ok` tells
whether every lock was seen: the first PLL whose read after the loop lacks
`PLL_LOCK` ends the trace in `panic()`. -/
inductive LockWaits (k : List Event) : List Nat → List Event → Bool → Prop
  | done : LockWaits k [] k true
  | locked {pll : Nat} {plls : List Nat} {seg rest : List Event} {v : BitVec 32} {ok : Bool} :
      Polled (.cru (CRU_PLL_CON1 pll)) PLL_LOCK 500 seg → v &&& PLL_LOCK ≠ 0 →
      LockWaits k plls rest ok →
      LockWaits k (pll :: plls) (seg ++ .read (.cru (CRU_PLL_CON1 pll)) v :: rest) ok
  | failed {pll : Nat} {plls : List Nat} {seg : List Event} {v : BitVec 32} :
      Polled (.cru (CRU_PLL_CON1 pll)) PLL_LOCK 500 seg → v &&& PLL_LOCK = 0 →
      LockWaits k (pll :: plls) (seg ++ [.read (.cru (CRU_PLL_CON1 pll)) v, .panic]) false

/-- Waits that got through, continued by `k`. -/
theorem LockWaits.append {plls : List Nat} {t : List Event} {ok : Bool}
    (h : LockWaits [] plls t ok) (k : List Event) :
    LockWaits k plls (if ok then t ++ k else t) ok := by
  induction h with
  | done => exact .done
  | @locked _ _ _ _ _ ok hp hv _ ih =>
    cases ok
    · exact .locked hp hv ih
    · simpa using LockWaits.locked hp hv ih
  | failed hp hv => exact .failed hp hv

/-- Waits that got through only read and wait. -/
theorem LockWaits.cruWrites_eq_nil {plls : List Nat} {t : List Event}
    (h : LockWaits [] plls t true) (off : Nat) : cruWrites off t = [] := by
  generalize hok : true = ok at h
  induction h with
  | done => rfl
  | locked hp _ _ ih => simp [hp.cruWrites_eq_nil, Event.cruWrite?, ih hok]
  | failed => cases hok

theorem pll_wait_lock_spec (pll : Nat) (b : Bus) :
    ∃ seg v b', Polled (.cru (CRU_PLL_CON1 pll)) PLL_LOCK 500 seg ∧
      b'.log = b.log ++ seg ++ [.read (.cru (CRU_PLL_CON1 pll)) v] ∧
      pll_wait_lock pll b = if v &&& PLL_LOCK = 0 then .error (b'.emit .panic) else .ok b' := by
  obtain ⟨seg, hp, hlog⟩ := wait_bit_log (.cru (CRU_PLL_CON1 pll)) PLL_LOCK 500 b
  exact ⟨seg, _, _, hp, by simp [read32, hlog], rfl⟩

/-- From every bus, `f` logs the waits for the locks of `plls` followed by `k`,
and returns exactly when every lock was seen. -/
def WaitsFor (k : List Event) (plls : List Nat) (f : Bus → Except Bus Bus) : Prop :=
  ∀ b, ∃ t, LockWaits k plls t (f b).isOk ∧ (final (f b)).log = b.log ++ t

theorem WaitsFor.pure : WaitsFor [] [] pure :=
  fun _ => ⟨[], .done, (List.append_nil _).symm⟩

theorem WaitsFor.cons {k : List Event} {plls : List Nat} {f : Bus → Except Bus Bus}
    (h : WaitsFor k plls f) (pll : Nat) :
    WaitsFor k (pll :: plls) fun b => pll_wait_lock pll b >>= f := by
  intro b
  dsimp only
  obtain ⟨seg, v, b', hp, hlog, hw⟩ := pll_wait_lock_spec pll b
  by_cases hv : v &&& PLL_LOCK = 0
  · rw [hw, if_pos hv]
    exact ⟨_, .failed hp hv, by simp [Bind.bind, Except.bind, hlog]⟩
  · obtain ⟨t, ht, htl⟩ := h b'
    rw [hw, if_neg hv]
    exact ⟨_, .locked hp hv ht, by simp [Bind.bind, Except.bind, htl, hlog]⟩

theorem plls_relock_spec (b : Bus) :
    ∃ t, LockWaits [] [APLL_ID, GPLL_ID, CPLL_ID] t (plls_relock b).isOk ∧
      (final (plls_relock b)).log = b.log ++ pllPowerUps ++ .udelay 200 :: t := by
  have h := ((WaitsFor.pure.cons CPLL_ID).cons GPLL_ID).cons APLL_ID
    (b |> pll_power_up APLL_ID |> pll_power_up GPLL_ID |> pll_power_up CPLL_ID |> udelay 200)
  simp only [bind_pure] at h
  obtain ⟨t, ht, hlog⟩ := h
  exact ⟨t, ht, by rw [plls_relock, hlog]; simp [pll_power_up, pllPowerUps]⟩

/-- `plls_restore` either stops in `panic()` with the bus of the relock, or goes on
from it to the restore writes. -/
theorem plls_restore_cases (s : Soc) :
    (∃ b, plls_relock s.bus = .error b ∧ plls_restore s = .error { s with bus := b }) ∨
      ∃ b, plls_relock s.bus = .ok b ∧
        plls_restore s = .ok ({ s with bus := b }.onBus (plls_restore_regs s.dram_d)) := by
  cases h : plls_relock s.bus with
  | error b =>
    exact .inl ⟨b, rfl, by simp [plls_restore, Soc.onBusE, h, Bind.bind, Except.bind]⟩
  | ok b =>
    exact .inr ⟨b, rfl, by
      simp [plls_restore, Soc.onBusE, h, Bind.bind, Except.bind, Pure.pure, Except.pure]⟩

/-! ### The resume half of `psci_system_suspend` -/

/-- The suspend half ends in `wfi()`: everything up to the wake-up. -/
theorem suspend_enter_extends (s : Soc) :
    ∃ pre, s.Extends (((plls_power_down (clks_disable s)).onBus (Bus.emit .cacheCleanInv)).onBus wfi)
      (pre ++ [.wfi]) := by
  obtain ⟨L, hL, -⟩ := clks_disable_spec s
  refine ⟨_, ((hL.trans (plls_power_down_spec _).1).trans
    (Soc.extends_onBus_emit _ _)).trans (Soc.extends_onBus_emit _ _)⟩

theorem psci_system_suspend_eq (s : Soc) :
    psci_system_suspend s =
      (plls_restore (((plls_power_down (clks_disable s)).onBus (Bus.emit .cacheCleanInv)).onBus wfi)
        ).map fun s => (PSCI_RET_SUCCESS, clks_restore s) := rfl

/-- **Relock before restore.** After the wake-up, the resume half writes
`PLL_POWER_UP` to the three PLLs, waits 200 µs, then waits for the locks of
APLL, GPLL and CPLL in turn, at most 500 delays each. The dividers, modes and
gates (`k`) come only after the three reads that show the lock; the first read
without it ends the run in `panic()`, and `psci_system_suspend` returns exactly
when every lock was seen. -/
theorem psci_system_suspend_relock (s : Soc) :
    ∃ pre k tail, LockWaits k [APLL_ID, GPLL_ID, CPLL_ID] tail (psci_system_suspend s).isOk ∧
      (final ((psci_system_suspend s).map Prod.snd)).bus.log =
        s.bus.log ++ pre ++ .wfi :: pllPowerUps ++ .udelay 200 :: tail := by
  obtain ⟨pre, hpre⟩ := suspend_enter_extends s
  rw [psci_system_suspend_eq]
  generalize ((plls_power_down (clks_disable s)).onBus (Bus.emit .cacheCleanInv)).onBus wfi = s₁
    at hpre ⊢
  obtain ⟨t, ht, hlog⟩ := plls_relock_spec s₁.bus
  rcases plls_restore_cases s₁ with ⟨b, hr, hpr⟩ | ⟨b, hr, hpr⟩ <;>
    rw [hr] at ht hlog <;> rw [hpr] <;> simp only [final_ok, final_error] at hlog
  · -- a lock missing: the run ends in `panic()`
    exact ⟨pre, [], t, ht, by simp [Except.map, hlog, hpre.2]⟩
  · -- every lock seen: the dividers, modes and gates follow
    obtain ⟨L, hL, -⟩ := clks_restore_loop
      ({ s₁ with bus := b }.onBus (plls_restore_regs s₁.dram_d)) CRU_CLKGATE_CON_CNT
    refine ⟨pre, plls_restore_writes s₁.dram_d ++ L, _, ht.append _, ?_⟩
    simp only [Except.map, final_ok, clks_restore, hL.2]
    simp [hlog, hpre.2, Except.isOk, Except.toBool]

end Optee.Rk322x

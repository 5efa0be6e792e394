import OpteeDrivers.Rk322x.Relock

/-!
# Suspend then resume leaves the clock tree as it was

A run of `psci_system_suspend` that returns leaves each clock-gate register,
clock-select registers 0, 1, 10 and 21 and the PLL mode register holding
exactly what they held before it (`psci_system_suspend_restores`), whatever
they held.

The argument is `applyWrites_restore` once per register. The run splits into
the suspend half, whose writes to a register are constants (`clks_disable`,
`plls_power_down`), and the resume half, whose writes to it carry the word
saved in `dram_d` before its first power-down write. The saved word is the
register's content before the run, since `clks_disable` writes only the
gates and `plls_power_down` saves before it writes; what is left is that the
restore masks cover the power-down masks, a check on constants.
-/

namespace Optee.Rk322x

/-- The registers the suspend path changes and restores: clock-select registers
0, 1, 10 and 21, the PLL mode register, and the sixteen clock gates. -/
def suspendRegs : List Nat :=
  [CRU_CLKSEL_CON 0, CRU_CLKSEL_CON 1, CRU_CLKSEL_CON 10, CRU_CLKSEL_CON 21, CRU_MODE_CON] ++
    (List.range CRU_CLKGATE_CON_CNT).map CRU_CLKGATE_CON

/-- The events of a returning run, split at the wake-up: the suspend half,
then the resume half. -/
theorem psci_system_suspend_ok_extends (s : Soc) (h : (psci_system_suspend s).isOk) :
    ∃ L₁ t L₅, (∀ off, cruWrites off L₁ = gateWrites gateDown CRU_CLKGATE_CON_CNT off) ∧
      LockWaits [] [APLL_ID, GPLL_ID, CPLL_ID] t true ∧
      (∀ off, cruWrites off L₅ = gateWrites (fun i => BITS_WITH_WMASK
        ((plls_power_down (clks_disable s)).dram_d.cru_clkgate i) 0xffff 0)
        CRU_CLKGATE_CON_CNT off) ∧
      s.Extends (final ((psci_system_suspend s).map Prod.snd))
        ((L₁ ++ plls_power_down_reads (clks_disable s).mem ++ plls_power_down_writes ++
            [.cacheCleanInv, .wfi]) ++
          (pllPowerUps ++ .udelay 200 :: t ++
            plls_restore_writes (plls_power_down (clks_disable s)).dram_d ++ L₅)) := by
  obtain ⟨L₁, h₁, hw₁, -⟩ := clks_disable_spec s
  have h₃ : s.Extends
      (((plls_power_down (clks_disable s)).onBus (Bus.emit .cacheCleanInv)).onBus wfi)
      (L₁ ++ plls_power_down_reads (clks_disable s).mem ++ plls_power_down_writes ++
        [.cacheCleanInv, .wfi]) := by
    simpa using ((h₁.trans (plls_power_down_spec _).1).trans (Soc.extends_onBus_emit _ _)).trans
      (Soc.extends_onBus_emit _ _)
  rw [psci_system_suspend_eq] at h ⊢
  have hd₃ :
      (((plls_power_down (clks_disable s)).onBus (Bus.emit .cacheCleanInv)).onBus wfi).dram_d =
        (plls_power_down (clks_disable s)).dram_d :=
    (Soc.onBus_dram_d _ _).trans (Soc.onBus_dram_d _ _)
  generalize ((plls_power_down (clks_disable s)).onBus (Bus.emit .cacheCleanInv)).onBus wfi = s₁
    at h h₃ hd₃ ⊢
  rw [← hd₃]
  obtain ⟨t, ht, hlog⟩ := plls_relock_spec s₁.bus
  rcases plls_restore_cases s₁ with ⟨b, -, hpr⟩ | ⟨b, hr, hpr⟩
  · simp [hpr, Except.map, Except.isOk, Except.toBool] at h
  · rw [hr, final_ok] at hlog
    rw [hr] at ht
    obtain ⟨L₅, h₅, hw₅, -⟩ := clks_restore_loop
      ({ s₁ with bus := b }.onBus (plls_restore_regs s₁.dram_d)) CRU_CLKGATE_CON_CNT
    rw [Soc.onBus_dram_d] at hw₅
    refine ⟨L₁, t, L₅, hw₁, ht, hw₅, ?_⟩
    rw [hpr]
    have h₄ : s₁.Extends ({ s₁ with bus := b }.onBus (plls_restore_regs s₁.dram_d))
        (pllPowerUps ++ .udelay 200 :: t ++ plls_restore_writes s₁.dram_d) :=
      ⟨Soc.onBus_boot _ _, by simp [hlog]⟩
    simpa [List.append_assoc] using (h₃.trans h₄).trans h₅

/-- The snapshot taken before the PLLs go down holds every register of
`suspendRegs` as it was before the run: `clks_disable` writes only the gates,
and `plls_power_down` saves before it writes. -/
theorem suspend_snapshot (s : Soc) :
    let d := (plls_power_down (clks_disable s)).dram_d
    d.cru_clksel0 = maskedRead (s.mem.cru (CRU_CLKSEL_CON 0)) ∧
    d.cru_clksel1 = maskedRead (s.mem.cru (CRU_CLKSEL_CON 1)) ∧
    d.cru_clksel10 = maskedRead (s.mem.cru (CRU_CLKSEL_CON 10)) ∧
    d.cru_clksel21 = maskedRead (s.mem.cru (CRU_CLKSEL_CON 21)) ∧
    d.cru_mode_con = maskedRead (s.mem.cru CRU_MODE_CON) ∧
    ∀ i < CRU_CLKGATE_CON_CNT, d.cru_clkgate i = maskedRead (s.mem.cru (CRU_CLKGATE_CON i)) := by
  obtain ⟨L, hL, hw, hg⟩ := clks_disable_spec s
  have hcfg : ∀ off < CRU_CLKGATE_CON 0, (clks_disable s).mem.cru off = s.mem.cru off :=
    fun off h => by rw [hL.cru, hw, gateWrites_eq_nil _ _ h, applyWrites_nil]
  simpa (disch := decide) only [(plls_power_down_spec _).2, Mem.read, hcfg, true_and] using hg

/-- **Suspend then resume is the identity on the clock tree.** When
`psci_system_suspend` returns, each of the 21 registers it changes holds what
it held before the call. -/
theorem psci_system_suspend_restores (s : Soc) (h : (psci_system_suspend s).isOk) :
    ∀ off ∈ suspendRegs,
      (final ((psci_system_suspend s).map Prod.snd)).mem.cru off = s.mem.cru off := by
  obtain ⟨L₁, t, L₅, hw₁, ht, hw₅, hext⟩ := psci_system_suspend_ok_extends s h
  obtain ⟨h0, h1, h10, h21, hm, hg⟩ := suspend_snapshot s
  intro off hoff
  rw [hext.cru, cruWrites_append, applyWrites_append]
  simp only [cruWrites_append, hw₁, hw₅, ht.cruWrites_eq_nil]
  simp only [suspendRegs, List.mem_append, List.mem_cons, List.mem_map, List.mem_range,
    List.not_mem_nil, or_false] at hoff
  rcases hoff with hcfg | ⟨j, hj, rfl⟩
  · -- a clock-select or mode register: the power-down fields, then the saved word
    rcases hcfg with rfl | rfl | rfl | rfl | rfl <;>
      rw [gateWrites_eq_nil _ _ (by decide), gateWrites_eq_nil _ _ (by decide)] <;>
      refine applyWrites_restore _ _ _ ?_ ?_ <;>
      simp only [plls_power_down_reads, plls_power_down_writes, plls_restore_writes, pllPowerUps,
        cruWrites_cons, cruWrites_nil, Event.cruWrite?, ht.cruWrites_eq_nil, CRU_CLKSEL_CON,
        CRU_MODE_CON, CRU_PLL_CON1, APLL_ID, GPLL_ID, CPLL_ID, Nat.reduceMul, Nat.reduceAdd,
        Nat.zero_mul, Nat.zero_add, Nat.one_mul, Nat.reduceEqDiff, reduceIte, Option.toList_none,
        Option.toList_some, List.append_nil, List.singleton_append, List.nil_append, h0, h1, h10,
        h21, hm, masksOf, List.foldr_cons, List.foldr_nil, wmask_or, wmask_maskedRead,
        List.forall_mem_cons, List.not_mem_nil, false_implies, implies_true, wdata_or,
        wdata_maskedRead, wdata_BITS_WMSK, BitVec.ofNat_eq_ofNat, BitVec.or_zero, BitVec.zero_or,
        and_true] <;>
      decide
  · -- a clock gate: the word of `clks_gating_table`, then the saved word, all bits enabled
    rw [gateWrites_clkgate _ hj, gateWrites_clkgate _ hj, hg j hj]
    refine applyWrites_restore _ _ _ ?_ ?_ <;>
      simp [plls_power_down_reads, plls_power_down_writes, plls_restore_writes, pllPowerUps,
        Event.cruWrite?, ht.cruWrites_eq_nil, CRU_CLKSEL_CON, CRU_MODE_CON, CRU_PLL_CON1,
        CRU_CLKGATE_CON, APLL_ID, GPLL_ID, CPLL_ID, masksOf, wmask_BITS_WITH_WMASK_ffff]
    simp [BITS_WITH_WMASK, wdata_or]

/-- A SoC whose PLLs show the lock at every read, with every register zero. -/
def lockedSoc : Soc :=
  ⟨⟨fun _ => 0, fun _ => 0, fun _ => 0⟩, ⟨0, 0, 0, 0, 0, fun _ => 0⟩, ⟨fun _ => PLL_LOCK, []⟩⟩

theorem psci_system_suspend_restores_locked :
    (psci_system_suspend lockedSoc).isOk ∧ ∀ off ∈ suspendRegs,
      (final ((psci_system_suspend lockedSoc).map Prod.snd)).mem.cru off = lockedSoc.mem.cru off :=
  have h : (psci_system_suspend lockedSoc).isOk := by decide
  ⟨h, psci_system_suspend_restores lockedSoc h⟩

end Optee.Rk322x

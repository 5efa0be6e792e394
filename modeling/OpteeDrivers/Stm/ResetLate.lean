import OpteeDrivers.Mmio

/-!
# The STM boot core's late reset: every SPI made nonsecure

`plat_cpu_reset_late()` runs on each core while the MMU is still off. On the boot
core it sets up the snoop control unit, writes the address filters of the outer
cache controller at the base `pl310_base()` answers and, since "gic_init scan
fails", sets the group registers `GIC_DIST_ISR1` to `GIC_DIST_ISR31` of the GIC
distributor to all ones, so that every shared peripheral interrupt (SPI) is
nonsecure.

`isr_loop_log` is the run lemma of the loop over the group registers; from it, the
boot core's call returns, writes the filters at the physical `PL310_BASE`, and sets
the group bit of every SPI, 32 to 1023.
-/

namespace Optee.Stm

/-- The constants of the platform configuration and of the SCU, PL310 and GIC
headers that `plat_cpu_reset_late()` uses; they are not in the sources. -/
structure ResetLateConsts where
  SCU_BASE : Nat
  SCU_SAC : Nat
  SCU_NSAC : Nat
  SCU_FILT_EA : Nat
  SCU_FILT_SA : Nat
  SCU_CTRL : Nat
  SCU_SAC_INIT : BitVec 32
  SCU_NSAC_INIT : BitVec 32
  SCU_CTRL_INIT : BitVec 32
  CPU_PORT_FILT_START : BitVec 32
  CPU_PORT_FILT_END : BitVec 32
  PL310_BASE : Nat
  PL310_ADDR_FILT_START : Nat
  PL310_ADDR_FILT_END : Nat
  PL310_CTRL_ENABLE_BIT : BitVec 32
  GIC_DIST_BASE : Nat
  GIC_DIST_ISR1 : Nat

/-- The function `pl310_base()` with the MMU on or off, when `phys_to_virt(PL310_BASE,
MEM_AREA_IO_SEC)` is `p2v`: the base, and the new value of its static `va`. -/
def pl310_base (k : ResetLateConsts) (mmu : Bool) (p2v va : Nat) : Nat × Nat :=
  mappedBase k.PL310_BASE mmu p2v va

/-- The loop `for (i = 0; i < (31 * 4); i += 4) write32(0xFFFFFFFF, GIC_DIST_BASE +
GIC_DIST_ISR1 + i);` from `i`. -/
def isr_loop (k : ResetLateConsts) (i : Nat) (io : Mmio) : Mmio :=
  if i < 31 * 4 then
    isr_loop k (i + 4) (io.write32 0xFFFFFFFF k.GIC_DIST_BASE (k.GIC_DIST_ISR1 + i))
  else io
termination_by 31 * 4 - i

/-- The function `plat_cpu_reset_late()` on the core `core_pos` that `get_core_pos()`
names, with the MMU on or off: `none` when `assert(!cpu_mmu_enabled())` fails, else
the device and the new static `va` of `pl310_base()`. The write of `SCR_AW` to the
secure configuration register is not a device access and is left out. -/
def plat_cpu_reset_late (k : ResetLateConsts) (mmu : Bool) (p2v va core_pos : Nat)
    (io : Mmio) : Option (Mmio × Nat) :=
  if mmu then none
  else if core_pos ≠ 0 then some (io, va)
  else
    let io := io
      |>.write32 k.SCU_SAC_INIT k.SCU_BASE k.SCU_SAC
      |>.write32 k.SCU_NSAC_INIT k.SCU_BASE k.SCU_NSAC
      |>.write32 k.CPU_PORT_FILT_END k.SCU_BASE k.SCU_FILT_EA
      |>.write32 k.CPU_PORT_FILT_START k.SCU_BASE k.SCU_FILT_SA
      |>.write32 k.SCU_CTRL_INIT k.SCU_BASE k.SCU_CTRL
    let (pl, va) := pl310_base k mmu p2v va
    let io := io.write32 k.CPU_PORT_FILT_END pl k.PL310_ADDR_FILT_END
    let (pl, va) := pl310_base k mmu p2v va
    let io := io.write32 (k.CPU_PORT_FILT_START ||| k.PL310_CTRL_ENABLE_BIT) pl
      k.PL310_ADDR_FILT_START
    some (isr_loop k 0 io, va)

/-- The writes of the loop over the group registers, from `i`. -/
def isrWrites (k : ResetLateConsts) (i n : Nat) : List Access :=
  (List.range' i n 4).map fun i => .write k.GIC_DIST_BASE (k.GIC_DIST_ISR1 + i) 0xFFFFFFFF

/-- The loop over the group registers, from `i`, `n` passes before its end: it writes
all ones to `GIC_DIST_ISR1 + i`, `GIC_DIST_ISR1 + i + 4`, and so on, `n` times. -/
theorem isr_loop_log (k : ResetLateConsts) (n : Nat) {i : Nat} (hi : i + 4 * n = 31 * 4)
    (io : Mmio) : (isr_loop k i io).log = io.log ++ isrWrites k i n := by
  induction n generalizing i io with
  | zero =>
    rw [isr_loop, if_neg (by omega)]
    simp [isrWrites]
  | succ n ih =>
    rw [isr_loop, if_pos (by omega), ih (by omega)]
    simp [isrWrites, List.range'_succ]

/-- **Every SPI made nonsecure.** On the boot core with the MMU off, as asserted,
`plat_cpu_reset_late()` returns; it programs the SCU, writes the PL310 address
filters at the physical `PL310_BASE`, and sets the group registers `GIC_DIST_ISR1` to
`GIC_DIST_ISR31` to all ones, so that the group bit of every SPI, 32 to 1023, is
written set. -/
theorem plat_cpu_reset_late_spis (k : ResetLateConsts) (p2v va : Nat) (io : Mmio) :
    ∃ io', plat_cpu_reset_late k false p2v va 0 io = some (io', va) ∧
      io'.log = io.log ++ [.write k.SCU_BASE k.SCU_SAC k.SCU_SAC_INIT,
        .write k.SCU_BASE k.SCU_NSAC k.SCU_NSAC_INIT,
        .write k.SCU_BASE k.SCU_FILT_EA k.CPU_PORT_FILT_END,
        .write k.SCU_BASE k.SCU_FILT_SA k.CPU_PORT_FILT_START,
        .write k.SCU_BASE k.SCU_CTRL k.SCU_CTRL_INIT,
        .write k.PL310_BASE k.PL310_ADDR_FILT_END k.CPU_PORT_FILT_END,
        .write k.PL310_BASE k.PL310_ADDR_FILT_START
          (k.CPU_PORT_FILT_START ||| k.PL310_CTRL_ENABLE_BIT)] ++ isrWrites k 0 31 ∧
      ∀ id, 32 ≤ id → id < 1024 → ∃ v,
        .write k.GIC_DIST_BASE (k.GIC_DIST_ISR1 + 4 * (id / 32 - 1)) v ∈ io'.log ∧
          v.getLsbD (id % 32) = true := by
  refine ⟨_, rfl, ?_, ?_⟩
  · rw [isr_loop_log k 31 (by omega)]
    simp [pl310_base, mappedBase]
  · intro id h₁ h₂
    refine ⟨0xFFFFFFFF, ?_, ?_⟩
    · rw [isr_loop_log k 31 (by omega)]
      simp only [isrWrites, List.mem_append, List.mem_map, List.mem_range']
      exact .inr ⟨_, ⟨id / 32 - 1, by omega, by omega⟩, rfl⟩
    · rw [show (0xFFFFFFFF : BitVec 32) = BitVec.allOnes 32 by decide, BitVec.getLsbD_allOnes]
      exact decide_eq_true (Nat.mod_lt _ (by decide))

end Optee.Stm

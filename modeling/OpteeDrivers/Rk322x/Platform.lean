import OpteeDrivers.Rk322x.WriteMask

/-!
# The rk322x register map and the memory the PSCI code writes

`psci_rk322x.c` reaches three register blocks through `phys_to_virt_io`: the
clock and reset unit (CRU), the general register file (GRF) and the on-chip
SRAM (ISRAM). A location is a block and an offset (`Loc`); the virtual base
addresses play no part beyond naming the block.

The offsets and bit layouts come from the platform headers `cru.h`, `grf.h`,
`platform_config.h` and `sm/psci.h`, which are not part of the sources; they
are given here with the rk322x values.

What the code does to the hardware is a list of `Event`s. A location's content
is the fold of those events over the memory before them (`Mem.apply`); for a
CRU register this is `applyWrites` over the CRU writes to it (`Mem.cru_foldl`).
-/

namespace Optee.Rk322x

/-! ### Platform constants -/

/-- Modelled from the spec: `CFG_TEE_CORE_NB_CORE`, the number of cores (rk322x: 4). -/
def CFG_TEE_CORE_NB_CORE : Nat := 4

/-- Modelled from the spec: `MPIDR_CPU_MASK` of `arm.h`, the affinity-0 field of an MPIDR. -/
def MPIDR_CPU_MASK : BitVec 32 := 0xff

/-- Modelled from the spec: `CRU_CLKGATE_CON_CNT` of `cru.h`, the number of clock-gate
registers (the length of `clks_gating_table`). -/
def CRU_CLKGATE_CON_CNT : Nat := 16

/-- Modelled from the spec: `CRU_MODE_CON` of `cru.h`, the PLL mode register. -/
def CRU_MODE_CON : Nat := 0x40

/-- Modelled from the spec: `CRU_CLKSEL_CON(i)` of `cru.h`, clock-select register `i`. -/
def CRU_CLKSEL_CON (i : Nat) : Nat := i * 4 + 0x44

/-- Modelled from the spec: `CRU_CLKGATE_CON(i)` of `cru.h`, clock-gate register `i`. -/
def CRU_CLKGATE_CON (i : Nat) : Nat := i * 4 + 0xd0

/-- Modelled from the spec: `CRU_PLL_CON1(pll)` of `cru.h`, control and lock status of a PLL. -/
def CRU_PLL_CON1 (pll : Nat) : Nat := pll * 0x0c + 0x04

/-- Modelled from the spec: `CRU_SOFTRST_CON(i)` of `cru.h`, soft-reset register `i`. -/
def CRU_SOFTRST_CON (i : Nat) : Nat := i * 4 + 0x110

/-- Modelled from the spec: the `enum plls_id` of `cru.h`. -/
def APLL_ID : Nat := 0
/-- Modelled from the spec: the `enum plls_id` of `cru.h`. -/
def DPLL_ID : Nat := 1
/-- Modelled from the spec: the `enum plls_id` of `cru.h`. -/
def CPLL_ID : Nat := 2
/-- Modelled from the spec: the `enum plls_id` of `cru.h`. -/
def GPLL_ID : Nat := 3
/-- Modelled from the spec: the `enum plls_id` of `cru.h`. -/
def PLL_END : Nat := 4

/-- Modelled from the spec: `PLL_MODE_BIT(pll)` of `cru.h`, the mode-select bit of a PLL in
`CRU_MODE_CON`. -/
def PLL_MODE_BIT (pll : Nat) : Nat := pll * 4

/-- Modelled from the spec: `PLL_SLOW_MODE(pll)` of `cru.h`, the word that selects the 24 MHz
oscillator for `pll` (mode bit cleared, write-enabled). -/
def PLL_SLOW_MODE (pll : Nat) : BitVec 32 :=
  (0 <<< PLL_MODE_BIT pll) ||| (1 <<< (16 + PLL_MODE_BIT pll))

/-- Modelled from the spec: `PLL_LOCK` of `cru.h`, the lock status bit of `CRU_PLL_CON1`. -/
def PLL_LOCK : BitVec 32 := 1 <<< 10

/-- Modelled from the spec: `PLL_POWER_UP` of `cru.h`. -/
def PLL_POWER_UP : BitVec 32 := BITS_WITH_WMASK 0 1 13

/-- Modelled from the spec: `PLL_POWER_DOWN` of `cru.h`. -/
def PLL_POWER_DOWN : BitVec 32 := BITS_WITH_WMASK 1 1 13

/-- Modelled from the spec: `CORE_SOFT_RESET(core)` of `cru.h`: sets the core's reset bit
`4 + core`, write-enabling that bit only. -/
def CORE_SOFT_RESET (core : Nat) : BitVec 32 := 0x100010 <<< core

/-- Modelled from the spec: `CORE_SOFT_RELEASE(core)` of `cru.h`: clears the core's reset
bit, write-enabling that bit only. -/
def CORE_SOFT_RELEASE (core : Nat) : BitVec 32 := 0x100000 <<< core

/-- Modelled from the spec: `CORE_HELD_IN_RESET(core)` of `cru.h`, the core's reset bit. -/
def CORE_HELD_IN_RESET (core : Nat) : BitVec 32 := 0x10 <<< core

/-- Modelled from the spec: `GRF_CPU_STATUS1` of `grf.h`, the core status register. -/
def GRF_CPU_STATUS1 : Nat := 0x524

/-- Modelled from the spec: `CORE_WFE_MASK(core)` of `grf.h`. -/
def CORE_WFE_MASK (core : Nat) : BitVec 32 := 0x02 <<< core

/-- Modelled from the spec: `CORE_WFI_MASK(core)` of `grf.h`. -/
def CORE_WFI_MASK (core : Nat) : BitVec 32 := 0x20 <<< core

/-- Modelled from the spec: `CORE_WFE_I_MASK(core)` of `grf.h`: the core waits for an event
or an interrupt. -/
def CORE_WFE_I_MASK (core : Nat) : BitVec 32 := CORE_WFI_MASK core ||| CORE_WFE_MASK core

/-- Modelled from the spec: `BOOT_ADDR_OFFSET` of `platform_config.h`, the boot address word
of the secure handoff record in ISRAM. -/
def BOOT_ADDR_OFFSET : Nat := 8

/-- Modelled from the spec: `LOCK_ADDR_OFFSET` of `platform_config.h`, the lock tag word of
the secure handoff record in ISRAM. -/
def LOCK_ADDR_OFFSET : Nat := 4

/-- Modelled from the spec: `LOCK_TAG` of `platform_config.h`. -/
def LOCK_TAG : BitVec 32 := 0xDEADBEAF

/-- Modelled from the spec: `CFG_TEE_LOAD_ADDR`, the secure entry of a released core. -/
def CFG_TEE_LOAD_ADDR : BitVec 32 := 0x68400000

/-- Modelled from the spec: the PSCI return codes of `sm/psci.h`. -/
def PSCI_RET_SUCCESS : Int := 0
/-- Modelled from the spec: the PSCI return codes of `sm/psci.h`. -/
def PSCI_RET_NOT_SUPPORTED : Int := -1
/-- Modelled from the spec: the PSCI return codes of `sm/psci.h`. -/
def PSCI_RET_INVALID_PARAMETERS : Int := -2
/-- Modelled from the spec: the PSCI return codes of `sm/psci.h`. -/
def PSCI_RET_DENIED : Int := -3

/-! ### Locations and events -/

/-- A register or memory word the PSCI code reaches: a block of `phys_to_virt_io`
and an offset in it. -/
inductive Loc
  | cru (off : Nat)
  | grf (off : Nat)
  | isram (off : Nat)
  deriving DecidableEq, Repr

/-- The registers whose value the hardware drives: the PLL lock status in
`CRU_PLL_CON1`, the reset state of the cores in `CRU_SOFTRST_CON(0)` (other
cores change it too) and the core status in the GRF. Every other location reads
back what was written to it. -/
def Loc.isStatus : Loc → Bool
  | .cru off => off == CRU_SOFTRST_CON 0 || (List.range PLL_END).any (off == CRU_PLL_CON1 ·)
  | .grf _ => true
  | .isram _ => false

/-- One step of the PSCI code that the hardware or another core can observe. -/
inductive Event
  /-- A `read32` of `l` that returned `v`. -/
  | read (l : Loc) (v : BitVec 32)
  /-- A `write32(v, l)`. -/
  | write (l : Loc) (v : BitVec 32)
  /-- The store `ns_entry_addrs[core] = entry`; the released core reads the table. -/
  | setEntry (core : Nat) (entry : BitVec 32)
  | udelay (us : Nat)
  | dsb
  | sev
  | wfi
  /-- The call `cache_op_inner(DCACHE_CLEAN_INV, NULL, 0)`. -/
  | cacheCleanInv
  /-- The call `panic()`: nothing follows it. -/
  | panic
  deriving DecidableEq, Repr

/-! ### Memory -/

/-- What the events write: the CRU registers (write-masked), the ISRAM words and
the table `ns_entry_addrs`. The code never writes the GRF. -/
structure Mem where
  cru : Nat → BitVec 16
  isram : Nat → BitVec 32
  ns_entry_addrs : Nat → BitVec 32

/-- The effect of one event on memory. -/
def Mem.apply (m : Mem) : Event → Mem
  | .write (.cru off) v => { m with cru := Function.update m.cru off (maskedWrite (m.cru off) v) }
  | .write (.isram off) v => { m with isram := Function.update m.isram off v }
  | .setEntry core v => { m with ns_entry_addrs := Function.update m.ns_entry_addrs core v }
  | _ => m

@[simp] theorem Mem.apply_read (m : Mem) (l : Loc) (v : BitVec 32) : m.apply (.read l v) = m :=
  rfl

/-- What a read of a location that is not a status register returns. -/
def Mem.read (m : Mem) : Loc → BitVec 32
  | .cru off => maskedRead (m.cru off)
  | .isram off => m.isram off
  | .grf _ => 0

/-- The write words of the events that reach CRU register `off`. -/
def Event.cruWrite? (off : Nat) : Event → Option (BitVec 32)
  | .write (.cru o) v => if o = off then some v else none
  | _ => none

/-- The CRU writes of `L` to register `off`, in order. -/
def cruWrites (off : Nat) (L : List Event) : List (BitVec 32) :=
  L.filterMap (Event.cruWrite? off)

@[simp] theorem cruWrites_nil (off : Nat) : cruWrites off [] = [] := rfl

@[simp] theorem cruWrites_append (off : Nat) (L L' : List Event) :
    cruWrites off (L ++ L') = cruWrites off L ++ cruWrites off L' :=
  List.filterMap_append _ _ _

@[simp] theorem cruWrites_cons (off : Nat) (e : Event) (L : List Event) :
    cruWrites off (e :: L) = (e.cruWrite? off).toList ++ cruWrites off L := by
  cases h : e.cruWrite? off <;> simp [cruWrites, List.filterMap_cons, h]

theorem Mem.cru_apply (m : Mem) (e : Event) (off : Nat) :
    (m.apply e).cru off = applyWrites (m.cru off) (e.cruWrite? off).toList := by
  rcases e with ⟨⟩ | ⟨⟨o⟩ | ⟨o⟩ | ⟨o⟩, v⟩ <;>
    simp only [Mem.apply, Event.cruWrite?, Option.toList, applyWrites_nil]
  by_cases h : o = off
  · subst h; simp
  · simp [h, Function.update_noteq (Ne.symm h)]

/-- A CRU register after a list of events is `applyWrites` of its CRU writes. -/
theorem Mem.cru_foldl (L : List Event) (m : Mem) (off : Nat) :
    (L.foldl Mem.apply m).cru off = applyWrites (m.cru off) (cruWrites off L) := by
  induction L generalizing m with
  | nil => rfl
  | cons e L ih =>
    rw [List.foldl_cons, ih, Mem.cru_apply, cruWrites_cons, applyWrites_append]

end Optee.Rk322x

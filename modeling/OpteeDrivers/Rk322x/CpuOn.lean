import OpteeDrivers.Rk322x.Bus
import OpteeDrivers.Mmio

/-!
# The PSCI entry points of one core, and bringing a secondary core up

`psci_cpu_on` masks its target with `MPIDR_CPU_MASK`, rejects core 0 and cores
past `CFG_TEE_CORE_NB_CORE`, records the non-secure entry, and then resets and
releases the target core. When the target is out of reset it must first reach
WFE or WFI (`wait_core_wfe_i`); after the release it must reach it again before
the secure entry and the lock tag are written to ISRAM and `sev()` wakes it.
Every read `psci_cpu_on` makes is of a status register, so it runs on the
`Bus` alone.

The possible bus traces of one call are the constructors of `CpuOnTrace`;
`psci_cpu_on_log` says that every call on a valid target makes one of them.
From it follow the outcome of a call (`psci_cpu_on_effect`), that the guard
rejects exactly the targets whose low byte is 0 or past the last core
(`psci_cpu_on_rejects`), and the footprint of a call (`CpuOnTrace.footprint`)
on which the two-core model of `TwoCores` rests. A call does not depend on the
log before it (`psci_cpu_on_prepend`).

`psci_version`, `psci_features`, `psci_affinity_info`, `psci_cpu_off`,
`psci_system_reset` and `reset_nonboot_cores` complete the interface. The answer of
`psci_affinity_info` is the WFI bit of its target and nothing else, in a build where
`DMSG` prints as in one where it is compiled out (`psci_affinity_info_wfi_bit`). Beside
their definitions, the lemmas on the last two say which bits their one write sets.
-/

namespace Optee.Rk322x

/-! ### PSCI constants -/

/-- Modelled from the spec: `PSCI_VERSION_1_0` of `sm/psci.h`. -/
def PSCI_VERSION_1_0 : BitVec 32 := 0x00010000

/-- Modelled from the spec: the function identifier `PSCI_VERSION` of `sm/psci.h`. -/
def PSCI_VERSION : BitVec 32 := 0x84000000
/-- Modelled from the spec: the function identifier `PSCI_CPU_OFF` of `sm/psci.h`. -/
def PSCI_CPU_OFF : BitVec 32 := 0x84000002
/-- Modelled from the spec: the function identifier `PSCI_CPU_ON` of `sm/psci.h`. -/
def PSCI_CPU_ON : BitVec 32 := 0x84000003
/-- Modelled from the spec: the function identifier `PSCI_SYSTEM_RESET` of `sm/psci.h`. -/
def PSCI_SYSTEM_RESET : BitVec 32 := 0x84000009
/-- Modelled from the spec: the function identifier `PSCI_PSCI_FEATURES` of `sm/psci.h`. -/
def PSCI_PSCI_FEATURES : BitVec 32 := 0x8400000a
/-- Modelled from the spec: the function identifier `PSCI_SYSTEM_SUSPEND` of `sm/psci.h`. -/
def PSCI_SYSTEM_SUSPEND : BitVec 32 := 0x8400000e

/-- Modelled from the spec: `PSCI_RET_INTERNAL_FAILURE` of `sm/psci.h`. -/
def PSCI_RET_INTERNAL_FAILURE : Int := -6

/-- Modelled from the spec: `PLLS_SLOW_MODE` of `cru.h`, every PLL on the 24 MHz
oscillator. -/
def PLLS_SLOW_MODE : BitVec 32 :=
  PLL_SLOW_MODE APLL_ID ||| PLL_SLOW_MODE DPLL_ID ||| PLL_SLOW_MODE CPLL_ID ||| PLL_SLOW_MODE GPLL_ID

/-- Modelled from the spec: `CRU_SNDRST_VAL_BASE` of `cru.h`, the global soft-reset trigger. -/
def CRU_SNDRST_VAL_BASE : Nat := 0x1f4

/-- Modelled from the spec: `CRU_SNDRST_VAL` of `cru.h`, the word that triggers the second
global soft reset. -/
def CRU_SNDRST_VAL : BitVec 32 := 0xeca8

/-- Modelled from the spec: `NONBOOT_CORES_SOFT_RESET` of `cru.h`: cores 1 to 3 held in reset. -/
def NONBOOT_CORES_SOFT_RESET : BitVec 32 := 0x00e000e0

/-! ### The entry points -/

/-- The entry `psci_version()`. -/
def psci_version : BitVec 32 := PSCI_VERSION_1_0

/-- The entry `psci_features(psci_fid)`: the six functions of the `switch` are supported. -/
def psci_features (psci_fid : BitVec 32) : Int :=
  if psci_fid ∈ [PSCI_PSCI_FEATURES, PSCI_VERSION, PSCI_CPU_ON, PSCI_CPU_OFF,
      PSCI_SYSTEM_SUSPEND, PSCI_SYSTEM_RESET] then PSCI_RET_SUCCESS
  else PSCI_RET_NOT_SUPPORTED

/-- The loop of `wait_core_wfe_i`: at most 500 polls of `GRF_CPU_STATUS1` for the
WFE or WFI bit of `core`, then one more read, whose bits give the result. -/
def wait_core_wfe_i (core : Nat) (b : Bus) : Bool × Bus :=
  let wfei_mask := CORE_WFE_I_MASK core
  let b := wait_bit (.grf GRF_CPU_STATUS1) wfei_mask 500 b
  let (v, b) := read32 (.grf GRF_CPU_STATUS1) b
  (v &&& wfei_mask != 0, b)

/-- The read `core_held_in_reset(core)` of `CRU_SOFTRST_CON(0)`. -/
def core_held_in_reset (core : Nat) (b : Bus) : Bool × Bus :=
  let (val, b) := read32 (.cru (CRU_SOFTRST_CON 0)) b
  (val &&& CORE_HELD_IN_RESET core != 0, b)

/-- The part of `psci_cpu_on` from the soft reset on: reset and release core `c`,
wait for it to reach WFE or WFI, then give it the secure entry and the lock tag
in ISRAM and wake it. -/
def cpu_on_release (c : Nat) (b : Bus) : Int × Bus :=
  let b := b
    -- soft reset core
    |> write32 (CORE_SOFT_RESET c) (.cru (CRU_SOFTRST_CON 0))
    |> dsb
    |> udelay 2
    -- soft release core
    |> write32 (CORE_SOFT_RELEASE c) (.cru (CRU_SOFTRST_CON 0))
    |> dsb
  let (wfei, b) := wait_core_wfe_i c b
  if !wfei then (PSCI_RET_DENIED, b)
  else
    -- set secondary secure entry address and lock tag
    (PSCI_RET_SUCCESS, b
      |> write32 CFG_TEE_LOAD_ADDR (.isram BOOT_ADDR_OFFSET)
      |> write32 LOCK_TAG (.isram LOCK_ADDR_OFFSET)
      |> dsb
      |> sev
      |> dsb)

/-- The entry `psci_cpu_on(core_idx, entry, context_id)`. -/
def psci_cpu_on (core_idx entry _context_id : BitVec 32) (b : Bus) : Int × Bus :=
  let core_idx := core_idx &&& MPIDR_CPU_MASK
  if core_idx = 0 ∨ CFG_TEE_CORE_NB_CORE ≤ core_idx.toNat then (PSCI_RET_INVALID_PARAMETERS, b)
  else
    let c := core_idx.toNat
    -- set secondary cores' NS entry addresses
    let b := b.emit (.setEntry c entry)
    let (held, b) := core_held_in_reset c b
    if held then cpu_on_release c b
    else
      let (wfei, b) := wait_core_wfe_i c b
      if !wfei then (PSCI_RET_DENIED, b) else cpu_on_release c b

/-- The entry `psci_cpu_off()` on the core `core` that `get_core_pos()` names:
`none` when it parks the core in its `wfi()` loop and never returns. -/
def psci_cpu_off (core : Nat) : Option Int :=
  if core = 0 ∨ CFG_TEE_CORE_NB_CORE ≤ core then some PSCI_RET_INVALID_PARAMETERS else none

/-- The entry `psci_system_reset()`: PLLs to slow mode, then the global soft reset. -/
def psci_system_reset (b : Bus) : Bus := b
  -- PLLs enter slow mode
  |> write32 PLLS_SLOW_MODE (.cru CRU_MODE_CON)
  |> dsb
  -- Global second reset
  |> write32 CRU_SNDRST_VAL (.cru CRU_SNDRST_VAL_BASE)
  |> dsb

/-- The late initcall `reset_nonboot_cores()`: hold every secondary core in reset. -/
def reset_nonboot_cores (b : Bus) : Bus :=
  write32 NONBOOT_CORES_SOFT_RESET (.cru (CRU_SOFTRST_CON 0)) b

/-! ### The traces of one call -/

/-- The events of the soft reset and the soft release of core `c`. -/
def resetRelease (c : Nat) : List Event :=
  [.write (.cru (CRU_SOFTRST_CON 0)) (CORE_SOFT_RESET c), .dsb, .udelay 2,
   .write (.cru (CRU_SOFTRST_CON 0)) (CORE_SOFT_RELEASE c), .dsb]

/-- The events that hand the secure entry and the lock tag to a released core and wake it. -/
def handoff : List Event :=
  [.write (.isram BOOT_ADDR_OFFSET) CFG_TEE_LOAD_ADDR, .write (.isram LOCK_ADDR_OFFSET) LOCK_TAG,
   .dsb, .sev, .dsb]

/-- The bus trace `seg` of `wait_core_wfe_i core` returning `ok`: a poll of at most
500 delays, and the read after it. -/
def WfeiWait (core : Nat) (seg : List Event) (ok : Bool) : Prop :=
  ∃ poll v, Polled (.grf GRF_CPU_STATUS1) (CORE_WFE_I_MASK core) 500 poll ∧
    seg = poll ++ [.read (.grf GRF_CPU_STATUS1) v] ∧ ok = (v &&& CORE_WFE_I_MASK core != 0)

/-- What happens before the soft reset, after the read `v` of the reset register:
nothing when the core is held in reset, a wait that saw WFE or WFI otherwise. -/
def PreReset (c : Nat) (v : BitVec 32) (pre : List Event) : Prop :=
  (v &&& CORE_HELD_IN_RESET c ≠ 0 ∧ pre = []) ∨ (v &&& CORE_HELD_IN_RESET c = 0 ∧ WfeiWait c pre true)

/-- The bus traces of a call of `psci_cpu_on` for the valid core `c` with `entry`,
and what it returns. -/
inductive CpuOnTrace (c : Nat) (entry : BitVec 32) : List Event → Int → Prop
  /-- The core is out of reset and does not reach WFE or WFI: nothing is written. -/
  | deniedBefore {v : BitVec 32} {w : List Event} :
      v &&& CORE_HELD_IN_RESET c = 0 → WfeiWait c w false →
      CpuOnTrace c entry (.setEntry c entry :: .read (.cru (CRU_SOFTRST_CON 0)) v :: w)
        PSCI_RET_DENIED
  /-- The core is reset and released; the handoff follows when it reaches WFE or WFI. -/
  | released {v : BitVec 32} {pre w : List Event} {ok : Bool} :
      PreReset c v pre → WfeiWait c w ok →
      CpuOnTrace c entry (.setEntry c entry :: .read (.cru (CRU_SOFTRST_CON 0)) v ::
          (pre ++ resetRelease c ++ w ++ if ok then handoff else []))
        (if ok then PSCI_RET_SUCCESS else PSCI_RET_DENIED)

theorem wait_core_wfe_i_log (core : Nat) (b : Bus) :
    ∃ seg, WfeiWait core seg (wait_core_wfe_i core b).1 ∧
      (wait_core_wfe_i core b).2.log = b.log ++ seg := by
  obtain ⟨poll, hp, hlog⟩ := wait_bit_log (.grf GRF_CPU_STATUS1) (CORE_WFE_I_MASK core) 500 b
  exact ⟨_, ⟨poll, _, hp, rfl, rfl⟩, by simp [wait_core_wfe_i, hlog]⟩

theorem cpu_on_release_log (c : Nat) (b : Bus) :
    ∃ w ok, WfeiWait c w ok ∧
      (cpu_on_release c b).1 = (if ok then PSCI_RET_SUCCESS else PSCI_RET_DENIED) ∧
      (cpu_on_release c b).2.log = b.log ++ resetRelease c ++ w ++ if ok then handoff else [] := by
  rcases h : wait_core_wfe_i c (b
    |> write32 (CORE_SOFT_RESET c) (.cru (CRU_SOFTRST_CON 0)) |> dsb |> udelay 2
    |> write32 (CORE_SOFT_RELEASE c) (.cru (CRU_SOFTRST_CON 0)) |> dsb) with ⟨ok, b₂⟩
  obtain ⟨w, hw, hlog⟩ := wait_core_wfe_i_log c (b
    |> write32 (CORE_SOFT_RESET c) (.cru (CRU_SOFTRST_CON 0)) |> dsb |> udelay 2
    |> write32 (CORE_SOFT_RELEASE c) (.cru (CRU_SOFTRST_CON 0)) |> dsb)
  rw [h] at hw hlog
  refine ⟨w, ok, hw, ?_⟩
  simp only [cpu_on_release, h]
  cases ok <;> simp at hlog <;> simp [hlog, resetRelease, handoff]

/-- A call on a valid target passes the guard and records the entry. -/
theorem psci_cpu_on_of_valid {core_idx : BitVec 32} (entry context_id : BitVec 32) (b : Bus)
    (h₁ : 1 ≤ (core_idx &&& MPIDR_CPU_MASK).toNat)
    (h₂ : (core_idx &&& MPIDR_CPU_MASK).toNat < CFG_TEE_CORE_NB_CORE) :
    psci_cpu_on core_idx entry context_id b =
      let c := (core_idx &&& MPIDR_CPU_MASK).toNat
      let b := b.emit (.setEntry c entry)
      if (core_held_in_reset c b).1 then cpu_on_release c (core_held_in_reset c b).2
      else if !(wait_core_wfe_i c (core_held_in_reset c b).2).1 then
        (PSCI_RET_DENIED, (wait_core_wfe_i c (core_held_in_reset c b).2).2)
      else cpu_on_release c (wait_core_wfe_i c (core_held_in_reset c b).2).2 := by
  have h₀ : core_idx &&& MPIDR_CPU_MASK ≠ 0 := fun h => by simp [h] at h₁
  simp only [psci_cpu_on, h₀, false_or, if_neg (Nat.not_le.mpr h₂)]

/-- **The traces of `psci_cpu_on`.** A call on a valid target makes one of the
traces of `CpuOnTrace` and returns what it says. -/
theorem psci_cpu_on_log {core_idx : BitVec 32} (entry context_id : BitVec 32) (b : Bus)
    (h₁ : 1 ≤ (core_idx &&& MPIDR_CPU_MASK).toNat)
    (h₂ : (core_idx &&& MPIDR_CPU_MASK).toNat < CFG_TEE_CORE_NB_CORE) :
    ∃ t, CpuOnTrace (core_idx &&& MPIDR_CPU_MASK).toNat entry t
        (psci_cpu_on core_idx entry context_id b).1 ∧
      (psci_cpu_on core_idx entry context_id b).2.log = b.log ++ t := by
  rw [psci_cpu_on_of_valid entry context_id b h₁ h₂]
  generalize (core_idx &&& MPIDR_CPU_MASK).toNat = c
  dsimp only
  set v := b.hw 0
  have hheld : (core_held_in_reset c (b.emit (.setEntry c entry))).1 =
      (v &&& CORE_HELD_IN_RESET c != 0) := rfl
  have hlog : (core_held_in_reset c (b.emit (.setEntry c entry))).2.log =
      b.log ++ [.setEntry c entry, .read (.cru (CRU_SOFTRST_CON 0)) v] := by
    simp [core_held_in_reset, v]
  generalize core_held_in_reset c (b.emit (.setEntry c entry)) = r at hheld hlog
  obtain ⟨held, b₁⟩ := r
  dsimp only at hheld hlog
  cases held with
  | true =>
    -- held in reset: straight to the soft reset
    have hv : v &&& CORE_HELD_IN_RESET c ≠ 0 := by simpa using hheld.symm
    obtain ⟨w, ok, hw, hret, hlog'⟩ := cpu_on_release_log c b₁
    simp only [if_true, hret]
    exact ⟨_, .released (.inl ⟨hv, rfl⟩) hw, by simp [hlog', hlog]⟩
  | false =>
    have hv : v &&& CORE_HELD_IN_RESET c = 0 := by simpa using hheld.symm
    obtain ⟨pre, hpre, hlogp⟩ := wait_core_wfe_i_log c b₁
    rcases h : wait_core_wfe_i c b₁ with ⟨wfei, b₂⟩
    rw [h] at hpre hlogp
    dsimp only at hpre hlogp
    cases wfei with
    | false =>
      -- the core never reached WFE or WFI before the reset
      exact ⟨_, .deniedBefore hv hpre, by simp [hlogp, hlog]⟩
    | true =>
      obtain ⟨w, ok, hw, hret, hlog'⟩ := cpu_on_release_log c b₂
      simp only [Bool.false_eq_true, if_false, Bool.not_true, hret]
      exact ⟨_, .released (.inr ⟨hv, hpre⟩) hw, by simp [hlog', hlogp, hlog]⟩

/-! ### What a call returns, and what it touches -/

/-- A call on a valid target is denied or succeeds. -/
theorem CpuOnTrace.ret {c : Nat} {entry : BitVec 32} {t : List Event} {r : Int}
    (h : CpuOnTrace c entry t r) : r = PSCI_RET_DENIED ∨ r = PSCI_RET_SUCCESS := by
  cases h with
  | deniedBefore => exact .inl rfl
  | @released _ _ _ ok _ _ => cases ok <;> simp

/-- The events a call of `psci_cpu_on` for core `c` may make: reads, delays and
barriers, the entry of `c`, the reset and release words of `c` in
`CRU_SOFTRST_CON(0)`, and ISRAM writes. -/
def CpuOnEvent (c : Nat) : Event → Prop
  | .read _ _ | .udelay _ | .dsb | .sev => True
  | .setEntry c' _ => c' = c
  | .write (.cru off) v =>
    off = CRU_SOFTRST_CON 0 ∧ (v = CORE_SOFT_RESET c ∨ v = CORE_SOFT_RELEASE c)
  | .write (.isram _) _ => True
  | .write (.grf _) _ | .wfi | .cacheCleanInv | .panic => False

theorem WfeiWait.footprint {c : Nat} {seg : List Event} {ok : Bool} (h : WfeiWait c seg ok)
    {e : Event} (he : e ∈ seg) : CpuOnEvent c e := by
  obtain ⟨poll, v, hp, rfl, -⟩ := h
  rcases List.mem_append.mp he with he | he
  · rcases hp.mem he with ⟨_, rfl⟩ | rfl <;> trivial
  · rw [List.mem_singleton.mp he]; trivial

/-- **Footprint.** Every event of a call for core `c` is one of `CpuOnEvent c`. -/
theorem CpuOnTrace.footprint {c : Nat} {entry : BitVec 32} {t : List Event} {r : Int}
    (h : CpuOnTrace c entry t r) {e : Event} (he : e ∈ t) : CpuOnEvent c e := by
  revert e
  cases h with
  | deniedBefore _ hw =>
    simp only [List.forall_mem_cons]
    exact ⟨rfl, trivial, fun _ => hw.footprint⟩
  | @released _ _ _ ok hp hw =>
    simp only [List.forall_mem_cons, List.forall_mem_append]
    refine ⟨rfl, trivial, ⟨⟨?pre, ?reset⟩, fun _ => hw.footprint⟩, ?handoff⟩
    case pre =>
      rcases hp with ⟨-, rfl⟩ | ⟨-, hw'⟩
      · simp
      · exact fun _ => hw'.footprint
    case reset =>
      simp only [resetRelease, List.forall_mem_cons, List.not_mem_nil, false_implies,
        implies_true, and_true, CpuOnEvent, or_true, true_or, and_self]
    case handoff =>
      cases ok <;> simp only [handoff, if_true, if_false, Bool.false_eq_true, List.forall_mem_cons,
        List.not_mem_nil, false_implies, implies_true, and_true, CpuOnEvent, and_self]

/-- **What `psci_cpu_on` does.** For a target whose low byte names a secondary
core `c`, and whatever the status reads return, the call records `entry` for
`c` and reads the reset register. It is then either denied before writing any
register, when `c` is out of reset and does not reach WFE or WFI; or it writes
`CORE_SOFT_RESET(c)` then `CORE_SOFT_RELEASE(c)`, and is denied when `c` does not
reach WFE or WFI again, or else hands `c` the secure entry and the lock tag,
sends `sev()`, and succeeds. Each wait makes at most 500 delays. -/
theorem psci_cpu_on_effect (core_idx entry context_id : BitVec 32) (b : Bus)
    (h₁ : 1 ≤ (core_idx &&& MPIDR_CPU_MASK).toNat)
    (h₂ : (core_idx &&& MPIDR_CPU_MASK).toNat < CFG_TEE_CORE_NB_CORE) :
    let c := (core_idx &&& MPIDR_CPU_MASK).toNat
    let r := psci_cpu_on core_idx entry context_id b
    ∃ v rest, r.2.log = b.log ++ .setEntry c entry :: .read (.cru (CRU_SOFTRST_CON 0)) v :: rest ∧
      ((v &&& CORE_HELD_IN_RESET c = 0 ∧ WfeiWait c rest false ∧ r.1 = PSCI_RET_DENIED) ∨
       ∃ pre w, PreReset c v pre ∧
        ((WfeiWait c w false ∧ rest = pre ++ resetRelease c ++ w ∧ r.1 = PSCI_RET_DENIED) ∨
         (WfeiWait c w true ∧ rest = pre ++ resetRelease c ++ w ++ handoff ∧
           r.1 = PSCI_RET_SUCCESS))) := by
  obtain ⟨t, ht, hlog⟩ := psci_cpu_on_log entry context_id b h₁ h₂
  dsimp only
  generalize (psci_cpu_on core_idx entry context_id b).1 = ret at ht ⊢
  cases ht with
  | deniedBefore hv hw => exact ⟨_, _, hlog, .inl ⟨hv, hw, rfl⟩⟩
  | @released _ _ w ok hp hw =>
    refine ⟨_, _, hlog, .inr ⟨_, w, hp, ?_⟩⟩
    cases ok
    · exact .inl ⟨hw, by simp, rfl⟩
    · exact .inr ⟨hw, rfl, rfl⟩

theorem psci_cpu_on_effect_core1 :
    (1 ≤ ((1 : BitVec 32) &&& MPIDR_CPU_MASK).toNat ∧
      ((1 : BitVec 32) &&& MPIDR_CPU_MASK).toNat < CFG_TEE_CORE_NB_CORE) ∧
    let c := ((1 : BitVec 32) &&& MPIDR_CPU_MASK).toNat
    let b : Bus := ⟨fun _ => 0xffffffff, []⟩
    let r := psci_cpu_on 1 0x60000000 0 b
    ∃ v rest, r.2.log = b.log ++ .setEntry c 0x60000000 :: .read (.cru (CRU_SOFTRST_CON 0)) v :: rest ∧
      ((v &&& CORE_HELD_IN_RESET c = 0 ∧ WfeiWait c rest false ∧ r.1 = PSCI_RET_DENIED) ∨
       ∃ pre w, PreReset c v pre ∧
        ((WfeiWait c w false ∧ rest = pre ++ resetRelease c ++ w ∧ r.1 = PSCI_RET_DENIED) ∨
         (WfeiWait c w true ∧ rest = pre ++ resetRelease c ++ w ++ handoff ∧
           r.1 = PSCI_RET_SUCCESS))) :=
  ⟨⟨by decide, by decide⟩, psci_cpu_on_effect 1 0x60000000 0 _ (by decide) (by decide)⟩

/-- **The guard of `psci_cpu_on`.** A call returns `PSCI_RET_INVALID_PARAMETERS`
with the bus untouched exactly when the low byte of the target is 0 or past the
last core. A target whose low byte names a secondary core is not rejected, even
when the whole value is past the last core, as an MPIDR with a non-zero cluster
field is. -/
theorem psci_cpu_on_rejects (core_idx entry context_id : BitVec 32) (b : Bus) :
    psci_cpu_on core_idx entry context_id b = (PSCI_RET_INVALID_PARAMETERS, b) ↔
      core_idx &&& MPIDR_CPU_MASK = 0 ∨
        CFG_TEE_CORE_NB_CORE ≤ (core_idx &&& MPIDR_CPU_MASK).toNat := by
  by_cases hg : core_idx &&& MPIDR_CPU_MASK = 0 ∨
      CFG_TEE_CORE_NB_CORE ≤ (core_idx &&& MPIDR_CPU_MASK).toNat
  · exact iff_of_true (if_pos hg) hg
  · refine ⟨fun h => ?_, fun h => absurd h hg⟩
    push_neg at hg
    have h₁ : 1 ≤ (core_idx &&& MPIDR_CPU_MASK).toNat :=
      Nat.one_le_iff_ne_zero.mpr fun h => hg.1 (BitVec.eq_of_toNat_eq (by simp [h]))
    obtain ⟨t, ht, -⟩ := psci_cpu_on_log entry context_id b h₁ hg.2
    rw [h] at ht
    rcases ht.ret with h' | h' <;> simp [PSCI_RET_INVALID_PARAMETERS, PSCI_RET_DENIED,
      PSCI_RET_SUCCESS] at h'

/-- The target 0x101, core 1 of cluster 1, is past the last core, yet the call
is not rejected: it goes on to reset core 1. -/
theorem psci_cpu_on_accepts_cluster_core :
    ¬ ∀ core_idx entry context_id : BitVec 32, ∀ b : Bus,
      (core_idx = 0 ∨ CFG_TEE_CORE_NB_CORE ≤ core_idx.toNat) →
        psci_cpu_on core_idx entry context_id b = (PSCI_RET_INVALID_PARAMETERS, b) := by
  intro h
  have h101 := h 0x101 0 0 ⟨fun _ => 0xffffffff, []⟩ (.inr (by decide))
  exact absurd (congrArg Prod.fst h101) (by decide)

/-! ### A call does not depend on the log before it -/

theorem core_held_in_reset_prepend (c : Nat) (L : List Event) (b : Bus) :
    core_held_in_reset c (b.prepend L) =
      ((core_held_in_reset c b).1, (core_held_in_reset c b).2.prepend L) := by
  simp only [core_held_in_reset, read32_prepend]

theorem wait_core_wfe_i_prepend (c : Nat) (L : List Event) (b : Bus) :
    wait_core_wfe_i c (b.prepend L) = ((wait_core_wfe_i c b).1, (wait_core_wfe_i c b).2.prepend L) := by
  simp only [wait_core_wfe_i, wait_bit_prepend, read32_prepend]

theorem cpu_on_release_prepend (c : Nat) (L : List Event) (b : Bus) :
    cpu_on_release c (b.prepend L) = ((cpu_on_release c b).1, (cpu_on_release c b).2.prepend L) := by
  simp only [cpu_on_release, write32_eq, dsb_eq, udelay_eq, sev_eq, Bus.emit_prepend,
    wait_core_wfe_i_prepend]
  split <;> simp [Bus.emit_prepend]

theorem psci_cpu_on_prepend (core_idx entry context_id : BitVec 32) (L : List Event) (b : Bus) :
    psci_cpu_on core_idx entry context_id (b.prepend L) =
      ((psci_cpu_on core_idx entry context_id b).1,
        (psci_cpu_on core_idx entry context_id b).2.prepend L) := by
  simp only [psci_cpu_on, Bus.emit_prepend, core_held_in_reset_prepend, wait_core_wfe_i_prepend,
    cpu_on_release_prepend]
  split_ifs <;> simp [Bus.prepend]

/-! ### Affinity and the reset of the secondary cores -/

/-- The write-enable half of `NONBOOT_CORES_SOFT_RESET` names the reset bits of
cores 1 to 3, and its data half sets them. -/
theorem NONBOOT_CORES_SOFT_RESET_bits :
    ∀ i < 16,
      (wmask NONBOOT_CORES_SOFT_RESET).getLsbD i = decide (i ∈ [4 + 1, 4 + 2, 4 + 3]) ∧
      (wdata NONBOOT_CORES_SOFT_RESET).getLsbD i = decide (i ∈ [4 + 1, 4 + 2, 4 + 3]) := by
  decide

/-- **Secondary cores start in reset.** After `reset_nonboot_cores`, the reset bits
of cores 1 to 3 in `CRU_SOFTRST_CON(0)` are set and every other bit is as it was. -/
theorem reset_nonboot_cores_resets (m : Mem) (b : Bus) (i : Nat) :
    (((reset_nonboot_cores b).log.foldl Mem.apply m).cru (CRU_SOFTRST_CON 0)).getLsbD i =
      (decide (i ∈ [4 + 1, 4 + 2, 4 + 3]) ||
        ((b.log.foldl Mem.apply m).cru (CRU_SOFTRST_CON 0)).getLsbD i) := by
  simp only [reset_nonboot_cores, write32_eq, Bus.emit_log, Mem.cru_foldl, cruWrites_append,
    applyWrites_append, cruWrites_cons, Event.cruWrite?, if_true, Option.toList_some,
    cruWrites_nil, List.append_nil, applyWrites_cons, applyWrites_nil, getLsbD_maskedWrite]
  by_cases hi : i < 16
  · obtain ⟨hm, hd⟩ := NONBOOT_CORES_SOFT_RESET_bits i hi
    rw [hm, hd]
    by_cases h : i ∈ [4 + 1, 4 + 2, 4 + 3] <;> simp [h]
  · simp [BitVec.getLsbD_ge _ _ (Nat.le_of_not_lt hi)]
    omega

/-- The write-enable half of `PLLS_SLOW_MODE` names the mode bits of the four PLLs, and
its data half clears them. -/
theorem PLLS_SLOW_MODE_bits :
    ∀ i < 16, (wmask PLLS_SLOW_MODE).getLsbD i = decide (i ∈ [PLL_MODE_BIT APLL_ID,
        PLL_MODE_BIT DPLL_ID, PLL_MODE_BIT CPLL_ID, PLL_MODE_BIT GPLL_ID]) ∧
      (wdata PLLS_SLOW_MODE).getLsbD i = false := by
  decide

/-- **Every PLL slow when the global reset fires.** `psci_system_reset()` ends with the
write of `CRU_SNDRST_VAL` and a barrier; in the memory that write finds, the mode bits
of APLL, DPLL, CPLL and GPLL in `CRU_MODE_CON` are clear (24 MHz oscillator) and every
other bit is as it was. -/
theorem psci_system_reset_slow (m : Mem) (b : Bus) :
    ∃ pre, (psci_system_reset b).log =
        pre ++ [.write (.cru CRU_SNDRST_VAL_BASE) CRU_SNDRST_VAL, .dsb] ∧
      ∀ i, ((pre.foldl Mem.apply m).cru CRU_MODE_CON).getLsbD i =
        (!decide (i ∈ [PLL_MODE_BIT APLL_ID, PLL_MODE_BIT DPLL_ID, PLL_MODE_BIT CPLL_ID,
            PLL_MODE_BIT GPLL_ID]) &&
          ((b.log.foldl Mem.apply m).cru CRU_MODE_CON).getLsbD i) := by
  refine ⟨b.log ++ [.write (.cru CRU_MODE_CON) PLLS_SLOW_MODE, .dsb],
    by simp [psci_system_reset], fun i => ?_⟩
  simp only [Mem.cru_foldl, cruWrites_append, applyWrites_append, cruWrites_cons,
    Event.cruWrite?, if_true, Option.toList_some, Option.toList_none, cruWrites_nil,
    List.append_nil, List.nil_append, applyWrites_cons, applyWrites_nil, getLsbD_maskedWrite]
  by_cases hi : i < 16
  · obtain ⟨hm, hd⟩ := PLLS_SLOW_MODE_bits i hi
    rw [hm, hd]
    by_cases h : i ∈ [PLL_MODE_BIT APLL_ID, PLL_MODE_BIT DPLL_ID, PLL_MODE_BIT CPLL_ID,
      PLL_MODE_BIT GPLL_ID] <;> simp [h]
  · simp [BitVec.getLsbD_ge _ _ (Nat.le_of_not_lt hi)]

end Optee.Rk322x

import OpteeDrivers.Rk322x.Bus

/-!
# System suspend: clock gates and PLLs

The suspend path of `psci_rk322x.c`. `psci_system_suspend` saves and closes the
clock gates (`clks_disable`), saves the clock-select and mode registers and
powers the PLLs down (`plls_power_down`), cleans the data cache and waits for
an interrupt; on wake it powers the PLLs up and waits for their locks
(`plls_restore`), then reopens the gates (`clks_restore`).

The suspend path reads configuration registers, so it runs on a `Soc`: the bus,
the snapshot `dram_d`, and the memory before the bus log began (`Soc.boot`).
The memory now is that memory with the log folded over it (`Soc.mem`), and a
read of a register that is not a status register returns its content
(`Soc.read32`).

A failed PLL lock ends the run in `panic()`; such a run is `Except.error` with
the state at the halt.
-/

namespace Optee.Rk322x

/-! ### State -/

/-- The snapshot `struct dram_data dram_d`. -/
structure DramData where
  cru_mode_con : BitVec 32
  cru_clksel0 : BitVec 32
  cru_clksel1 : BitVec 32
  cru_clksel10 : BitVec 32
  cru_clksel21 : BitVec 32
  cru_clkgate : Nat → BitVec 32

/-- The state of the suspend path: the memory before the bus log began, the
snapshot, and the bus. -/
structure Soc where
  boot : Mem
  dram_d : DramData
  bus : Bus

/-- The memory now: the bus log folded over the memory before it. -/
def Soc.mem (s : Soc) : Mem := s.bus.log.foldl Mem.apply s.boot

/-- Run bus code on the SoC. -/
def Soc.onBus (f : Bus → Bus) (s : Soc) : Soc := { s with bus := f s.bus }

/-- Run bus code that may stop in `panic()` on the SoC. -/
def Soc.onBusE (f : Bus → Except Bus Bus) (s : Soc) : Except Soc Soc :=
  match f s.bus with
  | .ok b => .ok { s with bus := b }
  | .error b => .error { s with bus := b }

/-- A `read32` on the SoC: a status register gives the hardware's next value,
any other location its content. -/
def Soc.read32 (l : Loc) (s : Soc) : BitVec 32 × Soc :=
  if l.isStatus then ((Rk322x.read32 l s.bus).1, s.onBus fun b => (Rk322x.read32 l b).2)
  else (s.mem.read l, s.onBus (Bus.emit (.read l (s.mem.read l))))

/-- A `read32` stored into the snapshot: `dram_d.field = read32(l)`. -/
def Soc.save (l : Loc) (set : DramData → BitVec 32 → DramData) (s : Soc) : Soc :=
  let (v, s) := s.read32 l
  { s with dram_d := set s.dram_d v }

/-! ### Clock gates -/

/-- The gates `clks_disable` closes, one word per clock-gate register. -/
def clks_gating_table : List (BitVec 32) :=
  [0xefb8, 0x0ff7, 0xfff4, 0x887f,
   0x0030, 0x00f8, 0x07e0, 0xc000,
   0xff84, 0xb047, 0x1ca0, 0x57ff,
   0x0000, 0x00ff, 0x1cc0, 0x000f]

/-- One pass of the loop of `clks_disable`: save clock-gate register `i` and
write its entry of `clks_gating_table`. -/
def clks_disable_gate (i : Nat) (s : Soc) : Soc := s
  |>.save (.cru (CRU_CLKGATE_CON i))
      (fun d v => { d with cru_clkgate := Function.update d.cru_clkgate i v })
  |>.onBus (write32 (BITS_WITH_WMASK (clks_gating_table.getD i 0) 0xffff 0)
      (.cru (CRU_CLKGATE_CON i)))

/-- Save every clock-gate register and close the gates of `clks_gating_table`. -/
def clks_disable : Soc → Soc :=
  forUpTo clks_disable_gate CRU_CLKGATE_CON_CNT

/-- One pass of the loop of `clks_restore`: write the saved word of clock-gate
register `i` back, all sixteen bits enabled. -/
def clks_restore_gate (i : Nat) (s : Soc) : Soc :=
  s.onBus (write32 (BITS_WITH_WMASK (s.dram_d.cru_clkgate i) 0xffff 0) (.cru (CRU_CLKGATE_CON i)))

/-- Write every saved clock-gate word back. -/
def clks_restore : Soc → Soc :=
  forUpTo clks_restore_gate CRU_CLKGATE_CON_CNT

/-! ### PLLs -/

/-- Select the 24 MHz oscillator for `pll`, then power it down. -/
def pll_power_down (pll : Nat) (b : Bus) : Bus := b
  |> write32 (PLL_SLOW_MODE pll) (.cru CRU_MODE_CON)
  |> write32 PLL_POWER_DOWN (.cru (CRU_PLL_CON1 pll))

/-- Power `pll` up. -/
def pll_power_up (pll : Nat) : Bus → Bus :=
  write32 PLL_POWER_UP (.cru (CRU_PLL_CON1 pll))

/-- Wait at most 500 × 2 µs for the lock of `pll`; panic if the read after the
loop does not show it. -/
def pll_wait_lock (pll : Nat) (b : Bus) : Except Bus Bus :=
  let b := wait_bit (.cru (CRU_PLL_CON1 pll)) PLL_LOCK 500 b
  let (v, b) := read32 (.cru (CRU_PLL_CON1 pll)) b
  if v &&& PLL_LOCK = 0 then .error (b.emit .panic) else .ok b

/-- Save the clock-select and mode registers, put the PLLs in slow mode and
power them down, then set the bus dividers for 24 MHz. -/
def plls_power_down (s : Soc) : Soc := s
  |>.save (.cru (CRU_CLKSEL_CON 0)) (fun d v => { d with cru_clksel0 := v })
  |>.save (.cru (CRU_CLKSEL_CON 1)) (fun d v => { d with cru_clksel1 := v })
  |>.save (.cru (CRU_CLKSEL_CON 10)) (fun d v => { d with cru_clksel10 := v })
  |>.save (.cru (CRU_CLKSEL_CON 21)) (fun d v => { d with cru_clksel21 := v })
  |>.save (.cru CRU_MODE_CON) (fun d v => { d with cru_mode_con := v })
  |>.onBus fun b => b
    |> pll_power_down GPLL_ID
    |> pll_power_down CPLL_ID
    |> pll_power_down APLL_ID
    -- core
    |> write32 (BITS_WITH_WMASK 0 0x1f 0) (.cru (CRU_CLKSEL_CON 0))
    |> write32 (BITS_WITH_WMASK 0 0xf 0 ||| BITS_WITH_WMASK 0 0x7 4) (.cru (CRU_CLKSEL_CON 1))
    -- peri aclk, hclk, pclk
    |> write32 (BITS_WITH_WMASK 0 0x1f 0 ||| BITS_WITH_WMASK 0 0x3 8 |||
        BITS_WITH_WMASK 0 0x7 12) (.cru (CRU_CLKSEL_CON 10))
    -- pdbus
    |> write32 (BITS_WITH_WMASK 0 0x1f 8) (.cru (CRU_CLKSEL_CON 0))
    |> write32 (BITS_WITH_WMASK 0 0x3 8 ||| BITS_WITH_WMASK 0 0x7 12) (.cru (CRU_CLKSEL_CON 1))
    -- hdmi cec 32k
    |> write32 (BITS_WITH_WMASK 732 0x3fff 0 ||| BITS_WITH_WMASK 2 0x3 14)
        (.cru (CRU_CLKSEL_CON 21))

/-- The power-up half of `plls_restore`: power the three PLLs up, wait 200 µs,
and wait for their locks in turn. -/
def plls_relock (b : Bus) : Except Bus Bus := do
  let b := b
    |> pll_power_up APLL_ID
    |> pll_power_up GPLL_ID
    |> pll_power_up CPLL_ID
    |> udelay 200
  let b ← pll_wait_lock APLL_ID b
  let b ← pll_wait_lock GPLL_ID b
  pll_wait_lock CPLL_ID b

/-- The register half of `plls_restore`: the saved dividers and mode bits, each
write enabling exactly the fields the power-down path changed. -/
def plls_restore_regs (d : DramData) (b : Bus) : Bus := b
  -- hdmi cec 32k
  |> write32 (d.cru_clksel21 ||| BITS_WMSK 0x3fff 0 ||| BITS_WMSK 0x3 14) (.cru (CRU_CLKSEL_CON 21))
  -- pdbus
  |> write32 (d.cru_clksel0 ||| BITS_WMSK 0x1f 8) (.cru (CRU_CLKSEL_CON 0))
  |> write32 (d.cru_clksel1 ||| BITS_WMSK 0x3 8 ||| BITS_WMSK 0x7 12) (.cru (CRU_CLKSEL_CON 1))
  -- peri aclk, hclk, pclk
  |> write32 (d.cru_clksel10 ||| BITS_WMSK 0x1f 0 ||| BITS_WMSK 0x3 8 ||| BITS_WMSK 0x7 12)
      (.cru (CRU_CLKSEL_CON 10))
  -- core
  |> write32 (d.cru_clksel0 ||| BITS_WMSK 0x1f 0) (.cru (CRU_CLKSEL_CON 0))
  |> write32 (d.cru_clksel1 ||| BITS_WMSK 0xf 0 ||| BITS_WMSK 0x7 4) (.cru (CRU_CLKSEL_CON 1))
  -- resume plls mode
  |> write32 (d.cru_mode_con ||| BITS_WMSK 0x1 (PLL_MODE_BIT APLL_ID)) (.cru CRU_MODE_CON)
  |> write32 (d.cru_mode_con ||| BITS_WMSK 0x1 (PLL_MODE_BIT CPLL_ID)) (.cru CRU_MODE_CON)
  |> write32 (d.cru_mode_con ||| BITS_WMSK 0x1 (PLL_MODE_BIT GPLL_ID)) (.cru CRU_MODE_CON)

/-- Power the PLLs up, wait for their locks, and restore the saved dividers and
PLL modes. -/
def plls_restore (s : Soc) : Except Soc Soc := do
  let s ← s.onBusE plls_relock
  pure (s.onBus (plls_restore_regs s.dram_d))

/-- The entry `psci_system_suspend(entry, context_id, nsec)`; the arguments are
unused. -/
def psci_system_suspend (s : Soc) : Except Soc (Int × Soc) := do
  let s := s
    |> clks_disable
    |> plls_power_down
    |>.onBus (Bus.emit .cacheCleanInv)
    |>.onBus wfi
  let s ← plls_restore s
  let s := clks_restore s
  pure (PSCI_RET_SUCCESS, s)

/-! ### Runs on the SoC -/

section Runs

variable {s s' s'' : Soc} {L L' : List Event}

@[simp] theorem Soc.onBus_bus (f : Bus → Bus) (s : Soc) : (s.onBus f).bus = f s.bus := rfl
@[simp] theorem Soc.onBus_boot (f : Bus → Bus) (s : Soc) : (s.onBus f).boot = s.boot := rfl
@[simp] theorem Soc.onBus_dram_d (f : Bus → Bus) (s : Soc) : (s.onBus f).dram_d = s.dram_d := rfl

/-- `s'` continues `s` with the events `L`: the memory before the log is the
same and the log of `s` is followed by `L`. -/
def Soc.Extends (s s' : Soc) (L : List Event) : Prop :=
  s'.boot = s.boot ∧ s'.bus.log = s.bus.log ++ L

theorem Soc.Extends.trans (h : s.Extends s' L) (h' : s'.Extends s'' L') :
    s.Extends s'' (L ++ L') :=
  ⟨h'.1.trans h.1, by rw [h'.2, h.2, List.append_assoc]⟩

/-- A CRU register after a run is `applyWrites` of the run's writes to it. -/
theorem Soc.Extends.cru (h : s.Extends s' L) (off : Nat) :
    s'.mem.cru off = applyWrites (s.mem.cru off) (cruWrites off L) := by
  rw [Soc.mem, h.1, h.2, List.foldl_append, Mem.cru_foldl]; rfl

theorem Soc.extends_onBus_emit (s : Soc) (e : Event) : s.Extends (s.onBus (Bus.emit e)) [e] :=
  ⟨rfl, rfl⟩

/-- The configuration registers: neither a PLL status word nor the soft-reset
register. -/
theorem Loc.isStatus_cru_eq_false {off : Nat} (h : CRU_PLL_CON1 PLL_END ≤ off)
    (h' : off ≠ CRU_SOFTRST_CON 0) : (Loc.cru off).isStatus = false := by
  simp only [Loc.isStatus, Bool.or_eq_false_iff, beq_eq_false_iff_ne, List.any_eq_false,
    List.mem_range, beq_iff_eq]
  refine ⟨h', fun pll hp heq => ?_⟩
  simp only [CRU_PLL_CON1, PLL_END] at h hp heq
  omega

theorem Loc.isStatus_clkgate {i : Nat} (hi : i < CRU_CLKGATE_CON_CNT) :
    (Loc.cru (CRU_CLKGATE_CON i)).isStatus = false :=
  Loc.isStatus_cru_eq_false (by simp [CRU_PLL_CON1, CRU_CLKGATE_CON, PLL_END])
    (by simp only [CRU_CLKGATE_CON, CRU_SOFTRST_CON, CRU_CLKGATE_CON_CNT] at hi ⊢; omega)

/-- A save from a configuration register reads its content and logs the read. -/
theorem Soc.save_of_config {l : Loc} (h : l.isStatus = false)
    (set : DramData → BitVec 32 → DramData) (s : Soc) :
    s.save l set = ⟨s.boot, set s.dram_d (s.mem.read l), s.bus.emit (.read l (s.mem.read l))⟩ := by
  simp [Soc.save, Soc.read32, h, Soc.onBus]

@[simp] theorem Soc.mem_mk_emit_read (boot : Mem) (d : DramData) (b : Bus) (l : Loc)
    (v : BitVec 32) : (Soc.mk boot d (b.emit (.read l v))).mem = (Soc.mk boot d b).mem := by
  simp [Soc.mem, List.foldl_append, Mem.apply]

theorem Soc.extends_save {l : Loc} (h : l.isStatus = false)
    (set : DramData → BitVec 32 → DramData) (s : Soc) :
    s.Extends (s.save l set) [.read l (s.mem.read l)] := by
  rw [Soc.save_of_config h]; exact ⟨rfl, rfl⟩

end Runs

/-! ### `plls_power_down` -/

/-- The reads `plls_power_down` saves into the snapshot, from memory `m`. -/
def plls_power_down_reads (m : Mem) : List Event :=
  [.read (.cru (CRU_CLKSEL_CON 0)) (m.read (.cru (CRU_CLKSEL_CON 0))),
   .read (.cru (CRU_CLKSEL_CON 1)) (m.read (.cru (CRU_CLKSEL_CON 1))),
   .read (.cru (CRU_CLKSEL_CON 10)) (m.read (.cru (CRU_CLKSEL_CON 10))),
   .read (.cru (CRU_CLKSEL_CON 21)) (m.read (.cru (CRU_CLKSEL_CON 21))),
   .read (.cru CRU_MODE_CON) (m.read (.cru CRU_MODE_CON))]

/-- The writes of `plls_power_down`, in order. -/
def plls_power_down_writes : List Event :=
  [.write (.cru CRU_MODE_CON) (PLL_SLOW_MODE GPLL_ID),
   .write (.cru (CRU_PLL_CON1 GPLL_ID)) PLL_POWER_DOWN,
   .write (.cru CRU_MODE_CON) (PLL_SLOW_MODE CPLL_ID),
   .write (.cru (CRU_PLL_CON1 CPLL_ID)) PLL_POWER_DOWN,
   .write (.cru CRU_MODE_CON) (PLL_SLOW_MODE APLL_ID),
   .write (.cru (CRU_PLL_CON1 APLL_ID)) PLL_POWER_DOWN,
   .write (.cru (CRU_CLKSEL_CON 0)) (BITS_WITH_WMASK 0 0x1f 0),
   .write (.cru (CRU_CLKSEL_CON 1)) (BITS_WITH_WMASK 0 0xf 0 ||| BITS_WITH_WMASK 0 0x7 4),
   .write (.cru (CRU_CLKSEL_CON 10))
      (BITS_WITH_WMASK 0 0x1f 0 ||| BITS_WITH_WMASK 0 0x3 8 ||| BITS_WITH_WMASK 0 0x7 12),
   .write (.cru (CRU_CLKSEL_CON 0)) (BITS_WITH_WMASK 0 0x1f 8),
   .write (.cru (CRU_CLKSEL_CON 1)) (BITS_WITH_WMASK 0 0x3 8 ||| BITS_WITH_WMASK 0 0x7 12),
   .write (.cru (CRU_CLKSEL_CON 21)) (BITS_WITH_WMASK 732 0x3fff 0 ||| BITS_WITH_WMASK 2 0x3 14)]

theorem plls_power_down_spec (s : Soc) :
    s.Extends (plls_power_down s) (plls_power_down_reads s.mem ++ plls_power_down_writes) ∧
      (plls_power_down s).dram_d = { s.dram_d with
        cru_clksel0 := s.mem.read (.cru (CRU_CLKSEL_CON 0)),
        cru_clksel1 := s.mem.read (.cru (CRU_CLKSEL_CON 1)),
        cru_clksel10 := s.mem.read (.cru (CRU_CLKSEL_CON 10)),
        cru_clksel21 := s.mem.read (.cru (CRU_CLKSEL_CON 21)),
        cru_mode_con := s.mem.read (.cru CRU_MODE_CON) } := by
  simp (disch := decide) only [plls_power_down, Soc.save_of_config]
  refine ⟨⟨rfl, ?_⟩, ?_⟩
  · simp [pll_power_down, plls_power_down_reads, plls_power_down_writes, Soc.mem]
  · simp [Soc.mem]

/-- The writes of `plls_restore` after the locks, from the snapshot `d`. -/
def plls_restore_writes (d : DramData) : List Event :=
  [.write (.cru (CRU_CLKSEL_CON 21)) (d.cru_clksel21 ||| BITS_WMSK 0x3fff 0 ||| BITS_WMSK 0x3 14),
   .write (.cru (CRU_CLKSEL_CON 0)) (d.cru_clksel0 ||| BITS_WMSK 0x1f 8),
   .write (.cru (CRU_CLKSEL_CON 1)) (d.cru_clksel1 ||| BITS_WMSK 0x3 8 ||| BITS_WMSK 0x7 12),
   .write (.cru (CRU_CLKSEL_CON 10))
      (d.cru_clksel10 ||| BITS_WMSK 0x1f 0 ||| BITS_WMSK 0x3 8 ||| BITS_WMSK 0x7 12),
   .write (.cru (CRU_CLKSEL_CON 0)) (d.cru_clksel0 ||| BITS_WMSK 0x1f 0),
   .write (.cru (CRU_CLKSEL_CON 1)) (d.cru_clksel1 ||| BITS_WMSK 0xf 0 ||| BITS_WMSK 0x7 4),
   .write (.cru CRU_MODE_CON) (d.cru_mode_con ||| BITS_WMSK 0x1 (PLL_MODE_BIT APLL_ID)),
   .write (.cru CRU_MODE_CON) (d.cru_mode_con ||| BITS_WMSK 0x1 (PLL_MODE_BIT CPLL_ID)),
   .write (.cru CRU_MODE_CON) (d.cru_mode_con ||| BITS_WMSK 0x1 (PLL_MODE_BIT GPLL_ID))]

@[simp] theorem plls_restore_regs_log (d : DramData) (b : Bus) :
    (plls_restore_regs d b).log = b.log ++ plls_restore_writes d := by
  simp [plls_restore_regs, plls_restore_writes]

/-! ### The clock-gate loops -/

/-- The writes a loop over the clock gates makes to register `off`, when pass
`i` writes `w i` to clock-gate register `i`, for the first `n` passes. -/
def gateWrites (w : Nat → BitVec 32) (n off : Nat) : List (BitVec 32) :=
  (List.range n).filterMap fun i => if CRU_CLKGATE_CON i = off then some (w i) else none

theorem gateWrites_succ (w : Nat → BitVec 32) (n off : Nat) :
    gateWrites w (n + 1) off =
      gateWrites w n off ++ (if CRU_CLKGATE_CON n = off then [w n] else []) := by
  by_cases h : CRU_CLKGATE_CON n = off <;> simp [gateWrites, List.range_succ, h]

/-- Before pass `j`, no pass has written clock-gate register `j`. -/
theorem gateWrites_self (w : Nat → BitVec 32) (j : Nat) :
    gateWrites w j (CRU_CLKGATE_CON j) = [] := by
  simp only [gateWrites, List.filterMap_eq_nil_iff, List.mem_range, CRU_CLKGATE_CON]
  intro i hi
  rw [if_neg (by omega)]

theorem gateWrites_clkgate (w : Nat → BitVec 32) {n j : Nat} (hj : j < n) :
    gateWrites w n (CRU_CLKGATE_CON j) = [w j] := by
  induction n with
  | zero => omega
  | succ n ih =>
    rw [gateWrites_succ]
    rcases Nat.lt_succ_iff_lt_or_eq.mp hj with h | rfl
    · rw [ih h, if_neg (by simp only [CRU_CLKGATE_CON]; omega), List.append_nil]
    · rw [gateWrites_self, if_pos rfl]; rfl

/-- Registers below the clock gates see no write of a clock-gate loop. -/
theorem gateWrites_eq_nil (w : Nat → BitVec 32) (n : Nat) {off : Nat}
    (h : off < CRU_CLKGATE_CON 0) : gateWrites w n off = [] := by
  simp only [gateWrites, List.filterMap_eq_nil_iff, List.mem_range]
  intro i _
  rw [if_neg (by simp only [CRU_CLKGATE_CON] at h ⊢; omega)]

/-- The word `clks_disable` writes to clock-gate register `i`. -/
def gateDown (i : Nat) : BitVec 32 := BITS_WITH_WMASK (clks_gating_table.getD i 0) 0xffff 0

theorem clks_disable_loop (s : Soc) {n : Nat} (hn : n ≤ CRU_CLKGATE_CON_CNT) :
    ∃ L, s.Extends (forUpTo clks_disable_gate n s) L ∧
      (∀ off, cruWrites off L = gateWrites gateDown n off) ∧
      ∀ i < n, (forUpTo clks_disable_gate n s).dram_d.cru_clkgate i =
        maskedRead (s.mem.cru (CRU_CLKGATE_CON i)) := by
  induction n with
  | zero =>
    exact ⟨[], ⟨rfl, (List.append_nil _).symm⟩, fun _ => rfl,
      fun _ h => absurd h (by omega)⟩
  | succ n ih =>
    obtain ⟨L, hext, hw, hd⟩ := ih (by omega)
    have hst := Loc.isStatus_clkgate (i := n) (by omega)
    -- the pass reads register `n`, which no earlier pass wrote
    have hread : (forUpTo clks_disable_gate n s).mem.cru (CRU_CLKGATE_CON n) =
        s.mem.cru (CRU_CLKGATE_CON n) := by
      rw [hext.cru, hw, gateWrites_self, applyWrites_nil]
    refine ⟨_, hext.trans ((Soc.extends_save hst _ _).trans (Soc.extends_onBus_emit _ _)),
      fun off => ?_, fun i hi => ?_⟩
    · simp only [cruWrites_append, hw, gateWrites_succ, cruWrites_cons, cruWrites_nil,
        Event.cruWrite?, List.append_nil, gateDown]
      split <;> rfl
    · simp only [forUpTo, clks_disable_gate, Soc.save_of_config hst, Soc.onBus_dram_d]
      rcases Nat.lt_succ_iff_lt_or_eq.mp hi with h | rfl
      · rw [Function.update_noteq (by omega), hd i h]
      · rw [Function.update_same, Mem.read, hread]

theorem clks_disable_spec (s : Soc) :
    ∃ L, s.Extends (clks_disable s) L ∧
      (∀ off, cruWrites off L = gateWrites gateDown CRU_CLKGATE_CON_CNT off) ∧
      ∀ i < CRU_CLKGATE_CON_CNT, (clks_disable s).dram_d.cru_clkgate i =
        maskedRead (s.mem.cru (CRU_CLKGATE_CON i)) :=
  clks_disable_loop s le_rfl

theorem clks_restore_loop (s : Soc) (n : Nat) :
    ∃ L, s.Extends (forUpTo clks_restore_gate n s) L ∧
      (∀ off, cruWrites off L =
        gateWrites (fun i => BITS_WITH_WMASK (s.dram_d.cru_clkgate i) 0xffff 0) n off) ∧
      (forUpTo clks_restore_gate n s).dram_d = s.dram_d := by
  induction n with
  | zero => exact ⟨[], ⟨rfl, (List.append_nil _).symm⟩, fun _ => rfl, rfl⟩
  | succ n ih =>
    obtain ⟨L, hext, hw, hd⟩ := ih
    refine ⟨_, hext.trans (Soc.extends_onBus_emit _ _), fun off => ?_, hd⟩
    simp only [cruWrites_append, hw, gateWrites_succ, cruWrites_cons, cruWrites_nil,
      Event.cruWrite?, List.append_nil, hd]
    split <;> rfl

end Optee.Rk322x

import Mathlib.Algebra.Group.Nat.Basic
import OpteeDrivers.Mmio

/-!
# The HI16xx UART: status bits tested by their numbers

`hi16xx_uart.c` names the bits of `UART_USR` by their numbers:
`UART_USR_TFE_BIT` is 2 and `UART_USR_RFNE_BIT` is 3. The driver uses these
numbers as masks, so `read32(base + UART_USR) & UART_USR_TFE_BIT` tests bit 1
(transmit FIFO not full), not bit 2 (transmit FIFO empty), and
`& UART_USR_RFNE_BIT` tests bits 0 and 1 (busy, transmit FIFO not full), not
bit 3 (receive FIFO not empty).

The polling loops have no bound; each is modelled with a `fuel` argument and
gives `none` when the fuel runs out.

Main results:
* `hi16xx_uart_putc_log`: `putc` writes `UART_THR` right after the first `UART_USR`
  read with bit 1 set, whatever bit 2 says;
* `hi16xx_uart_getchar_log`: `getchar` reads `UART_RBR` right after the first
  `UART_USR` read with bit 0 or bit 1 set, whatever bit 3 says;
* `hi16xx_uart_putc_isSome_iff`, `hi16xx_uart_getchar_isSome_iff`: the polling loops
  return exactly when a status read shows the bits they test;
* `hi16xx_uart_usr_bit_numbers`: the register values on which `flush`, `putc`,
  `have_rx_data` and `getchar` act against the bit they are meant to test.

`init` writes its registers at the physical base it is given and flushes at the base
`chip_to_base` gives, which is the mapped one once the MMU is on.
-/

namespace Optee.Hi16xx

/-! ### Registers -/

/-- The register offset `UART_RBR`, the receive buffer. -/
def UART_RBR : Nat := 0x00
/-- The register offset `UART_THR`, the transmit buffer. -/
def UART_THR : Nat := 0x00
/-- The register offset `UART_DLL`, the low byte of the divider. -/
def UART_DLL : Nat := 0x00
/-- The register offset `UART_IEL`, the interrupt enables. -/
def UART_IEL : Nat := 0x04
/-- The register offset `UART_DLH`, the high byte of the divider. -/
def UART_DLH : Nat := 0x04
/-- The register offset `UART_FCR`, the FIFO control. -/
def UART_FCR : Nat := 0x08
/-- The register offset `UART_LCR`, the line control. -/
def UART_LCR : Nat := 0x0C
/-- The register offset `UART_USR`, the status. -/
def UART_USR : Nat := 0x7C

/-- The line control value `UART_LCR_DLS8`: 8 data bits. -/
def UART_LCR_DLS8 : BitVec 32 := 0x3
/-- The line control bit `UART_LCR_DLAB`: access to `UART_DLL` and `UART_DLH`. -/
def UART_LCR_DLAB : BitVec 32 := 0x80
/-- The FIFO control bit `UART_FCR_FIFO_EN`: "Enable FIFO (depth: 32 bytes)". -/
def UART_FCR_FIFO_EN : BitVec 32 := 0x1
/-- The FIFO control bit `UART_FCR_RX_FIFO_RST`: "Clear receive FIFO (auto reset)". -/
def UART_FCR_RX_FIFO_RST : BitVec 32 := 0x2
/-- The FIFO control bit `UART_FCR_TX_FIFO_RST`: "Clear send FIFO (auto reset)". -/
def UART_FCR_TX_FIFO_RST : BitVec 32 := 0x4

/-- The bit number `UART_USR_TFNF_BIT` of the transmit-FIFO-not-full bit. -/
def UART_USR_TFNF_BIT : BitVec 32 := 1
/-- The bit number `UART_USR_TFE_BIT` of the transmit-FIFO-empty bit. -/
def UART_USR_TFE_BIT : BitVec 32 := 2
/-- The bit number `UART_USR_RFNE_BIT` of the receive-FIFO-not-empty bit. -/
def UART_USR_RFNE_BIT : BitVec 32 := 3
/-- The bit number `UART_USR_RFF_BIT` of the receive-FIFO-full bit. -/
def UART_USR_RFF_BIT : BitVec 32 := 4

/-! ### The driver -/

/-- The function `chip_to_base(chip)`, that is `io_pa_or_va(&pd->base)`: the physical
base `pa` while the MMU is off, and once it is on the mapped one, kept in `pd->base.va`
from the first call on. `io_pa_or_va` is not part of the sources; it has the shape of
the accessors `mappedBase` models. The operations below take the base it gives. -/
def chip_to_base (mmu : Bool) (p2v pa va : Nat) : Nat × Nat := mappedBase pa mmu p2v va

/-- The loop `while (!(read32(base + UART_USR) & UART_USR_TFE_BIT));` of `flush` and
`putc`, with at most `fuel` reads. -/
def wait_tx_empty (base : Nat) : Nat → Mmio → Option Mmio
  | 0, _ => none
  | fuel + 1, io =>
    let (usr, io) := io.read32 base UART_USR
    if usr &&& UART_USR_TFE_BIT = 0 then wait_tx_empty base fuel io else some io

/-- The operation `hi16xx_uart_flush` on the UART at `base`. -/
def hi16xx_uart_flush (fuel base : Nat) (io : Mmio) : Option Mmio :=
  wait_tx_empty base fuel io

/-- The operation `hi16xx_uart_putc`: wait, then put `ch` into the TX FIFO. -/
def hi16xx_uart_putc (fuel base : Nat) (ch : BitVec 32) (io : Mmio) : Option Mmio := do
  -- Wait until TX FIFO is empty
  let io ← wait_tx_empty base fuel io
  -- Put character into TX FIFO
  pure (io.write32 (ch &&& 0xFF) base UART_THR)

/-- The operation `hi16xx_uart_have_rx_data`. -/
def hi16xx_uart_have_rx_data (base : Nat) (io : Mmio) : Bool × Mmio :=
  let (usr, io) := io.read32 base UART_USR
  (usr &&& UART_USR_RFNE_BIT != 0, io)

/-- The loop `while (!hi16xx_uart_have_rx_data(chip));` of `getchar`, with at most
`fuel` passes. -/
def wait_rx_data (base : Nat) : Nat → Mmio → Option Mmio
  | 0, _ => none
  | fuel + 1, io =>
    let (rx, io) := hi16xx_uart_have_rx_data base io
    if rx then some io else wait_rx_data base fuel io

/-- The operation `hi16xx_uart_getchar`: wait for data, then read a byte of `UART_RBR`. -/
def hi16xx_uart_getchar (fuel base : Nat) (io : Mmio) : Option (BitVec 32 × Mmio) := do
  let io ← wait_rx_data base fuel io
  let (rbr, io) := io.read32 base UART_RBR
  pure (rbr &&& 0xFF, io)

/-- The function `hi16xx_uart_init(pd, base, uart_clk, baud_rate)`, with `va` the
field `pd->base.va` on entry: enable the FIFOs, set the divider
`uart_clk / (16 * baud_rate)` (a `uint16_t`), select 8 data bits and disable
interrupts, all at the physical base `base`, then flush at the base `chip_to_base`
gives. It returns `pd->base.va` as `chip_to_base` leaves it. -/
def hi16xx_uart_init (fuel : Nat) (mmu : Bool) (p2v va base : Nat) (uart_clk baud_rate : BitVec 32)
    (io : Mmio) : Option (Nat × Mmio) :=
  let freq_div : BitVec 16 := (uart_clk / (16 * baud_rate)).setWidth 16
  let io := io
    -- Enable (and clear) FIFOs
    |>.write32 UART_FCR_FIFO_EN base UART_FCR
    -- Enable access to _DLL and _DLH
    |>.write32 UART_LCR_DLAB base UART_LCR
    -- Calculate and set UART_DLL
    |>.write32 ((freq_div &&& 0xFF).setWidth 32) base UART_DLL
    -- Calculate and set UART_DLH
    |>.write32 (((freq_div >>> 8) &&& 0xFF).setWidth 32) base UART_DLH
    -- Clear _DLL/_DLH access bit, set data size (8 bits), parity etc.
    |>.write32 UART_LCR_DLS8 base UART_LCR
    -- Disable interrupt mode
    |>.write32 0 base UART_IEL
  let (chip_base, va) := chip_to_base mmu p2v base va
  (hi16xx_uart_flush fuel chip_base io).map (va, ·)

/-! ### Which bits the driver tests -/

/-- Masking with `UART_USR_TFE_BIT`, the number 2, tests bit 1 of the status. -/
theorem and_TFE_BIT_eq_zero_iff (usr : BitVec 32) :
    usr &&& UART_USR_TFE_BIT = 0 ↔ usr.getLsbD 1 = false := by
  have hbits : ∀ i < 32, UART_USR_TFE_BIT.getLsbD i = decide (i = 1) := by decide
  rw [and_eq_zero_iff]
  constructor
  · intro h; exact h 1 (by decide) (by rw [hbits 1 (by decide)]; rfl)
  · intro h i hi hm
    rw [hbits i hi, decide_eq_true_iff] at hm
    exact hm ▸ h

/-- Masking with `UART_USR_RFNE_BIT`, the number 3, tests bits 0 and 1 of the status. -/
theorem and_RFNE_BIT_eq_zero_iff (usr : BitVec 32) :
    usr &&& UART_USR_RFNE_BIT = 0 ↔ usr.getLsbD 0 = false ∧ usr.getLsbD 1 = false := by
  have hbits : ∀ i < 32, UART_USR_RFNE_BIT.getLsbD i = decide (i = 0 ∨ i = 1) := by decide
  rw [and_eq_zero_iff]
  constructor
  · intro h
    exact ⟨h 0 (by decide) (by rw [hbits 0 (by decide)]; rfl),
      h 1 (by decide) (by rw [hbits 1 (by decide)]; rfl)⟩
  · rintro ⟨h₀, h₁⟩ i hi hm
    rw [hbits i hi, decide_eq_true_iff] at hm
    rcases hm with rfl | rfl
    · exact h₀
    · exact h₁

/-- **What `have_rx_data` answers.** It reports data when bit 0 (busy) or bit 1
(transmit FIFO not full) of `UART_USR` is set, whatever bit 3 says. -/
theorem hi16xx_uart_have_rx_data_iff (base : Nat) (io : Mmio) :
    (hi16xx_uart_have_rx_data base io).1 = true ↔
      (io.hw 0).getLsbD 0 = true ∨ (io.hw 0).getLsbD 1 = true := by
  have h := and_RFNE_BIT_eq_zero_iff (io.hw 0)
  simp only [hi16xx_uart_have_rx_data, Mmio.read32_fst, bne_iff_ne, ne_eq]
  rw [h]
  cases (io.hw 0).getLsbD 0 <;> cases (io.hw 0).getLsbD 1 <;> simp

theorem wait_tx_empty_log {base fuel : Nat} {io io' : Mmio} (h : wait_tx_empty base fuel io = some io') :
    ∃ (vs : List (BitVec 32)) (v : BitVec 32),
      io'.log = io.log ++ vs.map (Access.read base UART_USR ·) ++ [.read base UART_USR v] ∧
      v.getLsbD 1 = true ∧ ∀ u ∈ vs, u.getLsbD 1 = false := by
  induction fuel generalizing io with
  | zero => cases h
  | succ fuel ih =>
    simp only [wait_tx_empty, Mmio.read32_fst] at h
    split at h
    · rename_i hz
      obtain ⟨vs, v, hlog, hv, hvs⟩ := ih h
      refine ⟨io.hw 0 :: vs, v, by simp [hlog], hv, ?_⟩
      simp only [List.mem_cons, forall_eq_or_imp]
      exact ⟨(and_TFE_BIT_eq_zero_iff _).mp hz, hvs⟩
    · rename_i hz
      cases h
      refine ⟨[], io.hw 0, by simp, ?_, by simp⟩
      simpa using mt (and_TFE_BIT_eq_zero_iff _).mpr hz

/-- **What `putc` waits for.** `putc` writes the character to `UART_THR` right
after the first `UART_USR` read with bit 1 (transmit FIFO not full) set; bit 2
(transmit FIFO empty) plays no part. -/
theorem hi16xx_uart_putc_log {fuel base : Nat} {ch : BitVec 32} {io io' : Mmio}
    (h : hi16xx_uart_putc fuel base ch io = some io') :
    ∃ (vs : List (BitVec 32)) (v : BitVec 32),
      io'.log = io.log ++ vs.map (Access.read base UART_USR ·) ++
        [.read base UART_USR v, .write base UART_THR (ch &&& 0xFF)] ∧
      v.getLsbD 1 = true ∧ ∀ u ∈ vs, u.getLsbD 1 = false := by
  simp only [hi16xx_uart_putc, Option.bind_eq_bind, Option.bind_eq_some, Option.pure_def,
    Option.some.injEq] at h
  obtain ⟨io₁, hw, rfl⟩ := h
  obtain ⟨vs, v, hlog, hv, hvs⟩ := wait_tx_empty_log hw
  exact ⟨vs, v, by simp [hlog], hv, hvs⟩

/-- The transmit FIFO full at the first read (`0x4`: bit 1 clear), not full at the
second (`0x6`). -/
theorem hi16xx_uart_putc_log_full_first :
    ∃ io', hi16xx_uart_putc 2 0 0x41 ⟨fun i => if i = 0 then 0x4 else 0x6, []⟩ = some io' ∧
      ∃ (vs : List (BitVec 32)) (v : BitVec 32),
        io'.log = [] ++ vs.map (Access.read 0 UART_USR ·) ++
          [.read 0 UART_USR v, .write 0 UART_THR (0x41 &&& 0xFF)] ∧
        v.getLsbD 1 = true ∧ ∀ u ∈ vs, u.getLsbD 1 = false :=
  ⟨_, rfl, @hi16xx_uart_putc_log 2 0 0x41 ⟨fun i => if i = 0 then 0x4 else 0x6, []⟩ _ rfl⟩

theorem wait_rx_data_log {base fuel : Nat} {io io' : Mmio}
    (h : wait_rx_data base fuel io = some io') :
    ∃ (vs : List (BitVec 32)) (v : BitVec 32),
      io'.log = io.log ++ vs.map (Access.read base UART_USR ·) ++ [.read base UART_USR v] ∧
      (v.getLsbD 0 = true ∨ v.getLsbD 1 = true) ∧
      ∀ u ∈ vs, u.getLsbD 0 = false ∧ u.getLsbD 1 = false := by
  induction fuel generalizing io with
  | zero => cases h
  | succ fuel ih =>
    simp only [wait_rx_data, hi16xx_uart_have_rx_data, Mmio.read32_fst, bne_iff_ne, ne_eq] at h
    split at h
    · rename_i hz
      cases h
      refine ⟨[], io.hw 0, by simp, ?_, by simp⟩
      by_contra hb
      simp only [not_or, Bool.not_eq_true] at hb
      exact hz ((and_RFNE_BIT_eq_zero_iff _).mpr hb)
    · rename_i hz
      obtain ⟨vs, v, hlog, hv, hvs⟩ := ih h
      refine ⟨io.hw 0 :: vs, v, by simp [hlog], hv, ?_⟩
      simp only [List.mem_cons, forall_eq_or_imp]
      exact ⟨(and_RFNE_BIT_eq_zero_iff _).mp (not_not.mp hz), hvs⟩

/-- **What `getchar` waits for.** `getchar` reads `UART_RBR` right after the first
`UART_USR` read with bit 0 (busy) or bit 1 (transmit FIFO not full) set, and returns
the low byte of what it reads there; bit 3 (receive FIFO not empty) plays no part. -/
theorem hi16xx_uart_getchar_log {fuel base : Nat} {io io' : Mmio} {ch : BitVec 32}
    (h : hi16xx_uart_getchar fuel base io = some (ch, io')) :
    ∃ (vs : List (BitVec 32)) (v rbr : BitVec 32),
      io'.log = io.log ++ vs.map (Access.read base UART_USR ·) ++
        [.read base UART_USR v, .read base UART_RBR rbr] ∧ ch = rbr &&& 0xFF ∧
      (v.getLsbD 0 = true ∨ v.getLsbD 1 = true) ∧
      ∀ u ∈ vs, u.getLsbD 0 = false ∧ u.getLsbD 1 = false := by
  simp only [hi16xx_uart_getchar, Option.bind_eq_bind, Option.bind_eq_some, Option.pure_def,
    Option.some.injEq, Prod.mk.injEq] at h
  obtain ⟨io₁, hw, rfl, rfl⟩ := h
  obtain ⟨vs, v, hlog, hv, hvs⟩ := wait_rx_data_log hw
  exact ⟨vs, v, _, by simp [hlog], rfl, hv, hvs⟩

/-- Bits 0 and 1 clear at the first read (`0x8`, the receive FIFO not empty), bit 0
set at the second (`0x1`, the receive FIFO empty), then `0x41` in `UART_RBR`. -/
theorem hi16xx_uart_getchar_log_empty_second :
    ∃ ch io', hi16xx_uart_getchar 2 0
        ⟨fun i => if i = 0 then 0x8 else if i = 1 then 0x1 else 0x41, []⟩ = some (ch, io') ∧
      ∃ (vs : List (BitVec 32)) (v rbr : BitVec 32),
        io'.log = [] ++ vs.map (Access.read 0 UART_USR ·) ++
          [.read 0 UART_USR v, .read 0 UART_RBR rbr] ∧ ch = rbr &&& 0xFF ∧
        (v.getLsbD 0 = true ∨ v.getLsbD 1 = true) ∧
        ∀ u ∈ vs, u.getLsbD 0 = false ∧ u.getLsbD 1 = false :=
  ⟨_, _, rfl, @hi16xx_uart_getchar_log 2 0
    ⟨fun i => if i = 0 then 0x8 else if i = 1 then 0x1 else 0x41, []⟩ _ _ rfl⟩

/-! ### When the loops return -/

theorem wait_tx_empty_isSome_iff (base fuel : Nat) (io : Mmio) :
    (wait_tx_empty base fuel io).isSome ↔ ∃ j < fuel, (io.hw j).getLsbD 1 = true := by
  induction fuel generalizing io with
  | zero => simp [wait_tx_empty]
  | succ fuel ih =>
    simp only [wait_tx_empty, Mmio.read32_fst]
    split
    · rename_i hz
      have h0 := (and_TFE_BIT_eq_zero_iff _).mp hz
      rw [ih]
      constructor
      · rintro ⟨j, hj, hb⟩
        exact ⟨j + 1, by omega, by simpa using hb⟩
      · rintro ⟨_ | j, hj, hb⟩
        · rw [h0] at hb; cases hb
        · exact ⟨j, by omega, by simpa using hb⟩
    · rename_i hz
      simp only [Option.isSome_some, true_iff]
      exact ⟨0, by omega, by simpa using mt (and_TFE_BIT_eq_zero_iff _).mpr hz⟩

/-- **When `putc` returns.** `putc` returns, with at most `fuel` reads of `UART_USR`,
exactly when bit 1 is set in one of the first `fuel` values `UART_USR` gives. -/
theorem hi16xx_uart_putc_isSome_iff (fuel base : Nat) (ch : BitVec 32) (io : Mmio) :
    (hi16xx_uart_putc fuel base ch io).isSome ↔ ∃ j < fuel, (io.hw j).getLsbD 1 = true := by
  rw [← wait_tx_empty_isSome_iff base]
  simp only [hi16xx_uart_putc, Option.bind_eq_bind, Option.pure_def]
  cases wait_tx_empty base fuel io <;> rfl

theorem wait_rx_data_isSome_iff (base fuel : Nat) (io : Mmio) :
    (wait_rx_data base fuel io).isSome ↔
      ∃ j < fuel, (io.hw j).getLsbD 0 = true ∨ (io.hw j).getLsbD 1 = true := by
  induction fuel generalizing io with
  | zero => simp [wait_rx_data]
  | succ fuel ih =>
    simp only [wait_rx_data, hi16xx_uart_have_rx_data, Mmio.read32_fst, bne_iff_ne, ne_eq]
    split
    · rename_i hz
      simp only [Option.isSome_some, true_iff]
      refine ⟨0, by omega, ?_⟩
      by_contra hb
      simp only [not_or, Bool.not_eq_true] at hb
      exact hz ((and_RFNE_BIT_eq_zero_iff _).mpr hb)
    · rename_i hz
      have h0 := (and_RFNE_BIT_eq_zero_iff _).mp (not_not.mp hz)
      rw [ih]
      constructor
      · rintro ⟨j, hj, hb⟩
        exact ⟨j + 1, by omega, by simpa using hb⟩
      · rintro ⟨_ | j, hj, hb⟩
        · rw [h0.1, h0.2] at hb; simp at hb
        · exact ⟨j, by omega, by simpa using hb⟩

/-- **When `getchar` returns.** `getchar` returns, with at most `fuel` reads of
`UART_USR`, exactly when bit 0 or bit 1 is set in one of the first `fuel` values
`UART_USR` gives: a status with only bit 3 (receive FIFO not empty) set keeps it
waiting. -/
theorem hi16xx_uart_getchar_isSome_iff (fuel base : Nat) (io : Mmio) :
    (hi16xx_uart_getchar fuel base io).isSome ↔
      ∃ j < fuel, (io.hw j).getLsbD 0 = true ∨ (io.hw j).getLsbD 1 = true := by
  rw [← wait_rx_data_isSome_iff base]
  simp only [hi16xx_uart_getchar, Option.bind_eq_bind, Option.pure_def]
  cases wait_rx_data base fuel io <;> rfl

/-! ### The divider -/

/-- The two bytes of a `uint16_t`, widened to registers, put back together. -/
theorem divider_bytes (d : BitVec 16) :
    ((d &&& 0xFF).setWidth 32).toNat + 256 * (((d >>> 8) &&& 0xFF).setWidth 32).toNat =
      d.toNat := by
  have hd := d.isLt
  simp only [BitVec.toNat_setWidth, BitVec.toNat_and, BitVec.toNat_ushiftRight]
  rw [show BitVec.toNat (255 : BitVec 16) = 2 ^ 8 - 1 from rfl, Nat.and_pow_two_sub_one_eq_mod,
    Nat.and_pow_two_sub_one_eq_mod, Nat.shiftRight_eq_div_pow]
  omega

/-- The divider `uart_clk / (16 * baud_rate)`, with the product taken in 32 bits, cut to
a `uint16_t`. -/
theorem freq_div_toNat (uart_clk baud_rate : BitVec 32) :
    ((uart_clk / (16 * baud_rate)).setWidth 16).toNat =
      uart_clk.toNat / (16 * baud_rate.toNat % 2 ^ 32) % 2 ^ 16 := by
  simp [BitVec.toNat_setWidth, BitVec.toNat_udiv, BitVec.toNat_mul]

/-- The 24 MHz clock at 115200 baud gives the divider 13. -/
example :
    (24000000 : BitVec 32).toNat / (16 * (115200 : BitVec 32).toNat % 2 ^ 32) % 2 ^ 16 = 13 := by
  decide

/-- What `init` writes: the FIFO enable, `DLAB`, the two bytes of the divider, 8 data
bits with `DLAB` clear and no interrupts, all at `base`, and then only reads of
`UART_USR` at the base `chip_to_base` gives; the two bytes put back together are
`uart_clk / (16 * baud_rate)`, with the product taken in 32 bits, cut to 16 bits. -/
theorem hi16xx_uart_init_divider {fuel : Nat} {mmu : Bool} {p2v va va' base : Nat}
    {uart_clk baud_rate : BitVec 32} {io io' : Mmio}
    (h : hi16xx_uart_init fuel mmu p2v va base uart_clk baud_rate io = some (va', io')) :
    ∃ (dll dlh : BitVec 32) (rest : List Access),
      io'.log = io.log ++ [.write base UART_FCR UART_FCR_FIFO_EN,
        .write base UART_LCR UART_LCR_DLAB, .write base UART_DLL dll, .write base UART_DLH dlh,
        .write base UART_LCR UART_LCR_DLS8, .write base UART_IEL 0] ++ rest ∧
      (∀ a ∈ rest, ∃ v, a = .read (chip_to_base mmu p2v base va).1 UART_USR v) ∧
      dll.toNat < 256 ∧ dlh.toNat < 256 ∧
      dll.toNat + 256 * dlh.toNat = uart_clk.toNat / (16 * baud_rate.toNat % 2 ^ 32) % 2 ^ 16 := by
  simp only [hi16xx_uart_init, Option.map_eq_some', Prod.mk.injEq] at h
  obtain ⟨io₁, hf, -, rfl⟩ := h
  obtain ⟨vs, v, hlog, -, -⟩ := wait_tx_empty_log hf
  refine ⟨_, _, _, by rw [hlog]; simp only [Mmio.write32_log, List.append_assoc]; rfl, ?_, ?_, ?_,
    by rw [divider_bytes, freq_div_toNat]⟩
  · simp only [List.mem_append, List.mem_map, List.mem_singleton]
    rintro a (⟨u, -, rfl⟩ | rfl) <;> exact ⟨_, rfl⟩
  all_goals
    simp only [BitVec.toNat_setWidth, BitVec.toNat_and]
    exact Nat.lt_of_le_of_lt (Nat.mod_le _ _) (Nat.lt_succ_of_le Nat.and_le_right)

/-- **Bit numbers used as masks.** With the status `0x2` (bit 2, transmit FIFO
empty, clear), `flush` returns and `putc` writes `UART_THR` after one read; with
`0x8` (bit 3, receive FIFO not empty, set) `have_rx_data` reports no data, and
with `0x1` (bit 3 clear) it reports data, on which `getchar` reads `UART_RBR`. -/
theorem hi16xx_uart_usr_bit_numbers (base : Nat) :
    (hi16xx_uart_flush 1 base ⟨fun _ => 0x2, []⟩).map Mmio.log = some [.read base UART_USR 0x2] ∧
    (hi16xx_uart_putc 1 base 0x41 ⟨fun _ => 0x2, []⟩).map Mmio.log =
      some [.read base UART_USR 0x2, .write base UART_THR 0x41] ∧
    (0x2 : BitVec 32).getLsbD 2 = false ∧
    (hi16xx_uart_have_rx_data base ⟨fun _ => 0x8, []⟩).1 = false ∧
    (0x8 : BitVec 32).getLsbD 3 = true ∧
    (hi16xx_uart_getchar 1 base ⟨fun i => if i = 0 then 0x1 else 0x41, []⟩).map (·.2.log) =
      some [.read base UART_USR 0x1, .read base UART_RBR 0x41] ∧
    (0x1 : BitVec 32).getLsbD 3 = false :=
  ⟨rfl, rfl, by decide, rfl, by decide, rfl, by decide⟩

end Optee.Hi16xx

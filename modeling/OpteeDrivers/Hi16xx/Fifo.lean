import OpteeDrivers.Hi16xx.Uart

/-!
# The driver and the UART: every character put out, in order

The comments of `hi16xx_uart.c` say what the UART does with the driver's
accesses. `UART_THR`, `UART_RBR` and `UART_DLL` share offset 0, `UART_IEL` and
`UART_DLH` offset 4, and `UART_LCR_DLAB` in the line control selects the divider
("Enable access to UART_DLL and UART_DLH"). The FIFOs hold 32 bytes ("depth: 32
bytes"), and `UART_USR` shows, in the bits `UART_USR_TFNF_BIT` to
`UART_USR_RFF_BIT`, whether the transmit FIFO is not full or empty and whether the
receive FIFO is not empty or full. `Uart` is that device; its FIFOs carry their
bound, and it keeps a record of the bytes that have left on the line (`line`, a
ghost field). On its own it sends the oldest byte of the transmit FIFO, or receives
a byte (`UartStep`).

`putc` writes `UART_THR` right after a status read with bit 1 set, since it masks
with `UART_USR_TFE_BIT`, the number 2. Bit 1 is `UART_USR_TFNF_BIT`: the transmit
FIFO had room at that read, and since on its own the device only ever empties it,
it still has room at the write (`Uart.Keeps.putc`). So over any sequence of calls
through `hi16xx_uart_ops`, whatever the device does meanwhile, what is on the line
followed by what is still in the transmit FIFO is what was there before, followed
by the characters of the `putc` calls in order: none is lost or reordered, and the
line control and the divider stay as they were (`serial_run_line`).

A write to `UART_FCR` clears FIFOs (`Uart.fcr`): `UART_FCR_FIFO_EN`, which `init`
writes first, "Enable[s] (and clear[s]) FIFOs", so that what `init` leaves on the
line is what was there before followed by at most what the transmit FIFO held, and
the FIFO is empty. The line only grows (`Uart.line_prefix`). `init` then writes the
divider while `UART_LCR_DLAB` is set, so its write at offset 0 reaches `UART_DLL` and
not the transmit FIFO, and leaves the divider `uart_clk / (16 * baud_rate)` in the
latch and `UART_LCR_DLAB` clear (`init_clears`). From the state it leaves, the calls
after it behave as above (`hi16xx_uart_session`).
-/

namespace Optee.Hi16xx

/-- The depth of the FIFOs: "Enable FIFO (depth: 32 bytes)". -/
def FIFO_DEPTH : Nat := 32

/-- The UART, as the comments of `hi16xx_uart.c` describe it. -/
structure Uart where
  /-- `UART_LCR`. -/
  lcr : BitVec 32
  /-- `UART_DLL`, the low byte of the divider. -/
  dll : BitVec 32
  /-- `UART_DLH`, the high byte of the divider. -/
  dlh : BitVec 32
  /-- `UART_IEL`. -/
  iel : BitVec 32
  /-- The transmit FIFO, oldest byte first. -/
  tx : List (BitVec 8)
  tx_le : tx.length ≤ FIFO_DEPTH
  /-- The receive FIFO, oldest byte first. -/
  rx : List (BitVec 8)
  rx_le : rx.length ≤ FIFO_DEPTH
  /-- The bytes that have left on the line, oldest first. -/
  line : List (BitVec 8)

/-- What the UART does on its own between two accesses of the driver. -/
inductive UartStep
  /-- The oldest byte of the transmit FIFO leaves on the line. -/
  | transmit
  /-- The byte `b` arrives; it is lost when the receive FIFO is full. -/
  | receive (b : BitVec 8)
  deriving DecidableEq, Repr

namespace Uart

/-- `UART_LCR_DLAB` is set: offsets 0 and 4 reach the divider. -/
def dlab (d : Uart) : Bool := d.lcr &&& UART_LCR_DLAB != 0

/-- The oldest byte of the transmit FIFO leaves on the line. -/
def transmit (d : Uart) : Uart :=
  match h : d.tx with
  | [] => d
  | b :: tx =>
    { d with tx, line := d.line ++ [b],
             tx_le := by have := d.tx_le; rw [h, List.length_cons] at this; omega }

/-- A byte arrives; it is lost when the receive FIFO is full. -/
def receive (b : BitVec 8) (d : Uart) : Uart :=
  if h : d.rx.length < FIFO_DEPTH then
    { d with rx := d.rx ++ [b], rx_le := by rw [List.length_append, List.length_singleton]; omega }
  else d

/-- A byte written to the transmit FIFO; it is lost when the FIFO is full. -/
def push (b : BitVec 8) (d : Uart) : Uart :=
  if h : d.tx.length < FIFO_DEPTH then
    { d with tx := d.tx ++ [b], tx_le := by rw [List.length_append, List.length_singleton]; omega }
  else d

/-- A read of `UART_RBR` takes the oldest byte of the receive FIFO. -/
def pop (d : Uart) : Uart :=
  match h : d.rx with
  | [] => d
  | _ :: rx => { d with rx, rx_le := by have := d.rx_le; rw [h, List.length_cons] at this; omega }

/-- A write of `v` to `UART_FCR`: `UART_FCR_FIFO_EN` enables "(and clear[s])" both
FIFOs, and `UART_FCR_RX_FIFO_RST` and `UART_FCR_TX_FIFO_RST` clear one each. -/
def fcr (v : BitVec 32) (d : Uart) : Uart :=
  { d with
    tx := if v &&& (UART_FCR_FIFO_EN ||| UART_FCR_TX_FIFO_RST) ≠ 0 then [] else d.tx
    tx_le := by split <;> simp [d.tx_le]
    rx := if v &&& (UART_FCR_FIFO_EN ||| UART_FCR_RX_FIFO_RST) ≠ 0 then [] else d.rx
    rx_le := by split <;> simp [d.rx_le] }

/-- One step of the device on its own. -/
def step (d : Uart) : UartStep → Uart
  | .transmit => d.transmit
  | .receive b => d.receive b

/-- What `UART_USR` shows of the FIFOs, in the bits the header names; bit 0 (busy)
is left free. -/
def usrShows (d : Uart) (v : BitVec 32) : Bool :=
  v.getLsbD UART_USR_TFNF_BIT.toNat == decide (d.tx.length < FIFO_DEPTH) &&
    v.getLsbD UART_USR_TFE_BIT.toNat == d.tx.isEmpty &&
    v.getLsbD UART_USR_RFNE_BIT.toNat == !d.rx.isEmpty &&
    v.getLsbD UART_USR_RFF_BIT.toNat == decide (d.rx.length = FIFO_DEPTH)

/-- One access of the driver. A read of `UART_USR` shows the FIFOs, a read of
`UART_RBR` takes the oldest received byte (what an empty FIFO gives is left free);
offsets 0 and 4 are written to the divider while `UART_LCR_DLAB` is set, and a write
to `UART_FCR` clears FIFOs. The other registers play no part here. -/
def access (d : Uart) : Access → Option Uart
  | .read _ off v =>
    if off = UART_USR then (if d.usrShows v then some d else none)
    else if off = UART_RBR ∧ d.dlab = false then
      match d.rx with
      | [] => some d
      | b :: _ => if v.setWidth 8 = b then some d.pop else none
    else some d
  | .write _ off v =>
    if off = UART_LCR then some { d with lcr := v }
    else if off = UART_THR then
      some (if d.dlab then { d with dll := v } else d.push (v.setWidth 8))
    else if off = UART_IEL then
      some (if d.dlab then { d with dlh := v } else { d with iel := v })
    else if off = UART_FCR then some (d.fcr v)
    else some d

end Uart

/-- The UART as the device of the driver. -/
def uart : Device Uart UartStep := ⟨Uart.step, Uart.access⟩

@[simp] theorem uart_step : uart.step = Uart.step := rfl
@[simp] theorem uart_access : uart.access = Uart.access := rfl

/-! ### What the device keeps -/

/-- Status reads, then other reads. -/
theorem usr_reads_isRead (b : Nat) (vs : List (BitVec 32)) {L : List Access}
    (hL : ∀ a ∈ L, a.isRead = true) :
    ∀ a ∈ vs.map (Access.read b UART_USR ·) ++ L, a.isRead = true := by
  simp only [List.forall_mem_append, List.forall_mem_map]
  exact ⟨fun _ _ => rfl, hL⟩

namespace Uart

/-- The line control and the divider. -/
def regs (d : Uart) : BitVec 32 × BitVec 32 × BitVec 32 := (d.lcr, d.dll, d.dlh)

/-- What is on the line followed by what is still in the transmit FIFO is `X`, and
the line control and the divider are `r`. -/
def Keeps (X : List (BitVec 8)) (r : BitVec 32 × BitVec 32 × BitVec 32) (d : Uart) : Prop :=
  d.line ++ d.tx = X ∧ d.regs = r

variable {X : List (BitVec 8)} {r : BitVec 32 × BitVec 32 × BitVec 32} {d d' : Uart}

theorem Keeps.step (h : Keeps X r d) (e : UartStep) : Keeps X r (d.step e) := by
  cases e with
  | transmit =>
    show Keeps X r d.transmit
    unfold transmit
    split
    · exact h
    · rename_i b tx htx
      refine ⟨?_, h.2⟩
      show d.line ++ [b] ++ tx = X
      rw [← h.1, htx]
      simp
  | receive b =>
    show Keeps X r (d.receive b)
    unfold receive
    split <;> exact h

/-- On its own the device never fills the transmit FIFO. -/
theorem step_room (h : d.tx.length < FIFO_DEPTH) (e : UartStep) :
    (d.step e).tx.length < FIFO_DEPTH := by
  cases e with
  | transmit =>
    show d.transmit.tx.length < FIFO_DEPTH
    unfold transmit
    split
    · exact h
    · rename_i b tx htx
      rw [htx, List.length_cons] at h
      show tx.length < FIFO_DEPTH
      omega
  | receive b =>
    show (d.receive b).tx.length < FIFO_DEPTH
    unfold receive
    split <;> exact h

theorem Keeps.steps (h : Keeps X r d) (es : List UartStep) : Keeps X r (es.foldl Uart.step d) :=
  @Device.steps_inv _ _ uart _ (fun _ e h => h.step e) es _ h

theorem steps_room (h : d.tx.length < FIFO_DEPTH) (es : List UartStep) :
    (es.foldl Uart.step d).tx.length < FIFO_DEPTH :=
  @Device.steps_inv _ _ uart (fun d => d.tx.length < FIFO_DEPTH) (fun _ e h => step_room h e) es
    _ h

/-- A read leaves the device as it is, or takes the oldest received byte. -/
theorem access_read {b off : Nat} {v : BitVec 32} (ha : d.access (.read b off v) = some d') :
    d' = d ∨ d' = d.pop := by
  simp only [Uart.access] at ha
  split_ifs at ha
  · exact .inl (Option.some.inj ha).symm
  · split at ha
    · exact .inl (Option.some.inj ha).symm
    · split_ifs at ha
      exact .inr (Option.some.inj ha).symm
  · exact .inl (Option.some.inj ha).symm

/-- A read changes neither the line, the transmit FIFO nor the registers. -/
theorem Keeps.read {b off : Nat} {v : BitVec 32} (h : Keeps X r d)
    (ha : d.access (.read b off v) = some d') : Keeps X r d' := by
  rcases access_read ha with rfl | rfl
  · exact h
  · unfold pop
    split <;> exact h

/-- A status read with bit 1 set finds room in the transmit FIFO. -/
theorem room_of_usr {b : Nat} {v : BitVec 32} (hv : v.getLsbD 1 = true)
    (ha : d.access (.read b UART_USR v) = some d') : d.tx.length < FIFO_DEPTH ∧ d' = d := by
  simp only [Uart.access, if_true] at ha
  split_ifs at ha with hs
  cases ha
  simp only [usrShows, Bool.and_eq_true, beq_iff_eq] at hs
  have h1 : UART_USR_TFNF_BIT.toNat = 1 := rfl
  rw [h1, hv] at hs
  exact ⟨of_decide_eq_true hs.1.1.1.symm, rfl⟩

/-- A write to `UART_THR` with `UART_LCR_DLAB` clear and room in the FIFO adds its
byte. -/
theorem Keeps.push {b : Nat} {v : BitVec 32} (h : Keeps X r d) (hr : r.1 &&& UART_LCR_DLAB = 0)
    (hroom : d.tx.length < FIFO_DEPTH) (ha : d.access (.write b UART_THR v) = some d') :
    Keeps (X ++ [v.setWidth 8]) r d' := by
  have hdlab : d.dlab = false := by
    simp only [dlab, bne_eq_false_iff_eq]
    rw [show d.lcr = r.1 from congrArg Prod.fst h.2, hr]
  simp only [Uart.access, if_neg (show UART_THR ≠ UART_LCR by decide), if_true, hdlab,
    Bool.false_eq_true, if_false, Option.some.injEq] at ha
  subst ha
  simp only [Uart.push, dif_pos hroom]
  exact ⟨by rw [← h.1]; simp, h.2⟩

/-- Reads keep what the device keeps, whatever it does on its own meanwhile. -/
theorem Keeps.reads {sched : Nat → List UartStep} {L : List Access}
    (hL : ∀ a ∈ L, a.isRead = true) (h : Keeps X r d) (ha : uart.accepts sched L d = some d') :
    Keeps X r d' :=
  Device.accepts_inv (fun _ e h => h.step e) (fun a ha' _ _ hacc hk => by
    cases a with
    | read b off v => exact hk.read (show Uart.access _ (.read b off v) = _ from hacc)
    | write => cases hL _ ha') ha h

@[simp] theorem push_line (b : BitVec 8) : (d.push b).line = d.line := by
  unfold push; split <;> rfl

@[simp] theorem pop_line : d.pop.line = d.line := by
  unfold pop; split <;> rfl

/-- No access of the driver puts a byte on the line. -/
theorem access_line {a : Access} (ha : d.access a = some d') : d'.line = d.line := by
  cases a with
  | read => rcases access_read ha with rfl | rfl <;> simp
  | write =>
    simp only [Uart.access] at ha
    split_ifs at ha <;> cases ha <;> simp [fcr]

/-- On its own the device only adds to the line. -/
theorem line_prefix_step (d : Uart) (e : UartStep) : d.line <+: (d.step e).line := by
  cases e with
  | transmit =>
    show d.line <+: d.transmit.line
    unfold transmit
    split
    · exact List.prefix_refl _
    · exact List.prefix_append _ _
  | receive b =>
    show d.line <+: (d.receive b).line
    unfold receive
    split <;> exact List.prefix_refl _

theorem steps_line_prefix (d : Uart) (es : List UartStep) : d.line <+: (es.foldl Uart.step d).line :=
  @Device.steps_inv _ _ uart (fun d' => d.line <+: d'.line)
    (fun d₁ e h => h.trans (line_prefix_step d₁ e)) es _ (List.prefix_refl _)

/-- What has left on the line stays there. -/
theorem line_prefix {sched : Nat → List UartStep} {L : List Access}
    (h : uart.accepts sched L d = some d') : d.line <+: d'.line :=
  Device.accepts_inv (P := fun d' => d.line <+: d'.line)
    (fun d₁ e h => h.trans (line_prefix_step d₁ e))
    (fun _ _ _ d₂ ha hp => by
      show d.line <+: d₂.line
      rwa [access_line (show Uart.access _ _ = _ from ha)]) h (List.prefix_refl _)

/-- The write of `init` to `UART_FCR` empties the transmit FIFO, and keeps the line,
the line control and the divider. -/
theorem access_fcr {b : Nat} (ha : d.access (.write b UART_FCR UART_FCR_FIFO_EN) = some d') :
    d'.tx = [] ∧ d'.line = d.line ∧ d'.regs = d.regs := by
  simp only [Uart.access, if_neg (show UART_FCR ≠ UART_LCR by decide),
    if_neg (show UART_FCR ≠ UART_THR by decide), if_neg (show UART_FCR ≠ UART_IEL by decide),
    if_true, Option.some.injEq] at ha
  subst ha
  exact ⟨by simp only [fcr]; exact if_pos (by decide), rfl, rfl⟩

/-- What a write that puts no byte into the transmit FIFO does to the line control
and the divider. -/
def regsAfter (r : BitVec 32 × BitVec 32 × BitVec 32) (off : Nat) (v : BitVec 32) :
    BitVec 32 × BitVec 32 × BitVec 32 :=
  if off = UART_LCR then (v, r.2)
  else if off = UART_THR ∧ r.1 &&& UART_LCR_DLAB ≠ 0 then (r.1, v, r.2.2)
  else if off = UART_IEL ∧ r.1 &&& UART_LCR_DLAB ≠ 0 then (r.1, r.2.1, v)
  else r

/-- A write other than to `UART_THR` with `UART_LCR_DLAB` clear or to `UART_FCR` keeps
the line and the transmit FIFO, and sets the register it reaches. -/
theorem Keeps.write {b off : Nat} {v : BitVec 32} (h : Keeps X r d)
    (hthr : off = UART_THR → r.1 &&& UART_LCR_DLAB ≠ 0) (hfcr : off ≠ UART_FCR)
    (ha : d.access (.write b off v) = some d') : Keeps X (regsAfter r off v) d' := by
  obtain ⟨hX, rfl⟩ := h
  by_cases h₁ : off = UART_LCR
  · -- the line control
    subst h₁
    simp only [Uart.access, if_true, Option.some.injEq] at ha
    subst ha
    exact ⟨hX, by simp [regsAfter, regs]⟩
  by_cases h₂ : off = UART_THR
  · -- `UART_DLL`, since `UART_LCR_DLAB` is set
    subst h₂
    have hd : d.lcr &&& UART_LCR_DLAB ≠ 0 := hthr rfl
    have hdl : d.dlab = true := by simpa [dlab] using hd
    simp only [Uart.access, if_neg (show UART_THR ≠ UART_LCR by decide), if_true, hdl,
      Option.some.injEq] at ha
    subst ha
    exact ⟨hX, by rw [regsAfter, if_neg h₁, if_pos (show UART_THR = UART_THR ∧
      d.regs.1 &&& UART_LCR_DLAB ≠ 0 from ⟨rfl, hd⟩)]; rfl⟩
  by_cases h₃ : off = UART_IEL
  · -- `UART_DLH` or `UART_IEL`
    subst h₃
    simp only [Uart.access, if_neg (show UART_IEL ≠ UART_LCR by decide),
      if_neg (show UART_IEL ≠ UART_THR by decide), if_true, Option.some.injEq] at ha
    subst ha
    by_cases hd : d.lcr &&& UART_LCR_DLAB = 0
    · have hdl : d.dlab = false := by simpa [dlab] using hd
      simp only [hdl, Bool.false_eq_true, if_false]
      exact ⟨hX, by simp [regsAfter, regs, hd, h₁]⟩
    · have hdl : d.dlab = true := by simpa [dlab] using hd
      simp only [hdl, if_true]
      exact ⟨hX, by rw [regsAfter, if_neg h₁, if_neg (fun h => h₂ h.1), if_pos (show
        UART_IEL = UART_IEL ∧ d.regs.1 &&& UART_LCR_DLAB ≠ 0 from ⟨rfl, hd⟩)]; rfl⟩
  · -- another register
    simp only [Uart.access, if_neg h₁, if_neg h₂, if_neg h₃, if_neg hfcr,
      Option.some.injEq] at ha
    subst ha
    exact ⟨hX, by simp [regsAfter, h₁, h₂, h₃]⟩

/-- **A `putc`.** Status reads, the last with bit 1 set, then the write of the
character to `UART_THR`: with `UART_LCR_DLAB` clear, whatever the device does
meanwhile, the character joins the transmit FIFO. -/
theorem Keeps.putc {sched : Nat → List UartStep} {b : Nat} {vs : List (BitVec 32)}
    {v c : BitVec 32} (hv : v.getLsbD 1 = true) (hr : r.1 &&& UART_LCR_DLAB = 0)
    (h : Keeps X r d)
    (ha : uart.accepts sched (vs.map (Access.read b UART_USR ·) ++
      [.read b UART_USR v, .write b UART_THR c]) d = some d') :
    Keeps (X ++ [c.setWidth 8]) r d' := by
  rw [Device.accepts_append, Option.bind_eq_some] at ha
  obtain ⟨d₁, h₁, h₂⟩ := ha
  have hk₁ := h.reads (usr_reads_isRead b vs (L := []) (by simp)) (by simpa using h₁)
  simp only [Device.accepts, uart_step, uart_access, Option.bind_eq_some,
    Option.some.injEq] at h₂
  obtain ⟨d₂, hs, d₃, hw, rfl⟩ := h₂
  obtain ⟨hroom, rfl⟩ := room_of_usr hv hs
  exact ((hk₁.steps _).steps _).push hr (steps_room hroom _) hw

end Uart

/-! ### The driver's calls -/

/-- A call through `hi16xx_uart_ops`. -/
inductive SerialOp
  | flush
  | getchar
  | have_rx_data
  | putc (ch : BitVec 32)
  deriving DecidableEq, Repr

/-- One call on the UART at `base`: the device after it, or `none` when a loop runs
out of fuel. -/
def SerialOp.run (fuel base : Nat) (io : Mmio) : SerialOp → Option Mmio
  | .flush => hi16xx_uart_flush fuel base io
  | .getchar => (hi16xx_uart_getchar fuel base io).map Prod.snd
  | .have_rx_data => some (hi16xx_uart_have_rx_data base io).2
  | .putc ch => hi16xx_uart_putc fuel base ch io

/-- Calls one after another. -/
def serial_run (fuel base : Nat) : List SerialOp → Mmio → Option Mmio
  | [], io => some io
  | op :: ops, io => (op.run fuel base io).bind (serial_run fuel base ops)

/-- The characters of the `putc` calls, as the bytes they put into the FIFO. -/
def putcBytes : List SerialOp → List (BitVec 8)
  | [] => []
  | .putc ch :: ops => ch.setWidth 8 :: putcBytes ops
  | _ :: ops => putcBytes ops

theorem putcBytes_cons (op : SerialOp) (ops : List SerialOp) :
    putcBytes (op :: ops) = putcBytes [op] ++ putcBytes ops := by
  cases op <;> rfl

/-- Masking a character with `0xFF` keeps its byte. -/
theorem setWidth_and_ff (ch : BitVec 32) : (ch &&& 0xFF).setWidth 8 = ch.setWidth 8 := by
  rw [BitVec.setWidth_and, show (0xFF : BitVec 32).setWidth 8 = BitVec.allOnes 8 by decide,
    BitVec.and_allOnes]

/-- One call, as accesses of the device: from a state with `UART_LCR_DLAB` clear, a
`putc` adds its character after what is on the line or in the transmit FIFO, and the
other calls only read. -/
theorem SerialOp.run_keeps {fuel base : Nat} {op : SerialOp} {io io' : Mmio}
    (h : op.run fuel base io = some io') :
    ∃ L, io'.log = io.log ++ L ∧ ∀ (sched : Nat → List UartStep) (d d' : Uart) X r,
      r.1 &&& UART_LCR_DLAB = 0 → Uart.Keeps X r d → uart.accepts sched L d = some d' →
        Uart.Keeps (X ++ putcBytes [op]) r d' := by
  cases op with
  | flush =>
    obtain ⟨vs, v, hlog, -, -⟩ := wait_tx_empty_log h
    refine ⟨_, by rw [hlog, List.append_assoc], fun _ _ _ _ _ _ hk ha => ?_⟩
    simpa only [putcBytes, List.append_nil] using
      hk.reads (usr_reads_isRead _ _ (by simp [Access.isRead])) ha
  | getchar =>
    simp only [SerialOp.run, hi16xx_uart_getchar, Option.bind_eq_bind, Option.map_eq_some',
      Option.bind_eq_some, Option.pure_def, Option.some.injEq] at h
    obtain ⟨_, ⟨io₁, hw, rfl⟩, rfl⟩ := h
    obtain ⟨vs, v, hlog, -, -⟩ := wait_rx_data_log hw
    refine ⟨vs.map (Access.read base UART_USR ·) ++
      [.read base UART_USR v, .read base UART_RBR (io₁.hw 0)], by simp [hlog],
      fun _ _ _ _ _ _ hk ha => ?_⟩
    simpa only [putcBytes, List.append_nil] using
      hk.reads (usr_reads_isRead _ _ (by simp [Access.isRead])) ha
  | have_rx_data =>
    cases h
    refine ⟨[.read base UART_USR (io.hw 0)], rfl, fun _ _ _ _ _ _ hk ha => ?_⟩
    simpa only [putcBytes, List.append_nil] using hk.reads (by simp [Access.isRead]) ha
  | putc ch =>
    simp only [SerialOp.run, hi16xx_uart_putc, Option.bind_eq_bind, Option.bind_eq_some,
      Option.pure_def, Option.some.injEq] at h
    obtain ⟨io₁, hw, rfl⟩ := h
    obtain ⟨vs, v, hlog, hv, -⟩ := wait_tx_empty_log hw
    refine ⟨vs.map (Access.read base UART_USR ·) ++
      [.read base UART_USR v, .write base UART_THR (ch &&& 0xFF)], by simp [hlog],
      fun _ _ _ _ _ hr hk ha => ?_⟩
    rw [show putcBytes [.putc ch] = [(ch &&& 0xFF).setWidth 8] by rw [setWidth_and_ff]; rfl]
    exact hk.putc hv hr ha

theorem serial_run_keeps {fuel base : Nat} {ops : List SerialOp} {io io' : Mmio}
    (h : serial_run fuel base ops io = some io') :
    ∃ L, io'.log = io.log ++ L ∧ ∀ (sched : Nat → List UartStep) (d d' : Uart) X r,
      r.1 &&& UART_LCR_DLAB = 0 → Uart.Keeps X r d → uart.accepts sched L d = some d' →
        Uart.Keeps (X ++ putcBytes ops) r d' := by
  induction ops generalizing io with
  | nil =>
    cases h
    exact ⟨[], by simp, fun _ _ _ _ _ _ hk ha => by cases ha; simpa [putcBytes] using hk⟩
  | cons op ops ih =>
    simp only [serial_run, Option.bind_eq_some] at h
    obtain ⟨io₁, h₁, h₂⟩ := h
    obtain ⟨L₁, hL₁, hk₁⟩ := SerialOp.run_keeps h₁
    obtain ⟨L₂, hL₂, hk₂⟩ := ih h₂
    refine ⟨L₁ ++ L₂, by rw [hL₂, hL₁, List.append_assoc], fun sched d d' X r hr hk ha => ?_⟩
    rw [Device.accepts_append, Option.bind_eq_some] at ha
    obtain ⟨d₁, ha₁, ha₂⟩ := ha
    rw [putcBytes_cons, ← List.append_assoc]
    exact hk₂ _ _ _ _ _ hr (hk₁ _ _ _ _ _ hr hk ha₁) ha₂

/-- **Every character put out, in order.** Take a sequence of calls through
`hi16xx_uart_ops` that returns, and a UART that answers each of its accesses,
whatever it does on its own between them, from a state with `UART_LCR_DLAB` clear.
Then what is on the line followed by what is still in the transmit FIFO is what was
there before, followed by the characters of the `putc` calls in order; the line
control and the divider are as they were. -/
theorem serial_run_line {fuel base : Nat} {ops : List SerialOp} {io io' : Mmio}
    {L : List Access} {sched : Nat → List UartStep} {d d' : Uart}
    (h : serial_run fuel base ops io = some io') (hL : io'.log = io.log ++ L)
    (hd : uart.accepts sched L d = some d') (hdlab : d.dlab = false) :
    d'.line ++ d'.tx = d.line ++ d.tx ++ putcBytes ops ∧ d'.regs = d.regs := by
  obtain ⟨L', hL', hk⟩ := serial_run_keeps h
  obtain rfl : L = L' := List.append_cancel_left (hL.symm.trans hL')
  exact hk sched d d' _ _ (by simpa [Uart.dlab] using hdlab) ⟨rfl, rfl⟩ hd

/-- The line control and the divider after the writes of `init` that follow its
write to `UART_FCR`, whatever they were. -/
theorem regsAfter_init (r : BitVec 32 × BitVec 32 × BitVec 32) (lo hi : BitVec 32) :
    Uart.regsAfter (Uart.regsAfter (Uart.regsAfter (Uart.regsAfter
      (Uart.regsAfter r UART_LCR UART_LCR_DLAB) UART_DLL lo)
      UART_DLH hi) UART_LCR UART_LCR_DLS8) UART_IEL 0 = (UART_LCR_DLS8, lo, hi) := by
  simp [Uart.regsAfter, UART_THR, UART_LCR, UART_IEL, UART_DLL, UART_DLH, UART_LCR_DLAB,
    UART_LCR_DLS8]

/-- What `init` does to the UART, as accesses of the device: whatever the device does
meanwhile, its write to `UART_FCR` empties the transmit FIFO, so that the line then
holds what it held before followed by at most what the FIFO held; its other writes put
no byte into the FIFO, and leave 8 data bits with `UART_LCR_DLAB` clear and the two
bytes of the divider in the latch. -/
theorem init_clears {fuel : Nat} {mmu : Bool} {p2v va va' base : Nat}
    {uart_clk baud_rate : BitVec 32} {io io' : Mmio}
    (h : hi16xx_uart_init fuel mmu p2v va base uart_clk baud_rate io = some (va', io')) :
    ∃ L dll dlh, io'.log = io.log ++ L ∧
      dll.toNat + 256 * dlh.toNat = uart_clk.toNat / (16 * baud_rate.toNat % 2 ^ 32) % 2 ^ 16 ∧
      ∀ (sched : Nat → List UartStep) (d d' : Uart), uart.accepts sched L d = some d' →
        d'.tx = [] ∧ d.line <+: d'.line ∧ d'.line <+: d.line ++ d.tx ∧
          d'.regs = (UART_LCR_DLS8, dll, dlh) := by
  obtain ⟨dll, dlh, rest, hlog, hrest, -, -, hdiv⟩ := hi16xx_uart_init_divider h
  refine ⟨_, dll, dlh, by rw [hlog, List.append_assoc], hdiv, fun sched d d' ha => ?_⟩
  rw [List.cons_append, Device.accepts, Option.bind_eq_some] at ha
  obtain ⟨d₁, h₁, ha⟩ := ha
  -- the write to `UART_FCR`, after the device has sent what it would
  rw [uart_access] at h₁
  obtain ⟨htx, hline, -⟩ := Uart.access_fcr h₁
  have k₀ := Uart.Keeps.steps (X := d.line ++ d.tx) ⟨rfl, rfl⟩ (sched 0)
  have k₁ : Uart.Keeps d₁.line d₁.regs d₁ := ⟨by rw [htx, List.append_nil], rfl⟩
  -- the five writes after it, each reaching a register, then `flush`, which only reads
  have hd' := Uart.line_prefix ha
  rw [Device.accepts_append, Option.bind_eq_some] at ha
  obtain ⟨d₆, h₆, hr⟩ := ha
  simp only [Device.accepts, uart_step, uart_access, Option.bind_eq_some,
    Option.some.injEq] at h₆
  obtain ⟨d₂, h₂, d₃, h₃, d₄, h₄, d₅, h₅, e, he, rfl⟩ := h₆
  have k₂ := (k₁.steps _).write (fun h => absurd h (by decide)) (by decide) h₂
  have k₃ := (k₂.steps _).write (fun _ => show UART_LCR_DLAB &&& UART_LCR_DLAB ≠ 0 by decide)
    (by decide) h₃
  have k₄ := (k₃.steps _).write (fun h => absurd h (by decide)) (by decide) h₄
  have k₅ := (k₄.steps _).write (fun h => absurd h (by decide)) (by decide) h₅
  have k₆ := (k₅.steps _).write (fun h => absurd h (by decide)) (by decide) he
  rw [regsAfter_init] at k₆
  obtain ⟨hX, hr'⟩ := k₆.reads (fun a ha => by obtain ⟨v, rfl⟩ := hrest a ha; rfl) hr
  -- the line holds what it held after the clear, and the FIFO stays empty
  obtain ⟨t, ht⟩ := hd'
  rw [← ht, List.append_assoc, List.append_right_eq_self, List.append_eq_nil] at hX
  obtain ⟨rfl, htx'⟩ := hX
  rw [← ht, List.append_nil, hline]
  exact ⟨htx', Uart.steps_line_prefix d _, k₀.1 ▸ List.prefix_append _ _, hr'⟩

/-- **`init`, then any calls.** Take `init` followed by a sequence of calls through
`hi16xx_uart_ops` at the base `chip_to_base` gives, both returning, and a UART that
answers each of their accesses, whatever it does on its own between them, from any
state. `init` enables and clears the FIFOs: it leaves the transmit FIFO empty and, on
the line, what was there before followed by at most what the FIFO held; its write at
offset 0 comes while `UART_LCR_DLAB` is set and puts no byte there. From the state
`init` leaves, what is on the line followed by what is still in the transmit FIFO is
what `init` left on the line, followed by the characters of the `putc` calls in order.
The UART is left with 8 data bits and the divider `uart_clk / (16 * baud_rate)` in the
latch, with the product taken in 32 bits and the quotient cut to 16. -/
theorem hi16xx_uart_session {fuel : Nat} {mmu : Bool} {p2v va va' base : Nat}
    {uart_clk baud_rate : BitVec 32} {ops : List SerialOp} {io io₁ io₂ : Mmio}
    {L₁ L₂ : List Access} {sched sched' : Nat → List UartStep} {d d₁ d' : Uart}
    (h₁ : hi16xx_uart_init fuel mmu p2v va base uart_clk baud_rate io = some (va', io₁))
    (h₂ : serial_run fuel (chip_to_base mmu p2v base va').1 ops io₁ = some io₂)
    (hL₁ : io₁.log = io.log ++ L₁) (hL₂ : io₂.log = io₁.log ++ L₂)
    (hd₁ : uart.accepts sched L₁ d = some d₁) (hd₂ : uart.accepts sched' L₂ d₁ = some d') :
    d₁.tx = [] ∧ d.line <+: d₁.line ∧ d₁.line <+: d.line ++ d.tx ∧
      d'.line ++ d'.tx = d₁.line ++ putcBytes ops ∧ d'.lcr = UART_LCR_DLS8 ∧
      d'.dll.toNat + 256 * d'.dlh.toNat =
        uart_clk.toNat / (16 * baud_rate.toNat % 2 ^ 32) % 2 ^ 16 := by
  obtain ⟨L, dll, dlh, hL, hdiv, hk₁⟩ := init_clears h₁
  obtain rfl : L₁ = L := List.append_cancel_left (hL₁.symm.trans hL)
  obtain ⟨htx, hpre, hpre', hr₁⟩ := hk₁ sched d d₁ hd₁
  obtain ⟨L', hL', hk₂⟩ := serial_run_keeps h₂
  obtain rfl : L₂ = L' := List.append_cancel_left (hL₂.symm.trans hL')
  obtain ⟨hX, hr⟩ := hk₂ _ _ _ _ _ (show UART_LCR_DLS8 &&& UART_LCR_DLAB = 0 by decide)
    ⟨rfl, hr₁⟩ hd₂
  refine ⟨htx, hpre, hpre', by rw [hX, htx, List.append_nil], congrArg Prod.fst hr, ?_⟩
  rw [show d'.dll = dll from congrArg (·.2.1) hr, show d'.dlh = dlh from congrArg (·.2.2) hr,
    hdiv]

/-- An idle UART: 8 data bits, empty FIFOs, nothing sent yet. -/
def idleUart : Uart := ⟨UART_LCR_DLS8, 0, 0, 0, [], by decide, [], by decide, []⟩

/-- `putc('A')`, `getchar()`, `putc('B')`, every status read `0x6`, the UART sending a
byte before each access. -/
theorem serial_run_line_echo :
    ∃ io' d', serial_run 1 0 [.putc 0x41, .getchar, .putc 0x42] ⟨fun _ => 6, []⟩ = some io' ∧
      io'.log = [] ++ io'.log ∧ uart.accepts (fun _ => [.transmit]) io'.log idleUart = some d' ∧
      idleUart.dlab = false ∧
      d'.line ++ d'.tx = idleUart.line ++ idleUart.tx ++ putcBytes [.putc 0x41, .getchar, .putc 0x42] ∧
      d'.regs = idleUart.regs :=
  ⟨_, _, rfl, rfl, rfl, rfl,
    @serial_run_line 1 0 [.putc 0x41, .getchar, .putc 0x42] ⟨fun _ => 6, []⟩ _ _
      (fun _ => [.transmit]) idleUart _ rfl rfl rfl rfl⟩

/-- A UART with 8 data bits and the byte `A` still in the transmit FIFO. -/
def pendingUart : Uart := ⟨UART_LCR_DLS8, 0, 0, 0, [0x41], by decide, [], by decide, []⟩

/-- `init` at 24 MHz and 115200 baud with the MMU off, then `putc('B')`, every status
read `0x6`, the UART doing nothing on its own: the pending `A` is cleared. -/
theorem hi16xx_uart_session_24mhz :
    ∃ io₁ io₂ L₂ d₁ d',
      hi16xx_uart_init 1 false 0 0 0 24000000 115200 ⟨fun _ => 6, []⟩ = some (0, io₁) ∧
      serial_run 1 (chip_to_base false 0 0 0).1 [.putc 0x42] io₁ = some io₂ ∧
      io₁.log = [] ++ io₁.log ∧ io₂.log = io₁.log ++ L₂ ∧
      uart.accepts (fun _ => []) io₁.log pendingUart = some d₁ ∧
      uart.accepts (fun _ => []) L₂ d₁ = some d' ∧
      d₁.tx = [] ∧ pendingUart.line <+: d₁.line ∧ d₁.line <+: pendingUart.line ++ pendingUart.tx ∧
      d'.line ++ d'.tx = d₁.line ++ putcBytes [.putc 0x42] ∧ d'.lcr = UART_LCR_DLS8 ∧
      d'.dll.toNat + 256 * d'.dlh.toNat =
        (24000000 : BitVec 32).toNat / (16 * (115200 : BitVec 32).toNat % 2 ^ 32) % 2 ^ 16 :=
  ⟨_, _, _, _, _, rfl, rfl, rfl, rfl, rfl, rfl,
    @hi16xx_uart_session 1 false 0 0 0 0 24000000 115200 [.putc 0x42] ⟨fun _ => 6, []⟩ _ _ _ _
      (fun _ => []) (fun _ => []) pendingUart _ _ rfl rfl rfl rfl rfl rfl⟩

end Optee.Hi16xx

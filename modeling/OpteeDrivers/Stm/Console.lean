import OpteeDrivers.Mmio

/-!
# The STM console: no output before boot completes

The STM platform code sends `console_putc()` and `console_flush()` to the ASC
serial driver, at the base `console_base()` answers, only once
`ns_resources_ready()`: on the b2260 flavour always; on the others once the first
standard SMC has gone through `stm_tee_entry_std()`, which sets
`boot_is_completed` ("some nonsecure resource might not be ready (uart)"). A
newline goes out as `'\r'` and then `'\n'`.

The state is the two statics, `boot_is_completed` and the `va` of
`console_base()`; a run is a list of calls, each made with the MMU on or off.
`console_run` is the code. `expected` says what a run is meant to hand to the
ASC driver, knowing only whether boot has completed; `console_run_expected` says
that the code, from boot, does exactly that, since the static `va` never makes
`console_base()` stale (`mappedBase_spec`). Before the first standard SMC, a
flavour other than b2260 prints nothing (`console_run_quiet`).
-/

namespace Optee.Stm

/-- What the platform code hands to the code it calls. -/
inductive Out
  /-- `__asc_xmit_char(c, base)`. -/
  | xmit (c : BitVec 8) (base : Nat)
  /-- `__asc_flush(base)`. -/
  | flush (base : Nat)
  /-- `tee_entry_std(smc_args)`. -/
  | entryStd
  deriving DecidableEq, Repr

/-- The statics of the platform code. -/
structure Statics where
  /-- `boot_is_completed`, set by the first standard SMC. -/
  boot_is_completed : Bool
  /-- The static `va` of `console_base()`. -/
  va : Nat
  deriving DecidableEq, Repr

/-- The statics at boot (`__early_bss`): both zero. -/
def Statics.init : Statics := ⟨false, 0⟩

/-- A call into the platform code, as the secure world makes them. -/
inductive Call
  /-- A standard SMC, through the `std_smc` handler. -/
  | std_smc
  /-- `console_putc(ch)`. -/
  | putc (ch : BitVec 32)
  /-- `console_flush()`. -/
  | flush
  deriving DecidableEq, Repr

/-! ### The code -/

section Code

-- The physical base `UART_CONSOLE_BASE` of the console, from the platform
-- configuration (not in the sources), and the address `p2v` that
-- `phys_to_virt(UART_CONSOLE_BASE, MEM_AREA_IO_NSEC)` maps it to; `b2260` says whether
-- `PLATFORM_FLAVOR_b2260` is defined.
variable (UART_CONSOLE_BASE p2v : Nat) (b2260 : Bool)

/-- The function `console_base()` with the MMU on or off. -/
def console_base (mmu : Bool) (s : Statics) : Nat × Statics :=
  let (b, va) := mappedBase UART_CONSOLE_BASE mmu p2v s.va
  (b, { s with va := va })

@[simp] theorem console_base_boot_is_completed (mmu : Bool) (s : Statics) :
    (console_base UART_CONSOLE_BASE p2v mmu s).2.boot_is_completed = s.boot_is_completed := rfl

/-- The function `ns_resources_ready()` of the flavour. -/
def ns_resources_ready (s : Statics) : Bool := b2260 || s.boot_is_completed

/-- The handler `stm_tee_entry_std()`. -/
def stm_tee_entry_std (s : Statics) : List Out × Statics :=
  ([.entryStd], { s with boot_is_completed := true })

/-- The `std_smc` handler of the flavour: `tee_entry_std` itself on the b2260, else
`stm_tee_entry_std`. -/
def std_smc (s : Statics) : List Out × Statics :=
  if b2260 then ([.entryStd], s) else stm_tee_entry_std s

/-- The function `console_putc(ch)`. -/
def console_putc (mmu : Bool) (ch : BitVec 32) (s : Statics) : List Out × Statics :=
  if ns_resources_ready b2260 s then
    let (cr, s) :=
      if ch = 10 then
        let (b, s) := console_base UART_CONSOLE_BASE p2v mmu s
        ([Out.xmit 13 b], s)
      else ([], s)
    let (b, s) := console_base UART_CONSOLE_BASE p2v mmu s
    (cr ++ [.xmit (ch.setWidth 8) b], s)
  else ([], s)

/-- The function `console_flush()`. -/
def console_flush (mmu : Bool) (s : Statics) : List Out × Statics :=
  if ns_resources_ready b2260 s then
    let (b, s) := console_base UART_CONSOLE_BASE p2v mmu s
    ([.flush b], s)
  else ([], s)

/-- One call, made with the MMU on or off. -/
def step (mmu : Bool) : Call → Statics → List Out × Statics
  | .std_smc, s => std_smc b2260 s
  | .putc ch, s => console_putc UART_CONSOLE_BASE p2v b2260 mmu ch s
  | .flush, s => console_flush UART_CONSOLE_BASE p2v b2260 mmu s

/-- Calls one after another: everything handed on, and the last state. -/
def console_run : List (Bool × Call) → Statics → List Out × Statics
  | [], s => ([], s)
  | (mmu, c) :: cs, s =>
    let (o, s) := step UART_CONSOLE_BASE p2v b2260 mmu c s
    let (o', s) := console_run cs s
    (o ++ o', s)

/-! ### What the console is for -/

/-- The characters `console_putc(ch)` puts on the line: `'\r'` before a newline,
then `ch` as a `char`. -/
def onLine (ch : BitVec 32) : List (BitVec 8) :=
  (if ch = 10 then [13] else []) ++ [ch.setWidth 8]

/-- What a run is meant to hand on, knowing only whether the console is `ready`:
each standard SMC, and, once ready, the console output, each call's at the base for
its MMU state. A standard SMC makes the console ready. -/
def expected (ready : Bool) : List (Bool × Call) → List Out
  | [] => []
  | (_, .std_smc) :: cs => .entryStd :: expected true cs
  | (mmu, .putc ch) :: cs =>
    (if ready then (onLine ch).map (Out.xmit · (currentBase UART_CONSOLE_BASE p2v mmu))
      else []) ++ expected ready cs
  | (mmu, .flush) :: cs =>
    (if ready then [.flush (currentBase UART_CONSOLE_BASE p2v mmu)] else []) ++
      expected ready cs

/-! ### The code does what the console is for -/

variable {UART_CONSOLE_BASE p2v b2260}

theorem console_base_spec {s : Statics} (h : VaOk p2v s.va) (mmu : Bool) :
    (console_base UART_CONSOLE_BASE p2v mmu s).1 = currentBase UART_CONSOLE_BASE p2v mmu ∧
      VaOk p2v (console_base UART_CONSOLE_BASE p2v mmu s).2.va :=
  mappedBase_spec UART_CONSOLE_BASE h mmu

/-- One call hands on what `expected` says for it and keeps the static `va` good; a
standard SMC makes the console ready, and the other calls leave it as it was. -/
theorem step_spec {s : Statics} (h : VaOk p2v s.va) (mmu : Bool) (c : Call)
    (cs : List (Bool × Call)) :
    (step UART_CONSOLE_BASE p2v b2260 mmu c s).1 ++
        expected UART_CONSOLE_BASE p2v
          (ns_resources_ready b2260 (step UART_CONSOLE_BASE p2v b2260 mmu c s).2) cs =
      expected UART_CONSOLE_BASE p2v (ns_resources_ready b2260 s) ((mmu, c) :: cs) ∧
      VaOk p2v (step UART_CONSOLE_BASE p2v b2260 mmu c s).2.va := by
  obtain ⟨hb, hva⟩ := @console_base_spec UART_CONSOLE_BASE _ _ h mmu
  obtain ⟨hb', hva'⟩ := @console_base_spec UART_CONSOLE_BASE _ _ hva mmu
  cases c with
  | std_smc =>
    cases b2260 <;> simp [step, std_smc, stm_tee_entry_std, ns_resources_ready, expected, h]
  | putc ch =>
    by_cases hch : ch = 10#32 <;> cases b2260 <;> cases hbc : s.boot_is_completed <;>
      simp [step, console_putc, expected, onLine, ns_resources_ready, hch, hbc, hb, hva, hb',
        hva', h]
  | flush =>
    cases b2260 <;> cases hbc : s.boot_is_completed <;>
      simp [step, console_flush, expected, ns_resources_ready, hbc, hb, hva, h]

theorem console_run_of_vaOk (cs : List (Bool × Call)) {s : Statics} (h : VaOk p2v s.va) :
    (console_run UART_CONSOLE_BASE p2v b2260 cs s).1 =
      expected UART_CONSOLE_BASE p2v (ns_resources_ready b2260 s) cs := by
  induction cs generalizing s with
  | nil => rfl
  | cons c cs ih =>
    obtain ⟨hstep, hva⟩ := @step_spec UART_CONSOLE_BASE p2v b2260 s h c.1 c.2 cs
    simp only [console_run, ih hva]
    exact hstep

/-- **The console prints what it is meant to.** From boot, a run of standard SMCs and
console calls, each made with the MMU on or off, hands on exactly what `expected`
says: no console output before the console is ready, a `'\r'` before each newline,
and each character to the console's base for the MMU state of its call. -/
theorem console_run_expected (cs : List (Bool × Call)) :
    (console_run UART_CONSOLE_BASE p2v b2260 cs Statics.init).1 =
      expected UART_CONSOLE_BASE p2v b2260 cs := by
  rw [console_run_of_vaOk cs (.inl rfl)]
  simp [ns_resources_ready, Statics.init]

example : (console_run 0x1000 0x2000 false [(false, .std_smc), (true, .putc 10), (false, .flush)]
    Statics.init).1 = [.entryStd, .xmit 13 0x2000, .xmit 10 0x2000, .flush 0x1000] := by
  decide

theorem expected_false_of_no_smc {cs : List (Bool × Call)} (h : ∀ x ∈ cs, x.2 ≠ .std_smc) :
    expected UART_CONSOLE_BASE p2v false cs = [] := by
  induction cs with
  | nil => rfl
  | cons c cs ih =>
    obtain ⟨mmu, c⟩ := c
    simp only [List.mem_cons, forall_eq_or_imp] at h
    cases c with
    | std_smc => exact absurd rfl h.1
    | putc ch => simp [expected, ih h.2]
    | flush => simp [expected, ih h.2]

/-- **Nothing before the first standard SMC.** On a flavour other than the b2260,
console calls made from boot before any standard SMC hand nothing to the ASC
driver. -/
theorem console_run_quiet {cs : List (Bool × Call)} (h : ∀ x ∈ cs, x.2 ≠ .std_smc) :
    (console_run UART_CONSOLE_BASE p2v false cs Statics.init).1 = [] := by
  rw [console_run_of_vaOk cs (.inl rfl)]
  exact expected_false_of_no_smc h

end Code

/-- A newline and a flush before the first standard SMC, the first with the MMU on. -/
theorem console_run_quiet_newline :
    (∀ x ∈ [(true, Call.putc 10), (false, Call.flush)], x.2 ≠ .std_smc) ∧
      (console_run 0x1000 0x2000 false [(true, .putc 10), (false, .flush)] Statics.init).1 = [] :=
  ⟨by decide, console_run_quiet (by decide)⟩

end Optee.Stm

import OpteeDrivers.Mmio

/-!
# The DRA7 true random number generator: one byte per call

`hw_get_random_byte` hands out the bytes of a 64-bit random word one at a time.
When its position `pos` is 0 it waits for `RNG_READY`, repairing the free
running oscillators whenever the shutdown threshold is reached, reads the word
from `RNG_OUTPUT_L` and `RNG_OUTPUT_H`, and acknowledges it; the byte returned
is `random.byte[pos++]`, and `pos` wraps at 8. Calls are serialised by
`rng_mutex`, so a run of `n` calls is the calls one after the other (`run`).

The polling loops of the driver have no bound. Each is modelled with a `fuel`
argument and gives `none` when the fuel runs out, so a run that returns is one
in which every loop ended.

Main results:
* `hw_get_random_byte_stream`: the bytes of `n` calls are the first `n` bytes of
  the little-endian expansion of the words read, the output registers are read
  and `RNG_READY` acknowledged `⌈n / 8⌉` times, and `pos` stays below 8 in every
  reachable state. The run invariant is `bs ++ pending s = expand ws`: the bytes
  handed out, followed by those left in `random`, are the expansion of the
  words read (`run_inv`).
* `run_returns_of_ready`: on a device whose reads all show `RNG_READY`, a run of any
  number of calls returns with fuel for one pass of the loop.
-/

namespace Optee.Dra7

/-! ### Registers -/

/-- The register `RNG_OUTPUT_L`, the low half of the random word. -/
def RNG_OUTPUT_L : Nat := 0x0000
/-- The register `RNG_OUTPUT_H`, the high half of the random word. -/
def RNG_OUTPUT_H : Nat := 0x0004
/-- The register `RNG_STATUS`. -/
def RNG_STATUS : Nat := 0x0008
/-- The bit `RNG_READY` of `RNG_STATUS`: a random word is available. -/
def RNG_READY : BitVec 32 := 1 <<< 0
/-- The bit `SHUTDOWN_OFLO` of `RNG_STATUS`: the shutdown threshold is reached. -/
def SHUTDOWN_OFLO : BitVec 32 := 1 <<< 1
/-- The register `RNG_INTACK`. -/
def RNG_INTACK : Nat := 0x0010
/-- The register `RNG_CONTROL`. -/
def RNG_CONTROL : Nat := 0x0014
/-- The bit `ENABLE_TRNG` of `RNG_CONTROL`. -/
def ENABLE_TRNG : BitVec 32 := 1 <<< 10
/-- The register `RNG_CONFIG`. -/
def RNG_CONFIG : Nat := 0x0018
/-- The register `RNG_ALARMCNT`. -/
def RNG_ALARMCNT : Nat := 0x001C
/-- The register `RNG_FROENABLE`. -/
def RNG_FROENABLE : Nat := 0x0020
/-- The register `RNG_FRODETUNE`. -/
def RNG_FRODETUNE : Nat := 0x0024
/-- The register `RNG_ALARMMASK`. -/
def RNG_ALARMMASK : Nat := 0x0028
/-- The register `RNG_ALARMSTOP`. -/
def RNG_ALARMSTOP : Nat := 0x002C
/-- The register `RNG_SYS_CONFIG_REG`. -/
def RNG_SYS_CONFIG_REG : Nat := 0x1FE4
/-- The bit `RNG_AUTOIDLE` of `RNG_SYS_CONFIG_REG`. -/
def RNG_AUTOIDLE : BitVec 32 := 1 <<< 0
/-- The register `RNG_SOFT_RESET_REG`. -/
def RNG_SOFT_RESET_REG : Nat := 0x1FF0
/-- The bit `RNG_SOFT_RESET` of `RNG_SOFT_RESET_REG`. -/
def RNG_SOFT_RESET : BitVec 32 := 1 <<< 0

/-- The field shift `RNG_CONTROL_STARTUP_CYCLES_SHIFT`. -/
def RNG_CONTROL_STARTUP_CYCLES_SHIFT : Nat := 16
/-- The field shift `RNG_CONFIG_MAX_REFIL_CYCLES_SHIFT`. -/
def RNG_CONFIG_MAX_REFIL_CYCLES_SHIFT : Nat := 16
/-- The field shift `RNG_CONFIG_MIN_REFIL_CYCLES_SHIFT`. -/
def RNG_CONFIG_MIN_REFIL_CYCLES_SHIFT : Nat := 0
/-- The field shift `RNG_ALARMCNT_ALARM_TH_SHIFT`. -/
def RNG_ALARMCNT_ALARM_TH_SHIFT : Nat := 0x0
/-- The field shift `RNG_ALARMCNT_SHUTDOWN_TH_SHIFT`. -/
def RNG_ALARMCNT_SHUTDOWN_TH_SHIFT : Nat := 16

/-- The setting `RNG_CONTROL_STARTUP_CYCLES`. -/
def RNG_CONTROL_STARTUP_CYCLES : BitVec 32 := 0xff
/-- The setting `RNG_CONFIG_MIN_REFIL_CYCLES`. -/
def RNG_CONFIG_MIN_REFIL_CYCLES : BitVec 32 := 0x21
/-- The setting `RNG_CONFIG_MAX_REFIL_CYCLES`. -/
def RNG_CONFIG_MAX_REFIL_CYCLES : BitVec 32 := 0x22
/-- The setting `RNG_ALARM_THRESHOLD`. -/
def RNG_ALARM_THRESHOLD : BitVec 32 := 0xff
/-- The setting `RNG_SHUTDOWN_THRESHOLD`. -/
def RNG_SHUTDOWN_THRESHOLD : BitVec 32 := 0x4

/-- The mask `RNG_FRO_MASK` of the 24 free running oscillators. -/
def RNG_FRO_MASK : BitVec 32 := 0xffffff

/-- Modelled from the spec: `RNG_BASE` of the DRA7 `platform_config.h`, the physical
base of the RNG. -/
def RNG_BASE : Nat := 0x48090000

/-! ### The driver -/

/-- The static variables of the driver: `va` of `rng_base()`, and `rng`, `pos` and
`random` of `hw_get_random_byte()`. A base of 0 is `NULL`. -/
structure Rng where
  /-- The base `rng_base()` mapped once the MMU was on. -/
  va : Nat
  /-- The base `hw_get_random_byte()` caches at its first call. -/
  rng : Nat
  /-- The next byte of `random` to hand out. -/
  pos : Nat
  /-- The union `random`, read as its 64-bit value. -/
  random : BitVec 64
  deriving DecidableEq, Repr

/-- The statics at boot: all zero. -/
def Rng.init : Rng := ⟨0, 0, 0, 0⟩

/-- The function `rng_base()` with the MMU on or off, when `phys_to_virt(RNG_BASE,
MEM_AREA_IO_SEC)` is `p2v`: the base, and the new value of its static `va`. -/
def rng_base (mmu : Bool) (p2v va : Nat) : Nat × Nat := mappedBase RNG_BASE mmu p2v va

/-- The statement `if (!rng) rng = rng_base();`. -/
def Rng.cacheBase (mmu : Bool) (p2v : Nat) (s : Rng) : Rng :=
  if s.rng = 0 then { s with rng := (rng_base mmu p2v s.va).1, va := (rng_base mmu p2v s.va).2 }
  else s

/-- The repair of the oscillators when the shutdown threshold is reached: clear
the alarms, detune the offending oscillators, re-enable them, and clear the
shutdown event. -/
def fix_fro_shutdown (rng : Nat) (io : Mmio) : Mmio :=
  let (alarm, io) := io.read32 rng RNG_ALARMSTOP
  let (tuning, io) := io.read32 rng RNG_FRODETUNE
  io
    -- Clear the alarm events
    |>.write32 0x0 rng RNG_ALARMMASK
    |>.write32 0x0 rng RNG_ALARMSTOP
    -- De-tune offending FROs
    |>.write32 (tuning ^^^ alarm) rng RNG_FRODETUNE
    -- Re-enable the shut down FROs
    |>.write32 RNG_FRO_MASK rng RNG_FROENABLE
    -- Clear the shutdown overflow event
    |>.write32 SHUTDOWN_OFLO rng RNG_INTACK

/-- The loop `while (!(read32(rng + RNG_STATUS) & RNG_READY)) { ... }`, with at most
`fuel` passes: `none` when the fuel runs out before `RNG_READY` is seen. -/
def wait_ready (rng : Nat) : Nat → Mmio → Option Mmio
  | 0, _ => none
  | fuel + 1, io =>
    let (st, io) := io.read32 rng RNG_STATUS
    if st &&& RNG_READY ≠ 0 then some io
    else
      -- Is the shutdown threshold reached?
      let (st, io) := io.read32 rng RNG_STATUS
      wait_ready rng fuel (if st &&& SHUTDOWN_OFLO ≠ 0 then fix_fro_shutdown rng io else io)

/-- The 64-bit value `OUTPUT_L | OUTPUT_H << 32` of `random.val`. -/
def word (lo hi : BitVec 32) : BitVec 64 := lo.setWidth 64 ||| hi.setWidth 64 <<< 32

/-- The refill of `random` when `pos` is 0: wait for a word, read it, and
acknowledge the read. -/
def read_random (fuel rng : Nat) (io : Mmio) : Option (BitVec 64 × Mmio) := do
  let io ← wait_ready rng fuel io
  let (lo, io) := io.read32 rng RNG_OUTPUT_L
  let (hi, io) := io.read32 rng RNG_OUTPUT_H
  pure (word lo hi, io.write32 RNG_READY rng RNG_INTACK)

/-- The byte `random.byte[k]` of the union on a little-endian core. -/
def byteLE (w : BitVec 64) (k : Nat) : BitVec 8 := (w >>> (8 * k)).setWidth 8

/-- The function `hw_get_random_byte()`, with the MMU on or off. -/
def hw_get_random_byte (fuel : Nat) (mmu : Bool) (p2v : Nat) (s : Rng) (io : Mmio) :
    Option (BitVec 8 × Rng × Mmio) := do
  let s := s.cacheBase mmu p2v
  let (random, io) ← if s.pos = 0 then read_random fuel s.rng io else pure (s.random, io)
  let pos := s.pos + 1
  pure (byteLE random s.pos, { s with random, pos := if pos = 8 then 0 else pos }, io)

/-- The calls `0, …, n - 1` one after the other, as `rng_mutex` orders them; call
`k` runs with the MMU state `mmu k`. -/
def run (fuel : Nat) (mmu : Nat → Bool) (p2v : Nat) :
    Nat → Rng → Mmio → Option (List (BitVec 8) × Rng × Mmio)
  | 0, s, io => some ([], s, io)
  | n + 1, s, io => do
    let (bs, s, io) ← run fuel mmu p2v n s io
    let (x, s, io) ← hw_get_random_byte fuel (mmu n) p2v s io
    pure (bs ++ [x], s, io)

/-- The loop `while (read32(rng + RNG_SOFT_RESET_REG) & RNG_SOFT_RESET);`, with at
most `fuel` reads. -/
def wait_soft_reset (rng : Nat) : Nat → Mmio → Option Mmio
  | 0, _ => none
  | fuel + 1, io =>
    let (v, io) := io.read32 rng RNG_SOFT_RESET_REG
    if v &&& RNG_SOFT_RESET ≠ 0 then wait_soft_reset rng fuel io else some io

/-- The initcall `dra7_rng_init()`; it always returns `TEE_SUCCESS`. -/
def dra7_rng_init (fuel : Nat) (mmu : Bool) (p2v : Nat) (s : Rng) (io : Mmio) :
    Option (Rng × Mmio) := do
  let (rng, va) := rng_base mmu p2v s.va
  -- Execute a software reset
  let io ← wait_soft_reset rng fuel (io.write32 RNG_SOFT_RESET rng RNG_SOFT_RESET_REG)
  let io := io
    -- Switch to low-power operating mode
    |>.write32 RNG_AUTOIDLE rng RNG_SYS_CONFIG_REG
    -- Ensure initial latency
    |>.write32 (0 ||| RNG_CONFIG_MIN_REFIL_CYCLES <<< RNG_CONFIG_MIN_REFIL_CYCLES_SHIFT |||
        RNG_CONFIG_MAX_REFIL_CYCLES <<< RNG_CONFIG_MAX_REFIL_CYCLES_SHIFT) rng RNG_CONFIG
    -- Configure the desired FROs
    |>.write32 0x0 rng RNG_FRODETUNE
    -- Enable all FROs
    |>.write32 0xffffff rng RNG_FROENABLE
    -- Alarm and shutdown thresholds
    |>.write32 (RNG_ALARM_THRESHOLD <<< RNG_ALARMCNT_ALARM_TH_SHIFT |||
        RNG_SHUTDOWN_THRESHOLD <<< RNG_ALARMCNT_SHUTDOWN_TH_SHIFT) rng RNG_ALARMCNT
    -- Enable the RNG module
    |>.write32 (RNG_CONTROL_STARTUP_CYCLES <<< RNG_CONTROL_STARTUP_CYCLES_SHIFT ||| ENABLE_TRNG)
        rng RNG_CONTROL
  pure ({ s with va }, io)

/-! ### What the driver reads and acknowledges -/

/-- The offset and value of a read of `RNG_OUTPUT_L` or `RNG_OUTPUT_H`. -/
def outputRead? : Access → Option (Nat × BitVec 32)
  | .read _ off v => if off = RNG_OUTPUT_L ∨ off = RNG_OUTPUT_H then some (off, v) else none
  | .write .. => none

/-- Whether an access acknowledges a random word: `RNG_READY` written to `RNG_INTACK`. -/
def isReadyAck : Access → Bool
  | .write _ off v => off = RNG_INTACK && v = RNG_READY
  | .read .. => false

/-- Whether an access clears `RNG_READY`: a write to `RNG_INTACK` with that bit set. -/
def acksReady : Access → Bool
  | .write _ off v => off = RNG_INTACK && v &&& RNG_READY != 0
  | .read .. => false

theorem isReadyAck_eq_false {a : Access} (h : acksReady a = false) : isReadyAck a = false := by
  cases a with
  | read => rfl
  | write b off v =>
    simp only [acksReady, isReadyAck, Bool.and_eq_false_iff, decide_eq_false_iff_not,
      bne_eq_false_iff_eq] at h ⊢
    exact h.imp_right fun h hv => absurd (hv ▸ h) (by decide)

/-- An access of the `RNG_READY` loop at base `rng`: it is neither an output read
nor a write that clears `RNG_READY`. -/
def PollAccess (rng : Nat) (a : Access) : Prop :=
  a.base = rng ∧ outputRead? a = none ∧ acksReady a = false

theorem fix_fro_shutdown_log (rng : Nat) (io : Mmio) :
    ∃ seg, (fix_fro_shutdown rng io).log = io.log ++ seg ∧ ∀ a ∈ seg, PollAccess rng a := by
  refine ⟨[.read rng RNG_ALARMSTOP (io.hw 0), .read rng RNG_FRODETUNE (io.hw 1),
    .write rng RNG_ALARMMASK 0, .write rng RNG_ALARMSTOP 0,
    .write rng RNG_FRODETUNE (io.hw 1 ^^^ io.hw 0), .write rng RNG_FROENABLE RNG_FRO_MASK,
    .write rng RNG_INTACK SHUTDOWN_OFLO], by simp [fix_fro_shutdown], ?_⟩
  simp only [List.forall_mem_cons, List.not_mem_nil, false_implies, implies_true, and_true]
  simp [PollAccess, Access.base, outputRead?, acksReady, RNG_OUTPUT_L, RNG_OUTPUT_H,
    RNG_ALARMSTOP, RNG_FRODETUNE, RNG_INTACK, RNG_ALARMMASK, RNG_FROENABLE, RNG_READY,
    SHUTDOWN_OFLO]

/-- The `RNG_READY` loop reads the status and repairs the oscillators, at base
`rng`, reading no output and clearing no `RNG_READY`; it ends on a status read that
shows `RNG_READY`. -/
theorem wait_ready_log {rng fuel : Nat} {io io' : Mmio} (h : wait_ready rng fuel io = some io') :
    ∃ seg v, (∀ a ∈ seg, PollAccess rng a) ∧ v &&& RNG_READY ≠ 0 ∧
      io'.log = io.log ++ seg ++ [.read rng RNG_STATUS v] := by
  have hst : ∀ v, PollAccess rng (.read rng RNG_STATUS v) := fun v => by
    simp [PollAccess, Access.base, outputRead?, acksReady, RNG_STATUS, RNG_OUTPUT_L, RNG_OUTPUT_H]
  induction fuel generalizing io with
  | zero => cases h
  | succ fuel ih =>
    simp only [wait_ready] at h
    split at h
    · cases h
      exact ⟨[], io.hw 0, by simp, ‹_›, by simp⟩
    · set io₁ := ((io.read32 rng RNG_STATUS).2.read32 rng RNG_STATUS).2
      obtain ⟨seg₂, v, hseg₂, hv, hlog₂⟩ := ih h
      obtain ⟨seg₁, hlog₁, hseg₁⟩ : ∃ seg, (if ((io.read32 rng RNG_STATUS).2.read32 rng
          RNG_STATUS).1 &&& SHUTDOWN_OFLO ≠ 0 then fix_fro_shutdown rng io₁ else io₁).log =
          io₁.log ++ seg ∧ ∀ a ∈ seg, PollAccess rng a := by
        split
        · exact fix_fro_shutdown_log rng io₁
        · exact ⟨[], by simp, by simp⟩
      refine ⟨.read rng RNG_STATUS (io.hw 0) :: .read rng RNG_STATUS (io.hw 1) ::
        (seg₁ ++ seg₂), v, ?_, hv, by rw [hlog₂, hlog₁]; simp [io₁]⟩
      simp only [List.forall_mem_cons, List.forall_mem_append]
      exact ⟨hst _, hst _, hseg₁, hseg₂⟩

/-- A refill: the `RNG_READY` loop, the status read that ended it, the two output
reads and the acknowledgement. -/
theorem read_random_log {fuel rng : Nat} {io io' : Mmio} {r : BitVec 64}
    (h : read_random fuel rng io = some (r, io')) :
    ∃ seg v lo hi, (∀ a ∈ seg, PollAccess rng a) ∧ v &&& RNG_READY ≠ 0 ∧ r = word lo hi ∧
      io'.log = io.log ++ seg ++ [.read rng RNG_STATUS v, .read rng RNG_OUTPUT_L lo,
        .read rng RNG_OUTPUT_H hi, .write rng RNG_INTACK RNG_READY] := by
  simp only [read_random, Option.bind_eq_bind, Option.bind_eq_some, Option.some.injEq,
    Prod.mk.injEq] at h
  obtain ⟨io₁, hw, rfl, rfl⟩ := h
  obtain ⟨seg, v, hseg, hv, hlog⟩ := wait_ready_log hw
  exact ⟨seg, v, _, _, hseg, hv, rfl, by simp [hlog]⟩

/-! ### One call -/

@[simp] theorem Rng.cacheBase_pos (mmu : Bool) (p2v : Nat) (s : Rng) :
    (s.cacheBase mmu p2v).pos = s.pos := by
  unfold Rng.cacheBase; split <;> rfl

@[simp] theorem Rng.cacheBase_random (mmu : Bool) (p2v : Nat) (s : Rng) :
    (s.cacheBase mmu p2v).random = s.random := by
  unfold Rng.cacheBase; split <;> rfl

/-- **One call.** A call hands out byte `pos` of `random`, refilled first when
`pos` is 0, and moves `pos` on modulo 8. The refill waits until a status read shows
`RNG_READY`, reads `RNG_OUTPUT_L` then `RNG_OUTPUT_H`, and acknowledges the word, at
the base the call caches; a call with `pos ≠ 0` touches no register. -/
theorem hw_get_random_byte_some {fuel : Nat} {mmu : Bool} {p2v : Nat} {s s' : Rng}
    {io io' : Mmio} {x : BitVec 8} (h : hw_get_random_byte fuel mmu p2v s io = some (x, s', io')) :
    x = byteLE s'.random s.pos ∧ s'.pos = (if s.pos + 1 = 8 then 0 else s.pos + 1) ∧
      s'.rng = (s.cacheBase mmu p2v).rng ∧ s'.va = (s.cacheBase mmu p2v).va ∧
      ((s.pos = 0 ∧ ∃ seg v lo hi, (∀ a ∈ seg, PollAccess (s.cacheBase mmu p2v).rng a) ∧
          v &&& RNG_READY ≠ 0 ∧ s'.random = word lo hi ∧
          io'.log = io.log ++ seg ++ [.read (s.cacheBase mmu p2v).rng RNG_STATUS v,
            .read (s.cacheBase mmu p2v).rng RNG_OUTPUT_L lo,
            .read (s.cacheBase mmu p2v).rng RNG_OUTPUT_H hi,
            .write (s.cacheBase mmu p2v).rng RNG_INTACK RNG_READY]) ∨
       (s.pos ≠ 0 ∧ s'.random = s.random ∧ io' = io)) := by
  simp only [hw_get_random_byte, Rng.cacheBase_pos] at h
  split at h
  · rename_i hp
    simp only [Option.bind_eq_bind, Option.bind_eq_some, Option.pure_def, Option.some.injEq,
      Prod.mk.injEq] at h
    obtain ⟨⟨r, io₁⟩, hr, rfl, rfl, rfl⟩ := h
    obtain ⟨seg, v, lo, hi, hseg, hv, rfl, hlog⟩ := read_random_log hr
    exact ⟨rfl, rfl, rfl, rfl, .inl ⟨hp, seg, v, lo, hi, hseg, hv, rfl, hlog⟩⟩
  · rename_i hp
    simp only [pure_bind, Option.pure_def, Option.some.injEq, Prod.mk.injEq] at h
    obtain ⟨rfl, rfl, rfl⟩ := h
    exact ⟨rfl, rfl, rfl, rfl, .inr ⟨hp, by simp, rfl⟩⟩

/-! ### A run of calls -/

/-- The bytes of a word, `random.byte[0]` to `random.byte[7]`. -/
def bytesLE (w : BitVec 64) : List (BitVec 8) := (List.range 8).map (byteLE w)

/-- The little-endian byte expansion of the words `OUTPUT_L | OUTPUT_H << 32`. -/
def expand (ws : List (BitVec 32 × BitVec 32)) : List (BitVec 8) :=
  ws.flatMap fun w => bytesLE (word w.1 w.2)

/-- The output reads that read the words `ws`, in order. -/
def outputs (ws : List (BitVec 32 × BitVec 32)) : List (Nat × BitVec 32) :=
  ws.flatMap fun w => [(RNG_OUTPUT_L, w.1), (RNG_OUTPUT_H, w.2)]

/-- The bytes of `random` not handed out yet, at position `pos`. -/
def pending (pos : Nat) (random : BitVec 64) : List (BitVec 8) :=
  if pos = 0 then [] else (bytesLE random).drop pos

theorem drop_bytesLE (w : BitVec 64) {p : Nat} (hp : p < 8) :
    (bytesLE w).drop p = byteLE w p :: (bytesLE w).drop (p + 1) := by
  rw [List.drop_eq_getElem_cons (by simpa [bytesLE] using hp)]
  simp [bytesLE]

/-- Handing out byte `p` leaves the bytes after it pending. -/
theorem pending_succ (r : BitVec 64) {p : Nat} (hp : p ≠ 0) (h8 : p < 8) :
    pending p r = byteLE r p :: pending (if p + 1 = 8 then 0 else p + 1) r := by
  rw [pending, if_neg hp, drop_bytesLE r h8]
  by_cases h : p + 1 = 8
  · rw [if_pos h, h]; simp [pending, bytesLE]
  · rw [if_neg h, pending, if_neg (Nat.succ_ne_zero p)]

/-- A refill hands out byte 0 of the new word and leaves the other seven pending. -/
theorem pending_refill (w : BitVec 64) : byteLE w 0 :: pending 1 w = bytesLE w := by
  simpa [pending] using (drop_bytesLE w (p := 0) (by decide)).symm

/-- After call `n + 1`, `pos` has moved on modulo 8. -/
theorem pos_succ (n : Nat) : (if n % 8 + 1 = 8 then 0 else n % 8 + 1) = (n + 1) % 8 := by
  split <;> omega

/-- Call `n + 1` reads a word exactly when `pos` is 0. -/
theorem words_succ (n : Nat) : (n + 1 + 7) / 8 = (n + 7) / 8 + if n % 8 = 0 then 1 else 0 := by
  split <;> omega

/-- **The run invariant.** After `n` calls from boot, the words read so far are
`ws`: the log's output reads are theirs and each was acknowledged once, there
are `⌈n / 8⌉` of them, `pos` is `n % 8`, and the bytes handed out, followed by
those still pending in `random`, are their expansion. -/
theorem run_inv {fuel : Nat} {mmu : Nat → Bool} {p2v : Nat} {hw : Nat → BitVec 32} {n : Nat}
    {bs : List (BitVec 8)} {s : Rng} {io : Mmio}
    (h : run fuel mmu p2v n Rng.init ⟨hw, []⟩ = some (bs, s, io)) :
    ∃ ws, io.log.filterMap outputRead? = outputs ws ∧ io.log.countP isReadyAck = ws.length ∧
      ws.length = (n + 7) / 8 ∧ bs.length = n ∧ s.pos = n % 8 ∧
        bs ++ pending s.pos s.random = expand ws := by
  induction n generalizing bs s io with
  | zero =>
    cases h
    exact ⟨[], rfl, rfl, rfl, rfl, rfl, rfl⟩
  | succ n ih =>
    simp only [run, Option.bind_eq_bind, Option.bind_eq_some, Option.some.injEq,
      Prod.mk.injEq] at h
    obtain ⟨⟨bs₀, s₀, io₀⟩, h₀, ⟨x, s₁, io₁⟩, h₁, rfl, rfl, rfl⟩ := h
    dsimp only at h₁ ⊢
    obtain ⟨ws, hout, hack, hlen, hbs, hpos, hexp⟩ := ih h₀
    obtain ⟨rfl, hpos', -, -,
        ⟨hp, seg, v, lo, hi, hseg, -, hrand, hlog⟩ | ⟨hp, hrand, rfl⟩⟩ :=
      hw_get_random_byte_some h₁
    · -- a refill: one more word
      have hnone : seg.filterMap outputRead? = [] ∧ seg.countP isReadyAck = 0 := by
        simp only [List.filterMap_eq_nil_iff, List.countP_eq_zero]
        exact ⟨fun a ha => (hseg a ha).2.1,
          fun a ha => by simp [isReadyAck_eq_false (hseg a ha).2.2]⟩
      refine ⟨ws ++ [(lo, hi)], ?_, ?_, ?_, by simp [hbs], by rw [hpos', hpos, pos_succ], ?_⟩
      · simp [hlog, hout, hnone.1, outputs, outputRead?, RNG_STATUS, RNG_OUTPUT_L, RNG_OUTPUT_H]
      · simp [hlog, hack, hnone.2, isReadyAck, RNG_STATUS, RNG_OUTPUT_L, RNG_OUTPUT_H,
          RNG_INTACK]
      · rw [List.length_append, hlen, words_succ, ← hpos, hp, if_pos rfl, List.length_singleton]
      · rw [hp, if_neg (by decide)] at hpos'
        rw [hp, pending, if_pos rfl, List.append_nil] at hexp
        rw [hpos', hrand, hp, List.append_assoc, List.singleton_append, pending_refill, hexp]
        simp [expand]
    · -- the next byte of the same word
      have hp8 : s₀.pos < 8 := by omega
      refine ⟨ws, hout, hack, by rw [words_succ, ← hpos, if_neg hp, hlen]; rfl,
        by simp [hbs], by rw [hpos', hpos, pos_succ], ?_⟩
      rw [hpos', hrand, List.append_assoc, List.singleton_append, ← pending_succ _ hp hp8, hexp]

/-! ### Every call returns on a ready device -/

/-- A device whose every read shows `RNG_READY`. -/
def Ready (io : Mmio) : Prop := ∀ i, io.hw i &&& RNG_READY ≠ 0

theorem Ready.read32 {io : Mmio} (h : Ready io) (base off : Nat) : Ready (io.read32 base off).2 :=
  fun i => h (i + 1)

theorem Ready.write32 {io : Mmio} (h : Ready io) (v : BitVec 32) (base off : Nat) :
    Ready (io.write32 v base off) :=
  h

theorem hw_get_random_byte_of_ready {fuel : Nat} (hf : 1 ≤ fuel) (mmu : Bool) (p2v : Nat)
    (s : Rng) {io : Mmio} (h : Ready io) :
    ∃ x s' io', hw_get_random_byte fuel mmu p2v s io = some (x, s', io') ∧ Ready io' := by
  obtain ⟨fuel, rfl⟩ := Nat.exists_eq_add_of_le' hf
  simp only [hw_get_random_byte, Rng.cacheBase_pos]
  split
  · simp only [read_random, wait_ready, Mmio.read32_fst, if_pos (h 0)]
    exact ⟨_, _, _, rfl, ((((h.read32 _ _).read32 _ _).read32 _ _).write32 _ _ _)⟩
  · exact ⟨_, _, _, rfl, h⟩

/-- **Every call returns on a ready device.** With fuel for one pass of the
`RNG_READY` loop, a run of any number of calls from boot returns when every read of
the device shows `RNG_READY`. -/
theorem run_returns_of_ready {fuel : Nat} (hf : 1 ≤ fuel) (mmu : Nat → Bool) (p2v : Nat)
    {hw : Nat → BitVec 32} (hr : ∀ i, hw i &&& RNG_READY ≠ 0) (n : Nat) :
    ∃ bs s io, run fuel mmu p2v n Rng.init ⟨hw, []⟩ = some (bs, s, io) := by
  suffices ∀ n, ∃ bs s io, run fuel mmu p2v n Rng.init ⟨hw, []⟩ = some (bs, s, io) ∧ Ready io
    from (this n).imp fun _ => .imp fun _ => .imp fun _ => And.left
  intro n
  induction n with
  | zero => exact ⟨_, _, _, rfl, hr⟩
  | succ n ih =>
    obtain ⟨bs, s, io, h, hio⟩ := ih
    obtain ⟨x, s', io', h', hio'⟩ := hw_get_random_byte_of_ready hf (mmu n) p2v s hio
    exact ⟨bs ++ [x], s', io', by simp [run, h, h'], hio'⟩

/-- The device of `hw_get_random_byte_stream_nine`, whose reads all return 1. -/
theorem run_returns_of_ready_one :
    (1 ≤ 1 ∧ ∀ _i : Nat, (1 : BitVec 32) &&& RNG_READY ≠ 0) ∧
      ∃ bs s io, run 1 (fun _ => false) 0 20 Rng.init ⟨fun _ => 1, []⟩ = some (bs, s, io) :=
  have hr : ∀ i : Nat, (fun _ : Nat => (1 : BitVec 32)) i &&& RNG_READY ≠ 0 :=
    fun _ => show (1 : BitVec 32) &&& RNG_READY ≠ 0 by decide
  ⟨⟨le_rfl, hr⟩, run_returns_of_ready le_rfl (fun _ => false) 0 hr 20⟩

/-! ### Reachable states -/

/-- The values of the statics that boot, `dra7_rng_init` and calls of
`hw_get_random_byte` reach, whatever the MMU, the mapping and the device do. -/
inductive Reachable : Rng → Prop
  | init : Reachable Rng.init
  | driver_init {fuel : Nat} {mmu : Bool} {p2v : Nat} {s s' : Rng} {io io' : Mmio} :
      Reachable s → dra7_rng_init fuel mmu p2v s io = some (s', io') → Reachable s'
  | call {fuel : Nat} {mmu : Bool} {p2v : Nat} {s s' : Rng} {io io' : Mmio} {x : BitVec 8} :
      Reachable s → hw_get_random_byte fuel mmu p2v s io = some (x, s', io') → Reachable s'

theorem dra7_rng_init_pos {fuel : Nat} {mmu : Bool} {p2v : Nat} {s s' : Rng} {io io' : Mmio}
    (h : dra7_rng_init fuel mmu p2v s io = some (s', io')) : s'.pos = s.pos := by
  simp only [dra7_rng_init, Option.bind_eq_bind, Option.bind_eq_some, Option.pure_def,
    Option.some.injEq, Prod.mk.injEq] at h
  obtain ⟨_, -, rfl, -⟩ := h
  rfl

/-- `pos` stays below 8, so `random.byte[pos]` is always in bounds. -/
theorem Reachable.pos_lt {s : Rng} (h : Reachable s) : s.pos < 8 := by
  induction h with
  | init => decide
  | driver_init _ h ih => rwa [dra7_rng_init_pos h]
  | call _ h _ =>
    rw [(hw_get_random_byte_some h).2.1]
    split_ifs <;> omega

/-- **The byte stream.** In a run of `n` calls from boot in which every `RNG_READY`
loop ends, the bytes returned are the first `n` bytes of the little-endian
expansion of the words `OUTPUT_L | OUTPUT_H << 32` read, in order; the output
registers are read, and `RNG_READY` acknowledged, for `⌈n / 8⌉` words. And `pos`
is below 8 in every reachable state. -/
theorem hw_get_random_byte_stream {fuel : Nat} {mmu : Nat → Bool} {p2v : Nat}
    {hw : Nat → BitVec 32} {n : Nat} {bs : List (BitVec 8)} {s : Rng} {io : Mmio}
    (h : run fuel mmu p2v n Rng.init ⟨hw, []⟩ = some (bs, s, io)) :
    (∃ ws, io.log.filterMap outputRead? = outputs ws ∧ io.log.countP isReadyAck = ws.length ∧
      ws.length = (n + 7) / 8 ∧ bs = (expand ws).take n) ∧
    ∀ s', Reachable s' → s'.pos < 8 := by
  obtain ⟨ws, hout, hack, hlen, hbs, -, hexp⟩ := run_inv h
  refine ⟨⟨ws, hout, hack, hlen, ?_⟩, fun _ h => h.pos_lt⟩
  rw [← hexp, ← hbs, List.take_left]

theorem hw_get_random_byte_stream_nine :
    ∃ bs s io, run 1 (fun _ => false) 0 9 Rng.init ⟨fun _ => 1, []⟩ = some (bs, s, io) ∧
      (∃ ws, io.log.filterMap outputRead? = outputs ws ∧ io.log.countP isReadyAck = ws.length ∧
        ws.length = (9 + 7) / 8 ∧ bs = (expand ws).take 9) ∧
      ∀ s', Reachable s' → s'.pos < 8 :=
  ⟨_, _, _, rfl, @hw_get_random_byte_stream 1 (fun _ => false) 0 (fun _ => 1) 9 _ _ _ rfl⟩

end Optee.Dra7

import OpteeDrivers.Rk322x.Platform

/-!
# The bus seen by one core, and the bounded poll

A core running PSCI code sees the hardware as a `Bus`: the values the status
registers will return, in the order it reads them, and the events it has
caused so far. The accessors of `io.h` and the barriers of `arm.h` act on it
(`read32`, `write32`, `udelay`, `dsb`, `sev`, `wfi`); each appends its event to
the log and nothing else.

Both waits of `psci_rk322x.c`, `pll_wait_lock` and `wait_core_wfe_i`, open with
the same loop

    while (!(read32(reg) & mask) && loop < 500) { udelay(2); loop++; }

modelled once as `wait_bit`. Its bus trace is described by `Polled`
(`wait_bit_log`): reads that miss the mask, each followed by a 2 µs delay, at
most 500 of them, and a last read that hits the mask or is made once the bound
is reached.

A run of code on the bus does not depend on the log before it
(`wait_bit_prepend` and the lemmas before it); the two-core model of
`psci_cpu_on` composes runs through this.
-/

namespace Optee.Rk322x

/-- The hardware as one core sees it: the values the status registers return,
in the order they are read, and the events caused so far. -/
structure Bus where
  hw : Nat → BitVec 32
  log : List Event

/-- Append one event to the log. -/
def Bus.emit (e : Event) (b : Bus) : Bus := { b with log := b.log ++ [e] }

/-- The same bus with the events `L` logged before its own. -/
def Bus.prepend (L : List Event) (b : Bus) : Bus := { b with log := L ++ b.log }

@[simp] theorem Bus.emit_log (e : Event) (b : Bus) : (b.emit e).log = b.log ++ [e] := rfl
@[simp] theorem Bus.emit_hw (e : Event) (b : Bus) : (b.emit e).hw = b.hw := rfl

theorem Bus.emit_prepend (e : Event) (L : List Event) (b : Bus) :
    (b.prepend L).emit e = (b.emit e).prepend L := by
  simp [Bus.emit, Bus.prepend]

/-! ### The accessors -/

/-- A `read32` of a status register: the next value the hardware gives. -/
def read32 (l : Loc) (b : Bus) : BitVec 32 × Bus :=
  (b.hw 0, { hw := fun i => b.hw (i + 1), log := b.log ++ [.read l (b.hw 0)] })

/-- The accessor `write32(v, l)`. -/
def write32 (v : BitVec 32) (l : Loc) : Bus → Bus := Bus.emit (.write l v)

/-- The delay `udelay(us)`. -/
def udelay (us : Nat) : Bus → Bus := Bus.emit (.udelay us)

/-- The barrier `dsb()`. -/
def dsb : Bus → Bus := Bus.emit .dsb

/-- The event broadcast `sev()`. -/
def sev : Bus → Bus := Bus.emit .sev

/-- The wait for interrupt `wfi()`. -/
def wfi : Bus → Bus := Bus.emit .wfi

@[simp] theorem read32_fst (l : Loc) (b : Bus) : (read32 l b).1 = b.hw 0 := rfl

@[simp] theorem read32_log (l : Loc) (b : Bus) :
    (read32 l b).2.log = b.log ++ [.read l (b.hw 0)] := rfl

@[simp] theorem write32_eq (v : BitVec 32) (l : Loc) : write32 v l = Bus.emit (.write l v) := rfl
@[simp] theorem udelay_eq (us : Nat) : udelay us = Bus.emit (.udelay us) := rfl
@[simp] theorem dsb_eq : dsb = Bus.emit .dsb := rfl
@[simp] theorem sev_eq : sev = Bus.emit .sev := rfl
@[simp] theorem wfi_eq : wfi = Bus.emit .wfi := rfl

theorem read32_prepend (l : Loc) (L : List Event) (b : Bus) :
    read32 l (b.prepend L) = ((read32 l b).1, (read32 l b).2.prepend L) := by
  simp [read32, Bus.prepend]

/-- The C loop `for (i = 0; i < n; i++) body(i);`. -/
def forUpTo {α : Type} (body : Nat → α → α) : Nat → α → α
  | 0, a => a
  | n + 1, a => body n (forUpTo body n a)

/-! ### The bounded poll -/

/-- The loop `while (!(read32(reg) & mask) && loop < 500) { udelay(2); loop++; }`
with `n = 500 - loop` delays left: the read is made even when no delay is left. -/
def wait_bit (reg : Loc) (mask : BitVec 32) : Nat → Bus → Bus
  | 0, b => (read32 reg b).2
  | n + 1, b =>
    let (v, b) := read32 reg b
    if v &&& mask = 0 then wait_bit reg mask n (udelay 2 b) else b

/-- The bus trace of a poll of `reg` for `mask` with `n` delays left: reads that
miss `mask`, each followed by `udelay(2)`, and a last read that hits `mask` or is
made when no delay is left. -/
inductive Polled (reg : Loc) (mask : BitVec 32) : Nat → List Event → Prop
  | hit {n : Nat} {v : BitVec 32} : v &&& mask ≠ 0 → Polled reg mask n [.read reg v]
  | bound {v : BitVec 32} : Polled reg mask 0 [.read reg v]
  | miss {n : Nat} {v : BitVec 32} {seg : List Event} :
      v &&& mask = 0 → Polled reg mask n seg →
      Polled reg mask (n + 1) (.read reg v :: .udelay 2 :: seg)

theorem wait_bit_succ (reg : Loc) (mask : BitVec 32) (n : Nat) (b : Bus) :
    wait_bit reg mask (n + 1) b =
      if b.hw 0 &&& mask = 0 then wait_bit reg mask n (udelay 2 (read32 reg b).2)
      else (read32 reg b).2 := rfl

theorem wait_bit_log (reg : Loc) (mask : BitVec 32) (n : Nat) (b : Bus) :
    ∃ seg, Polled reg mask n seg ∧ (wait_bit reg mask n b).log = b.log ++ seg := by
  induction n generalizing b with
  | zero => exact ⟨_, .bound, rfl⟩
  | succ n ih =>
    by_cases h : b.hw 0 &&& mask = 0
    · obtain ⟨seg, hp, hlog⟩ := ih (udelay 2 (read32 reg b).2)
      refine ⟨_, .miss h hp, ?_⟩
      rw [wait_bit_succ, if_pos h, hlog]
      simp
    · exact ⟨_, .hit h, by rw [wait_bit_succ, if_neg h, read32_log]⟩

/-- A poll only reads and waits: it writes no CRU register. -/
theorem Polled.cruWrites_eq_nil {reg : Loc} {mask : BitVec 32} {n : Nat} {seg : List Event}
    (h : Polled reg mask n seg) (off : Nat) : cruWrites off seg = [] := by
  induction h with
  | hit _ | bound => rfl
  | miss _ _ ih => simpa [Event.cruWrite?] using ih

/-- A poll makes reads of its register and 2 µs delays, nothing else. -/
theorem Polled.mem {reg : Loc} {mask : BitVec 32} {n : Nat} {seg : List Event}
    (h : Polled reg mask n seg) {e : Event} (he : e ∈ seg) :
    (∃ v, e = .read reg v) ∨ e = .udelay 2 := by
  induction h with
  | hit _ | bound => simp_all
  | miss _ _ ih =>
    simp only [List.mem_cons] at he
    rcases he with rfl | rfl | he
    · exact .inl ⟨_, rfl⟩
    · exact .inr rfl
    · exact ih he

/-- A poll makes at most `n` delays. -/
theorem Polled.count_udelay_le {reg : Loc} {mask : BitVec 32} {n : Nat} {seg : List Event}
    (h : Polled reg mask n seg) : seg.count (.udelay 2) ≤ n := by
  induction h with
  | hit _ | bound => simp
  | miss _ _ ih => simp [List.count_cons]; omega

theorem wait_bit_prepend (reg : Loc) (mask : BitVec 32) (n : Nat) (L : List Event) (b : Bus) :
    wait_bit reg mask n (b.prepend L) = (wait_bit reg mask n b).prepend L := by
  induction n generalizing b with
  | zero => simp [wait_bit, read32_prepend]
  | succ n ih =>
    have hw : (b.prepend L).hw = b.hw := rfl
    by_cases h : b.hw 0 &&& mask = 0
    · rw [wait_bit_succ, wait_bit_succ, hw, if_pos h, if_pos h, read32_prepend, udelay_eq,
        Bus.emit_prepend, ih]
    · rw [wait_bit_succ, wait_bit_succ, hw, if_neg h, if_neg h, read32_prepend]

end Optee.Rk322x

import Mathlib.Data.List.Basic

/-!
# Device registers as a driver sees them

The RNG and UART drivers reach their device through `read32(base + off)` and
`write32(v, base + off)`. A device is an `Mmio`: the values its registers
return, in the order the driver reads them, and the accesses made so far. An
access keeps the base and the offset apart, so that a statement can say which
base a driver used.

At the other end of the accesses is a `Device`: what it does on its own, and what
an access does to it. `Device.accepts` runs it through a driver's accesses, with
the steps it takes on its own before each access given by a schedule, so that a
result about a driver and its device holds for every behaviour of the device.

The accessors `rng_base()`, `console_base()` and `pl310_base()` share one body,
`mappedBase`: the physical address while the MMU is off, the mapped one, kept in a
static, once it is on. From boot, every answer is the one for the MMU state of its
call (`mappedBaseRun_current`).
-/

namespace Optee

/-- One access of a driver to a device register at `base + off`. -/
inductive Access
  /-- A `read32` that returned `v`. -/
  | read (base off : Nat) (v : BitVec 32)
  /-- A `write32` of `v`. -/
  | write (base off : Nat) (v : BitVec 32)
  deriving DecidableEq, Repr

/-- The base an access used. -/
def Access.base : Access → Nat
  | .read base _ _ | .write base _ _ => base

/-- Whether an access is a read. -/
def Access.isRead : Access → Bool
  | .read .. => true
  | .write .. => false

/-- A device as a driver sees it: the values its reads return, in order, and the
accesses made so far. -/
structure Mmio where
  hw : Nat → BitVec 32
  log : List Access

namespace Mmio

/-- The accessor `read32(base + off)`: the next value the device gives. -/
def read32 (base off : Nat) (io : Mmio) : BitVec 32 × Mmio :=
  (io.hw 0, ⟨fun i => io.hw (i + 1), io.log ++ [.read base off (io.hw 0)]⟩)

/-- The accessor `write32(v, base + off)`. -/
def write32 (v : BitVec 32) (base off : Nat) (io : Mmio) : Mmio :=
  { io with log := io.log ++ [.write base off v] }

@[simp] theorem read32_fst (base off : Nat) (io : Mmio) : (io.read32 base off).1 = io.hw 0 := rfl

@[simp] theorem read32_log (base off : Nat) (io : Mmio) :
    (io.read32 base off).2.log = io.log ++ [.read base off (io.hw 0)] := rfl

@[simp] theorem read32_hw (base off : Nat) (io : Mmio) (i : Nat) :
    (io.read32 base off).2.hw i = io.hw (i + 1) := rfl

@[simp] theorem write32_log (v : BitVec 32) (base off : Nat) (io : Mmio) :
    (io.write32 v base off).log = io.log ++ [.write base off v] := rfl

@[simp] theorem write32_hw (v : BitVec 32) (base off : Nat) (io : Mmio) :
    (io.write32 v base off).hw = io.hw := rfl

end Mmio

/-! ### The device at the other end -/

/-- A device model: the steps `E` it takes on its own, and what an access of the
driver does to it, `none` when a read returned a value the device could not have
given. -/
structure Device (D E : Type) where
  step : D → E → D
  access : D → Access → Option D

namespace Device

variable {D E : Type} (dev : Device D E)

/-- The device through the driver's accesses `L`, taking the steps `sched i` on its
own before access `i`: its state after them, or `none` when some read returned what
the device could not have given. -/
def accepts (sched : Nat → List E) : List Access → D → Option D
  | [], d => some d
  | a :: L, d =>
    (dev.access ((sched 0).foldl dev.step d) a).bind (accepts (fun i => sched (i + 1)) L)

theorem accepts_append (sched : Nat → List E) (L L' : List Access) (d : D) :
    dev.accepts sched (L ++ L') d =
      (dev.accepts sched L d).bind (dev.accepts (fun i => sched (i + L.length)) L') := by
  induction L generalizing sched d with
  | nil => simp [accepts]
  | cons a L ih =>
    rw [List.cons_append, accepts, accepts, Option.bind_assoc]
    simp only [ih, List.length_cons, Nat.add_assoc]

variable {dev}

theorem steps_inv {P : D → Prop} (hstep : ∀ d e, P d → P (dev.step d e)) (es : List E)
    {d : D} (hd : P d) : P (es.foldl dev.step d) := by
  induction es generalizing d with
  | nil => exact hd
  | cons e es ih => exact ih (hstep d e hd)

/-- An invariant of every step of the device and of every access of `L` holds after
`L`, whatever the device does on its own. -/
theorem accepts_inv {P : D → Prop} (hstep : ∀ d e, P d → P (dev.step d e)) {L : List Access}
    (hacc : ∀ a ∈ L, ∀ d d', dev.access d a = some d' → P d → P d') {sched : Nat → List E}
    {d d' : D} (h : dev.accepts sched L d = some d') (hd : P d) : P d' := by
  induction L generalizing sched d with
  | nil => cases h; exact hd
  | cons a L ih =>
    simp only [accepts, Option.bind_eq_some] at h
    obtain ⟨d₁, h₁, h₂⟩ := h
    exact ih (fun b hb => hacc b (List.mem_cons_of_mem a hb)) h₂
      (hacc a (List.mem_cons_self a L) _ _ h₁ (steps_inv hstep _ hd))

end Device

/-! ### Base accessors -/

/-- The body shared by `rng_base()`, `console_base()` and `pl310_base()`, for the
device at the physical address `phys`: with the MMU off, `phys`; with it on, the
static `va`, set to `phys_to_virt(phys, ...)` (here `p2v`) while it is null. The
result is the answer and the new value of `va`. -/
def mappedBase (phys : Nat) (mmu : Bool) (p2v va : Nat) : Nat × Nat :=
  if mmu then
    let va := if va = 0 then p2v else va
    (va, va)
  else (phys, va)

/-- Calls of an accessor one after another, one per MMU state of `mmus`, from the
static `va`: the answers, and the last value of `va`. -/
def mappedBaseRun (phys p2v : Nat) : List Bool → Nat → List Nat × Nat
  | [], va => ([], va)
  | mmu :: mmus, va =>
    let (b, va) := mappedBase phys mmu p2v va
    let (bs, va) := mappedBaseRun phys p2v mmus va
    (b :: bs, va)

/-- The answer for an MMU state. -/
def currentBase (phys p2v : Nat) (mmu : Bool) : Nat := if mmu then p2v else phys

/-- The static `va` of an accessor is null or the mapped address. -/
def VaOk (p2v va : Nat) : Prop := va = 0 ∨ va = p2v

theorem mappedBase_spec (phys : Nat) {p2v va : Nat} (h : VaOk p2v va) (mmu : Bool) :
    (mappedBase phys mmu p2v va).1 = currentBase phys p2v mmu ∧
      VaOk p2v (mappedBase phys mmu p2v va).2 := by
  rcases h with rfl | rfl <;> cases mmu <;> simp [mappedBase, currentBase, VaOk]

theorem mappedBaseRun_of_vaOk (phys p2v : Nat) (mmus : List Bool) {va : Nat} (h : VaOk p2v va) :
    (mappedBaseRun phys p2v mmus va).1 = mmus.map (currentBase phys p2v) := by
  induction mmus generalizing va with
  | nil => rfl
  | cons mmu mmus ih =>
    obtain ⟨hb, hva⟩ := mappedBase_spec phys h mmu
    simp only [mappedBaseRun, List.map_cons, hb, ih hva]

/-- **An accessor is never stale.** In a row of calls from boot, when the static `va`
is null, each call answers the physical address while the MMU is off and the mapped
one while it is on. -/
theorem mappedBaseRun_current (phys p2v : Nat) (mmus : List Bool) :
    (mappedBaseRun phys p2v mmus 0).1 = mmus.map (currentBase phys p2v) :=
  mappedBaseRun_of_vaOk phys p2v mmus (.inl rfl)

/-- A register value misses a mask exactly when it has none of the mask's bits. -/
theorem and_eq_zero_iff {w : Nat} (v m : BitVec w) :
    v &&& m = 0 ↔ ∀ i < w, m.getLsbD i = true → v.getLsbD i = false := by
  constructor
  · intro h i _ hm
    simpa [hm] using congrArg (BitVec.getLsbD · i) h
  · intro h
    apply BitVec.eq_of_getLsbD_eq
    rintro ⟨i, hi⟩
    by_cases hm : m.getLsbD i = true <;> simp [hm, h i hi]

end Optee

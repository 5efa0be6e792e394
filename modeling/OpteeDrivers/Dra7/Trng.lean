import OpteeDrivers.Dra7.Rng

/-!
# The driver and the TRNG: each result handed out once, in order

`hw_get_random_byte()` and the TRNG meet at four registers, and the driver's
comments say what they mean: `RNG_STATUS` shows `RNG_READY` while a result is
available in `RNG_OUTPUT_L` and `RNG_OUTPUT_H` ("Is the result ready
(available)?"), and `SHUTDOWN_OFLO` once the shutdown threshold is reached; a one
written to a bit of `RNG_INTACK` acknowledges that event ("Acknowledge read
complete", "Clear the shutdown overflow event"). `Trng` is the device these comments
describe. It makes its next result available only once the last one has been
acknowledged, and it keeps a record of every result it has made available
(`produced`, a ghost field).

Between two accesses of the driver the device may take steps of its own
(`TrngStep`): make a result available, or reach the shutdown threshold. It is run
through the driver's accesses by `Device.accepts`, and every result below holds
whatever it does on its own.

The invariant is `Trng.Consumed W`: the device has made available the words `W`
the driver has acknowledged, then at most one more, pending. The loop for
`RNG_READY` keeps it, since the repair of the oscillators acknowledges
`SHUTDOWN_OFLO` only: a result that becomes ready while the repair runs stays
pending. The loop ends on a status read that shows `RNG_READY`, and from there to
the acknowledgement nothing the device does on its own changes the pending result,
so the two output reads return it (`Trng.Consumed.refill`). Over a run of calls from
boot, the words the driver reads are therefore the device's results, in order, each
once, and the bytes it hands out are the first bytes of those results
(`run_trng`).
-/

namespace Optee.Dra7

/-- The TRNG, as the driver's comments describe it. -/
structure Trng where
  /-- `RNG_READY` of `RNG_STATUS`: a result is available. -/
  ready : Bool
  /-- `SHUTDOWN_OFLO` of `RNG_STATUS`: the shutdown threshold is reached. -/
  oflo : Bool
  /-- `RNG_OUTPUT_L`. -/
  lo : BitVec 32
  /-- `RNG_OUTPUT_H`. -/
  hi : BitVec 32
  /-- Every result made available so far, oldest first. -/
  produced : List (BitVec 32 × BitVec 32)
  deriving DecidableEq, Repr

/-- What the TRNG does on its own between two accesses of the driver. -/
inductive TrngStep
  /-- Make the result `(lo, hi)` available; while a result is pending, nothing. -/
  | produce (lo hi : BitVec 32)
  /-- Reach the shutdown threshold. -/
  | alarm
  deriving DecidableEq, Repr

namespace Trng

/-- One step of the device on its own. -/
def step (d : Trng) : TrngStep → Trng
  | .produce lo hi =>
    if d.ready then d else { d with ready := true, lo, hi, produced := d.produced ++ [(lo, hi)] }
  | .alarm => { d with oflo := true }

/-- One access of the driver. A read of `RNG_STATUS` shows the two events, a read of
an output register its word; a one written to a bit of `RNG_INTACK` clears that
event. The other registers play no part here. -/
def access (d : Trng) : Access → Option Trng
  | .read _ off v =>
    if off = RNG_STATUS then
      if decide (v &&& RNG_READY ≠ 0) = d.ready ∧ decide (v &&& SHUTDOWN_OFLO ≠ 0) = d.oflo
      then some d else none
    else if off = RNG_OUTPUT_L then (if v = d.lo then some d else none)
    else if off = RNG_OUTPUT_H then (if v = d.hi then some d else none)
    else some d
  | .write _ off v =>
    if off = RNG_INTACK then
      some { d with ready := d.ready && decide (v &&& RNG_READY = 0),
                    oflo := d.oflo && decide (v &&& SHUTDOWN_OFLO = 0) }
    else some d

/-- The result available and not yet acknowledged, if any. -/
def pend (d : Trng) : List (BitVec 32 × BitVec 32) := if d.ready then [(d.lo, d.hi)] else []

end Trng

/-- The TRNG as the device of the driver. -/
def trng : Device Trng TrngStep := ⟨Trng.step, Trng.access⟩

@[simp] theorem trng_step : trng.step = Trng.step := rfl
@[simp] theorem trng_access : trng.access = Trng.access := rfl

/-! ### The invariant -/

namespace Trng

/-- The device has made available the words `W`, then at most the pending result. -/
def Consumed (W : List (BitVec 32 × BitVec 32)) (d : Trng) : Prop := d.produced = W ++ d.pend

/-- The device has made available the words `W`, then the result `w`, pending. -/
def Pending (W : List (BitVec 32 × BitVec 32)) (w : BitVec 32 × BitVec 32) (d : Trng) : Prop :=
  d.ready = true ∧ (d.lo, d.hi) = w ∧ d.produced = W ++ [w]

variable {W : List (BitVec 32 × BitVec 32)} {w : BitVec 32 × BitVec 32} {d d' : Trng}

theorem Consumed.step (h : Consumed W d) (e : TrngStep) : Consumed W (d.step e) := by
  cases e with
  | produce lo hi =>
    by_cases hr : d.ready = true
    · simpa only [Trng.step, hr, if_true] using h
    · simp only [Consumed, pend, hr] at h
      simp [Trng.step, Consumed, pend, hr, h]
  | alarm => exact h

/-- A pending result stays as it is, whatever the device does on its own. -/
theorem Pending.step (h : Pending W w d) (e : TrngStep) : Pending W w (d.step e) := by
  cases e with
  | produce => simpa only [Trng.step, h.1, if_true] using h
  | alarm => exact h

theorem Consumed.steps (h : Consumed W d) (es : List TrngStep) :
    Consumed W (es.foldl Trng.step d) :=
  @Device.steps_inv _ _ trng _ (fun _ e h => h.step e) es _ h

theorem Pending.steps (h : Pending W w d) (es : List TrngStep) :
    Pending W w (es.foldl Trng.step d) :=
  @Device.steps_inv _ _ trng _ (fun _ e h => h.step e) es _ h

/-- A read changes nothing in the device. -/
theorem access_read {b off : Nat} {v : BitVec 32} (h : d.access (.read b off v) = some d') :
    d' = d := by
  simp only [Trng.access] at h
  split_ifs at h <;> exact (Option.some.inj h).symm

/-- An access that does not clear `RNG_READY` keeps the invariant. -/
theorem Consumed.access {a : Access} (ha : acksReady a = false) (h : d.access a = some d')
    (hc : Consumed W d) : Consumed W d' := by
  cases a with
  | read => rwa [access_read h]
  | write b off v =>
    simp only [Trng.access] at h
    split_ifs at h with ho
    · cases h
      have hv : v &&& RNG_READY = 0 := by simpa [acksReady, ho] using ha
      simpa [Consumed, pend, hv] using hc
    · cases h; exact hc

/-- A status read that shows `RNG_READY` finds the result after `W` pending. -/
theorem Consumed.status_ready {b : Nat} {v : BitVec 32} (hc : Consumed W d)
    (hv : v &&& RNG_READY ≠ 0) (h : d.access (.read b RNG_STATUS v) = some d') :
    Pending W (d.lo, d.hi) d' := by
  simp only [Trng.access, if_true] at h
  split_ifs at h with hs
  cases h
  have hr : d.ready = true := by rw [← hs.1]; exact decide_eq_true hv
  exact ⟨hr, rfl, by simpa [Consumed, pend, hr] using hc⟩

/-- The output reads return the pending result. -/
theorem Pending.read_lo {b : Nat} {v : BitVec 32} (hp : Pending W w d)
    (h : d.access (.read b RNG_OUTPUT_L v) = some d') : v = w.1 ∧ d' = d := by
  simp only [Trng.access, if_neg (show RNG_OUTPUT_L ≠ RNG_STATUS by decide), if_true] at h
  split_ifs at h with hv
  cases h
  exact ⟨by rw [hv, ← hp.2.1], rfl⟩

theorem Pending.read_hi {b : Nat} {v : BitVec 32} (hp : Pending W w d)
    (h : d.access (.read b RNG_OUTPUT_H v) = some d') : v = w.2 ∧ d' = d := by
  simp only [Trng.access, if_neg (show RNG_OUTPUT_H ≠ RNG_STATUS by decide),
    if_neg (show RNG_OUTPUT_H ≠ RNG_OUTPUT_L by decide), if_true] at h
  split_ifs at h with hv
  cases h
  exact ⟨by rw [hv, ← hp.2.1], rfl⟩

/-- The acknowledgement of the pending result adds it to the words consumed. -/
theorem Pending.ack {b : Nat} (hp : Pending W w d)
    (h : d.access (.write b RNG_INTACK RNG_READY) = some d') : Consumed (W ++ [w]) d' := by
  simp only [Trng.access, if_true, Option.some.injEq] at h
  subst h
  simp [Consumed, pend, hp.2.2, RNG_READY]

/-- **A refill.** The accesses of the loop for `RNG_READY`, which clear no
`RNG_READY`, then the status read that shows it, the two output reads and the
acknowledgement: whatever the device does on its own meanwhile, the words read are
the result it had pending, and it joins the words consumed. -/
theorem Consumed.refill {sched : Nat → List TrngStep} {seg : List Access} {b : Nat}
    {v lo hi : BitVec 32} (hseg : ∀ a ∈ seg, acksReady a = false) (hv : v &&& RNG_READY ≠ 0)
    (hc : Consumed W d)
    (h : trng.accepts sched (seg ++ [.read b RNG_STATUS v, .read b RNG_OUTPUT_L lo,
      .read b RNG_OUTPUT_H hi, .write b RNG_INTACK RNG_READY]) d = some d') :
    Consumed (W ++ [(lo, hi)]) d' := by
  rw [Device.accepts_append, Option.bind_eq_some] at h
  obtain ⟨d₁, h₁, h₂⟩ := h
  -- the loop keeps the invariant
  have hc₁ : Consumed W d₁ :=
    Device.accepts_inv (P := Consumed W) (fun d e h => h.step e)
      (fun a ha _ _ h hc => hc.access (hseg a ha) h) h₁ hc
  simp only [Device.accepts, trng_step, trng_access, Option.bind_eq_some,
    Option.some.injEq] at h₂
  obtain ⟨d₂, hs, d₃, hl, d₄, hh, d₅, hk, rfl⟩ := h₂
  -- from the status read on, the result is pending
  have hp₂ := (hc₁.steps _).status_ready hv hs
  obtain ⟨hlo, rfl⟩ := (hp₂.steps _).read_lo hl
  obtain ⟨hhi, rfl⟩ := ((hp₂.steps _).steps _).read_hi hh
  rw [show (lo, hi) = _ from Prod.ext hlo hhi]
  exact (((hp₂.steps _).steps _).steps _).ack hk

end Trng

/-! ### A run against the device -/

theorem outputs_injective {ws ws' : List (BitVec 32 × BitVec 32)}
    (h : outputs ws = outputs ws') : ws = ws' := by
  induction ws generalizing ws' with
  | nil => cases ws' with
    | nil => rfl
    | cons => simp [outputs] at h
  | cons w ws ih =>
    cases ws' with
    | nil => simp [outputs] at h
    | cons w' ws' =>
      simp only [outputs, List.flatMap_cons, List.cons_append, List.nil_append, List.cons.injEq,
        Prod.mk.injEq, true_and] at h
      rw [Prod.ext h.1 h.2.1, ih h.2.2]

theorem length_expand (ws : List (BitVec 32 × BitVec 32)) : (expand ws).length = 8 * ws.length := by
  induction ws with
  | nil => rfl
  | cons w ws ih => simp [expand, bytesLE] at ih ⊢; omega

theorem expand_append (ws ws' : List (BitVec 32 × BitVec 32)) :
    expand (ws ++ ws') = expand ws ++ expand ws' := by
  simp [expand]

/-- Over a run of calls from boot, the output reads are those of words that the device
made available in this order, with only its latest result possibly still pending. -/
theorem run_consumed {fuel : Nat} {mmu : Nat → Bool} {p2v : Nat} {hw : Nat → BitVec 32}
    {n : Nat} {bs : List (BitVec 8)} {s : Rng} {io : Mmio}
    (h : run fuel mmu p2v n Rng.init ⟨hw, []⟩ = some (bs, s, io)) {sched : Nat → List TrngStep}
    {d₀ d : Trng} (hd : trng.accepts sched io.log d₀ = some d) (h₀ : Trng.Consumed [] d₀) :
    ∃ W, io.log.filterMap outputRead? = outputs W ∧ Trng.Consumed W d := by
  induction n generalizing bs s io d with
  | zero =>
    cases h
    cases hd
    exact ⟨[], rfl, h₀⟩
  | succ n ih =>
    simp only [run, Option.bind_eq_bind, Option.bind_eq_some, Option.some.injEq,
      Prod.mk.injEq] at h
    obtain ⟨⟨bs₀, s₀, io₀⟩, hrun, ⟨x, s₁, io₁⟩, hcall, rfl, rfl, rfl⟩ := h
    obtain ⟨-, -, -, -, ⟨-, seg, v, lo, hi, hseg, hv, -, hlog⟩ | ⟨-, -, rfl⟩⟩ :=
      hw_get_random_byte_some hcall
    · -- a refill: the pending result joins the words read
      rw [hlog, List.append_assoc, Device.accepts_append, Option.bind_eq_some] at hd
      obtain ⟨d₁, hd₁, hd₂⟩ := hd
      obtain ⟨W, hW, hc⟩ := ih hrun hd₁
      have hnone : seg.filterMap outputRead? = [] :=
        List.filterMap_eq_nil_iff.mpr fun a ha => (hseg a ha).2.1
      refine ⟨W ++ [(lo, hi)], ?_, hc.refill (fun a ha => (hseg a ha).2.2) hv hd₂⟩
      simp [hlog, hW, hnone, outputs, outputRead?, RNG_STATUS, RNG_OUTPUT_L, RNG_OUTPUT_H]
    · exact ih hrun hd

/-- **Each result handed out once, in order.** Take a run of `n` calls of
`hw_get_random_byte()` from boot, and a TRNG that answers each of its reads, whatever
the device does on its own between them, starting with a record of nothing but its
pending result. Then the bytes handed out are the first `n` bytes of the results the
device made available, in order; the words the driver read are those results, each
read once, all but the last one pending. -/
theorem run_trng {fuel : Nat} {mmu : Nat → Bool} {p2v : Nat} {hw : Nat → BitVec 32} {n : Nat}
    {bs : List (BitVec 8)} {s : Rng} {io : Mmio}
    (h : run fuel mmu p2v n Rng.init ⟨hw, []⟩ = some (bs, s, io)) {sched : Nat → List TrngStep}
    {d₀ d : Trng} (hd : trng.accepts sched io.log d₀ = some d) (h₀ : d₀.produced = d₀.pend) :
    bs = (expand d.produced).take n ∧
      ∃ W, io.log.filterMap outputRead? = outputs W ∧ d.produced = W ++ d.pend := by
  obtain ⟨W, hW, hc⟩ := run_consumed h hd h₀
  obtain ⟨ws, hws, -, hlen, hbs, -, hexp⟩ := run_inv h
  obtain rfl : ws = W := outputs_injective (hws.symm.trans hW)
  refine ⟨?_, ws, hW, hc⟩
  rw [hc, expand_append, List.take_append_of_le_length (by rw [length_expand]; omega), ← hexp,
    ← hbs, List.take_left]

/-- Nine bytes from a device that makes the result `(1, 1)` available whenever none
is pending. -/
theorem run_trng_nine :
    ∃ bs s io d, run 1 (fun _ => false) 0 9 Rng.init ⟨fun _ => 1, []⟩ = some (bs, s, io) ∧
      trng.accepts (fun _ => [.produce 1 1]) io.log ⟨false, false, 0, 0, []⟩ = some d ∧
      (⟨false, false, 0, 0, []⟩ : Trng).produced = Trng.pend ⟨false, false, 0, 0, []⟩ ∧
      bs = (expand d.produced).take 9 ∧
      ∃ W, io.log.filterMap outputRead? = outputs W ∧ d.produced = W ++ d.pend :=
  ⟨_, _, _, _, rfl, rfl, rfl,
    @run_trng 1 (fun _ => false) 0 (fun _ => 1) 9 _ _ _ rfl (fun _ => [.produce 1 1])
      ⟨false, false, 0, 0, []⟩ _ rfl rfl⟩

end Optee.Dra7

import OpteeDrivers.Dra7.Rng

/-!
# The base `hw_get_random_byte` caches

`rng_base()` answers `RNG_BASE` while the MMU is off and the mapped address of
the RNG once it is on. `hw_get_random_byte` asks it only once: `if (!rng) rng =
rng_base();` keeps the first non-null answer for good. Every register access of
a run therefore goes to the base of the first call (`run_accesses_base`),
whatever the MMU does afterwards.

When the first call is made before the MMU is enabled, the calls after it keep
using the physical address `RNG_BASE`, while `rng_base()` has moved to the
mapped one (`hw_get_random_byte_stale_base`).
-/

namespace Optee.Dra7

/-- Once `rng` is set, `rng_base()` is not asked again. -/
theorem Rng.cacheBase_of_ne {s : Rng} (h : s.rng ≠ 0) (mmu : Bool) (p2v : Nat) :
    s.cacheBase mmu p2v = s := by
  simp [Rng.cacheBase, h]

/-- **The first answer is kept.** In a run of calls from boot whose first call gets
a non-null base `b` from `rng_base()`, every register access of every call goes to
`b`, whatever the MMU state of the later calls. -/
theorem run_accesses_base {fuel : Nat} {mmu : Nat → Bool} {p2v : Nat} {hw : Nat → BitVec 32}
    {n : Nat} {bs : List (BitVec 8)} {s : Rng} {io : Mmio}
    (h : run fuel mmu p2v n Rng.init ⟨hw, []⟩ = some (bs, s, io))
    (hb : (rng_base (mmu 0) p2v 0).1 ≠ 0) :
    ∀ a ∈ io.log, a.base = (rng_base (mmu 0) p2v 0).1 := by
  -- after the first call, `rng` holds the first answer
  suffices ∀ {n bs s io}, run fuel mmu p2v n Rng.init ⟨hw, []⟩ = some (bs, s, io) →
      (n = 0 ∨ s.rng = (rng_base (mmu 0) p2v 0).1) ∧
        ∀ a ∈ io.log, a.base = (rng_base (mmu 0) p2v 0).1
    from (this h).2
  intro n bs s io h
  induction n generalizing bs s io with
  | zero =>
    cases h
    exact ⟨.inl rfl, by simp⟩
  | succ n ih =>
    simp only [run, Option.bind_eq_bind, Option.bind_eq_some, Option.some.injEq,
      Prod.mk.injEq] at h
    obtain ⟨⟨bs₀, s₀, io₀⟩, h₀, ⟨x, s₁, io₁⟩, h₁, rfl, rfl, rfl⟩ := h
    dsimp only at h₁ ⊢
    obtain ⟨hrng, hlog⟩ := ih h₀
    -- the base the call uses
    have hc : (s₀.cacheBase (mmu n) p2v).rng = (rng_base (mmu 0) p2v 0).1 := by
      rcases hrng with rfl | hrng
      · cases h₀
        simp [Rng.cacheBase, Rng.init]
      · rw [Rng.cacheBase_of_ne (hrng ▸ hb), hrng]
    obtain ⟨-, -, hrng', -, ⟨-, seg, v, lo, hi, hseg, -, -, hlog'⟩ | ⟨-, -, rfl⟩⟩ :=
      hw_get_random_byte_some h₁
    · refine ⟨.inr (hrng'.trans hc), ?_⟩
      simp only [hlog', List.forall_mem_append, List.forall_mem_cons, List.not_mem_nil,
        false_implies, implies_true, Access.base, and_true]
      exact ⟨⟨hlog, fun a ha => (hseg a ha).1.trans hc⟩, hc, hc, hc, hc⟩
    · exact ⟨.inr (hrng'.trans hc), hlog⟩

/-- The MMU is enabled after the first call: all nine calls, the last one made with
the MMU on, go to `RNG_BASE`. -/
theorem run_accesses_base_mmu_later :
    ∃ bs s io,
      run 1 (fun n => n != 0) 0xfe090000 9 Rng.init ⟨fun _ => 1, []⟩ = some (bs, s, io) ∧
      (rng_base false 0xfe090000 0).1 ≠ 0 ∧
      ∀ a ∈ io.log, a.base = (rng_base false 0xfe090000 0).1 :=
  ⟨_, _, _, rfl, by decide,
    @run_accesses_base 1 (fun n => n != 0) 0xfe090000 (fun _ => 1) 9 _ _ _ rfl (by decide)⟩

/-- The first call made with the MMU off, at boot, then the MMU enabled with the
RNG mapped at `0xfe090000`: eight calls use up the first word, and the ninth,
made with the MMU on, reads and acknowledges the next word at the physical
address `RNG_BASE`, while `rng_base()` now answers `0xfe090000`. -/
theorem hw_get_random_byte_stale_base :
    ∃ bs s io x s' io',
      run 1 (fun _ => false) 0xfe090000 8 Rng.init ⟨fun _ => 1, []⟩ = some (bs, s, io) ∧
      hw_get_random_byte 1 true 0xfe090000 s io = some (x, s', io') ∧
      (rng_base true 0xfe090000 s.va).1 = 0xfe090000 ∧
      io'.log = io.log ++ [.read RNG_BASE RNG_STATUS 1, .read RNG_BASE RNG_OUTPUT_L 1,
        .read RNG_BASE RNG_OUTPUT_H 1, .write RNG_BASE RNG_INTACK RNG_READY] :=
  ⟨_, _, _, _, _, _, rfl, rfl, rfl, rfl⟩

end Optee.Dra7

import OpteeDrivers.Rk322x.ManyCores

/-!
# SMP bring-up: every first call finds its core held in reset

`reset_nonboot_cores` runs as a late initcall, before the normal world can ask
for a secondary core: "When SMP bootup, we release cores one by one". It holds
cores 1 to 3 in reset, so that `psci_cpu_on` takes its first branch for each of
them: the soft reset right after the read of `CRU_SOFTRST_CON(0)`, with no wait
for WFE or WFI before it, and so no way to be denied before the core is reset.

The bus gives the reads of `CRU_SOFTRST_CON(0)` freely, since other cores write
the register too. Here they are tied to the writes of the run: `readsBack l m L`
says that every read of `l` in `L` returns what the events before it leave in
`l`. Under that assumption, for calls on pairwise distinct secondary cores made
after `reset_nonboot_cores`, in any interleaving, each call reads its core's
reset bit set (`psci_cpu_on_bringup`). The events before that read are the
call's own store of its entry and events of the calls for other cores, and none
of them enables the bit (`CpuOnEvent.bitWrite?_eq_none`). Where an event of one
call stands in an interleaving is `Interleaves.split`.
-/

namespace Optee.Rk322x

/-! ### Where an event of one list stands in an interleaving -/

section Split

variable {α β : Type}

/-- An event `x` of the left list stands in an interleaving after an interleaving
of the left events before it with a prefix of the right list. -/
theorem Interleaving.split_left {T₀ T₁ T₂ L : List α} {x : α}
    (h : Interleaving (T₀ ++ x :: T₁) T₂ L) :
    ∃ pre post U V, L = pre ++ x :: post ∧ T₂ = U ++ V ∧ Interleaving T₀ U pre := by
  generalize hA : T₀ ++ x :: T₁ = A at h
  induction h generalizing T₀ with
  | nil => simp at hA
  | @left a A B L _ ih =>
    cases T₀ with
    | nil =>
      obtain ⟨rfl, -⟩ := List.cons.inj hA
      exact ⟨[], L, [], B, rfl, rfl, .nil⟩
    | cons b T₀ =>
      obtain ⟨rfl, hA'⟩ := List.cons.inj hA
      obtain ⟨pre, post, U, V, rfl, rfl, hi⟩ := ih hA'
      exact ⟨b :: pre, post, U, V, rfl, rfl, .left hi⟩
  | @right a A B L _ ih =>
    obtain ⟨pre, post, U, V, rfl, rfl, hi⟩ := ih hA
    exact ⟨a :: pre, post, a :: U, V, rfl, rfl, .right hi⟩

theorem filterMap_eq_nil_left (f : α → Option β) {U V : List α}
    (h : (U ++ V).filterMap f = []) : U.filterMap f = [] := by
  rw [List.filterMap_append] at h
  exact (List.append_eq_nil.mp h).1

/-- **Where an event stands.** In an interleaving of lists, the events before an
event `x` of one of them show of `f` what that list shows before `x`, when no
other list has an event that `f` keeps. -/
theorem Interleaves.split (f : α → Option β) {Ts₁ Ts₂ : List (List α)} {T₀ T₁ L : List α}
    {x : α} (h : Interleaves (Ts₁ ++ (T₀ ++ x :: T₁) :: Ts₂) L)
    (hTs : ∀ T' ∈ Ts₁ ++ Ts₂, T'.filterMap f = []) :
    ∃ pre post, L = pre ++ x :: post ∧ pre.filterMap f = T₀.filterMap f := by
  generalize hTs' : Ts₁ ++ (T₀ ++ x :: T₁) :: Ts₂ = Ts at h
  induction h generalizing Ts₁ with
  | nil => simp at hTs'
  | cons hL' hi ih =>
    cases Ts₁ with
    | nil =>
      -- `x` is in the first list: the others, interleaved, show nothing
      obtain ⟨rfl, rfl⟩ := List.cons.inj hTs'
      obtain ⟨pre, post, U, V, rfl, rfl, hi'⟩ := hi.split_left
      have hU := filterMap_eq_nil_left f (hL'.filterMap_eq_nil f (by simpa using hTs))
      exact ⟨pre, post, rfl, by
        rw [hi'.filterMap_eq f (.inr hU), List.filterMap_append, hU, List.append_nil]⟩
    | cons T' Ts₁ =>
      -- `x` is further on: the first list shows nothing
      obtain ⟨rfl, hrest⟩ := List.cons.inj hTs'
      simp only [List.cons_append, List.mem_cons, forall_eq_or_imp] at hTs
      obtain ⟨pre', post', rfl, hpre'⟩ := ih hTs.2 hrest
      obtain ⟨pre, post, U, V, rfl, rfl, hi'⟩ := hi.symm.split_left
      have hU := filterMap_eq_nil_left f hTs.1
      exact ⟨pre, post, rfl, by
        rw [hi'.filterMap_eq f (.inr hU), List.filterMap_append, hU, List.append_nil, hpre']⟩

end Split

/-! ### Reads that see the writes -/

/-- The event `e` is not a read of `l`, or it returns what `m` holds in `l`. -/
def Event.readOk (l : Loc) (m : Mem) : Event → Bool
  | .read l' v => l' != l || v == m.read l
  | _ => true

/-- Every read of `l` in `L` returns what `l` holds in the memory that the events
before it leave, from `m`: nothing but the events of `L` changes `l`. -/
def readsBack (l : Loc) : Mem → List Event → Bool
  | _, [] => true
  | m, e :: L => e.readOk l m && readsBack l (m.apply e) L

theorem readsBack_read {l : Loc} {m : Mem} {pre post : List Event} {v : BitVec 32}
    (h : readsBack l m (pre ++ .read l v :: post) = true) :
    v = (pre.foldl Mem.apply m).read l := by
  induction pre generalizing m with
  | nil => exact (by simpa [readsBack, Event.readOk] using h : _ ∧ _).1
  | cons e pre ih =>
    simp only [List.cons_append, readsBack, Bool.and_eq_true] at h
    exact ih h.2

/-! ### The first call for each core -/

/-- A call that reads its core held in reset goes straight to the soft reset. -/
theorem CpuOnTrace.held {c : Nat} {entry : BitVec 32} {t : List Event} {r : Int}
    (h : CpuOnTrace c entry t r) :
    ∃ v rest, t = .setEntry c entry :: .read (.cru (CRU_SOFTRST_CON 0)) v :: rest ∧
      (v &&& CORE_HELD_IN_RESET c ≠ 0 → ∃ rest', rest = resetRelease c ++ rest') := by
  cases h with
  | deniedBefore hv => exact ⟨_, _, rfl, fun h => absurd hv h⟩
  | released hpre =>
    refine ⟨_, _, rfl, fun hh => ?_⟩
    rcases hpre with ⟨-, rfl⟩ | ⟨hz, -⟩
    · exact ⟨_, List.append_assoc _ _ _⟩
    · exact absurd hz hh

theorem and_CORE_HELD_IN_RESET_ne_zero {c : Nat} (hc : c < CFG_TEE_CORE_NB_CORE)
    {v : BitVec 32} (h : v.getLsbD (4 + c) = true) : v &&& CORE_HELD_IN_RESET c ≠ 0 := by
  have hbit : ∀ c < CFG_TEE_CORE_NB_CORE, (CORE_HELD_IN_RESET c).getLsbD (4 + c) = true := by
    decide
  intro h0
  have := congrArg (BitVec.getLsbD · (4 + c)) h0
  simp [BitVec.getLsbD_and, h, hbit c hc] at this

/-- **The reset bit stays set.** After `reset_nonboot_cores`, and events that do
not enable its reset bit, the reset register shows a secondary core held in reset. -/
theorem reset_nonboot_cores_held {c : Nat} (h₁ : 1 ≤ c) (h₂ : c < CFG_TEE_CORE_NB_CORE)
    (m : Mem) (b : Bus) {pre : List Event}
    (hpre : pre.filterMap (Event.bitWrite? (CRU_SOFTRST_CON 0) (4 + c)) = []) :
    (((reset_nonboot_cores b).log ++ pre).foldl Mem.apply m).read (.cru (CRU_SOFTRST_CON 0)) &&&
      CORE_HELD_IN_RESET c ≠ 0 := by
  apply and_CORE_HELD_IN_RESET_ne_zero h₂
  rw [Mem.read, maskedRead, BitVec.getLsbD_setWidth, List.foldl_append, Mem.getLsbD_cru_foldl,
    hpre, applyWrites_nil, reset_nonboot_cores_resets]
  simp only [CFG_TEE_CORE_NB_CORE] at h₂
  simp
  omega

/-- In calls for pairwise distinct valid cores, the calls other than `a` never
enable the reset bit of `a`'s core. -/
theorem bitWrites_others {as₁ as₂ : List CpuOnCall} {a : CpuOnCall}
    (hv : ∀ a' ∈ as₁ ++ a :: as₂, 1 ≤ a'.core ∧ a'.core < CFG_TEE_CORE_NB_CORE)
    (hd : ((as₁ ++ a :: as₂).map CpuOnCall.core).Nodup) :
    ∀ T ∈ as₁.map CpuOnCall.trace ++ as₂.map CpuOnCall.trace,
      T.filterMap (Event.bitWrite? (CRU_SOFTRST_CON 0) (4 + a.core)) = [] := by
  simp only [← List.map_append, List.mem_map]
  rintro _ ⟨a', ha', rfl⟩
  rw [List.map_append, List.map_cons] at hd
  have hd' := (List.pairwise_middle Ne.symm).mp hd
  rw [← List.map_append] at hd'
  have hne := (List.pairwise_cons.mp hd').1 _ (List.mem_map_of_mem _ ha')
  have hv' := hv a' (List.mem_append.mpr ((List.mem_append.mp ha').imp id (List.mem_cons_of_mem _)))
  exact List.filterMap_eq_nil_iff.mpr fun e he =>
    (a'.footprint hv'.1 hv'.2 e he).bitWrite?_eq_none hv'.2
      (hv a (List.mem_append_right _ (List.mem_cons_self _ _))).2 hne

/-- **Every first call finds its core held in reset.** After `reset_nonboot_cores`,
take calls of `psci_cpu_on` for pairwise distinct secondary cores, made from any
cores in any interleaving `L`, on a bus whose reads of `CRU_SOFTRST_CON(0)` return
what the register holds. Each call reads its core's reset bit set and goes
straight to the soft reset and release: it never waits for WFE or WFI first, and
is never denied before its core is reset. -/
theorem psci_cpu_on_bringup (as : List CpuOnCall) (m : Mem) (b : Bus) {L : List Event}
    (hv : ∀ a ∈ as, 1 ≤ a.core ∧ a.core < CFG_TEE_CORE_NB_CORE)
    (hd : (as.map CpuOnCall.core).Nodup) (hL : Interleaves (as.map CpuOnCall.trace) L)
    (hrb : readsBack (.cru (CRU_SOFTRST_CON 0)) m ((reset_nonboot_cores b).log ++ L) = true) :
    ∀ a ∈ as, ∃ v rest, v &&& CORE_HELD_IN_RESET a.core ≠ 0 ∧
      a.trace = .setEntry a.core a.entry :: .read (.cru (CRU_SOFTRST_CON 0)) v ::
        (resetRelease a.core ++ rest) := by
  intro a ha
  obtain ⟨as₁, as₂, rfl⟩ := List.append_of_mem ha
  have hva := hv a ha
  obtain ⟨t, ht, hlog⟩ := psci_cpu_on_log a.entry a.context_id ⟨a.hw, []⟩ hva.1 hva.2
  obtain ⟨v, rest, ht', hheld⟩ := ht.held
  have htr : a.trace =
      .setEntry a.core a.entry :: .read (.cru (CRU_SOFTRST_CON 0)) v :: rest := by
    rw [CpuOnCall.trace, CpuOnCall.run, hlog, List.nil_append, ht']; rfl
  -- the read of the reset register stands after events that leave the bit set
  rw [List.map_append, List.map_cons, htr,
    show ∀ x y z, x :: y :: z = [x] ++ y :: z from fun _ _ _ => rfl] at hL
  obtain ⟨pre, post, rfl, hpre⟩ := hL.split _ (bitWrites_others hv hd)
  have hread := readsBack_read (by rwa [← List.append_assoc] at hrb)
  have hv' : v &&& CORE_HELD_IN_RESET a.core ≠ 0 :=
    hread ▸ reset_nonboot_cores_held hva.1 hva.2 m b hpre
  obtain ⟨rest', rfl⟩ := hheld hv'
  exact ⟨v, rest', hv', htr⟩

/-- The first call during bring-up, for core 1: the reset register reads back the
reset bits of cores 1 to 3, and core 1 is in WFE at once after its release. -/
def bootCore1 : CpuOnCall := ⟨1, 0x60000000, 0, fun i => if i = 0 then 0xe0 else 0xffffffff⟩

/-- The next call, for core 2, once core 1 is released: the reset register reads
back the bits of cores 2 and 3. -/
def bootCore2 : CpuOnCall := ⟨2, 0x60008000, 0, fun i => if i = 0 then 0xc0 else 0xffffffff⟩

theorem psci_cpu_on_bringup_two :
    ((∀ a ∈ [bootCore1, bootCore2], 1 ≤ a.core ∧ a.core < CFG_TEE_CORE_NB_CORE) ∧
      ([bootCore1, bootCore2].map CpuOnCall.core).Nodup ∧
      Interleaves ([bootCore1, bootCore2].map CpuOnCall.trace)
        (bootCore1.trace ++ (bootCore2.trace ++ [])) ∧
      readsBack (.cru (CRU_SOFTRST_CON 0)) Mem.zero
        ((reset_nonboot_cores ⟨fun _ => 0, []⟩).log ++
          (bootCore1.trace ++ (bootCore2.trace ++ []))) = true) ∧
    ∀ a ∈ [bootCore1, bootCore2], ∃ v rest, v &&& CORE_HELD_IN_RESET a.core ≠ 0 ∧
      a.trace = .setEntry a.core a.entry :: .read (.cru (CRU_SOFTRST_CON 0)) v ::
        (resetRelease a.core ++ rest) :=
  have hv : ∀ a ∈ [bootCore1, bootCore2], 1 ≤ a.core ∧ a.core < CFG_TEE_CORE_NB_CORE := by
    decide
  have hd : ([bootCore1, bootCore2].map CpuOnCall.core).Nodup := by decide
  have hL : Interleaves ([bootCore1, bootCore2].map CpuOnCall.trace)
      (bootCore1.trace ++ (bootCore2.trace ++ [])) :=
    .cons (.cons .nil (Interleaving.append _ _)) (Interleaving.append _ _)
  have hrb : readsBack (.cru (CRU_SOFTRST_CON 0)) Mem.zero
      ((reset_nonboot_cores ⟨fun _ => 0, []⟩).log ++
        (bootCore1.trace ++ (bootCore2.trace ++ []))) = true := by decide
  ⟨⟨hv, hd, hL, hrb⟩, psci_cpu_on_bringup [bootCore1, bootCore2] Mem.zero _ hv hd hL hrb⟩

end Optee.Rk322x

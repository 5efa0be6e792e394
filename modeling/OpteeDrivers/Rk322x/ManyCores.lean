import OpteeDrivers.Rk322x.TwoCores

/-!
# Any number of cores bringing up others

`psci_cpu_on_interleaved` is about two calls. Once secondary cores run, each of
them may call `psci_cpu_on` for another, so any number of calls may be in flight
at once. `Interleaves Ts L` says that `L` interleaves all the traces of `Ts`; it is
built one trace at a time from the binary `Interleaving`. A location that only one
of the traces writes sees the writes of that trace and nothing else
(`Interleaves.filterMap_eq`). So for calls on pairwise distinct valid targets,
every interleaving leaves the reset bit and the entry of each target as its own
call leaves them when it runs alone (`psci_cpu_on_interleaves`).
-/

namespace Optee.Rk322x

/-- `L` interleaves the lists of `Ts`: the first of them with an interleaving of the
others. -/
inductive Interleaves {α : Type} : List (List α) → List α → Prop
  | nil : Interleaves [] []
  | cons {T : List α} {Ts : List (List α)} {L' L : List α} :
      Interleaves Ts L' → Interleaving T L' L → Interleaves (T :: Ts) L

section Interleaves

variable {α β : Type} (f : α → Option β)

theorem Interleaves.filterMap_eq_nil {Ts : List (List α)} {L : List α} (h : Interleaves Ts L)
    (hTs : ∀ T ∈ Ts, T.filterMap f = []) : L.filterMap f = [] := by
  induction h with
  | nil => rfl
  | cons _ hi ih =>
    simp only [List.mem_cons, forall_eq_or_imp] at hTs
    rw [hi.filterMap_eq f (.inl hTs.1), List.filterMap_append, hTs.1, ih hTs.2, List.append_nil]

/-- **One location, any number of programs.** When `T` is the only list of an
interleaving with events that `f` keeps, the interleaving shows of `f` exactly what
`T` shows. -/
theorem Interleaves.filterMap_eq {Ts₁ Ts₂ : List (List α)} {T L : List α}
    (h : Interleaves (Ts₁ ++ T :: Ts₂) L)
    (hTs : ∀ T' ∈ Ts₁ ++ Ts₂, T'.filterMap f = []) :
    L.filterMap f = T.filterMap f := by
  generalize hTs' : Ts₁ ++ T :: Ts₂ = Ts at h
  induction h generalizing Ts₁ with
  | nil => simp at hTs'
  | cons hL' hi ih =>
    cases Ts₁ with
    | nil =>
      -- `T` comes first: the others show nothing
      obtain ⟨rfl, rfl⟩ := List.cons.inj hTs'
      have hnil := hL'.filterMap_eq_nil f (by simpa using hTs)
      rw [hi.filterMap_eq f (.inr hnil), List.filterMap_append, hnil, List.append_nil]
    | cons T₁ Ts₁ =>
      -- another list comes first, and shows nothing
      obtain ⟨rfl, hrest⟩ := List.cons.inj hTs'
      simp only [List.cons_append, List.mem_cons, forall_eq_or_imp] at hTs
      rw [hi.filterMap_eq f (.inl hTs.1), List.filterMap_append, hTs.1, List.nil_append,
        ih hTs.2 hrest]

end Interleaves

/-- **No lost update, any number of calls.** For calls for pairwise distinct
secondary cores, every interleaving of all their events leaves the reset bit and the
entry of each target as its own call leaves them when it runs alone. -/
theorem psci_cpu_on_interleaves (as : List CpuOnCall) (m : Mem) {L : List Event}
    (hv : ∀ a ∈ as, 1 ≤ a.core ∧ a.core < CFG_TEE_CORE_NB_CORE)
    (hd : (as.map CpuOnCall.core).Nodup) (hL : Interleaves (as.map CpuOnCall.trace) L) :
    ∀ a ∈ as,
      ((L.foldl Mem.apply m).cru (CRU_SOFTRST_CON 0)).getLsbD (4 + a.core) =
          ((a.trace.foldl Mem.apply m).cru (CRU_SOFTRST_CON 0)).getLsbD (4 + a.core) ∧
        (L.foldl Mem.apply m).ns_entry_addrs a.core =
          (a.trace.foldl Mem.apply m).ns_entry_addrs a.core := by
  intro a ha
  obtain ⟨as₁, as₂, rfl⟩ := List.append_of_mem ha
  have hva := hv a ha
  -- every other call is valid and targets another core
  have hother : ∀ a' ∈ as₁ ++ as₂, (1 ≤ a'.core ∧ a'.core < CFG_TEE_CORE_NB_CORE) ∧
      a.core ≠ a'.core := by
    intro a' ha'
    rw [List.map_append, List.map_cons] at hd
    have hd' := (List.pairwise_middle Ne.symm).mp hd
    rw [← List.map_append] at hd'
    exact ⟨hv a' (List.mem_append.mpr ((List.mem_append.mp ha').imp id (List.mem_cons_of_mem _))),
      (List.pairwise_cons.mp hd').1 _ (List.mem_map_of_mem _ ha')⟩
  -- a location that no other call touches sees the call's own events
  have hloc : ∀ {β} (g : Event → Option β),
      (∀ a' ∈ as₁ ++ as₂, ∀ e ∈ a'.trace, CpuOnEvent a'.core e → g e = none) →
      L.filterMap g = a.trace.filterMap g := by
    intro β g hg
    rw [List.map_append, List.map_cons] at hL
    refine hL.filterMap_eq g ?_
    simp only [← List.map_append, List.mem_map]
    rintro _ ⟨a', ha', rfl⟩
    exact List.filterMap_eq_nil_iff.mpr fun e he =>
      hg a' ha' e he (a'.footprint (hother a' ha').1.1 (hother a' ha').1.2 e he)
  refine ⟨?_, ?_⟩
  · rw [Mem.getLsbD_cru_foldl, Mem.getLsbD_cru_foldl, hloc _ fun a' ha' _ _ he =>
      he.bitWrite?_eq_none (hother a' ha').1.2 hva.2 (hother a' ha').2]
  · rw [Mem.ns_entry_foldl, Mem.ns_entry_foldl,
      hloc _ fun a' ha' _ _ he => he.entry?_eq_none (hother a' ha').2]

/-- The same for core 3, with a third entry. -/
def callCore3 : CpuOnCall := ⟨3, 0x60010000, 0, fun _ => 0xffffffff⟩

/-- Three calls, for cores 1, 2 and 3, the events of the first one last. -/
theorem psci_cpu_on_interleaves_three :
    ((∀ a ∈ [callCore1, callCore2, callCore3],
        1 ≤ a.core ∧ a.core < CFG_TEE_CORE_NB_CORE) ∧
      ([callCore1, callCore2, callCore3].map CpuOnCall.core).Nodup ∧
      Interleaves ([callCore1, callCore2, callCore3].map CpuOnCall.trace)
        (callCore2.trace ++ (callCore3.trace ++ []) ++ callCore1.trace)) ∧
    ∀ a ∈ [callCore1, callCore2, callCore3],
      (((callCore2.trace ++ (callCore3.trace ++ []) ++ callCore1.trace).foldl Mem.apply
          Mem.zero).cru (CRU_SOFTRST_CON 0)).getLsbD (4 + a.core) =
          ((a.trace.foldl Mem.apply Mem.zero).cru (CRU_SOFTRST_CON 0)).getLsbD (4 + a.core) ∧
        ((callCore2.trace ++ (callCore3.trace ++ []) ++ callCore1.trace).foldl Mem.apply
          Mem.zero).ns_entry_addrs a.core =
          (a.trace.foldl Mem.apply Mem.zero).ns_entry_addrs a.core :=
  have hv : ∀ a ∈ [callCore1, callCore2, callCore3],
      1 ≤ a.core ∧ a.core < CFG_TEE_CORE_NB_CORE := by decide
  have hd : ([callCore1, callCore2, callCore3].map CpuOnCall.core).Nodup := by decide
  have hL : Interleaves ([callCore1, callCore2, callCore3].map CpuOnCall.trace)
      (callCore2.trace ++ (callCore3.trace ++ []) ++ callCore1.trace) :=
    .cons (.cons (.cons .nil (Interleaving.append _ _)) (Interleaving.append _ _))
      (Interleaving.append _ _).symm
  ⟨⟨hv, hd, hL⟩,
    psci_cpu_on_interleaves [callCore1, callCore2, callCore3] Mem.zero hv hd hL⟩

end Optee.Rk322x

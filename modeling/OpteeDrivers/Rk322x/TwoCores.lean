import OpteeDrivers.Rk322x.CpuOn

/-!
# Two cores bringing up two others: no update is lost

Two cores may call `psci_cpu_on` at the same time for two different targets.
Both calls write the one register `CRU_SOFTRST_CON(0)`, and both may write the
table `ns_entry_addrs`. A call reads only status registers, whose values are
given, so its events do not depend on what the other core does; a run of the
two calls is any `Interleaving` of their events, one register access at a
time.

No interleaving loses an update (`psci_cpu_on_interleaved`): the reset bits
and the entries of both targets, and both return codes, are those of the two
calls made one after the other (`serial`). The reason is that no write of
`psci_cpu_on` is a read-modify-write. Its writes to `CRU_SOFTRST_CON(0)` enable
only the reset bit of its own target (`wmask_CORE_SOFT_RESET`), and a bit of a
write-masked register is decided by the writes that enable it, in their order
(`getLsbD_applyWrites_filter`). So each target's bit sees the writes of its own
call and nothing else, whatever the interleaving (`Interleaving.filterMap_eq`).
In particular a call that succeeds leaves its target out of reset under every
interleaving (`psci_cpu_on_interleaved_released`).
-/

namespace Optee.Rk322x

/-! ### Interleavings -/

/-- `L` interleaves `T₁` and `T₂`: it is made of their elements, each list in its order. -/
inductive Interleaving {α : Type} : List α → List α → List α → Prop
  | nil : Interleaving [] [] []
  | left {a : α} {T₁ T₂ L : List α} : Interleaving T₁ T₂ L → Interleaving (a :: T₁) T₂ (a :: L)
  | right {a : α} {T₁ T₂ L : List α} : Interleaving T₁ T₂ L → Interleaving T₁ (a :: T₂) (a :: L)

section Interleaving

variable {α β : Type} {T₁ T₂ L : List α}

/-- The serial run is an interleaving. -/
theorem Interleaving.append (T₁ T₂ : List α) : Interleaving T₁ T₂ (T₁ ++ T₂) := by
  induction T₁ with
  | nil =>
    induction T₂ with
    | nil => exact .nil
    | cons a T₂ ih => exact .right ih
  | cons a T₁ ih => exact .left ih

/-- What an interleaving shows of the events one location sees is an
interleaving of what each program shows of them. -/
theorem Interleaving.filterMap (f : α → Option β) (h : Interleaving T₁ T₂ L) :
    Interleaving (T₁.filterMap f) (T₂.filterMap f) (L.filterMap f) := by
  induction h with
  | nil => exact .nil
  | @left a _ _ _ _ ih =>
    cases hf : f a <;> simp only [List.filterMap_cons, hf]
    · exact ih
    · exact .left ih
  | @right a _ _ _ _ ih =>
    cases hf : f a <;> simp only [List.filterMap_cons, hf]
    · exact ih
    · exact .right ih

theorem Interleaving.symm (h : Interleaving T₁ T₂ L) : Interleaving T₂ T₁ L := by
  induction h with
  | nil => exact .nil
  | left _ ih => exact .right ih
  | right _ ih => exact .left ih

theorem Interleaving.eq_left (h : Interleaving T₁ [] L) : L = T₁ := by
  generalize hT : ([] : List α) = T₂ at h
  induction h with
  | nil => rfl
  | left _ ih => rw [ih hT]
  | right => cases hT

theorem Interleaving.eq_right (h : Interleaving [] T₂ L) : L = T₂ := by
  generalize hT : ([] : List α) = T₁ at h
  induction h with
  | nil => rfl
  | left => cases hT
  | right _ ih => rw [ih hT]

/-- **One location at a time.** When one of the two programs has no event that
`f` keeps, every interleaving shows of `f` exactly what the serial run shows. -/
theorem Interleaving.filterMap_eq (f : α → Option β) (h : Interleaving T₁ T₂ L)
    (hf : T₁.filterMap f = [] ∨ T₂.filterMap f = []) :
    L.filterMap f = (T₁ ++ T₂).filterMap f := by
  have h' := h.filterMap f
  rw [List.filterMap_append]
  rcases hf with hf | hf <;> rw [hf] at h' ⊢
  · rw [h'.eq_right, List.nil_append]
  · rw [h'.eq_left, List.append_nil]

end Interleaving

/-! ### What a location of memory sees -/

/-- The entry an event records for core `c`. -/
def Event.entry? (c : Nat) : Event → Option (BitVec 32)
  | .setEntry c' v => if c' = c then some v else none
  | _ => none

/-- The entry of core `c` after the events `L`: the last one they record, if any. -/
theorem Mem.ns_entry_foldl (L : List Event) (m : Mem) (c : Nat) :
    (L.foldl Mem.apply m).ns_entry_addrs c =
      (L.filterMap (Event.entry? c)).foldl (fun _ v => v) (m.ns_entry_addrs c) := by
  induction L generalizing m with
  | nil => rfl
  | cons e L ih =>
    rw [List.foldl_cons, ih, List.filterMap_cons]
    rcases e with _ | ⟨⟨o⟩ | ⟨o⟩ | ⟨o⟩, v⟩ | ⟨c', v⟩ <;> try rfl
    by_cases h : c' = c
    · subst h; simp [Event.entry?, Mem.apply]
    · simp [Event.entry?, Mem.apply, h, Function.update_noteq (Ne.symm h)]

/-- The CRU writes to `off` that enable bit `i`. -/
def Event.bitWrite? (off i : Nat) (e : Event) : Option (BitVec 32) :=
  (e.cruWrite? off).filter fun w => (wmask w).getLsbD i

/-- Bit `i` of a CRU register after the events `L` is decided by the writes of
`L` that enable it. -/
theorem Mem.getLsbD_cru_foldl (L : List Event) (m : Mem) (off i : Nat) :
    ((L.foldl Mem.apply m).cru off).getLsbD i =
      (applyWrites (m.cru off) (L.filterMap (Event.bitWrite? off i))).getLsbD i := by
  rw [Mem.cru_foldl, getLsbD_applyWrites_filter, cruWrites, List.filter_filterMap]
  rfl

/-! ### The footprint of a call on the shared locations -/

/-- The reset and release words of a core enable its reset bit, `4 + c`, and no other. -/
theorem wmask_CORE_SOFT_RESET :
    ∀ c < CFG_TEE_CORE_NB_CORE, ∀ i < 16,
      (wmask (CORE_SOFT_RESET c)).getLsbD i = decide (i = 4 + c) ∧
      (wmask (CORE_SOFT_RELEASE c)).getLsbD i = decide (i = 4 + c) := by
  decide

theorem CpuOnEvent.entry?_eq_none {c c' : Nat} {e : Event} (h : CpuOnEvent c e) (hc : c' ≠ c) :
    e.entry? c' = none := by
  rcases e with _ | _ | ⟨c'', v⟩ <;> try rfl
  simp only [CpuOnEvent] at h
  simp [Event.entry?, h, Ne.symm hc]

theorem CpuOnEvent.bitWrite?_eq_none {c c' : Nat} {e : Event} (h : CpuOnEvent c e)
    (hc : c < CFG_TEE_CORE_NB_CORE) (hc' : c' < CFG_TEE_CORE_NB_CORE) (hne : c' ≠ c) :
    e.bitWrite? (CRU_SOFTRST_CON 0) (4 + c') = none := by
  rcases e with _ | ⟨⟨o⟩ | ⟨o⟩ | ⟨o⟩, v⟩ <;> try rfl
  obtain ⟨rfl, hv⟩ := h
  have hi : 4 + c' < 16 := by simp only [CFG_TEE_CORE_NB_CORE] at hc'; omega
  have hbits := wmask_CORE_SOFT_RESET c hc (4 + c') hi
  rcases hv with rfl | rfl <;>
    simp [Event.bitWrite?, Event.cruWrite?, Option.filter, hbits, hne]

/-! ### Two calls -/

/-- A call of `psci_cpu_on` made by one core: its arguments, and the values its
status reads return, in order. -/
structure CpuOnCall where
  core_idx : BitVec 32
  entry : BitVec 32
  context_id : BitVec 32
  /-- The values the call's reads of `CRU_SOFTRST_CON(0)` and `GRF_CPU_STATUS1` return. -/
  hw : Nat → BitVec 32

namespace CpuOnCall

/-- The call made on a bus that has logged `log`. -/
def run (a : CpuOnCall) (log : List Event) : Int × Bus :=
  psci_cpu_on a.core_idx a.entry a.context_id ⟨a.hw, log⟩

/-- The core the call targets. -/
def core (a : CpuOnCall) : Nat := (a.core_idx &&& MPIDR_CPU_MASK).toNat

/-- The events of the call by itself. -/
def trace (a : CpuOnCall) : List Event := (a.run []).2.log

theorem run_eq (a : CpuOnCall) (log : List Event) :
    a.run log = ((a.run []).1, ⟨(a.run []).2.hw, log ++ a.trace⟩) := by
  have h := psci_cpu_on_prepend a.core_idx a.entry a.context_id log ⟨a.hw, []⟩
  simp only [Bus.prepend, List.append_nil] at h
  exact h

theorem footprint (a : CpuOnCall) (h₁ : 1 ≤ a.core) (h₂ : a.core < CFG_TEE_CORE_NB_CORE) :
    ∀ e ∈ a.trace, CpuOnEvent a.core e := by
  obtain ⟨t, ht, hlog⟩ := psci_cpu_on_log a.entry a.context_id ⟨a.hw, []⟩ h₁ h₂
  intro e he
  rw [trace, run, hlog, List.nil_append] at he
  exact ht.footprint he

end CpuOnCall

/-- The two calls made one after the other on one bus: their return codes, and
the events of both. -/
def serial (a₁ a₂ : CpuOnCall) : (Int × Int) × List Event :=
  let r₁ := a₁.run []
  let r₂ := a₂.run r₁.2.log
  ((r₁.1, r₂.1), r₂.2.log)

theorem serial_eq (a₁ a₂ : CpuOnCall) :
    serial a₁ a₂ = (((a₁.run []).1, (a₂.run []).1), a₁.trace ++ a₂.trace) := by
  simp only [serial]
  rw [CpuOnCall.run_eq a₂ (a₁.run []).2.log]
  rfl

/-- **No lost update.** For two calls from two cores for two different secondary
cores, every interleaving of their events leaves the reset bits and the
entries of both targets as the serial run does, and each call returns what it
returns in the serial run. -/
theorem psci_cpu_on_interleaved (a₁ a₂ : CpuOnCall) (m : Mem) {L : List Event}
    (h₁ : 1 ≤ a₁.core) (h₁' : a₁.core < CFG_TEE_CORE_NB_CORE)
    (h₂ : 1 ≤ a₂.core) (h₂' : a₂.core < CFG_TEE_CORE_NB_CORE) (hne : a₁.core ≠ a₂.core)
    (hL : Interleaving a₁.trace a₂.trace L) :
    (∀ c ∈ [a₁.core, a₂.core],
      ((L.foldl Mem.apply m).cru (CRU_SOFTRST_CON 0)).getLsbD (4 + c) =
        (((serial a₁ a₂).2.foldl Mem.apply m).cru (CRU_SOFTRST_CON 0)).getLsbD (4 + c) ∧
      (L.foldl Mem.apply m).ns_entry_addrs c = ((serial a₁ a₂).2.foldl Mem.apply m).ns_entry_addrs c) ∧
    ((a₁.run []).1, (a₂.run []).1) = (serial a₁ a₂).1 := by
  have hf₁ := a₁.footprint h₁ h₁'
  have hf₂ := a₂.footprint h₂ h₂'
  -- a location that one of the two calls does not touch sees the serial writes
  have hloc : ∀ {β} (f : Event → Option β), (∀ e ∈ a₁.trace, f e = none) ∨
      (∀ e ∈ a₂.trace, f e = none) → L.filterMap f = (serial a₁ a₂).2.filterMap f := by
    intro β f hf
    rw [serial_eq, hL.filterMap_eq f]
    simpa only [List.filterMap_eq_nil_iff] using hf
  refine ⟨fun c hc => ?_, by rw [serial_eq]⟩
  rw [Mem.getLsbD_cru_foldl, Mem.getLsbD_cru_foldl, Mem.ns_entry_foldl, Mem.ns_entry_foldl]
  simp only [List.mem_cons, List.mem_singleton, List.not_mem_nil, or_false] at hc
  rcases hc with rfl | rfl
  · rw [hloc _ (.inr fun e he => (hf₂ e he).bitWrite?_eq_none h₂' h₁' hne),
      hloc _ (.inr fun e he => (hf₂ e he).entry?_eq_none hne)]
    exact ⟨rfl, rfl⟩
  · rw [hloc _ (.inl fun e he => (hf₁ e he).bitWrite?_eq_none h₁' h₂' (Ne.symm hne)),
      hloc _ (.inl fun e he => (hf₁ e he).entry?_eq_none (Ne.symm hne))]
    exact ⟨rfl, rfl⟩

/-- The memory with every word zero. -/
def Mem.zero : Mem := ⟨fun _ => 0, fun _ => 0, fun _ => 0⟩

/-- A call for core 1 whose status reads all return `0xffffffff`: the core is
held in reset, and reaches WFE at once after the release. -/
def callCore1 : CpuOnCall := ⟨1, 0x60000000, 0, fun _ => 0xffffffff⟩

/-- The same for core 2, with another entry. -/
def callCore2 : CpuOnCall := ⟨2, 0x60008000, 0, fun _ => 0xffffffff⟩

theorem psci_cpu_on_interleaved_reversed :
    (1 ≤ callCore1.core ∧ callCore1.core < CFG_TEE_CORE_NB_CORE ∧
      1 ≤ callCore2.core ∧ callCore2.core < CFG_TEE_CORE_NB_CORE ∧ callCore1.core ≠ callCore2.core ∧
      Interleaving callCore1.trace callCore2.trace (callCore2.trace ++ callCore1.trace)) ∧
    (∀ c ∈ [callCore1.core, callCore2.core],
      (((callCore2.trace ++ callCore1.trace).foldl Mem.apply Mem.zero).cru
          (CRU_SOFTRST_CON 0)).getLsbD (4 + c) =
        (((serial callCore1 callCore2).2.foldl Mem.apply Mem.zero).cru
          (CRU_SOFTRST_CON 0)).getLsbD (4 + c) ∧
      ((callCore2.trace ++ callCore1.trace).foldl Mem.apply Mem.zero).ns_entry_addrs c =
        ((serial callCore1 callCore2).2.foldl Mem.apply Mem.zero).ns_entry_addrs c) ∧
    ((callCore1.run []).1, (callCore2.run []).1) = (serial callCore1 callCore2).1 :=
  have hL := (Interleaving.append callCore2.trace callCore1.trace).symm
  ⟨⟨by decide, by decide, by decide, by decide, by decide, hL⟩,
    psci_cpu_on_interleaved callCore1 callCore2 Mem.zero (by decide) (by decide) (by decide)
      (by decide) (by decide) hL⟩

/-! ### A successful call leaves its core running -/

theorem WfeiWait.filterMap_bitWrite {c : Nat} {seg : List Event} {ok : Bool}
    (h : WfeiWait c seg ok) (off i : Nat) : seg.filterMap (Event.bitWrite? off i) = [] := by
  obtain ⟨poll, v, hp, rfl, -⟩ := h
  rw [List.filterMap_eq_nil_iff]
  intro e he
  rcases List.mem_append.mp he with he | he
  · rcases hp.mem he with ⟨_, rfl⟩ | rfl <;> rfl
  · rw [List.mem_singleton.mp he]; rfl

/-- The writes to `CRU_SOFTRST_CON(0)` that enable the reset bit of core `c`, in the
trace of a successful call for `c`: the reset, then the release. -/
theorem CpuOnTrace.resetWrites_of_success {c : Nat} {entry : BitVec 32} {t : List Event}
    (h : CpuOnTrace c entry t PSCI_RET_SUCCESS) (hc : c < CFG_TEE_CORE_NB_CORE) :
    t.filterMap (Event.bitWrite? (CRU_SOFTRST_CON 0) (4 + c)) =
      [CORE_SOFT_RESET c, CORE_SOFT_RELEASE c] := by
  have hbits := wmask_CORE_SOFT_RESET c hc (4 + c)
    (by simp only [CFG_TEE_CORE_NB_CORE] at hc; omega)
  generalize hr : PSCI_RET_SUCCESS = r at h
  cases h with
  | deniedBefore => cases hr
  | @released v pre w ok hpre hw =>
    cases ok
    · cases hr
    have hpre' : pre.filterMap (Event.bitWrite? (CRU_SOFTRST_CON 0) (4 + c)) = [] := by
      rcases hpre with ⟨-, rfl⟩ | ⟨-, hw'⟩
      · rfl
      · exact hw'.filterMap_bitWrite _ _
    simp only [List.filterMap_cons, List.filterMap_append, hpre', hw.filterMap_bitWrite,
      if_true, resetRelease, handoff]
    simp [Event.bitWrite?, Event.cruWrite?, Option.filter, hbits]

/-- **A successful call leaves its core running.** When the call for `c₁` succeeds,
the reset bit of `c₁` ends cleared under every interleaving with a call for
another core. -/
theorem psci_cpu_on_interleaved_released (a₁ a₂ : CpuOnCall) (m : Mem) {L : List Event}
    (h₁ : 1 ≤ a₁.core) (h₁' : a₁.core < CFG_TEE_CORE_NB_CORE)
    (h₂ : 1 ≤ a₂.core) (h₂' : a₂.core < CFG_TEE_CORE_NB_CORE)
    (hne : a₁.core ≠ a₂.core)
    (hL : Interleaving a₁.trace a₂.trace L) (hs : (a₁.run []).1 = PSCI_RET_SUCCESS) :
    ((L.foldl Mem.apply m).cru (CRU_SOFTRST_CON 0)).getLsbD (4 + a₁.core) = false := by
  obtain ⟨t, ht, hlog⟩ := psci_cpu_on_log a₁.entry a₁.context_id _ h₁ h₁'
  have htr : a₁.trace = t := by rw [CpuOnCall.trace, CpuOnCall.run, hlog, List.nil_append]
  have hsucc : CpuOnTrace a₁.core a₁.entry t PSCI_RET_SUCCESS := hs ▸ ht
  -- the other call does not write the bit
  have hnil : a₂.trace.filterMap (Event.bitWrite? (CRU_SOFTRST_CON 0) (4 + a₁.core)) = [] :=
    List.filterMap_eq_nil_iff.mpr fun e he =>
      (a₂.footprint h₂ h₂' e he).bitWrite?_eq_none h₂' h₁' hne
  rw [Mem.getLsbD_cru_foldl, hL.filterMap_eq _ (.inr hnil), List.filterMap_append, hnil,
    List.append_nil, htr, hsucc.resetWrites_of_success h₁']
  have hbit : (wdata (CORE_SOFT_RELEASE a₁.core)).getLsbD (4 + a₁.core) = false ∧
      (wmask (CORE_SOFT_RELEASE a₁.core)).getLsbD (4 + a₁.core) = true := by
    revert h₁'; generalize a₁.core = c; revert c; decide
  simp [getLsbD_maskedWrite, hbit]

theorem psci_cpu_on_interleaved_released_reversed :
    (1 ≤ callCore1.core ∧ callCore1.core < CFG_TEE_CORE_NB_CORE ∧
      1 ≤ callCore2.core ∧ callCore2.core < CFG_TEE_CORE_NB_CORE ∧
      callCore1.core ≠ callCore2.core ∧
      Interleaving callCore1.trace callCore2.trace (callCore2.trace ++ callCore1.trace) ∧
      (callCore1.run []).1 = PSCI_RET_SUCCESS) ∧
    (((callCore2.trace ++ callCore1.trace).foldl Mem.apply Mem.zero).cru
      (CRU_SOFTRST_CON 0)).getLsbD (4 + callCore1.core) = false :=
  have hL := (Interleaving.append callCore2.trace callCore1.trace).symm
  have hs : (callCore1.run []).1 = PSCI_RET_SUCCESS := by decide
  ⟨⟨by decide, by decide, by decide, by decide, by decide, hL, hs⟩,
    psci_cpu_on_interleaved_released callCore1 callCore2 Mem.zero (by decide) (by decide)
      (by decide) (by decide) (by decide) hL hs⟩

end Optee.Rk322x

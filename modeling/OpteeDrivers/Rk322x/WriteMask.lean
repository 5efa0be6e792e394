import Mathlib.Logic.Function.Basic
import Mathlib.Data.List.Basic

/-!
# Write-masked registers of the Rockchip CRU

Every configuration register of the rk322x clock and reset unit (CRU) is a
**write-masked** register: of a 32-bit write word, bits `[15:0]` are data and
bit `16 + i` enables the write of data bit `i`. A write therefore changes only
the bits its upper half names, and no code path has to read a register before
writing it. `common.h` builds such words with `BITS_WMSK` and
`BITS_WITH_WMASK`; both are modelled here, together with the register itself
(`maskedWrite`, `maskedRead`).

The two laws the PSCI code rests on are stated over whole write sequences
(`applyWrites`):

* `applyWrites_restore` — the suspend/resume round trip: a sequence of
  power-down writes followed by restore writes that carry the saved value
  leaves the register as it was, as soon as the restore masks cover the
  power-down masks;
* `getLsbD_applyWrites_filter` — a bit of the register is decided by the
  writes whose mask names it, in their order, whatever other writes are
  interleaved with them. This is the no-lost-update law of the soft-reset
  register shared by the cores.
-/

namespace Optee.Rk322x

/-! ### The macros of `common.h` -/

/-- Modelled from the spec: `REG_MSK_SHIFT` of `common.h`; the write-enable half of a word
starts at bit 16. -/
def REG_MSK_SHIFT : Nat := 16

/-- Modelled from the spec: `BITS_WMSK(msk, shift)` of `common.h`, the write-enable bits of
the field `msk` at `shift`. -/
def BITS_WMSK (msk : BitVec 32) (shift : Nat) : BitVec 32 :=
  msk <<< (shift + REG_MSK_SHIFT)

/-- Modelled from the spec: `BITS_WITH_WMASK(bits, msk, shift)` of `common.h`, `bits` at
`shift`, write-enabled by the field `msk` at `shift`; `bits` is not clipped to `msk`. -/
def BITS_WITH_WMASK (bits msk : BitVec 32) (shift : Nat) : BitVec 32 :=
  bits <<< shift ||| BITS_WMSK msk shift

/-! ### The register -/

/-- The data half of a write word. -/
def wdata (w : BitVec 32) : BitVec 16 := w.setWidth 16

/-- The write-enable half of a write word: bit `i` is bit `16 + i` of `w`. -/
def wmask (w : BitVec 32) : BitVec 16 := (w >>> REG_MSK_SHIFT).setWidth 16

/-- A write of `w` to a write-masked register holding `r`: data bit `i` takes
bit `i` of `w` when bit `16 + i` of `w` is set, and keeps its value otherwise. -/
def maskedWrite (r : BitVec 16) (w : BitVec 32) : BitVec 16 :=
  (r &&& ~~~wmask w) ||| (wdata w &&& wmask w)

/-- A read of a write-masked register returns its data bits; the upper half
reads as zero. -/
def maskedRead (r : BitVec 16) : BitVec 32 := r.setWidth 32

@[simp] theorem getLsbD_wdata (w : BitVec 32) (i : Nat) :
    (wdata w).getLsbD i = (decide (i < 16) && w.getLsbD i) := by
  simp [wdata]

@[simp] theorem getLsbD_wmask (w : BitVec 32) (i : Nat) :
    (wmask w).getLsbD i = (decide (i < 16) && w.getLsbD (16 + i)) := by
  simp [wmask, REG_MSK_SHIFT]

theorem getLsbD_maskedWrite (r : BitVec 16) (w : BitVec 32) (i : Nat) :
    (maskedWrite r w).getLsbD i =
      if (wmask w).getLsbD i then (wdata w).getLsbD i else r.getLsbD i := by
  by_cases hi : i < 16
  · by_cases hm : (wmask w).getLsbD i <;> simp [maskedWrite, hm, hi]
  · simp [BitVec.getLsbD_ge _ _ (Nat.le_of_not_lt hi), hi]

@[simp] theorem wdata_maskedRead (r : BitVec 16) : wdata (maskedRead r) = r := by
  apply BitVec.eq_of_getLsbD_eq
  intro i
  simp only [getLsbD_wdata, maskedRead, BitVec.getLsbD_setWidth, i.isLt, decide_True,
    Bool.true_and, Bool.and_iff_right_iff_imp, decide_eq_true_eq]
  omega

theorem wdata_or (x y : BitVec 32) : wdata (x ||| y) = wdata x ||| wdata y := by
  apply BitVec.eq_of_getLsbD_eq
  intro i
  simp [Bool.and_or_distrib_left]

@[simp] theorem wdata_BITS_WMSK (msk : BitVec 32) (shift : Nat) :
    wdata (BITS_WMSK msk shift) = 0 := by
  apply BitVec.eq_of_getLsbD_eq
  intro i
  simp [BITS_WMSK, REG_MSK_SHIFT]
  omega

theorem wmask_or (x y : BitVec 32) : wmask (x ||| y) = wmask x ||| wmask y := by
  apply BitVec.eq_of_getLsbD_eq
  intro i
  simp [Bool.and_or_distrib_left]

@[simp] theorem wmask_maskedRead (r : BitVec 16) : wmask (maskedRead r) = 0 := by
  apply BitVec.eq_of_getLsbD_eq
  intro i
  simp [maskedRead]

/-- A word written with `BITS_WITH_WMASK(.., 0xffff, 0)` enables all sixteen bits. -/
theorem wmask_BITS_WITH_WMASK_ffff (x : BitVec 32) :
    wmask (BITS_WITH_WMASK x 0xffff#32 0) = BitVec.allOnes 16 := by
  rw [BITS_WITH_WMASK, wmask_or, show wmask (BITS_WMSK 0xffff#32 0) = BitVec.allOnes 16 by decide,
    BitVec.or_allOnes]

/-! ### Write sequences -/

/-- The register after the writes `ws`, in order, starting from `r`. -/
def applyWrites (r : BitVec 16) (ws : List (BitVec 32)) : BitVec 16 :=
  ws.foldl maskedWrite r

/-- The union of the write-enable masks of `ws`. -/
def masksOf (ws : List (BitVec 32)) : BitVec 16 :=
  ws.foldr (fun w m => wmask w ||| m) 0

@[simp] theorem applyWrites_nil (r : BitVec 16) : applyWrites r [] = r := rfl

@[simp] theorem applyWrites_cons (r : BitVec 16) (w : BitVec 32) (ws : List (BitVec 32)) :
    applyWrites r (w :: ws) = applyWrites (maskedWrite r w) ws := rfl

theorem applyWrites_append (r : BitVec 16) (ws ws' : List (BitVec 32)) :
    applyWrites r (ws ++ ws') = applyWrites (applyWrites r ws) ws' :=
  List.foldl_append _ _ _ _

@[simp] theorem getLsbD_masksOf_cons (w : BitVec 32) (ws : List (BitVec 32)) (i : Nat) :
    (masksOf (w :: ws)).getLsbD i = ((wmask w).getLsbD i || (masksOf ws).getLsbD i) :=
  BitVec.getLsbD_or

/-- **Frame.** A bit that no write of `ws` enables keeps its value. -/
theorem getLsbD_applyWrites_of_not_mem (r : BitVec 16) (ws : List (BitVec 32)) {i : Nat}
    (h : (masksOf ws).getLsbD i = false) : (applyWrites r ws).getLsbD i = r.getLsbD i := by
  induction ws generalizing r with
  | nil => rfl
  | cons w ws ih =>
    simp only [getLsbD_masksOf_cons, Bool.or_eq_false_iff] at h
    rw [applyWrites_cons, ih _ h.2, getLsbD_maskedWrite, h.1, if_neg Bool.false_ne_true]

/-- **Overwrite.** When every write of `ws` carries the data `d`, a bit that one
of them enables ends as the bit of `d`. -/
theorem getLsbD_applyWrites_of_mem (r d : BitVec 16) (ws : List (BitVec 32)) {i : Nat}
    (hd : ∀ w ∈ ws, wdata w = d) (h : (masksOf ws).getLsbD i = true) :
    (applyWrites r ws).getLsbD i = d.getLsbD i := by
  induction ws generalizing r with
  | nil => simp [masksOf] at h
  | cons w ws ih =>
    rw [applyWrites_cons]
    by_cases hrest : (masksOf ws).getLsbD i = true
    · exact ih _ (fun v hv => hd v (List.mem_cons_of_mem _ hv)) hrest
    · have hw : (wmask w).getLsbD i = true := by simpa [hrest] using h
      rw [getLsbD_applyWrites_of_not_mem _ _ (by simpa using hrest), getLsbD_maskedWrite,
        if_pos hw, hd w (List.mem_cons_self _ _)]

/-- **The round trip.** Power-down writes `down` followed by restore writes `up`
that all carry the saved content `r` give `r` back, provided every bit a
power-down write enables is enabled by some restore write. -/
theorem applyWrites_restore (r : BitVec 16) (down up : List (BitVec 32))
    (hcover : masksOf down &&& ~~~masksOf up = 0) (hdata : ∀ w ∈ up, wdata w = r) :
    applyWrites (applyWrites r down) up = r := by
  apply BitVec.eq_of_getLsbD_eq
  intro i
  by_cases hu : (masksOf up).getLsbD i = true
  · exact getLsbD_applyWrites_of_mem _ _ _ hdata hu
  · have hd : (masksOf down).getLsbD i = false := by
      have := congrArg (BitVec.getLsbD · i) hcover
      simp only [BitVec.getLsbD_and, BitVec.getLsbD_not, BitVec.getLsbD_zero] at this
      simpa [hu, i.isLt] using this
    rw [getLsbD_applyWrites_of_not_mem _ _ (by simpa using hu),
      getLsbD_applyWrites_of_not_mem _ _ hd]

/-! ### Bits decided by their own writes -/

theorem getLsbD_applyWrites_congr {r r' : BitVec 16} (ws : List (BitVec 32)) {i : Nat}
    (h : r.getLsbD i = r'.getLsbD i) :
    (applyWrites r ws).getLsbD i = (applyWrites r' ws).getLsbD i := by
  induction ws generalizing r r' with
  | nil => exact h
  | cons w ws ih =>
    exact ih (by rw [getLsbD_maskedWrite, getLsbD_maskedWrite, h])

/-- Bit `i` of the register is decided by the writes whose mask names bit `i`:
every other write may be dropped, wherever it stands. -/
theorem getLsbD_applyWrites_filter (r : BitVec 16) (ws : List (BitVec 32)) (i : Nat) :
    (applyWrites r ws).getLsbD i =
      (applyWrites r (ws.filter fun w => (wmask w).getLsbD i)).getLsbD i := by
  induction ws generalizing r with
  | nil => rfl
  | cons w ws ih =>
    by_cases hw : (wmask w).getLsbD i = true
    · simp only [List.filter_cons, hw, if_true, applyWrites_cons, ih]
    · simp only [List.filter_cons, hw, if_false, Bool.false_eq_true, applyWrites_cons, ih]
      exact getLsbD_applyWrites_congr _ (by simp [getLsbD_maskedWrite, hw])

end Optee.Rk322x

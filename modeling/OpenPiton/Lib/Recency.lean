import Mathlib.Data.Finset.Max
import Mathlib.Data.Fintype.EquivFin
import Mathlib.Data.List.Basic

namespace OpenPiton.Recency

variable {ε : Type*} [Fintype ε] [DecidableEq ε]

/-- The elements with an update after the last of `e`, in a log with the last update first. -/
def newer (log : List ε) (e : ε) : Finset ε := Finset.univ.filter fun d => log.idxOf d < log.idxOf e

/-- Counters of age when `w` is updated: `w` gets the highest value, and the counters above its old one go down. -/
def touch (counter : ε → Nat) (w e : ε) : Nat :=
  if e = w then Fintype.card ε - 1 else if counter w < counter e then counter e - 1 else counter e

/-- The counters count down from the highest value by the updates of others, and are zero before the first update. -/
structure Ordered (log : List ε) (counter : ε → Nat) : Prop where
  logged : ∀ e ∈ log, counter e + (newer log e).card + 1 = Fintype.card ε
  fresh : ∀ e ∉ log, counter e = 0

variable {log : List ε} {counter : ε → Nat} {d e w : ε}

theorem mem_newer : d ∈ newer log e ↔ log.idxOf d < log.idxOf e := by
  simp [newer]

theorem notMem_newer_self (log : List ε) (e : ε) : e ∉ newer log e := by
  rw [mem_newer]
  exact Nat.lt_irrefl _

theorem newer_head (log : List ε) (w : ε) : newer (w :: log) w = ∅ := by
  ext d
  simp [mem_newer]

theorem newer_cons (h : e ≠ w) : newer (w :: log) e = insert w (newer log e) := by
  ext d
  rw [Finset.mem_insert, mem_newer, mem_newer, List.idxOf_cons_ne log h.symm]
  by_cases hd : d = w
  · simp [hd]
  · rw [List.idxOf_cons_ne log (Ne.symm hd), Nat.succ_lt_succ_iff]
    simp [hd]

theorem newer_ssubset (h : log.idxOf d < log.idxOf e) : newer log d ⊂ newer log e := by
  rw [Finset.ssubset_iff_of_subset]
  · exact ⟨d, mem_newer.mpr h, notMem_newer_self log d⟩
  · intro c hc
    rw [mem_newer] at hc ⊢
    exact hc.trans h

namespace Ordered

variable (h : Ordered log counter)

include h

theorem lt_iff (hd : d ∈ log) (he : e ∈ log) : counter d < counter e ↔ log.idxOf e < log.idxOf d := by
  have hcd := h.logged d hd
  have hce := h.logged e he
  constructor
  · intro hlt
    by_contra hge
    obtain hlt' | heq := Nat.lt_or_eq_of_le (Nat.not_lt.mp hge)
    · have := Finset.card_lt_card (newer_ssubset hlt')
      omega
    · rw [(List.idxOf_inj hd).mp heq] at hlt
      exact Nat.lt_irrefl _ hlt
  · intro hlt
    have := Finset.card_lt_card (newer_ssubset hlt)
    omega

theorem inj (hd : d ∈ log) (he : e ∈ log) (heq : counter d = counter e) : d = e := by
  rw [← List.idxOf_inj hd]
  have hde := h.lt_iff hd he
  have hed := h.lt_iff he hd
  omega

theorem pos_of_fresh (he : e ∈ log) (hw : w ∉ log) : 0 < counter e := by
  have hc := h.logged e he
  have hsub : newer log e ⊆ (Finset.univ.erase w).erase e := by
    intro d hd
    rw [mem_newer] at hd
    have hlt := hd.trans_le List.idxOf_le_length
    refine Finset.mem_erase.mpr ⟨?_, Finset.mem_erase.mpr ⟨?_, Finset.mem_univ d⟩⟩
    · rintro rfl
      exact Nat.lt_irrefl _ hd
    · rintro rfl
      rw [List.idxOf_eq_length hw] at hlt
      exact Nat.lt_irrefl _ hlt
  have hne : e ≠ w := fun hew => hw (hew ▸ he)
  have hcard := Finset.card_le_card hsub
  rw [Finset.card_erase_of_mem (Finset.mem_erase.mpr ⟨hne, Finset.mem_univ e⟩),
    Finset.card_erase_of_mem (Finset.mem_univ w), Finset.card_univ] at hcard
  have : 1 < Fintype.card ε := Fintype.one_lt_card_iff.mpr ⟨e, w, hne⟩
  omega

/-- The counter of another element goes down exactly when it was updated after the last update of `w`. -/
theorem lt_iff_newer (he : e ∈ log) (hne : e ≠ w) : counter w < counter e ↔ w ∉ newer log e := by
  rw [mem_newer]
  by_cases hw : w ∈ log
  · rw [h.lt_iff hw he]
    have : log.idxOf w ≠ log.idxOf e := fun hi => hne ((List.idxOf_inj hw).mp hi).symm
    omega
  · rw [h.fresh w hw, List.idxOf_eq_length hw]
    have := List.idxOf_lt_length_of_mem he
    exact iff_of_true (h.pos_of_fresh he hw) (by omega)

theorem touch (w : ε) : Ordered (w :: log) (Recency.touch counter w) where
  logged e he := by
    by_cases hew : e = w
    · subst hew
      have : 0 < Fintype.card ε := Fintype.card_pos_iff.mpr ⟨e⟩
      rw [Recency.touch, if_pos rfl, newer_head, Finset.card_empty]
      omega
    · have hel : e ∈ log := (List.mem_cons.mp he).resolve_left hew
      have hc := h.logged e hel
      rw [Recency.touch, if_neg hew, newer_cons hew, if_congr (h.lt_iff_newer hel hew) rfl rfl]
      by_cases hw : w ∈ newer log e
      · rw [if_neg (not_not_intro hw), Finset.insert_eq_of_mem hw]
        exact hc
      · have hlt := (h.lt_iff_newer hel hew).mpr hw
        rw [if_pos hw, Finset.card_insert_of_notMem hw]
        omega
  fresh e he := by
    rw [List.mem_cons, not_or] at he
    rw [Recency.touch, if_neg he.1, h.fresh e he.2, if_neg (Nat.not_lt_zero _)]

/-- Once all are updated, one counter is zero: that of the element updated longest ago. -/
theorem oldest [Nonempty ε] (hall : ∀ e, e ∈ log) :
    ∃ e, (∀ d, counter d = 0 ↔ d = e) ∧ ∀ d, d ≠ e → log.idxOf d < log.idxOf e := by
  obtain ⟨e, -, hmax⟩ := Finset.exists_max_image Finset.univ log.idxOf Finset.univ_nonempty
  have hlt : ∀ d, d ≠ e → log.idxOf d < log.idxOf e := by
    intro d hd
    refine Nat.lt_of_le_of_ne (hmax d (Finset.mem_univ d)) fun hi => hd ((List.idxOf_inj (hall d)).mp hi)
  have hnewer : newer log e = Finset.univ.erase e := by
    ext d
    rw [mem_newer, Finset.mem_erase]
    constructor
    · rintro hd
      refine ⟨?_, Finset.mem_univ d⟩
      rintro rfl
      exact Nat.lt_irrefl _ hd
    · rintro ⟨hd, -⟩
      exact hlt d hd
  have hzero : counter e = 0 := by
    have hc := h.logged e (hall e)
    rw [hnewer, Finset.card_erase_of_mem (Finset.mem_univ e), Finset.card_univ] at hc
    omega
  refine ⟨e, fun d => ⟨fun hd => h.inj (hall d) (hall e) (hd.trans hzero.symm), ?_⟩, hlt⟩
  rintro rfl
  exact hzero

end Ordered

end OpenPiton.Recency

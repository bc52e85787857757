import OpenPiton.L2.Smc

namespace OpenPiton.L2

/-- A diagnostic write is not among the operations. -/
def SmcIn.Plain (x : SmcIn) : Prop := x.wrEn = true → x.wrDiagEn = false

instance (x : SmcIn) : Decidable x.Plain := inferInstanceAs (Decidable (_ → _))

namespace Smc

variable (s : Smc) (x : SmcIn)

def Reset : Prop := s = ⟨0, 0, fun _ => ⟨0, 0, 0⟩⟩

/-- A fill whose tag no valid entry has. -/
def FillMisses : Prop := x.wrEn = true ∧ x.wrDiagEn = false ∧ s.wrHit x = none

/-- Every locked entry is valid. -/
def LocksValid : Prop := ∀ k : Fin 16, s.entryLocked.getLsbD k = true → (s.dataMem k).valid ≠ 0

/-- The fallback of the replacement is not locked, or not needed. -/
def HasRoom : Prop :=
  s.entryLocked.getLsbD 0 = false ∨ ∃ k : Fin 16, s.entryUsed.getLsbD k = false ∧ s.entryLocked.getLsbD k = false

/-- A fill locks the entry, or nothing in this cycle releases its lock. -/
def StaysLocked (k : Fin 16) : Prop :=
  x.wrEn = true ∧ s.wrIndex x = k ∧ x.smcValidIn ≠ 0 ∨
    s.entryLocked.getLsbD k = true ∧ ¬ (x.wrEn = true ∧ s.wrIndex x = k) ∧ ¬ (s.hit x = true ∧ s.hitIndex x = k)

instance (k : Fin 16) : Decidable (s.StaysLocked x k) := inferInstanceAs (Decidable (_ ∨ _))

/-- The valid bits that a flush leaves. -/
def flushedValid (k : Fin 16) : BitVec 4 :=
  let valid := (s.dataMem k).valid
  if x.addrOp = 0 then 0
  else if x.addrOp = 1 then if s.wrHit x = some k then valid &&& ~~~BitVec.twoPow 4 x.wrOffsetIn.toNat else valid
  else if x.addrOp = 2 then if sdidOf (s.dataMem k).tag = x.wrSdidIn then 0 else valid
  else valid

/-- No flush takes the last valid bit of an entry that stays locked. -/
def KeepsLocks : Prop := x.rstN = true → x.flushEn = true → ∀ k, s.StaysLocked x k → s.flushedValid x k ≠ 0

instance : Decidable (s.KeepsLocks x) := inferInstanceAs (Decidable (_ → _))

variable {s x} {k : Fin 16}

theorem getLsbD_clear (c : Prop) [Decidable c] (i : Fin 16) :
    (if c then ~~~BitVec.twoPow 16 i else BitVec.allOnes 16).getLsbD k = true ↔ ¬ (c ∧ i = k) := by
  have hlt : (k : Nat) < 16 := k.isLt
  by_cases hc : c
  · rw [if_pos hc, BitVec.getLsbD_not, BitVec.getLsbD_twoPow, decide_eq_true hlt]
    simp [hc, Fin.ext_iff]
  · rw [if_neg hc, BitVec.getLsbD_allOnes]
    simp [hc, hlt]

theorem getLsbD_set (c : Prop) [Decidable c] (i : Fin 16) :
    (if c then BitVec.twoPow 16 i else 0).getLsbD k = true ↔ c ∧ i = k := by
  by_cases hc : c
  · rw [if_pos hc, BitVec.getLsbD_twoPow]
    simp [hc, Fin.ext_iff]
  · rw [if_neg hc]
    simp [hc]

theorem hit_rdEn (h : s.hit x = true) : x.rdEn = true ∧ x.rdDiagEn = false := by
  simp only [hit, Bool.and_eq_true, Bool.not_eq_true'] at h
  exact h.1

theorem touches_iff : s.touches x = true ↔ s.hit x = true ∧ s.wrIndex x ≠ s.hitIndex x := by
  rw [touches, Bool.and_eq_true, bne_iff_ne, Bool.and_eq_true]
  constructor
  · rintro ⟨⟨-, hh⟩, hne⟩
    exact ⟨hh, hne⟩
  · rintro ⟨hh, hne⟩
    obtain ⟨hrd, hdiag⟩ := hit_rdEn hh
    exact ⟨⟨by simp [hrd, hdiag], hh⟩, hne⟩

theorem wrIndex_of_miss (h : s.FillMisses x) : s.wrIndex x = s.replaceIndex := by
  obtain ⟨hw, hd, hmiss⟩ := h
  simp [wrIndex, hw, hd, hmiss]

theorem entryLockedNext_idle (hr : x.rstN = true) (hw : x.wrEn = false) :
    s.entryLockedNext x = s.entryLocked &&&
      if s.hit x = true ∧ s.entryLocked.getLsbD (s.hitIndex x) = true then ~~~BitVec.twoPow 16 (s.hitIndex x)
      else BitVec.allOnes 16 := by
  have hand : (x.rdEn && !x.rdDiagEn && s.hit x && s.entryLocked.getLsbD (s.hitIndex x)) = true ↔
      s.hit x = true ∧ s.entryLocked.getLsbD (s.hitIndex x) = true := by
    rw [Bool.and_eq_true, Bool.and_eq_true]
    constructor
    · rintro ⟨⟨-, hh⟩, hl⟩
      exact ⟨hh, hl⟩
    · rintro ⟨hh, hl⟩
      obtain ⟨hrd, hdiag⟩ := hit_rdEn hh
      exact ⟨⟨by simp [hrd, hdiag], hh⟩, hl⟩
  rw [entryLockedNext, hr, hw]
  simp only [Bool.not_true, Bool.false_and, Bool.and_false, Bool.false_eq_true, if_false, hand]
  exact BitVec.or_zero

theorem entryLockedNext_fill (hr : x.rstN = true) (hw : x.wrEn = true) (hd : x.wrDiagEn = false) :
    s.entryLockedNext x = s.entryLocked &&&
      ((if x.smcValidIn = 0 then ~~~BitVec.twoPow 16 (s.wrIndex x) else BitVec.allOnes 16) &&&
        if (s.hit x = true ∧ s.wrIndex x ≠ s.hitIndex x) ∧ s.entryLocked.getLsbD (s.hitIndex x) = true then
          ~~~BitVec.twoPow 16 (s.hitIndex x)
        else BitVec.allOnes 16) |||
      if x.smcValidIn ≠ 0 then BitVec.twoPow 16 (s.wrIndex x) else 0 := by
  rw [entryLockedNext, hr, hw, hd]
  simp only [Bool.not_true, Bool.false_eq_true, if_false, Bool.not_false, Bool.and_self, if_true, Bool.true_and,
    bne_iff_ne, Bool.and_eq_true, touches_iff]

theorem entryLockedNext_iff (hx : x.Plain) :
    (s.step x).entryLocked.getLsbD k = true ↔ x.rstN = true ∧ s.StaysLocked x k := by
  change (s.entryLockedNext x).getLsbD k = true ↔ _
  cases hr : x.rstN with
  | false => simp [entryLockedNext, hr]
  | true =>
    cases hw : x.wrEn with
    | false =>
        rw [entryLockedNext_idle hr hw, BitVec.getLsbD_and, Bool.and_eq_true, getLsbD_clear, StaysLocked, hw]
        constructor
        · rintro ⟨hl, hn⟩
          exact ⟨rfl, .inr ⟨hl, fun h => Bool.false_ne_true h.1, fun ⟨hh, hk⟩ => hn ⟨⟨hh, hk ▸ hl⟩, hk⟩⟩⟩
        · rintro ⟨-, ⟨h, -⟩ | ⟨hl, -, hn⟩⟩
          · exact (Bool.false_ne_true h).elim
          · exact ⟨hl, fun ⟨⟨hh, _⟩, hk⟩ => hn ⟨hh, hk⟩⟩
    | true =>
        rw [entryLockedNext_fill hr hw (hx hw), BitVec.getLsbD_or, BitVec.getLsbD_and, BitVec.getLsbD_and,
          Bool.or_eq_true, Bool.and_eq_true, Bool.and_eq_true, getLsbD_clear, getLsbD_clear, getLsbD_set, StaysLocked, hw]
        constructor
        · rintro (⟨hl, hempty, hn⟩ | ⟨hv, hk⟩)
          · by_cases hk : s.wrIndex x = k
            · exact ⟨rfl, .inl ⟨rfl, hk, fun hv => hempty ⟨hv, hk⟩⟩⟩
            · exact ⟨rfl, .inr ⟨hl, fun h => hk h.2, fun ⟨hh, hr⟩ => hn ⟨⟨⟨hh, fun h => hk (h.trans hr)⟩, hr ▸ hl⟩, hr⟩⟩⟩
          · exact ⟨rfl, .inl ⟨rfl, hk, hv⟩⟩
        · rintro ⟨-, ⟨-, hk, hv⟩ | ⟨hl, hk, hn⟩⟩
          · exact .inr ⟨hv, hk⟩
          · exact .inl ⟨hl, fun h => hk ⟨rfl, h.2⟩, fun ⟨⟨⟨hh, _⟩, _⟩, hr⟩ => hn ⟨hh, hr⟩⟩

/-- The entry that a missing fill replaces is unlocked exactly when there is room. -/
theorem replaceIndex_iff : s.entryLocked.getLsbD s.replaceIndex = false ↔ s.HasRoom := by
  rw [replaceIndex]
  cases hp : priorityEncoder fun k => !s.entryUsed.getLsbD k && !s.entryLocked.getLsbD k with
  | some k =>
      have hk := priorityEncoder_spec hp
      rw [Bool.and_eq_true, Bool.not_eq_true', Bool.not_eq_true'] at hk
      exact ⟨fun _ => .inr ⟨k, hk⟩, fun _ => hk.2⟩
  | none =>
      refine ⟨.inl, ?_⟩
      rintro (h | ⟨k, hu, hl⟩)
      · exact h
      · have hk := priorityEncoder_none hp k
        rw [hu, hl] at hk
        cases hk

theorem valid_flush (hr : x.rstN = true) (hf : x.flushEn = true) (hx : x.Plain) :
    ((s.step x).dataMem k).valid = s.flushedValid x k := by
  change (s.dataMemNext x k).valid = _
  rw [dataMemNext, flushedValid, hr, hf]
  simp only [Bool.not_true, Bool.false_eq_true, if_false, if_true]
  by_cases h0 : x.addrOp = 0
  · rw [if_pos h0, if_pos h0]
    rfl
  rw [if_neg h0, if_neg h0]
  by_cases h1 : x.addrOp = 1
  · rw [if_pos h1, if_pos h1]
    cases hh : s.wrHit x with
    | none => simp
    | some j =>
        have hindex : s.wrIndex x = j := by
          have hdiag : (x.wrEn && x.wrDiagEn) = false := by
            cases hw : x.wrEn with
            | false => rfl
            | true => rw [hx hw, Bool.and_false]
          rw [wrIndex, hdiag, if_neg Bool.false_ne_true, hf, Bool.true_or, if_pos rfl, hh, Option.getD_some]
        rw [Option.isSome_some, if_pos rfl, hindex]
        by_cases hk : j = k
        · rw [hk, Function.update_self, if_pos rfl]
        · rw [Function.update_of_ne (Ne.symm hk), if_neg (fun h => hk (Option.some.inj h))]
  rw [if_neg h1, if_neg h1]
  by_cases h2 : x.addrOp = 2
  · rw [if_pos h2, if_pos h2]
    by_cases hs : sdidOf (s.dataMem k).tag = x.wrSdidIn
    · rw [if_pos hs]
      by_cases hv : (s.dataMem k).valid = 0
      · simp [hs, hv]
      · rw [hs, beq_self_eq_true, Bool.true_and, if_pos (bne_iff_ne.mpr hv)]
        rfl
    · simp [hs]
  · rw [if_neg h2, if_neg h2]

/-- Locked entries stay valid exactly over the steps in which no flush takes the bits of one. -/
theorem LocksValid.step_iff (h : s.LocksValid) (hx : x.Plain) : (s.step x).LocksValid ↔ s.KeepsLocks x := by
  constructor
  · intro hnext hr hf k hk
    rw [← valid_flush hr hf hx]
    exact hnext k ((entryLockedNext_iff hx).mpr ⟨hr, hk⟩)
  · intro hkeep k hl
    obtain ⟨hr, hk⟩ := (entryLockedNext_iff hx).mp hl
    cases hf : x.flushEn with
    | true =>
        rw [valid_flush hr hf hx]
        exact hkeep hr hf k hk
    | false =>
        change (s.dataMemNext x k).valid ≠ 0
        rw [dataMemNext, hr, hf]
        simp only [Bool.not_true, Bool.false_eq_true, if_false]
        rcases hk with ⟨hw, hkw, hv⟩ | ⟨hl', hkw, -⟩
        · rw [hw, hx hw, if_pos rfl, hkw, Function.update_self]
          exact hv
        · by_cases hw : x.wrEn = true
          · rw [if_pos hw, Function.update_of_ne fun hk => hkw ⟨hw, hk.symm⟩]
            exact h k hl'
          · rw [if_neg hw]
            exact h k hl'

/-- Over steps that flush no locked entry, locked entries are valid, and a fill that misses replaces a locked entry
exactly when no entry is left to replace. -/
theorem lock_discipline (h : Machine.Reaches Reset step (fun s x => x.Plain ∧ s.KeepsLocks x) s) :
    s.LocksValid ∧ ∀ x : SmcIn, x.Plain →
      ((s.step x).LocksValid ↔ s.KeepsLocks x) ∧
      (s.FillMisses x → (s.entryLocked.getLsbD (s.wrIndex x) = false ↔ s.HasRoom)) := by
  have hvalid : s.LocksValid := by
    refine h.invariant (P := LocksValid) ?_ ?_
    · rintro s rfl k hk
      exact (Bool.false_ne_true (BitVec.getLsbD_zero.symm.trans hk)).elim
    · intro s x hs hx
      exact (hs.step_iff hx.1).mpr hx.2
  refine ⟨hvalid, fun x hx => ⟨hvalid.step_iff hx, fun hmiss => ?_⟩⟩
  rw [wrIndex_of_miss hmiss]
  exact replaceIndex_iff

/-- A fill of all four LSIDs under a tag. -/
def fillTag (tag : BitVec 14) : SmcIn where
  rstN := true
  rdEn := false
  wrEn := true
  rdDiagEn := false
  wrDiagEn := false
  flushEn := false
  addrOp := 0
  rdAddrIn := 0
  wrAddrIn := tag ++ 0#2
  dataIn := 0x80000000800000008000000080000000#128

/-- A flush of everything. -/
def flushAll : SmcIn := { fillTag 0 with wrEn := false, flushEn := true }

def start : Smc := ⟨0, 0, fun _ => ⟨0, 0, 0⟩⟩

theorem lock_discipline_fill :
    let s := start.step (fillTag 0)
    (s.entryLocked = 1 ∧ s.FillMisses (fillTag 1)) ∧ s.LocksValid ∧ ∀ x : SmcIn, x.Plain →
      ((s.step x).LocksValid ↔ s.KeepsLocks x) ∧
      (s.FillMisses x → (s.entryLocked.getLsbD (s.wrIndex x) = false ↔ s.HasRoom)) :=
  ⟨⟨by decide +kernel, rfl, rfl, by decide +kernel⟩,
    lock_discipline (.next (.start rfl) ⟨fun _ => rfl, fun _ h => (Bool.false_ne_true h).elim⟩)⟩

/-- With sixteen fills that no lookup released, the next one replaces the first; a flush leaves the lock of an entry
that it empties. -/
theorem locks_broken :
    (¬ ∀ s, Machine.Reaches Reset step (fun _ x => x.Plain) s → ∀ x : SmcIn, x.Plain → s.FillMisses x →
      s.entryLocked.getLsbD (s.wrIndex x) = false) ∧
    ¬ ∀ s, Machine.Reaches Reset step (fun _ x => x.Plain) s → s.LocksValid := by
  have hstart : Machine.Reaches Reset step (fun _ x => x.Plain) start := .start rfl
  constructor
  · intro h
    have hrun : Machine.Reaches Reset step (fun _ x => x.Plain)
        (Machine.run step start ((List.range 16).map fun k => fillTag (BitVec.ofNat 14 k))) := hstart.run (by decide +kernel)
    have hlocked := h _ hrun (fillTag 16) (fun _ => rfl) ⟨rfl, rfl, by decide +kernel⟩
    revert hlocked
    decide +kernel
  · intro h
    have hrun : Machine.Reaches Reset step (fun _ x => x.Plain) (Machine.run step start [fillTag 0, flushAll]) :=
      hstart.run (by decide +kernel)
    have hvalid := h _ hrun 0 (by decide +kernel)
    revert hvalid
    decide +kernel

end Smc

end OpenPiton.L2

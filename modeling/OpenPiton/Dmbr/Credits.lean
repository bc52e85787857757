import OpenPiton.Dmbr.Shaper
import OpenPiton.Lib.Counter

namespace OpenPiton.Dmbr

/-- What `find?` passes over in an ordered list does not have the property. -/
theorem find?_ordered {α : Type*} {R : α → α → Prop} {p : α → Bool} {l : List α} {a b : α} (hl : l.Pairwise R)
    (h : l.find? p = some a) (hb : b ∈ l) (hp : p b = true) : b = a ∨ R a b := by
  induction hl with
  | nil => cases hb
  | @cons c l hc hl ih =>
      rw [List.find?_cons] at h
      cases hpc : p c with
      | true =>
          rw [hpc] at h
          cases h
          rcases List.mem_cons.mp hb with rfl | hb
          · exact .inl rfl
          · exact .inr (hc b hb)
      | false =>
          rw [hpc] at h
          rcases List.mem_cons.mp hb with rfl | hb
          · rw [hpc] at hp
            cases hp
          · exact ih h hb

namespace Shaper

variable {s : Shaper} {i : ShaperIn} {k : Fin 10}

theorem reached_zero (s : Shaper) (i : ShaperIn) : s.reached i 0 = true := by
  simp [reached, threshold, BitVec.le_def]

theorem number_ne_none (k : Fin 10) : BitVec.ofNat 4 (k : Nat) ≠ binNone := by
  revert k
  decide

theorem number_inj {j k : Fin 10} (h : BitVec.ofNat 4 (j : Nat) = BitVec.ofNat 4 (k : Nat)) : j = k := by
  revert j k
  decide

theorem mem_descending (hk : k ≠ 0) : k ∈ [9, 8, 7, 6, 5, 4, 3, 2, 1] := by
  revert k
  decide

theorem mem_ascending (hk : k ≠ 0) : k ∈ [1, 2, 3, 4, 5, 6, 7, 8, 9] := by
  revert k
  decide

/-- The highest bin with credit that is reached, else the lowest bin with credit, else none. -/
inductive Chooses (s : Shaper) (i : ShaperIn) : Choice → Prop
  | reached (k : Fin 10) (hc : s.hasCredit k = true) (hr : s.reached i k = true)
      (hmax : ∀ j, s.hasCredit j = true → s.reached i j = true → j ≤ k) : Chooses s i ⟨k, 0, BitVec.ofNat 4 k⟩
  | above (k : Fin 10) (hc : s.hasCredit k = true) (hr : ∀ j, s.hasCredit j = true → s.reached i j = false)
      (hmin : ∀ j, s.hasCredit j = true → k ≤ j) :
      Chooses s i ⟨k, threshold 16 s.binScale k - (s.curInterval i).setWidth 16, BitVec.ofNat 4 k⟩
  | empty (h : ∀ j, s.hasCredit j = false) : Chooses s i ⟨0, s.replenishCycles - s.repInterval, binNone⟩

theorem choice_chooses (s : Shaper) (i : ShaperIn) : s.Chooses i (s.choice i) := by
  rw [choice]
  cases hdown : [9, 8, 7, 6, 5, 4, 3, 2, 1].find? fun k => s.reached i k && s.hasCredit k with
  | some k =>
      have hk := List.find?_some hdown
      rw [Bool.and_eq_true] at hk
      apply Chooses.reached k hk.2 hk.1
      intro j hj hr
      by_cases h0 : j = 0
      · rw [h0]
        exact Fin.zero_le k
      · obtain rfl | hlt := find?_ordered (R := fun a b : Fin 10 => b < a) (by decide) hdown (mem_descending h0) (by simp [hj, hr])
        · exact Fin.le_refl j
        · exact Fin.le_of_lt hlt
  | none =>
      have hnone : ∀ j, j ≠ 0 → s.hasCredit j = true → s.reached i j = false := by
        intro j hj hc
        have := List.find?_eq_none.mp hdown j (mem_descending hj)
        simpa [hc] using this
      cases h0 : s.hasCredit 0 with
      | true =>
          apply Chooses.reached 0 h0 (reached_zero s i)
          intro j hj hr
          by_cases hj0 : j = 0
          · exact Fin.le_of_eq hj0
          · rw [hnone j hj0 hj] at hr
            cases hr
      | false =>
          have hne : ∀ j, s.hasCredit j = true → j ≠ 0 := by
            rintro j hj rfl
            rw [h0] at hj
            cases hj
          cases hup : [1, 2, 3, 4, 5, 6, 7, 8, 9].find? s.hasCredit with
          | some k =>
              have hk := List.find?_some hup
              apply Chooses.above k hk fun j hj => hnone j (hne j hj) hj
              intro j hj
              obtain rfl | hlt := find?_ordered (R := fun a b : Fin 10 => a < b) (by decide) hup (mem_ascending (hne j hj)) hj
              · exact Fin.le_refl j
              · exact Fin.le_of_lt hlt
          | none =>
              apply Chooses.empty
              intro j
              by_cases hj : j = 0
              · rw [hj, h0]
              · simpa using List.find?_eq_none.mp hup j (mem_ascending hj)

theorem toNat_threshold {w : Nat} (hw : 9 ≤ w) (hscale : 10 * 2 ^ s.binScale.toNat + 1 < 2 ^ 9) (k : Fin 10) :
    (threshold w s.binScale k).toNat = k * 2 ^ s.binScale.toNat := by
  have h9 : 2 ^ 9 ≤ 2 ^ w := Nat.pow_le_pow_right (by decide) hw
  have hk := k.isLt
  have hle : (k : Nat) * 2 ^ s.binScale.toNat ≤ 9 * 2 ^ s.binScale.toNat := Nat.mul_le_mul_right _ (by omega)
  rw [threshold, BitVec.toNat_shiftLeft, BitVec.toNat_ofNat, Nat.shiftLeft_eq, Nat.mod_eq_of_lt (a := (k : Nat)) (by omega),
    Nat.mod_eq_of_lt (by omega)]

theorem reached_iff (hscale : 10 * 2 ^ s.binScale.toNat + 1 < 2 ^ 9) (k : Fin 10) :
    s.reached i k = true ↔ k * 2 ^ s.binScale.toNat ≤ (s.curInterval i).toNat := by
  rw [reached, decide_eq_true_eq, BitVec.le_def, toNat_threshold (by decide) hscale]

/-- The bin that a miss is charged to. -/
def charged (s : Shaper) (i : ShaperIn) : Option (Fin 10) :=
  if (s.choice i).binNumber = binNone then none else some (s.choice i).bin

def number : Option (Fin 10) → BitVec 4
  | some k => BitVec.ofNat 4 k
  | none => binNone

theorem number_charged (s : Shaper) (i : ShaperIn) : number (s.charged i) = (s.choice i).binNumber := by
  have hch := s.choice_chooses i
  rw [charged]
  generalize s.choice i = c at hch
  cases hch with
  | reached k | above k =>
      rw [if_neg (number_ne_none k)]
      rfl
  | empty => rfl

theorem hasCredit_of_charged (h : s.charged i = some k) : s.hasCredit k = true ∧ (s.choice i).bin = k := by
  have hch := s.choice_chooses i
  rw [charged] at h
  generalize s.choice i = c at hch h
  cases hch with
  | reached k hk | above k hk =>
      rw [if_neg (number_ne_none k)] at h
      cases h
      exact ⟨hk, rfl⟩
  | empty => cases h

theorem charged_eq_none : s.charged i = none ↔ ∀ j, s.hasCredit j = false := by
  have hch := s.choice_chooses i
  rw [charged]
  generalize s.choice i = c at hch
  cases hch with
  | reached k hk | above k hk =>
      rw [if_neg (number_ne_none k)]
      refine iff_of_false (Option.some_ne_none k) fun h => ?_
      rw [h k] at hk
      cases hk
  | empty h => exact iff_of_true rfl h

theorem foldr_mux {en : Fin 10 → Bool} (v : Fin 10 → BitVec 6) (hen : ∀ j, en j = true → j = k) (l : List (Fin 10)) :
    l.foldr (fun j r => (if en j then v j else 0) ||| r) 0 = if k ∈ l ∧ en k = true then v k else 0 := by
  induction l with
  | nil => simp
  | cons j l ih =>
      rw [List.foldr_cons, ih]
      cases hj : en j with
      | true =>
          obtain rfl := hen j hj
          by_cases hl : j ∈ l <;> simp [hj, hl]
      | false =>
          by_cases hk : en k = true
          · have hne : k ≠ j := by
              rintro rfl
              rw [hj] at hk
              cases hk
            simp [hk, hne]
          · simp [hk]

theorem mux_eq {en : Fin 10 → Bool} (v : Fin 10 → BitVec 6) (hk : en k = true) (hen : ∀ j, en j = true → j = k) :
    mux en v = v k := by
  rw [mux, foldr_mux v hen, if_pos ⟨List.mem_finRange k, hk⟩]

theorem reqEn_unique {j : Fin 10} (hj : s.reqEn i j = true) (hk : s.reqEn i k = true) : j = k := by
  rw [reqEn, Bool.and_eq_true, beq_iff_eq] at hj hk
  exact hj.2.symm.trans hk.2

theorem addEn_unique {j : Fin 10} (hj : s.addEn i j = true) (hk : s.addEn i k = true) : j = k := by
  rw [addEn, Bool.and_eq_true, beq_iff_eq] at hj hk
  exact number_inj (hj.2.symm.trans hk.2)

theorem toNat_addOut (hrep : s.repEn = false) (hk : s.addEn i k = true) :
    (s.addOut i).toNat = min ((s.curCredit k).toNat + 1) 63 := by
  have hin : s.input2 i = s.curCredit k := by
    rw [input2, hrep]
    exact mux_eq s.curCredit hk fun j hj => addEn_unique hj hk
  have hlt := (s.curCredit k).isLt
  rw [addOut, hin]
  split
  case isTrue h =>
    rw [Counter.toNat_succ_of_lt h]
    rw [BitVec.lt_def, BitVec.toNat_allOnes] at h
    omega
  case isFalse h =>
    rw [BitVec.lt_def, BitVec.toNat_allOnes] at h
    omega

theorem toNat_reqOut (hrep : s.repEn = false) (hk : s.reqEn i k = true) :
    (s.reqOut i).toNat = (s.curCredit k).toNat - 1 := by
  have hmux : s.curCreditMux i = s.curCredit k := mux_eq s.curCredit hk fun j hj => reqEn_unique hj hk
  rw [reqOut, hrep, if_neg Bool.false_ne_true, curCreditMinusOne, hmux]
  split
  case isTrue h =>
    rw [BitVec.lt_def] at h
    exact Counter.toNat_pred h
  case isFalse h =>
    rw [BitVec.lt_def] at h
    simp only [BitVec.reduceToNat] at h
    omega

/-- A miss that finds no credit in any bin, in the cycle in which a response gives a credit back to bin 0. -/
def LosesRefund (s : Shaper) (i : ShaperIn) : Prop :=
  i.l1missIn = true ∧ (∀ k, s.hasCredit k = false) ∧ s.addEn i 0 = true

def charges (s : Shaper) (i : ShaperIn) (k : Fin 10) : Nat := if i.l1missIn = true ∧ s.charged i = some k then 1 else 0

theorem toNat_of_no_credit (h : s.hasCredit k = false) : (s.curCredit k).toNat = 0 := by
  simp only [hasCredit, decide_eq_false_iff_not, BitVec.lt_def, BitVec.reduceToNat] at h
  omega

theorem toNat_of_credit (h : s.hasCredit k = true) : 0 < (s.curCredit k).toNat := by
  simp only [hasCredit, decide_eq_true_eq, BitVec.lt_def, BitVec.reduceToNat] at h
  exact h

/-- A request is charged to the enabled bin, or the enabled bin is the dummy and has no credit. -/
theorem charges_of_reqEn (h : s.reqEn i k = true) :
    s.charges i k = 1 ∧ 0 < (s.curCredit k).toNat ∨
      s.charges i k = 0 ∧ (s.curCredit k).toNat = 0 ∧ k = 0 ∧ ∀ j, s.hasCredit j = false := by
  rw [reqEn, Bool.and_eq_true, beq_iff_eq] at h
  obtain ⟨hmiss, hbin⟩ := h
  cases hc : s.charged i with
  | some j =>
      obtain ⟨hj, hbin'⟩ := hasCredit_of_charged hc
      obtain rfl := hbin'.symm.trans hbin
      exact .inl ⟨if_pos ⟨hmiss, hc⟩, toNat_of_credit hj⟩
  | none =>
      have hnone := charged_eq_none.mp hc
      have h0 : k = 0 := by
        have hch := s.choice_chooses i
        rw [← hbin]
        generalize s.choice i = c at hch
        cases hch with
        | reached j hj | above j hj =>
            rw [hnone j] at hj
            cases hj
        | empty => rfl
      have hcharge : s.charges i k = 0 := by
        apply if_neg
        rintro ⟨-, h⟩
        rw [hc] at h
        cases h
      exact .inr ⟨hcharge, toNat_of_no_credit (hnone k), h0, hnone⟩

theorem charges_of_not_reqEn (h : s.reqEn i k = false) : s.charges i k = 0 := by
  apply if_neg
  rintro ⟨hmiss, hc⟩
  rw [reqEn, hmiss, (hasCredit_of_charged hc).2] at h
  simp at h

/-- Without a replenishment the credits change by the refunds and the charges, except that a refund to bin 0 is lost
when the dummy request is on it. -/
theorem nextCredit_iff (hrep : s.repEn = false) :
    (∀ k, (s.nextCredit i k).toNat = min ((s.curCredit k).toNat + (s.addEn i k).toNat - s.charges i k) 63) ↔
      ¬ s.LosesRefund i := by
  have hlt : ∀ k, (s.curCredit k).toNat < 64 := fun k => (s.curCredit k).isLt
  constructor
  · rintro h ⟨hmiss, hnone, hadd⟩
    have hreq : s.reqEn i 0 = true := by
      have hch := s.choice_chooses i
      rw [reqEn, hmiss]
      generalize s.choice i = c at hch
      cases hch with
      | reached j hj | above j hj =>
          rw [hnone j] at hj
          cases hj
      | empty => rfl
    have h0 := h 0
    have hcharge : s.charges i 0 = 0 := by
      apply if_neg
      rintro ⟨-, hc⟩
      rw [charged_eq_none.mpr hnone] at hc
      cases hc
    rw [nextCredit, hreq, hrep, hadd, toNat_of_no_credit (hnone 0), hcharge] at h0
    simp at h0
  · intro hkeep k
    have hk := hlt k
    cases hreq : s.reqEn i k with
    | false =>
        rw [charges_of_not_reqEn hreq]
        cases hadd : s.addEn i k with
        | false =>
            rw [nextCredit, hreq, hrep, hadd]
            simp only [Bool.toNat_false]
            omega
        | true =>
            rw [nextCredit, hreq, hrep, hadd]
            exact toNat_addOut hrep hadd
    | true =>
        cases hadd : s.addEn i k with
        | false =>
            rw [nextCredit, hreq, hrep, hadd]
            simp only [toNat_reqOut hrep hreq, Bool.toNat_false]
            rcases charges_of_reqEn hreq with ⟨hc, hpos⟩ | ⟨hc, h0, -⟩ <;> omega
        | true =>
            rw [nextCredit, hreq, hrep, hadd]
            simp only [Bool.toNat_true]
            obtain ⟨hc, hpos⟩ | ⟨-, -, rfl, hnone⟩ := charges_of_reqEn hreq
            · omega
            · refine absurd ⟨?_, hnone, hadd⟩ hkeep
              rw [reqEn, Bool.and_eq_true] at hreq
              exact hreq.1

end Shaper

/-- The shaper with the requests that wait for their response: for each such tag, the bin that was charged. -/
structure Traffic where
  shaper : Shaper
  waiting : BitVec 4 → Option (Option (Fin 10))

namespace Traffic

def step (t : Traffic) (i : ShaperIn) : Traffic where
  shaper := t.shaper.step i
  waiting :=
    let answered := if i.l2responseIn then Function.update t.waiting i.l2missTag none else t.waiting
    if i.l1missIn then Function.update answered i.l1missTag (some (t.shaper.charged i)) else answered

/-- Any settings and credits, with no request on its way. -/
def Start (t : Traffic) : Prop := (∀ tag, t.waiting tag = none) ∧ 10 * 2 ^ t.shaper.binScale.toNat + 1 < 2 ^ 9

/-- A cycle of operation: a response is to a waiting request, and a tag is not used again before its response. -/
def Operates (t : Traffic) (i : ShaperIn) : Prop :=
  (i.rst = false ∧ i.funcEn = true ∧ i.procLd = false) ∧
    (i.l2responseIn = true → (t.waiting i.l2missTag).isSome = true) ∧
    (i.l1missIn = true → t.waiting i.l1missTag = none ∨ i.l2responseIn = true ∧ i.l2missTag = i.l1missTag)

instance (t : Traffic) (i : ShaperIn) : Decidable (t.Operates i) := inferInstanceAs (Decidable (_ ∧ _ ∧ _))

/-- The responses of a cycle that give a credit back to a bin. -/
def refunds (t : Traffic) (i : ShaperIn) (k : Fin 10) : Nat :=
  if i.l2responseIn = true ∧ i.l2missIn = false ∧ t.waiting i.l2missTag = some (some k) then 1 else 0

structure Inv (t : Traffic) : Prop where
  used : ∀ tag c, t.waiting tag = some c → t.shaper.binUsed tag = Shaper.number c
  scale : 10 * 2 ^ t.shaper.binScale.toNat + 1 < 2 ^ 9

variable {t : Traffic} {i : ShaperIn}

theorem Inv.step (h : t.Inv) (hi : t.Operates i) : (t.step i).Inv := by
  obtain ⟨⟨hrst, hfunc, hld⟩, -, -⟩ := hi
  constructor
  · intro tag c hc
    simp only [Traffic.step, Shaper.step, hrst, hfunc, Bool.false_eq_true, if_false, if_true] at hc ⊢
    have hold : (if i.l2responseIn then Function.update t.waiting i.l2missTag none else t.waiting) tag = some c →
        t.shaper.binUsed tag = Shaper.number c := by
      intro hc
      split at hc
      · rw [Function.update_apply] at hc
        split at hc
        · cases hc
        · exact h.used tag c hc
      · exact h.used tag c hc
    cases hmiss : i.l1missIn with
    | false =>
        simp only [hmiss, Bool.false_eq_true, if_false] at hc ⊢
        exact hold hc
    | true =>
        simp only [hmiss, if_true] at hc ⊢
        by_cases htag : tag = i.l1missTag
        · subst htag
          rw [Function.update_self] at hc ⊢
          rw [Shaper.binNumber, if_pos hmiss, ← Option.some.inj hc, Shaper.number_charged]
        · rw [Function.update_of_ne htag] at hc ⊢
          exact hold hc
  · simp only [Traffic.step, Shaper.step, hrst, hfunc, hld, Bool.false_eq_true, if_false, if_true]
    exact h.scale

/-- The bin that the registers give a credit back to is the one that the request was charged to. -/
theorem Inv.toNat_addEn (h : t.Inv) (hi : t.Operates i) (k : Fin 10) : (t.shaper.addEn i k).toNat = t.refunds i k := by
  rw [refunds, Shaper.addEn, Shaper.addBin]
  cases hr : i.l2responseIn with
  | false => simp
  | true =>
      cases hm : i.l2missIn with
      | true => simp
      | false =>
          obtain ⟨c, hc⟩ := Option.isSome_iff_exists.mp (hi.2.1 hr)
          simp only [Bool.not_false, Bool.and_self, if_true, Bool.true_and, hc, true_and, Option.some.injEq, h.used _ c hc]
          cases c with
          | none => simpa [Shaper.number] using (Shaper.number_ne_none k).symm
          | some j =>
              by_cases hj : j = k
              · simp [Shaper.number, hj]
              · have : BitVec.ofNat 4 (j : Nat) ≠ BitVec.ofNat 4 (k : Nat) := fun he => hj (Shaper.number_inj he)
                simp [Shaper.number, hj, this]

/-- In every cycle of operation, from any settings and credits and with every order of requests and responses.
A miss is charged to the highest bin with credit whose threshold the interval has reached, else to the lowest bin with
credit, and to none only when no bin has credit; a request that was charged to no bin gives nothing back; and without a
replenishment each credit changes by the refunds less the charges, up to the highest value, exactly when the cycle does
not lose a refund. -/
theorem credits_balance (h : Machine.Reaches Start step Operates t) (hi : t.Operates i) :
    (i.l1missIn = true → ∀ k, t.shaper.charged i = some k →
      0 < (t.shaper.curCredit k).toNat ∧
        ((k * 2 ^ t.shaper.binScale.toNat ≤ t.shaper.sumCounter.toNat ∧
            ∀ j : Fin 10, 0 < (t.shaper.curCredit j).toNat → j * 2 ^ t.shaper.binScale.toNat ≤ t.shaper.sumCounter.toNat →
              j ≤ k) ∨
          (∀ j : Fin 10, 0 < (t.shaper.curCredit j).toNat → t.shaper.sumCounter.toNat < j * 2 ^ t.shaper.binScale.toNat) ∧
            ∀ j : Fin 10, 0 < (t.shaper.curCredit j).toNat → k ≤ j)) ∧
      (t.shaper.charged i = none ↔ ∀ k, t.shaper.curCredit k = 0) ∧
      (t.waiting i.l2missTag = some none → i.l2responseIn = true → ∀ k, t.shaper.addEn i k = false) ∧
      (t.shaper.repEn = false →
        ((∀ k, ((t.step i).shaper.curCredit k).toNat =
            min ((t.shaper.curCredit k).toNat + t.refunds i k - t.shaper.charges i k) (2 ^ 6 - 1)) ↔
          ¬ (i.l1missIn = true ∧ (∀ k, t.shaper.curCredit k = 0) ∧ t.refunds i 0 = 1))) := by
  have hinv : t.Inv := by
    refine h.invariant ?_ fun _ _ h hi => h.step hi
    rintro t ⟨hnone, hscale⟩
    refine ⟨fun tag c hc => ?_, hscale⟩
    rw [hnone tag] at hc
    cases hc
  have hcredit : ∀ k, t.shaper.hasCredit k = true ↔ 0 < (t.shaper.curCredit k).toNat := by
    intro k
    rw [Shaper.hasCredit, decide_eq_true_eq, BitVec.lt_def]
    rfl
  have hzero : (∀ k, t.shaper.hasCredit k = false) ↔ ∀ k, t.shaper.curCredit k = 0 := by
    refine forall_congr' fun k => ?_
    rw [← Bool.not_eq_true, hcredit, Nat.pos_iff_ne_zero, not_not, ← BitVec.toNat_inj]
    rfl
  refine ⟨?_, Shaper.charged_eq_none.trans hzero, ?_, ?_⟩
  · intro hmiss k hk
    have hcur : t.shaper.curInterval i = t.shaper.sumCounter := if_pos hmiss
    obtain ⟨hc, hbin⟩ := Shaper.hasCredit_of_charged hk
    have hch := t.shaper.choice_chooses i
    rw [Shaper.charged] at hk
    generalize t.shaper.choice i = c at hch hbin hk
    refine ⟨(hcredit k).mp hc, ?_⟩
    simp only [← hcredit, ← Nat.not_le, ← hcur, ← Shaper.reached_iff hinv.scale]
    cases hch with
    | reached j hj hr hmax =>
        obtain rfl := hbin
        exact .inl ⟨hr, hmax⟩
    | above j hj hr hmin =>
        obtain rfl := hbin
        exact .inr ⟨fun l hl => by simp [hr l hl], hmin⟩
    | empty => cases hk
  · intro hw hr k
    have hadd := hinv.toNat_addEn hi k
    rw [refunds, if_neg (by simp [hw])] at hadd
    exact Bool.toNat_eq_zero.mp hadd
  · intro hrep
    obtain ⟨⟨hrst, hfunc, hld⟩, -, -⟩ := id hi
    have hnext : (t.step i).shaper.curCredit = t.shaper.nextCredit i := by
      simp [Traffic.step, Shaper.step, hrst, hfunc, hld]
    have hiff := Shaper.nextCredit_iff (i := i) hrep
    simp only [hinv.toNat_addEn hi, ← hnext] at hiff
    refine hiff.trans ?_
    rw [Shaper.LosesRefund, hzero, ← hinv.toNat_addEn hi, Bool.toNat_eq_one]

/-- One credit, in bin 0, and no replenishment for a hundred cycles. -/
def lastCredit : Traffic where
  shaper := { Shaper.reset with
    curCredit := fun k => if k = 0 then 1 else 0
    repCredit := fun k => if k = 0 then 1 else 0
    replenishCycles := 100 }
  waiting := fun _ => none

/-- A cycle of operation with a miss, and a response from the L2 itself. -/
def traffic (miss : Option (BitVec 4)) (response : Option (BitVec 4)) : ShaperIn where
  rst := false
  funcEn := true
  stallEn := true
  procLd := false
  creditIn := fun _ => 0
  replenishCyclesIn := 0
  binScaleIn := 0
  l1missIn := miss.isSome
  l1missTag := miss.getD 0
  l2responseIn := response.isSome
  l2missIn := false
  l2missTag := response.getD 0

theorem start_lastCredit : lastCredit.Start := ⟨fun _ => rfl, by decide⟩

/-- The last credit is taken and then answered: it comes back. -/
theorem credits_balance_lastCredit :
    let t := Machine.run step lastCredit [traffic (some 3) none]
    t.shaper.curCredit 0 = 0 ∧ ((t.step (traffic none (some 3))).shaper.curCredit 0).toNat = 1 := by
  intro t
  have hreach : Machine.Reaches Start step Operates t :=
    Machine.Reaches.run (.start start_lastCredit) (by decide +kernel)
  have h := credits_balance hreach (i := traffic none (some 3)) (by decide +kernel)
  have hbal := (h.2.2.2 (by decide +kernel)).mpr (by decide +kernel) 0
  exact ⟨by decide +kernel, hbal.trans (by decide +kernel)⟩

/-- The credit that comes back in the cycle of a miss without credit is lost. -/
theorem credits_unbalanced :
    ¬ ∀ (t : Traffic) (i : ShaperIn), Machine.Reaches Start step Operates t → t.Operates i → t.shaper.repEn = false →
      ∀ k, ((t.step i).shaper.curCredit k).toNat =
        min ((t.shaper.curCredit k).toNat + t.refunds i k - t.shaper.charges i k) (2 ^ 6 - 1) := by
  intro h
  have hreach : Machine.Reaches Start step Operates (Machine.run step lastCredit [traffic (some 3) none]) :=
    Machine.Reaches.run (.start start_lastCredit) (by decide +kernel)
  have h0 := h _ (traffic (some 5) (some 3)) hreach (by decide +kernel) (by decide +kernel) 0
  revert h0
  decide +kernel

end Traffic

end OpenPiton.Dmbr

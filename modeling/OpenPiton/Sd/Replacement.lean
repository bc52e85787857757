import OpenPiton.Sd.TagSets

namespace OpenPiton.Sd

theorem lower_append {n k : Nat} (x : BitVec n) (y : BitVec k) : lower (x ++ y) = y := by
  apply BitVec.eq_of_getLsbD_eq
  intro i hi
  simp only [lower]
  grind

theorem upper_append {n k : Nat} (x : BitVec n) (y : BitVec k) : upper (x ++ y) = x := by
  apply BitVec.eq_of_getLsbD_eq
  intro i hi
  simp only [upper]
  grind

theorem lastOf_spec {n : Nat} {p : BitVec n → Bool} {j : BitVec n} (h : p j = true) : p (lastOf n p) = true := by
  refine foldl_last _ _ (.inr ⟨j.toNat, List.mem_range.mpr j.isLt, ?_⟩)
  rwa [BitVec.ofNat_toNat, BitVec.setWidth_eq]

theorem card_bitVec (n : Nat) : Fintype.card (BitVec n) = 2 ^ n := by
  rw [← FinEnum.card_eq_fintypeCard]
  rfl

namespace TagSet

variable {n a : Nat}

/-- The tags of an index whose entries were updated as the log says, the last first. -/
structure Keeps (log : List (BitVec n)) (t : TagSet n a) : Prop where
  valid : ∀ j, t.cacheValid j = true ↔ j ∈ log
  ordered : Recency.Ordered log fun j => (t.cacheLru j).toNat
  unique : ∀ i j, t.cacheValid i = true → t.cacheValid j = true → t.cachedAddr i = t.cachedAddr j → i = j

variable {t : TagSet n a} {log : List (BitVec n)} {addr : BitVec a} {e j : BitVec n}

theorem cacheHit_iff : t.cacheHit addr j = true ↔ t.cacheValid j = true ∧ t.cachedAddr j = addr := by
  rw [cacheHit, Bool.and_eq_true, beq_iff_eq]

theorem toNat_cacheLru_write (t : TagSet n a) (e : BitVec n) (addr : BitVec a) (d : Bool) :
    (fun j => ((t.write e addr d).cacheLru j).toNat) = Recency.touch (fun j => (t.cacheLru j).toNat) e := by
  funext j
  simp only [write, Recency.touch, card_bitVec, BitVec.lt_def]
  split
  case isTrue =>
    rw [BitVec.toNat_ofNat, Nat.mod_eq_of_lt (Nat.sub_lt (Nat.two_pow_pos n) Nat.one_pos)]
  case isFalse =>
    split
    case isTrue hlt =>
      exact Counter.toNat_pred (by omega)
    case isFalse => rfl

theorem Keeps.write (h : t.Keeps log) (hits : ∀ j, t.cacheHit addr j = true → j = e) (d : Bool) :
    (t.write e addr d).Keeps (e :: log) where
  valid j := by
    rw [List.mem_cons, ← h.valid]
    by_cases hj : j = e
    · simp [TagSet.write, hj]
    · simp [TagSet.write, hj]
  ordered := by
    rw [toNat_cacheLru_write]
    exact h.ordered.touch e
  unique i j hi hj ha := by
    simp only [TagSet.write, Function.update_apply] at hi hj ha
    by_cases hie : i = e
    · by_cases hje : j = e
      · rw [hie, hje]
      · rw [if_neg hje] at hj ha
        rw [if_pos hie] at ha
        exact absurd (hits j (cacheHit_iff.mpr ⟨hj, ha.symm⟩)) hje
    · rw [if_neg hie] at hi ha
      by_cases hje : j = e
      · rw [if_pos hje] at ha
        exact absurd (hits i (cacheHit_iff.mpr ⟨hi, ha⟩)) hie
      · rw [if_neg hje] at hj ha
        exact h.unique i j hi hj ha

theorem Keeps.entryLkp_of_hit (h : t.Keeps log) (hj : t.cacheHit addr j = true) : j = t.entryLkp addr := by
  have hhit : t.hitLkp addr = true := decide_eq_true ⟨j, hj⟩
  have he : t.cacheHit addr (t.entryLkp addr) = true := by
    rw [entryLkp, if_pos hhit]
    exact lastOf_spec hj
  rw [cacheHit_iff] at hj he
  exact h.unique _ _ hj.1 he.1 (hj.2.trans he.2.symm)

theorem Keeps.hit_of_valid (h : t.Keeps log) (he : t.cacheValid e = true) (ha : t.cachedAddr e = addr)
    (hj : t.cacheHit addr j = true) : j = e := by
  rw [cacheHit_iff] at hj
  exact h.unique _ _ hj.1 he (hj.2.trans ha.symm)

/-- With every entry valid, the lookup of a missing block returns the one entry with counter zero, and that
entry was updated longest ago. -/
theorem Keeps.victim (h : t.Keeps log) (hall : ∀ j, t.cacheValid j = true) (hmiss : t.hitLkp addr = false) :
    (∀ j, t.cacheLru j = 0 ↔ j = t.entryLkp addr) ∧
      ∀ j, j ≠ t.entryLkp addr → log.idxOf j < log.idxOf (t.entryLkp addr) := by
  obtain ⟨e, hzero, hold⟩ := h.ordered.oldest fun j => (h.valid j).mp (hall j)
  have hlru : ∀ j, t.cacheLru j = 0 ↔ j = e := by
    intro j
    have h0 : (0 : BitVec n).toNat = 0 := BitVec.toNat_zero
    rw [← hzero j, ← BitVec.toNat_inj, h0]
  have hlkp : t.entryLkp addr = e := by
    rw [entryLkp, if_neg (by simp [hmiss]), if_neg (by simp [hall]), ← hlru, ← beq_iff_eq]
    exact lastOf_spec (p := fun j => t.cacheLru j == 0) (beq_iff_eq.mpr ((hlru e).mpr rfl))
  rw [hlkp]
  exact ⟨hlru, hold⟩

end TagSet

/-- The cache manager with the entries of each index in the order of their updates, the last first. -/
structure LoggedManager (n k a : Nat) where
  manager : SizedManager n k a
  log : BitVec k → List (BitVec n)

namespace LoggedManager

variable {n k a : Nat}

def Reset (s : LoggedManager n k a) : Prop := s.manager.Reset ∧ s.log = fun _ => []

def logNext (s : LoggedManager n k a) : BitVec k → List (BitVec n) :=
  match s.manager.update with
  | some (e, _) => Function.update s.log (lower e) (upper e :: s.log (lower e))
  | none => s.log

def step (flushWaitTime : BitVec 24) (s : LoggedManager n k a) (i : SizedIn k a) : LoggedManager n k a :=
  ⟨s.manager.step flushWaitTime i, s.logNext⟩

/-- The block that an entry has. -/
def block (s : LoggedManager n k a) (e : BitVec (n + k)) : Option (BitVec (a + k)) :=
  if (s.manager.tags (lower e)).cacheValid (upper e) then
    some ((s.manager.tags (lower e)).cachedAddr (upper e) ++ lower e)
  else none

/-- The states between the lookup and the update it is for. -/
def afterLookup : CacheState → Prop
  | .writebackIssue | .writebackWait | .fillIssue | .fillWait | .update => True
  | _ => False

/-- The states between the scan that finds a dirty entry and its update. -/
def flushing : CacheState → Prop
  | .flushIssue | .flushWait | .flushUpdate => True
  | _ => False

structure Inv (s : LoggedManager n k a) : Prop where
  keeps : ∀ x, (s.manager.tags x).Keeps (s.log x)
  lkp : afterLookup s.manager.state → ∀ x,
    s.manager.entryLkpIndexedF x = (s.manager.tags x).entryLkp (upper s.manager.coreCacheAddrF)
  query : flushing s.manager.state →
    (s.manager.tags (lower s.manager.cacheEntryQueryF)).cacheValid (upper s.manager.cacheEntryQueryF) = true ∧
      (s.manager.tags (lower s.manager.cacheEntryQueryF)).cachedAddr (upper s.manager.cacheEntryQueryF) =
        upper s.manager.cacheAddrQueryF

variable {w : BitVec 24} {s : LoggedManager n k a} {i : SizedIn k a}

/-- An update writes an entry that is the only one to have the block, if any has it. -/
theorem Inv.hits (h : s.Inv) {e : BitVec (n + k)} {addr : BitVec a} {d : Bool}
    (hu : s.manager.update = some (e, addr, d)) {j : BitVec n}
    (hj : (s.manager.tags (lower e)).cacheHit addr j = true) : j = upper e := by
  have hkeeps := h.keeps (lower e)
  rw [SizedManager.update] at hu
  split at hu
  case h_1 hs =>
    injection hu with hu
    injection hu with he hu
    injection hu with ha hd
    subst he ha
    rw [SizedManager.cacheEntryLkpF, lower_append] at hj hkeeps
    rw [SizedManager.cacheEntryLkpF, upper_append, h.lkp (by rw [hs]; trivial)]
    exact hkeeps.entryLkp_of_hit hj
  case h_2 hs =>
    injection hu with hu
    injection hu with he hu
    injection hu with ha hd
    subst he ha
    obtain ⟨hv, ha⟩ := h.query (by rw [hs]; trivial)
    exact hkeeps.hit_of_valid hv ha hj
  case h_3 => cases hu

theorem Inv.keeps_step (h : s.Inv) (x : BitVec k) : ((s.step w i).manager.tags x).Keeps ((s.step w i).log x) := by
  change (s.manager.tagsNext x).Keeps (s.logNext x)
  rw [SizedManager.tagsNext, logNext]
  cases hu : s.manager.update with
  | none => exact h.keeps x
  | some u =>
      obtain ⟨e, addr, d⟩ := u
      dsimp only
      by_cases hx : x = lower e
      · subst hx
        rw [Function.update_self, Function.update_self]
        exact (h.keeps (lower e)).write (fun j hj => h.hits hu hj) d
      · rw [Function.update_of_ne hx, Function.update_of_ne hx]
        exact h.keeps x

theorem lkp_step (hs : afterLookup (s.step w i).manager.state) :
    (s.step w i).manager.tags = s.manager.tags ∧ (s.step w i).manager.coreCacheAddrF = s.manager.coreCacheAddrF := by
  obtain ⟨⟨state⟩, log⟩ := s
  cases state with
  | lookup | writebackIssue | writebackWait | fillIssue | fillWait => exact ⟨rfl, rfl⟩
  | idle =>
      simp only [step, SizedManager.step, SizedManager.stateNext] at hs
      split at hs
      · exact hs.elim
      · split at hs <;> exact hs.elim
  | update => exact hs.elim
  | lock =>
      simp only [step, SizedManager.step, SizedManager.stateNext] at hs
      split at hs <;> exact hs.elim
  | flushScan =>
      simp only [step, SizedManager.step, SizedManager.stateNext] at hs
      split at hs
      · exact hs.elim
      · split at hs
        · exact hs.elim
        · split at hs <;> exact hs.elim
  | flushIssue =>
      simp only [step, SizedManager.step, SizedManager.stateNext] at hs
      split at hs <;> exact hs.elim
  | flushWait =>
      simp only [step, SizedManager.step, SizedManager.stateNext] at hs
      split at hs
      · split at hs <;> exact hs.elim
      · exact hs.elim
  | flushUpdate =>
      simp only [step, SizedManager.step, SizedManager.stateNext] at hs
      split at hs <;> exact hs.elim

theorem query_step (hs : flushing (s.step w i).manager.state) :
    s.manager.state = .flushScan ∧ s.manager.cacheDirtyQuery = true ∨
      flushing s.manager.state ∧ (s.step w i).manager.tags = s.manager.tags ∧
        (s.step w i).manager.cacheEntryQueryF = s.manager.cacheEntryQueryF ∧
        (s.step w i).manager.cacheAddrQueryF = s.manager.cacheAddrQueryF := by
  obtain ⟨⟨state⟩, log⟩ := s
  cases state with
  | flushIssue | flushWait => exact .inr ⟨trivial, rfl, rfl, rfl⟩
  | flushScan =>
      simp only [step, SizedManager.step, SizedManager.stateNext] at hs
      split at hs
      · exact hs.elim
      · split at hs
        case isTrue hd => exact .inl ⟨rfl, hd⟩
        case isFalse => split at hs <;> exact hs.elim
  | idle =>
      simp only [step, SizedManager.step, SizedManager.stateNext] at hs
      split at hs
      · exact hs.elim
      · split at hs <;> exact hs.elim
  | lookup =>
      simp only [step, SizedManager.step, SizedManager.stateNext] at hs
      split at hs
      · exact hs.elim
      · split at hs <;> exact hs.elim
  | writebackWait | fillWait =>
      simp only [step, SizedManager.step, SizedManager.stateNext] at hs
      split at hs
      · split at hs <;> exact hs.elim
      · exact hs.elim
  | update => exact hs.elim
  | writebackIssue | fillIssue | lock | flushUpdate =>
      simp only [step, SizedManager.step, SizedManager.stateNext] at hs
      split at hs <;> exact hs.elim

theorem Inv.step (h : s.Inv) : (s.step w i).Inv where
  keeps := h.keeps_step
  lkp hs x := by
    obtain ⟨htags, haddr⟩ := lkp_step hs
    rw [htags, haddr]
    rfl
  query hs := by
    obtain ⟨hscan, hd⟩ | ⟨hf, htags, he, ha⟩ := query_step hs
    · have htags : (s.step w i).manager.tags = s.manager.tags := by
        simp only [LoggedManager.step, SizedManager.step, SizedManager.tagsNext, SizedManager.update, hscan]
      have he : (s.step w i).manager.cacheEntryQueryF = s.manager.cacheEntryScan := if_pos hscan
      have ha : (s.step w i).manager.cacheAddrQueryF =
          s.manager.tagsQuery.cachedAddr (upper s.manager.cacheEntryScan) ++ lower s.manager.cacheEntryScan := if_pos hscan
      rw [htags, he, ha, upper_append]
      rw [SizedManager.cacheDirtyQuery, TagSet.dirtyQuery, Bool.and_eq_true] at hd
      exact ⟨hd.1, rfl⟩
    · rw [htags, he, ha]
      exact h.query hf

/-- The inputs of an access that is granted, filled and released without a delay. -/
def access (b : BitVec (a + k)) : SizedIn k a := ⟨true, true, false, b, true, true, true⟩

end LoggedManager

end OpenPiton.Sd

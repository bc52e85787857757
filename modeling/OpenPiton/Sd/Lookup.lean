import OpenPiton.Lib.Counter
import OpenPiton.Sd.Cache

namespace OpenPiton.Sd

theorem toNat_append {n k : Nat} (x : BitVec n) (y : BitVec k) : (x ++ y).toNat = x.toNat * 2 ^ k + y.toNat := by
  rw [BitVec.toNat_append, ← Nat.shiftLeft_add_eq_or_of_lt y.isLt, Nat.shiftLeft_eq]

theorem toNat_extract {n : Nat} (x : BitVec n) (k j : Nat) : (x.extractLsb' k j).toNat = x.toNat / 2 ^ k % 2 ^ j := by
  rw [BitVec.extractLsb'_toNat, Nat.shiftRight_eq_div_pow]

theorem entryIndex_append (j : BitVec 2) (x : BitVec 1) : entryIndex (j ++ x) = x := by
  revert j x
  decide

theorem entryIndexed_append (j : BitVec 2) (x : BitVec 1) : entryIndexed (j ++ x) = j := by
  revert j x
  decide

theorem entry_ext : ∀ e e' : Entry, entryIndex e = entryIndex e' → entryIndexed e = entryIndexed e' → e = e' := by
  decide

theorem tag_append (t : BitVec 30) (x : BitVec 1) : tag (t ++ x) = t := by
  apply BitVec.eq_of_getLsbD_eq
  intro i hi
  simp only [tag]
  grind

theorem index_append (t : BitVec 30) (x : BitVec 1) : index (t ++ x) = x := by
  apply BitVec.eq_of_getLsbD_eq
  intro i hi
  simp only [index]
  grind

theorem tag_append_index (b : BlockNo) : tag b ++ index b = b := by
  apply BitVec.eq_of_getLsbD_eq
  intro i hi
  simp only [tag, index]
  grind

theorem foldl_last {n : Nat} {p : BitVec n → Bool} (l : List Nat) (e : BitVec n)
    (h : p e = true ∨ ∃ k ∈ l, p (BitVec.ofNat n k) = true) :
    p (l.foldl (fun e j => if p (BitVec.ofNat n j) then BitVec.ofNat n j else e) e) = true := by
  induction l generalizing e with
  | nil => simpa using h
  | cons k l ih =>
      apply ih
      dsimp only
      split
      case isTrue hk => exact .inl hk
      case isFalse hk =>
        obtain h | ⟨k', hk', h⟩ := h
        · exact .inl h
        · rcases List.mem_cons.mp hk' with rfl | hk'
          · exact absurd h hk
          · exact .inr ⟨k', hk', h⟩

theorem lastEntry_spec {p : BitVec 2 → Bool} (h : ∃ j, p j = true) : p (lastEntry p) = true := by
  obtain ⟨j, hj⟩ := h
  refine foldl_last _ _ (.inr ⟨j.toNat, List.mem_range.mpr j.isLt, ?_⟩)
  rwa [BitVec.ofNat_toNat, BitVec.setWidth_eq]

theorem tagBlock_writeTags (tags : BitVec 1 → CacheTag) (e : Entry) (addr : BitVec 30) (d : Bool) :
    tagBlock (writeTags tags e addr d) = Function.update (tagBlock tags) e (some (addr ++ entryIndex e)) := by
  funext e'
  by_cases he : e' = e
  · subst he
    simp [tagBlock, writeTags, CacheTag.write, setAt_eq]
  · rw [Function.update_of_ne he, tagBlock, tagBlock, writeTags, setAt_eq]
    by_cases hx : entryIndex e' = entryIndex e
    · have hj : entryIndexed e' ≠ entryIndexed e := fun hj => he (entry_ext _ _ hx hj)
      rw [hx, Function.update_self]
      simp [CacheTag.write, setAt_eq, hj]
    · rw [Function.update_of_ne hx]

theorem tagDirty_writeTags (tags : BitVec 1 → CacheTag) (e : Entry) (addr : BitVec 30) (d : Bool) :
    tagDirty (writeTags tags e addr d) = Function.update (tagDirty tags) e d := by
  funext e'
  by_cases he : e' = e
  · subst he
    simp [tagDirty, writeTags, CacheTag.write, setAt_eq]
  · rw [Function.update_of_ne he, tagDirty, tagDirty, writeTags, setAt_eq]
    by_cases hx : entryIndex e' = entryIndex e
    · have hj : entryIndexed e' ≠ entryIndexed e := fun hj => he (entry_ext _ _ hx hj)
      rw [hx, Function.update_self]
      simp [CacheTag.write, setAt_eq, hj]
    · rw [Function.update_of_ne hx]

namespace Manager

variable (m : Manager)

/-- The entry that the tags give out for the address looked up. -/
def entryLkp : Entry := m.tagsLkp.entryLkp (tag m.coreCacheAddrF) ++ index m.coreCacheAddrF

def addrLkp : BlockNo := m.tagsLkp.addrLkp (tag m.coreCacheAddrF) ++ index m.coreCacheAddrF

variable {m}

theorem tagBlock_index (j : BitVec 2) : tagBlock m.tags (j ++ index m.coreCacheAddrF) =
    if m.tagsLkp.cacheValid j then some (m.tagsLkp.cachedAddr j ++ index m.coreCacheAddrF) else none := by
  rw [tagBlock, entryIndex_append, entryIndexed_append, tagsLkp]

theorem cacheHit_iff (j : BitVec 2) : m.tagsLkp.cacheHit (tag m.coreCacheAddrF) j = true ↔
    tagBlock m.tags (j ++ index m.coreCacheAddrF) = some m.coreCacheAddrF := by
  rw [tagBlock_index, CacheTag.cacheHit, Bool.and_eq_true, beq_iff_eq]
  constructor
  · rintro ⟨hv, ht⟩
    rw [if_pos hv, ht, tag_append_index]
  · intro h
    split at h
    case isTrue hv =>
      refine ⟨hv, ?_⟩
      have := congrArg tag (Option.some.inj h)
      rwa [tag_append] at this
    case isFalse => cases h

theorem block_of_hit (h : m.cacheHitLkp = true) : tagBlock m.tags m.entryLkp = some m.coreCacheAddrF := by
  have hex := of_decide_eq_true h
  rw [entryLkp, CacheTag.entryLkp, if_pos (show m.tagsLkp.hitLkp (tag m.coreCacheAddrF) = true from h)]
  exact (cacheHit_iff _).mp (lastEntry_spec hex)

theorem block_of_miss (h : m.cacheHitLkp = false) (e : Entry) : tagBlock m.tags e ≠ some m.coreCacheAddrF := by
  intro he
  have hidx : entryIndex e = index m.coreCacheAddrF := by
    rw [tagBlock] at he
    split at he
    · rw [← Option.some.inj he, index_append]
    · cases he
  have hsplit : e = entryIndexed e ++ index m.coreCacheAddrF := by
    apply entry_ext
    · rw [entryIndex_append, hidx]
    · rw [entryIndexed_append]
  rw [hsplit] at he
  exact of_decide_eq_false h ⟨_, (cacheHit_iff _).mpr he⟩

theorem block_of_dirty (h : m.cacheDirtyLkp = true) :
    tagBlock m.tags m.entryLkp = some m.addrLkp ∧ tagDirty m.tags m.entryLkp = true := by
  obtain ⟨hd, hv⟩ := (Bool.and_eq_true _ _).mp h
  constructor
  · rw [entryLkp, tagBlock_index, if_pos hv]
    rfl
  · rw [tagDirty, entryLkp, entryIndex_append, entryIndexed_append]
    exact hd

theorem clean_of_not_dirty (h : m.cacheDirtyLkp = false) {b : BlockNo} (hb : tagBlock m.tags m.entryLkp = some b) :
    tagDirty m.tags m.entryLkp = false := by
  rw [entryLkp, tagBlock_index] at hb
  split at hb
  case isTrue hv =>
    rw [tagDirty, entryLkp, entryIndex_append, entryIndexed_append]
    rw [cacheDirtyLkp, CacheTag.dirtyLkp, hv, Bool.and_true] at h
    exact h
  case isFalse => cases hb

theorem entryLkp_eq {e : Entry} (hb : tagBlock m.tags e = some m.coreCacheAddrF)
    (hu : ∀ e', tagBlock m.tags e' = some m.coreCacheAddrF → e' = e) : m.entryLkp = e := by
  apply hu
  apply block_of_hit
  by_contra h
  exact block_of_miss (Bool.not_eq_true _ ▸ h) e hb

theorem query_dirty (h : m.cacheDirtyQuery = true) :
    tagBlock m.tags m.cacheEntryScan =
      some (m.tagsQuery.cachedAddr (entryIndexed m.cacheEntryScan) ++ entryIndex m.cacheEntryScan) ∧
    tagDirty m.tags m.cacheEntryScan = true := by
  obtain ⟨hv, hd⟩ := (Bool.and_eq_true _ _).mp h
  exact ⟨if_pos hv, hd⟩

end Manager

end OpenPiton.Sd

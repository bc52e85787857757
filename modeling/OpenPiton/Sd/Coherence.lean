import OpenPiton.Lib.BlockCache
import OpenPiton.Sd.Lookup
import OpenPiton.Sd.Requests

namespace OpenPiton.Sd

/-- The states that have the lock. -/
def CacheState.locked : CacheState → Bool
  | .lookup | .writebackIssue | .writebackWait | .fillIssue | .fillWait | .update | .lock => true
  | .idle | .flushScan | .flushIssue | .flushWait | .flushUpdate => false

/-- The request that the manager waits for. -/
def Manager.awaited (isHcxc : Bool) (m : Manager) : Option TmReq :=
  match m.state with
  | .writebackWait => some ⟨sdAddr isHcxc m.cacheAddrLkpF, dmaAddr m.cacheEntryLkpF, true⟩
  | .fillWait => some ⟨sdAddr isHcxc m.coreCacheAddrF, dmaAddr m.cacheEntryLkpF, false⟩
  | .flushWait => some ⟨sdAddr isHcxc m.cacheAddrQueryF, dmaAddr m.cacheEntryQueryF, true⟩
  | _ => none

/-- The registers of the lookup have what the tags give out. -/
structure Manager.Looked (m : Manager) : Prop where
  entry : m.cacheEntryLkpF = m.entryLkp
  addr : m.cacheAddrLkpF = m.addrLkp

namespace Bridge

def cache (s : Bridge) : BlockCache Entry BlockNo (BitVec 32) Block where
  block := tagBlock s.manager.tags
  dirty := tagDirty s.manager.tags
  data := s.buffer
  store := s.card

/-- The block that is asked for is in no entry, and the one in the entry for it is on the card. -/
structure Filling (cfg : Cfg) (S : Set BlockNo) (mem : BlockNo → Block) (s : Bridge) : Prop where
  holds : (s.cache.evict s.manager.cacheEntryLkpF).Holds (sdAddr cfg.isHcxc) S mem
  miss : ∀ e, tagBlock s.manager.tags e ≠ some s.manager.coreCacheAddrF
  evicted : ∀ b, tagBlock s.manager.tags s.manager.cacheEntryLkpF = some b → s.card (sdAddr cfg.isHcxc b) = mem b

/-- The buffer has the block that is asked for, in its entry. -/
inductive Ready (cfg : Cfg) (S : Set BlockNo) (mem : BlockNo → Block) (s : Bridge) : Prop
  | hit : tagBlock s.manager.tags s.manager.cacheEntryLkpF = some s.manager.coreCacheAddrF →
      s.cache.Holds (sdAddr cfg.isHcxc) S mem →
      (s.manager.coreCacheWeF = false → tagDirty s.manager.tags s.manager.cacheEntryLkpF = false) → Ready cfg S mem s
  | filled : s.Filling cfg S mem → s.buffer s.manager.cacheEntryLkpF = mem s.manager.coreCacheAddrF → Ready cfg S mem s

/-- What the cache and the card have, in each state of the manager. -/
def Stage (cfg : Cfg) (S : Set BlockNo) (mem : BlockNo → Block) (s : Bridge) : Prop :=
  let m := s.manager
  let holds := s.cache.Holds (sdAddr cfg.isHcxc) S mem
  match m.state with
  | .idle | .lookup | .flushScan => holds
  | .writebackIssue | .writebackWait => holds ∧ m.Looked ∧ (∀ e, tagBlock m.tags e ≠ some m.coreCacheAddrF) ∧
      tagBlock m.tags m.cacheEntryLkpF = some m.cacheAddrLkpF ∧ tagDirty m.tags m.cacheEntryLkpF = true
  | .fillIssue | .fillWait => m.Looked ∧ s.Filling cfg S mem
  | .update => m.Looked ∧ s.Ready cfg S mem
  | .lock => holds ∧ tagBlock m.tags m.cacheEntryLkpF = some m.coreCacheAddrF ∧
      (m.coreCacheWeF = true → tagDirty m.tags m.cacheEntryLkpF = true)
  | .flushIssue | .flushWait => holds ∧ tagBlock m.tags m.cacheEntryQueryF = some m.cacheAddrQueryF ∧
      tagDirty m.tags m.cacheEntryQueryF = true
  | .flushUpdate => holds ∧ tagBlock m.tags m.cacheEntryQueryF = some m.cacheAddrQueryF ∧
      s.card (sdAddr cfg.isHcxc m.cacheAddrQueryF) = mem m.cacheAddrQueryF

/-- The cache, the card and the transfer under way agree with a memory. -/
structure Coherent (cfg : Cfg) (S : Set BlockNo) (mem : BlockNo → Block) (s : Bridge) : Prop where
  lock : s.manager.lockStatus = s.manager.state.locked
  mapped : s.manager.lockStatus = true → s.manager.coreCacheAddrF ∈ S
  pending : s.pending = s.manager.awaited cfg.isHcxc
  stage : s.Stage cfg S mem

/-- The memory after a cycle: with the word that the core writes. -/
def memNext (mem : BlockNo → Block) (s : Bridge) (i : Input) : BlockNo → Block :=
  if s.coreWrites i then
    Function.update mem s.manager.coreCacheAddrF ((mem s.manager.coreCacheAddrF).set s.coreColumn
      (bramWrite (coreBufferSz s.core.dataSz) (s.coreBufferAddr.extractLsb' 0 3) s.core.coreBufferData
        (mem s.manager.coreCacheAddrF s.coreColumn)))
  else mem

variable {cfg : Cfg} {S : Set BlockNo} {mem : BlockNo → Block} {s : Bridge} {i : Input}

theorem coreEntry_eq : s.coreEntry = s.manager.cacheEntryLkpF := by
  rw [coreEntry, coreBufferAddr, Core.coreBufferAddr]
  apply BitVec.eq_of_getLsbD_eq
  intro i hi
  grind

theorem dmaAddr_entry : ∀ e : Entry, (dmaAddr e).extractLsb' 9 3 = e := by
  decide

theorem state_of_ce (h : s.core.coreBufferCe (s.coreIn i) = true) : s.manager.state = .update ∨ s.manager.state = .lock := by
  have hg : Core.granted (s.coreIn i) = true := by
    rw [Core.coreBufferCe] at h
    split at h
    · exact ((Bool.and_eq_true _ _).mp h).1
    · exact h
    · cases h
  have hr : s.manager.cacheCoreRdy = true := ((Bool.and_eq_true _ _).mp hg).2
  simpa [Manager.cacheCoreRdy] using hr

theorem not_coreWrites (h : s.manager.state ≠ .update) (h' : s.manager.state ≠ .lock) : s.coreWrites i = false := by
  by_contra hw
  rw [Bool.not_eq_false] at hw
  exact (state_of_ce ((Bool.and_eq_true _ _).mp hw).1).elim h h'

theorem tags_kept (h : s.manager.state ≠ .update) (h' : s.manager.state ≠ .flushUpdate) :
    (s.step cfg i).manager.tags = s.manager.tags := by
  change s.manager.tagsNext = _
  unfold Manager.tagsNext
  split
  next hs => exact absurd hs h
  next hs => exact absurd hs h'
  next => rfl

theorem buffer_kept (hw : s.coreWrites i = false) (hp : ∀ r, s.pending = some r → r.wr = true) :
    (s.step cfg i).buffer = s.buffer := by
  change s.bufferNext i = _
  rw [bufferNext, if_neg (by simp [hw])]
  split
  next sd dma hs => exact absurd (hp _ hs) Bool.false_ne_true
  next => rfl

theorem card_kept (hp : ∀ r, s.pending = some r → r.wr = false) : (s.step cfg i).card = s.card := by
  change s.cardNext i = _
  unfold cardNext
  split
  next sd dma hs => exact absurd (hp _ hs) (by simp)
  next => rfl

theorem memNext_kept (hw : s.coreWrites i = false) : s.memNext mem i = mem := if_neg (by simp [hw])

theorem cache_kept (hs : s.manager.state ≠ .update ∧ s.manager.state ≠ .lock ∧ s.manager.state ≠ .flushUpdate)
    (hp : s.pending = none) : (s.step cfg i).cache = s.cache := by
  have hw := not_coreWrites (i := i) hs.1 hs.2.1
  rw [cache, tags_kept hs.1 hs.2.2, buffer_kept hw (by simp [hp]), card_kept (by simp [hp])]
  rfl

theorem addr_kept (cfg : Cfg) (s : Bridge) (i : Input) (hs : s.manager.state ≠ .idle) (hs' : s.manager.state ≠ .flushScan) :
    (s.step cfg i).manager.coreCacheAddrF = s.manager.coreCacheAddrF ∧
      (s.step cfg i).manager.coreCacheWeF = s.manager.coreCacheWeF := by
  simp [step, Manager.step, hs, hs']

theorem query_kept (cfg : Cfg) (s : Bridge) (i : Input) (hs : s.manager.state ≠ .flushScan) :
    (s.step cfg i).manager.cacheEntryQueryF = s.manager.cacheEntryQueryF ∧
      (s.step cfg i).manager.cacheAddrQueryF = s.manager.cacheAddrQueryF := by
  simp [step, Manager.step, hs]

theorem lkp_step (h : (s.step cfg i).manager.coreCacheAddrF = s.manager.coreCacheAddrF) :
    (s.step cfg i).manager.cacheEntryLkpF = s.manager.entryLkp ∧
      (s.step cfg i).manager.cacheAddrLkpF = s.manager.addrLkp := by
  rw [Manager.cacheEntryLkpF, Manager.cacheAddrLkpF, h]
  exact ⟨rfl, rfl⟩

theorem looked_step (h : (s.step cfg i).manager.coreCacheAddrF = s.manager.coreCacheAddrF)
    (ht : (s.step cfg i).manager.tags = s.manager.tags) : (s.step cfg i).manager.Looked := by
  obtain ⟨he, ha⟩ := lkp_step h
  constructor
  · rw [he, Manager.entryLkp, Manager.entryLkp, Manager.tagsLkp, Manager.tagsLkp, h, ht]
  · rw [ha, Manager.addrLkp, Manager.addrLkp, Manager.tagsLkp, Manager.tagsLkp, h, ht]

namespace Coherent

theorem lock_free (h : s.Coherent cfg S mem) (hs : s.manager.state = .idle ∨ s.manager.state = .flushScan) :
    s.manager.lock (s.managerIn i) = s.core.cacheLockAcquire (s.coreIn i) := by
  have hl := h.lock
  rw [Manager.lock]
  rcases hs with hs | hs <;> simp [hl, hs, CacheState.locked, managerIn]

theorem step_rest (h : s.Coherent cfg S mem) (hs : s.manager.state = .idle ∨ s.manager.state = .flushScan)
    (hreq : s.locks i = true → s.core.coreCacheAddr (s.coreIn i) ∈ S) :
    (s.step cfg i).Coherent cfg S (s.memNext mem i) := by
  have hp : s.pending = none := by
    rw [h.pending]
    rcases hs with hs | hs <;> simp [Manager.awaited, hs]
  have hne : s.manager.state ≠ .update ∧ s.manager.state ≠ .lock ∧ s.manager.state ≠ .flushUpdate := by
    rcases hs with hs | hs <;> simp [hs]
  have hholds : s.cache.Holds (sdAddr cfg.isHcxc) S mem := by
    have := h.stage
    rcases hs with hs | hs <;> simpa only [Stage, hs] using this
  have hlocks : s.locks i = s.manager.lock (s.managerIn i) := by
    rcases hs with hs | hs <;> simp [locks, hs]
  have hcache : (s.step cfg i).cache = s.cache := cache_kept hne hp
  have htags : (s.step cfg i).manager.tags = s.manager.tags := tags_kept hne.1 hne.2.2
  have hpending : (s.step cfg i).pending = none := by
    change s.pendingNext cfg i = none
    rcases hs with hs | hs <;> simp [pendingNext, Manager.cacheTmGo, Manager.cacheTm, hs, hp]
  have hstatus : (s.step cfg i).manager.lockStatus = s.manager.lock (s.managerIn i) := by
    rw [lock_free h hs]
    rcases hs with hs | hs <;> simp [step, Manager.step, hs, managerIn]
  have hstate : (s.step cfg i).manager.state = s.manager.stateNext cfg.isHcxc cfg.flushWaitTime (s.managerIn i) := rfl
  rw [memNext_kept (not_coreWrites hne.1 hne.2.1)]
  have hholds' : (s.step cfg i).cache.Holds (sdAddr cfg.isHcxc) S mem := hcache ▸ hholds
  cases hl : s.manager.lock (s.managerIn i) with
  | true =>
      have hnext : (s.step cfg i).manager.state = .lookup := by
        rw [hstate, Manager.stateNext]
        rcases hs with hs | hs <;> simp [hs, hl]
      have haddr : (s.step cfg i).manager.coreCacheAddrF = s.core.coreCacheAddr (s.coreIn i) :=
        if_pos (hlocks.trans hl)
      refine ⟨?_, fun _ => ?_, ?_, ?_⟩
      · rw [hstatus, hl, hnext]
        rfl
      · rw [haddr]
        exact hreq (hlocks.trans hl)
      · rw [hpending, Manager.awaited, hnext]
      · simpa only [Stage, hnext] using hholds'
  | false =>
      have hunlocked (hst : (s.step cfg i).manager.state.locked = false) (hnone : (s.step cfg i).manager.awaited cfg.isHcxc = none)
          (hstage : (s.step cfg i).Stage cfg S mem) : (s.step cfg i).Coherent cfg S mem := by
        refine ⟨?_, fun ht => ?_, ?_, hstage⟩
        · rw [hstatus, hl, hst]
        · rw [hstatus, hl] at ht
          cases ht
        · rw [hpending, hnone]
      have hcases : (s.step cfg i).manager.state = .idle ∨ (s.step cfg i).manager.state = .flushScan ∨
          s.manager.state = .flushScan ∧ s.manager.cacheDirtyQuery = true ∧ (s.step cfg i).manager.state = .flushIssue := by
        rw [hstate, Manager.stateNext]
        rcases hs with hs | hs <;> simp only [hs, hl, Bool.false_eq_true, if_false]
        · split <;> simp
        · split
          next hd => simp [hd]
          next => split <;> simp
      rcases hcases with hn | hn | ⟨hs', hd, hn⟩
      · exact hunlocked (by rw [hn]; rfl) (by rw [Manager.awaited, hn]) (by simpa only [Stage, hn] using hholds')
      · exact hunlocked (by rw [hn]; rfl) (by rw [Manager.awaited, hn]) (by simpa only [Stage, hn] using hholds')
      · obtain ⟨hb, hdirty⟩ := Manager.query_dirty hd
        have hentry : (s.step cfg i).manager.cacheEntryQueryF = s.manager.cacheEntryScan := by
          simp [step, Manager.step, hs']
        have haddr : (s.step cfg i).manager.cacheAddrQueryF =
            s.manager.tagsQuery.cachedAddr (entryIndexed s.manager.cacheEntryScan) ++ entryIndex s.manager.cacheEntryScan := by
          simp [step, Manager.step, hs']
        refine hunlocked (by rw [hn]; rfl) (by rw [Manager.awaited, hn]) ?_
        simp only [Stage, hn, htags, hentry, haddr]
        exact ⟨hholds', hb, hdirty⟩

theorem next (h : s.Coherent cfg S mem) {mem' : BlockNo → Block} (hi : s.manager.state ≠ .idle) (hf : s.manager.state ≠ .flushScan)
    (hk : s.manager.state ≠ .lock) (hst : (s.step cfg i).manager.state.locked = s.manager.state.locked)
    (hp : (s.step cfg i).pending = (s.step cfg i).manager.awaited cfg.isHcxc) (hstage : (s.step cfg i).Stage cfg S mem') :
    (s.step cfg i).Coherent cfg S mem' := by
  have hstatus : (s.step cfg i).manager.lockStatus = s.manager.lockStatus := by
    simp only [step, Manager.step]
  refine ⟨?_, fun hl => ?_, hp, hstage⟩
  · rw [hstatus, hst, h.lock]
  · rw [(addr_kept cfg s i hi hf).1]
    exact h.mapped (hstatus ▸ hl)

theorem step_lookup (h : s.Coherent cfg S mem) (hs : s.manager.state = .lookup) (hd : ¬ s.HitsDirty) :
    (s.step cfg i).Coherent cfg S (s.memNext mem i) := by
  have hne : s.manager.state ≠ .update ∧ s.manager.state ≠ .lock ∧ s.manager.state ≠ .flushUpdate := by simp [hs]
  have hp : s.pending = none := by rw [h.pending, Manager.awaited, hs]
  have hholds : s.cache.Holds (sdAddr cfg.isHcxc) S mem := by
    simpa only [Stage, hs] using h.stage
  have hcache : (s.step cfg i).cache = s.cache := cache_kept hne hp
  have htags : (s.step cfg i).manager.tags = s.manager.tags := tags_kept hne.1 hne.2.2
  obtain ⟨haddr, hwe⟩ := addr_kept cfg s i (by simp [hs]) (by simp [hs])
  obtain ⟨hentry, hvictim⟩ := lkp_step haddr
  have hlooked := looked_step haddr htags
  have hpending : (s.step cfg i).pending = none := by
    change s.pendingNext cfg i = none
    simp [pendingNext, Manager.cacheTmGo, Manager.cacheTm, hs, hp]
  have hstate : (s.step cfg i).manager.state = s.manager.stateNext cfg.isHcxc cfg.flushWaitTime (s.managerIn i) := rfl
  have hholds' : (s.step cfg i).cache.Holds (sdAddr cfg.isHcxc) S mem := hcache ▸ hholds
  rw [memNext_kept (not_coreWrites hne.1 hne.2.1)]
  have hlocked (hst : (s.step cfg i).manager.state.locked = true) (hnone : (s.step cfg i).manager.awaited cfg.isHcxc = none)
      (hstage : (s.step cfg i).Stage cfg S mem) : (s.step cfg i).Coherent cfg S mem :=
    h.next (by simp [hs]) (by simp [hs]) hne.2.1 (by rw [hst, hs]; rfl) (hpending.trans hnone.symm) hstage
  rw [Manager.stateNext, hs] at hstate
  dsimp only at hstate
  cases hhit : s.manager.cacheHitLkp with
  | true =>
      rw [hhit, if_pos rfl] at hstate
      refine hlocked (by rw [hstate]; rfl) (by rw [Manager.awaited, hstate]) ?_
      have hb := Manager.block_of_hit hhit
      simp only [Stage, hstate]
      refine ⟨hlooked, .hit ?_ hholds' fun hw => ?_⟩
      · rw [htags, hentry, haddr]
        exact hb
      · rw [htags, hentry]
        rw [hwe] at hw
        exact Manager.clean_of_not_dirty (by_contra fun hc => hd ⟨hs, hhit, by simpa using hc, hw⟩) hb
  | false =>
      have hmiss : ∀ e, tagBlock (s.step cfg i).manager.tags e ≠ some (s.step cfg i).manager.coreCacheAddrF := by
        rw [htags, haddr]
        exact Manager.block_of_miss hhit
      rw [hhit, if_neg Bool.false_ne_true] at hstate
      cases hdirty : s.manager.cacheDirtyLkp with
      | true =>
          rw [hdirty, if_pos rfl] at hstate
          obtain ⟨hb, hdb⟩ := Manager.block_of_dirty hdirty
          refine hlocked (by rw [hstate]; rfl) (by rw [Manager.awaited, hstate]) ?_
          simp only [Stage, hstate]
          refine ⟨hholds', hlooked, hmiss, ?_, ?_⟩
          · rw [htags, hentry, hvictim]
            exact hb
          · rw [htags, hentry]
            exact hdb
      | false =>
          rw [hdirty, if_neg Bool.false_ne_true] at hstate
          refine hlocked (by rw [hstate]; rfl) (by rw [Manager.awaited, hstate]) ?_
          simp only [Stage, hstate]
          have hclean : ∀ b, (s.step cfg i).cache.block (s.step cfg i).manager.cacheEntryLkpF = some b →
              (s.step cfg i).cache.store (sdAddr cfg.isHcxc b) = mem b := by
            intro b hb
            refine hholds'.clean_eq hb ?_
            change tagBlock (s.step cfg i).manager.tags _ = _ at hb
            change tagDirty (s.step cfg i).manager.tags _ = _
            rw [htags, hentry] at hb ⊢
            exact Manager.clean_of_not_dirty hdirty hb
          exact ⟨hlooked, hholds'.evict hclean, hmiss, hclean⟩

/-- The states that offer a request go on to those that wait for its answer. -/
theorem next_issue (h : s.Coherent cfg S mem) {w : CacheState}
    (hi : s.manager.state ≠ .idle ∧ s.manager.state ≠ .flushScan ∧ s.manager.state ≠ .lock) (hp : s.pending = none)
    (hstate : s.manager.stateNext cfg.isHcxc cfg.flushWaitTime (s.managerIn i) =
      if s.manager.cacheTmGo cfg.isHcxc (s.managerIn i) then w else s.manager.state)
    (hw : w.locked = s.manager.state.locked)
    (hnone : (s.step cfg i).manager.state = s.manager.state → (s.step cfg i).manager.awaited cfg.isHcxc = none)
    (hawait : (s.step cfg i).manager.state = w →
      (s.step cfg i).manager.awaited cfg.isHcxc = s.manager.cacheTm cfg.isHcxc)
    (hstage : (s.step cfg i).manager.state = s.manager.state ∨ (s.step cfg i).manager.state = w →
      (s.step cfg i).Stage cfg S mem) : (s.step cfg i).Coherent cfg S mem := by
  have hnext : (s.step cfg i).manager.state = s.manager.stateNext cfg.isHcxc cfg.flushWaitTime (s.managerIn i) := rfl
  have hpending : (s.step cfg i).pending = s.pendingNext cfg i := rfl
  rw [pendingNext, hp, ite_self] at hpending
  rw [hstate] at hnext
  cases hgo : s.manager.cacheTmGo cfg.isHcxc (s.managerIn i) with
  | true =>
      rw [hgo, if_pos rfl] at hnext hpending
      exact h.next hi.1 hi.2.1 hi.2.2 (by rw [hnext, hw]) (by rw [hpending, hawait hnext]) (hstage (.inr hnext))
  | false =>
      rw [hgo, if_neg Bool.false_ne_true] at hnext hpending
      exact h.next hi.1 hi.2.1 hi.2.2 (by rw [hnext]) (by rw [hpending, hnone hnext]) (hstage (.inl hnext))

theorem step_writebackIssue (h : s.Coherent cfg S mem) (hs : s.manager.state = .writebackIssue) :
    (s.step cfg i).Coherent cfg S (s.memNext mem i) := by
  have hne : s.manager.state ≠ .update ∧ s.manager.state ≠ .lock ∧ s.manager.state ≠ .flushUpdate := by simp [hs]
  have hp : s.pending = none := by rw [h.pending, Manager.awaited, hs]
  obtain ⟨hholds, hlooked, hmiss, hb, hdirty⟩ : _ ∧ _ ∧ _ ∧ _ ∧ _ := by
    simpa only [Stage, hs] using h.stage
  have hcache : (s.step cfg i).cache = s.cache := cache_kept hne hp
  have htags : (s.step cfg i).manager.tags = s.manager.tags := tags_kept hne.1 hne.2.2
  obtain ⟨haddr, -⟩ := addr_kept cfg s i (by simp [hs]) (by simp [hs])
  obtain ⟨hentry, hvictim⟩ := lkp_step haddr
  rw [← hlooked.entry] at hentry
  rw [← hlooked.addr] at hvictim
  rw [memNext_kept (not_coreWrites hne.1 hne.2.1)]
  refine h.next_issue (w := .writebackWait) (by simp [hs]) hp (by rw [Manager.stateNext, hs]) (by rw [hs]; rfl)
    (fun hn => ?_) (fun hn => ?_) fun hn => ?_
  · rw [Manager.awaited, hn, hs]
  · rw [Manager.awaited, hn, Manager.cacheTm, hs, hentry, hvictim]
  · have hstage : (s.step cfg i).cache.Holds (sdAddr cfg.isHcxc) S mem ∧ (s.step cfg i).manager.Looked ∧
        (∀ e, tagBlock (s.step cfg i).manager.tags e ≠ some (s.step cfg i).manager.coreCacheAddrF) ∧
        tagBlock (s.step cfg i).manager.tags (s.step cfg i).manager.cacheEntryLkpF =
          some (s.step cfg i).manager.cacheAddrLkpF ∧
        tagDirty (s.step cfg i).manager.tags (s.step cfg i).manager.cacheEntryLkpF = true := by
      rw [hcache, htags, haddr, hentry, hvictim]
      exact ⟨hholds, looked_step haddr htags, hmiss, hb, hdirty⟩
    rw [hs] at hn
    rcases hn with hn | hn <;> simpa only [Stage, hn] using hstage

theorem step_fillIssue (h : s.Coherent cfg S mem) (hs : s.manager.state = .fillIssue) :
    (s.step cfg i).Coherent cfg S (s.memNext mem i) := by
  have hne : s.manager.state ≠ .update ∧ s.manager.state ≠ .lock ∧ s.manager.state ≠ .flushUpdate := by simp [hs]
  have hp : s.pending = none := by rw [h.pending, Manager.awaited, hs]
  obtain ⟨hlooked, hfill⟩ : _ ∧ _ := by
    simpa only [Stage, hs] using h.stage
  have hcache : (s.step cfg i).cache = s.cache := cache_kept hne hp
  have htags : (s.step cfg i).manager.tags = s.manager.tags := tags_kept hne.1 hne.2.2
  have hcard : (s.step cfg i).card = s.card := card_kept (by simp [hp])
  obtain ⟨haddr, -⟩ := addr_kept cfg s i (by simp [hs]) (by simp [hs])
  obtain ⟨hentry, -⟩ := lkp_step haddr
  rw [← hlooked.entry] at hentry
  rw [memNext_kept (not_coreWrites hne.1 hne.2.1)]
  refine h.next_issue (w := .fillWait) (by simp [hs]) hp (by rw [Manager.stateNext, hs]) (by rw [hs]; rfl)
    (fun hn => ?_) (fun hn => ?_) fun hn => ?_
  · rw [Manager.awaited, hn, hs]
  · rw [Manager.awaited, hn, Manager.cacheTm, hs, hentry, haddr]
  · have hfill' : (s.step cfg i).Filling cfg S mem := by
      constructor
      · rw [hcache, hentry]
        exact hfill.holds
      · rw [htags, haddr]
        exact hfill.miss
      · rw [htags, hentry, hcard]
        exact hfill.evicted
    rw [hs] at hn
    rcases hn with hn | hn <;> simpa only [Stage, hn] using ⟨looked_step haddr htags, hfill'⟩

theorem step_flushIssue (h : s.Coherent cfg S mem) (hs : s.manager.state = .flushIssue) :
    (s.step cfg i).Coherent cfg S (s.memNext mem i) := by
  have hne : s.manager.state ≠ .update ∧ s.manager.state ≠ .lock ∧ s.manager.state ≠ .flushUpdate := by simp [hs]
  have hp : s.pending = none := by rw [h.pending, Manager.awaited, hs]
  obtain ⟨hholds, hb, hdirty⟩ : _ ∧ _ ∧ _ := by
    simpa only [Stage, hs] using h.stage
  have hcache : (s.step cfg i).cache = s.cache := cache_kept hne hp
  have htags : (s.step cfg i).manager.tags = s.manager.tags := tags_kept hne.1 hne.2.2
  obtain ⟨hentry, haddr⟩ := query_kept cfg s i (by simp [hs])
  rw [memNext_kept (not_coreWrites hne.1 hne.2.1)]
  refine h.next_issue (w := .flushWait) (by simp [hs]) hp (by rw [Manager.stateNext, hs]) (by rw [hs]; rfl)
    (fun hn => ?_) (fun hn => ?_) fun hn => ?_
  · rw [Manager.awaited, hn, hs]
  · rw [Manager.awaited, hn, Manager.cacheTm, hs, hentry, haddr]
  · have hstage : (s.step cfg i).cache.Holds (sdAddr cfg.isHcxc) S mem ∧
        tagBlock (s.step cfg i).manager.tags (s.step cfg i).manager.cacheEntryQueryF =
          some (s.step cfg i).manager.cacheAddrQueryF ∧
        tagDirty (s.step cfg i).manager.tags (s.step cfg i).manager.cacheEntryQueryF = true := by
      rw [hcache, htags, hentry, haddr]
      exact ⟨hholds, hb, hdirty⟩
    rw [hs] at hn
    rcases hn with hn | hn <;> simpa only [Stage, hn] using hstage

/-- The states that wait for an answer go on when it is ok, and else offer the request again. -/
theorem next_wait (h : s.Coherent cfg S mem) {a b : CacheState} {r : TmReq}
    (hi : s.manager.state ≠ .idle ∧ s.manager.state ≠ .flushScan ∧ s.manager.state ≠ .lock) (hp : s.pending = some r)
    (htm : s.manager.cacheTmRdy = true ∧ s.manager.cacheTm cfg.isHcxc = none)
    (hstate : s.manager.stateNext cfg.isHcxc cfg.flushWaitTime (s.managerIn i) =
      if s.manager.tmCacheGo (s.managerIn i) then if (s.managerIn i).tmCacheOk then a else b else s.manager.state)
    (hlocked : a.locked = s.manager.state.locked ∧ b.locked = s.manager.state.locked)
    (hawait : (s.step cfg i).manager.state = s.manager.state → (s.step cfg i).manager.awaited cfg.isHcxc = some r)
    (hnone : (s.step cfg i).manager.state = a ∨ (s.step cfg i).manager.state = b →
      (s.step cfg i).manager.awaited cfg.isHcxc = none)
    (hagain : i.answer ≠ some true → (s.step cfg i).manager.state = s.manager.state ∨ (s.step cfg i).manager.state = b →
      (s.step cfg i).Stage cfg S mem)
    (hok : i.answer = some true → (s.step cfg i).manager.state = a → (s.step cfg i).Stage cfg S mem) :
    (s.step cfg i).Coherent cfg S mem := by
  have hnext : (s.step cfg i).manager.state = s.manager.stateNext cfg.isHcxc cfg.flushWaitTime (s.managerIn i) := rfl
  have hpending : (s.step cfg i).pending = s.pendingNext cfg i := rfl
  have hgo : s.manager.tmCacheGo (s.managerIn i) = i.answer.isSome := by
    rw [Manager.tmCacheGo, htm.1, Bool.true_and]
    change (i.answer.isSome && s.pending.isSome) = _
    rw [hp, Option.isSome_some, Bool.and_true]
  have hoff : s.manager.cacheTmGo cfg.isHcxc (s.managerIn i) = false := by
    rw [Manager.cacheTmGo, htm.2]
    rfl
  rw [pendingNext, hoff, if_neg Bool.false_ne_true, hgo] at hpending
  rw [hstate, hgo] at hnext
  cases ha : i.answer with
  | none =>
      rw [ha] at hnext hpending
      change _ = s.manager.state at hnext
      change _ = s.pending at hpending
      exact h.next hi.1 hi.2.1 hi.2.2 (by rw [hnext]) (by rw [hpending, hp, hawait hnext])
        (hagain (by simp [ha]) (.inl hnext))
  | some ok =>
      have hok' : (s.managerIn i).tmCacheOk = ok := by simp [managerIn, ha]
      rw [ha, hok'] at hnext
      rw [ha] at hpending
      change _ = none at hpending
      cases ok with
      | true =>
          change _ = a at hnext
          exact h.next hi.1 hi.2.1 hi.2.2 (by rw [hnext, hlocked.1]) (by rw [hpending, hnone (.inl hnext)]) (hok ha hnext)
      | false =>
          change _ = b at hnext
          exact h.next hi.1 hi.2.1 hi.2.2 (by rw [hnext, hlocked.2]) (by rw [hpending, hnone (.inr hnext)])
            (hagain (by simp [ha]) (.inr hnext))

theorem step_writebackWait (h : s.Coherent cfg S mem) (hinj : Set.InjOn (sdAddr cfg.isHcxc) S) (hs : s.manager.state = .writebackWait) :
    (s.step cfg i).Coherent cfg S (s.memNext mem i) := by
  have hne : s.manager.state ≠ .update ∧ s.manager.state ≠ .lock ∧ s.manager.state ≠ .flushUpdate := by simp [hs]
  have hp : s.pending = some ⟨sdAddr cfg.isHcxc s.manager.cacheAddrLkpF, dmaAddr s.manager.cacheEntryLkpF, true⟩ := by
    rw [h.pending, Manager.awaited, hs]
  obtain ⟨hholds, hlooked, hmiss, hb, hdirty⟩ : _ ∧ _ ∧ _ ∧ _ ∧ _ := by
    simpa only [Stage, hs] using h.stage
  have htags : (s.step cfg i).manager.tags = s.manager.tags := tags_kept hne.1 hne.2.2
  have hbuffer : (s.step cfg i).buffer = s.buffer := buffer_kept (not_coreWrites hne.1 hne.2.1) (by simp [hp])
  obtain ⟨haddr, -⟩ := addr_kept cfg s i (by simp [hs]) (by simp [hs])
  obtain ⟨hentry, hvictim⟩ := lkp_step haddr
  rw [← hlooked.entry] at hentry
  rw [← hlooked.addr] at hvictim
  have hcard : (s.step cfg i).card = Function.update s.card (sdAddr cfg.isHcxc s.manager.cacheAddrLkpF)
      (transferred i (s.buffer s.manager.cacheEntryLkpF) (s.card (sdAddr cfg.isHcxc s.manager.cacheAddrLkpF))) := by
    change s.cardNext i = _
    rw [cardNext, hp]
    dsimp only
    rw [dmaAddr_entry, setAt_eq]
  have hcache : (s.step cfg i).cache.Holds (sdAddr cfg.isHcxc) S mem := by
    rw [cache, htags, hbuffer, hcard]
    exact hholds.spoil hinj hb hdirty _
  rw [memNext_kept (not_coreWrites hne.1 hne.2.1)]
  refine h.next_wait (a := .fillIssue) (b := .writebackIssue) (by simp [hs]) hp
    (by simp [Manager.cacheTmRdy, Manager.cacheTm, hs]) (by rw [Manager.stateNext, hs]) (by rw [hs]; simp [CacheState.locked])
    (fun hn => ?_) (fun hn => ?_) (fun _ hn => ?_) fun ha hn => ?_
  · rw [Manager.awaited, hn, hs, hentry, hvictim]
  · rcases hn with hn | hn <;> rw [Manager.awaited, hn]
  · have hstage : (s.step cfg i).cache.Holds (sdAddr cfg.isHcxc) S mem ∧ (s.step cfg i).manager.Looked ∧
        (∀ e, tagBlock (s.step cfg i).manager.tags e ≠ some (s.step cfg i).manager.coreCacheAddrF) ∧
        tagBlock (s.step cfg i).manager.tags (s.step cfg i).manager.cacheEntryLkpF =
          some (s.step cfg i).manager.cacheAddrLkpF ∧
        tagDirty (s.step cfg i).manager.tags (s.step cfg i).manager.cacheEntryLkpF = true := by
      rw [htags, haddr, hentry, hvictim]
      exact ⟨hcache, looked_step haddr htags, hmiss, hb, hdirty⟩
    rw [hs] at hn
    rcases hn with hn | hn <;> simpa only [Stage, hn] using hstage
  · have hevicted : ∀ b, tagBlock (s.step cfg i).manager.tags (s.step cfg i).manager.cacheEntryLkpF = some b →
        (s.step cfg i).card (sdAddr cfg.isHcxc b) = mem b := by
      intro b hb'
      rw [htags, hentry, hb] at hb'
      obtain rfl := Option.some.inj hb'
      rw [hcard, Function.update_self, transferred, if_pos ha]
      exact hholds.data_eq hb
    simp only [Stage, hn]
    refine ⟨looked_step haddr htags, hcache.evict hevicted, ?_, hevicted⟩
    rw [htags, haddr]
    exact hmiss

theorem step_fillWait (h : s.Coherent cfg S mem) (hs : s.manager.state = .fillWait) :
    (s.step cfg i).Coherent cfg S (s.memNext mem i) := by
  have hne : s.manager.state ≠ .update ∧ s.manager.state ≠ .lock ∧ s.manager.state ≠ .flushUpdate := by simp [hs]
  have hp : s.pending = some ⟨sdAddr cfg.isHcxc s.manager.coreCacheAddrF, dmaAddr s.manager.cacheEntryLkpF, false⟩ := by
    rw [h.pending, Manager.awaited, hs]
  obtain ⟨hlooked, hfill⟩ : _ ∧ _ := by
    simpa only [Stage, hs] using h.stage
  have hmapped : s.manager.coreCacheAddrF ∈ S := h.mapped (by rw [h.lock, hs]; rfl)
  have htags : (s.step cfg i).manager.tags = s.manager.tags := tags_kept hne.1 hne.2.2
  have hcard : (s.step cfg i).card = s.card := card_kept (by simp [hp])
  obtain ⟨haddr, -⟩ := addr_kept cfg s i (by simp [hs]) (by simp [hs])
  obtain ⟨hentry, -⟩ := lkp_step haddr
  rw [← hlooked.entry] at hentry
  have hbuffer : (s.step cfg i).buffer = Function.update s.buffer s.manager.cacheEntryLkpF
      (transferred i (s.card (sdAddr cfg.isHcxc s.manager.coreCacheAddrF)) (s.buffer s.manager.cacheEntryLkpF)) := by
    change s.bufferNext i = _
    rw [bufferNext, if_neg (by simp [not_coreWrites hne.1 hne.2.1]), hp]
    dsimp only
    rw [dmaAddr_entry, setAt_eq]
  have hfill' : (s.step cfg i).Filling cfg S mem := by
    constructor
    · rw [cache, htags, hentry, hcard, hbuffer]
      exact hfill.holds.fill _
    · rw [htags, haddr]
      exact hfill.miss
    · rw [htags, hentry, hcard]
      exact hfill.evicted
  rw [memNext_kept (not_coreWrites hne.1 hne.2.1)]
  refine h.next_wait (a := .update) (b := .fillIssue) (by simp [hs]) hp
    (by simp [Manager.cacheTmRdy, Manager.cacheTm, hs]) (by rw [Manager.stateNext, hs]) (by rw [hs]; simp [CacheState.locked])
    (fun hn => ?_) (fun hn => ?_) (fun _ hn => ?_) fun ha hn => ?_
  · rw [Manager.awaited, hn, hs, hentry, haddr]
  · rcases hn with hn | hn <;> rw [Manager.awaited, hn]
  · rw [hs] at hn
    rcases hn with hn | hn <;> simpa only [Stage, hn] using ⟨looked_step haddr htags, hfill'⟩
  · simp only [Stage, hn]
    refine ⟨looked_step haddr htags, .filled hfill' ?_⟩
    rw [hbuffer, hentry, haddr, Function.update_self, transferred, if_pos ha]
    exact hfill.holds.store_eq hmapped fun e he => hfill.miss e (BlockCache.evict_block_eq.mp he).2

theorem step_flushWait (h : s.Coherent cfg S mem) (hinj : Set.InjOn (sdAddr cfg.isHcxc) S) (hs : s.manager.state = .flushWait) :
    (s.step cfg i).Coherent cfg S (s.memNext mem i) := by
  have hne : s.manager.state ≠ .update ∧ s.manager.state ≠ .lock ∧ s.manager.state ≠ .flushUpdate := by simp [hs]
  have hp : s.pending = some ⟨sdAddr cfg.isHcxc s.manager.cacheAddrQueryF, dmaAddr s.manager.cacheEntryQueryF, true⟩ := by
    rw [h.pending, Manager.awaited, hs]
  obtain ⟨hholds, hb, hdirty⟩ : _ ∧ _ ∧ _ := by
    simpa only [Stage, hs] using h.stage
  have htags : (s.step cfg i).manager.tags = s.manager.tags := tags_kept hne.1 hne.2.2
  have hbuffer : (s.step cfg i).buffer = s.buffer := buffer_kept (not_coreWrites hne.1 hne.2.1) (by simp [hp])
  obtain ⟨hentry, haddr⟩ := query_kept cfg s i (by simp [hs])
  have hcard : (s.step cfg i).card = Function.update s.card (sdAddr cfg.isHcxc s.manager.cacheAddrQueryF)
      (transferred i (s.buffer s.manager.cacheEntryQueryF) (s.card (sdAddr cfg.isHcxc s.manager.cacheAddrQueryF))) := by
    change s.cardNext i = _
    rw [cardNext, hp]
    dsimp only
    rw [dmaAddr_entry, setAt_eq]
  have hcache : (s.step cfg i).cache.Holds (sdAddr cfg.isHcxc) S mem := by
    rw [cache, htags, hbuffer, hcard]
    exact hholds.spoil hinj hb hdirty _
  rw [memNext_kept (not_coreWrites hne.1 hne.2.1)]
  refine h.next_wait (a := .flushUpdate) (b := .flushIssue) (by simp [hs]) hp
    (by simp [Manager.cacheTmRdy, Manager.cacheTm, hs]) (by rw [Manager.stateNext, hs]) (by rw [hs]; simp [CacheState.locked])
    (fun hn => ?_) (fun hn => ?_) (fun _ hn => ?_) fun ha hn => ?_
  · rw [Manager.awaited, hn, hs, hentry, haddr]
  · rcases hn with hn | hn <;> rw [Manager.awaited, hn]
  · have hstage : (s.step cfg i).cache.Holds (sdAddr cfg.isHcxc) S mem ∧
        tagBlock (s.step cfg i).manager.tags (s.step cfg i).manager.cacheEntryQueryF =
          some (s.step cfg i).manager.cacheAddrQueryF ∧
        tagDirty (s.step cfg i).manager.tags (s.step cfg i).manager.cacheEntryQueryF = true := by
      rw [htags, hentry, haddr]
      exact ⟨hcache, hb, hdirty⟩
    rw [hs] at hn
    rcases hn with hn | hn <;> simpa only [Stage, hn] using hstage
  · simp only [Stage, hn]
    rw [htags, hentry, haddr]
    refine ⟨hcache, hb, ?_⟩
    rw [hcard, Function.update_self, transferred, if_pos ha]
    exact hholds.data_eq hb

theorem write_step (cfg : Cfg) (hw : s.coreWrites i = true) (hdata : s.buffer s.manager.cacheEntryLkpF = mem s.manager.coreCacheAddrF) :
    ∃ v, (s.step cfg i).buffer = Function.update s.buffer s.manager.cacheEntryLkpF v ∧
      s.memNext mem i = Function.update mem s.manager.coreCacheAddrF v := by
  refine ⟨_, ?_, if_pos hw⟩
  change s.bufferNext i = _
  rw [bufferNext, if_pos hw, coreEntry_eq, hdata, setAt_eq]

/-- The blocks after a cycle in which the core may write to the block that it has asked for. -/
theorem holds_step {block : Entry → Option BlockNo} {dirty : Entry → Bool}
    (hholds : BlockCache.Holds (sdAddr cfg.isHcxc) S mem ⟨block, dirty, s.buffer, s.card⟩)
    (hp : s.pending = none) (hb : block s.manager.cacheEntryLkpF = some s.manager.coreCacheAddrF)
    (hd : s.coreWrites i = true → dirty s.manager.cacheEntryLkpF = true) :
    BlockCache.Holds (sdAddr cfg.isHcxc) S (s.memNext mem i)
      ⟨block, dirty, (s.step cfg i).buffer, (s.step cfg i).card⟩ := by
  rw [card_kept (by simp [hp])]
  cases hw : s.coreWrites i with
  | true =>
      obtain ⟨v, hbuffer, hmem⟩ := write_step cfg hw (hholds.data_eq hb)
      rw [hbuffer, hmem]
      exact hholds.write hb (hd hw) v
  | false =>
      rw [buffer_kept hw (by simp [hp]), memNext_kept hw]
      exact hholds

theorem step_update (h : s.Coherent cfg S mem) (hs : s.manager.state = .update)
    (hwe : s.coreWrites i = true → s.manager.coreCacheWeF = true) : (s.step cfg i).Coherent cfg S (s.memNext mem i) := by
  have hp : s.pending = none := by rw [h.pending, Manager.awaited, hs]
  obtain ⟨hlooked, hready⟩ : _ ∧ _ := by
    simpa only [Stage, hs] using h.stage
  have hmapped : s.manager.coreCacheAddrF ∈ S := h.mapped (by rw [h.lock, hs]; rfl)
  obtain ⟨haddr, hweF⟩ := addr_kept cfg s i (by simp [hs]) (by simp [hs])
  have hentry : (s.step cfg i).manager.cacheEntryLkpF = s.manager.cacheEntryLkpF := by
    rw [(lkp_step haddr).1, hlooked.entry]
  have htags : (s.step cfg i).manager.tags =
      writeTags s.manager.tags s.manager.cacheEntryLkpF (tag s.manager.coreCacheAddrF) s.manager.coreCacheWeF := by
    change s.manager.tagsNext = _
    rw [Manager.tagsNext, hs]
  have hblock : tagBlock (s.step cfg i).manager.tags =
      Function.update (tagBlock s.manager.tags) s.manager.cacheEntryLkpF (some s.manager.coreCacheAddrF) := by
    rw [htags, tagBlock_writeTags, Manager.cacheEntryLkpF, entryIndex_append, tag_append_index]
  have hdirty : tagDirty (s.step cfg i).manager.tags =
      Function.update (tagDirty s.manager.tags) s.manager.cacheEntryLkpF s.manager.coreCacheWeF := by
    rw [htags, tagDirty_writeTags]
  have hholds : BlockCache.Holds (sdAddr cfg.isHcxc) S mem
      ⟨tagBlock (s.step cfg i).manager.tags, tagDirty (s.step cfg i).manager.tags, s.buffer, s.card⟩ := by
    rw [hblock, hdirty]
    cases hready with
    | hit hb hholds hclean =>
        rw [← hb, Function.update_eq_self]
        exact hholds.mark _ fun hw b hb' => hholds.clean_eq hb' (hclean hw)
    | filled hfill hdata => exact hfill.holds.install hmapped hfill.miss hdata _
  have hnext : (s.step cfg i).manager.state = .lock := by
    change s.manager.stateNext _ _ _ = _
    rw [Manager.stateNext, hs]
  have hself : tagBlock (s.step cfg i).manager.tags s.manager.cacheEntryLkpF = some s.manager.coreCacheAddrF := by
    rw [hblock, Function.update_self]
  have hdself : tagDirty (s.step cfg i).manager.tags s.manager.cacheEntryLkpF = s.manager.coreCacheWeF := by
    rw [hdirty, Function.update_self]
  refine h.next (by simp [hs]) (by simp [hs]) (by simp [hs]) (by rw [hnext, hs]; rfl) ?_ ?_
  · change s.pendingNext cfg i = _
    rw [Manager.awaited, hnext]
    simp [pendingNext, Manager.cacheTmGo, Manager.cacheTm, hs, hp]
  · simp only [Stage, hnext]
    refine ⟨holds_step hholds hp hself fun hw => ?_, ?_, fun hw => ?_⟩
    · rw [hdself, hwe hw]
    · rw [hentry, haddr, hself]
    · rw [hentry, hdself, ← hweF, hw]

theorem step_lock (h : s.Coherent cfg S mem) (hs : s.manager.state = .lock)
    (hwe : s.coreWrites i = true → s.manager.coreCacheWeF = true) : (s.step cfg i).Coherent cfg S (s.memNext mem i) := by
  have hp : s.pending = none := by rw [h.pending, Manager.awaited, hs]
  obtain ⟨hholds, hb, hd⟩ : _ ∧ _ ∧ _ := by
    simpa only [Stage, hs] using h.stage
  have hlock : s.manager.lockStatus = true := by rw [h.lock, hs, CacheState.locked]
  have htags : (s.step cfg i).manager.tags = s.manager.tags := tags_kept (by simp [hs]) (by simp [hs])
  obtain ⟨haddr, hweF⟩ := addr_kept cfg s i (by simp [hs]) (by simp [hs])
  have hentry : (s.step cfg i).manager.cacheEntryLkpF = s.manager.cacheEntryLkpF := by
    rw [(lkp_step haddr).1]
    exact Manager.entryLkp_eq hb fun e' he' => hholds.unique he' hb
  have hholds' : (s.step cfg i).cache.Holds (sdAddr cfg.isHcxc) S (s.memNext mem i) := by
    rw [cache, htags]
    exact holds_step hholds hp hb fun hw => hd (hwe hw)
  have hpending : (s.step cfg i).pending = none := by
    change s.pendingNext cfg i = none
    simp [pendingNext, Manager.cacheTmGo, Manager.cacheTm, hs, hp]
  have hstatus : (s.step cfg i).manager.lockStatus = !s.core.cacheLockRelease := by
    simp [step, Manager.step, hs, managerIn]
  have hnext : (s.step cfg i).manager.state = if s.core.cacheLockRelease then .idle else .lock := by
    change s.manager.stateNext _ _ _ = _
    rw [Manager.stateNext, hs]
    simp [Manager.unlock, hlock, managerIn]
  cases hr : s.core.cacheLockRelease with
  | true =>
      rw [hr, if_pos rfl] at hnext
      rw [hr] at hstatus
      refine ⟨by rw [hstatus, hnext]; rfl, fun hl => by simp [hstatus] at hl, ?_, by simpa only [Stage, hnext] using hholds'⟩
      rw [hpending, Manager.awaited, hnext]
  | false =>
      rw [hr, if_neg Bool.false_ne_true] at hnext
      rw [hr] at hstatus
      refine ⟨by rw [hstatus, hnext]; rfl, fun _ => haddr ▸ h.mapped hlock, ?_, ?_⟩
      · rw [hpending, Manager.awaited, hnext]
      · simp only [Stage, hnext]
        rw [htags, hentry, haddr, hweF]
        exact ⟨hholds', hb, hd⟩

theorem step_flushUpdate (h : s.Coherent cfg S mem) (hs : s.manager.state = .flushUpdate) :
    (s.step cfg i).Coherent cfg S (s.memNext mem i) := by
  have hp : s.pending = none := by rw [h.pending, Manager.awaited, hs]
  have hw : s.coreWrites i = false := not_coreWrites (by simp [hs]) (by simp [hs])
  obtain ⟨hholds, hb, hcard⟩ : _ ∧ _ ∧ _ := by
    simpa only [Stage, hs] using h.stage
  have hindex : entryIndex s.manager.cacheEntryQueryF = index s.manager.cacheAddrQueryF := by
    rw [tagBlock] at hb
    split at hb
    · rw [← Option.some.inj hb, index_append]
    · cases hb
  have htags : (s.step cfg i).manager.tags =
      writeTags s.manager.tags s.manager.cacheEntryQueryF (tag s.manager.cacheAddrQueryF) false := by
    change s.manager.tagsNext = _
    rw [Manager.tagsNext, hs]
  have hholds' : (s.step cfg i).cache.Holds (sdAddr cfg.isHcxc) S mem := by
    rw [cache, htags, tagBlock_writeTags, tagDirty_writeTags, hindex, tag_append_index, ← hb, Function.update_eq_self,
      buffer_kept hw (by simp [hp]), card_kept (by simp [hp])]
    refine hholds.mark false fun _ b hb' => ?_
    obtain rfl := Option.some.inj (hb.symm.trans hb')
    exact hcard
  have hnext : (s.step cfg i).manager.state = .idle ∨ (s.step cfg i).manager.state = .flushScan := by
    change s.manager.stateNext _ _ _ = _ ∨ s.manager.stateNext _ _ _ = _
    rw [Manager.stateNext, hs]
    dsimp only
    split <;> simp
  rw [memNext_kept hw]
  refine h.next (by simp [hs]) (by simp [hs]) (by simp [hs]) ?_ ?_ ?_
  · rcases hnext with hn | hn <;> rw [hn, hs] <;> rfl
  · change s.pendingNext cfg i = _
    rw [Manager.awaited]
    rcases hnext with hn | hn <;> simp [hn, pendingNext, Manager.cacheTmGo, Manager.cacheTm, hs, hp]
  · rcases hnext with hn | hn <;> simpa only [Stage, hn] using hholds'

/-- A request without the lock gets it in the states that take requests. -/
theorem unlocked_step (h : s.Coherent cfg S mem) (hl : s.manager.lockStatus = false) :
    (s.step cfg i).manager.lockStatus = s.locks i ∧ (s.locks i = true →
      (s.step cfg i).manager.coreCacheAddrF = s.core.coreCacheAddr (s.coreIn i) ∧
      (s.step cfg i).manager.coreCacheWeF = s.core.wr) := by
  refine ⟨?_, fun hlocks => ⟨if_pos hlocks, if_pos hlocks⟩⟩
  have hst := h.lock
  rw [hl] at hst
  cases hs : s.manager.state with
  | idle => simp [locks, Manager.lock, step, Manager.step, managerIn, hs, hl]
  | flushScan => simp [locks, Manager.lock, step, Manager.step, managerIn, hs, hl]
  | flushIssue => simp [locks, step, Manager.step, hs, hl]
  | flushWait => simp [locks, step, Manager.step, hs, hl]
  | flushUpdate => simp [locks, step, Manager.step, hs, hl]
  | lookup | writebackIssue | writebackWait | fillIssue | fillWait | update | lock =>
      rw [hs] at hst
      cases hst

theorem locked_step (h : s.Coherent cfg S mem) (hl : s.manager.lockStatus = true) :
    s.locks i = false ∧ (s.step cfg i).manager.coreCacheAddrF = s.manager.coreCacheAddrF ∧
      (s.step cfg i).manager.coreCacheWeF = s.manager.coreCacheWeF ∧
      (s.core.cacheLockRelease = false → (s.step cfg i).manager.lockStatus = true) ∧
      (s.core.cacheLockRelease = true → s.manager.state = .lock → (s.step cfg i).manager.lockStatus = false) := by
  have hst := h.lock
  rw [hl] at hst
  have hi : s.manager.state ≠ .idle := by
    intro hs
    rw [hs] at hst
    cases hst
  have hf : s.manager.state ≠ .flushScan := by
    intro hs
    rw [hs] at hst
    cases hst
  obtain ⟨haddr, hwe⟩ := addr_kept cfg s i hi hf
  refine ⟨by simp [locks, hi, hf], haddr, hwe, fun hr => ?_, fun hr hs => ?_⟩
  · cases hs : s.manager.state with
    | lock => simp [step, Manager.step, managerIn, hs, hr]
    | idle => exact absurd hs hi
    | flushScan => exact absurd hs hf
    | _ => simp [step, Manager.step, hs, hl]
  · simp [step, Manager.step, managerIn, hs, hr]

theorem state_step (hs : s.manager.state = .update ∨ s.manager.state = .lock) (hr : s.core.cacheLockRelease = false) :
    (s.step cfg i).manager.state = .lock := by
  change s.manager.stateNext _ _ _ = _
  rw [Manager.stateNext]
  rcases hs with hs | hs <;> simp [hs, Manager.unlock, managerIn, hr]

/-- A cycle keeps the cache and the card in step with the memory, for a core that writes only what it locked for writing. -/
theorem step (h : s.Coherent cfg S mem) (hinj : Set.InjOn (sdAddr cfg.isHcxc) S)
    (hreq : s.locks i = true → s.core.coreCacheAddr (s.coreIn i) ∈ S)
    (hwe : s.coreWrites i = true → s.manager.coreCacheWeF = true) (hd : ¬ s.HitsDirty) :
    (s.step cfg i).Coherent cfg S (s.memNext mem i) := by
  cases hs : s.manager.state with
  | idle => exact h.step_rest (.inl hs) hreq
  | lookup => exact h.step_lookup hs hd
  | writebackIssue => exact h.step_writebackIssue hs
  | writebackWait => exact h.step_writebackWait hinj hs
  | fillIssue => exact h.step_fillIssue hs
  | fillWait => exact h.step_fillWait hs
  | update => exact h.step_update hs hwe
  | lock => exact h.step_lock hs hwe
  | flushScan => exact h.step_rest (.inr hs) hreq
  | flushIssue => exact h.step_flushIssue hs
  | flushWait => exact h.step_flushWait hinj hs
  | flushUpdate => exact h.step_flushUpdate hs

theorem buffer_eq (h : s.Coherent cfg S mem) (hs : s.manager.state = .update ∨ s.manager.state = .lock) :
    s.buffer s.manager.cacheEntryLkpF = mem s.manager.coreCacheAddrF := by
  have hst := h.stage
  rcases hs with hs | hs
  · obtain ⟨-, hready⟩ : _ ∧ _ := by simpa only [Stage, hs] using hst
    cases hready with
    | hit hb hholds => exact hholds.data_eq hb
    | filled _ hdata => exact hdata
  · obtain ⟨hholds, hb, -⟩ : _ ∧ _ ∧ _ := by simpa only [Stage, hs] using hst
    exact hholds.data_eq hb

theorem evicted (h : s.Coherent cfg S mem) {b : BlockNo} (he : s.Evicts b) : s.card (sdAddr cfg.isHcxc b) = mem b := by
  obtain ⟨hs, hb, hne⟩ := he
  obtain ⟨-, hready⟩ : _ ∧ _ := by simpa only [Stage, hs] using h.stage
  cases hready with
  | hit hb' => exact absurd (Option.some.inj (hb.symm.trans hb')) hne
  | filled hfill => exact hfill.evicted b hb

end Coherent

end Bridge

end OpenPiton.Sd

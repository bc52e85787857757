import OpenPiton.Lib.Machine
import OpenPiton.Lib.Recency
import OpenPiton.Sd.Lookup
import Mathlib.Data.FinEnum

namespace OpenPiton.Sd

/-- The registers of `piton_sd_cache_tag` with `CACHE_ENTRIES_INDEXED` equal to `2 ^ n` and tags of `a` bits. -/
structure TagSet (n a : Nat) where
  cachedAddr : BitVec n → BitVec a
  cacheValid : BitVec n → Bool
  cacheDirty : BitVec n → Bool
  cacheLru : BitVec n → BitVec n

/-- The `for` loops over the entries of an index: the last that `p` holds of. -/
def lastOf (n : Nat) (p : BitVec n → Bool) : BitVec n :=
  (List.range (2 ^ n)).foldl (fun e j => if p (BitVec.ofNat n j) then BitVec.ofNat n j else e) 0

namespace TagSet

variable {n a : Nat}

def reset : TagSet n a := ⟨fun _ => 0, fun _ => false, fun _ => false, fun _ => 0⟩

variable (t : TagSet n a) (addr : BitVec a)

def cacheHit (j : BitVec n) : Bool := t.cacheValid j && t.cachedAddr j == addr

def hitLkp : Bool := decide (∃ j, t.cacheHit addr j = true)

def entryLkp : BitVec n :=
  if t.hitLkp addr then lastOf n (t.cacheHit addr)
  else if ∃ j, t.cacheValid j = false then lastOf n fun j => !t.cacheValid j
  else lastOf n fun j => t.cacheLru j == 0

def addrLkp : BitVec a := t.cachedAddr (t.entryLkp addr)

def dirtyLkp : Bool := t.cacheDirty (t.entryLkp addr) && t.cacheValid (t.entryLkp addr)

def dirtyQuery (e : BitVec n) : Bool := t.cacheValid e && t.cacheDirty e

/-- The registers after a cycle with `we`. -/
def write (entryW : BitVec n) (addrW : BitVec a) (dirtyW : Bool) : TagSet n a where
  cachedAddr := Function.update t.cachedAddr entryW addrW
  cacheValid := Function.update t.cacheValid entryW true
  cacheDirty := Function.update t.cacheDirty entryW dirtyW
  cacheLru := fun j =>
    if j = entryW then BitVec.ofNat n (2 ^ n - 1)
    else if t.cacheLru entryW < t.cacheLru j then t.cacheLru j - 1 else t.cacheLru j

end TagSet

/-- The registers of `piton_sd_cache_manager` with `CACHE_INDEX_WIDTH` equal to `k`. -/
structure SizedManager (n k a : Nat) where
  state : CacheState
  lockStatus : Bool
  coreCacheWeF : Bool
  coreCacheAddrF : BitVec (a + k)
  flushTimer : BitVec 24
  cacheEntryScan : BitVec (n + k)
  cacheAddrQueryF : BitVec (a + k)
  cacheEntryQueryF : BitVec (n + k)
  tags : BitVec k → TagSet n a
  addrLkpIndexedF : BitVec k → BitVec a
  entryLkpIndexedF : BitVec k → BitVec n

structure SizedIn (k a : Nat) where
  lockAcquire : Bool
  lockRelease : Bool
  coreCacheWe : Bool
  coreCacheAddr : BitVec (a + k)
  tmCacheRdy : Bool
  tmCacheVal : Bool
  tmCacheOk : Bool

/-- `CACHE_INDEX_BITS` of an entry or of a block. -/
def lower {n k : Nat} (e : BitVec (n + k)) : BitVec k := e.extractLsb' 0 k

/-- `CACHE_ENTRY_INDEXED_BITS` of an entry, `CACHE_BLOCK_PLACEMENT_BITS` of a block. -/
def upper {n k : Nat} (e : BitVec (n + k)) : BitVec n := e.extractLsb' k n

namespace SizedManager

variable {n k a : Nat}

/-- The registers after a reset; those of the lookups have none. -/
def Reset (m : SizedManager n k a) : Prop :=
  ∃ addrs entries, m = ⟨.idle, false, false, 0, 0, 0, 0, 0, fun _ => .reset, addrs, entries⟩

variable (flushWaitTime : BitVec 24) (m : SizedManager n k a) (i : SizedIn k a)

def lock : Bool := i.lockAcquire && !m.lockStatus

def unlock : Bool := i.lockRelease && m.lockStatus

def tagsLkp : TagSet n a := m.tags (lower m.coreCacheAddrF)

def cacheHitLkp : Bool := m.tagsLkp.hitLkp (upper m.coreCacheAddrF)

def cacheDirtyLkp : Bool := m.tagsLkp.dirtyLkp (upper m.coreCacheAddrF)

def cacheEntryLkpF : BitVec (n + k) := m.entryLkpIndexedF (lower m.coreCacheAddrF) ++ lower m.coreCacheAddrF

def tagsQuery : TagSet n a := m.tags (lower m.cacheEntryScan)

def cacheDirtyQuery : Bool := m.tagsQuery.dirtyQuery (upper m.cacheEntryScan)

def cacheTmVal : Bool := m.state == .writebackIssue || m.state == .fillIssue || m.state == .flushIssue

def cacheTmRdy : Bool := m.state == .writebackWait || m.state == .fillWait || m.state == .flushWait

def cacheTmGo : Bool := m.cacheTmVal && i.tmCacheRdy

def tmCacheGo : Bool := m.cacheTmRdy && i.tmCacheVal

def stateNext : CacheState :=
  match m.state with
  | .idle => if m.lock i then .lookup else if m.flushTimer = flushWaitTime then .flushScan else .idle
  | .lookup => if m.cacheHitLkp then .update else if m.cacheDirtyLkp then .writebackIssue else .fillIssue
  | .writebackIssue => if m.cacheTmGo i then .writebackWait else .writebackIssue
  | .writebackWait => if m.tmCacheGo i then if i.tmCacheOk then .fillIssue else .writebackIssue else .writebackWait
  | .fillIssue => if m.cacheTmGo i then .fillWait else .fillIssue
  | .fillWait => if m.tmCacheGo i then if i.tmCacheOk then .update else .fillIssue else .fillWait
  | .update => .lock
  | .lock => if m.unlock i then .idle else .lock
  | .flushScan =>
      if m.lock i then .lookup else if m.cacheDirtyQuery then .flushIssue
      else if m.cacheEntryScan = m.cacheEntryLkpF - 1 then .idle else .flushScan
  | .flushIssue => if m.cacheTmGo i then .flushWait else .flushIssue
  | .flushWait => if m.tmCacheGo i then if i.tmCacheOk then .flushUpdate else .flushIssue else .flushWait
  | .flushUpdate => if m.cacheEntryScan = m.cacheEntryLkpF then .idle else .flushScan

/-- `update_entry`, `update_addr` and `update_dirty` of a cycle with `cache_we`. -/
def update : Option (BitVec (n + k) × BitVec a × Bool) :=
  match m.state with
  | .update => some (m.cacheEntryLkpF, upper m.coreCacheAddrF, m.coreCacheWeF)
  | .flushUpdate => some (m.cacheEntryQueryF, upper m.cacheAddrQueryF, false)
  | _ => none

def tagsNext : BitVec k → TagSet n a :=
  match m.update with
  | some (e, addr, dirty) => Function.update m.tags (lower e) ((m.tags (lower e)).write (upper e) addr dirty)
  | none => m.tags

def step : SizedManager n k a where
  state := m.stateNext flushWaitTime i
  lockStatus :=
    match m.state with
    | .idle | .flushScan => i.lockAcquire
    | .lock => !i.lockRelease
    | _ => m.lockStatus
  coreCacheWeF := if (m.state == .idle || m.state == .flushScan) && m.lock i then i.coreCacheWe else m.coreCacheWeF
  coreCacheAddrF := if (m.state == .idle || m.state == .flushScan) && m.lock i then i.coreCacheAddr else m.coreCacheAddrF
  flushTimer := if m.state = .idle then m.flushTimer + 1 else 0
  cacheEntryScan :=
    match m.state with
    | .update => m.cacheEntryLkpF
    | .flushScan => m.cacheEntryScan + 1
    | _ => m.cacheEntryScan
  cacheAddrQueryF :=
    if m.state = .flushScan then m.tagsQuery.cachedAddr (upper m.cacheEntryScan) ++ lower m.cacheEntryScan
    else m.cacheAddrQueryF
  cacheEntryQueryF := if m.state = .flushScan then m.cacheEntryScan else m.cacheEntryQueryF
  tags := m.tagsNext
  addrLkpIndexedF := fun x => (m.tags x).addrLkp (upper m.coreCacheAddrF)
  entryLkpIndexedF := fun x => (m.tags x).entryLkp (upper m.coreCacheAddrF)

end SizedManager

/-- The tags of an index as a set of four. -/
def CacheTag.sized (t : CacheTag) : TagSet 2 30 := ⟨t.cachedAddr, t.cacheValid, t.cacheDirty, t.cacheLru⟩

def Manager.sized (m : Manager) : SizedManager 2 1 30 :=
  ⟨m.state, m.lockStatus, m.coreCacheWeF, m.coreCacheAddrF, m.flushTimer, m.cacheEntryScan, m.cacheAddrQueryF,
    m.cacheEntryQueryF, fun x => (m.tags x).sized, m.addrLkpIndexedF, m.entryLkpIndexedF⟩

def ManagerIn.sized (i : ManagerIn) : SizedIn 1 30 :=
  ⟨i.lockAcquire, i.lockRelease, i.coreCacheWe, i.coreCacheAddr, i.tmCacheRdy, i.tmCacheVal, i.tmCacheOk⟩

theorem CacheTag.sized_write (t : CacheTag) (e : BitVec 2) (addr : BitVec 30) (d : Bool) :
    (t.write e addr d).sized = t.sized.write e addr d := by
  simp only [sized, write, TagSet.write, setAt_eq]
  rfl

/-- The manager of the configuration in use is the one with two bits for the entry and one for the index. -/
theorem Manager.sized_step (isHcxc : Bool) (w : BitVec 24) (m : Manager) (i : ManagerIn) :
    (m.step isHcxc w i).sized = m.sized.step w i.sized := by
  have htags : (fun x => (m.tagsNext x).sized) = m.sized.tagsNext := by
    funext x
    have hset : ∀ e addr d, (writeTags m.tags e addr d x).sized =
        Function.update m.sized.tags (entryIndex e) ((m.sized.tags (entryIndex e)).write (entryIndexed e) addr d) x := by
      intro e addr d
      rw [writeTags, setAt_eq, Function.update_apply, Function.update_apply]
      split
      case isTrue => rw [CacheTag.sized_write]; rfl
      case isFalse => rfl
    obtain ⟨state⟩ := m
    cases state with
    | update => exact hset _ _ _
    | flushUpdate => exact hset _ _ _
    | _ => rfl
  have hstate : m.stateNext isHcxc w i = m.sized.stateNext w i.sized := by
    obtain ⟨state⟩ := m
    cases state <;> rfl
  simp only [SizedManager.step, ← hstate, ← htags]
  rfl

end OpenPiton.Sd

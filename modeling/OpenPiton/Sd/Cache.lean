import Mathlib.Data.BitVec
import Mathlib.Logic.Function.Basic

namespace OpenPiton.Sd

/-- A memory with an element written: `Function.update`, in a form that runs fast. -/
def setAt {α β : Type*} [DecidableEq α] (f : α → β) (a : α) (v : β) : α → β := fun b => if b = a then v else f b

theorem setAt_eq {α β : Type*} [DecidableEq α] (f : α → β) (a : α) (v : β) : setAt f a v = Function.update f a v :=
  funext fun b => (Function.update_apply f a v b).symm

/-- The number of a block of 512 bytes, `PHY_BLOCK_BITS`: a tag of `CACHE_BLOCK_PLACEMENT_BITS` and an index. -/
abbrev BlockNo := BitVec 31

/-- An entry of the cache: its number within an index, and the index. -/
abbrev Entry := BitVec 3

def index (b : BlockNo) : BitVec 1 := b.extractLsb' 0 1

def tag (b : BlockNo) : BitVec 30 := b.extractLsb' 1 30

def entryIndex (e : Entry) : BitVec 1 := e.extractLsb' 0 1

def entryIndexed (e : Entry) : BitVec 2 := e.extractLsb' 1 2

/-- The `for` loops over the entries of an index: the last that `p` holds of. -/
def lastEntry (p : BitVec 2 → Bool) : BitVec 2 :=
  (List.range 4).foldl (fun e j => if p (BitVec.ofNat 2 j) then BitVec.ofNat 2 j else e) 0

/-- The registers of `piton_sd_cache_tag`. -/
structure CacheTag where
  cachedAddr : BitVec 2 → BitVec 30 := fun _ => 0
  cacheValid : BitVec 2 → Bool := fun _ => false
  cacheDirty : BitVec 2 → Bool := fun _ => false
  cacheLru : BitVec 2 → BitVec 2 := fun _ => 0

namespace CacheTag

variable (t : CacheTag) (addr : BitVec 30)

def cacheHit (j : BitVec 2) : Bool := t.cacheValid j && t.cachedAddr j == addr

def hitLkp : Bool := decide (∃ j, t.cacheHit addr j = true)

/-- The hit, else an invalid entry, else the least recently used one. -/
def entryLkp : BitVec 2 :=
  if t.hitLkp addr then lastEntry (t.cacheHit addr)
  else if ∃ j, t.cacheValid j = false then lastEntry fun j => !t.cacheValid j
  else lastEntry fun j => t.cacheLru j == 0

def addrLkp : BitVec 30 := t.cachedAddr (t.entryLkp addr)

def dirtyLkp : Bool := t.cacheDirty (t.entryLkp addr) && t.cacheValid (t.entryLkp addr)

def dirtyQuery (e : BitVec 2) : Bool := t.cacheValid e && t.cacheDirty e

/-- The registers after a cycle with `we`. -/
def write (entryW : BitVec 2) (addrW : BitVec 30) (dirtyW : Bool) : CacheTag where
  cachedAddr := setAt t.cachedAddr entryW addrW
  cacheValid := setAt t.cacheValid entryW true
  cacheDirty := setAt t.cacheDirty entryW dirtyW
  cacheLru := fun j =>
    if j = entryW then 3 else if t.cacheLru entryW < t.cacheLru j then t.cacheLru j - 1 else t.cacheLru j

end CacheTag

/-- The block that an entry has. -/
def tagBlock (tags : BitVec 1 → CacheTag) (e : Entry) : Option BlockNo :=
  if (tags (entryIndex e)).cacheValid (entryIndexed e) then
    some ((tags (entryIndex e)).cachedAddr (entryIndexed e) ++ entryIndex e)
  else none

def tagDirty (tags : BitVec 1 → CacheTag) (e : Entry) : Bool := (tags (entryIndex e)).cacheDirty (entryIndexed e)

/-- The tags with an entry written. -/
def writeTags (tags : BitVec 1 → CacheTag) (e : Entry) (addr : BitVec 30) (dirty : Bool) : BitVec 1 → CacheTag :=
  setAt tags (entryIndex e) ((tags (entryIndex e)).write (entryIndexed e) addr dirty)

/-- `CACHE_IDLE` to `CACHE_FLUSH_UPDATE`. -/
inductive CacheState
  | idle | lookup | writebackIssue | writebackWait | fillIssue | fillWait | update | lock
  | flushScan | flushIssue | flushWait | flushUpdate
  deriving DecidableEq, Repr

/-- The registers of `piton_sd_cache_manager`. -/
structure Manager where
  state : CacheState := .idle
  lockStatus : Bool := false
  coreCacheWeF : Bool := false
  coreCacheAddrF : BlockNo := 0
  flushTimer : BitVec 24 := 0
  cacheEntryScan : Entry := 0
  cacheAddrQueryF : BlockNo := 0
  cacheEntryQueryF : Entry := 0
  tags : BitVec 1 → CacheTag := fun _ => {}
  addrLkpIndexedF : BitVec 1 → BitVec 30
  entryLkpIndexedF : BitVec 1 → BitVec 2

/-- The inputs of `piton_sd_cache_manager`. -/
structure ManagerIn where
  lockAcquire : Bool
  lockRelease : Bool
  coreCacheWe : Bool
  coreCacheAddr : BlockNo
  tmCacheRdy : Bool
  tmCacheVal : Bool
  tmCacheOk : Bool

/-- A request to `piton_sd_transaction_manager`. -/
structure TmReq where
  addrSd : BitVec 32
  addrDma : BitVec 32
  wr : Bool
  deriving DecidableEq, Repr

/-- A block address that the card takes: the number of the block on a high-capacity card, else the
address of its first byte. -/
def sdAddr (isHcxc : Bool) (b : BlockNo) : BitVec 32 :=
  if isHcxc then b.setWidth 32 else b.extractLsb' 0 23 ++ 0#9

def dmaAddr (e : Entry) : BitVec 32 := (e ++ 0#9).setWidth 32

namespace Manager

variable (isHcxc : Bool) (flushWaitTime : BitVec 24) (m : Manager) (i : ManagerIn)

def lock : Bool := i.lockAcquire && !m.lockStatus

def unlock : Bool := i.lockRelease && m.lockStatus

/-- The tags of the index that is looked up. -/
def tagsLkp : CacheTag := m.tags (index m.coreCacheAddrF)

def cacheHitLkp : Bool := m.tagsLkp.hitLkp (tag m.coreCacheAddrF)

def cacheDirtyLkp : Bool := m.tagsLkp.dirtyLkp (tag m.coreCacheAddrF)

def cacheAddrLkpF : BlockNo := m.addrLkpIndexedF (index m.coreCacheAddrF) ++ index m.coreCacheAddrF

def cacheEntryLkpF : Entry := m.entryLkpIndexedF (index m.coreCacheAddrF) ++ index m.coreCacheAddrF

def tagsQuery : CacheTag := m.tags (entryIndex m.cacheEntryScan)

def cacheDirtyQuery : Bool := m.tagsQuery.dirtyQuery (entryIndexed m.cacheEntryScan)

def cacheCoreRdy : Bool := m.state == .update || m.state == .lock

def cacheTmRdy : Bool := m.state == .writebackWait || m.state == .fillWait || m.state == .flushWait

/-- `cache_tm_val` and what goes with it. -/
def cacheTm : Option TmReq :=
  match m.state with
  | .writebackIssue => some ⟨sdAddr isHcxc m.cacheAddrLkpF, dmaAddr m.cacheEntryLkpF, true⟩
  | .fillIssue => some ⟨sdAddr isHcxc m.coreCacheAddrF, dmaAddr m.cacheEntryLkpF, false⟩
  | .flushIssue => some ⟨sdAddr isHcxc m.cacheAddrQueryF, dmaAddr m.cacheEntryQueryF, true⟩
  | _ => none

def cacheTmGo : Bool := (m.cacheTm isHcxc).isSome && i.tmCacheRdy

def tmCacheGo : Bool := m.cacheTmRdy && i.tmCacheVal

def stateNext : CacheState :=
  match m.state with
  | .idle => if m.lock i then .lookup else if m.flushTimer = flushWaitTime then .flushScan else .idle
  | .lookup => if m.cacheHitLkp then .update else if m.cacheDirtyLkp then .writebackIssue else .fillIssue
  | .writebackIssue => if m.cacheTmGo isHcxc i then .writebackWait else .writebackIssue
  | .writebackWait => if m.tmCacheGo i then if i.tmCacheOk then .fillIssue else .writebackIssue else .writebackWait
  | .fillIssue => if m.cacheTmGo isHcxc i then .fillWait else .fillIssue
  | .fillWait => if m.tmCacheGo i then if i.tmCacheOk then .update else .fillIssue else .fillWait
  | .update => .lock
  | .lock => if m.unlock i then .idle else .lock
  | .flushScan =>
      if m.lock i then .lookup else if m.cacheDirtyQuery then .flushIssue
      else if m.cacheEntryScan = m.cacheEntryLkpF - 1 then .idle else .flushScan
  | .flushIssue => if m.cacheTmGo isHcxc i then .flushWait else .flushIssue
  | .flushWait => if m.tmCacheGo i then if i.tmCacheOk then .flushUpdate else .flushIssue else .flushWait
  | .flushUpdate => if m.cacheEntryScan = m.cacheEntryLkpF then .idle else .flushScan

/-- `cache_we` with the choice of `cache_update_sel`. -/
def tagsNext : BitVec 1 → CacheTag :=
  match m.state with
  | .update => writeTags m.tags m.cacheEntryLkpF (tag m.coreCacheAddrF) m.coreCacheWeF
  | .flushUpdate => writeTags m.tags m.cacheEntryQueryF (tag m.cacheAddrQueryF) false
  | _ => m.tags

def step : Manager where
  state := m.stateNext isHcxc flushWaitTime i
  lockStatus :=
    match m.state with
    | .idle | .flushScan => i.lockAcquire
    | .lock => !i.lockRelease
    | _ => m.lockStatus
  coreCacheWeF := if (m.state == .idle || m.state == .flushScan) && m.lock i then i.coreCacheWe else m.coreCacheWeF
  coreCacheAddrF := if (m.state == .idle || m.state == .flushScan) && m.lock i then i.coreCacheAddr else m.coreCacheAddrF
  flushTimer := if m.state = .idle then m.flushTimer + 1 else 0
  cacheEntryScan :=
    match m.state with
    | .update => m.cacheEntryLkpF
    | .flushScan => m.cacheEntryScan + 1
    | _ => m.cacheEntryScan
  cacheAddrQueryF :=
    if m.state = .flushScan then m.tagsQuery.cachedAddr (entryIndexed m.cacheEntryScan) ++ entryIndex m.cacheEntryScan
    else m.cacheAddrQueryF
  cacheEntryQueryF := if m.state = .flushScan then m.cacheEntryScan else m.cacheEntryQueryF
  tags := m.tagsNext
  addrLkpIndexedF := fun x => (m.tags x).addrLkp (tag m.coreCacheAddrF)
  entryLkpIndexedF := fun x => (m.tags x).entryLkp (tag m.coreCacheAddrF)

end Manager

end OpenPiton.Sd

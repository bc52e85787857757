import OpenPiton.L2.Control

namespace OpenPiton.L2

abbrev Block := BitVec 128

/-- A request in pipeline 1. What it carries of data is what it makes of a block, and for CAS the comparison. -/
structure Request (n : Nat) where
  type : MsgType
  src : Fin n
  mshrType : L15.MshrType
  tag : Nat
  subline : BitVec 2
  cacheType : CacheType
  merge : Block → Block
  compare : Block → Bool

inductive FwdType
  | load | store | inv
  deriving DecidableEq, Repr

/-- The messages to the tiles. The address of an acknowledgement is that of the MSHR entry it names. -/
inductive Noc2
  | dataAck (mshrType : L15.MshrType) (tag : Nat) (subline : BitVec 2) (mesi : L15.Mesi) (data : List Block)
  | nodataAck (mshrType : L15.MshrType) (tag : Nat) (subline : BitVec 2)
  | forward (type : FwdType) (tag : Nat) (sublineVector : BitVec 4) (di : CacheType)

/-- The messages from the tiles to pipeline 2. -/
inductive Noc3
  | writeBack (tag : Nat) (subline : BitVec 2) (data : Block)
  | fwdAck (type : FwdType) (sublineId : BitVec 2) (lastSubline : Bool) (data : Option Block)

/-- The messages to the memory. -/
inductive ToMem
  | load (tag : Nat)
  | store (tag : Nat) (data : BitVec 2 → Block)
  | ncStore (tag : Nat) (subline : BitVec 2) (merge : Block → Block)

inductive MemAck
  | load (data : BitVec 2 → Block)
  | ncStore

/-- The entry of the MSHR file for a set; it waits unless it is pending. -/
structure Entry (n : Nat) where
  req : Request n
  way : Nat
  pending : Bool

/-- One set of the L2 with all that a request leaves there, in builds without `L2_SEND_NC_REQ` and RTL CSM. Of an
atomic between its phases the tile is kept whose message is still at the head of the input. -/
structure CacheSet (n : Nat) where
  lines : LineSet
  dir : Nat → Fin n → Bool
  data : Nat → BitVec 2 → Block
  mshr : Option (Entry n)
  atomic : Option (Fin n)
  casCmp : Bool
  readData : Block

/-- The field of the owner counts the invalidations of a line that every tile may share. -/
structure SetCfg (n : Nat) where
  ways : Nat
  ownerBits : Nat
  ownerBits_pos : 0 < ownerBits
  tiles_le : n ≤ 2 ^ ownerBits

structure Out where
  tiles : List (Nat × Noc2) := []
  mem : List ToMem := []

def Out.append (a b : Out) : Out := ⟨a.tiles ++ b.tiles, a.mem ++ b.mem⟩

/-- `addr_subline_S2`. -/
def addrSubline (t : CacheType) (dataSubline : BitVec 2) : BitVec 4 :=
  match t with
  | .data => 1#4 <<< dataSubline.toNat
  | .ins => 3#4 <<< (2 * (dataSubline.toNat / 2))

/-- `state_owner_S2`; `ld` is the load of pipeline 1. -/
def ownerNext (ownerBits src : Nat) (op : CsOp) (owner : Nat) : Nat :=
  match op with
  | .ld => src
  | .add => (owner + 1) % 2 ^ ownerBits
  | .sub => (owner + (2 ^ ownerBits - 1)) % 2 ^ ownerBits
  | .clr => 0

/-- `state_subline_S2`. -/
def sublineNext (addr : BitVec 4) (op : CsOp) (subline : BitVec 4) : BitVec 4 :=
  match op with
  | .add => subline ||| addr
  | .sub => subline &&& ~~~addr
  | .clr | .ld => 0

variable {n : Nat}

/-- The line under the mask of pipeline 1. -/
def CsP1.write (c : CsP1) (ownerBits : Nat) (q : Request n) (l : Line) : Line where
  mesi := c.mesi.getD l.mesi
  vd := c.vd.getD l.vd
  di := if c.diEn then q.cacheType else l.di
  subline := c.subline.elim l.subline fun op => sublineNext (addrSubline q.cacheType q.subline) op l.subline
  owner := c.owner.elim l.owner fun op => ownerNext ownerBits q.src.val op l.owner

/-- The line under the mask of pipeline 2 for an acknowledgement. -/
def Cs.write (c : Cs) (ownerBits : Nat) (l : Line) : Line where
  mesi := if c.mesiEn then c.mesi else l.mesi
  vd := if c.vdEn then c.vd else l.vd
  di := l.di
  subline := if c.sublineEn then sublineNext 0 c.sublineOp l.subline else l.subline
  owner := if c.ownerEn then ownerNext ownerBits 0 c.ownerOp l.owner else l.owner

/-- The blocks that a DATA_ACK carries: sixteen bytes of data, thirty-two of instructions. -/
def sentSublines (t : CacheType) (k : BitVec 2) : List (BitVec 2) :=
  match t with
  | .data => [k]
  | .ins => [BitVec.ofNat 2 (2 * (k.toNat / 2)), BitVec.ofNat 2 (2 * (k.toNat / 2) + 1)]

/-- `msg_send_mesi_S4`, from the state that the request leaves the line in. -/
def sendMesi (t : MsgType) (s : SendType) (mesi : Mesi) : L15.Mesi :=
  if (t = .store ∨ t = .lr) ∧ s = .dataAck then .m
  else match mesi with
    | .i => .i
    | .s | .b => .s
    | .e => .e

/-- `cs_S2` of pipeline 2 for an acknowledgement of a forward. -/
def csFwdAck (t : FwdType) (mesi : Mesi) (last dataValid ownerIsOne : Bool) : Option Cs :=
  match t with
  | .load =>
      match mesi with
      | .e =>
          if last then some ⟨dataValid, true, false, false, true, .clr, false, .clr, false, dataValid, .dirty, true, .s⟩
          else some ⟨dataValid, false, true, false, false, .clr, false, .clr, false, dataValid, .dirty, false, .i⟩
      | .i => some ⟨false, false, true, false, false, .clr, false, .clr, false, false, .error, false, .i⟩
      | _ => none
  | .store =>
      match mesi with
      | .e =>
          if last then some ⟨dataValid, true, false, true, true, .clr, true, .clr, false, dataValid, .dirty, true, .i⟩
          else some ⟨dataValid, false, true, false, false, .clr, false, .clr, false, dataValid, .dirty, false, .i⟩
      | .i => some ⟨false, false, true, false, false, .clr, false, .clr, false, false, .error, false, .i⟩
      | _ => none
  | .inv =>
      if last then
        if ownerIsOne then some ⟨false, false, true, false, true, .clr, true, .clr, false, false, .error, true, .i⟩
        else some ⟨false, false, true, false, true, .sub, false, .clr, false, false, .error, false, .i⟩
      else some ⟨false, false, true, false, false, .clr, false, .clr, false, false, .error, false, .i⟩

namespace CacheSet

variable (cfg : SetCfg n) (h : CacheSet n)

/-! ## Pipeline 1 -/

section Pipe1

-- a request, whether it comes from the MSHR, and the way that the LRU would take
variable (q : Request n) (fromMshr : Bool) (victim : Nat)

/-- `l2_hit_way_sel_S2`. -/
def hitWay : Option Nat :=
  if q.type = .lineFlush then none else (List.range cfg.ways).find? (h.lines.tagHitWay q.tag)

def tagHit : Bool := (h.hitWay cfg q).isSome

def waySel : Nat := (h.hitWay cfg q).getD victim

def line : Line := h.lines.line (h.waySel cfg q victim)

def evict : Bool :=
  !(q.type == .wbguard || q.type == .ncStore) && !h.tagHit cfg q &&
    ((h.line cfg q victim).vd == .clean || (h.line cfg q victim).vd == .dirty)

def reqFromOwner : Bool := (h.line cfg q victim).owner == q.src.val

def lookup : Lookup where
  tagHit := h.tagHit cfg q
  evict := h.evict cfg q victim
  mesi := (h.line cfg q victim).mesi
  vd := (h.line cfg q victim).vd
  di := (h.line cfg q victim).di
  reqFromOwner := h.reqFromOwner cfg q victim
  fromMshr := fromMshr
  cacheType := q.cacheType

def sharers (way : Nat) : List (Fin n) := (List.finRange n).filter (h.dir way)

/-- The tag of a message that is about the line and not about the request. -/
def lineTag : Nat := if h.evict cfg q victim then h.lines.tag (h.waySel cfg q victim) else q.tag

def dataWritten : Block := q.merge h.readData

/-- The row data of a write-back or an acknowledgement. -/
def dataRead : BitVec 2 → Block := h.data (h.waySel cfg q victim)

def send (mesi : Mesi) (s : SendType) : Out :=
  match s with
  | .dataAck =>
      { tiles := [(q.src.val, .dataAck q.mshrType q.tag q.subline (sendMesi q.type s mesi)
          ((sentSublines q.cacheType q.subline).map (h.dataRead cfg q victim)))] }
  | .nodataAck => { tiles := [(q.src.val, .nodataAck q.mshrType q.tag q.subline)] }
  | .loadFwd =>
      { tiles := [((h.line cfg q victim).owner, .forward .load (h.lineTag cfg q victim) (h.line cfg q victim).subline
          (h.line cfg q victim).di)] }
  | .storeFwd =>
      { tiles := [((h.line cfg q victim).owner, .forward .store (h.lineTag cfg q victim) (h.line cfg q victim).subline
          (h.line cfg q victim).di)] }
  | .invFwd =>
      { tiles := (h.sharers (h.waySel cfg q victim)).map fun t =>
          (t.val, .forward .inv (h.lineTag cfg q victim) (BitVec.allOnes 4) (h.line cfg q victim).di) }
  | .loadMem => { mem := [.load q.tag] }
  | .storeMem => { mem := [.store (h.lineTag cfg q victim) (h.dataRead cfg q victim)] }
  | .ncStoreReq => { mem := [.ncStore q.tag q.subline q.merge] }
  | .interrupt | .ncLoadReq => {}

/-- `mshr_state_in_S2` is pending for a line that was only written back first. -/
def mshrPending : Bool :=
  h.tagHit cfg q && (q.type == .ncLoad || q.type == .ncStore) && (h.line cfg q victim).mesi == .i &&
    (h.line cfg q victim).vd == .dirty

/-- A guard waits while its subline is owned by its tile. -/
def guardWaits : Bool :=
  q.type == .wbguard && h.tagHit cfg q && (h.line cfg q victim).mesi == .e &&
    (h.line cfg q victim).subline.getLsbD q.subline.toNat && h.reqFromOwner cfg q victim

def mshrNext (c : CsP1) : Option (Entry n) :=
  if c.mshrWrEn || h.guardWaits cfg q victim then some ⟨q, h.waySel cfg q victim, h.mshrPending cfg q victim⟩ else none

/-- The line is written in stage 4: the invalidations count in the field of the owner. -/
def lineNext (c : CsP1) (c4 : CsS4) : Line :=
  let l := c.write cfg.ownerBits q (h.line cfg q victim)
  if c4.msg0 = some .invFwd then { l with owner := (h.sharers (h.waySel cfg q victim)).length % 2 ^ cfg.ownerBits }
  else l

/-- The first phase of an atomic has read its block. -/
def readsBlock (c4 : CsS4) : Bool := q.type.isP1 && c4.msg0 == some .dataAck

def pipe1Next (c : CsP1) (c4 : CsS4) : CacheSet n where
  lines :=
    { h.lines with line := Function.update h.lines.line (h.waySel cfg q victim) (h.lineNext cfg q victim c c4) }
  dir :=
    if c.dirClkEn && c.dirWr then
      Function.update h.dir (h.waySel cfg q victim)
        (Function.update (h.dir (h.waySel cfg q victim)) q.src true)
    else h.dir
  data :=
    if c.dataClkEn && c.dataWr then
      Function.update h.data (h.waySel cfg q victim)
        (Function.update (h.dataRead cfg q victim) q.subline (h.dataWritten q))
    else h.data
  mshr := h.mshrNext cfg q victim c
  atomic := h.atomic
  casCmp :=
    if q.type == .casP1 && readsBlock q c4 then q.compare (h.dataRead cfg q victim q.subline) else h.casCmp
  readData := if readsBlock q c4 then h.dataRead cfg q victim q.subline else h.readData

def outNext (c : CsP1) (c4 : CsS4) : Out :=
  let send := h.send cfg q victim ((c.mesi).getD (h.line cfg q victim).mesi)
  ((c4.msg0.map send).getD {}).append ((c4.msg1.map send).getD {})

/-- A request goes through pipeline 1. It is only put into the MSHR again when it is recycled. -/
def pass (recycle : Bool) : Option (CacheSet n × Out) :=
  if recycle then some ({ h with mshr := some ⟨q, h.waySel cfg q victim, true⟩ }, {})
  else
    (Control.csS2 q.type (h.lookup cfg q fromMshr victim)).bind fun c =>
      (Control.csS4 false q.type (h.lookup cfg q fromMshr victim)).map fun c4 =>
        (h.pipe1Next cfg q victim c c4, h.outNext cfg q victim c c4)

end Pipe1

/-- A message of a tile enters pipeline 1; the first phase of an atomic leaves it at the input. -/
def accept (m : Request n) (victim : Nat) (recycle : Bool) : Option (CacheSet n × Out × Bool) :=
  let q := { m with type := m.type.trans h.atomic.isSome h.casCmp }
  (h.pass cfg q false victim recycle).map fun r =>
    ({ r.1 with atomic := if q.type.isP1 then some m.src else if q.type.isP2 then none else h.atomic }, r.2,
      !q.type.isP1)

/-- A guard that waits is tried again: another request has met it, or guards fill the MSHR file. -/
def retry (e : Entry n) : Option (CacheSet n) :=
  if e.req.type = .wbguard then some { h with mshr := some { e with pending := true } } else none

/-- The pending entry is retired and its request goes through pipeline 1 again. -/
def replay (e : Entry n) (victim : Nat) (recycle : Bool) : Option (CacheSet n × Out) :=
  ({ h with mshr := none } : CacheSet n).pass cfg e.req true victim recycle

/-! ## Pipeline 2 -/

section Pipe2

def wbReq (tag : Nat) (subline : BitVec 2) (data : Block) : WbReq where
  index := 0
  tag := tag
  dataSubline := subline
  cacheType := .data
  size := .b16
  data := [data]

/-- The way that a write-back hits. -/
def wbWay (tag : Nat) : Nat := (h.lines.hitWaySel cfg.ways tag).getD 0

def writeBack (tag : Nat) (subline : BitVec 2) (data : Block) : CacheSet n :=
  let way := h.wbWay cfg tag
  let r := wbReq tag subline data
  let c := r.cs (h.lines.line way)
  { h with
    lines := { h.lines with line := Function.update h.lines.line way (r.stateWrite (h.lines.line way)) }
    dir := if c.dirClkEn && !c.dirRd then Function.update h.dir way fun _ => false else h.dir
    data := Function.update h.data way (Function.update (h.data way) subline data) }

/-- An acknowledgement, on the way of the entry that it names. -/
def fwdAck (e : Entry n) (t : FwdType) (sublineId : BitVec 2) (last : Bool) (data : Option Block) :
    Option (CacheSet n) :=
  let l := h.lines.line e.way
  let valid := l.subline.getLsbD sublineId.toNat && data.isSome
  (csFwdAck t l.mesi last valid (l.owner == 1)).map fun c =>
    { h with
      lines := { h.lines with line := Function.update h.lines.line e.way (c.write cfg.ownerBits l) }
      dir :=
        if c.dirClkEn && !c.dirRd then
          Function.update h.dir e.way fun t => !c.dirClrEn && t.val == l.owner
        else h.dir
      data :=
        if c.dataClkEn then
          Function.update h.data e.way (Function.update (h.data e.way) sublineId (data.getD 0))
        else h.data
      mshr := some { e with pending := e.pending || last && (t != .inv || l.owner == 1) } }

def answer (m : Noc3) : Option (CacheSet n) :=
  match m with
  | .writeBack tag subline data => some (h.writeBack cfg tag subline data)
  | .fwdAck t sublineId last data => h.mshr.bind fun e => h.fwdAck cfg e t sublineId last data

/-- The line that came from memory for an entry. -/
def fill (e : Entry n) (m : MemAck) : CacheSet n :=
  match m with
  | .load data =>
      { h with
        lines :=
          { tag := Function.update h.lines.tag e.way e.req.tag
            line := Function.update h.lines.line e.way
              { h.lines.line e.way with vd := .clean, subline := 0 } }
        dir := Function.update h.dir e.way fun _ => false
        data := Function.update h.data e.way data
        mshr := some { e with pending := true } }
  | .ncStore => { h with mshr := some { e with pending := true } }

end Pipe2

end CacheSet

end OpenPiton.L2

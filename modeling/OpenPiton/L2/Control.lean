import OpenPiton.L15.Defs
import OpenPiton.L2.AmoAlu
import OpenPiton.L2.WriteBack

namespace OpenPiton.L2

/-- The atomics that the L2 carries out in two phases, but for CAS. -/
inductive AtomicOp
  | swap | swapwb | amo (op : AmoOp)
  deriving DecidableEq

/-- `MSG_TYPE_*` of the requests in pipeline 1. -/
inductive MsgType
  | load | loadNoshare | store | lr | prefetch | ncLoad | ncStore | wbguard
  | cas | casP1 | casP2y | casP2n
  | atomic (op : AtomicOp) | atomicP1 (op : AtomicOp) | atomicP2 (op : AtomicOp)
  | rvcmo (op : L15.CmoOp) | disFlush | lineFlush | interruptFwd
  deriving DecidableEq

namespace MsgType

/-- `msg_type_trans_S1` but for the flushes: the atomics by their phase. -/
def trans (atomicState casCmp : Bool) : MsgType → MsgType
  | .cas => if !atomicState then .casP1 else if casCmp then .casP2y else .casP2n
  | .atomic op => if !atomicState then .atomicP1 op else .atomicP2 op
  | t => t

/-- The types that set `atomic_state_S1_f`. -/
def isP1 : MsgType → Bool
  | .casP1 | .atomicP1 _ => true
  | _ => false

/-- The types that reset it. -/
def isP2 : MsgType → Bool
  | .casP2y | .casP2n | .atomicP2 _ => true
  | _ => false

/-- The request types that pass the lookup of a write-back guard or a flush by when they miss. -/
def dropsOnMiss : MsgType → Bool
  | .wbguard | .lineFlush | .disFlush | .rvcmo _ => true
  | _ => false

end MsgType

/-- What the control tables of pipeline 1 read: the result of the lookup in stage 2, kept until stage 4. -/
structure Lookup where
  tagHit : Bool
  evict : Bool
  mesi : Mesi
  vd : Vd
  di : CacheType
  reqFromOwner : Bool
  fromMshr : Bool
  cacheType : CacheType
  deriving DecidableEq

/-- A row of the control table of stage 2. A field that the row does not enable is `none`. -/
structure CsP1 where
  amoAluOp : Option AmoOp := none
  dirClkEn : Bool := false
  dirWr : Bool := false
  dataClkEn : Bool := false
  dataWr : Bool := false
  mshrWrEn : Bool := false
  owner : Option CsOp := none
  subline : Option CsOp := none
  dataReady : Bool := false
  diEn : Bool := false
  vd : Option Vd := none
  mesi : Option Mesi := none
  lruSet : Option Bool := none
  deriving DecidableEq

/-- The messages of stage 4. -/
inductive SendType
  | loadFwd | storeFwd | invFwd | dataAck | nodataAck | loadMem | storeMem | ncLoadReq | ncStoreReq | interrupt
  deriving DecidableEq, Repr

structure CsS4 where
  sendFwd : Bool := false
  msg0 : Option SendType := none
  msg1 : Option SendType := none
  deriving DecidableEq

namespace Control

/-- The row of a request whose line is cached above: it goes to the MSHR and waits for the answers. -/
def forward : Mesi → Option CsP1
  | .s => some { dirClkEn := true, mshrWrEn := true }
  | .e | .b => some { mshrWrEn := true }
  | .i => none

/-- A line is given to the requester. -/
def grantE : CsP1 :=
  { dataClkEn := true, owner := some .ld, subline := some .add, diEn := true, mesi := some .e, lruSet := some true }

/-- The owner gets one more subline. -/
def grantOwner : CsP1 := { dataClkEn := true, subline := some .add, lruSet := some true }

def evictS2 (t : MsgType) (x : Lookup) : Option CsP1 :=
  match x.mesi with
  | .i =>
      match x.vd with
      | .clean => some { mshrWrEn := t != .lineFlush, vd := some .inval, lruSet := some false }
      | .dirty => some { dataClkEn := true, mshrWrEn := t != .lineFlush, vd := some .inval, lruSet := some false }
      | _ => none
  | mesi => forward mesi

def missS2 (t : MsgType) (x : Lookup) : Option CsP1 :=
  if t = .ncStore then
    if x.fromMshr then some {} else some { mshrWrEn := true, dataReady := true }
  else if t.dropsOnMiss then some {}
  else some { mshrWrEn := true }

/-- The atomics are carried out on lines that are not cached above. -/
def hitS2 (t : MsgType) (x : Lookup) : Option CsP1 :=
  match t with
  | .wbguard => some {}
  | .disFlush | .rvcmo _ =>
      match x.mesi with
      | .i => some { dataClkEn := true, vd := some .inval, lruSet := some false }
      | mesi => forward mesi
  | .ncLoad =>
      match x.mesi with
      | .i =>
          match x.vd with
          | .clean => some { dataClkEn := true, vd := some .inval, lruSet := some false }
          | .dirty => some { dataClkEn := true, mshrWrEn := true, vd := some .clean, lruSet := some false }
          | _ => none
      | mesi => forward mesi
  | .ncStore =>
      match x.mesi with
      | .i =>
          match x.vd with
          | .clean =>
              some { dataClkEn := true, mshrWrEn := true, dataReady := true, vd := some .inval, lruSet := some false }
          | .dirty => some { dataClkEn := true, mshrWrEn := true, vd := some .clean, lruSet := some false }
          | _ => none
      | mesi => forward mesi
  | .load =>
      match x.mesi with
      | .i =>
          if x.cacheType = .data then some grantE
          else some
            { dirClkEn := true, dirWr := true, dataClkEn := true, owner := some .clr, subline := some .add, diEn := true,
              mesi := some .s, lruSet := some true }
      | .s =>
          if x.cacheType = x.di then
            some { dirClkEn := true, dirWr := true, dataClkEn := true, subline := some .add, lruSet := some true }
          else forward .s
      | .b => if x.cacheType = x.di then some grantOwner else forward .b
      | .e => if x.reqFromOwner && x.cacheType = x.di then some grantOwner else forward .e
  | .loadNoshare =>
      match x.mesi with
      | .i => some { dataClkEn := true, diEn := true, lruSet := some true }
      | .s => if x.cacheType = x.di then some { dataClkEn := true, lruSet := some true } else forward .s
      | .b => if x.cacheType = x.di then some { dataClkEn := true, lruSet := some true } else forward .b
      | .e => forward .e
  | .lr =>
      match x.mesi with
      | .i => if x.cacheType = .data then some grantE else none
      | .s => forward .s
      | .e => if x.reqFromOwner && x.cacheType = x.di then some grantOwner else forward .e
      | .b => none
  | .prefetch => some { lruSet := some true }
  | .store =>
      match x.mesi with
      | .i => some grantE
      | .s => forward .s
      | .b => forward .b
      | .e => if x.reqFromOwner && x.cacheType = x.di then some grantOwner else forward .e
  | .casP1 =>
      match x.mesi with
      | .i => some { dataClkEn := true, dataReady := true, lruSet := some true }
      | mesi => forward mesi
  | .atomicP1 _ =>
      match x.mesi with
      | .i => some { dataClkEn := true, lruSet := some true }
      | mesi => forward mesi
  | .casP2y =>
      match x.mesi with
      | .i => some { dataClkEn := true, dataWr := true, dataReady := true, diEn := true, vd := some .dirty, lruSet := some true }
      | mesi => forward mesi
  | .atomicP2 op =>
      match x.mesi with
      | .i =>
          some
            { amoAluOp := match op with
                | .amo op => some op
                | _ => none
              dataClkEn := true, dataWr := true, dataReady := true, diEn := true, vd := some .dirty, lruSet := some true }
      | mesi => forward mesi
  | _ => none

/-- `cs_S2`; `none` is a row of x. -/
def csS2 (t : MsgType) (x : Lookup) : Option CsP1 :=
  if t = .casP2n ∨ t = .interruptFwd then some { dataReady := true }
  else if x.evict then evictS2 t x
  else if !x.tagHit then missS2 t x
  else hitS2 t x

/-- The message for the caches above. -/
def sendForward : Mesi → Option CsS4
  | .s | .b => some { sendFwd := true, msg0 := some .invFwd }
  | .e => some { sendFwd := true, msg0 := some .storeFwd }
  | .i => none

/-- `L2_SEND_NC_REQ` builds pass non-cacheable loads on. -/
def memRead (sendNcReq : Bool) (t : MsgType) : SendType :=
  if sendNcReq ∧ t = .ncLoad then .ncLoadReq else .loadMem

def evictS4 (sendNcReq : Bool) (t : MsgType) (x : Lookup) : Option CsS4 :=
  match x.mesi with
  | .i =>
      let read := if t = .lineFlush then .dataAck else memRead sendNcReq t
      match x.vd with
      | .clean => some { msg0 := some read }
      | .dirty => some { msg0 := some read, msg1 := some .storeMem }
      | _ => none
  | mesi => sendForward mesi

def missS4 (sendNcReq : Bool) (t : MsgType) (x : Lookup) : Option CsS4 :=
  match t with
  | .disFlush | .lineFlush => some { msg0 := some .dataAck }
  | .rvcmo _ => some { msg0 := some .nodataAck }
  | .ncStore => some { msg0 := some (if x.fromMshr then .nodataAck else .ncStoreReq) }
  | t => some { msg0 := some (memRead sendNcReq t) }

def hitS4 (t : MsgType) (x : Lookup) : Option CsS4 :=
  match t with
  | .disFlush | .lineFlush =>
      match x.mesi with
      | .i =>
          match x.vd with
          | .clean => some { msg0 := some .dataAck }
          | .dirty => some { msg0 := some .dataAck, msg1 := some .storeMem }
          | _ => none
      | mesi => sendForward mesi
  | .rvcmo op =>
      match x.mesi with
      | .i =>
          match x.vd with
          | .clean => some { msg0 := some .nodataAck }
          | .dirty => some { msg0 := some .nodataAck, msg1 := if op = .inval then none else some .storeMem }
          | _ => none
      | mesi => sendForward mesi
  | .ncStore =>
      match x.mesi with
      | .i =>
          match x.vd with
          | .clean => some { msg0 := some .ncStoreReq }
          | .dirty => some { msg0 := some .storeMem }
          | _ => none
      | mesi => sendForward mesi
  | .ncLoad =>
      match x.mesi with
      | .i =>
          match x.vd with
          | .clean => some { msg0 := some .dataAck }
          | .dirty => some { msg0 := some .storeMem }
          | _ => none
      | mesi => sendForward mesi
  | .load | .loadNoshare =>
      match x.mesi with
      | .i => some { msg0 := some .dataAck }
      | .s | .b => if x.cacheType = x.di then some { msg0 := some .dataAck } else sendForward x.mesi
      | .e =>
          if t = .load ∧ x.reqFromOwner = true ∧ x.cacheType = x.di then some { msg0 := some .dataAck }
          else if x.cacheType ≠ x.di then sendForward .e
          else some { sendFwd := true, msg0 := some .loadFwd }
  | .lr =>
      match x.mesi with
      | .i => some { msg0 := some .dataAck }
      | .s => sendForward .s
      | .e => if x.reqFromOwner && x.cacheType = x.di then some { msg0 := some .dataAck } else sendForward .e
      | .b => none
  | .prefetch => some { msg0 := some .nodataAck }
  | .store =>
      match x.mesi with
      | .i => some { msg0 := some .dataAck }
      | .s | .b => sendForward x.mesi
      | .e => if x.reqFromOwner && x.cacheType = x.di then some { msg0 := some .dataAck } else sendForward .e
  | .casP1 | .atomicP1 _ =>
      match x.mesi with
      | .i => some { msg0 := some .dataAck }
      | mesi => sendForward mesi
  | .casP2y | .atomicP2 _ =>
      match x.mesi with
      | .i => some {}
      | mesi => sendForward mesi
  | _ => none

/-- `cs_S4`. -/
def csS4 (sendNcReq : Bool) (t : MsgType) (x : Lookup) : Option CsS4 :=
  if t = .interruptFwd then some { msg0 := some .interrupt }
  else if t = .casP2n ∨ t = .wbguard then some {}
  else if x.evict then evictS4 sendNcReq t x
  else if !x.tagHit then missS4 sendNcReq t x
  else hitS4 t x

end Control

end OpenPiton.L2

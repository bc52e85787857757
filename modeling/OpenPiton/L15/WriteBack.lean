import OpenPiton.L15.Slots

namespace OpenPiton.L15

/-- Which copy an operation takes from the cache. -/
inductive Victim
  | tagcheck | lru | flush
  deriving DecidableEq, Repr

namespace Noc3Op

/-- The copy whose data goes out on NoC3. -/
def victim : Noc3Op → Option Victim
  | .none | .icacheInvalAck => Option.none
  | .writebackIfLruMFromDcache => some .lru
  | .writebackIfFlushMFromDcache => some .flush
  | _ => some .tagcheck

/-- Write-backs carry the line, acknowledgements of forwards a row of it. -/
def type : Noc3Op → Noc3Reqtype
  | .none => .none
  | .writebackIfTagcheckMFromDcache | .writebackIfLruMFromDcache | .writebackIfFlushMFromDcache => .writeback
  | .invalAckFromDcache | .invalAckIfTagcheckMFromDcache => .invalAck
  | .downgradeAckFromDcache | .downgradeAckIfTagcheckMFromDcache => .downgradeAck
  | .icacheInvalAck => .icacheInvalAck

end Noc3Op

namespace Victim

def dcacheOp : Victim → DcacheOp
  | .tagcheck => .readTagcheckWayIfM
  | .lru => .readLruWayIfM
  | .flush => .readFlushWayIfM

def guard : Victim → Noc1Op
  | .tagcheck => .writebackGuardIfTagcheckM
  | .lru => .writebackGuardIfLruM
  | .flush => .writebackGuardIfFlushM

end Victim

/-- A dirty line, or row of it, on its way to the L2: the address of the first word, in rows of
sixteen bytes, and the words. -/
structure WriteBack where
  type : Noc3Reqtype
  base : Nat
  words : List Word
  deriving DecidableEq, Repr

namespace State

namespace Noc3Req

variable (cfg : Config)

/-- The payload of the message in the order `noc3encoder` sends it. -/
def payload (r : Noc3Req) : List Word :=
  if r.type = .writeback then r.data.take cfg.lineWords
  else if cfg.parallelSrams then r.data.take 8
  else r.data.take 2

def writeBack (r : Noc3Req) : Option WriteBack :=
  if r.withData then
    some
      { type := r.type
        base :=
          if r.type = .writeback ∨ cfg.parallelSrams then r.address / cfg.lineSize * (cfg.lineSize / 16)
          else r.address / 16
        words := r.payload cfg }
  else none

end Noc3Req

variable (cfg : Config)

/-! ## What leaves the cache -/

/-- The way that holds a copy of the line of an address. -/
def copyOf (s : State) (address : Nat) : Option Nat :=
  (List.range cfg.ways).find? fun way =>
    cfg.cacheTag address == s.arrays.dtag (cfg.cacheIndex address) way &&
      s.arrays.mesi.rows (cfg.cacheIndex address) way != .i

/-- The way the operation of S2 takes data from. -/
def victimWay (s : State) : Option Nat :=
  match (s.s2.ctl cfg).noc3Op.victim with
  | none => none
  | some .tagcheck => s.copyOf cfg s.s2.address
  | some .lru => some (lruWayOf cfg (s.arrays.lru.rows (s.cacheIndexS2 cfg)))
  | some .flush => some (cfg.flushWay s.s2.address)

/-- The words of a way, all of them or those of one row. -/
def wordsOf (s : State) (type : Noc3Reqtype) (way : Nat) : List Word :=
  let line := s.arrays.dcache (s.cacheIndexS2 cfg) way
  if type = .writeback ∨ cfg.parallelSrams then (List.range cfg.lineWords).map line
  else [line (2 * cfg.reqSubline s.s2.address), line (2 * cfg.reqSubline s.s2.address + 1)]

/-- A way of the set of S2 as it goes out: its line, from the tag, or the row the request names. -/
def recordOf (s : State) (type : Noc3Reqtype) (way : Nat) : WriteBack where
  type := type
  base := (s.arrays.dtag (s.cacheIndexS2 cfg) way * 2 ^ cfg.indexWidth + s.cacheIndexS2 cfg) * (cfg.lineSize / 16) +
    if type = .writeback ∨ cfg.parallelSrams then 0 else cfg.reqSubline s.s2.address
  words := s.wordsOf cfg type way

/-- What the operation of S2 takes out of the cache: the line in the array, if it is dirty there. -/
def removalS2 (s : State) : Option WriteBack :=
  ((s.victimWay cfg).filter fun way => s.arrays.mesi.rows (s.cacheIndexS2 cfg) way == .m).map
    (s.recordOf cfg (s.s2.ctl cfg).noc3Op.type)

/-- What leaves the cache in this cycle: the operation of S2 with its last beat. -/
def removal (s : State) (i : Input) : Option WriteBack :=
  if s.s2.val && !s.stallS2 cfg i then s.removalS2 cfg else none

/-- The data that S3 puts to the NoC3 buffer. -/
def offered (s : State) : Option WriteBack := (s.noc3encoderReq cfg).bind (Noc3Req.writeBack cfg)

/-- The data that the NoC3 buffer takes in this cycle. -/
def taken (s : State) (i : Input) : Option WriteBack := if i.noc3Ack then s.offered cfg else none

/-- A line flush reads the row of its address in every beat: the dirty line it takes out repeats it. -/
def FlushesOneRow (s : State) : Prop :=
  s.s2.val = true → (s.s2.ctl cfg).dcacheOp = .readFlushWayIfM → s.flushStateS2 cfg = .m →
    cfg.parallelSrams = false → ∀ j < cfg.lineWords,
      s.arrays.dcache (s.cacheIndexS2 cfg) (s.flushWayS2 cfg) j =
        s.arrays.dcache (s.cacheIndexS2 cfg) (s.flushWayS2 cfg) (2 * s.s2.reqSubline + j % 2)

instance (s : State) : Decidable (FlushesOneRow cfg s) := by unfold FlushesOneRow; infer_instance

end State

section Decoder

variable (cfg : Config) (d : DecoderIn)

/-- The reads an operation with data for NoC3 comes with, and its guard on NoC1. -/
def Ctl.takes (ctl : Ctl) (d : DecoderIn) : Bool :=
  match ctl.noc3Op.victim with
  | none => true
  | some v =>
      ctl.dtagOp == .read && ctl.mesiRead && ctl.dcacheOp == v.dcacheOp &&
        if ctl.noc3Op.type = .writeback then ctl.noc1Op == v.guard
        else ctl.noc1Op == .none &&
          (ctl.cpxOp == .none ||
            ctl.cpxOp == .invalidationIfTagcheckMesAndWaymapValid && d.reqtype == .invalidation)

theorem decoder_takes : (decoder cfg d).takes d = true := by
  obtain ⟨fs, reqtype, last, dis, hit, broadcast⟩ := d
  cases reqtype with
  | writethrough => cases dis <;> cases fs <;> rfl
  | store => cases hit <;> rfl
  | pcxInterrupt => cases broadcast <;> rfl
  | loadNc | lineFlush | cas | swpLoadstub | amoLr | amo | ackdtLd | ackdtStIm | ackdtLr => cases fs <;> rfl
  | icacheInvalidation => cases last <;> rfl
  | invalidation | downgrade =>
      cases hp : cfg.parallelSrams <;> cases last <;> cases fs <;>
        simp [decoder, Decoder.invalidation, Decoder.downgrade, Ctl.takes, Noc3Op.victim,
          Noc3Op.type, Victim.dcacheOp, hp]
  | _ => rfl

end Decoder

namespace State

variable {cfg : Config} {s : State} {i : Input}

theorem noc3TypeS3_eq : s.noc3TypeS3 cfg = (s.s3.ctl cfg).noc3Op.type := by
  simp only [noc3TypeS3]
  cases (s.s3.ctl cfg).noc3Op <;> rfl

/-! ## The way S2 reads -/

def readWayS2 (cfg : Config) (s : State) : Victim → Nat
  | .tagcheck => s.tagcheckWayS2 cfg
  | .lru => s.lruWayS2 cfg
  | .flush => s.flushWayS2 cfg

def readStateS2 (cfg : Config) (s : State) : Victim → Mesi
  | .tagcheck => s.tagcheckStateS2 cfg
  | .lru => s.lruStateS2 cfg
  | .flush => s.flushStateS2 cfg

def lineS2 (cfg : Config) (s : State) (v : Victim) : Nat → Word :=
  s.arrays.dcache (s.cacheIndexS2 cfg) (s.readWayS2 cfg v)

theorem takes_of_victim {v : Victim} (h : (s.s2.ctl cfg).noc3Op.victim = some v) :
    (s.s2.ctl cfg).dtagOp = .read ∧ (s.s2.ctl cfg).mesiRead = true ∧ (s.s2.ctl cfg).dcacheOp = v.dcacheOp ∧
      ((s.s2.ctl cfg).noc3Op.type = .writeback → (s.s2.ctl cfg).noc1Op = v.guard) ∧
      ((s.s2.ctl cfg).noc3Op.type ≠ .writeback → (s.s2.ctl cfg).noc1Op = .none ∧
        ((s.s2.ctl cfg).cpxOp = .none ∨
          (s.s2.ctl cfg).cpxOp = .invalidationIfTagcheckMesAndWaymapValid ∧ s.s2.d.reqtype = .invalidation)) := by
  have ht := decoder_takes cfg s.s2.d
  rw [Ctl.takes, show decoder cfg s.s2.d = s.s2.ctl cfg from rfl, h] at ht
  simp only [Bool.and_eq_true, beq_iff_eq] at ht
  obtain ⟨⟨⟨hd, hm⟩, hc⟩, hn⟩ := ht
  refine ⟨hd, hm, hc, fun hw => by simpa [hw] using hn, fun hw => ?_⟩
  simpa [hw] using hn

theorem tagcheckS2_eq (hl : Latched cfg s) (hv : s.s2.val = true) (hm : (s.s2.ctl cfg).mesiRead = true)
    (hd : (s.s2.ctl cfg).dtagOp = .read) : s.tagcheckS2 cfg = s.copyOf cfg s.s2.address := by
  rw [tagcheckS2, copyOf]
  congr 1
  funext way
  simp only [tagcheckHit, RegFile.readData, hl.mesi hv hm, hl.dtag hv hd]

theorem tagcheckStateS2_m (h : s.tagcheckStateS2 cfg = .m) : s.tagcheckS2 cfg = some (s.tagcheckWayS2 cfg) := by
  rw [tagcheckWayS2]
  cases hs : s.tagcheckS2 cfg with
  | none => simp [tagcheckStateS2, hs] at h
  | some way => rfl

theorem mesiReadData_eq (hl : Latched cfg s) (hv : s.s2.val = true) (hm : (s.s2.ctl cfg).mesiRead = true) :
    s.arrays.mesi.readData = s.arrays.mesi.rows (s.cacheIndexS2 cfg) := by
  rw [RegFile.readData, hl.mesi hv hm]
  rfl

theorem lruWayS2_eq (hl : Latched cfg s) (hv : s.s2.val = true) :
    s.lruWayS2 cfg = lruWayOf cfg (s.arrays.lru.rows (s.cacheIndexS2 cfg)) := by
  rw [lruWayS2, RegFile.readData, hl.lru hv]
  rfl

theorem removalS2_eq (hl : Latched cfg s) (hv : s.s2.val = true) {v : Victim}
    (h : (s.s2.ctl cfg).noc3Op.victim = some v) :
    s.removalS2 cfg =
      if s.readStateS2 cfg v = .m then some (s.recordOf cfg (s.s2.ctl cfg).noc3Op.type (s.readWayS2 cfg v))
      else none := by
  obtain ⟨hd, hm, -⟩ := takes_of_victim h
  have hmesi := mesiReadData_eq hl hv hm
  simp only [removalS2, victimWay, h]
  generalize s.recordOf cfg (s.s2.ctl cfg).noc3Op.type = record
  cases v with
  | tagcheck =>
      simp only [readStateS2, readWayS2, tagcheckStateS2, tagcheckWayS2, ← tagcheckS2_eq hl hv hm hd, hmesi]
      cases s.tagcheckS2 cfg with
      | none => simp
      | some way =>
          by_cases hw : s.arrays.mesi.rows (s.cacheIndexS2 cfg) way = .m <;> simp [hw]
  | lru =>
      simp only [readStateS2, readWayS2, lruStateS2, ← lruWayS2_eq hl hv, hmesi, Option.filter_some, beq_iff_eq]
      split <;> rfl
  | flush =>
      simp only [readStateS2, readWayS2, flushStateS2, flushWayS2, hmesi, Option.filter_some, beq_iff_eq]
      split <;> rfl

theorem removalS2_none (h : (s.s2.ctl cfg).noc3Op.victim = none) : s.removalS2 cfg = none := by
  simp [removalS2, victimWay, h]

theorem lineAddress_div (tag index : Nat) : cfg.lineAddress tag index / cfg.lineSize = tag * 2 ^ cfg.indexWidth + index := by
  have : 0 < cfg.lineSize := by unfold Config.lineSize; cases cfg.organisation <;> decide
  rw [Config.lineAddress, Nat.mul_div_cancel _ this]

theorem cacheTag_cacheIndex (address : Nat) :
    cfg.cacheTag address * 2 ^ cfg.indexWidth + cfg.cacheIndex address = address / cfg.lineSize :=
  Nat.div_add_mod' _ _

theorem row_eq (address : Nat) :
    address / 16 = address / cfg.lineSize * (cfg.lineSize / 16) + cfg.reqSubline address := by
  simp only [Config.reqSubline, Config.lineSize]
  cases cfg.organisation <;> simp only <;> omega

theorem dtagDout_of_tagcheck (h : s.tagcheckStateS2 cfg = .m) :
    s.arrays.dtagDout (s.tagcheckWayS2 cfg) = cfg.cacheTag s.s2.address := by
  have hs := List.find?_some (tagcheckStateS2_m h)
  simp only [tagcheckHit, Bool.and_eq_true, beq_iff_eq] at hs
  exact hs.1.symm

/-! ## Beats -/

/-- The assembly buffer holds the rows before `k` of a line, the output register row `k`. -/
def Assembled (s : State) (line : Nat → Word) (k : Nat) : Prop :=
  (∀ j < 2 * k, s.doutBuf j = line j) ∧ ∀ j < 2, s.arrays.dcacheDout j = line (2 * k + j)

theorem noc3WbS2_of_victim {v : Victim} (h : (s.s2.ctl cfg).noc3Op.victim = some v) :
    s.noc3WbS2 cfg = (decide ((s.s2.ctl cfg).noc3Op.type = .writeback) && (s.readStateS2 cfg v == .m)) := by
  obtain ⟨-, -, -, hw, hn⟩ := takes_of_victim h
  by_cases ht : (s.s2.ctl cfg).noc3Op.type = .writeback
  · rw [noc3WbS2, hw ht]
    cases v <;> simp [ht, Victim.guard, readStateS2]
  · rw [noc3WbS2, (hn ht).1]
    simp [ht]

theorem dcacheReqS2_of_victim {v : Victim} (h : (s.s2.ctl cfg).noc3Op.victim = some v)
    (hm : s.readStateS2 cfg v = .m) :
    s.dcacheReqS2 cfg = some ⟨s.readWayS2 cfg v,
      if s.noc3WbS2 cfg = true ∧ v ≠ .flush then s.s2.cacheSubline else s.s2.reqSubline, none⟩ := by
  obtain ⟨-, -, hc, -⟩ := takes_of_victim h
  rw [dcacheReqS2, hc]
  cases v <;> simp_all [Victim.dcacheOp, readStateS2, readWayS2]

theorem dcacheDout_step {v : Victim} (hv : s.s2.val = true) (h3 : s.stallS3 cfg i = false)
    (h : (s.s2.ctl cfg).noc3Op.victim = some v) (hm : s.readStateS2 cfg v = .m) :
    (s.step cfg i).arrays.dcache = s.arrays.dcache ∧
      (s.step cfg i).arrays.dcacheDout = fun j => s.lineS2 cfg v
        (if cfg.parallelSrams then j
          else 2 * (if s.noc3WbS2 cfg = true ∧ v ≠ .flush then s.s2.cacheSubline else s.s2.reqSubline) + j) := by
  have hr : s.dcacheReq cfg i = some ⟨s.readWayS2 cfg v,
      if s.noc3WbS2 cfg = true ∧ v ≠ .flush then s.s2.cacheSubline else s.s2.reqSubline, none⟩ := by
    rw [dcacheReq, dcacheReqS2_of_victim h hm, hv, stallRealS2_eq hv, h3]
    rfl
  constructor
  · simp only [step_arrays, arraysNext, dcacheNext, hr]
  · simp only [step_arrays, arraysNext, dcacheDoutNext, hr]
    rfl

/-- The registers of S2 the reads go by, and the rows a write-back has behind it. -/
structure Reading (cfg : Config) (s : State) : Prop where
  subline : s.s2.val = true → s.s2.reqSubline = cfg.reqSubline s.s2.address
  multicyc : s.s2.val = true → s.s2.d.reqtype = .invalidation → s.s2.multicycInvordowngrade = true
  assembled : ∀ v, (s.s2.ctl cfg).noc3Op.victim = some v → s.s2.cacheSubline ≠ 0 → s.noc3WbS2 cfg = true →
    Assembled s (s.lineS2 cfg v) s.s3.cacheSubline

theorem lineWords_eq (h : cfg.parallelSrams = false) : cfg.lineWords = 2 * (cfg.lastBeat + 1) := by
  revert h
  simp only [Config.parallelSrams, Config.lineWords, Config.lineSize, Config.lastBeat]
  cases cfg.organisation <;> simp

theorem lastBeat_of_parallel (h : cfg.parallelSrams = true) : cfg.lastBeat = 0 := by
  revert h
  simp only [Config.parallelSrams, Config.lastBeat]
  cases cfg.organisation <;> simp

theorem lineS2_row {v : Victim} (hf : FlushesOneRow cfg s) (hp : cfg.parallelSrams = false)
    (hle : s.s2.cacheSubline ≤ cfg.lastBeat) (hv : s.s2.val = true)
    (h : (s.s2.ctl cfg).noc3Op.victim = some v) (hwb : s.noc3WbS2 cfg = true) {j : Nat} (hj : j < 2) :
    s.lineS2 cfg v (2 * (if s.noc3WbS2 cfg = true ∧ v ≠ .flush then s.s2.cacheSubline else s.s2.reqSubline) + j) =
      s.lineS2 cfg v (2 * s.s2.cacheSubline + j) := by
  by_cases hvf : v = .flush
  · subst hvf
    have hm : s.readStateS2 cfg .flush = .m := by
      rw [noc3WbS2_of_victim h] at hwb
      simp only [Bool.and_eq_true, beq_iff_eq] at hwb
      exact hwb.2
    have hw := lineWords_eq hp
    have hrow := hf hv (takes_of_victim h).2.2.1 hm hp (2 * s.s2.cacheSubline + j) (by omega)
    have hmod : (2 * s.s2.cacheSubline + j) % 2 = j := by omega
    rw [hmod] at hrow
    simpa [lineS2, readWayS2] using hrow.symm
  · simp [hwb, hvf]

/-- A beat of a write-back: the row before it goes to the buffer, its own row comes out of the array. -/
theorem assembled_step {v : Victim} (hp : Piped cfg s) (hr : Reading cfg s) (hf : FlushesOneRow cfg s)
    (hser : cfg.parallelSrams = false) (hv : s.s2.val = true) (h3 : s.stallS3 cfg i = false)
    (h : (s.s2.ctl cfg).noc3Op.victim = some v) (hwb : s.noc3WbS2 cfg = true) :
    Assembled (s.step cfg i) (s.lineS2 cfg v) s.s2.cacheSubline := by
  have hm : s.readStateS2 cfg v = .m := by
    rw [noc3WbS2_of_victim h] at hwb
    simp only [Bool.and_eq_true, beq_iff_eq] at hwb
    exact hwb.2
  constructor
  · intro j hj
    have h0 : s.s2.cacheSubline ≠ 0 := by omega
    obtain ⟨hbuf, hout⟩ := hr.assembled v h h0 hwb
    have hfol := hp.beats.follows h0
    have hwb3 : s.s3.noc3Wb = true := by
      have := congrArg S3.noc3Wb hfol.2.2.2
      exact this.trans hwb
    change s.doutBufNext cfg j = _
    simp only [doutBufNext, hser, hp.beats.s3_val h0, hwb3, Bool.not_false, Bool.true_and, beq_iff_eq]
    split
    · have hj2 : 2 * s.s3.cacheSubline + j % 2 = j := by omega
      rw [hout (j % 2) (by omega), hj2]
    · exact hbuf j (by omega)
  · intro j hj
    rw [(dcacheDout_step hv h3 h hm).2]
    simp only [hser, Bool.false_eq_true, if_false]
    exact lineS2_row hf hser hp.beats.le hv h hwb hj

theorem preS1_multicyc (h : (s.preS1 cfg).reqtype = .invalidation) : (s.preS1 cfg).multicycInvordowngrade = true := by
  cases hs : (s.preS1 cfg).source with
  | invalid =>
      rw [preS1_source] at hs
      simp [preS1, predecode, hs] at h
  | pcx =>
      rw [(preS1_of_pcx hs).1] at h
      revert h
      simp only [Predecode.ofPcx]
      cases (s.pcx.getD {}).rqtype with
      | cmo op => cases op <;> simp
      | load => simp only [Predecode.loadReqtype]; split_ifs <;> simp
      | store => simp only [Predecode.storeReqtype]; split_ifs <;> simp
      | ifill => simp only; split_ifs <;> simp
      | amo op => cases op <;> simp [Predecode.amoReqtype]
      | _ => simp
  | noc2 =>
      rw [preS1_source] at hs
      simp only [preS1, predecode, hs] at h ⊢
      revert h
      simp only [Predecode.ofNoc2, Predecode.ackdtReqtype]
      cases s.noc2.reqtype <;> simp only <;> repeat' split
      all_goals simp

theorem dcache_step {v : Victim} (h : (s.s2.ctl cfg).noc3Op.victim = some v) :
    (s.step cfg i).arrays.dcache = s.arrays.dcache := by
  have hr : ∀ r, s.dcacheReqS2 cfg = some r → r.write = none := by
    intro r
    rw [dcacheReqS2, (takes_of_victim h).2.2.1]
    cases v <;> simp only [Victim.dcacheOp] <;> split <;> intro hr <;> cases hr <;> rfl
  change s.dcacheNext cfg i = _
  unfold dcacheNext
  split
  · rename_i way subline source hreq
    simp only [dcacheReq] at hreq
    split at hreq
    · exact absurd (hr _ hreq) (by simp)
    · cases hreq
  · rfl

theorem lineS2_of_stallS2 {v : Victim} (hp : Piped cfg s) (hv : s.s2.val = true) (h2 : s.stallS2 cfg i = true)
    (ho : (s.s2Next cfg i).op = s.s2.op) (h : (s.s2.ctl cfg).noc3Op.victim = some v) :
    (s.step cfg i).lineS2 cfg v = s.lineS2 cfg v ∧ (s.step cfg i).noc3WbS2 cfg = s.noc3WbS2 cfg := by
  have hr := sameRead_of_stallS2 h2 ho
  have hlru : v = .lru → (s.step cfg i).arrays.lru.readData = s.arrays.lru.readData := by
    rintro rfl
    have hc := (takes_of_victim h).2.2.1
    have hev : (s.s2.ctl cfg).lruarrayWriteOp = .eviction := by
      have ht : (s.s2.ctl cfg).noc3Op.type = .writeback := by
        revert h
        cases (s.s2.ctl cfg).noc3Op <;> simp [Noc3Op.victim, Noc3Op.type]
      exact eviction_iff.mpr (.inl ((takes_of_victim h).2.2.2.1 ht))
    exact hp.beats.lru_kept hp.indexFree hp.latched hv h2 hev
  have hway : (s.step cfg i).readWayS2 cfg v = s.readWayS2 cfg v := by
    cases v with
    | tagcheck => simp only [readWayS2, tagcheckWayS2, hr.tagcheck]
    | lru => exact (hr.lruState cfg (hlru rfl)).1
    | flush => simp only [readWayS2, flushWayS2, hr.address]
  have hstate : (s.step cfg i).readStateS2 cfg v = s.readStateS2 cfg v := by
    cases v with
    | tagcheck => exact hr.tagcheckState
    | lru => exact (hr.lruState cfg (hlru rfl)).2
    | flush => exact hr.flushState
  constructor
  · rw [lineS2, lineS2, dcache_step h, hway, cacheIndexS2, cacheIndexS2, hr.address]
  · rw [noc3WbS2_of_victim (by rw [hr.ctl]; exact h), noc3WbS2_of_victim h, hr.ctl, hstate]

theorem Reading.step (hp : Piped cfg s) (hr : Reading cfg s) (hf : FlushesOneRow cfg s) :
    Reading cfg (s.step cfg i) := by
  rcases s2_cases cfg s i with ⟨hv, h3, he⟩ | ⟨hv, h3, hload, he⟩ | ⟨h2, h3, he⟩
  · have h2 : s.stallS2 cfg i = true := by simp [stallS2, stallRealS2_eq hv, h3]
    have h2' : (s.step cfg i).s2 = s.s2 := he
    have h3' : (s.step cfg i).s3 = s.s3 := s3Next_of_stall h3
    refine ⟨by rw [h2']; exact hr.subline, by rw [h2']; exact hr.multicyc, fun v h h0 hwb => ?_⟩
    rw [h2'] at h h0
    obtain ⟨hline, hwbeq⟩ := lineS2_of_stallS2 hp hv h2 (by rw [he]) h
    rw [hwbeq] at hwb
    rw [hline, h3']
    obtain ⟨hbuf, hout⟩ := hr.assembled v h h0 hwb
    have hreq : s.dcacheReq cfg i = none := by simp [dcacheReq, stallRealS2_eq hv, h3]
    constructor
    · intro j hj
      change s.doutBufNext cfg j = _
      rw [doutBufNext, if_neg (by simp; omega)]
      exact hbuf j hj
    · intro j hj
      change s.dcacheDoutNext cfg i j = _
      rw [dcacheDoutNext, hreq]
      exact hout j hj
  · have h2 : s.stallS2 cfg i = true := by simp [stallS2, hload]
    have h2' : (s.step cfg i).s2 = { s.s2 with cacheSubline := s.s2.cacheSubline + 1 } := he
    have h3' : (s.step cfg i).s3 = s.s3Latch cfg := s3Next_of_move h3
    refine ⟨by rw [h2']; exact hr.subline, by rw [h2']; exact hr.multicyc, fun v h _ hwb => ?_⟩
    rw [h2'] at h
    change (s.s2.ctl cfg).noc3Op.victim = some v at h
    obtain ⟨hline, hwbeq⟩ := lineS2_of_stallS2 hp hv h2 (by rw [he]; rfl) h
    rw [hwbeq] at hwb
    rw [hline, h3']
    have hser : cfg.parallelSrams = false := by
      by_contra hpar
      have h0 := lastBeat_of_parallel (by simpa using hpar)
      have := hp.beats.le
      simp only [stallLoadS2, Bool.and_eq_true, bne_iff_ne] at hload
      omega
    exact assembled_step hp hr hf hser hv h3 h hwb
  · refine ⟨fun _ => ?_, fun _ hq => ?_, fun v _ h0 => ?_⟩
    · rw [step_s2, he]
      rfl
    · rw [step_s2, he] at hq ⊢
      exact preS1_multicyc hq
    · rw [step_s2, he] at h0
      exact absurd rfl h0

theorem Init.reading (h : Init s) : Reading cfg s := by
  constructor <;> simp [h.s2]

/-! ## What S3 offers -/

theorem takes_s3 {v : Victim} (h : (s.s3.ctl cfg).noc3Op.victim = some v) :
    if (s.s3.ctl cfg).noc3Op.type = .writeback then (s.s3.ctl cfg).noc1Op = v.guard
    else (s.s3.ctl cfg).noc1Op = .none := by
  have ht := decoder_takes cfg s.s3.d
  rw [Ctl.takes, show decoder cfg s.s3.d = s.s3.ctl cfg from rfl, h] at ht
  simp only [Bool.and_eq_true, beq_iff_eq] at ht
  split_ifs with hw
  · simpa [hw] using ht.2
  · have := ht.2
    simp only [hw, if_false, Bool.and_eq_true, beq_iff_eq] at this
    exact this.1

def foundS3 (s : State) : Victim → Mesi
  | .tagcheck => s.s3.tagcheckState
  | .lru => s.s3.lruState
  | .flush => s.s3.flushState

def victimAddressS3 (cfg : Config) (s : State) : Victim → Nat
  | .tagcheck => s.s3.address
  | .lru => s.s3.lruWayAddress cfg
  | .flush => s.s3.flushWayAddress cfg

def messageS3 (cfg : Config) (s : State) (v : Victim) : WriteBack :=
  let type := (s.s3.ctl cfg).noc3Op.type
  let address := s.victimAddressS3 cfg v
  { type := type
    base :=
      if type = .writeback ∨ cfg.parallelSrams then address / cfg.lineSize * (cfg.lineSize / 16) else address / 16
    words := (s.noc3DataS3 cfg).take
      (if type = .writeback then cfg.lineWords else if cfg.parallelSrams then 8 else 2) }

/-- Whether the request of S3 carries data, and where it says the data belong. -/
theorem noc3Dirty_eq {v : Victim} (hm : s.s3.Marked cfg) (h : (s.s3.ctl cfg).noc3Op.victim = some v) :
    (s.noc3ReqValS3 cfg && s.noc3WithDataS3 cfg) = (s.foundS3 v == .m) ∧
      s.noc3AddressS3 cfg = s.victimAddressS3 cfg v := by
  have hwb := hm.noc3Wb
  have ht := takes_s3 h
  simp only [noc3ReqValS3, noc3WithDataS3, noc3AddressS3]
  revert h ht
  cases (s.s3.ctl cfg).noc3Op with
  | none | icacheInvalAck => intro h; cases h
  | writebackIfTagcheckMFromDcache | writebackIfLruMFromDcache | writebackIfFlushMFromDcache =>
      intro h ht
      cases h
      simp only [Noc3Op.type, if_true, Victim.guard] at ht
      rw [ht] at hwb
      simp [foundS3, victimAddressS3, hwb]
  | invalAckFromDcache | invalAckIfTagcheckMFromDcache | downgradeAckFromDcache
  | downgradeAckIfTagcheckMFromDcache =>
      intro h _
      cases h
      simp [foundS3, victimAddressS3]

theorem offered_eq {v : Victim} (hm : s.s3.Marked cfg) (h : (s.s3.ctl cfg).noc3Op.victim = some v) :
    s.offered cfg =
      if s.s3.val && !s.noc3Staled && (s.foundS3 v == .m) &&
          (cfg.parallelSrams || !s.s3.noc3Wb || s.atLastBeatS3 cfg) then
        some (s.messageS3 cfg v)
      else none := by
  obtain ⟨hd, ha⟩ := noc3Dirty_eq hm h
  have hval : (s.noc3encoderReqVal cfg && s.noc3WithDataS3 cfg) =
      (s.s3.val && !s.noc3Staled && (s.foundS3 v == .m) &&
        (cfg.parallelSrams || !s.s3.noc3Wb || s.atLastBeatS3 cfg)) := by
    rw [← hd, noc3encoderReqVal]
    cases s.s3.val <;> cases s.noc3Staled <;> cases s.noc3WithDataS3 cfg <;> cases s.noc3ReqValS3 cfg <;> simp
  rw [← hval, offered, noc3encoderReq]
  cases s.noc3encoderReqVal cfg with
  | false => rfl
  | true =>
      cases hw : s.noc3WithDataS3 cfg with
      | false => simp [Noc3Req.writeBack]
      | true =>
          simp only [if_true, Option.bind_some, Noc3Req.writeBack, Noc3Req.payload, messageS3, noc3TypeS3_eq, ha,
            Bool.and_self]
          split_ifs <;> rfl

theorem offered_none (h : (s.s3.ctl cfg).noc3Op.victim = none) : s.offered cfg = none := by
  have hd : s.noc3WithDataS3 cfg = false := by
    rw [noc3WithDataS3]
    revert h
    cases (s.s3.ctl cfg).noc3Op <;> simp [Noc3Op.victim]
  rw [offered, noc3encoderReq]
  cases s.noc3encoderReqVal cfg with
  | false => rfl
  | true => simp [Noc3Req.writeBack, hd]

theorem noc3Staled_of_move (h : s.stallS3 cfg i = false) : (s.step cfg i).noc3Staled = false := by
  have hc : s.stallForCpxS3 cfg i = false := by
    cases hv : s.s3.val with
    | false => simp [stallForCpxS3, cpxencoderVal, hv]
    | true =>
        simp only [stallS3, hv, Bool.true_and, Bool.or_eq_false_iff] at h
        exact h.1
  simp [step, staledNext, h, hc]

/-- The words of a line as the assembly buffer and the output register give them. -/
theorem noc3Data_of_assembled {line : Nat → Word} (hp : cfg.parallelSrams = false) (hwb : s.s3.noc3Wb = true)
    (h : Assembled s line cfg.lastBeat) : s.noc3DataS3 cfg = (List.range cfg.lineWords).map line := by
  obtain ⟨hbuf, hout⟩ := h
  revert hp hbuf hout
  simp only [Config.parallelSrams, Config.lastBeat, noc3DataS3, Config.lineWords, Config.lineSize, hwb]
  cases cfg.organisation with
  | parallel64 => simp
  | serial16 | serial32 | serial64 =>
      intro _ hbuf hout
      simp [List.range_succ, hbuf, hout]

theorem whole_of_victim {v : Victim} (h : (s.s2.ctl cfg).noc3Op.victim = some v) :
    (s.s2.ctl cfg).noc3Op.type = .writeback ∨ v = .tagcheck := by
  revert h
  cases (s.s2.ctl cfg).noc3Op <;> simp +contextual [Noc3Op.victim, Noc3Op.type]

theorem parallel_words {line dout : Nat → Word} {n : Nat} (hp : cfg.parallelSrams = true) (hn : 8 ≤ n)
    (h : s.arrays.dcacheDout = dout) (hd : dout = line) :
    (s.noc3DataS3 cfg).take n = (List.range cfg.lineWords).map line := by
  revert hp
  simp only [Config.parallelSrams, noc3DataS3, Config.lineWords, Config.lineSize, h, hd]
  cases cfg.organisation with
  | parallel64 => exact fun _ => List.take_of_length_le (by simpa using hn)
  | serial16 | serial32 | serial64 => intro hp; cases hp

section Leave

variable {v : Victim} (hp : Piped cfg s) (hr : Reading cfg s) (hf : FlushesOneRow cfg s)
  (hv : s.s2.val = true) (h3 : s.stallS3 cfg i = false) (h : (s.s2.ctl cfg).noc3Op.victim = some v)
  (hm : s.readStateS2 cfg v = .m)

include hp hv h3 h hm

theorem base_of_leave :
    ((s.step cfg i).messageS3 cfg v).base = (s.recordOf cfg (s.s2.ctl cfg).noc3Op.type (s.readWayS2 cfg v)).base := by
  have hs3 : (s.step cfg i).s3 = s.s3Latch cfg := s3Next_of_move h3
  have hc : (s.step cfg i).s3.ctl cfg = s.s2.ctl cfg := by rw [hs3]; rfl
  have hdt : s.arrays.dtagDout = s.arrays.dtag (s.cacheIndexS2 cfg) := hp.latched.dtag hv (takes_of_victim h).1
  have hline : (s.step cfg i).victimAddressS3 cfg v / cfg.lineSize =
      s.arrays.dtag (s.cacheIndexS2 cfg) (s.readWayS2 cfg v) * 2 ^ cfg.indexWidth + s.cacheIndexS2 cfg := by
    rw [← hdt]
    cases v with
    | tagcheck =>
        rw [readWayS2, dtagDout_of_tagcheck hm, victimAddressS3, hs3]
        exact (cacheTag_cacheIndex _).symm
    | lru =>
        rw [victimAddressS3, hs3]
        exact lineAddress_div _ _
    | flush =>
        rw [victimAddressS3, hs3]
        exact lineAddress_div _ _
  simp only [messageS3, recordOf, hc]
  split
  · rw [hline, Nat.add_zero]
  · rename_i hw
    obtain rfl := (whole_of_victim h).resolve_left fun ht => hw (.inl ht)
    rw [@row_eq cfg, hline, victimAddressS3, hs3]
    rfl

include hr hf

theorem words_of_leave (hlast : s.noc3WbS2 cfg = true → s.s2.cacheSubline = cfg.lastBeat) :
    ((s.step cfg i).messageS3 cfg v).words = (s.recordOf cfg (s.s2.ctl cfg).noc3Op.type (s.readWayS2 cfg v)).words := by
  have hs3 : (s.step cfg i).s3 = s.s3Latch cfg := s3Next_of_move h3
  have hc : (s.step cfg i).s3.ctl cfg = s.s2.ctl cfg := by rw [hs3]; rfl
  have hwb3 : (s.step cfg i).s3.noc3Wb = s.noc3WbS2 cfg := by rw [hs3]; rfl
  have hwb := noc3WbS2_of_victim h
  rw [hm] at hwb
  have hout := (dcacheDout_step hv h3 h hm).2
  simp only [messageS3, recordOf, wordsOf, hc]
  change _ = if _ then (List.range cfg.lineWords).map (s.lineS2 cfg v) else
    [s.lineS2 cfg v (2 * cfg.reqSubline s.s2.address), s.lineS2 cfg v (2 * cfg.reqSubline s.s2.address + 1)]
  cases hpar : cfg.parallelSrams with
  | true =>
      refine Eq.trans ?_ (if_pos (.inr rfl)).symm
      refine parallel_words hpar ?_ hout (by funext j; simp [hpar])
      revert hpar
      simp only [Config.parallelSrams, Config.lineWords, Config.lineSize]
      cases cfg.organisation <;> simp
  | false =>
      by_cases ht : (s.s2.ctl cfg).noc3Op.type = .writeback
      · have hw : s.noc3WbS2 cfg = true := by simp [hwb, ht]
        have has := assembled_step hp hr hf hpar hv h3 h hw
        rw [hlast hw] at has
        rw [if_pos ht, if_pos (.inl ht), noc3Data_of_assembled hpar (hwb3.trans hw) has]
        exact List.take_of_length_le (by simp)
      · have hw : s.noc3WbS2 cfg = false := by simp [hwb, ht]
        rw [hw] at hwb3
        refine Eq.trans ?_ (if_neg (by simpa using ht)).symm
        rw [if_neg ht]
        have hd : ∀ j, (s.step cfg i).arrays.dcacheDout j = s.lineS2 cfg v (2 * cfg.reqSubline s.s2.address + j) := by
          intro j
          rw [hout]
          simp [hpar, hw, hr.subline hv]
        have h1 : ((s.step cfg i).noc3DataS3 cfg).take 2 = [(s.step cfg i).arrays.dcacheDout 0, (s.step cfg i).arrays.dcacheDout 1] := by
          revert hpar
          simp only [Config.parallelSrams, noc3DataS3, hwb3]
          cases cfg.organisation <;> simp
        simpa only [hd, Bool.false_eq_true, if_false, Nat.add_zero] using h1

theorem messageS3_of_leave (hlast : s.noc3WbS2 cfg = true → s.s2.cacheSubline = cfg.lastBeat) :
    (s.step cfg i).messageS3 cfg v = s.recordOf cfg (s.s2.ctl cfg).noc3Op.type (s.readWayS2 cfg v) := by
  have ht : ((s.step cfg i).messageS3 cfg v).type = (s.s2.ctl cfg).noc3Op.type := by
    rw [messageS3, step_s3, s3Next_of_move h3]
    rfl
  have hb := base_of_leave hp hv h3 h hm
  have hw := words_of_leave hp hr hf hv h3 h hm hlast
  calc (s.step cfg i).messageS3 cfg v
      = ⟨((s.step cfg i).messageS3 cfg v).type, ((s.step cfg i).messageS3 cfg v).base,
          ((s.step cfg i).messageS3 cfg v).words⟩ := rfl
    _ = _ := by rw [ht, hb, hw]; rfl

end Leave

/-- An operation in the middle of a burst has data to send in its last beat only. -/
theorem beat_of_burst {v : Victim} (hr : Reading cfg s) (hv : s.s2.val = true) (hb : s.burstS2 cfg = true)
    (h : (s.s2.ctl cfg).noc3Op.victim = some v) (hm : s.readStateS2 cfg v = .m) : s.noc3WbS2 cfg = true := by
  have hwb := noc3WbS2_of_victim h
  obtain ⟨-, -, hc, -, hrow⟩ := takes_of_victim h
  by_cases ht : (s.s2.ctl cfg).noc3Op.type = .writeback
  · simp [hwb, ht, hm]
  · exfalso
    obtain ⟨-, hcpx⟩ := hrow ht
    have hl : s.load64BS2 cfg = false := by rw [load64BS2, hc]; cases v <;> rfl
    have hw : s.mshrWriteS2 cfg = false := by rw [mshrWriteS2, hc]; cases v <;> rfl
    have hwb' : s.noc3WbS2 cfg = false := by simp [hwb, ht]
    have hd : s.l1dLoadS2 cfg = false := by rw [l1dLoadS2]; rcases hcpx with hcpx | ⟨hcpx, -⟩ <;> rw [hcpx]
    have hi : s.l1InvS2 cfg = false := by
      rcases hcpx with hcpx | ⟨-, hq⟩
      · rw [l1InvS2, l1InvAnyS2, hcpx]
        rfl
      · simp [l1InvS2, hr.multicyc hv hq]
    simp [burstS2, hl, hw, hwb', hd, hi] at hb

theorem foundS3_s3Latch {v : Victim} (h3 : s.stallS3 cfg i = false) :
    (s.step cfg i).foundS3 v = s.readStateS2 cfg v := by
  have hs3 : (s.step cfg i).s3 = s.s3Latch cfg := s3Next_of_move h3
  cases v <;> rw [foundS3, hs3] <;> rfl

theorem offered_of_move (hp : Piped cfg s) (hr : Reading cfg s) (hf : FlushesOneRow cfg s)
    (h3 : s.stallS3 cfg i = false) : (s.step cfg i).offered cfg = s.removal cfg i := by
  have hs3 : (s.step cfg i).s3 = s.s3Latch cfg := s3Next_of_move h3
  have hc : (s.step cfg i).s3.ctl cfg = s.s2.ctl cfg := by rw [hs3]; rfl
  cases hvic : (s.s2.ctl cfg).noc3Op.victim with
  | none =>
      rw [offered_none (by rw [hc]; exact hvic), removal, removalS2_none hvic, ite_self]
  | some v =>
      rw [offered_eq (marked_step hp.marked) (by rw [hc]; exact hvic), noc3Staled_of_move h3, foundS3_s3Latch h3,
        removal]
      cases hv : s.s2.val with
      | false =>
          have hv3 : (s.step cfg i).s3.val = false := by rw [hs3]; exact hv
          rw [hv3]
          rfl
      | true =>
          have hv3 : (s.step cfg i).s3.val = true := by rw [hs3]; exact hv
          have hwb3 : (s.step cfg i).s3.noc3Wb = s.noc3WbS2 cfg := by rw [hs3]; rfl
          have hlast3 : (s.step cfg i).atLastBeatS3 cfg = (s.s2.cacheSubline == cfg.lastBeat) := by
            rw [atLastBeatS3, hs3]
            rfl
          rw [removalS2_eq hp.latched hv hvic, hv3, hwb3, hlast3]
          by_cases hm : s.readStateS2 cfg v = .m
          · rw [if_pos hm, hm]
            cases hload : s.stallLoadS2 cfg with
            | true =>
                have h2 : s.stallS2 cfg i = true := by simp [stallS2, hload]
                simp only [stallLoadS2, Bool.and_eq_true, bne_iff_ne] at hload
                have hwb := beat_of_burst hr hv hload.1.2 hvic hm
                have hser : cfg.parallelSrams = false := by
                  by_contra hpar
                  have h0 := lastBeat_of_parallel (by simpa using hpar)
                  have := hp.beats.le
                  omega
                simp [h2, hwb, hser, hload.2]
            | false =>
                have h2 : s.stallS2 cfg i = false := by simp [stallS2, stallRealS2_eq hv, h3, hload]
                have hlast : s.noc3WbS2 cfg = true → s.s2.cacheSubline = cfg.lastBeat := by
                  intro hwb
                  simpa [stallLoadS2, burstS2, hv, hwb] using hload
                have hgo : (cfg.parallelSrams || !s.noc3WbS2 cfg || s.s2.cacheSubline == cfg.lastBeat) = true := by
                  cases hwb : s.noc3WbS2 cfg with
                  | false => simp
                  | true => simp [hlast hwb]
                rw [messageS3_of_leave hp hr hf hv h3 hvic hm hlast, hgo, h2]
                rfl
          · simp [hm]

theorem noc3DataS3_of_stall (h3 : s.stallS3 cfg i = true)
    (hg : (cfg.parallelSrams || !s.s3.noc3Wb || s.atLastBeatS3 cfg) = true) :
    (s.step cfg i).noc3DataS3 cfg = s.noc3DataS3 cfg := by
  have hs3 : (s.step cfg i).s3 = s.s3 := s3Next_of_stall h3
  have hreq : s.dcacheReq cfg i = none := by
    cases hv : s.s2.val with
    | false => simp [dcacheReq, hv]
    | true => simp [dcacheReq, stallRealS2_eq hv, h3]
  have hd : (s.step cfg i).arrays.dcacheDout = s.arrays.dcacheDout := by
    change s.dcacheDoutNext cfg i = _
    rw [dcacheDoutNext, hreq]
  have hb : ∀ j, s.s3.noc3Wb = false ∨ s.s3.cacheSubline = cfg.lastBeat ∧ j < 2 * cfg.lastBeat →
      (s.step cfg i).doutBuf j = s.doutBuf j := by
    rintro j (hwb | ⟨hlast, hj⟩)
    · change s.doutBufNext cfg j = _
      simp [doutBufNext, hwb]
    · change s.doutBufNext cfg j = _
      rw [doutBufNext, if_neg (by simp [hlast]; omega)]
  revert hg hb
  simp only [noc3DataS3, hs3, hd, atLastBeatS3, Config.parallelSrams, Config.lastBeat]
  cases cfg.organisation with
  | parallel64 | serial16 => simp
  | serial32 | serial64 =>
      intro hg hb
      cases hwb : s.s3.noc3Wb with
      | false => simp [hb, hwb]
      | true =>
          simp only [hwb, Bool.not_true, Bool.or_self, Bool.false_or, beq_iff_eq] at hg
          simp [hb, hg]

theorem offered_of_stall (hm : s.s3.Marked cfg) (h3 : s.stallS3 cfg i = true) :
    (s.step cfg i).offered cfg = if (s.step cfg i).noc3Staled then none else s.offered cfg := by
  have hs3 : (s.step cfg i).s3 = s.s3 := s3Next_of_stall h3
  have hstaled : s.noc3Staled = true → (s.step cfg i).noc3Staled = true := by
    intro hst
    simp [step, staledNext, hst, h3]
  cases hvic : (s.s3.ctl cfg).noc3Op.victim with
  | none =>
      rw [offered_none hvic, offered_none (by rw [hs3]; exact hvic), ite_self]
  | some v =>
      have hf : (s.step cfg i).foundS3 v = s.foundS3 v := by cases v <;> rw [foundS3, foundS3, hs3]
      have hl : (s.step cfg i).atLastBeatS3 cfg = s.atLastBeatS3 cfg := by rw [atLastBeatS3, atLastBeatS3, hs3]
      rw [offered_eq (by rw [hs3]; exact hm) (by rw [hs3]; exact hvic), offered_eq hm hvic, hf, hl, hs3]
      cases hst' : (s.step cfg i).noc3Staled with
      | true => simp
      | false =>
          have hst : s.noc3Staled = false := by
            by_contra hst
            rw [hstaled (by simpa using hst)] at hst'
            cases hst'
          cases hg : (cfg.parallelSrams || !s.s3.noc3Wb || s.atLastBeatS3 cfg) with
          | false => simp
          | true =>
              have hmsg : (s.step cfg i).messageS3 cfg v = s.messageS3 cfg v := by
                have ha : (s.step cfg i).victimAddressS3 cfg v = s.victimAddressS3 cfg v := by
                  cases v <;> simp only [victimAddressS3, hs3]
                simp only [messageS3, hs3, ha, noc3DataS3_of_stall h3 hg]
              rw [hst, hmsg]
              rfl

/-- A request on NoC3 is taken before S3 moves on; `out` is what comes into S3 when it does. -/
theorem noc3_step {α : Type} (f : Noc3Req → Option α) {out : List α}
    (hmove : s.stallS3 cfg i = false → (((s.step cfg i).noc3encoderReq cfg).bind f).toList = out)
    (hhold : s.stallS3 cfg i = true → out = [] ∧ ((s.step cfg i).noc3encoderReq cfg).bind f =
      if (s.step cfg i).noc3Staled then none else (s.noc3encoderReq cfg).bind f) :
    ((s.noc3encoderReq cfg).bind f).toList ++ out =
      (if i.noc3Ack then (s.noc3encoderReq cfg).bind f else none).toList ++
        (((s.step cfg i).noc3encoderReq cfg).bind f).toList := by
  have hreq : ∀ w, (s.noc3encoderReq cfg).bind f = some w →
      s.noc3encoderReqVal cfg = true ∧ s.noc3Staled = false ∧ s.s3.val = true := by
    intro w ho
    rw [noc3encoderReq] at ho
    split at ho
    · rename_i hval
      refine ⟨hval, ?_⟩
      simp only [noc3encoderReqVal, Bool.and_eq_true, Bool.not_eq_true'] at hval
      exact ⟨hval.1.2, hval.1.1.1⟩
    · cases ho
  cases h3 : s.stallS3 cfg i with
  | false =>
      rw [hmove h3]
      cases ho : (s.noc3encoderReq cfg).bind f with
      | none => simp
      | some w =>
          obtain ⟨hval, hst, hv⟩ := hreq w ho
          have : i.noc3Ack = true := by
            simp only [stallS3, hv, stallForNoc3S3, hval, hst, Bool.true_and, Bool.not_false,
              Bool.or_eq_false_iff, Bool.not_eq_false'] at h3
            exact h3.2
          simp [this]
  | true =>
      obtain ⟨hout, hkeep⟩ := hhold h3
      rw [hout, hkeep]
      cases ho : (s.noc3encoderReq cfg).bind f with
      | none => simp
      | some w =>
          obtain ⟨hval, hst, hv⟩ := hreq w ho
          have hnext : (s.step cfg i).noc3Staled = i.noc3Ack := by
            have hn : s.stallForNoc3S3 cfg i = !i.noc3Ack := by simp [stallForNoc3S3, hval, hst]
            have hs : (s.stallForCpxS3 cfg i || s.stallForNoc3S3 cfg i) = true := by
              simpa [stallS3, hv] using h3
            simp only [step, staledNext, hst, hn, Bool.false_eq_true, if_false]
            rw [hn] at hs
            revert hs
            cases i.noc3Ack <;> cases s.stallForCpxS3 cfg i <;> simp
          cases ha : i.noc3Ack <;> simp [hnext, ha]

theorem removal_of_stall (h3 : s.stallS3 cfg i = true) : s.removal cfg i = none := by
  cases hv : s.s2.val with
  | false => simp [removal, hv]
  | true => simp [removal, hv, stallS2, stallRealS2_eq hv, h3]

/-- What S3 offers is taken before it moves on, and what leaves S2 is offered next. -/
theorem offered_step (hp : Piped cfg s) (hr : Reading cfg s) (hf : FlushesOneRow cfg s) :
    (s.offered cfg).toList ++ (s.removal cfg i).toList = (s.taken cfg i).toList ++ ((s.step cfg i).offered cfg).toList := by
  apply noc3_step (Noc3Req.writeBack cfg)
  · intro h3
    rw [← offered_of_move hp hr hf h3]
    rfl
  · intro h3
    exact ⟨by rw [removal_of_stall h3]; rfl, offered_of_stall hp.marked h3⟩

end State

/-- The L1.5 with the data that has left its cache and the data the NoC3 buffer has taken. -/
structure Logged where
  l15 : State
  removed : List WriteBack
  sent : List WriteBack

namespace Logged

variable (cfg : Config)

def step (t : Logged) (i : Input) : Logged where
  l15 := t.l15.step cfg i
  removed := t.removed ++ (t.l15.removal cfg i).toList
  sent := t.sent ++ (t.l15.taken cfg i).toList

def Init (t : Logged) : Prop := t.l15.Init ∧ t.removed = [] ∧ t.sent = []

/-- What leaves the cache is sent once, in order, with its address and its words, or S3 is offering
it. -/
theorem writeBacks_sent {cfg : Config} {t : Logged}
    (h : Machine.Reaches Init (step cfg) (fun t _ => State.FlushesOneRow cfg t.l15) t) :
    t.removed = t.sent ++ (t.l15.offered cfg).toList := by
  suffices hk : State.Piped cfg t.l15 ∧ State.Reading cfg t.l15 ∧ t.removed = t.sent ++ (t.l15.offered cfg).toList from
    hk.2.2
  refine h.invariant (P := fun t => State.Piped cfg t.l15 ∧ State.Reading cfg t.l15 ∧
    t.removed = t.sent ++ (t.l15.offered cfg).toList) ?_ ?_
  · rintro t ⟨hl, hrem, hsent⟩
    refine ⟨hl.piped, hl.reading, ?_⟩
    have ho : t.l15.offered cfg = none := by
      simp [State.offered, State.noc3encoderReq, State.noc3encoderReqVal, hl.s3]
    rw [hrem, hsent, ho]
    rfl
  · rintro t i ⟨hp, hr, heq⟩ hf
    refine ⟨hp.step, hr.step hp hf, ?_⟩
    simp only [step, heq, List.append_assoc]
    rw [State.offered_step hp hr hf]

def reset : Logged := ⟨State.reset, [], []⟩

theorem init_reset : reset.Init := ⟨State.init_reset, rfl, rfl⟩

def serial64 : Config := { Config.default with organisation := .serial64 }

/-- A store that misses, its fill, and a request of the core to the same line. -/
def storeThen (request : PcxReq) : List Input :=
  let store : PcxReq := { rqtype := .store, address := 0x1000, data := 9 }
  let fill : Noc2Msg := { reqtype := .dataAck, mshrType := .st, ackState := .m, data := [1, 2, 3, 4, 5, 6, 7, 8] }
  [{ pcx := some store }, {}, {}, {}, { noc2 := some fill }, {}, {}, {}, {}, {}, {}, {}, { pcx := some request },
    {}, {}, {}, {}, {}, {}, {}]

/-- A non-cacheable load writes the line back. -/
def loadNc : PcxReq := { rqtype := .load, address := 0x1000, nc := true }

theorem writeBacks_sent_loadNc :
    (Machine.run (step serial64) reset (storeThen loadNc)).removed =
        (Machine.run (step serial64) reset (storeThen loadNc)).sent ++
          ((Machine.run (step serial64) reset (storeThen loadNc)).l15.offered serial64).toList ∧
      (Machine.run (step serial64) reset (storeThen loadNc)).sent = [⟨.writeback, 0x100, [9, 2, 3, 4, 5, 6, 7, 8]⟩] :=
  ⟨writeBacks_sent ((Machine.Reaches.start init_reset).run (by decide +kernel)), by decide +kernel⟩

def lineFlush : PcxReq := { rqtype := .store, address := 0xb300001000 }

/-- A line flush sends the first row of the line four times. -/
theorem writeBack_not_sent :
    (Machine.run (step serial64) reset (storeThen lineFlush)).removed =
        [⟨.writeback, 0x100, [9, 2, 3, 4, 5, 6, 7, 8]⟩] ∧
      (Machine.run (step serial64) reset (storeThen lineFlush)).sent =
        [⟨.writeback, 0x100, [9, 2, 9, 2, 9, 2, 9, 2]⟩] ∧
      ¬ (Machine.run (step serial64) reset (storeThen lineFlush)).removed =
        (Machine.run (step serial64) reset (storeThen lineFlush)).sent ++
          ((Machine.run (step serial64) reset (storeThen lineFlush)).l15.offered serial64).toList := by
  decide +kernel

end Logged

end OpenPiton.L15

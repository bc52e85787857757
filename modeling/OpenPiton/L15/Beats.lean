import OpenPiton.L15.Flow

namespace OpenPiton.L15

/-- A request of S2 without the beat it is at. -/
def S2.op (s2 : S2) : S2 := { s2 with cacheSubline := 0 }

namespace S3

/-- What two beats of one operation share: all but the subline, and the LRU way, which only the
evictions look at. -/
def op (s3 : S3) : S3 := { s3 with cacheSubline := 0, lruWay := 0, lruState := .i, lruWayTag := 0 }

def burst (s3 : S3) : Bool := s3.load64B || s3.noc3Wb || s3.l1Inv || s3.mshrWrite || s3.l1dLoad

/-- The marks of a burst are the ones the operation and the states it found call for. -/
structure Marked (cfg : Config) (s3 : S3) : Prop where
  noc3Wb : s3.noc3Wb = match (s3.ctl cfg).noc1Op with
    | .writebackGuardIfLruM => s3.lruState == .m
    | .writebackGuardIfFlushM => s3.flushState == .m
    | .writebackGuardIfTagcheckM => s3.tagcheckState == .m
    | _ => false
  load64B : s3.load64B = match (s3.ctl cfg).dcacheOp with
    | .writeLruWayFromNoc2 | .writeLruWayFromNoc2AndMshr => true
    | _ => false
  l1dLoad : s3.l1dLoad = match (s3.ctl cfg).cpxOp with
    | .ldResponseFromDcache | .ldResponseFromCsm => true
    | .ldResponseIfTagcheckMesFromDcache => s3.tagcheckState.mes
    | _ => false
  mshrWrite : s3.mshrWrite = match (s3.ctl cfg).dcacheOp with
    | .writeTagcheckWayIfMeFromMshr => s3.tagcheckState.me
    | .writeTagcheckWayIfLrscSetFromMshr => s3.tagcheckState == .m
    | .writeMshrWayFromMshr | .writeLruWayFromNoc2AndMshr => true
    | _ => false
  l1Inv : s3.l1Inv = true → match (s3.ctl cfg).cpxOp with
    | .invalidationIfTagcheckMesAndWaymapValid => s3.tagcheckState.mes = true
    | .invalidationIfLruMesAndWaymapValid => s3.lruState.mes = true
    | .invalidationIfFlushMesAndWaymapValid => s3.flushState.mes = true
    | _ => False

end S3

theorem decoder_eviction (cfg : Config) (d : DecoderIn) :
    ((decoder cfg d).noc1Op == .writebackGuardIfLruM ||
        (decoder cfg d).cpxOp == .invalidationIfLruMesAndWaymapValid) =
      ((decoder cfg d).lruarrayWriteOp == .eviction) ∧
    ((decoder cfg d).lruarrayWriteOp == .eviction && !(decoder cfg d).stallOnMatchedBypassedIndex) = false := by
  obtain ⟨fs, reqtype, last, dis, hit, broadcast⟩ := d
  cases reqtype with
  | writethrough => cases dis <;> cases fs <;> exact ⟨rfl, rfl⟩
  | store => cases hit <;> exact ⟨rfl, rfl⟩
  | pcxInterrupt => cases broadcast <;> exact ⟨rfl, rfl⟩
  | loadNc | lineFlush | cas | swpLoadstub | amoLr | amo | ackdtLd | ackdtStIm | ackdtLr =>
      cases fs <;> exact ⟨rfl, rfl⟩
  | _ => exact ⟨rfl, rfl⟩

theorem eviction_iff {cfg : Config} {d : DecoderIn} :
    (decoder cfg d).lruarrayWriteOp = .eviction ↔
      (decoder cfg d).noc1Op = .writebackGuardIfLruM ∨
        (decoder cfg d).cpxOp = .invalidationIfLruMesAndWaymapValid := by
  have h := (decoder_eviction cfg d).1
  rw [Bool.eq_iff_iff] at h
  simpa using h.symm

theorem stallOnMatchedBypassedIndex_of_eviction {cfg : Config} {d : DecoderIn}
    (h : (decoder cfg d).lruarrayWriteOp = .eviction) : (decoder cfg d).stallOnMatchedBypassedIndex = true := by
  simpa [h] using (decoder_eviction cfg d).2

namespace State

variable {cfg : Config} {s s' : State} {i : Input}

/-! ## What S2 sees from one beat to the next -/

/-- S2 has the same request and reads the same rows, the LRU row apart. -/
structure SameRead (s s' : State) : Prop where
  op : s'.s2.op = s.s2.op
  dtag : s'.arrays.dtagDout = s.arrays.dtagDout
  mesi : s'.arrays.mesi.readData = s.arrays.mesi.readData
  lrsc : s'.arrays.lrsc.readData = s.arrays.lrsc.readData

namespace SameRead

variable (h : SameRead s s')
include h

theorem d : s'.s2.d = s.s2.d := by
  have := congrArg S2.d h.op
  exact this

theorem ctl : s'.s2.ctl cfg = s.s2.ctl cfg := by rw [S2.ctl, S2.ctl, h.d]

theorem address : s'.s2.address = s.s2.address := by
  have := congrArg S2.address h.op
  exact this

theorem tagcheck : s'.tagcheckS2 cfg = s.tagcheckS2 cfg := by
  have he : s'.tagcheckHit cfg = s.tagcheckHit cfg := by
    funext way
    simp only [tagcheckHit, h.address, h.dtag, h.mesi]
  rw [tagcheckS2, tagcheckS2, he]

theorem tagcheckState : s'.tagcheckStateS2 cfg = s.tagcheckStateS2 cfg := by
  simp only [tagcheckStateS2, h.tagcheck, h.mesi]

theorem flushState : s'.flushStateS2 cfg = s.flushStateS2 cfg := by
  simp only [flushStateS2, flushWayS2, h.address, h.mesi]

theorem lruState (cfg : Config) (hl : s'.arrays.lru.readData = s.arrays.lru.readData) :
    s'.lruWayS2 cfg = s.lruWayS2 cfg ∧ s'.lruStateS2 cfg = s.lruStateS2 cfg := by
  simp only [lruStateS2, lruWayS2, hl, h.mesi, and_self]

/-- What S3 takes is the same operation, if the LRU row is the same where it matters. -/
theorem op_s3Latch
    (hl : (s.s2.ctl cfg).lruarrayWriteOp = .eviction → s'.arrays.lru.readData = s.arrays.lru.readData) :
    (s'.s3Latch cfg).op = (s.s3Latch cfg).op := by
  have hc : s'.s2.ctl cfg = s.s2.ctl cfg := h.ctl
  have hlru (hop : (s.s2.ctl cfg).noc1Op = .writebackGuardIfLruM ∨
      (s.s2.ctl cfg).cpxOp = .invalidationIfLruMesAndWaymapValid) : s'.lruStateS2 cfg = s.lruStateS2 cfg :=
    (h.lruState cfg (hl (eviction_iff.mpr hop))).2
  have hwb : s'.noc3WbS2 cfg = s.noc3WbS2 cfg := by
    unfold noc3WbS2
    rw [hc, h.tagcheckState, h.flushState]
    split
    · rename_i hop
      rw [hlru (by simp [hop])]
    all_goals rfl
  have hinv : s'.l1InvAnyS2 cfg = s.l1InvAnyS2 cfg := by
    unfold l1InvAnyS2
    rw [hc, h.tagcheckState, h.flushState]
    split
    · rfl
    · rename_i hop
      rw [hlru (by simp [hop])]
    all_goals rfl
  have hload : s'.load64BS2 cfg = s.load64BS2 cfg := by unfold load64BS2; rw [hc]
  have hl1d : s'.l1dLoadS2 cfg = s.l1dLoadS2 cfg := by unfold l1dLoadS2; rw [hc, h.tagcheckState]
  have hmw : s'.mshrWriteS2 cfg = s.mshrWriteS2 cfg := by unfold mshrWriteS2; rw [hc, h.tagcheckState]
  have hm := h.op
  simp only [S2.op, S2.mk.injEq] at hm
  simp only [S3.op, s3Latch, tagcheckWayS2, tagcheckLrscFlagS2, flushWayS2, l1InvS2, l1InvMulticycS2,
    hc, h.tagcheck, h.tagcheckState, h.flushState, h.lrsc, h.dtag, hwb, hinv, hload, hl1d, hmw, hm]

end SameRead

theorem sameRead_of_stallS2 (h : s.stallS2 cfg i = true)
    (ho : (s.s2Next cfg i).op = s.s2.op) : SameRead s (s.step cfg i) := by
  have ha := acceptS1_of_stallS2 h
  refine ⟨ho, ?_, ?_, ?_⟩
  · simp [arraysNext, dtagDoutNext, ha]
  · simp [arraysNext, ha, mesiWrite, h]
  · simp [arraysNext, ha, lrscWrite, h]

/-! ## Bursts and index conflicts -/

/-- The read ports of S2 stand at its set. -/
structure Latched (cfg : Config) (s : State) : Prop where
  lru : s.s2.val = true → s.arrays.lru.readIndex = cfg.cacheIndex s.s2.address
  mesi : s.s2.val = true → (s.s2.ctl cfg).mesiRead = true → s.arrays.mesi.readIndex = cfg.cacheIndex s.s2.address
  lrsc : s.s2.val = true → (s.s2.ctl cfg).lrscFlagRead = true →
    s.arrays.lrsc.readIndex = cfg.cacheIndex s.s2.address
  dtag : s.s2.val = true → (s.s2.ctl cfg).dtagOp = .read →
    s.arrays.dtagDout = s.arrays.dtag (cfg.cacheIndex s.s2.address)

theorem s2_op_cases (cfg : Config) (s : State) (i : Input) :
    (s.s2.val = true ∧ s.stallS2 cfg i = true ∧ (s.s2Next cfg i).op = s.s2.op) ∨
      s.stallS2 cfg i = false ∧ s.s2Next cfg i = s.s2Latch cfg i := by
  rcases s2_cases cfg s i with ⟨hv, h3, he⟩ | ⟨hv, h3, hl, he⟩ | ⟨h2, _, he⟩
  · exact .inl ⟨hv, by simp [stallS2, stallRealS2_eq hv, h3], by rw [he]⟩
  · exact .inl ⟨hv, by simp [stallS2, hl], by rw [he]; rfl⟩
  · exact .inr ⟨h2, he⟩

theorem Latched.step (hl : Latched cfg s) : Latched cfg (s.step cfg i) := by
  rcases s2_op_cases cfg s i with ⟨hv, h2, ho⟩ | ⟨h2, he⟩
  · have hr := sameRead_of_stallS2 h2 ho
    have ha := acceptS1_of_stallS2 h2
    refine ⟨fun _ => ?_, fun _ hc => ?_, fun _ hc => ?_, fun _ hc => ?_⟩
    · rw [hr.address]
      simpa [arraysNext, ha] using hl.lru hv
    · rw [hr.ctl] at hc
      rw [hr.address]
      simpa [arraysNext, ha] using hl.mesi hv hc
    · rw [hr.ctl] at hc
      rw [hr.address]
      simpa [arraysNext, ha] using hl.lrsc hv hc
    · rw [hr.ctl] at hc
      rw [hr.address, hr.dtag]
      simpa [arraysNext, dtagNext, ha] using hl.dtag hv hc
  · have hv' : (s.step cfg i).s2.val = s.acceptS1 cfg i := by rw [step_s2, he]; rfl
    have hc' : (s.step cfg i).s2.ctl cfg = s.ctlS1 cfg := by rw [step_s2, he]; rfl
    have ha' : (s.step cfg i).s2.address = (s.preS1 cfg).address := by rw [step_s2, he]; rfl
    refine ⟨fun ha => ?_, fun ha hc => ?_, fun ha hc => ?_, fun ha hc => ?_⟩
    all_goals rw [hv'] at ha
    all_goals rw [ha']
    · simp [arraysNext, ha]
    all_goals rw [hc'] at hc
    · simp [arraysNext, ha, hc]
    · simp [arraysNext, ha, hc]
    · simp [arraysNext, dtagDoutNext, dtagNext, ha, hc]

theorem Init.latched (h : Init s) : Latched cfg s := by
  constructor <;> simp [h.s2]

/-- No request at S2 that waits for its set meets another at S3. -/
def IndexFree (cfg : Config) (s : State) : Prop :=
  s.s2.val = true → s.s2.cacheSubline = 0 → (s.s2.ctl cfg).stallOnMatchedBypassedIndex = true →
    s.s3.val = true → cfg.cacheIndex s.s2.address ≠ cfg.cacheIndex s.s3.address

theorem IndexFree.step (hf : IndexFree cfg s) : IndexFree cfg (s.step cfg i) := by
  intro hv h0 hc h3v
  rw [step_s2] at hv h0 hc
  rw [step_s3] at h3v
  rw [step_s2, step_s3]
  rcases s2_cases cfg s i with ⟨hv2, h3, he⟩ | ⟨hv2, h3, hl, he⟩ | ⟨h2, h3, he⟩
  · rw [he] at h0 hc ⊢
    rw [s3Next_of_stall h3] at h3v ⊢
    exact hf hv2 h0 hc h3v
  · rw [he] at h0
    cases h0
  · rw [he] at hv hc ⊢
    have ha : s.acceptS1 cfg i = true := hv
    obtain ⟨i2, i3⟩ := index_of_acceptS1 ha hc
    cases hst : s.stallS3 cfg i with
    | true =>
        rw [s3Next_of_stall hst] at h3v ⊢
        exact i3 h3v
    | false =>
        rw [s3Next_of_move hst] at h3v ⊢
        exact i2 h3v

theorem Init.indexFree (h : Init s) : IndexFree cfg s := by
  simp [IndexFree, h.s2]

/-- Where S3 stands behind a burst of S2, and where S2 stands behind a burst in S3. -/
structure Beats (cfg : Config) (s : State) : Prop where
  le : s.s2.cacheSubline ≤ cfg.lastBeat
  follows : s.s2.cacheSubline ≠ 0 → s.s2.val = true ∧ s.burstS2 cfg = true ∧
    s.s3.cacheSubline + 1 = s.s2.cacheSubline ∧ s.s3.op = (s.s3Latch cfg).op
  lru : s.s2.cacheSubline ≠ 0 → (s.s2.ctl cfg).lruarrayWriteOp = .eviction →
    s.s3.lruWay = s.lruWayS2 cfg ∧ s.s3.lruState = s.lruStateS2 cfg ∧
      s.s3.lruWayTag = s.arrays.dtagDout (s.lruWayS2 cfg)
  last : s.s3.val = true → s.s3.burst = true → s.s3.cacheSubline ≠ cfg.lastBeat →
    s.s2.cacheSubline = s.s3.cacheSubline + 1
  single : s.s3.val = true → s.s3.burst = false → s.s3.cacheSubline = 0

theorem burstS2_eq : s.burstS2 cfg = (s.s3Latch cfg).op.burst := rfl

namespace Beats

theorem s3_d (hb : Beats cfg s) (h : s.s2.cacheSubline ≠ 0) : s.s3.d = s.s2.d := by
  have := congrArg S3.d (hb.follows h).2.2.2
  exact this

theorem s3_val (hb : Beats cfg s) (h : s.s2.cacheSubline ≠ 0) : s.s3.val = true := by
  have := congrArg S3.val (hb.follows h).2.2.2
  exact this.trans (hb.follows h).1

theorem s3_burst (hb : Beats cfg s) (h : s.s2.cacheSubline ≠ 0) : s.s3.burst = true := by
  have := congrArg S3.burst (hb.follows h).2.2.2
  exact this.trans (hb.follows h).2.1

theorem lru_kept (hb : Beats cfg s) (hf : IndexFree cfg s) (hl : Latched cfg s) (hv : s.s2.val = true)
    (h : s.stallS2 cfg i = true) (he : (s.s2.ctl cfg).lruarrayWriteOp = .eviction) :
    (s.step cfg i).arrays.lru.readData = s.arrays.lru.readData := by
  have ha := acceptS1_of_stallS2 h
  have hw : ∀ row, s.lruWrite cfg ≠ some (s.arrays.lru.readIndex, row) := by
    intro row hrow
    rw [hl.lru hv] at hrow
    simp only [lruWrite] at hrow
    split at hrow
    case isFalse => cases hrow
    case isTrue hc =>
      have h3v : s.s3.val = true := by simp only [Bool.and_eq_true] at hc; exact hc.1
      by_cases h0 : s.s2.cacheSubline = 0
      · have hne := hf hv h0 (stallOnMatchedBypassedIndex_of_eviction he) h3v
        cases hr : s.lruWriteS3 cfg <;> simp_all
      · have hc3 : (s.s3.ctl cfg).lruarrayWriteOp = .eviction := by rw [S3.ctl, hb.s3_d h0]; exact he
        simp [lruWriteS3, hc3] at hrow
  simp only [step_arrays, arraysNext, ha, Bool.false_eq_true, if_false, RegFile.readData,
    RegFile.step_readIndex_none, RegFile.step_rows_ne hw]

theorem step (hb : Beats cfg s) (hf : IndexFree cfg s) (hl : Latched cfg s) : Beats cfg (s.step cfg i) := by
  rcases s2_cases cfg s i with ⟨hv, h3, he⟩ | ⟨hv, h3, hload, he⟩ | ⟨h2, h3, he⟩
  · have h2 : s.stallS2 cfg i = true := by simp [stallS2, stallRealS2_eq hv, h3]
    have hr := sameRead_of_stallS2 h2 (by rw [he])
    have h2' : (s.step cfg i).s2 = s.s2 := he
    have h3' : (s.step cfg i).s3 = s.s3 := s3Next_of_stall h3
    have ho := hr.op_s3Latch fun hev => hb.lru_kept hf hl hv h2 hev
    refine ⟨by rw [h2']; exact hb.le, fun h0 => ?_, fun h0 hev => ?_, ?_, ?_⟩
    · rw [h2'] at h0
      obtain ⟨_, hbu, hsub, hop⟩ := hb.follows h0
      rw [h2', h3', burstS2_eq, ho]
      exact ⟨hv, hbu, hsub, hop⟩
    · rw [h2'] at h0 hev
      have hlru := hr.lruState cfg (hb.lru_kept hf hl hv h2 hev)
      rw [h3', hlru.1, hlru.2, hr.dtag]
      exact hb.lru h0 hev
    · rw [h2', h3']; exact hb.last
    · rw [h3']; exact hb.single
  · have h2 : s.stallS2 cfg i = true := by simp [stallS2, hload]
    have hr := sameRead_of_stallS2 h2 (by rw [he]; rfl)
    have h2' : (s.step cfg i).s2 = { s.s2 with cacheSubline := s.s2.cacheSubline + 1 } := he
    have h3' : (s.step cfg i).s3 = s.s3Latch cfg := s3Next_of_move h3
    have ho := hr.op_s3Latch fun hev => hb.lru_kept hf hl hv h2 hev
    simp only [stallLoadS2, Bool.and_eq_true, bne_iff_ne] at hload
    have hle := hb.le
    refine ⟨by rw [h2']; have := hload.2; simp only; omega, fun _ => ?_, fun _ hev => ?_, fun _ _ _ => ?_,
      fun _ hnb => ?_⟩
    · rw [h2', h3', burstS2_eq, ho]
      exact ⟨hv, hload.1.2, rfl, rfl⟩
    · have hev' : (s.s2.ctl cfg).lruarrayWriteOp = .eviction := by rw [h2'] at hev; exact hev
      have hlru := hr.lruState cfg (hb.lru_kept hf hl hv h2 hev')
      rw [h3', hlru.1, hlru.2, hr.dtag]
      exact ⟨rfl, rfl, rfl⟩
    · rw [h2', h3']; rfl
    · rw [h3'] at hnb
      have : s.burstS2 cfg = false := hnb
      simp [this] at hload
  · have h2' : (s.step cfg i).s2 = s.s2Latch cfg i := he
    have h0' : (s.step cfg i).s2.cacheSubline = 0 := by rw [h2']; rfl
    refine ⟨by rw [h0']; exact Nat.zero_le _, fun h0 => absurd h0' h0, fun h0 => absurd h0' h0, ?_, ?_⟩
    all_goals rw [step_s3]
    all_goals
      cases hst : s.stallS3 cfg i with
      | true => ?_
      | false => ?_
    · rw [s3Next_of_stall hst]
      intro hv3 hbu hsub
      have hs2 := hb.last hv3 hbu hsub
      have hv2 := (hb.follows (by omega)).1
      simp [h3 hv2] at hst
    · rw [s3Next_of_move hst]
      intro hv3 hbu hsub
      have hl2 : s.stallLoadS2 cfg = true := by
        simp only [stallLoadS2, Bool.and_eq_true, bne_iff_ne]
        exact ⟨⟨hv3, hbu⟩, hsub⟩
      simp [stallS2, hl2] at h2
    · rw [s3Next_of_stall hst]
      exact hb.single
    · rw [s3Next_of_move hst]
      intro hv3 hbu
      by_contra h0
      have := (hb.follows h0).2.1
      rw [show s.burstS2 cfg = false from hbu] at this
      cases this

end Beats

theorem Init.beats (h : Init s) : Beats cfg s := by
  constructor <;> simp [h.s2, h.s3]

theorem marked_s3Latch (cfg : Config) (s : State) : (s.s3Latch cfg).Marked cfg where
  noc3Wb := rfl
  load64B := rfl
  l1dLoad := rfl
  mshrWrite := rfl
  l1Inv h := by
    have h' : s.l1InvAnyS2 cfg = true := by
      have : s.l1InvS2 cfg = true := h
      simp only [l1InvS2, Bool.and_eq_true] at this
      exact this.1
    have hc : (s.s3Latch cfg).ctl cfg = s.s2.ctl cfg := rfl
    rw [hc]
    revert h'
    simp only [l1InvAnyS2]
    cases (s.s2.ctl cfg).cpxOp <;> simp [s3Latch]

theorem marked_step (h : s.s3.Marked cfg) : (s.step cfg i).s3.Marked cfg := by
  rw [step_s3]
  cases h3 : s.stallS3 cfg i with
  | true => rwa [s3Next_of_stall h3]
  | false => rw [s3Next_of_move h3]; exact marked_s3Latch cfg s

theorem Init.marked (h : Init s) : s.s3.Marked cfg := by
  rw [h.s3]
  exact ⟨rfl, rfl, rfl, rfl, fun h => by cases h⟩

/-- The invariants of the pipeline that hold under every input. -/
structure Piped (cfg : Config) (s : State) : Prop where
  latched : Latched cfg s
  indexFree : IndexFree cfg s
  beats : Beats cfg s
  marked : s.s3.Marked cfg

theorem Piped.step (h : Piped cfg s) : Piped cfg (s.step cfg i) :=
  ⟨h.latched.step, h.indexFree.step, h.beats.step h.indexFree h.latched, marked_step h.marked⟩

theorem Init.piped (h : Init s) : Piped cfg s := ⟨h.latched, h.indexFree, h.beats, h.marked⟩

end State

end OpenPiton.L15

import OpenPiton.Lib.Axi
import OpenPiton.NocAxi.Translate

namespace OpenPiton.NocAxi

/-- A word of `AXI4_DATA_WIDTH`. -/
abbrev Line := BitVec 512

def clip2zer (val : Int) : Nat := if val < 0 then 0 else val.toNat

namespace AddrCfg

variable (c : AddrCfg) (h : Header)

/-- The bits of the offset within a transfer. -/
def offsetUsed : Nat := h.offset.toNat % 2 ^ c.datWidthUsedLog2

/-- `req_size` and `stor_size`. -/
def reqSize (sizeLog : BitVec 3) : BitVec 7 := 1 <<< sizeLog.toNat

def wstrb : BitVec 64 := ((1 : BitVec 65) <<< (reqSize h.sizeLog).toNat - 1).setWidth 64

def writeReqData (wdata : Line) : Line := wdata <<< (8 * c.offsetUsed h)

def writeReqStrb : BitVec 64 := wstrb h <<< c.offsetUsed h

def rdataOffseted (readRespData : Line) : Line := readRespData >>> (8 * c.offsetUsed h)

/-- The bytes of an access, repeated up to the width of a line. -/
def rdata (readRespData : Line) : Line :=
  let storSize := reqSize h.sizeLog
  let rdataOffseted := c.rdataOffseted h readRespData
  if storSize.getLsbD 0 then (rdataOffseted.extractLsb' 0 8).replicate 64
  else if storSize.getLsbD 1 then (rdataOffseted.extractLsb' 0 16).replicate 32
  else if storSize.getLsbD 2 then (rdataOffseted.extractLsb' 0 32).replicate 16
  else if storSize.getLsbD 3 then (rdataOffseted.extractLsb' 0 64).replicate 8
  else if storSize.getLsbD 4 then (rdataOffseted.extractLsb' 0 128).replicate 4
  else if storSize.getLsbD 5 then (rdataOffseted.extractLsb' 0 256).replicate 2
  else if storSize.getLsbD 6 then rdataOffseted
  else 0

/-- `burst_len_log` of the read and of the write channel. -/
def burstLenLog (sizeLog : BitVec 3) : Int := (sizeLog.toNat : Int) - c.datWidthUsedLog2

def burstLen (sizeLog : BitVec 3) : Nat := (2 ^ clip2zer (c.burstLenLog sizeLog) - 1) % 2 ^ 8

/-- The address channel of a request. -/
def burst (addr : BitVec 64) (sizeLog : BitVec 3) : Axi.Burst where
  addr := addr.toNat
  len := c.burstLen sizeLog
  size := if c.burstLenLog sizeLog < 0 then sizeLog.toNat else c.datWidthUsedLog2

/-- The transfer with a number of a line and its strobes. -/
def beat (len : Nat) (data : Line) (strb : BitVec 64) (i : Nat) : Axi.Beat c.datWidthUsedLog2 where
  data := data.extractLsb' (8 * 2 ^ c.datWidthUsedLog2 * i) (8 * 2 ^ c.datWidthUsedLog2)
  strb := strb.extractLsb' (2 ^ c.datWidthUsedLog2 * i) (2 ^ c.datWidthUsedLog2)
  last := i == len

def beats (len : Nat) (data : Line) (strb : BitVec 64) : List (Axi.Beat c.datWidthUsedLog2) :=
  (List.range (len + 1)).map (c.beat len data strb)

theorem reqSize_toNat {s : BitVec 3} (hs : s.toNat ≤ 6) : (reqSize s).toNat = 2 ^ s.toNat := by
  revert s
  decide

variable {c h}

theorem wstrb_getLsbD (ha : h.Access) (j : Nat) : (wstrb h).getLsbD j = decide (j < h.size) := by
  have hle := Nat.le_of_dvd (by decide) ha.size_dvd
  have hpow : (1 : BitVec 65).toNat * 2 ^ h.size % 2 ^ 65 = 2 ^ h.size := by
    rw [show (1 : BitVec 65).toNat = 1 from rfl, Nat.one_mul]
    exact Nat.mod_eq_of_lt (Nat.pow_lt_pow_right (by decide) (by omega))
  have hstrb : ((1 : BitVec 65) <<< h.size - 1).toNat = 2 ^ h.size - 1 := by
    rw [BitVec.toNat_sub_of_le, BitVec.toNat_shiftLeft, Nat.shiftLeft_eq, hpow]
    · rfl
    · rw [BitVec.le_def, BitVec.toNat_shiftLeft, Nat.shiftLeft_eq, hpow]
      exact Nat.two_pow_pos _
  rw [wstrb, reqSize_toNat ha.sizeLog_le, BitVec.getLsbD_setWidth]
  change (decide (j < 64) && ((1 : BitVec 65) <<< h.size - 1).toNat.testBit j) = _
  rw [hstrb, Nat.testBit_two_pow_sub_one]
  by_cases hj : j < h.size
  · simp [hj, show j < 64 by omega]
  · simp [hj]

theorem writeReqStrb_getLsbD (ha : h.Access) {j : Nat} (hj : j < 64) (ho : c.offsetUsed h ≤ j)
    (hs : j < c.offsetUsed h + h.size) : (c.writeReqStrb h).getLsbD j = true := by
  rw [writeReqStrb, BitVec.getLsbD_shiftLeft, wstrb_getLsbD ha]
  simp
  omega

theorem byte_writeReqData (d : Line) {k : Nat} (hk : c.offsetUsed h + k < 64) :
    Axi.byte (c.writeReqData h d) (c.offsetUsed h + k) = Axi.byte d k := by
  refine Axi.byte_eq fun j hj => ?_
  rw [writeReqData, BitVec.getLsbD_shiftLeft]
  simp only [show 8 * (c.offsetUsed h + k) + j < 512 by omega,
    show ¬ 8 * (c.offsetUsed h + k) + j < 8 * c.offsetUsed h by omega, decide_true, decide_false, Bool.not_false,
    Bool.true_and]
  congr 1
  omega

theorem byte_rdataOffseted (d : Line) (k : Nat) :
    Axi.byte (c.rdataOffseted h d) k = Axi.byte d (c.offsetUsed h + k) := by
  refine Axi.byte_eq fun j _ => ?_
  rw [rdataOffseted, BitVec.getLsbD_ushiftRight]
  congr 1
  omega

theorem byte_beat (len : Nat) (data : Line) (strb : BitVec 64) (i : Nat) {l : Nat} (hl : l < 2 ^ c.datWidthUsedLog2) :
    Axi.byte (c.beat len data strb i).data l = Axi.byte data (2 ^ c.datWidthUsedLog2 * i + l) ∧
      (c.beat len data strb i).strb.getLsbD l = strb.getLsbD (2 ^ c.datWidthUsedLog2 * i + l) := by
  constructor
  · refine Axi.byte_eq fun j hj => ?_
    rw [beat, BitVec.getLsbD_extractLsb', decide_eq_true (by omega), Bool.true_and, Nat.mul_assoc, Nat.mul_add,
      Nat.add_assoc]
  · rw [beat, BitVec.getLsbD_extractLsb', decide_eq_true hl, Bool.true_and]

theorem beats_get {len i : Nat} (hi : i ≤ len) (data : Line) (strb : BitVec 64) :
    (c.beats len data strb)[i]? = some (c.beat len data strb i) := by
  simp [beats, Nat.lt_succ_of_le hi]

theorem length_beats (len : Nat) (data : Line) (strb : BitVec 64) : (c.beats len data strb).length = len + 1 := by
  simp [beats]

theorem burst_narrow {s : BitVec 3} (hs : s.toNat < c.datWidthUsedLog2) (addr : BitVec 64) :
    c.burst addr s = ⟨addr.toNat, 0, s.toNat⟩ := by
  have hneg : c.burstLenLog s < 0 := by
    unfold burstLenLog
    omega
  rw [burst, burstLen, clip2zer, if_pos hneg, if_pos hneg]
  rfl

theorem burst_wide {s : BitVec 3} (hs : c.datWidthUsedLog2 ≤ s.toNat) (addr : BitVec 64) :
    c.burst addr s = ⟨addr.toNat, 2 ^ (s.toNat - c.datWidthUsedLog2) - 1, c.datWidthUsedLog2⟩ := by
  have hneg : ¬ c.burstLenLog s < 0 := by
    unfold burstLenLog
    omega
  have hlog : (c.burstLenLog s).toNat = s.toNat - c.datWidthUsedLog2 := by
    unfold burstLenLog
    omega
  have hle : 2 ^ (s.toNat - c.datWidthUsedLog2) ≤ 2 ^ 7 :=
    Nat.pow_le_pow_right (by decide) (by have := s.isLt; omega)
  rw [burst, burstLen, clip2zer, if_neg hneg, if_neg hneg, hlog, Nat.mod_eq_of_lt (by omega)]

/-- A burst has transfers of at most the bus, which together have the size of the access; more than
one only where each fills the bus. -/
theorem burst_size (addr : BitVec 64) (s : BitVec 3) :
    ((c.burst addr s).len + 1) * 2 ^ (c.burst addr s).size = 2 ^ s.toNat ∧
      ((c.burst addr s).len = 0 ∨ (c.burst addr s).size = c.datWidthUsedLog2) ∧
      (c.burst addr s).size ≤ c.datWidthUsedLog2 := by
  rcases Nat.lt_or_ge s.toNat c.datWidthUsedLog2 with hlt | hge
  · rw [burst_narrow hlt]
    exact ⟨by simp, .inl rfl, Nat.le_of_lt hlt⟩
  · rw [burst_wide hge]
    refine ⟨?_, .inr rfl, Nat.le_refl _⟩
    rw [Nat.sub_add_cancel (Nat.two_pow_pos _), ← Nat.pow_add, Nat.sub_add_cancel hge]

theorem reqAddr_eq_base (ha : h.Access) : (c.reqAddr h).toNat = c.translate h.base := by
  have := c.reqAddr_eq ha (m := 0) h.size_pos
  rw [Nat.add_zero, Nat.add_zero] at this
  exact this.symm

theorem size_dvd_reqAddr (ha : h.Access) : h.size ∣ (c.reqAddr h).toNat := by
  have hbase : h.size ∣ h.base := Nat.dvd_mul_left _ _
  rw [reqAddr_eq_base ha, ← Nat.div_add_mod (c.translate h.base) 64, c.translate_mod]
  exact Nat.dvd_add (Nat.dvd_trans ha.size_dvd (Nat.dvd_mul_right _ _)) ((Nat.dvd_mod_iff ha.size_dvd).mpr hbase)

theorem offsetUsed_eq (ha : h.Access) : c.offsetUsed h = (c.reqAddr h).toNat % 2 ^ c.datWidthUsedLog2 := by
  have hdvd : 2 ^ c.datWidthUsedLog2 ∣ 64 := Nat.pow_dvd_pow 2 c.datWidth_le
  rw [offsetUsed, ha.offset_eq, reqAddr_eq_base ha, Nat.mod_mod_of_dvd _ hdvd,
    ← Nat.mod_mod_of_dvd (c.translate h.base) hdvd, c.translate_mod, Nat.mod_mod_of_dvd _ hdvd]

/-- The transfers that a byte of an access may be in, and its place in the line: the offset moves it
there. -/
theorem transfer_lane (ha : h.Access) {i k : Nat} (hi : i ≤ (c.burst (c.reqAddr h) h.sizeLog).len)
    (hk : ((c.reqAddr h).toNat + k) / 2 ^ (c.burst (c.reqAddr h) h.sizeLog).size =
      (c.reqAddr h).toNat / 2 ^ (c.burst (c.reqAddr h) h.sizeLog).size + i) :
    2 ^ c.datWidthUsedLog2 * i + ((c.reqAddr h).toNat + k) % 2 ^ c.datWidthUsedLog2 = c.offsetUsed h + k := by
  obtain ⟨-, hlen, hsize⟩ := c.burst_size (c.reqAddr h) h.sizeLog
  have hbus : ((c.reqAddr h).toNat + k) / 2 ^ c.datWidthUsedLog2 =
      (c.reqAddr h).toNat / 2 ^ c.datWidthUsedLog2 + i := by
    rcases hlen with h0 | hw
    · rw [h0, Nat.le_zero] at hi
      subst hi
      obtain ⟨n, hn⟩ := Nat.pow_dvd_pow 2 hsize
      rw [hn, ← Nat.div_div_eq_div_mul, ← Nat.div_div_eq_div_mul, hk, Nat.add_zero, Nat.add_zero]
    · rwa [hw] at hk
  rw [offsetUsed_eq ha]
  have hk := Nat.div_add_mod ((c.reqAddr h).toNat + k) (2 ^ c.datWidthUsedLog2)
  have hT := Nat.div_add_mod (c.reqAddr h).toNat (2 ^ c.datWidthUsedLog2)
  rw [hbus, Nat.mul_add] at hk
  omega

theorem exists_transfer (ha : h.Access) (a : Nat) :
    (∃ i ≤ (c.burst (c.reqAddr h) h.sizeLog).len, a / 2 ^ (c.burst (c.reqAddr h) h.sizeLog).size =
      (c.reqAddr h).toNat / 2 ^ (c.burst (c.reqAddr h) h.sizeLog).size + i) ↔
    (c.reqAddr h).toNat ≤ a ∧ a < (c.reqAddr h).toNat + h.size := by
  obtain ⟨hsum, -, -⟩ := c.burst_size (c.reqAddr h) h.sizeLog
  have hpos := Nat.two_pow_pos (c.burst (c.reqAddr h) h.sizeLog).size
  have hdvd : 2 ^ (c.burst (c.reqAddr h) h.sizeLog).size ∣ (c.reqAddr h).toNat :=
    Nat.dvd_trans ⟨_, hsum.symm.trans (Nat.mul_comm _ _)⟩ (size_dvd_reqAddr ha)
  obtain ⟨n, hn⟩ := hdvd
  change _ = h.size at hsum
  rw [← hsum, hn, Nat.mul_div_cancel_left _ hpos, Nat.mul_comm _ n, ← Nat.add_mul, ← Nat.le_div_iff_mul_le hpos,
    ← Nat.div_lt_iff_lt_mul hpos]
  constructor
  · rintro ⟨i, hi, ha⟩
    omega
  · rintro ⟨hle, hlt⟩
    exact ⟨a / 2 ^ (c.burst (c.reqAddr h) h.sizeLog).size - n, by omega, by omega⟩

theorem offsetUsed_add_size (ha : h.Access) : c.offsetUsed h + h.size ≤ 64 := by
  have hmod := Nat.mod_le h.offset.toNat (2 ^ c.datWidthUsedLog2)
  have hround := Header.div_size_le (n := h.base) ha.size_dvd (show 0 < 64 by decide)
  have hbase : h.size ∣ h.base % 64 := (Nat.dvd_mod_iff ha.size_dvd).mpr (Nat.dvd_mul_left _ _)
  rw [Nat.div_mul_cancel hbase, ← ha.offset_eq] at hround
  rw [offsetUsed]
  omega

/-- The transfers of a store change the bytes at its address to those of the packet. -/
theorem write_burst (ha : h.Access) (d : Line) (m : Axi.Mem) :
    (c.burst (c.reqAddr h) h.sizeLog).write m
        (c.beats (c.burst (c.reqAddr h) h.sizeLog).len (c.writeReqData h d) (c.writeReqStrb h)) =
      m.put (c.translate h.base) h.size (Axi.byte d) := by
  obtain ⟨hsum, -, -⟩ := c.burst_size (c.reqAddr h) h.sizeLog
  have hdvd : 2 ^ (c.burst (c.reqAddr h) h.sizeLog).size ∣ (c.burst (c.reqAddr h) h.sizeLog).addr :=
    Nat.dvd_trans ⟨_, hsum.symm.trans (Nat.mul_comm _ _)⟩ (size_dvd_reqAddr ha)
  have hle := c.offsetUsed_add_size ha
  funext a
  obtain ⟨hwritten, hkept⟩ := Axi.Burst.writeFrom_eq hdvd m 0
    (c.beats (c.burst (c.reqAddr h) h.sizeLog).len (c.writeReqData h d) (c.writeReqStrb h)) a
  rw [Axi.Burst.write, Axi.Mem.put, ← reqAddr_eq_base ha]
  have hin := exists_transfer (c := c) ha a
  split
  next hmem =>
    obtain ⟨i, hi, hai⟩ := hin.mpr hmem
    obtain ⟨k, rfl⟩ := Nat.exists_eq_add_of_le hmem.1
    have hlane := transfer_lane ha hi hai
    have hl := Nat.mod_lt ((c.reqAddr h).toNat + k) (Nat.two_pow_pos c.datWidthUsedLog2)
    obtain ⟨hbyte, hstrb⟩ := c.byte_beat (c.burst (c.reqAddr h) h.sizeLog).len (c.writeReqData h d) (c.writeReqStrb h)
      i hl
    rw [hwritten i _ (beats_get hi _ _) (by rw [Nat.zero_add]; exact hai), hbyte, hstrb, hlane,
      writeReqStrb_getLsbD ha (by omega) (by omega) (by omega), if_pos rfl,
      byte_writeReqData d (by omega), Nat.add_sub_cancel_left]
  next hmem =>
    refine hkept fun j hj heq => hmem (hin.mp ⟨j, ?_, ?_⟩)
    · rwa [length_beats, Nat.lt_succ_iff] at hj
    · rw [Nat.zero_add] at heq
      exact heq

/-- The transfers of a load side by side, as the read channel keeps them. -/
def Collects (data : Line) (beats : List (BitVec (8 * 2 ^ c.datWidthUsedLog2))) : Prop :=
  ∀ i r, beats[i]? = some r → ∀ j < 8 * 2 ^ c.datWidthUsedLog2,
    data.getLsbD (8 * 2 ^ c.datWidthUsedLog2 * i + j) = r.getLsbD j

theorem read_burst (ha : h.Access) {m : Axi.Mem} {beats : List (BitVec (8 * 2 ^ c.datWidthUsedLog2))}
    (hlen : beats.length = (c.burst (c.reqAddr h) h.sizeLog).len + 1)
    (hserve : (c.burst (c.reqAddr h) h.sizeLog).Serves m beats) {data : Line} (hdata : c.Collects data beats)
    {k : Nat} (hk : k < h.size) : Axi.byte (c.rdataOffseted h data) k = m (c.translate h.base + k) := by
  obtain ⟨hsum, -, -⟩ := c.burst_size (c.reqAddr h) h.sizeLog
  have hdvd : 2 ^ (c.burst (c.reqAddr h) h.sizeLog).size ∣ (c.burst (c.reqAddr h) h.sizeLog).addr :=
    Nat.dvd_trans ⟨_, hsum.symm.trans (Nat.mul_comm _ _)⟩ (size_dvd_reqAddr ha)
  obtain ⟨i, hi, hai⟩ := (exists_transfer (c := c) ha ((c.reqAddr h).toNat + k)).mpr (by omega)
  have hlane := transfer_lane ha hi hai
  have hl := Nat.mod_lt ((c.reqAddr h).toNat + k) (Nat.two_pow_pos c.datWidthUsedLog2)
  have hget : beats[i]? = some beats[i] := List.getElem?_eq_getElem (by omega)
  rw [byte_rdataOffseted, ← hlane, ← reqAddr_eq_base ha,
    ← hserve i _ hget _ ((Axi.Burst.covers_iff hdvd i _).mpr hai)]
  refine Axi.byte_eq fun j hj => ?_
  rw [← hdata i _ hget _ (by omega), Nat.mul_add, Nat.mul_assoc, Nat.add_assoc]

theorem byte_replicate (size : Nat) (x : Line) {n m k : Nat} (hn : n = 8 * size) (hk : k < size * m) :
    Axi.byte ((x.extractLsb' 0 n).replicate m) k = Axi.byte x (k % size) := by
  subst hn
  have hpos : 0 < size := Nat.pos_of_mul_pos_right (Nat.lt_of_le_of_lt (Nat.zero_le _) hk)
  have hmod := Nat.mod_lt k hpos
  refine Axi.byte_eq fun j hj => ?_
  have hlt : 8 * k + j < 8 * size * m := by
    rw [Nat.mul_assoc]
    omega
  have hin : (8 * k + j) % (8 * size) = 8 * (k % size) + j := by
    conv_lhs => rw [← Nat.div_add_mod k size, Nat.mul_add, Nat.add_assoc, ← Nat.mul_assoc, Nat.mul_add_mod]
    exact Nat.mod_eq_of_lt (by omega)
  rw [BitVec.getLsbD_replicate, decide_eq_true hlt, Bool.true_and, hin, BitVec.getLsbD_extractLsb',
    decide_eq_true (by omega), Bool.true_and, Nat.zero_add]

/-- The data of a response are the bytes of the access over and over. -/
theorem byte_rdata (ha : h.Access) (data : Line) {k : Nat} (hk : k < 64) :
    Axi.byte (c.rdata h data) k = Axi.byte (c.rdataOffseted h data) (k % h.size) := by
  have hcases : ∀ s : BitVec 3, s.toNat ≤ 6 → s = 0 ∨ s = 1 ∨ s = 2 ∨ s = 3 ∨ s = 4 ∨ s = 5 ∨ s = 6 := by decide
  rw [rdata, Header.size]
  rcases hcases _ ha.sizeLog_le with hs | hs | hs | hs | hs | hs | hs <;> rw [hs]
  · exact byte_replicate 1 _ rfl hk
  · exact byte_replicate 2 _ rfl hk
  · exact byte_replicate 4 _ rfl hk
  · exact byte_replicate 8 _ rfl hk
  · exact byte_replicate 16 _ rfl hk
  · exact byte_replicate 32 _ rfl hk
  · exact congrArg _ (Nat.mod_eq_of_lt hk).symm

end AddrCfg

end OpenPiton.NocAxi

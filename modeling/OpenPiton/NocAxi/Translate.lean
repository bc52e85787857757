import OpenPiton.NocAxi.Packet

namespace OpenPiton.NocAxi

/-- The parameters of `noc_axi4_bridge_buffer` that shape the accesses to the memory;
`AXI4_DAT_WIDTH_USED` is `8 << datWidthUsedLog2`. The memory starts at a line, and the moved bits of
the address are above the offset in a line. -/
structure AddrCfg where
  datWidthUsedLog2 : Nat
  addrOffset : BitVec 64 := 0
  addrSwapLbits : Nat := 0
  addrSwapMsb : Nat := 63
  addrSwapLsb : Nat := 6
  datWidth_mem : datWidthUsedLog2 ∈ [3, 4, 5, 6]
  offset_dvd : 64 ∣ addrOffset.toNat
  lsb_le : 6 ≤ addrSwapLsb
  lbits_le : addrSwapLsb + addrSwapLbits ≤ addrSwapMsb
  msb_le : addrSwapMsb ≤ 63

/-- A bus of 64 bits. -/
def eightBytes : AddrCfg where
  datWidthUsedLog2 := 3
  datWidth_mem := by decide
  offset_dvd := by decide
  lsb_le := by decide
  lbits_le := by decide
  msb_le := by decide

namespace AddrCfg

variable (c : AddrCfg)

theorem datWidth_le : c.datWidthUsedLog2 ≤ 6 := by
  have := c.datWidth_mem
  simp only [List.mem_cons, List.not_mem_nil, or_false] at this
  omega

/-- The bits of `req_addr` before the size masks them. -/
def swapAddr (addr : BitVec 64) : BitVec 64 :=
  if c.addrSwapLbits ≠ 0 then
    (addr.extractLsb' c.addrSwapMsb (64 - c.addrSwapMsb) ++
      -- the low part of the address moves up, the high part is shifted down
      addr.extractLsb' c.addrSwapLsb c.addrSwapLbits ++
      addr.extractLsb' (c.addrSwapLsb + c.addrSwapLbits) (c.addrSwapMsb - (c.addrSwapLsb + c.addrSwapLbits)) ++
      addr.extractLsb' 0 c.addrSwapLsb).setWidth 64
  else addr

/-- `addr` without UART boot. -/
def addr (virtAddr : BitVec 40) : BitVec 64 := virtAddr.setWidth 64 - c.addrOffset

def reqAddr (h : Header) : BitVec 64 :=
  c.swapAddr (c.addr h.msgAddr) &&& (BitVec.allOnes 64 <<< h.sizeLog.toNat)

/-- The bit of an address that `swapAddr` puts to a place. -/
def swapBit (i : Nat) : Nat :=
  if i < c.addrSwapLsb then i
  else if i < c.addrSwapMsb - c.addrSwapLbits then i + c.addrSwapLbits
  else if i < c.addrSwapMsb then i - (c.addrSwapMsb - c.addrSwapLbits) + c.addrSwapLsb
  else i

theorem swapAddr_getLsbD (a : BitVec 64) {i : Nat} (hi : i < 64) :
    (c.swapAddr a).getLsbD i = a.getLsbD (c.swapBit i) := by
  have hlb := c.lbits_le
  have hmsb := c.msb_le
  unfold swapAddr swapBit
  split
  · simp only [BitVec.getLsbD_setWidth, hi, decide_true, Bool.true_and, BitVec.getLsbD_append,
      BitVec.getLsbD_extractLsb', Nat.zero_add]
    split
    · simp [*]
    split
    · rw [if_pos (by omega), decide_eq_true (by omega), Bool.true_and]
      congr 1; omega
    split
    · rw [if_neg (by omega), if_pos (by omega), decide_eq_true (by omega), Bool.true_and]
      congr 1; omega
    · rw [if_neg (by omega), if_neg (by omega), decide_eq_true (by omega), Bool.true_and]
      congr 1; omega
  next h0 =>
    have h0 : c.addrSwapLbits = 0 := by simpa using h0
    congr 1
    rw [h0]
    split
    · rfl
    split
    · rfl
    split
    · omega
    · rfl

theorem swapBit_of_lt {i : Nat} (hi : i < 6) : c.swapBit i = i := by
  have := c.lsb_le
  rw [swapBit, if_pos (by omega)]

theorem le_swapBit {i : Nat} (hi : 6 ≤ i) : 6 ≤ c.swapBit i := by
  have := c.lsb_le
  unfold swapBit
  split
  · exact hi
  split
  · omega
  split <;> omega

theorem exists_swapBit {j : Nat} (hj : j < 64) : ∃ i < 64, c.swapBit i = j := by
  have hlb := c.lbits_le
  have hmsb := c.msb_le
  by_cases h1 : j < c.addrSwapLsb
  · exact ⟨j, hj, if_pos h1⟩
  by_cases h2 : j < c.addrSwapLsb + c.addrSwapLbits
  · refine ⟨j - c.addrSwapLsb + (c.addrSwapMsb - c.addrSwapLbits), by omega, ?_⟩
    rw [swapBit, if_neg (by omega), if_neg (by omega), if_pos (by omega)]
    omega
  by_cases h3 : j < c.addrSwapMsb
  · refine ⟨j - c.addrSwapLbits, by omega, ?_⟩
    rw [swapBit, if_neg (by omega), if_pos (by omega)]
    omega
  · exact ⟨j, hj, by rw [swapBit, if_neg (by omega), if_neg (by omega), if_neg (by omega)]⟩

theorem swapAddr_inj {a b : BitVec 64} (h : c.swapAddr a = c.swapAddr b) : a = b := by
  refine BitVec.eq_of_getLsbD_eq fun j hj => ?_
  obtain ⟨i, hi, rfl⟩ := c.exists_swapBit hj
  rw [← c.swapAddr_getLsbD a hi, h, c.swapAddr_getLsbD b hi]

theorem testBit_mod_line (n i : Nat) : (n % 64).testBit i = (decide (i < 6) && n.testBit i) :=
  Nat.testBit_mod_two_pow n 6 i

theorem testBit_div_line (n i : Nat) : (n / 64).testBit i = n.testBit (i + 6) := by
  change (n / 2 ^ 6).testBit i = _
  exact Nat.testBit_div_two_pow n i

theorem swapAddr_mod (a : BitVec 64) : (c.swapAddr a).toNat % 64 = a.toNat % 64 := by
  refine Nat.eq_of_testBit_eq fun i => ?_
  rw [testBit_mod_line, testBit_mod_line]
  by_cases hi : i < 6
  · have := c.swapAddr_getLsbD a (show i < 64 by omega)
    rw [c.swapBit_of_lt hi] at this
    simpa [hi, BitVec.getLsbD] using this
  · simp [hi]

theorem swapAddr_div {a b : BitVec 64} (h : a.toNat / 64 = b.toNat / 64) :
    (c.swapAddr a).toNat / 64 = (c.swapAddr b).toNat / 64 := by
  have hbit : ∀ j, 6 ≤ j → a.getLsbD j = b.getLsbD j := by
    intro j hj
    have := congrArg (Nat.testBit · (j - 6)) h
    simp only [testBit_div_line] at this
    rwa [Nat.sub_add_cancel hj] at this
  refine Nat.eq_of_testBit_eq fun i => ?_
  rw [testBit_div_line, testBit_div_line]
  change (c.swapAddr a).getLsbD (i + 6) = (c.swapAddr b).getLsbD (i + 6)
  by_cases hi : i + 6 < 64
  · rw [c.swapAddr_getLsbD a hi, c.swapAddr_getLsbD b hi, hbit _ (c.le_swapBit (by omega))]
  · rw [BitVec.getLsbD_of_ge _ _ (by omega), BitVec.getLsbD_of_ge _ _ (by omega)]

/-- The address on the AXI bus of a byte. -/
def translate (v : Nat) : Nat := (c.swapAddr (BitVec.ofNat 64 v - c.addrOffset)).toNat

theorem sub_offset_toNat (v : Nat) :
    (BitVec.ofNat 64 v - c.addrOffset).toNat = (2 ^ 64 - c.addrOffset.toNat + v % 2 ^ 64) % 2 ^ 64 := by
  rw [BitVec.toNat_sub, BitVec.toNat_ofNat]

theorem translate_mod (v : Nat) : c.translate v % 64 = v % 64 := by
  have hdvd := c.offset_dvd
  have := c.addrOffset.isLt
  rw [translate, c.swapAddr_mod, c.sub_offset_toNat]
  omega

theorem translate_div {v v' : Nat} (h : v / 64 = v' / 64) : c.translate v / 64 = c.translate v' / 64 := by
  have hdvd := c.offset_dvd
  have := c.addrOffset.isLt
  refine c.swapAddr_div ?_
  rw [c.sub_offset_toNat, c.sub_offset_toNat]
  omega

theorem translate_inj {v v' : Nat} (hv : v < 2 ^ 64) (hv' : v' < 2 ^ 64) (h : c.translate v = c.translate v') :
    v = v' := by
  have heq := c.swapAddr_inj (BitVec.eq_of_toNat_eq h)
  have hsub := congrArg BitVec.toNat heq
  have := c.addrOffset.isLt
  rw [c.sub_offset_toNat, c.sub_offset_toNat] at hsub
  omega

end AddrCfg

namespace Header

variable (h : Header)

/-- The number of bytes of an access. -/
def size : Nat := 2 ^ h.sizeLog.toNat

/-- The first byte of an access. -/
def base : Nat := h.msgAddr.toNat / h.size * h.size

/-- An uncacheable access is naturally aligned and has at most 64 bytes; the others are of a line. -/
structure Access : Prop where
  dataSize : h.uncacheable = true → h.msgDataSize ≠ 0
  aligned : h.uncacheable = true → h.size ∣ h.msgAddr.toNat

instance : Decidable h.Access :=
  decidable_of_iff ((h.uncacheable = true → h.msgDataSize ≠ 0) ∧ (h.uncacheable = true → h.size ∣ h.msgAddr.toNat))
    ⟨fun ha => ⟨ha.1, ha.2⟩, fun ha => ⟨ha.dataSize, ha.aligned⟩⟩

variable {h}

theorem Access.sizeLog_le (ha : h.Access) : h.sizeLog.toNat ≤ 6 := by
  unfold sizeLog
  split
  next hu =>
    have := ha.dataSize hu
    bv_omega
  next => decide

theorem Access.size_dvd (ha : h.Access) : h.size ∣ 64 := Nat.pow_dvd_pow 2 ha.sizeLog_le

theorem size_pos : 0 < h.size := Nat.two_pow_pos _

theorem Access.base_lt (ha : h.Access) {m : Nat} (hm : m < h.size) : h.base + m < 2 ^ 64 := by
  have hle := Nat.div_mul_le_self h.msgAddr.toNat h.size
  have := h.msgAddr.isLt
  have := Nat.le_of_dvd (by decide) ha.size_dvd
  rw [base]
  omega

theorem div_size_le {n size line : Nat} (hdvd : size ∣ line) (hline : 0 < line) :
    n % line / size * size + size ≤ line := by
  obtain ⟨k, rfl⟩ := hdvd
  have hlt : n % (size * k) / size < k := Nat.div_lt_of_lt_mul (Nat.mod_lt _ hline)
  have := Nat.mul_le_mul_right size hlt
  rw [Nat.succ_mul, Nat.mul_comm k] at this
  exact this

theorem div_mul_size {n size line : Nat} (hsize : 0 < size) (hdvd : size ∣ line) :
    n / size * size = n / line * line + n % line / size * size := by
  obtain ⟨k, rfl⟩ := hdvd
  have hdiv : n / size = n / (size * k) * k + n % (size * k) / size := by
    conv_lhs => rw [← Nat.div_add_mod n (size * k)]
    rw [Nat.mul_assoc, Nat.mul_add_div hsize, Nat.mul_comm k]
  rw [hdiv, Nat.add_mul, Nat.mul_assoc, Nat.mul_comm k]

theorem Access.base_line (ha : h.Access) {m : Nat} (hm : m < h.size) :
    (h.base + m) / 64 = h.msgAddr.toNat / 64 ∧
      (h.base + m) % 64 = h.msgAddr.toNat % 64 / h.size * h.size + m := by
  have hle := div_size_le (n := h.msgAddr.toNat) ha.size_dvd (by decide)
  have hbase := div_mul_size (n := h.msgAddr.toNat) size_pos ha.size_dvd
  rw [base]
  omega

theorem Access.offset_eq (ha : h.Access) : h.offset.toNat = h.base % 64 := by
  have hline := (ha.base_line (m := 0) size_pos).2
  rw [Nat.add_zero] at hline
  by_cases hu : h.uncacheable = true
  · have hbase : h.base = h.msgAddr.toNat := Nat.div_mul_cancel (ha.aligned hu)
    rw [offset, if_pos hu, BitVec.toNat_setWidth, hbase]
  · have hsize : h.size = 64 := by simp [size, sizeLog, hu]
    rw [hline, hsize, Nat.div_eq_of_lt (Nat.mod_lt _ (by decide)), offset, if_neg hu]
    rfl

end Header

theorem toNat_and_allOnes_shiftLeft (x : BitVec 64) {s : Nat} (hs : s ≤ 64) :
    (x &&& (BitVec.allOnes 64 <<< s)).toNat = x.toNat / 2 ^ s * 2 ^ s := by
  refine Nat.eq_of_testBit_eq fun i => ?_
  rw [← Nat.shiftLeft_eq, Nat.testBit_shiftLeft, Nat.testBit_div_two_pow]
  change (x &&& (BitVec.allOnes 64 <<< s)).getLsbD i = _
  rw [BitVec.getLsbD_and, BitVec.getLsbD_shiftLeft, BitVec.getLsbD_allOnes]
  by_cases hi : i < 64
  · by_cases his : s ≤ i
    · rw [Nat.sub_add_cancel his]
      simp [hi, his, show i - s < 64 by omega, BitVec.getLsbD]
    · simp [his, show i < s by omega]
  · by_cases his : s ≤ i
    · rw [BitVec.getLsbD_of_ge x i (by omega), Nat.sub_add_cancel his]
      have : x.toNat.testBit i = false := BitVec.getLsbD_of_ge x i (by omega)
      simp [this]
    · omega

/-- The address on the bus is that of the first byte, and the bytes of an access are side by side. -/
theorem AddrCfg.reqAddr_eq (c : AddrCfg) {h : Header} (ha : h.Access) {m : Nat} (hm : m < h.size) :
    c.translate (h.base + m) = (c.reqAddr h).toNat + m := by
  have haddr : c.addr h.msgAddr = BitVec.ofNat 64 h.msgAddr.toNat - c.addrOffset := by
    rw [AddrCfg.addr]
    congr 1
    exact BitVec.eq_of_toNat_eq (by simp)
  have hreq : (c.reqAddr h).toNat = c.translate h.msgAddr.toNat / h.size * h.size := by
    rw [reqAddr, toNat_and_allOnes_shiftLeft _ (Nat.le_trans ha.sizeLog_le (by decide)), haddr]
    rfl
  have hround := Header.div_mul_size (n := c.translate h.msgAddr.toNat) h.size_pos ha.size_dvd
  have hline := ha.base_line hm
  have hdiv := c.translate_div hline.1
  have hmod := c.translate_mod (h.base + m)
  rw [c.translate_mod] at hround
  omega

end OpenPiton.NocAxi

import OpenPiton.Sd.Lookup
import OpenPiton.Sd.Requests

namespace OpenPiton.Sd

open L15 (Word)
open Axi (Byte)

theorem lane_ofLanes (f : BitVec 3 → Byte) (k : BitVec 3) : lane (ofLanes f) k = f k := by
  have hk : k = 0 ∨ k = 1 ∨ k = 2 ∨ k = 3 ∨ k = 4 ∨ k = 5 ∨ k = 6 ∨ k = 7 := by
    revert k
    decide
  rcases hk with rfl | rfl | rfl | rfl | rfl | rfl | rfl | rfl <;>
    (apply BitVec.eq_of_getLsbD_eq; intro i hi; simp only [lane, ofLanes, Axi.byte]; grind)

theorem ofLanes_lane (word : Word) : ofLanes (lane word) = word := by
  apply BitVec.eq_of_getLsbD_eq
  intro i hi
  simp only [lane, ofLanes, Axi.byte]
  grind

theorem block_toNat (a : Addr) : a.block.toNat = a.toNat / 512 := by
  have := a.isLt
  rw [Addr.block, toNat_extract]
  omega

theorem column_toNat (a : Addr) : (column a).toNat = a.toNat / 8 % 64 := toNat_extract a 3 6

theorem position_toNat (a : Addr) : (position a).toNat = a.toNat % 8 := by
  rw [position, toNat_extract, pow_zero, Nat.div_one]
  rfl

namespace Request

variable (r : Request)

/-- `core_buffer_addr` below the entry, at a word of the access. -/
def offset (k : BitVec 3) : BitVec 9 := coreBufferOffset r.dataSz (r.addr.extractLsb' 0 9) k

def columnAt (k : BitVec 3) : BitVec 6 := (r.offset k).extractLsb' 3 6

/-- The byte of a word that a store of less than a word begins at. -/
def placeAt (k : BitVec 3) : BitVec 3 := (r.offset k).extractLsb' 0 3

def mask : BitVec 3 := actualRespPayloadMask r.msgType r.dataSz

/-- The blocks after a word of a store. -/
def storeWord (k : BitVec 3) (c : BlockNo → Block) : BlockNo → Block :=
  Function.update c r.addr.block ((c r.addr.block).set (r.columnAt k)
    (bramWrite (coreBufferSz r.dataSz) (r.placeAt k) (r.word k.toNat) (c r.addr.block (r.columnAt k))))

/-- The blocks after the first words of a store. -/
def wrote (c : BlockNo → Block) : Nat → BlockNo → Block
  | 0 => c
  | n + 1 => r.storeWord (BitVec.ofNat 3 n) (wrote c n)

variable {r}

theorem cases_dataSz {d : BitVec 3} (h : d ≠ 0) : d = 1 ∨ d = 2 ∨ d = 3 ∨ d = 4 ∨ d = 5 ∨ d = 6 ∨ d = 7 := by
  revert d
  decide

theorem toNat_coreBufferOffset (d : BitVec 3) (hd : d ≠ 0) (a : BitVec 9) (k : BitVec 3) :
    (coreBufferOffset d a k).toNat = a.toNat / 2 ^ (d.toNat - 1) * 2 ^ (d.toNat - 1) +
      8 * (k.toNat % ((2 ^ (d.toNat - 1) + 7) / 8)) := by
  have ha := a.isLt
  have hk := k.isLt
  have hz (n : Nat) : (0#n).toNat = 0 := rfl
  rcases cases_dataSz hd with rfl | rfl | rfl | rfl | rfl | rfl | rfl
  · simp [coreBufferOffset, Nat.mod_one]
  · have h : (coreBufferOffset 2 a k).toNat = _ := toNat_append (a.extractLsb' 1 8) 0#1
    rw [h, toNat_extract, hz]
    simp
    omega
  · have h : (coreBufferOffset 3 a k).toNat = _ := toNat_append (a.extractLsb' 2 7) 0#2
    rw [h, toNat_extract, hz]
    simp
    omega
  · have h : (coreBufferOffset 4 a k).toNat = _ := toNat_append (a.extractLsb' 3 6) 0#3
    rw [h, toNat_extract, hz]
    simp
    omega
  · have h : (coreBufferOffset 5 a k).toNat = _ := toNat_append (a.extractLsb' 4 5 ++ k.extractLsb' 0 1) 0#3
    rw [h, toNat_append, toNat_extract, toNat_extract, hz]
    simp
    omega
  · have h : (coreBufferOffset 6 a k).toNat = _ := toNat_append (a.extractLsb' 5 4 ++ k.extractLsb' 0 2) 0#3
    rw [h, toNat_append, toNat_extract, toNat_extract, hz]
    simp
    omega
  · have h : (coreBufferOffset 7 a k).toNat = _ := toNat_append (a.extractLsb' 6 3 ++ k) 0#3
    rw [h, toNat_append, toNat_extract, hz]
    simp
    omega

theorem bramWea_eq : ∀ (d a k : BitVec 3), d ≠ 0 → bramWea (coreBufferSz d) a k =
    decide (k.toNat / min 8 (2 ^ (d.toNat - 1)) = a.toNat / min 8 (2 ^ (d.toNat - 1))) := by
  decide

theorem bramByte_eq : ∀ (d k : BitVec 3), d ≠ 0 → bramByte (coreBufferSz d) k =
    7 - (8 - min 8 (2 ^ (d.toNat - 1)) + k.toNat % min 8 (2 ^ (d.toNat - 1))) := by
  decide

theorem toNat_offset (h : r.WellFormed) {k : BitVec 3} (hk : k.toNat < r.words) :
    (r.offset k).toNat = r.addr.toNat % 512 + 8 * k.toNat := by
  have hdvd : r.size ∣ r.addr.toNat % 512 := by
    refine (Nat.dvd_mod_iff ?_).mpr h.aligned
    exact Nat.pow_dvd_pow 2 (show r.dataSz.toNat - 1 ≤ 9 by have := r.dataSz.isLt; omega)
  have hlow : (r.addr.extractLsb' 0 9).toNat = r.addr.toNat % 512 := by
    rw [toNat_extract, pow_zero, Nat.div_one]
    rfl
  rw [offset, toNat_coreBufferOffset _ h.dataSz_ne, hlow]
  change _ / r.size * r.size + 8 * (k.toNat % r.words) = _
  rw [Nat.div_mul_cancel hdvd, Nat.mod_eq_of_lt hk]

theorem toNat_columnAt (h : r.WellFormed) {k : BitVec 3} (hk : k.toNat < r.words) :
    (r.columnAt k).toNat = r.addr.toNat / 8 % 64 + k.toNat := by
  have hlt := (r.offset k).isLt
  have hoff := toNat_offset h hk
  rw [columnAt, toNat_extract, hoff]
  omega

theorem toNat_placeAt (h : r.WellFormed) {k : BitVec 3} (hk : k.toNat < r.words) :
    (r.placeAt k).toNat = r.addr.toNat % 8 := by
  have hlt := (r.offset k).isLt
  have hoff := toNat_offset h hk
  rw [placeAt, toNat_extract, hoff]
  omega

theorem lane_bramWrite (sz : BitVec 2) (a k : BitVec 3) (data old : Word) :
    lane (bramWrite sz a data old) k = if bramWea sz a k then bramDin sz data k else lane old k :=
  lane_ofLanes _ k

/-- The bytes of a store within the word that is written are those that it addresses. -/
theorem bramWea_iff (h : r.WellFormed) {k : BitVec 3} (hk : k.toNat < r.words) {a : Addr}
    (ha : a.toNat / 8 = r.addr.toNat / 8 + k.toNat) :
    bramWea (coreBufferSz r.dataSz) (r.placeAt k) (position a) = true ↔ r.Covers a := by
  have hal := h.aligned
  rw [bramWea_eq _ _ _ h.dataSz_ne, toNat_placeAt h hk, position_toNat, decide_eq_true_iff, Covers]
  rw [words] at hk
  rcases cases_dataSz h.dataSz_ne with hd | hd | hd | hd | hd | hd | hd <;>
    simp only [size, hd] at hal hk ⊢ <;> simp at hal hk ⊢ <;> omega

theorem bramDin_eq (h : r.WellFormed) {k : BitVec 3} (hk : k.toNat < r.words) {a : Addr}
    (ha : a.toNat / 8 = r.addr.toNat / 8 + k.toNat) (hc : r.Covers a) :
    bramDin (coreBufferSz r.dataSz) (r.word k.toNat) (position a) = r.storedByte (a.toNat - r.addr.toNat) := by
  have hal := h.aligned
  rw [Covers] at hc
  have hword : (a.toNat - r.addr.toNat + (8 - r.size)) / 8 = k.toNat ∧
      bramByte (coreBufferSz r.dataSz) (position a) =
        7 - (BitVec.ofNat 3 (a.toNat - r.addr.toNat + (8 - r.size))).toNat := by
    rw [bramByte_eq _ _ h.dataSz_ne, position_toNat, BitVec.toNat_ofNat]
    rw [words] at hk
    rcases cases_dataSz h.dataSz_ne with hd | hd | hd | hd | hd | hd | hd <;>
      simp only [size, hd] at hal hk hc ⊢ <;> simp at hal hk hc ⊢ <;> omega
  rw [bramDin, storedByte, lane, hword.1, hword.2]

theorem bytes_storeWord (h : r.WellFormed) {k : BitVec 3} (hk : k.toNat < r.words) (c : BlockNo → Block) (a : Addr) :
    bytes (r.storeWord k c) a =
      if a.toNat / 8 = r.addr.toNat / 8 + k.toNat ∧ r.Covers a then r.storedByte (a.toNat - r.addr.toNat)
      else bytes c a := by
  have hcol := toNat_columnAt h hk
  have hlt := (r.columnAt k).isLt
  have hiff : a.toNat / 8 = r.addr.toNat / 8 + k.toNat ↔ a.block = r.addr.block ∧ column a = r.columnAt k := by
    rw [← BitVec.toNat_inj, ← BitVec.toNat_inj, block_toNat, block_toNat, column_toNat, hcol]
    omega
  rw [bytes, storeWord]
  by_cases hb : a.block = r.addr.block
  · rw [hb, Function.update_self]
    by_cases hw : column a = r.columnAt k
    · have ha := hiff.mpr ⟨hb, hw⟩
      rw [hw, Block.set, setAt_eq, Function.update_self, lane_bramWrite]
      by_cases hc : r.Covers a
      · rw [if_pos ((bramWea_iff h hk ha).mpr hc), if_pos ⟨ha, hc⟩, bramDin_eq h hk ha hc]
      · rw [if_neg (mt (bramWea_iff h hk ha).mp hc), if_neg fun h => hc h.2, bytes, hb, hw]
    · rw [Block.set, setAt_eq, Function.update_of_ne hw, if_neg fun h => hw (hiff.mp h.1).2, bytes, hb]
  · rw [Function.update_of_ne hb, if_neg fun h => hb (hiff.mp h.1).1, bytes]

theorem words_le (h : r.WellFormed) : r.words ≤ 8 := by
  rw [words]
  rcases cases_dataSz h.dataSz_ne with hd | hd | hd | hd | hd | hd | hd <;> simp [size, hd]

theorem words_pos : 0 < r.words := by
  have := Nat.two_pow_pos (r.dataSz.toNat - 1)
  rw [words, size]
  omega

theorem bytes_wrote (h : r.WellFormed) (c : BlockNo → Block) {n : Nat} (hn : n ≤ r.words) (a : Addr) :
    bytes (r.wrote c n) a =
      if a.toNat / 8 < r.addr.toNat / 8 + n ∧ r.Covers a then r.storedByte (a.toNat - r.addr.toNat) else bytes c a := by
  have h8 := words_le h
  induction n with
  | zero =>
      rw [if_neg]
      · rfl
      · intro hc
        have := hc.2.1
        omega
  | succ n ih =>
      have hk : (BitVec.ofNat 3 n).toNat = n := by
        rw [BitVec.toNat_ofNat]
        omega
      rw [wrote, bytes_storeWord h (by omega), ih (by omega), hk]
      by_cases hc : r.Covers a
      · have hle := hc.1
        by_cases heq : a.toNat / 8 = r.addr.toNat / 8 + n
        · rw [if_pos ⟨heq, hc⟩, if_pos ⟨by omega, hc⟩]
        · rw [if_neg fun h => heq h.1]
          exact if_congr ⟨fun h => ⟨by omega, hc⟩, fun h => ⟨by omega, hc⟩⟩ rfl rfl
      · rw [if_neg fun h => hc h.2, if_neg fun h => hc h.2, if_neg fun h => hc h.2]

theorem bytes_wrote_words (h : r.WellFormed) (hw : r.wr = true) (c : BlockNo → Block) :
    bytes (r.wrote c r.words) = r.apply (bytes c) := by
  funext a
  rw [bytes_wrote h c le_rfl, apply]
  refine if_congr ⟨fun hc => ⟨hw, hc.2⟩, fun hc => ⟨?_, hc.2⟩⟩ rfl rfl
  have hlt := hc.2.2
  have hal := h.aligned
  rw [words]
  rcases cases_dataSz h.dataSz_ne with hd | hd | hd | hd | hd | hd | hd <;>
    simp only [size, hd] at hal hlt ⊢ <;> simp at hal hlt ⊢ <;> omega

theorem wordAt_bytes (c : BlockNo → Block) (a : Addr) : wordAt (bytes c) a = c a.block (column a) := by
  have hbyte (k : BitVec 3) : bytes c (a.extractLsb' 3 37 ++ k) = lane (c a.block (column a)) k := by
    have hk := k.isLt
    have ha := a.isLt
    obtain ⟨a', ha'⟩ : ∃ a' : Addr, a' = a.extractLsb' 3 37 ++ k := ⟨_, rfl⟩
    have hnat : a'.toNat = a.toNat / 8 * 8 + k.toNat := by
      rw [ha']
      refine (toNat_append (a.extractLsb' 3 37) k).trans ?_
      rw [toNat_extract]
      omega
    have hblock : a'.block = a.block := by
      rw [← BitVec.toNat_inj, block_toNat, block_toNat, hnat]
      omega
    have hcolumn : column a' = column a := by
      rw [← BitVec.toNat_inj, column_toNat, column_toNat, hnat]
      omega
    have hposition : position a' = k := by
      rw [← BitVec.toNat_inj, position_toNat, hnat]
      omega
    rw [← ha', bytes, hblock, hcolumn, hposition]
  rw [wordAt, funext hbyte, ofLanes_lane]

/-- The words that the buffer gives out at the offsets of a load are those of the access. -/
theorem wordAt_offset (h : r.WellFormed) (c : BlockNo → Block) {k : BitVec 3} (hk : k.toNat < r.words) :
    wordAt (bytes c) (BitVec.ofNat 40 (r.addr.toNat + 8 * k.toNat)) = c r.addr.block (r.columnAt k) := by
  have hcol := toNat_columnAt h hk
  have hlt := (r.columnAt k).isLt
  have hr := r.addr.isLt
  have hnat : (BitVec.ofNat 40 (r.addr.toNat + 8 * k.toNat)).toNat = r.addr.toNat + 8 * k.toNat := by
    rw [BitVec.toNat_ofNat]
    omega
  have hblock : Addr.block (BitVec.ofNat 40 (r.addr.toNat + 8 * k.toNat)) = r.addr.block := by
    rw [← BitVec.toNat_inj, block_toNat, block_toNat, hnat]
    omega
  have hcolumn : column (BitVec.ofNat 40 (r.addr.toNat + 8 * k.toNat)) = r.columnAt k := by
    rw [← BitVec.toNat_inj, column_toNat, hnat, hcol]
    omega
  rw [wordAt_bytes, hblock, hcolumn]

theorem and_mask (h : r.WellFormed) (hw : r.wr = false) (k : BitVec 3) : (k &&& r.mask).toNat = k.toNat % r.words := by
  have hload : ¬ isWr r.msgType = true := by
    rw [show isWr r.msgType = false from hw]
    exact Bool.false_ne_true
  have hne := h.dataSz_ne
  rw [show r.mask = _ from if_neg hload, show r.words = (2 ^ (r.dataSz.toNat - 1) + 7) / 8 from rfl]
  generalize r.dataSz = d at hne
  revert d k
  decide

theorem mask_toNat (h : r.WellFormed) (hw : r.wr = false) : r.mask.toNat + 1 = r.words := by
  have hmask := and_mask h hw 7
  have hle := words_le h
  have hpos : 0 < r.words := words_pos
  have hall : (7 : BitVec 3) &&& r.mask = r.mask := BitVec.allOnes_and
  have hdvd : r.words = 1 ∨ r.words = 2 ∨ r.words = 4 ∨ r.words = 8 := by
    rw [words]
    rcases cases_dataSz h.dataSz_ne with hd | hd | hd | hd | hd | hd | hd <;> simp [size, hd]
  rw [hall] at hmask
  rw [hmask]
  rcases hdvd with hd | hd | hd | hd <;> rw [hd] <;> rfl

end Request

end OpenPiton.Sd

import OpenPiton.Lib.Parity
import Mathlib.Data.List.Induction
import Mathlib.Tactic.IntervalCases

namespace OpenPiton.L2.Ecc

open Parity

/-- The data bit at a place of the code word; the powers of two are the places of parity bits. -/
def dataIndex (j : Nat) : Nat := j - 2 - Nat.log2 j

/-- The data bits under parity bit `i`. -/
def terms (i : Nat) : List Nat :=
  ((List.range' 1 71).filter fun j => j != 2 ^ i && j / 2 ^ i % 2 == 1).map dataIndex

def dcount (i n : Nat) : Nat := (terms i).count n

/-- `l2_data_pgen`. -/
def pgen (din : BitVec 64) : BitVec 8 :=
  ofBits 8 fun i =>
    if i < 7 then xorOf din.getLsbD (terms i)
    else xorOf din.getLsbD ((List.range 64).filter fun n => ((List.range 7).map (dcount · n)).sum % 2 == 0)

/-- A data word with its parity bits. -/
structure Code where
  din : BitVec 64
  parity : BitVec 8

namespace Code

variable (c : Code)

def cflag (i : Nat) : Bool := c.parity.getLsbD i ^^ xorOf c.din.getLsbD (terms i)

def pflag : Bool :=
  c.cflag 0 ^^ xorOf c.parity.getLsbD (List.range' 1 6) ^^
    xorOf c.din.getLsbD ((List.range 64).filter fun n => dcount 0 n == 0)

def errBitPos : BitVec 64 :=
  ofBits 64 fun n => (List.range 7).all fun m => if dcount m n = 1 then c.cflag m else !c.cflag m

/-- The outputs of `l2_data_ecc`. -/
def dout : BitVec 64 := c.din ^^^ c.errBitPos

def corrError : Bool := c.pflag

def uncorrError : Bool := (List.range 7).any c.cflag && !c.pflag

end Code

/-- A bit of a stored word. -/
inductive Bit
  | data (n : Fin 64)
  | parity (m : Fin 8)
  deriving DecidableEq, Repr

def Code.flip (c : Code) : Bit → Code
  | .data n => { c with din := c.din ^^^ BitVec.twoPow 64 n }
  | .parity m => { c with parity := c.parity ^^^ BitVec.twoPow 8 m }

/-- A word as stored, with some of its bits flipped. -/
def received (d : BitVec 64) (flips : List Bit) : Code := flips.foldl Code.flip ⟨d, pgen d⟩

/-- What single error correction and double error detection asks of the checker. -/
def Secded (d : BitVec 64) (flips : List Bit) : Prop :=
  let c := received d flips
  match flips.length with
  | 0 => c.dout = d ∧ c.corrError = false ∧ c.uncorrError = false
  | 1 => c.dout = d ∧ c.corrError = true ∧ c.uncorrError = false
  | _ => c.corrError = false ∧ c.uncorrError = true

variable {c : Code} {b b' : Bit} {d : BitVec 64} {i : Nat}

theorem xorOf_twoPow {w : Nat} {x : BitVec w} {k : Nat} (hk : k < w) (l : List Nat) :
    xorOf (x ^^^ BitVec.twoPow w k).getLsbD l = (xorOf x.getLsbD l ^^ l.count k % 2 == 1) := by
  rw [← xorOf_single, ← xorOf_xor]
  refine xorOf_congr fun i _ => ?_
  rw [BitVec.getLsbD_xor, BitVec.getLsbD_twoPow]
  have hlt : decide (k < w) = true := decide_eq_true hk
  by_cases h : i = k
  · subst h
    simp [hlt]
  · have hne : (i == k) = false := beq_eq_false_iff_ne.mpr h
    simp [hne, Ne.symm h]

theorem dcount_le : ∀ i < 7, ∀ n < 64, dcount i n ≤ 1 := by
  decide +kernel

/-- The checks that see a bit. -/
def Bit.column (b : Bit) (i : Nat) : Bool :=
  match b with
  | .data n => dcount i n == 1
  | .parity m => m.1 == i

/-- The place of a bit in the code word. -/
def Bit.place (b : Bit) : Nat := ((List.range 7).map fun i => if b.column i then 2 ^ i else 0).sum

theorem dataIndex_place : ∀ n : Fin 64, dataIndex (Bit.data n).place = n.1 := by
  decide +kernel

theorem place_parity : ∀ m : Fin 8, (Bit.parity m).place = if m.1 < 7 then 2 ^ m.1 else 0 := by
  decide

theorem place_data : ∀ n : Fin 64, ∀ m : Fin 8, (Bit.data n).place ≠ if m.1 < 7 then 2 ^ m.1 else 0 := by
  decide +kernel

theorem place_inj (h : b.place = b'.place) : b = b' := by
  cases b with
  | data n =>
      cases b' with
      | data n' => rw [Fin.ext ((dataIndex_place n).symm.trans ((congrArg dataIndex h).trans (dataIndex_place n')))]
      | parity m => exact absurd (h.trans (place_parity m)) (place_data n m)
  | parity m =>
      cases b' with
      | data n => exact absurd (h.symm.trans (place_parity m)) (place_data n m)
      | parity m' =>
          rw [place_parity, place_parity] at h
          have hm : ∀ m m' : Fin 8,
              (if m.1 < 7 then 2 ^ m.1 else 0) = (if m'.1 < 7 then 2 ^ m'.1 else 0) → m = m' := by decide
          rw [hm m m' h]

theorem column_inj (h : ∀ i < 7, b.column i = b'.column i) : b = b' := by
  apply place_inj
  rw [Bit.place, Bit.place]
  congr 1
  refine List.map_congr_left fun i hi => ?_
  rw [h i (List.mem_range.mp hi)]

namespace Code

theorem cflag_flip (hi : i < 7) : (c.flip b).cflag i = (c.cflag i ^^ b.column i) := by
  cases b with
  | data n =>
      have hodd : (dcount i n % 2 == 1) = (dcount i n == 1) := by
        have hle := dcount_le i hi n n.2
        interval_cases dcount i n <;> rfl
      rw [cflag, cflag, flip, xorOf_twoPow n.2, Bit.column, ← hodd, Bool.xor_assoc]
      rfl
  | parity m =>
      rw [cflag, cflag, flip, BitVec.getLsbD_xor, BitVec.getLsbD_twoPow, Bit.column]
      have hm : (decide (m.1 < 8) && decide (m.1 = i)) = (m.1 == i) := by
        rw [decide_eq_true m.2, Bool.true_and]
        rfl
      rw [hm, Bool.xor_assoc, Bool.xor_assoc, Bool.xor_comm (m.1 == i)]

/-- Every flip changes the parity of the whole word, which `pflag` takes without the last parity bit. -/
theorem pflag_flip : ((c.flip b).pflag ^^ (c.flip b).parity.getLsbD 7) = !(c.pflag ^^ c.parity.getLsbD 7) := by
  have h0 : (c.flip b).cflag 0 = (c.cflag 0 ^^ b.column 0) := cflag_flip (by decide)
  rw [pflag, pflag, h0]
  cases b with
  | data n =>
      rw [flip, xorOf_twoPow n.2, Bit.column]
      have hcount : (List.count n.1 ((List.range 64).filter fun n => dcount 0 n == 0) % 2 == 1) =
          !(dcount 0 n == 1) := by
        have hle := dcount_le 0 (by decide) n n.2
        have hone : (List.range 64).count n.1 = 1 :=
          List.nodup_range.count.trans (if_pos (List.mem_range.mpr n.2))
        by_cases h : dcount 0 n = 0
        · have hp : (dcount 0 n.1 == 0) = true := beq_iff_eq.mpr h
          rw [@List.count_filter Nat _ _ (fun n => dcount 0 n == 0) _ _ hp, hone, h]
          rfl
        · have hn : dcount 0 n = 1 := by omega
          have hmem : n.1 ∉ (List.range 64).filter fun n => dcount 0 n == 0 :=
            fun hmem => h (beq_iff_eq.mp (List.mem_filter.mp hmem).2)
          rw [List.count_eq_zero_of_not_mem hmem, hn]
          rfl
      rw [hcount]
      cases c.cflag 0 <;> cases dcount 0 n == 1 <;> simp
  | parity m =>
      rw [flip, xorOf_twoPow m.2, Bit.column, BitVec.getLsbD_xor]
      have hone : ∀ m : Fin 8, ((m.1 == 0) ^^ (List.count m.1 (List.range' 1 6) % 2 == 1) ^^
          (BitVec.twoPow 8 m).getLsbD 7) = true := by decide
      have hm := hone m
      generalize (m.1 == 0) = p at hm ⊢
      generalize (List.count m.1 (List.range' 1 6) % 2 == 1) = q at hm ⊢
      generalize (BitVec.twoPow 8 m.1).getLsbD 7 = r at hm ⊢
      cases p <;> cases q <;> cases r <;> simp_all

theorem errBitPos_getLsbD (n : Fin 64) :
    c.errBitPos.getLsbD n = true ↔ ∀ i < 7, c.cflag i = (Bit.data n).column i := by
  rw [errBitPos, getLsbD_ofBits n.2, List.all_eq_true]
  refine forall_congr' fun i => ?_
  rw [List.mem_range]
  refine imp_congr_right fun hi => ?_
  rw [Bit.column]
  by_cases h : dcount i n = 1 <;> cases c.cflag i <;> simp [h]

end Code

theorem pgen_getLsbD (hi : i < 7) : (pgen d).getLsbD i = xorOf d.getLsbD (terms i) := by
  rw [pgen, getLsbD_ofBits (by omega), if_pos hi]

theorem cflag_pgen (hi : i < 7) : (Code.mk d (pgen d)).cflag i = false := by
  rw [Code.cflag, pgen_getLsbD hi, Bool.xor_self]

/-- The places of the data bits that make up all the parity bits but bit 0. -/
def overall : List Nat :=
  (List.range' 1 6).flatMap terms ++ ((List.range 64).filter fun n => dcount 0 n == 0) ++
    (List.range 64).filter fun n => ((List.range 7).map (dcount · n)).sum % 2 == 0

theorem pflag_pgen : (Code.mk d (pgen d)).pflag = (pgen d).getLsbD 7 := by
  have hsmall : xorOf (pgen d).getLsbD (List.range' 1 6) = xorOf d.getLsbD ((List.range' 1 6).flatMap terms) := by
    rw [xorOf_flatMap]
    refine xorOf_congr fun i hi => pgen_getLsbD ?_
    have := List.mem_range'_1.mp hi
    omega
  have hlast : (pgen d).getLsbD 7 =
      xorOf d.getLsbD ((List.range 64).filter fun n => ((List.range 7).map (dcount · n)).sum % 2 == 0) := by
    rw [pgen, getLsbD_ofBits (by decide), if_neg (by decide)]
  have heven : xorOf d.getLsbD overall = false := by
    apply xorOf_of_even
    decide +kernel
  rw [overall, xorOf_append, xorOf_append, ← hsmall, ← hlast] at heven
  rw [Code.pflag, cflag_pgen (by decide), Bool.false_xor]
  exact bne_eq_false_iff_eq.mp heven

theorem cflag_received (flips : List Bit) (hi : i < 7) :
    (received d flips).cflag i = xorOf (Bit.column · i) flips := by
  rw [received]
  induction flips using List.reverseRecOn with
  | nil => exact cflag_pgen hi
  | append_singleton flips b ih =>
      rw [List.foldl_append, List.foldl_cons, List.foldl_nil, Code.cflag_flip hi, ih, xorOf_append,
        xorOf_cons, xorOf_nil, Bool.xor_false]

theorem pflag_received (flips : List Bit) :
    (received d flips).pflag = ((received d flips).parity.getLsbD 7 ^^ flips.length % 2 == 1) := by
  have hflips : ((received d flips).pflag ^^ (received d flips).parity.getLsbD 7) = (flips.length % 2 == 1) := by
    rw [received]
    induction flips using List.reverseRecOn with
    | nil => rw [List.foldl_nil, pflag_pgen, Bool.xor_self]; rfl
    | append_singleton flips b ih =>
        rw [List.foldl_append, List.foldl_cons, List.foldl_nil, Code.pflag_flip, ih, List.length_append,
          List.length_singleton]
        rcases Nat.mod_two_eq_zero_or_one flips.length with h | h <;> simp [h, Nat.add_mod]
  rw [← hflips, Bool.xor_comm, Bool.xor_assoc, Bool.xor_self, Bool.xor_false]

theorem errBitPos_none (h : ∀ i < 7, c.cflag i = false) : c.errBitPos = 0#64 := by
  ext n hn
  have hnone : ∀ n : Fin 64, ∃ i < 7, (Bit.data n).column i = true := by decide +kernel
  obtain ⟨i, hi, hcol⟩ := hnone ⟨n, hn⟩
  rw [← BitVec.getLsbD_eq_getElem, BitVec.getElem_zero, ← Bool.not_eq_true, c.errBitPos_getLsbD ⟨n, hn⟩]
  intro hall
  rw [← hall i hi, h i hi] at hcol
  cases hcol

theorem errBitPos_data {n : Fin 64} (h : ∀ i < 7, c.cflag i = (Bit.data n).column i) :
    c.errBitPos = BitVec.twoPow 64 n := by
  ext k hk
  rw [← BitVec.getLsbD_eq_getElem, ← BitVec.getLsbD_eq_getElem, BitVec.getLsbD_twoPow,
    decide_eq_true n.2, Bool.true_and, Bool.eq_iff_iff, c.errBitPos_getLsbD ⟨k, hk⟩, decide_eq_true_eq]
  constructor
  · intro hall
    have hbit : Bit.data ⟨k, hk⟩ = Bit.data n :=
      column_inj fun i hi => (hall i hi).symm.trans (h i hi)
    cases hbit
    rfl
  · rintro rfl i hi
    exact h i hi

theorem errBitPos_parity {m : Fin 8} (h : ∀ i < 7, c.cflag i = (Bit.parity m).column i) :
    c.errBitPos = 0#64 := by
  ext k hk
  rw [← BitVec.getLsbD_eq_getElem, BitVec.getElem_zero, ← Bool.not_eq_true, c.errBitPos_getLsbD ⟨k, hk⟩]
  intro hall
  have hbit : Bit.data ⟨k, hk⟩ = Bit.parity m := column_inj fun i hi => (hall i hi).symm.trans (h i hi)
  cases hbit

theorem dout_none : (received d []).dout = d := by
  rw [Code.dout, errBitPos_none fun i hi => cflag_received [] hi]
  exact BitVec.xor_zero

theorem dout_single : (received d [b]).dout = d := by
  have hcol : ∀ i < 7, (received d [b]).cflag i = b.column i := fun i hi => by
    rw [cflag_received [b] hi, xorOf_cons, xorOf_nil, Bool.xor_false]
  rw [Code.dout]
  cases b with
  | data n =>
      rw [errBitPos_data hcol]
      show d ^^^ BitVec.twoPow 64 n ^^^ BitVec.twoPow 64 n = d
      rw [BitVec.xor_assoc, BitVec.xor_self, BitVec.xor_zero]
  | parity m =>
      rw [errBitPos_parity hcol]
      exact BitVec.xor_zero

theorem any_cflag_double (hb : b ≠ b') : (List.range 7).any (received d [b, b']).cflag = true := by
  by_contra hnone
  refine hb (column_inj fun i hi => ?_)
  have hi' : (received d [b, b']).cflag i = false := by
    by_contra hcon
    exact hnone (List.any_eq_true.mpr ⟨i, List.mem_range.mpr hi, Bool.not_eq_false _ ▸ hcon⟩)
  rw [cflag_received _ hi, xorOf_cons, xorOf_cons, xorOf_nil, Bool.xor_false] at hi'
  exact bne_eq_false_iff_eq.mp hi'

/-- The checker takes the parity of the word without its last parity bit, so it is right just where that bit is 0. -/
theorem secded_iff (d : BitVec 64) {flips : List Bit} (hn : flips.Nodup) (hl : flips.length ≤ 2) :
    Secded d flips ↔ (received d flips).parity.getLsbD 7 = false := by
  have hp := pflag_received (d := d) flips
  match flips, hn, hl with
  | [], _, _ =>
      have hany : (List.range 7).any (received d []).cflag = false := by
        rw [List.any_eq_false]
        intro i hi
        rw [cflag_received [] (List.mem_range.mp hi)]
        exact Bool.false_ne_true
      simp only [Secded, List.length_nil, Code.corrError, Code.uncorrError, dout_none, hany, hp]
      simp
  | [b], _, _ =>
      simp only [Secded, List.length_singleton, Code.corrError, Code.uncorrError, dout_single, hp]
      cases (received d [b]).parity.getLsbD 7 <;> simp
  | [b, b'], hn, _ =>
      have hb : b ≠ b' := fun h => (List.nodup_cons.mp hn).1 (h ▸ List.mem_singleton_self b)
      simp only [Secded, List.length_cons, List.length_nil, Code.corrError, Code.uncorrError,
        any_cflag_double hb, hp]
      cases (received d [b, b']).parity.getLsbD 7 <;> simp

theorem secded_zero : Secded 0#64 [Bit.data 3, Bit.parity 1] :=
  (secded_iff 0#64 (by decide) (by decide)).mpr (by decide +kernel)

/-- The word 1, read back as it was written, is reported as a corrected error. -/
theorem secded_one : ¬∀ d : BitVec 64, ∀ flips : List Bit, flips.Nodup → flips.length ≤ 2 → Secded d flips := by
  intro h
  have hone : (received 1#64 []).corrError = false := (h 1#64 [] List.nodup_nil (Nat.zero_le 2)).2.1
  revert hone
  decide +kernel

end OpenPiton.L2.Ecc

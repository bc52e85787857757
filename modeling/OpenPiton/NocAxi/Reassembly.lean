import OpenPiton.NocAxi.Deser
import Mathlib.Tactic.FinCases
import Mathlib.Tactic.IntervalCases

namespace OpenPiton.NocAxi

/-- The flits of a packet from the `f`-th on; the words behind the last one of the packet may be
anything. -/
def Packet.Carries (w : NocWidth) (p : Packet) : Nat → List Flit → Prop
  | f, [] => p.data.length + 3 ≤ w.wordNum * f
  | f, fl :: flits =>
      w.wordNum * f < p.data.length + 3 ∧
      (∀ j < w.wordNum, w.wordNum * f + j < p.data.length + 3 → fl j = p.word (w.wordNum * f + j)) ∧
      p.Carries w (f + 1) flits

/-- The numbers of data words that the deserializer of a width takes in whole. -/
def NocWidth.Fits (w : NocWidth) (k : Nat) : Prop :=
  match w with
  | .w128 => k ≠ 1 ∧ k ≠ 8
  | .w256 => k < 6
  | _ => True

instance (w : NocWidth) (k : Nat) : Decidable (w.Fits k) :=
  match w with
  | .w64 | .w512 | .w704 => inferInstanceAs (Decidable True)
  | .w128 => inferInstanceAs (Decidable (_ ∧ _))
  | .w256 => inferInstanceAs (Decidable (_ < _))

namespace Deser

variable {w : NocWidth} {swapEndianess : Bool} {s : Deser} {i : DeserIn} {p : Packet} {f : Nat}

/-- What the deserializer shows is the packet. -/
structure Delivers (swapEndianess : Bool) (p : Packet) (header : Header) (data : Nat → Word) : Prop where
  header_eq : header = p.header
  data_eq : ∀ k < p.data.length, data k = p.dataWord swapEndianess k

/-- State, `remaining_flits` and `dat_flit` behind the `f`-th flit of a packet of `k` data words
that goes on. -/
def control : NocWidth → Nat → Nat → DeserState × Nat × Nat
  | _, _, 0 => (.acceptW1, 0, 0)
  | .w64, k, 1 => (.acceptW2, k + 1, 0)
  | .w64, k, 2 => (.acceptW3, k, 0)
  | .w64, k, f + 3 => (.acceptData, k - 1 - f, f)
  | .w128, k, 1 => (.acceptW3, k - 1, 0)
  | .w128, k, f + 2 => (.acceptData, k - 3 - 2 * f, 2 * f)
  | .w256, k, f + 1 => (.acceptData, k - 5 - 4 * f, 4 * f)
  | .w512, _, _ + 1 => (.acceptData, 0, 0)
  | .w704, _, _ + 1 => (.acceptData, 0, 0)

/-- `f` flits of the packet are in, and more are to come. -/
structure Within (w : NocWidth) (swapEndianess : Bool) (p : Packet) (f : Nat) (s : Deser) : Prop where
  more : w.wordNum * f < p.data.length + 3
  state_eq : s.state = (control w p.data.length f).1
  regs : 0 < f → s.remainingFlits = (control w p.data.length f).2.1 ∧ s.datFlit = (control w p.data.length f).2.2
  w1_eq : 1 ≤ w.wordNum * f → s.pktW1 = p.header.w1
  w2_eq : 2 ≤ w.wordNum * f → s.pktW2 = p.header.w2
  w3_eq : 3 ≤ w.wordNum * f → s.pktW3 = p.header.w3
  data_eq : ∀ k < p.data.length, k + 3 < w.wordNum * f → s.dataOut k = p.dataWord swapEndianess k

/-- The whole packet is in. -/
structure Done (swapEndianess : Bool) (p : Packet) (s : Deser) : Prop where
  state_eq : s.state = .send
  delivers : Delivers swapEndianess p s.headerOut s.dataOut

theorem Within.start (h : s.state = .acceptW1) : Within w swapEndianess p 0 s where
  more := by omega
  state_eq := by rw [h]; cases w <;> rfl
  regs h0 := absurd h0 (Nat.lt_irrefl 0)
  w1_eq h1 := by omega
  w2_eq h2 := by omega
  w3_eq h3 := by omega
  data_eq k _ hk := by omega

theorem Within.ne_send (h : Within w swapEndianess p f s) : s.state ≠ .send := by
  rw [h.state_eq]
  cases w <;> rcases f with _ | _ | _ | f <;> exact DeserState.noConfusion

/-- One more flit is in. -/
def Advanced (w : NocWidth) (swapEndianess : Bool) (p : Packet) (f : Nat) (s : Deser) : Prop :=
  Within w swapEndianess p (f + 1) s ∨
    p.data.length + 3 ≤ w.wordNum * (f + 1) ∧ Done swapEndianess p s

theorem val_of_go (hgo : s.flitInGo i = true) : i.flitInVal = true := by
  rw [flitInGo, Bool.and_eq_true] at hgo
  exact hgo.1

theorem msgLen_eq (hp : p.WellFormed) (h0 : i.flitIn 0 = p.word 0) : i.msgLen = p.data.length + 2 := by
  rw [DeserIn.msgLen, h0]
  exact hp.length_eq

theorem dataSwapped_eq (h1 : s.pktW1 = p.header.w1) (h2 : s.pktW2 = p.header.w2) (hst : s.state ≠ .acceptW1)
    {j k : Nat} (hj : i.flitIn j = p.word (k + 3)) :
    s.dataSwapped w swapEndianess i j = p.dataWord swapEndianess k := by
  have hsize : (s.headerIn w i).sizeLog = p.header.sizeLog := by
    rw [headerIn, if_neg fun h => hst h.2, headerOut, h1, h2]
    rfl
  rw [dataSwapped, hsize, hj]
  rfl

theorem dataSwapped_first (hw : 192 < 64 * w.wordNum) (hst : s.state = .acceptW1)
    (h0 : i.flitIn 0 = p.word 0) (h1 : i.flitIn 1 = p.word 1) (h2 : i.flitIn 2 = p.word 2)
    {j k : Nat} (hj : i.flitIn j = p.word (k + 3)) :
    s.dataSwapped w swapEndianess i j = p.dataWord swapEndianess k := by
  have hsize : (s.headerIn w i).sizeLog = p.header.sizeLog := by
    rw [headerIn, if_pos ⟨hw, hst⟩, h0, h1, h2]
    rfl
  rw [dataSwapped, hsize, hj]
  rfl

/-- The words of a flit from `u` on go to consecutive words of the data from `a` on. -/
theorem store_range {a m u : Nat} (hm : a + m ≤ 8) (k : Nat) :
    s.store w swapEndianess i ((List.range m).map fun j => (a + j, u + j)) k =
      if a ≤ k ∧ k < a + m then s.dataSwapped w swapEndianess i (u + (k - a)) else s.dataOut k := by
  induction m with
  | zero => exact (if_neg (by omega)).symm
  | succ m ih =>
      rw [store, List.range_succ, List.map_append, List.foldl_append]
      change Function.update (s.store w swapEndianess i _) _ _ k = _
      dsimp only
      rw [Nat.mod_eq_of_lt (by omega : a + m < 8)]
      by_cases hk : k = a + m
      · subst hk
        rw [Function.update_self, if_pos (by omega), Nat.add_sub_cancel_left]
      · rw [Function.update_of_ne hk, ih (by omega)]
        by_cases hlt : a ≤ k ∧ k < a + m
        · rw [if_pos hlt, if_pos (by omega)]
        · rw [if_neg hlt, if_neg (by omega)]

theorem Within.store_data (h : Within w swapEndianess p f s) (hst : s.state ≠ .acceptW1)
    (hf : 2 ≤ w.wordNum * f) {a m u : Nat} (hm : a + m ≤ 8) (ha : a = 0 ∨ a + 3 = w.wordNum * f)
    (hfl : ∀ j < m, a + j < p.data.length → i.flitIn (u + j) = p.word (a + j + 3))
    {k : Nat} (hk : k < p.data.length) (hkm : k < a + m) :
    s.store w swapEndianess i ((List.range m).map fun j => (a + j, u + j)) k = p.dataWord swapEndianess k := by
  rw [store_range hm]
  by_cases hlt : a ≤ k ∧ k < a + m
  · rw [if_pos hlt]
    refine dataSwapped_eq (h.w1_eq (by omega)) (h.w2_eq hf) hst ?_
    have := hfl (k - a) (by omega) (by omega)
    rwa [Nat.add_sub_cancel' hlt.1] at this
  · rw [if_neg hlt]
    exact h.data_eq k hk (by omega)

theorem Within.go64 (h : Within .w64 swapEndianess p f s) (hp : p.WellFormed) (hgo : s.flitInGo i = true)
    (hfl : i.flitIn 0 = p.word f) : Advanced .w64 swapEndianess p f (s.step64 swapEndianess i) := by
  have hst := h.state_eq
  have hmore := h.more
  have hle := hp.data_le
  simp only [NocWidth.wordNum, Nat.one_mul] at hmore
  match f with
  | 0 =>
      have hlen := msgLen_eq hp hfl
      refine .inl ⟨by simp only [NocWidth.wordNum]; omega, ?_, fun _ => ⟨?_, ?_⟩, ?_, ?_, ?_, ?_⟩
      all_goals simp only [step64, hst, control, hgo, if_true, NocWidth.wordNum]
      · omega
      · exact fun _ => hfl
      all_goals omega
  | 1 =>
      obtain ⟨hrem, hdf⟩ := h.regs Nat.one_pos
      have h1 := h.w1_eq (by decide)
      simp only [control] at hrem hdf
      refine .inl ⟨by simp only [NocWidth.wordNum]; omega, ?_, fun _ => ⟨?_, ?_⟩, ?_, ?_, ?_, ?_⟩
      all_goals simp only [step64, hst, control, hgo, if_true, NocWidth.wordNum]
      · omega
      · exact hdf
      · exact fun _ => h1
      · exact fun _ => hfl
      all_goals omega
  | 2 =>
      obtain ⟨hrem, hdf⟩ := h.regs Nat.two_pos
      have h1 := h.w1_eq (by decide)
      have h2 := h.w2_eq (by decide)
      simp only [control] at hrem hdf
      by_cases hk : p.data.length = 0
      · refine .inr ⟨by simp only [NocWidth.wordNum]; omega, ?_, ?_, fun k hlt => by omega⟩
        · simp only [step64, hst, control, hgo, if_true, hrem, hk]
        · simp only [step64, hst, control, hgo, if_true, hrem, hk, headerOut, h1, h2]
          rw [hfl]
          rfl
      · refine .inl ⟨by simp only [NocWidth.wordNum]; omega, ?_, fun _ => ⟨?_, ?_⟩, ?_, ?_, ?_, ?_⟩
        all_goals simp only [step64, hst, control, hgo, if_true, hrem, hk, if_false, NocWidth.wordNum]
        · omega
        · exact hdf
        · exact fun _ => h1
        · exact fun _ => h2
        · exact fun _ => hfl
        · omega
  | f + 3 =>
      obtain ⟨hrem, hdf⟩ := h.regs (Nat.succ_pos _)
      have h1 := h.w1_eq (by simp only [NocWidth.wordNum]; omega)
      have h2 := h.w2_eq (by simp only [NocWidth.wordNum]; omega)
      have h3 := h.w3_eq (by simp only [NocWidth.wordNum]; omega)
      simp only [control] at hrem hdf
      have hval := val_of_go hgo
      have hdata : ∀ k < p.data.length, k < f + 1 →
          s.store .w64 swapEndianess i [(s.datFlit, 0)] k = p.dataWord swapEndianess k := by
        intro k hk hkf
        rw [hdf]
        refine h.store_data (a := f) (m := 1) (u := 0) (by simp [hst, control]) ?_ (by omega) (.inr ?_) ?_ hk hkf
        · simp only [NocWidth.wordNum]; omega
        · simp only [NocWidth.wordNum]; omega
        · intro j hj _
          rw [show j = 0 by omega]
          exact hfl
      by_cases hk : p.data.length - 1 - f = 0
      · refine .inr ⟨by simp only [NocWidth.wordNum]; omega, ?_, ?_, fun k hlt => ?_⟩
        · simp only [step64, hst, control, hgo, hval, countData, if_true, hrem, hk]
        · simp only [step64, hst, control, hgo, hval, countData, if_true, hrem, hk, headerOut, h1, h2, h3]
        · simp only [step64, hst, control, hgo, hval, countData, if_true]
          exact hdata k hlt (by omega)
      · refine .inl ⟨by simp only [NocWidth.wordNum]; omega, ?_, fun _ => ⟨?_, ?_⟩, ?_, ?_, ?_, ?_⟩
        all_goals simp only [step64, hst, control, hgo, hval, countData, if_true, hrem, hk, if_false, NocWidth.wordNum]
        · omega
        · omega
        · exact fun _ => h1
        · exact fun _ => h2
        · exact fun _ => h3
        · exact fun k hlt hkf => hdata k hlt (by omega)

theorem Within.go128 (h : Within .w128 swapEndianess p f s) (hp : p.WellFormed) (hfit : NocWidth.w128.Fits p.data.length)
    (hgo : s.flitInGo i = true)
    (hfl : ∀ j < 2, 2 * f + j < p.data.length + 3 → i.flitIn j = p.word (2 * f + j)) :
    Advanced .w128 swapEndianess p f (s.step128 swapEndianess i) := by
  have hst := h.state_eq
  have hmore := h.more
  have hle := hp.data_le
  obtain ⟨hne1, hne8⟩ := hfit
  simp only [NocWidth.wordNum] at hmore
  match f with
  | 0 =>
      have hlen := msgLen_eq hp (hfl 0 (by decide) (by omega))
      refine .inl ⟨by simp only [NocWidth.wordNum]; omega, ?_, fun _ => ⟨?_, ?_⟩, ?_, ?_, ?_, ?_⟩
      all_goals simp only [step128, hst, control, hgo, if_true, NocWidth.wordNum, remainingFirst, hlen]
      · split <;> omega
      · exact fun _ => hfl 0 (by decide) (by omega)
      · exact fun _ => hfl 1 (by decide) (by omega)
      · omega
      · omega
  | 1 =>
      obtain ⟨hrem, hdf⟩ := h.regs Nat.one_pos
      have h1 := h.w1_eq (by decide)
      have h2 := h.w2_eq (by decide)
      have h3 := hfl 0 (by decide) (by omega)
      simp only [control] at hrem hdf
      by_cases hk : p.data.length - 1 = 0
      · refine .inr ⟨by simp only [NocWidth.wordNum]; omega, ?_, ?_, fun k hlt => by omega⟩
        · simp only [step128, hst, control, hgo, if_true, hrem, hk]
        · simp only [step128, hst, control, hgo, if_true, hrem, hk, headerOut, h1, h2]
          rw [h3]
          rfl
      · refine .inl ⟨by simp only [NocWidth.wordNum]; omega, ?_, fun _ => ⟨?_, ?_⟩, ?_, ?_, ?_, ?_⟩
        all_goals simp only [step128, hst, control, hgo, if_true, hrem, hk, if_false, NocWidth.wordNum, remainingNext]
        · change _ = p.data.length - 3 - 2 * 0
          split <;> omega
        · exact hdf
        · exact fun _ => h1
        · exact fun _ => h2
        · exact fun _ => h3
        · intro k hlt hkf
          rw [hdf]
          refine h.store_data (a := 0) (m := 1) (u := 1) (by simp [hst, control]) (by decide) (by omega) (.inl rfl)
            ?_ hlt (by omega)
          intro j hj hjk
          rw [show j = 0 by omega]
          exact hfl 1 (by decide) (by omega)
  | f + 2 =>
      obtain ⟨hrem, hdf⟩ := h.regs (Nat.succ_pos _)
      have h1 := h.w1_eq (by simp only [NocWidth.wordNum]; omega)
      have h2 := h.w2_eq (by simp only [NocWidth.wordNum]; omega)
      have h3 := h.w3_eq (by simp only [NocWidth.wordNum]; omega)
      simp only [control] at hrem hdf
      have hval := val_of_go hgo
      have hdata : ∀ k < p.data.length, k < 2 * f + 3 →
          s.store .w128 swapEndianess i [(s.datFlit + 1, 0), (s.datFlit + 2, 1)] k = p.dataWord swapEndianess k := by
        intro k hk hkf
        rw [hdf]
        refine h.store_data (a := 2 * f + 1) (m := 2) (u := 0) (by simp [hst, control]) ?_ (by omega) (.inr ?_) ?_
          hk hkf
        · simp only [NocWidth.wordNum]; omega
        · simp only [NocWidth.wordNum]; omega
        · intro j hj hjk
          rw [Nat.zero_add, hfl j hj (by omega)]
          congr 1; omega
      by_cases hk : p.data.length - 3 - 2 * f = 0
      · refine .inr ⟨by simp only [NocWidth.wordNum]; omega, ?_, ?_, fun k hlt => ?_⟩
        · simp only [step128, hst, control, hgo, hval, countData, if_true, hrem, hk]
        · simp only [step128, hst, control, hgo, hval, countData, if_true, hrem, hk, headerOut, h1, h2, h3]
        · simp only [step128, hst, control, hgo, hval, countData, if_true]
          exact hdata k hlt (by omega)
      · refine .inl ⟨by simp only [NocWidth.wordNum]; omega, ?_, fun _ => ⟨?_, ?_⟩, ?_, ?_, ?_, ?_⟩
        all_goals
          simp only [step128, hst, control, hgo, hval, countData, if_true, hrem, hk, if_false, NocWidth.wordNum,
            remainingNext]
        · split <;> omega
        · omega
        · exact fun _ => h1
        · exact fun _ => h2
        · exact fun _ => h3
        · exact fun k hlt hkf => hdata k hlt (by omega)

theorem Within.go256 (h : Within .w256 swapEndianess p f s) (hp : p.WellFormed) (hfit : p.data.length < 6)
    (hgo : s.flitInGo i = true)
    (hfl : ∀ j < 4, 4 * f + j < p.data.length + 3 → i.flitIn j = p.word (4 * f + j)) :
    Advanced .w256 swapEndianess p f (s.step256 swapEndianess i) := by
  have hst := h.state_eq
  have hmore := h.more
  have hval := val_of_go hgo
  simp only [NocWidth.wordNum] at hmore
  match f with
  | 0 =>
      have hlen := msgLen_eq hp (hfl 0 (by decide) (by omega))
      have h0 := hfl 0 (by decide) (by omega)
      have h1 := hfl 1 (by decide) (by omega)
      have h2 := hfl 2 (by decide) (by omega)
      have hdata : ∀ k < p.data.length, k < 1 →
          Function.update (fun _ => (0 : Word)) 0 (s.dataSwapped .w256 swapEndianess i 3) k = p.dataWord swapEndianess k := by
        intro k hk hk1
        rw [show k = 0 by omega, Function.update_self]
        exact dataSwapped_first (by decide) hst h0 h1 h2 (hfl 3 (by decide) (by omega))
      by_cases hk : p.data.length + 2 > 3
      · refine .inl ⟨by simp only [NocWidth.wordNum]; omega, ?_, fun _ => ⟨?_, ?_⟩, ?_, ?_, ?_, ?_⟩
        all_goals
          simp only [step256, hst, control, hgo, hval, if_true, NocWidth.wordNum, remainingFirst, hlen, hk,
            Nat.reduceSub, Nat.reduceMul]
        · split <;> omega
        · exact fun _ => h0
        · exact fun _ => h1
        · exact fun _ => h2
        · exact fun k hlt hkf => hdata k hlt (by omega)
      · refine .inr ⟨by simp only [NocWidth.wordNum]; omega, ?_, ?_, fun k hlt => ?_⟩
        all_goals
          simp only [step256, hst, control, hgo, hval, if_true, NocWidth.wordNum, hlen, hk, if_false, headerOut,
            Nat.reduceSub]
        · rw [h0, h1, h2]
          rfl
        · exact hdata k hlt (by omega)
  | 1 =>
      obtain ⟨hrem, hdf⟩ := h.regs Nat.one_pos
      have h1 := h.w1_eq (by decide)
      have h2 := h.w2_eq (by decide)
      have h3 := h.w3_eq (by decide)
      simp only [control] at hrem hdf
      have hk : p.data.length - 5 - 4 * 0 = 0 := by omega
      refine .inr ⟨by simp only [NocWidth.wordNum]; omega, ?_, ?_, fun k hlt => ?_⟩
      · simp only [step256, hst, control, hgo, hval, countData, if_true, hrem, hk]
      · simp only [step256, hst, control, hgo, hval, countData, if_true, hrem, hk, headerOut, h1, h2, h3]
      · simp only [step256, hst, control, hgo, hval, countData, if_true]
        rw [hdf]
        refine h.store_data (a := 1) (m := 4) (u := 0) (by simp [hst, control]) (by decide) (by omega) (.inr rfl) ?_
          hlt (by omega)
        intro j hj hjk
        rw [Nat.zero_add, hfl j hj (by omega)]
        congr 1; omega
  | f + 2 => omega

theorem Within.go512 (h : Within .w512 swapEndianess p f s) (hp : p.WellFormed) (hgo : s.flitInGo i = true)
    (hfl : ∀ j < 8, 8 * f + j < p.data.length + 3 → i.flitIn j = p.word (8 * f + j)) :
    Advanced .w512 swapEndianess p f (s.step512 swapEndianess i) := by
  have hst := h.state_eq
  have hmore := h.more
  have hle := hp.data_le
  have hval := val_of_go hgo
  simp only [NocWidth.wordNum] at hmore
  match f with
  | 0 =>
      have hlen := msgLen_eq hp (hfl 0 (by decide) (by omega))
      have h0 := hfl 0 (by decide) (by omega)
      have h1 := hfl 1 (by decide) (by omega)
      have h2 := hfl 2 (by decide) (by omega)
      have hdata : ∀ k < p.data.length, k < 5 →
          (if k < 5 then s.dataSwapped .w512 swapEndianess i (k + 3) else 0) = p.dataWord swapEndianess k := by
        intro k hk hk5
        rw [if_pos hk5]
        refine dataSwapped_first (by decide) hst h0 h1 h2 ?_
        rw [hfl (k + 3) (by omega) (by omega)]
        congr 1; omega
      by_cases hk : p.data.length + 2 > 7
      · refine .inl ⟨by simp only [NocWidth.wordNum]; omega, ?_, fun _ => ⟨?_, ?_⟩, ?_, ?_, ?_, ?_⟩
        all_goals
          simp only [step512, hst, control, hgo, hval, if_true, NocWidth.wordNum, remainingFirst, hlen, hk,
            Nat.reduceSub, Nat.reduceMul]
        · split <;> omega
        · exact fun _ => h0
        · exact fun _ => h1
        · exact fun _ => h2
        · exact fun k hlt hkf => hdata k hlt (by omega)
      · refine .inr ⟨by simp only [NocWidth.wordNum]; omega, ?_, ?_, fun k hlt => ?_⟩
        all_goals
          simp only [step512, hst, control, hgo, hval, if_true, NocWidth.wordNum, hlen, hk, if_false, headerOut,
            Nat.reduceSub]
        · rw [h0, h1, h2]
          rfl
        · exact hdata k hlt (by omega)
  | 1 =>
      obtain ⟨hrem, hdf⟩ := h.regs Nat.one_pos
      have h1 := h.w1_eq (by decide)
      have h2 := h.w2_eq (by decide)
      have h3 := h.w3_eq (by decide)
      simp only [control] at hrem hdf
      refine .inr ⟨by simp only [NocWidth.wordNum]; omega, ?_, ?_, fun k hlt => ?_⟩
      · simp only [step512, hst, control, hgo, hval, countData, if_true, hrem]
      · simp only [step512, hst, control, hgo, hval, countData, if_true, hrem, headerOut, h1, h2, h3]
      · simp only [step512, hst, control, hgo, hval, countData, if_true]
        rw [hdf]
        refine h.store_data (a := 5) (m := 3) (u := 0) (by simp [hst, control]) (by decide) (by omega) (.inr rfl) ?_
          hlt (by omega)
        intro j hj hjk
        rw [Nat.zero_add, hfl j (by omega) (by omega)]
        congr 1; omega
  | f + 2 => omega

theorem Within.go704 (h : Within .w704 swapEndianess p f s) (hp : p.WellFormed) (hgo : s.flitInGo i = true)
    (hfl : ∀ j < 11, 11 * f + j < p.data.length + 3 → i.flitIn j = p.word (11 * f + j)) :
    Advanced .w704 swapEndianess p f (s.step704 swapEndianess i) := by
  have hst := h.state_eq
  have hmore := h.more
  have hle := hp.data_le
  have hval := val_of_go hgo
  simp only [NocWidth.wordNum] at hmore
  match f with
  | 0 =>
      have h0 := hfl 0 (by decide) (by omega)
      have h1 := hfl 1 (by decide) (by omega)
      have h2 := hfl 2 (by decide) (by omega)
      refine .inr ⟨by simp only [NocWidth.wordNum]; omega, ?_, ?_, fun k hlt => ?_⟩
      all_goals simp only [step704, hst, control, hgo, hval, if_true, headerOut]
      · rw [h0, h1, h2]
        rfl
      · refine dataSwapped_first (by decide) hst h0 h1 h2 ?_
        rw [hfl (k + 3) (by omega) (by omega)]
        congr 1; omega
  | f + 1 => omega

theorem Within.with_data (h : Within w swapEndianess p f s) {d : Nat → Word}
    (hd : ∀ k, k + 3 < w.wordNum * f → d k = s.dataOut k) :
    Within w swapEndianess p f { s with dataOut := d } where
  more := h.more
  state_eq := h.state_eq
  regs := h.regs
  w1_eq := h.w1_eq
  w2_eq := h.w2_eq
  w3_eq := h.w3_eq
  data_eq k hk hkf := (hd k hkf).trans (h.data_eq k hk hkf)

/-- A flit that waits is written already, but behind the words that are in. -/
theorem Within.store_gap (h : Within w swapEndianess p f s) {a m u : Nat} (hm : a + m ≤ 8)
    (ha : a + 3 = w.wordNum * f) :
    Within w swapEndianess p f
      { s with dataOut := s.store w swapEndianess i ((List.range m).map fun j => (a + j, u + j)) } := by
  refine h.with_data fun k hk => ?_
  rw [store_range hm, if_neg (by omega)]

theorem state_step_idle (hst : s.state = .acceptW1) (hgo : s.flitInGo i = false) :
    (s.step w swapEndianess i).state = .acceptW1 := by
  cases w <;> cases hval : i.flitInVal <;>
    simp [step, step64, step128, step256, step512, step704, hst, hgo, hval]

theorem Within.step_gap (h : Within w swapEndianess p f s) (hp : p.WellFormed) (hfit : w.Fits p.data.length)
    (hgo : s.flitInGo i = false) : Within w swapEndianess p f (s.step w swapEndianess i) := by
  have hst := h.state_eq
  have hmore := h.more
  have hle := hp.data_le
  match f with
  | 0 =>
      have h0 : s.state = .acceptW1 := by rw [hst]; cases w <;> rfl
      exact .start (state_step_idle h0 hgo)
  | f + 1 =>
      have hdf := (h.regs (Nat.succ_pos f)).2
      cases hval : i.flitInVal with
      | false =>
          have hs : s.step w swapEndianess i = s := by
            cases w with
            | w64 => rcases f with _ | _ | f <;> simp [step, step64, hst, control, hgo, hval]
            | w128 => rcases f with _ | f <;> simp [step, step128, hst, control, hgo, hval]
            | w256 => simp [step, step256, hst, control, hgo, hval]
            | w512 => simp [step, step512, hst, control, hgo, hval]
            | w704 => simp only [NocWidth.wordNum] at hmore; omega
          rw [hs]
          exact h
      | true =>
          cases w with
          | w64 =>
              match f with
              | 0 | 1 =>
                  have hs : s.step .w64 swapEndianess i = s := by simp [step, step64, hst, control, hgo]
                  rw [hs]
                  exact h
              | f + 2 =>
                  have hs : s.step .w64 swapEndianess i =
                      { s with dataOut := s.store .w64 swapEndianess i [(f, 0)] } := by
                    simp [step, step64, hst, control, hgo, hval, hdf]
                  rw [hs]
                  simp only [NocWidth.wordNum] at hmore
                  exact h.store_gap (a := f) (m := 1) (u := 0) (by omega) (by simp only [NocWidth.wordNum]; omega)
          | w128 =>
              match f with
              | 0 =>
                  have hs : s.step .w128 swapEndianess i = s := by simp [step, step128, hst, control, hgo]
                  rw [hs]
                  exact h
              | f + 1 =>
                  have hs : s.step .w128 swapEndianess i =
                      { s with dataOut := s.store .w128 swapEndianess i [(2 * f + 1, 0), (2 * f + 2, 1)] } := by
                    simp [step, step128, hst, control, hgo, hval, hdf]
                  rw [hs]
                  obtain ⟨_, hne8⟩ := hfit
                  simp only [NocWidth.wordNum] at hmore
                  exact h.store_gap (a := 2 * f + 1) (m := 2) (u := 0) (by omega)
                    (by simp only [NocWidth.wordNum]; omega)
          | w256 =>
              have hs : s.step .w256 swapEndianess i =
                  { s with
                    dataOut := s.store .w256 swapEndianess i
                      [(4 * f + 1, 0), (4 * f + 2, 1), (4 * f + 3, 2), (4 * f + 4, 3)] } := by
                simp [step, step256, hst, control, hgo, hval, hdf]
              have hlt : p.data.length < 6 := hfit
              rw [hs]
              simp only [NocWidth.wordNum] at hmore
              exact h.store_gap (a := 4 * f + 1) (m := 4) (u := 0) (by omega)
                (by simp only [NocWidth.wordNum]; omega)
          | w512 =>
              have hs : s.step .w512 swapEndianess i =
                  { s with dataOut := s.store .w512 swapEndianess i [(5, 0), (6, 1), (7, 2)] } := by
                simp [step, step512, hst, control, hgo, hval, hdf]
              rw [hs]
              simp only [NocWidth.wordNum] at hmore
              exact h.store_gap (a := 5) (m := 3) (u := 0) (by omega) (by simp only [NocWidth.wordNum]; omega)
          | w704 => simp only [NocWidth.wordNum] at hmore; omega

theorem Within.step_go (h : Within w swapEndianess p f s) (hp : p.WellFormed) (hfit : w.Fits p.data.length)
    (hgo : s.flitInGo i = true)
    (hfl : ∀ j < w.wordNum, w.wordNum * f + j < p.data.length + 3 → i.flitIn j = p.word (w.wordNum * f + j)) :
    Advanced w swapEndianess p f (s.step w swapEndianess i) := by
  cases w with
  | w64 =>
      have hmore := h.more
      simp only [NocWidth.wordNum, Nat.one_mul] at hmore hfl
      exact h.go64 hp hgo (hfl 0 Nat.one_pos hmore)
  | w128 => exact h.go128 hp hfit hgo hfl
  | w256 => exact h.go256 hp hfit hgo hfl
  | w512 => exact h.go512 hp hgo hfl
  | w704 => exact h.go704 hp hgo hfl

theorem state_step_taken (hst : s.state = .send) (hrdy : i.outRdy = true) :
    (s.step w swapEndianess i).state = .acceptW1 := by
  cases w <;> simp [step, step64, step128, step256, step512, step704, hst, hrdy]

theorem step_held (hst : s.state = .send) (hrdy : i.outRdy = false) (hw : w ≠ .w512) :
    s.step w swapEndianess i = s := by
  cases w <;> simp_all [step, step64, step128, step256, step704]

/-- The way a packet goes in: its flits in order, with any number of cycles between them in which
none is taken. -/
inductive Feeds (w : NocWidth) (swapEndianess : Bool) : Deser → List Flit → Deser → Prop
  | done (s : Deser) : Feeds w swapEndianess s [] s
  | gap {s s' : Deser} {i : DeserIn} {fl : Flit} {flits : List Flit} : s.flitInGo i = false →
      Feeds w swapEndianess (s.step w swapEndianess i) (fl :: flits) s' → Feeds w swapEndianess s (fl :: flits) s'
  | flit {s s' : Deser} {i : DeserIn} {flits : List Flit} : s.flitInGo i = true →
      Feeds w swapEndianess (s.step w swapEndianess i) flits s' → Feeds w swapEndianess s (i.flitIn :: flits) s'

theorem Feeds.done_of_within {s' : Deser} {flits : List Flit} (h : Feeds w swapEndianess s flits s')
    (hp : p.WellFormed) (hfit : w.Fits p.data.length) (hs : Within w swapEndianess p f s)
    (hflits : p.Carries w f flits) : Done swapEndianess p s' := by
  induction h generalizing f with
  | done s => exact absurd hs.more (Nat.not_lt.mpr hflits)
  | gap hgo _ ih => exact ih (hs.step_gap hp hfit hgo) hflits
  | flit hgo hrest ih =>
      obtain ⟨_, hfl, hrest'⟩ := hflits
      rcases hs.step_go hp hfit hgo hfl with hw | ⟨hlast, hdone⟩
      · exact ih hw hrest'
      · -- no flit is left behind the last one
        cases hrest with
        | done => exact hdone
        | gap => exact absurd hrest'.1 (Nat.not_lt.mpr hlast)
        | flit => exact absurd hrest'.1 (Nat.not_lt.mpr hlast)

/-- A packet of `k` data words always goes in whole, whatever stands behind its last word and
whatever gaps there are. -/
def Reassembles (w : NocWidth) (k : Nat) : Prop :=
  ∀ (swapEndianess : Bool) (p : Packet) (flits : List Flit) (s s' : Deser), p.WellFormed → p.data.length = k →
    p.Carries w 0 flits → s.state = .acceptW1 → Feeds w swapEndianess s flits s' → Done swapEndianess p s'

theorem reassembles_of_fits {k : Nat} (hfit : w.Fits k) : Reassembles w k := by
  rintro swapEndianess p flits s s' hp rfl hflits hst h
  exact h.done_of_within hp hfit (.start hst) hflits

/-- The state behind flits that come one after the other. -/
def feed (w : NocWidth) (swapEndianess : Bool) : Deser → List Flit → Option Deser
  | s, [] => some s
  | s, fl :: flits =>
      if s.state = .send then none else feed w swapEndianess (s.step w swapEndianess ⟨true, fl, true, true⟩) flits

theorem Feeds.of_feed {s' : Deser} {flits : List Flit} (h : feed w swapEndianess s flits = some s') :
    Feeds w swapEndianess s flits s' := by
  induction flits generalizing s with
  | nil =>
      cases h
      exact .done _
  | cons fl flits ih =>
      rw [feed] at h
      split at h
      · cases h
      next hst => exact .flit (i := ⟨true, fl, true, true⟩) (by simp [flitInGo, flitInRdy, hst]) (ih h)

end Deser

namespace Packet

/-- The flits of a packet, filled up with `pad`. -/
def flits (w : NocWidth) (pad : Word) (p : Packet) : List Flit :=
  (List.range ((p.data.length + 3 + w.wordNum - 1) / w.wordNum)).map fun f j =>
    if w.wordNum * f + j < p.data.length + 3 then p.word (w.wordNum * f + j) else pad

theorem carries_range' {w : NocWidth} (p : Packet) (pad : Word) {f m : Nat}
    (hmore : ∀ g < m, w.wordNum * (f + g) < p.data.length + 3) (hlast : p.data.length + 3 ≤ w.wordNum * (f + m)) :
    p.Carries w f ((List.range' f m).map fun f j =>
      if w.wordNum * f + j < p.data.length + 3 then p.word (w.wordNum * f + j) else pad) := by
  induction m generalizing f with
  | zero => exact hlast
  | succ m ih =>
      refine ⟨hmore 0 (Nat.succ_pos m), fun j _ hj => if_pos hj, ih ?_ ?_⟩
      · intro g hg
        have := hmore (g + 1) (by omega)
        rwa [Nat.add_assoc, Nat.add_comm 1 g]
      · rwa [Nat.add_assoc, Nat.add_comm 1 m]

theorem carries_flits (w : NocWidth) (pad : Word) (p : Packet) : p.Carries w 0 (p.flits w pad) := by
  have hn : 0 < w.wordNum := by cases w <;> decide
  rw [flits, List.range_eq_range']
  apply carries_range'
  · intro g hg
    rw [Nat.zero_add]
    have := Nat.mul_le_of_le_div _ _ _ (Nat.succ_le_of_lt hg)
    rw [Nat.succ_mul, Nat.mul_comm] at this
    omega
  · rw [Nat.zero_add]
    have := Nat.lt_mul_div_succ (p.data.length + 3 + w.wordNum - 1) hn
    rw [Nat.mul_add, Nat.mul_one] at this
    omega

/-- A packet with the data words 1, 2, ... -/
def sample (k : Nat) : Packet where
  header := ⟨BitVec.ofNat 64 (k + 2) <<< 22, 0, 0⟩
  data := (List.range k).map fun j => BitVec.ofNat 64 (j + 1)

end Packet

namespace Deser

/-- The widths and numbers of data words that do not fit. -/
def lost : List (NocWidth × Nat) := [(.w128, 1), (.w128, 8), (.w256, 6), (.w256, 7), (.w256, 8)]

/-- The first data word of a packet that does not fit is missing or written over. -/
theorem sample_lost : ∀ a ∈ lost,
    ∃ x : Word, x ≠ 1 ∧
      (feed a.1 false {} ((Packet.sample a.2).flits a.1 0xff)).map (fun s => s.dataOut 0) = some x := by
  intro a ha
  fin_cases ha
  · exact ⟨0, by decide, by decide +kernel⟩
  all_goals exact ⟨0xff, by decide, by decide +kernel⟩

theorem sample_wellFormed {k : Nat} (hk : k ≤ 8) : (Packet.sample k).WellFormed := by
  interval_cases k <;> exact ⟨by decide, by decide⟩

theorem not_reassembles {w : NocWidth} {k : Nat} (hk : k ≤ 8)
    (ha : (w, k) ∈ lost) (hpos : 0 < k) :
    ¬ Reassembles w k := by
  intro h
  obtain ⟨x, hx, hfeed⟩ := sample_lost _ ha
  obtain ⟨s', hs', hout⟩ := Option.map_eq_some_iff.mp hfeed
  have hlen : (Packet.sample k).data.length = k := by simp [Packet.sample]
  have hdone := h false _ _ _ _ (sample_wellFormed hk) hlen (Packet.carries_flits _ _ _) rfl (.of_feed hs')
  have hdata := hdone.delivers.data_eq 0 (by rwa [hlen])
  rw [hout] at hdata
  apply hx
  rw [hdata]
  obtain ⟨k, rfl⟩ := Nat.exists_eq_succ_of_ne_zero (Nat.ne_of_gt hpos)
  simp [Packet.dataWord, Packet.sample, List.range_succ_eq_map]

/-- Which packets a width takes in whole. -/
theorem reassembles_iff (w : NocWidth) {k : Nat} (hk : k ≤ 8) : Reassembles w k ↔ w.Fits k := by
  refine ⟨fun h => ?_, reassembles_of_fits⟩
  by_contra hfit
  have ha : (w, k) ∈ lost ∧ 0 < k := by
    revert hfit
    clear h
    cases w <;> interval_cases k <;> decide
  exact not_reassembles hk ha.1 ha.2 h

theorem reassembles_one_word : Reassembles .w64 1 := (reassembles_iff .w64 (by decide)).mpr (by decide)

theorem one_word_lost : ¬ Reassembles .w128 1 := not_reassembles (by decide) (by decide) (by decide)

end Deser

end OpenPiton.NocAxi

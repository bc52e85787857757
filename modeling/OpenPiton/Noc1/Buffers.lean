import OpenPiton.Noc1.Codec

namespace OpenPiton.Noc1

open L15 (Word)

def Width.Wide (w : Width) : Prop := w = .w256 ∨ w = .w512

/-- The two buffers hold the lists `hq` and `dq`. The wide flits keep the header buffer in groups of
three words. -/
structure BufIn.Holds (w : Width) (b : BufIn) (hq dq : List Word) : Prop where
  header : Fifo.Holds (headerBufSize w) b.header hq
  aligned : w.Wide → 3 ∣ b.header.rdPtr ∧ 3 ∣ hq.length
  data : Fifo.Holds dataBufSize b.data dq

/-- How far the buffers are from taking a flit. -/
def BufIn.slack (w : Width) (b : BufIn) : Nat := (if b.headerFull w then 1 else 0) + b.data.counter

theorem headerPtrNext_eq {w : Width} {ptr k : Nat} (hptr : w.Wide → 3 ∣ ptr ∧ ptr < 9) (hk : w.Wide → k = 3) :
    headerPtrNext w ptr k = (ptr + k) % headerBufSize w := by
  have wide (h : w.Wide) : (if ptr = 9 - 3 then 0 else (ptr + 3) % 16) = (ptr + k) % 9 := by
    obtain ⟨⟨j, rfl⟩, hlt⟩ := hptr h
    rw [hk h]
    have : j = 0 ∨ j = 1 ∨ j = 2 := by omega
    rcases this with rfl | rfl | rfl <;> rfl
  cases w
  case w64 => rfl
  case w128 => rfl
  case w256 => exact wide (.inl rfl)
  case w512 => exact wide (.inr rfl)

theorem writeFrom_headerPtrRange {w : Width} {mem : Nat → Word} {ptr : Nat} {ws : List Word}
    (h : w.Wide → ptr + ws.length ≤ 9) :
    Fifo.writeFrom (headerPtrRange w) mem ptr ws = Fifo.writeFrom (headerBufSize w) mem ptr ws := by
  have wide : ptr + ws.length ≤ 9 → Fifo.writeFrom 16 mem ptr ws = Fifo.writeFrom 9 mem ptr ws := by
    intro hle
    induction ws generalizing mem ptr with
    | nil => rfl
    | cons a ws ih =>
      rw [List.length_cons] at hle
      rw [Fifo.writeFrom, Fifo.writeFrom, Nat.mod_eq_of_lt (by omega), Nat.mod_eq_of_lt (by omega)]
      exact ih (fun _ => by omega) (by omega)
  cases w
  case w64 => rfl
  case w128 => rfl
  case w256 => exact wide (h (.inl rfl))
  case w512 => exact wide (h (.inr rfl))

namespace BufIn.Holds

variable {w : Width} {b : BufIn} {hq dq ws : List Word} {pop : Bool}

theorem wrPtr_aligned (h : b.Holds w hq dq) (hw : w.Wide) : 3 ∣ b.header.wrPtr ∧ b.header.wrPtr < 9 := by
  obtain ⟨⟨i, hi⟩, ⟨j, hj⟩⟩ := h.aligned hw
  have hsize : headerBufSize w = 9 := by rcases hw with rfl | rfl <;> rfl
  have hwr := h.header.wr_eq
  rw [hsize, hi, hj] at hwr
  omega

theorem rdPtr_aligned (h : b.Holds w hq dq) (hw : w.Wide) : 3 ∣ b.header.rdPtr ∧ b.header.rdPtr < 9 := by
  have hsize : headerBufSize w = 9 := by rcases hw with rfl | rfl <;> rfl
  exact ⟨(h.aligned hw).1, hsize ▸ h.header.rd_lt⟩

theorem wrote (h : b.Holds w hq dq) (hlen : hq.length + ws.length ≤ headerBufSize w)
    (hws : w.Wide → ws = [] ∨ ws.length = 3) :
    Fifo.Holds (headerBufSize w) (BufIn.headerNext w b.header ws false) (hq ++ ws) := by
  have hsize (hw : w.Wide) : headerBufSize w = 9 := by rcases hw with rfl | rfl <;> rfl
  refine h.header.push hlen (writeFrom_headerPtrRange fun hw => ?_) rfl ?_ rfl
  · obtain ⟨⟨j, hj⟩, hlt⟩ := h.wrPtr_aligned hw
    have : ws.length = 0 ∨ ws.length = 3 := (hws hw).imp_left (fun h => by simp [h])
    omega
  · simp only [BufIn.headerNext]
    split
    case isTrue he =>
      subst he
      rw [List.length_nil, Nat.add_zero, Nat.mod_eq_of_lt]
      rw [h.header.wr_eq]
      exact Nat.mod_lt _ (Nat.zero_lt_of_lt h.header.rd_lt)
    case isFalse he =>
      exact headerPtrNext_eq h.wrPtr_aligned fun hw => (hws hw).resolve_left he

theorem headerNext (h : b.Holds w hq dq) (hlen : hq.length + ws.length ≤ headerBufSize w)
    (hws : w.Wide → ws = [] ∨ ws.length = 3) (hpop : pop = true → 3 ≤ hq.length) :
    Fifo.Holds (headerBufSize w) (BufIn.headerNext w b.header ws pop)
      (hq.drop (if pop then 3 else 0) ++ ws) := by
  have hwrote := h.wrote hlen hws
  cases pop with
  | false => simpa using hwrote
  | true =>
    have hle := hpop rfl
    have hpopped := hwrote.pop (k := 3) (g := BufIn.headerNext w b.header ws true) (by simp; omega) rfl
      (headerPtrNext_eq h.rdPtr_aligned fun _ => rfl) rfl rfl
    rwa [List.drop_append_of_le_length hle] at hpopped

theorem headerNext_aligned (h : b.Holds w hq dq) (hws : w.Wide → ws = [] ∨ ws.length = 3)
    (hpop : pop = true → 3 ≤ hq.length) (hw : w.Wide) :
    3 ∣ (BufIn.headerNext w b.header ws pop).rdPtr ∧ 3 ∣ (hq.drop (if pop then 3 else 0) ++ ws).length := by
  obtain ⟨hrd, hlt⟩ := h.rdPtr_aligned hw
  have hhq := (h.aligned hw).2
  have hlen : 3 ∣ ws.length := by
    rcases hws hw with hn | hn
    · simp [hn]
    · simp [hn]
  have hsize : headerBufSize w = 9 := by rcases hw with rfl | rfl <;> rfl
  cases pop with
  | false => simpa [BufIn.headerNext] using ⟨hrd, by omega⟩
  | true =>
    have hle := hpop rfl
    constructor
    · have hnext := headerPtrNext_eq (k := 3) h.rdPtr_aligned fun _ => rfl
      rw [hsize] at hnext
      simp only [BufIn.headerNext, if_true, hnext]
      omega
    · simp only [if_true, List.length_append, List.length_drop]
      omega

theorem dataNext {incr : Nat} (h : b.Holds w hq dq) (hlen : dq.length + ws.length ≤ dataBufSize)
    (hincr : incr = ws.length) (hpop : pop = true → 1 ≤ dq.length) :
    Fifo.Holds dataBufSize (BufIn.dataNext b.data ws incr pop) (dq.drop (if pop then 1 else 0) ++ ws) := by
  subst hincr
  have hwrote : Fifo.Holds dataBufSize (BufIn.dataNext b.data ws ws.length false) (dq ++ ws) :=
    h.data.push hlen rfl rfl rfl rfl
  cases pop with
  | false => simpa using hwrote
  | true =>
    have hle := hpop rfl
    have hpopped := hwrote.pop (k := 1) (g := BufIn.dataNext b.data ws ws.length true) (by simp; omega) rfl
      rfl rfl rfl
    rwa [List.drop_append_of_le_length hle] at hpopped

theorem header_room {f : Flit} (h : b.Holds w hq dq) (hr : b.realReadyIn w f = true) :
    hq.length + (b.ctrl.headerIn w f).length ≤ headerBufSize w := by
  have hle := h.header.length_le
  by_cases hm : b.ctrl.headerMux = true
  · have hfull : b.headerFull w = false := by
      simp only [realReadyIn, hm, if_true] at hr
      split at hr <;> simp_all
    simp only [headerFull, h.header.counter_eq] at hfull
    have haligned := h.aligned
    cases w
    case w64 =>
      simp only [headerBufSize, beq_eq_false_iff_ne] at hfull hle
      simp only [Control.headerIn, hm, if_true, List.length_singleton, headerBufSize]
      omega
    case w128 =>
      have hlt : ¬ 8 - 1 ≤ hq.length := of_decide_eq_false hfull
      simp only [Control.headerIn, hm, if_true, headerBufSize]
      split <;> simp only [List.length_cons, List.length_nil] <;> omega
    case w256 =>
      obtain ⟨-, j, hj⟩ := haligned (.inl rfl)
      have hlt : ¬ 9 ≤ hq.length := of_decide_eq_false hfull
      simp only [Control.headerIn, hm, if_true, List.length_cons, List.length_nil, headerBufSize]
      omega
    case w512 =>
      obtain ⟨-, j, hj⟩ := haligned (.inr rfl)
      have hlt : ¬ 9 ≤ hq.length := of_decide_eq_false hfull
      simp only [Control.headerIn, hm, if_true, List.length_cons, List.length_nil, headerBufSize]
      omega
  · simpa [Control.headerIn, hm] using hle

theorem headerIn_wide {c : Control} {f : Flit} (hw : w.Wide) :
    c.headerIn w f = [] ∨ (c.headerIn w f).length = 3 := by
  by_cases hm : c.headerMux = true
  · right
    rcases hw with rfl | rfl <;> simp [Control.headerIn, hm]
  · left
    simp [Control.headerIn, hm]

theorem data_room {f : Flit} (h : b.Holds w hq dq) (hr : b.realReadyIn w f = true) :
    dq.length + (b.ctrl.dataIn w f).length ≤ dataBufSize := by
  have hle := h.data.length_le
  by_cases hm : b.ctrl.dataMux w f = true
  · have hfull : b.dataFull w = false := by
      simp only [realReadyIn, hm, if_true] at hr
      split at hr <;> simp_all
    simp only [dataFull, h.data.counter_eq] at hfull
    cases w
    case w64 =>
      simp only [dataBufSize, beq_eq_false_iff_ne] at hfull hle
      simp only [Control.dataIn, hm, if_true, List.length_singleton, dataBufSize]
      omega
    case w512 =>
      have hlt : ¬ 4 - 1 ≤ dq.length := of_decide_eq_false hfull
      simp only [Control.dataIn, hm, if_true, dataBufSize]
      split <;> simp only [List.length_cons, List.length_nil] <;> omega
    all_goals
      have hlt : ¬ 4 - 1 ≤ dq.length := of_decide_eq_false hfull
      simp only [Control.dataIn, hm, if_true, List.length_singleton, dataBufSize]
      omega
  · simpa [Control.dataIn, hm] using hle

variable {hr dr : Bool}

theorem headerPop_le (h : b.Holds w hq dq) (hp : (b.headerValid && hr) = true) : 3 ≤ hq.length := by
  have := h.header.counter_eq
  simp only [headerValid, Bool.and_eq_true, decide_eq_true_eq] at hp
  omega

theorem dataPop_le (h : b.Holds w hq dq) (hp : (b.dataValid && dr) = true) : 1 ≤ dq.length := by
  have := h.data.counter_eq
  simp only [dataValid, Bool.and_eq_true, bne_iff_ne] at hp
  omega

/-- The words that leave the buffers in a cycle. -/
abbrev headerLeft (b : BufIn) (hr : Bool) (hq : List Word) : List Word :=
  hq.drop (if b.headerValid && hr then 3 else 0)

abbrev dataLeft (b : BufIn) (dr : Bool) (dq : List Word) : List Word :=
  dq.drop (if b.dataValid && dr then 1 else 0)

theorem step_idle (h : b.Holds w hq dq) (c : Control) :
    BufIn.Holds w
      ⟨c, BufIn.headerNext w b.header [] (b.headerValid && hr), BufIn.dataNext b.data [] 0 (b.dataValid && dr)⟩
      (headerLeft b hr hq) (dataLeft b dr dq) := by
  have hheader := @headerNext _ _ _ _ [] (b.headerValid && hr) h h.header.length_le (fun _ => .inl rfl)
    h.headerPop_le
  have haligned := @headerNext_aligned _ _ _ _ [] (b.headerValid && hr) h (fun _ => .inl rfl) h.headerPop_le
  have hdata := @dataNext _ _ _ _ [] (b.dataValid && dr) 0 h h.data.length_le rfl h.dataPop_le
  rw [List.append_nil] at hheader hdata
  exact ⟨hheader, fun hw => by simpa using haligned hw, hdata⟩

theorem step_write {f : Flit} (h : b.Holds w hq dq) (hready : b.realReadyIn w f = true)
    (hc : b.ctrl.Counts w f) (c : Control) :
    BufIn.Holds w
      ⟨c, BufIn.headerNext w b.header (b.ctrl.headerIn w f) (b.headerValid && hr),
        BufIn.dataNext b.data (b.ctrl.dataIn w f) (b.ctrl.dataIncr w f) (b.dataValid && dr)⟩
      (headerLeft b hr hq ++ b.ctrl.headerIn w f) (dataLeft b dr dq ++ b.ctrl.dataIn w f) :=
  ⟨h.headerNext (h.header_room hready) headerIn_wide h.headerPop_le,
    h.headerNext_aligned headerIn_wide h.headerPop_le,
    h.dataNext (h.data_room hready) hc.dataIncr_eq h.dataPop_le⟩

theorem headerOut_eq (h : b.Holds w hq dq) (hle : 3 ≤ hq.length) : b.headerOut w = hq.take 3 := by
  obtain ⟨x, y, z, rest, rfl⟩ : ∃ x y z rest, hq = x :: y :: z :: rest := by
    match hq, hle with
    | x :: y :: z :: rest, _ => exact ⟨x, y, z, rest, rfl⟩
  have hrange (k : Nat) (hk : k < 3) :
      (b.header.rdPtr + k) % headerPtrRange w = (b.header.rdPtr + k) % headerBufSize w := by
    have wide (hw : w.Wide) : (b.header.rdPtr + k) % 16 = (b.header.rdPtr + k) % 9 := by
      obtain ⟨⟨j, hj⟩, hlt⟩ := h.rdPtr_aligned hw
      rw [Nat.mod_eq_of_lt (by omega), Nat.mod_eq_of_lt (by omega)]
    cases w
    case w64 => rfl
    case w128 => rfl
    case w256 => exact wide (.inl rfl)
    case w512 => exact wide (.inr rfl)
  have h0 := h.header.get 0 x rfl
  rw [Nat.add_zero, Nat.mod_eq_of_lt h.header.rd_lt] at h0
  rw [headerOut, hrange 1 (by decide), hrange 2 (by decide), h0, h.header.get 1 y rfl, h.header.get 2 z rfl]
  rfl

theorem dataOut_eq (h : b.Holds w hq dq) (hle : 1 ≤ dq.length) : [b.dataOut] = dq.take 1 := by
  obtain ⟨x, rest, rfl⟩ := List.exists_cons_of_length_pos hle
  have h0 := h.data.get 0 x rfl
  rw [Nat.add_zero, Nat.mod_eq_of_lt h.data.rd_lt] at h0
  rw [dataOut, h0]
  rfl

theorem headerFull_iff : b.headerFull w = true ↔
    match w with
    | .w64 => b.header.counter = 8
    | .w128 => 7 ≤ b.header.counter
    | .w256 | .w512 => 9 ≤ b.header.counter := by
  cases w
  case w64 => exact beq_iff_eq
  all_goals exact decide_eq_true_iff

theorem dataFull_le (hf : b.dataFull w = true) : 3 ≤ b.data.counter := by
  cases w
  case w64 =>
    have : b.data.counter = 4 := by simpa [dataFull, dataBufSize] using hf
    omega
  all_goals exact of_decide_eq_true hf

/-- A flit that finds a buffer full finds it closer to taking it after the L2 has read. -/
theorem slack_lt {f : Flit} (h : b.Holds w hq dq) (hready : b.realReadyIn w f = false) (c : Control) :
    BufIn.slack w ⟨c, BufIn.headerNext w b.header [] b.headerValid, BufIn.dataNext b.data [] 0 b.dataValid⟩ <
      b.slack w := by
  have hle : b.header.counter ≤ headerBufSize w := h.header.counter_eq ▸ h.header.length_le
  have hfull : b.headerFull w = true ∨ b.dataFull w = true := by
    simp only [realReadyIn] at hready
    cases hh : b.headerFull w <;> cases hd : b.dataFull w <;> simp_all
  generalize hb' : BufIn.mk c _ _ = b'
  have hheader : b'.header.counter = b.header.counter - if b.headerValid then 3 else 0 := by subst hb'; rfl
  have hdata : b'.data.counter = b.data.counter - if b.dataValid then 1 else 0 := by subst hb'; rfl
  have hnot : b'.headerFull w = true → b.headerFull w = true ∧ b.headerValid = false := by
    simp only [headerFull_iff, headerValid, decide_eq_false_iff_not, decide_eq_true_eq] at hheader ⊢
    cases w <;> simp only [headerBufSize] at hle ⊢ <;> split at hheader <;> omega
  have hvalid : b.headerFull w = true → b.headerValid = true := by
    simp only [headerFull_iff, headerValid, decide_eq_true_eq]
    cases w <;> simp only <;> omega
  simp only [slack]
  rcases hfull with hf | hf
  · have hf' : b'.headerFull w = false := by
      by_contra hc
      simpa [hvalid hf] using (hnot (by simpa using hc)).2
    simp only [hf, hf', if_true, Bool.false_eq_true, if_false]
    omega
  · have hge := dataFull_le hf
    have hv : b.dataValid = true := by
      simp only [dataValid, bne_iff_ne]
      omega
    rw [hv, if_pos rfl] at hdata
    split
    case isTrue hf' =>
      rw [if_pos (hnot hf').1]
      omega
    case isFalse => omega

theorem slack_le (h : b.Holds w hq dq) : b.slack w ≤ 5 := by
  have hle : b.data.counter ≤ 4 := h.data.counter_eq ▸ h.data.length_le
  simp only [slack]
  split <;> omega

end BufIn.Holds

end OpenPiton.Noc1

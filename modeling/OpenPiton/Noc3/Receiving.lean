import OpenPiton.Noc3.Sending

namespace OpenPiton.Noc3

open L15 (Word)
open Noc1 (Flit fieldType fieldLength)

variable {cfg : Cfg} {r : Req}

/-- The registers of the input machine, up to a data state of the 64-bit buffer that the next header
overwrites. -/
def Control.Like (cfg : Cfg) (c d : Control) : Prop :=
  c = d ∨ cfg.width = .w64 ∧ d.msgState = 0 ∧ ∃ x, c = { d with msgDataState := x }

namespace Control.Like

variable {c d : Control} {f : Flit}

theorem accept_eq (h : Control.Like cfg c d) : c.accept f cfg = d.accept f cfg := by
  rcases h with rfl | ⟨hw, hd, x, rfl⟩
  · rfl
  · simp [Control.accept, hw, accept64, stateNext64, dataStateNext, hd]

theorem stalled (h : Control.Like cfg c d) : Control.Like cfg (c.stalled f cfg) d := by
  by_cases hw : cfg.width = .w64
  case neg =>
    rwa [Control.stalled, if_neg hw]
  case pos =>
    rw [Control.stalled, if_pos hw]
    rcases h with rfl | ⟨-, hd, x, rfl⟩
    · by_cases hs : c.msgState = 0
      · exact .inr ⟨hw, hs, _, rfl⟩
      · exact .inl (by simp [dataStateNext, hs])
    · exact .inr ⟨hw, hd, _, rfl⟩

end Control.Like

theorem canGet_le {size counter k : Nat} (hle : counter ≤ size) (h : canGet size counter k = true) :
    counter + k ≤ size := by
  match k with
  | 0 => exact hle
  | 1 =>
    have : counter ≠ size := by simpa [canGet] using h
    omega
  | k + 2 =>
    have : counter < size - (k + 1) := by simpa [canGet] using h
    omega

theorem BufIn.fifoNext_holds {n k : Nat} {q : Fifo Word} {l ws : List Word} (h : Fifo.Holds n q l)
    (hlen : l.length + ws.length ≤ n) (hk : k ≤ l.length) :
    Fifo.Holds n (fifoNext n q ws k) (l.drop k ++ ws) := by
  have hpush : Fifo.Holds n (fifoNext n q ws 0) (l ++ ws) :=
    h.push hlen rfl (Nat.mod_eq_of_lt h.rd_lt) rfl rfl
  have hrd : (fifoNext n q ws k).rdPtr = ((fifoNext n q ws 0).rdPtr + k) % n := by
    simp only [fifoNext, Nat.add_zero, Nat.mod_add_mod]
  have hpop := hpush.pop (k := k) (g := fifoNext n q ws k) (by simp; omega) rfl hrd rfl rfl
  rwa [List.drop_append_of_le_length hk] at hpop

/-- The words of a read of `msg_data_out`. -/
def Cfg.wordNum (cfg : Cfg) : Nat := if cfg.parallelSrams then 8 else 2

/-- The length of a line in parallel, as the L2 sees it. -/
def Cfg.LengthSeen (cfg : Cfg) (length : BitVec 8) : Prop := cfg.parallelSrams = true → length = 0 ∨ length = 8

namespace BufIn

variable {b : BufIn} {hq dq : List Word}

theorem dataRdPtrInc_eq (hl : cfg.LengthSeen b.messageOutLength) (hv : b.dataValid cfg = true) :
    b.dataRdPtrInc cfg = cfg.wordNum := by
  rw [dataValid, Bool.and_eq_true, bne_iff_ne] at hv
  have hne := hv.2
  rw [dataRdPtrInc, Cfg.wordNum] at *
  cases hp : cfg.parallelSrams with
  | false => rfl
  | true =>
    rcases hl hp with h | h <;> simp_all

theorem dataOut_eq (hd : Fifo.Holds dataBufSize b.data dq) (ha : cfg.wordNum ∣ b.data.rdPtr)
    (hl : cfg.LengthSeen b.messageOutLength) (hv : b.dataValid cfg = true) :
    b.dataOut cfg = dq.take (b.dataRdPtrInc cfg) ∧ b.dataRdPtrInc cfg ≤ dq.length := by
  have hinc := dataRdPtrInc_eq hl hv
  have hle : b.dataRdPtrInc cfg ≤ dq.length := by
    rw [dataValid, Bool.and_eq_true, decide_eq_true_iff, hd.counter_eq] at hv
    exact hv.1
  have hrd := hd.rd_lt
  have hfit : b.data.rdPtr + cfg.wordNum ≤ dataBufSize := by
    simp only [Cfg.wordNum, dataBufSize] at ha hrd ⊢
    split at ha <;> simp_all <;> omega
  refine ⟨List.ext_getElem? fun k => ?_, hle⟩
  rcases Nat.lt_or_ge k (b.dataRdPtrInc cfg) with hk | hk
  · have hin : b.data.rdPtr + k < dataBufSize := by omega
    have hget := hd.get k _ (List.getElem?_eq_getElem (by omega))
    rw [Nat.mod_eq_of_lt hin] at hget
    rw [dataOut, List.getElem?_map, List.getElem?_range hk, Option.map_some, if_pos hin, hget,
      List.getElem?_take_of_lt hk, List.getElem?_eq_getElem]
  · rw [List.getElem?_eq_none (by simpa [dataOut] using hk), List.getElem?_eq_none (by simp; omega)]

theorem headerFlits_eq (h : b.header.mem b.header.rdPtr = r.header1 cfg) : b.headerFlits = r.dataPtr := by
  rw [headerFlits, h, r.fieldType_header1, Req.dataPtr]
  exact if_congr r.msgType_eq_wbReq rfl rfl

theorem headerOut_eq {rest : List Word} (hh : Fifo.Holds headerBufSize b.header (r.headerWords cfg ++ rest)) :
    b.headerFlits = r.dataPtr ∧ b.headerOut = r.headerOut cfg ∧
      (cfg.LengthSeen b.messageOutLengthNext) := by
  have hrd := hh.rd_lt
  have h0 : b.header.mem b.header.rdPtr = r.header1 cfg := by
    have := hh.get 0 (r.header1 cfg) (by rw [Req.headerWords]; split <;> rfl)
    rwa [Nat.add_zero, Nat.mod_eq_of_lt hrd] at this
  have hflits := headerFlits_eq h0
  refine ⟨hflits, ?_, fun hp => ?_⟩
  · rw [headerOut, hflits, Req.dataPtr, Req.headerOut, h0]
    cases hr : r.isRequest with
    | true =>
      rw [Req.headerWords, hr] at hh
      rw [hh.get 1 r.header2 rfl, hh.get 2 cfg.header3 rfl]
      rfl
    | false => rfl
  · rw [messageOutLengthNext, hflits, h0, r.fieldLength_header1, r.msgLength_parallel hp, Req.dataPtr]
    cases r.isRequest with
    | true => exact .inr (by simp)
    | false =>
      by_cases hzero : r.msgLength cfg = 0
      · exact .inl (by simp [hzero])
      · exact .inr (by simp [hzero])

end BufIn

theorem Link.Sending.decoded {s : Link} (h : s.Sending cfg) :
    (decode cfg s.flits).headers <+: s.taken.flatMap (Req.headerWords cfg) ∧
      (decode cfg s.flits).data <+: s.taken.flatMap (Req.dataWords cfg) := by
  rw [h.acks, h.sent.encodes.headers, h.sent.encodes.data, List.flatMap_append, List.flatMap_append,
    List.prefix_append_right_inj, List.prefix_append_right_inj, Noc3Buffer.pending]
  cases hv : s.buffer.bufferVal with
  | true => simpa using And.intro ( List.take_prefix ..) ( List.take_prefix ..)
  | false => simp [h.idle hv]

namespace Link

variable {s : Link} {i : Input}

/-- What the L2 has read of the flits it has accepted, what its buffers hold, and how many of the
headers it has popped. -/
structure Receiving (cfg : Cfg) (s : Link) (received : List Flit) (hq dq : List Word) (n : Nat) : Prop where
  flits : s.flits = received ++ s.link
  ctrl : s.bufIn.ctrl.Like cfg (decode cfg received).ctrl
  header : Fifo.Holds headerBufSize s.bufIn.header hq
  data : Fifo.Holds dataBufSize s.bufIn.data dq
  aligned : cfg.wordNum ∣ s.bufIn.data.rdPtr
  length : cfg.LengthSeen s.bufIn.messageOutLength
  le : n ≤ s.taken.length
  headers : s.headers = (s.taken.take n).map (Req.headerOut cfg)
  headerWords : (decode cfg received).headers = (s.taken.take n).flatMap (Req.headerWords cfg) ++ hq
  dataWords : (decode cfg received).data = s.data ++ dq

namespace Receiving

variable {received : List Flit} {hq dq : List Word} {n : Nat}

/-- The words in the header buffer are those of the messages whose header has not been popped. -/
theorem queued (h : s.Receiving cfg received hq dq n) (hs : s.Sending cfg) :
    hq <+: (s.taken.drop n).flatMap (Req.headerWords cfg) := by
  have hle := (decode_extends received s.link).1.trans (h.flits ▸ hs.decoded.1)
  rw [h.headerWords] at hle
  conv_rhs at hle => rw [← List.take_append_drop n s.taken, List.flatMap_append]
  exact (List.prefix_append_right_inj _).mp hle

/-- A header on offer is that of the next message, and its words are at the head of the buffer. -/
theorem popped (h : s.Receiving cfg received hq dq n) (hs : s.Sending cfg) (hv : s.bufIn.headerValid = true) :
    ∃ r rest, s.taken[n]? = some r ∧ hq = r.headerWords cfg ++ rest ∧ s.bufIn.headerFlits = r.dataPtr := by
  rw [BufIn.headerValid, Bool.and_eq_true, bne_iff_ne, decide_eq_true_iff, h.header.counter_eq] at hv
  obtain ⟨hne, hflits⟩ := hv
  have hpre := h.queued hs
  cases hd : s.taken.drop n with
  | nil =>
    rw [hd, List.flatMap_nil, List.prefix_nil] at hpre
    exact absurd (by rw [hpre]; rfl) hne
  | cons r later =>
    rw [hd, List.flatMap_cons] at hpre
    have hr : s.taken[n]? = some r := by
      have := @List.getElem?_drop _ s.taken n 0
      rw [hd] at this
      simpa using this.symm
    have h0 : s.bufIn.header.mem s.bufIn.header.rdPtr = r.header1 cfg := by
      obtain ⟨x, xs, rfl⟩ := List.exists_cons_of_length_pos (Nat.pos_of_ne_zero hne)
      have hx : x = r.header1 cfg := by
        obtain ⟨t, ht⟩ := hpre
        rw [Req.headerWords] at ht
        split at ht <;> exact (List.cons.inj ht).1
      have := h.header.get 0 x rfl
      rwa [Nat.add_zero, Nat.mod_eq_of_lt h.header.rd_lt, hx] at this
    have hf := BufIn.headerFlits_eq h0
    rw [hf, ← r.length_headerWords cfg] at hflits
    obtain ⟨rest, hrest⟩ := List.prefix_of_prefix_length_le (List.prefix_append ..) hpre hflits
    exact ⟨r, rest, hr, hrest.symm, hf⟩

theorem accepts (h : s.Receiving cfg received hq dq n) :
    ∃ fs, s.link = fs ++ (if (s.accepted cfg i).isSome then s.link.tail else s.link) ∧
      ((s.step cfg i).bufIn.ctrl.Like cfg (decode cfg (received ++ fs)).ctrl) ∧
      (decode cfg (received ++ fs)).headers =
        (decode cfg received).headers ++ ((s.accepted cfg i).map Accept.headers).getD [] ∧
      (decode cfg (received ++ fs)).data =
        (decode cfg received).data ++ ((s.accepted cfg i).map Accept.data).getD [] ∧
      hq.length + (((s.accepted cfg i).map Accept.headers).getD []).length ≤ headerBufSize ∧
      dq.length + (((s.accepted cfg i).map Accept.data).getD []).length ≤ dataBufSize := by
  have hctrl : (s.step cfg i).bufIn.ctrl = (s.offered i).elim s.bufIn.ctrl fun f =>
      ((s.bufIn.taking cfg f).map Accept.next).getD (s.bufIn.ctrl.stalled f cfg) := by
    simp only [step, BufIn.step]
    cases s.offered i <;> rfl
  rw [hctrl]
  cases hacc : s.accepted cfg i with
  | none =>
    refine ⟨[], rfl, ?_, by simp, by simp, h.header.length_le, h.data.length_le⟩
    rw [List.append_nil]
    cases hoff : s.offered i with
    | none => exact h.ctrl
    | some f =>
      rw [accepted, hoff, Option.bind_some] at hacc
      simp only [Option.elim_some, hacc]
      exact h.ctrl.stalled
  | some a =>
    obtain ⟨f, hoff, htaking⟩ := Option.bind_eq_some_iff.mp hacc
    obtain ⟨l, hl⟩ : ∃ l, s.link = f :: l := by
      simp only [offered] at hoff
      split at hoff
      · exact List.head?_eq_some_iff.mp hoff
      · cases hoff
    obtain ⟨haccept, hroom⟩ := Option.filter_eq_some_iff.mp htaking
    rw [h.ctrl.accept_eq] at haccept
    rw [Bool.and_eq_true] at hroom
    have hdecode : decode cfg (received ++ [f]) =
        ⟨a.next, (decode cfg received).headers ++ a.headers, (decode cfg received).data ++ a.data⟩ := by
      rw [decode_concat, Decoded.step, haccept]
    refine ⟨[f], by simp [hl], ?_, by rw [hdecode]; rfl, by rw [hdecode]; rfl, ?_, ?_⟩
    · simp only [hoff, Option.elim_some, htaking, hdecode]
      exact .inl rfl
    · have := canGet_le (h.header.counter_eq ▸ h.header.length_le) hroom.1
      rwa [h.header.counter_eq] at this
    · have := canGet_le (h.data.counter_eq ▸ h.data.length_le) hroom.2
      rwa [h.data.counter_eq] at this

/-- The words that the header buffer loses in a cycle. -/
def headerPop (s : Link) (i : Input) : Nat :=
  if s.bufIn.headerValid && i.headerReadyOut then s.bufIn.headerFlits else 0

def dataPop (cfg : Cfg) (s : Link) (i : Input) : Nat :=
  if s.bufIn.dataValid cfg && i.dataReadyOut then s.bufIn.dataRdPtrInc cfg else 0

theorem pops (h : s.Receiving cfg received hq dq n) (hs : s.Sending cfg) :
    ∃ m ≤ s.taken.length, headerPop s i ≤ hq.length ∧
      (s.step cfg i).headers = (s.taken.take m).map (Req.headerOut cfg) ∧
      (s.taken.take n).flatMap (Req.headerWords cfg) ++ hq =
        (s.taken.take m).flatMap (Req.headerWords cfg) ++ hq.drop (headerPop s i) ∧
      cfg.LengthSeen (s.step cfg i).bufIn.messageOutLength := by
  have hout : (s.step cfg i).headers =
    s.headers ++ (if s.bufIn.headerValid && i.headerReadyOut then [s.bufIn.headerOut] else []) := rfl
  have hlen : (s.step cfg i).bufIn.messageOutLength =
    if s.bufIn.headerValid && i.headerReadyOut then s.bufIn.messageOutLengthNext
    else s.bufIn.messageOutLength := rfl
  rw [hout, hlen, headerPop]
  cases hp : s.bufIn.headerValid && i.headerReadyOut with
  | false => exact ⟨n, h.le, by simp, by simpa using h.headers, by simp, h.length⟩
  | true =>
    obtain ⟨r, rest, hr, rfl, hflits⟩ := h.popped hs (Bool.and_eq_true_iff.mp hp).1
    obtain ⟨-, houteq, hseen⟩ := BufIn.headerOut_eq h.header
    have hn := (List.getElem?_eq_some_iff.mp hr).1
    have htake : s.taken.take (n + 1) = s.taken.take n ++ [r] := by rw [List.take_add_one, hr]; rfl
    refine ⟨n + 1, hn, by simp [hflits], ?_, ?_, hseen⟩
    · rw [htake, List.map_append, ← h.headers, houteq]
      rfl
    · rw [htake, List.flatMap_append, List.flatMap_singleton, if_pos rfl, hflits, ← r.length_headerWords cfg,
        List.drop_left, List.append_assoc]

theorem pops_data (h : s.Receiving cfg received hq dq n) :
    dataPop cfg s i ≤ dq.length ∧ (s.step cfg i).data ++ dq.drop (dataPop cfg s i) = s.data ++ dq ∧
      cfg.wordNum ∣ (s.bufIn.data.rdPtr + dataPop cfg s i) % dataBufSize := by
  have hout : (s.step cfg i).data =
    s.data ++ (if s.bufIn.dataValid cfg && i.dataReadyOut then s.bufIn.dataOut cfg else []) := rfl
  have hsize : cfg.wordNum ∣ dataBufSize := by
    rw [Cfg.wordNum, dataBufSize]
    split <;> decide
  rw [hout, dataPop]
  cases hp : s.bufIn.dataValid cfg && i.dataReadyOut with
  | false => exact ⟨by simp, by simp, (Nat.dvd_mod_iff hsize).mpr h.aligned⟩
  | true =>
    have hv := (Bool.and_eq_true_iff.mp hp).1
    obtain ⟨hword, hle⟩ := BufIn.dataOut_eq h.data h.aligned h.length hv
    refine ⟨hle, ?_, (Nat.dvd_mod_iff hsize).mpr (Nat.dvd_add h.aligned ?_)⟩
    · rw [if_pos rfl, if_pos rfl, hword, List.append_assoc, List.take_append_drop]
    · rw [if_pos rfl, BufIn.dataRdPtrInc_eq h.length hv]

theorem step (h : s.Receiving cfg received hq dq n) (hs : s.Sending cfg) :
    ∃ received' hq' dq' n', (s.step cfg i).Receiving cfg received' hq' dq' n' := by
  obtain ⟨fs, hlink, hctrl, hheaders, hdata, hroom, hroom'⟩ := h.accepts (i := i)
  obtain ⟨m, hm, hpop, hout, hwords, hseen⟩ := h.pops (i := i) hs
  obtain ⟨hpop', hout', haligned⟩ := h.pops_data (i := i)
  have htaken : (s.step cfg i).taken = s.taken ++ (if s.l15ReqAck cfg i then i.new.toList else []) := rfl
  have htake : (s.step cfg i).taken.take m = s.taken.take m := by rw [htaken, List.take_append_of_le_length hm]
  refine ⟨received ++ fs, hq.drop (headerPop s i) ++ _, dq.drop (dataPop cfg s i) ++ _, m, ?_, hctrl,
    BufIn.fifoNext_holds h.header hroom hpop, BufIn.fifoNext_holds h.data hroom' hpop', haligned, hseen, ?_,
    by rw [htake]; exact hout, ?_, ?_⟩
  · have hflits : (s.step cfg i).flits =
      s.flits ++ (if s.fire cfg i then [s.encoder.flit cfg s.buffer.req] else []) := rfl
    rw [hflits, h.flits]
    conv_lhs => rw [hlink]
    simp only [Link.step, List.append_assoc]
  · rw [htaken, List.length_append]
    exact Nat.le_add_right_of_le hm
  · rw [htake, hheaders, h.headerWords, hwords, List.append_assoc]
    rfl
  · rw [hdata, h.dataWords, ← hout', List.append_assoc]
    rfl

end Receiving

end Link

end OpenPiton.Noc3

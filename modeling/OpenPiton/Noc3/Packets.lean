import OpenPiton.Noc3.Codec

namespace OpenPiton.Noc3

open L15 (Word)
open Noc1 (Flit fieldType fieldLength)

namespace Req

variable (cfg : Cfg) (r : Req)

def headerWords : List Word := if r.isRequest then [r.header1 cfg, r.header2, cfg.header3] else [r.header1 cfg]

/-- The words of the line that the message carries. -/
def dataWords : List Word := (List.range (r.msgLength cfg + 1 - r.dataPtr)).map r.dataArray

def message : List Word := r.headerWords cfg ++ r.dataWords cfg

@[simp] theorem length_headerWords : (r.headerWords cfg).length = r.dataPtr := by
  simp only [headerWords, dataPtr]
  split <;> rfl

@[simp] theorem length_dataWords : (r.dataWords cfg).length = r.msgLength cfg + 1 - r.dataPtr := by
  simp [dataWords]

theorem kind : Kind cfg.lineSize r.isRequest (r.msgLength cfg) := by
  rw [isRequest, msgLength]
  cases r.reqtype
  case writeback => cases cfg.lineSize <;> constructor
  case icacheInvalAck | none => constructor
  case invalAck | downgradeAck =>
    cases r.withData
    · constructor
    · cases hp : cfg.parallelSrams
      · constructor
      · rw [cfg.line_of_parallel hp]
        constructor

variable {cfg r}

theorem dataPtr_le : r.dataPtr ≤ r.msgLength cfg + 1 := (r.kind cfg).fits.1

theorem data_le : r.msgLength cfg + 1 - r.dataPtr ≤ cfg.lineSize.maxDataPackets := (r.kind cfg).fits.2

theorem parallel_of_long (hr : r.isRequest = false) (hlen : 2 < r.msgLength cfg) : cfg.parallelSrams = true := by
  simp only [isRequest, beq_eq_false_iff_ne, ne_eq] at hr
  by_contra hp
  revert hr hlen
  simp only [msgLength, hp]
  cases r.reqtype <;> cases r.withData <;> simp

theorem msgLength_parallel (hp : cfg.parallelSrams = true) :
    r.msgLength cfg = if r.isRequest then 10 else if r.msgLength cfg = 0 then 0 else 8 := by
  rw [isRequest, msgLength, cfg.line_of_parallel hp, hp]
  cases r.reqtype <;> cases r.withData <;> rfl

theorem fieldType_header1 : fieldType (r.header1 cfg) = r.msgType := Noc1.fieldType_append ..

theorem fieldLength_header1 : fieldLength (r.header1 cfg) = BitVec.ofNat 8 (r.msgLength cfg) :=
  Noc1.fieldLength_append ..

theorem msgType_eq_wbReq : r.msgType = msgTypeWbReq ↔ r.isRequest = true := by
  simp only [msgType, isRequest, msgTypeWbReq]
  cases r.reqtype <;> cases r.wasInval <;> decide

end Req

variable {cfg : Cfg} {r : Req} {pos : Nat} {f : Flit}

/-- The flit holds the words of the message from `pos` on, as far as they go. -/
def Carries (cfg : Cfg) (r : Req) (pos : Nat) (f : Flit) : Prop :=
  ∀ k < cfg.width.words, pos + k ≤ r.msgLength cfg → (r.message cfg)[pos + k]? = some (f.word k)

theorem Width.words_pos (w : Width) : 0 < w.words := by
  cases w <;> decide

theorem Carries.shows (h : Carries cfg r pos f) : Shows r.isRequest (r.msgLength cfg) pos f := by
  rintro rfl
  have h0 : f.word 0 = r.header1 cfg := by
    have := h 0 cfg.width.words_pos (Nat.zero_le _)
    simp only [Req.message, Req.headerWords] at this
    split at this <;> exact (Option.some.inj this).symm
  rw [h0, r.fieldType_header1, r.fieldLength_header1]
  exact ⟨r.msgType_eq_wbReq, rfl⟩

theorem take_append_slice {l : List Word} {a start k : Nat}
    (h : ∀ i < k, l[a + i]? = some (f.word (start + i))) : l.take a ++ slice f start k = l.take (a + k) := by
  induction k with
  | zero => simp
  | succ k ih =>
    have hk := h k (Nat.lt_succ_self k)
    have hs : slice f start (k + 1) = slice f start k ++ [f.word (start + k)] := by
      simp [slice, List.range_succ]
    rw [hs, ← List.append_assoc, ih fun i hi => h i (Nat.lt_succ_of_lt hi), ← Nat.add_assoc, List.take_add_one, hk]
    rfl

theorem Carries.headers (h : Carries cfg r pos f) :
    (r.headerWords cfg).take pos ++ slice f 0 (headerCount cfg.width r.isRequest pos) =
      (r.headerWords cfg).take (pos + cfg.width.words) := by
  have hdp : (if r.isRequest then 3 else 1) = r.dataPtr := rfl
  have hle : r.dataPtr ≤ r.msgLength cfg + 1 := Req.dataPtr_le
  rw [take_append_slice]
  · rw [List.take_eq_take_iff, headerCount, hdp, r.length_headerWords]
    omega
  · intro i hi
    rw [headerCount, hdp] at hi
    have hword := h i (by omega) (by omega)
    rw [Req.message, List.getElem?_append_left (by simp; omega)] at hword
    rwa [Nat.zero_add]

theorem Carries.data (h : Carries cfg r pos f) :
    (r.dataWords cfg).take (pos - r.dataPtr) ++
        slice f (headerCount cfg.width r.isRequest pos) (dataCount cfg.width r.isRequest (r.msgLength cfg) pos) =
      (r.dataWords cfg).take (pos + cfg.width.words - r.dataPtr) := by
  have hdp : (if r.isRequest then 3 else 1) = r.dataPtr := rfl
  have hle : r.dataPtr ≤ r.msgLength cfg + 1 := Req.dataPtr_le
  rw [take_append_slice]
  · rw [List.take_eq_take_iff, dataCount, headerCount, hdp, r.length_dataWords]
    omega
  · intro i hi
    rw [dataCount, headerCount, hdp] at hi
    have hword := h (headerCount cfg.width r.isRequest pos + i) (by rw [headerCount, hdp]; omega)
      (by rw [headerCount, hdp]; omega)
    rw [Req.message, List.getElem?_append_right (by simp [headerCount, hdp]; omega)] at hword
    rw [← hword, r.length_headerWords]
    congr 1
    rw [headerCount, hdp]
    omega

/-- The data registers hold the words of the line that the flit at `pos` needs. -/
def Encoder.Loaded (cfg : Cfg) (e : Encoder) (r : Req) (pos : Nat) : Prop :=
  ∀ k < cfg.bufferWidth, pos - r.dataPtr + k < cfg.lineSize.maxDataPackets →
    e.reqDataF k = r.dataArray (pos - r.dataPtr + k)

theorem Cfg.le_bufferWidth (cfg : Cfg) : min cfg.width.words cfg.lineSize.maxDataPackets ≤ cfg.bufferWidth := by
  rw [bufferWidth]
  cases cfg.width <;> cases cfg.lineSize <;> decide

theorem Cfg.subFlitWidth_eq (cfg : Cfg) : cfg.subFlitWidth = max 4 cfg.width.words := by
  rw [subFlitWidth]
  split <;> omega

theorem Req.getElem?_message {j : Nat} (hj : j ≤ r.msgLength cfg) (hdata : r.dataPtr ≤ j) :
    (r.message cfg)[j]? = some (r.dataArray (j - r.dataPtr)) := by
  have hle : r.dataPtr ≤ r.msgLength cfg + 1 := dataPtr_le
  rw [message, List.getElem?_append_right (by simpa using hdata), length_headerWords, dataWords,
    List.getElem?_map, List.getElem?_range (by omega)]
  rfl

namespace Encoder

variable {e : Encoder}

theorem word_flit {k : Nat} (hk : k < cfg.width.words) :
    (e.flit cfg r).word k =
      if e.flitState < r.dataPtr then e.subFlit cfg r (e.flitState + k) else e.dataF cfg k := by
  simp [flit, Flit.word, List.getD_eq_getElem?_getD, List.getElem?_range hk]

theorem dataF_eq {k : Nat} (hl : e.Loaded cfg r e.flitState) (hk : k < cfg.width.words)
    (hmax : e.flitState - r.dataPtr + k < cfg.lineSize.maxDataPackets) :
    e.dataF cfg k = r.dataArray (e.flitState - r.dataPtr + k) := by
  have hb := cfg.le_bufferWidth
  have hk : k < cfg.bufferWidth := by omega
  rw [dataF, if_pos hk, hl k hk hmax]

theorem subFlit_add_three (j : Nat) : e.subFlit cfg r (j + 3) =
    if j + 3 < cfg.subFlitWidth ∧ j + 2 < r.msgLength cfg then
      if cfg.parallelSrams ∧ r.isRequest = false then e.dataF cfg (j + 2) else e.dataF cfg (j % cfg.bufferWidth)
    else 0 := rfl

/-- The words of `sub_flit` are those of the message, the data words once the registers hold them. -/
theorem subFlit_eq {k : Nat} (hl : r.dataPtr ≤ e.flitState + k → e.Loaded cfg r e.flitState)
    (hk : k < cfg.width.words) (hpos : cfg.width.words ∣ e.flitState) (hhdr : e.flitState < r.dataPtr)
    (hle : e.flitState + k ≤ r.msgLength cfg) :
    (r.message cfg)[e.flitState + k]? = some (e.subFlit cfg r (e.flitState + k)) := by
  have hdp : r.dataPtr = if r.isRequest then 3 else 1 := rfl
  have hmax : r.msgLength cfg + 1 - r.dataPtr ≤ cfg.lineSize.maxDataPackets := Req.data_le
  have hb := cfg.le_bufferWidth
  have hw := cfg.subFlitWidth_eq
  have hword (i : Nat) (h : r.dataPtr ≤ e.flitState + k) (hi : i = e.flitState + k - r.dataPtr) :
      (r.message cfg)[e.flitState + k]? = some (e.dataF cfg i) := by
    have hzero : e.flitState - r.dataPtr = 0 := by omega
    rw [Req.getElem?_message hle h, dataF_eq (hl h) (by omega) (by omega), hzero, Nat.zero_add, hi]
  cases hr : r.isRequest with
  | true =>
    rw [hr, if_pos rfl] at hdp
    have hlen : 3 ≤ r.msgLength cfg + 1 := hdp ▸ Req.dataPtr_le
    match hj : e.flitState + k with
    | 0 => simp [Req.message, Req.headerWords, hr, subFlit]
    | 1 => simp [Req.message, Req.headerWords, hr, subFlit, show 0 < r.msgLength cfg by omega]
    | 2 => simp [Req.message, Req.headerWords, hr, subFlit, show 1 < r.msgLength cfg by omega]
    | j + 3 =>
      have hfit : j + 3 < cfg.subFlitWidth := by
        obtain ⟨m, hm⟩ := hpos
        cases hc : cfg.width <;> simp only [hc, Width.words] at hm hk hw <;> omega
      have hj : e.flitState + k = j + 3 := hj
      have hsub : e.subFlit cfg r (j + 3) = e.dataF cfg j := by
        rw [subFlit_add_three, if_pos ⟨hfit, by omega⟩, if_neg (by simp [hr]), Nat.mod_eq_of_lt (by omega)]
      rw [hsub, ← hj]
      exact hword j (by omega) (by omega)
  | false =>
    rw [hr, if_neg Bool.false_ne_true] at hdp
    match hj : e.flitState + k with
    | 0 => simp [Req.message, Req.headerWords, hr, subFlit]
    | 1 =>
      rw [← hj, hword 0 (by omega) (by omega), hj]
      simp [subFlit, hr, show 0 < r.msgLength cfg by omega]
    | 2 =>
      rw [← hj, hword 1 (by omega) (by omega), hj]
      simp [subFlit, hr, show 1 < r.msgLength cfg by omega]
    | j + 3 =>
      have hp : cfg.parallelSrams = true := Req.parallel_of_long hr (by omega)
      have hj : e.flitState + k = j + 3 := hj
      have hsub : e.subFlit cfg r (j + 3) = e.dataF cfg (j + 2) := by
        rw [subFlit_add_three, if_pos ⟨by omega, by omega⟩, if_pos ⟨hp, hr⟩]
      rw [hsub, ← hj]
      exact hword (j + 2) (by omega) (by omega)

theorem carries_flit
    (hl : r.dataPtr < e.flitState + cfg.width.words → r.dataPtr ≤ r.msgLength cfg → e.Loaded cfg r e.flitState)
    (hpos : cfg.width.words ∣ e.flitState) : Carries cfg r e.flitState (e.flit cfg r) := by
  intro k hk hle
  rw [word_flit hk]
  by_cases hhdr : e.flitState < r.dataPtr
  · rw [if_pos hhdr]
    exact subFlit_eq (fun h => hl (by omega) (by omega)) hk hpos hhdr hle
  · have hmax : r.msgLength cfg + 1 - r.dataPtr ≤ cfg.lineSize.maxDataPackets := Req.data_le
    rw [if_neg hhdr, dataF_eq (hl (by omega) (by omega)) hk (by omega), Req.getElem?_message hle (by omega)]
    congr 2
    omega

end Encoder

/-- What the input machine makes of a list of flits. -/
structure Decoded where
  ctrl : Control := {}
  headers : List Word := []
  data : List Word := []

def Decoded.step (cfg : Cfg) (d : Decoded) (f : Flit) : Decoded :=
  match d.ctrl.accept f cfg with
  | some a => ⟨a.next, d.headers ++ a.headers, d.data ++ a.data⟩
  | none => d

def decode (cfg : Cfg) (fs : List Flit) : Decoded := fs.foldl (Decoded.step cfg) {}

theorem decode_concat (fs : List Flit) : decode cfg (fs ++ [f]) = (decode cfg fs).step cfg f := by
  rw [decode, List.foldl_append]
  rfl

theorem Decoded.step_extends (cfg : Cfg) (d : Decoded) (f : Flit) :
    d.headers <+: (d.step cfg f).headers ∧ d.data <+: (d.step cfg f).data := by
  rw [step]
  split
  · exact ⟨List.prefix_append .., List.prefix_append ..⟩
  · exact ⟨List.prefix_rfl, List.prefix_rfl⟩

theorem decode_extends (fs gs : List Flit) : (decode cfg fs).headers <+: (decode cfg (fs ++ gs)).headers ∧
    (decode cfg fs).data <+: (decode cfg (fs ++ gs)).data := by
  induction gs using List.reverseRecOn with
  | nil => simp
  | append_singleton gs g ih =>
    rw [← List.append_assoc, decode_concat]
    have hstep := (decode cfg (fs ++ gs)).step_extends cfg g
    exact ⟨ih.1.trans hstep.1, ih.2.trans hstep.2⟩

/-- The flits are read as the messages of `done`, and as the words before `pos` of that of `r`. -/
structure Encodes (cfg : Cfg) (done : List Req) (r : Req) (pos : Nat) (fs : List Flit) : Prop where
  ctrl : (decode cfg fs).ctrl.At cfg.width r.isRequest (r.msgLength cfg) pos
  headers : (decode cfg fs).headers = done.flatMap (Req.headerWords cfg) ++ (r.headerWords cfg).take pos
  data : (decode cfg fs).data = done.flatMap (Req.dataWords cfg) ++ (r.dataWords cfg).take (pos - r.dataPtr)

namespace Encodes

variable {done : List Req} {fs : List Flit}

theorem nil (r : Req) : Encodes cfg [] r 0 [] where
  ctrl := .init ..
  headers := by simp [decode]
  data := by simp [decode]

theorem next (h : Encodes cfg done r 0 fs) (r' : Req) : Encodes cfg done r' 0 fs where
  ctrl := h.ctrl.zero ..
  headers := by simpa using h.headers
  data := by simpa using h.data

theorem snoc (h : Encodes cfg done r pos fs) (hf : Carries cfg r pos f) (hle : pos ≤ r.msgLength cfg)
    (hpos : cfg.width.words ∣ pos) :
    (decode cfg (fs ++ [f])).ctrl.At cfg.width r.isRequest (r.msgLength cfg)
        (if r.msgLength cfg < pos + cfg.width.words then 0 else pos + cfg.width.words) ∧
      (decode cfg (fs ++ [f])).headers =
        done.flatMap (Req.headerWords cfg) ++ (r.headerWords cfg).take (pos + cfg.width.words) ∧
      (decode cfg (fs ++ [f])).data =
        done.flatMap (Req.dataWords cfg) ++ (r.dataWords cfg).take (pos + cfg.width.words - r.dataPtr) := by
  obtain ⟨a, ha, hheaders, hdata, hnext⟩ := accept_at (r.kind cfg) h.ctrl hle hpos hf.shows
  have hstep : decode cfg (fs ++ [f]) =
      ⟨a.next, (decode cfg fs).headers ++ a.headers, (decode cfg fs).data ++ a.data⟩ := by
    rw [decode_concat, Decoded.step, ha]
  rw [hstep]
  refine ⟨hnext, ?_, ?_⟩
  · show (decode cfg fs).headers ++ a.headers = _
    rw [h.headers, hheaders, List.append_assoc, hf.headers]
  · show (decode cfg fs).data ++ a.data = _
    rw [h.data, hdata, List.append_assoc, hf.data]

theorem flit (h : Encodes cfg done r pos fs) (hf : Carries cfg r pos f) (hle : pos ≤ r.msgLength cfg)
    (hpos : cfg.width.words ∣ pos) (hlast : pos + cfg.width.words ≤ r.msgLength cfg) :
    Encodes cfg done r (pos + cfg.width.words) (fs ++ [f]) := by
  obtain ⟨hctrl, hheaders, hdata⟩ := h.snoc hf hle hpos
  rw [if_neg (by omega)] at hctrl
  exact ⟨hctrl, hheaders, hdata⟩

theorem last (h : Encodes cfg done r pos fs) (hf : Carries cfg r pos f) (hle : pos ≤ r.msgLength cfg)
    (hpos : cfg.width.words ∣ pos) (hlast : r.msgLength cfg < pos + cfg.width.words) :
    Encodes cfg (done ++ [r]) r 0 (fs ++ [f]) := by
  obtain ⟨hctrl, hheaders, hdata⟩ := h.snoc hf hle hpos
  have hdp : r.dataPtr ≤ r.msgLength cfg + 1 := Req.dataPtr_le
  rw [if_pos hlast] at hctrl
  refine ⟨hctrl, ?_, ?_⟩
  · rw [hheaders, List.take_of_length_le (by simp; omega)]
    simp
  · rw [hdata, List.take_of_length_le (by simp; omega)]
    simp

end Encodes

end OpenPiton.Noc3

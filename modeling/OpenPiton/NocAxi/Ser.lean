import OpenPiton.Lib.Machine
import OpenPiton.NocAxi.Bridge
import OpenPiton.NocAxi.Deser
import Mathlib.Data.List.GetD

namespace OpenPiton.NocAxi

/-- The fields of the one header word of a response. -/
structure RespHeader where
  dstChipid : BitVec 14
  dstX : BitVec 8
  dstY : BitVec 8
  dstFbits : BitVec 4
  msgLength : BitVec 8
  msgType : BitVec 8
  msgMshrid : BitVec 8
  msgOptions1 : BitVec 6
  deriving DecidableEq, Repr

def RespHeader.word (h : RespHeader) : Word :=
  h.dstChipid ++ h.dstX ++ h.dstY ++ h.dstFbits ++ h.msgLength ++ h.msgType ++ h.msgMshrid ++ h.msgOptions1

namespace Header

variable (h : Header)

def msgSrcChipid : BitVec 14 := h.w3.extractLsb' 50 14
def msgSrcFbits : BitVec 4 := h.w3.extractLsb' 30 4

end Header

def msgTypeLoadMemAck : BitVec 8 := 24
def msgTypeStoreMemAck : BitVec 8 := 25
def msgTypeNcLoadMemAck : BitVec 8 := 26
def msgTypeNcStoreMemAck : BitVec 8 := 27

def payloadLen : BitVec 8 := 8

def datPayloadLen (datSizeLog : BitVec 3) : BitVec 8 :=
  BitVec.ofNat 8 (1 <<< clip2zer ((datSizeLog.toNat : Int) - 3))

/-- The response header that the serializer makes of a request. -/
def respHeader (h : Header) : RespHeader :=
  let ack : BitVec 8 × BitVec 8 :=
    if h.msgType = msgTypeLoadMem then (msgTypeLoadMemAck, payloadLen)
    else if h.msgType = msgTypeStoreMem then (msgTypeStoreMemAck, 0)
    else if h.msgType = msgTypeNcLoadReq then (msgTypeNcLoadMemAck, datPayloadLen h.sizeLog)
    else if h.msgType = msgTypeNcStoreReq then (msgTypeNcStoreMemAck, 0)
    else (0, 0)
  { dstChipid := h.msgSrcChipid
    dstX := h.msgSrcX
    dstY := h.msgSrcY
    dstFbits := h.msgSrcFbits
    msgLength := ack.2
    msgType := ack.1
    msgMshrid := h.msgMshrid
    msgOptions1 := 0 }

inductive SerState
  | accept | sendHeader | sendData
  deriving DecidableEq, Repr

/-- The registers of `noc_axi4_bridge_ser`. -/
structure Ser where
  state : SerState := .accept
  dataInF : Line
  respHeader : RespHeader
  datSizeLogF : BitVec 3
  remainingFlits : Nat

structure SerIn where
  headerIn : Header
  dataIn : Line
  inVal : Bool
  flitOutRdy : Bool

def SerIn.request (i : SerIn) : Request := ⟨i.headerIn, i.dataIn⟩

namespace Ser

variable (w : NocWidth) (swapEndianess : Bool) (s : Ser) (i : SerIn)

def inRdy : Bool := s.state == .accept

def inGo : Bool := i.inVal && s.inRdy

def flitOutVal : Bool := s.state == .sendHeader || s.state == .sendData

def flitOutGo : Bool := s.flitOutVal && i.flitOutRdy

def dataSwapped (k : Nat) : Word :=
  if k < 8 then
    if swapEndianess then swapData (s.dataInF.extractLsb' (64 * k) 64) s.datSizeLogF
    else s.dataInF.extractLsb' (64 * k) 64
  else 0

def flitOut : Flit := fun k =>
  if s.state = .sendHeader then if k = 0 then s.respHeader.word else s.dataSwapped swapEndianess (k - 1)
  else s.dataSwapped swapEndianess k

/-- `state` and `remaining_flits`. -/
def stateNext : SerState × Nat :=
  match s.state with
  | .accept => (if i.inVal then .sendHeader else .accept, s.remainingFlits)
  | .sendHeader =>
      let length := s.respHeader.msgLength.toNat
      if !i.flitOutRdy then (.sendHeader, s.remainingFlits)
      else if length = 0 then (.accept, s.remainingFlits)
      else
        (if length > w.wordNum - 1 then .sendData else .accept,
          if w.wordNum = 1 then length else if length > w.wordNum then length - (w.wordNum - 1) else 0)
  | .sendData =>
      if s.remainingFlits < w.wordNum + 1 then (if i.flitOutRdy then .accept else .sendData, s.remainingFlits)
      else (.sendData, if i.flitOutRdy then s.remainingFlits - w.wordNum else s.remainingFlits)

def dataNext : Line :=
  if s.inGo i then i.dataIn
  else if !s.flitOutGo i then s.dataInF
  else if s.state = .sendHeader then s.dataInF >>> (64 * w.wordNum - 64)
  else s.dataInF >>> (64 * w.wordNum)

def step : Ser where
  state := (s.stateNext w i).1
  dataInF := s.dataNext w i
  respHeader := if s.inGo i then NocAxi.respHeader i.headerIn else s.respHeader
  datSizeLogF := if s.inGo i then i.headerIn.sizeLog else s.datSizeLogF
  remainingFlits := (s.stateNext w i).2

end Ser

/-- The number of bytes that a size field stands for. -/
def dataSizeBytes (msgDataSize : BitVec 3) : Nat :=
  if msgDataSize = 0 then 0 else 2 ^ (msgDataSize.toNat - 1)

namespace Header

variable (h : Header)

/-- The requests that the bridge answers. -/
def Served : Prop :=
  h.msgType = msgTypeLoadMem ∨ h.msgType = msgTypeStoreMem ∨ h.msgType = msgTypeNcLoadReq ∨
    h.msgType = msgTypeNcStoreReq

instance : Decidable h.Served := by
  unfold Served
  infer_instance

/-- The number of data words of a response. -/
def payload : Nat :=
  if h.msgType = msgTypeLoadMem then 8
  else if h.msgType = msgTypeNcLoadReq then max 1 (dataSizeBytes h.msgDataSize / 8)
  else 0

def ackType : BitVec 8 :=
  if h.msgType = msgTypeLoadMem then msgTypeLoadMemAck
  else if h.msgType = msgTypeStoreMem then msgTypeStoreMemAck
  else if h.msgType = msgTypeNcLoadReq then msgTypeNcLoadMemAck
  else msgTypeNcStoreMemAck

/-- The header of the response to a request. -/
def response : RespHeader where
  dstChipid := h.msgSrcChipid
  dstX := h.msgSrcX
  dstY := h.msgSrcY
  dstFbits := h.msgSrcFbits
  msgLength := BitVec.ofNat 8 h.payload
  msgType := h.ackType
  msgMshrid := h.msgMshrid
  msgOptions1 := 0

/-- A load with the size field `MSG_DATA_SIZE_0B`. -/
def Empty : Prop := h.msgType = msgTypeNcLoadReq ∧ h.msgDataSize = 0

instance : Decidable h.Empty := inferInstanceAs (Decidable (_ ∧ _))

variable {h}

theorem respHeader_eq (hs : h.Served) (he : ¬ h.Empty) : respHeader h = h.response := by
  rcases hs with hs | hs | hs | hs
  · simp only [respHeader, response, payload, ackType, hs]
    rfl
  · simp only [respHeader, response, payload, ackType, hs]
    rfl
  · have hz : h.msgDataSize ≠ 0 := fun h0 => he ⟨hs, h0⟩
    have hlen : ∀ z : BitVec 3, z ≠ 0 → datPayloadLen (z - 1) = BitVec.ofNat 8 (max 1 (dataSizeBytes z / 8)) := by
      decide
    have hsize : h.sizeLog = h.msgDataSize - 1 := by
      rw [sizeLog, if_pos (by rw [uncacheable, hs]; simp)]
    simp only [respHeader, response, payload, ackType, hs, hsize, hlen _ hz]
    rfl
  · simp only [respHeader, response, payload, ackType, hs]
    rfl

theorem payload_le : h.payload ≤ 8 := by
  have hz : ∀ z : BitVec 3, max 1 (dataSizeBytes z / 8) ≤ 8 := by decide
  rw [payload]
  split
  · exact Nat.le_refl 8
  · split
    · exact hz _
    · exact Nat.zero_le 8

theorem length_response : h.response.msgLength.toNat = h.payload := by
  have := h.payload_le
  simp only [response, BitVec.toNat_ofNat]
  omega

end Header

/-- A data word of a response as the core sees it. -/
def Request.dataWord (swapEndianess : Bool) (r : Request) (k : Nat) : Word :=
  if swapEndianess then swapData (r.data.extractLsb' (64 * k) 64) r.header.sizeLog
  else r.data.extractLsb' (64 * k) 64

/-- The words of the response to a request: the header and the first words of the data. -/
def Request.words (swapEndianess : Bool) (r : Request) : List Word :=
  r.header.response.word :: (List.range r.header.payload).map (r.dataWord swapEndianess)

/-- Word `k` of a list of flits. -/
def wordAt (w : NocWidth) (fs : List Flit) (k : Nat) : Word := fs.getD (k / w.wordNum) (fun _ => 0) (k % w.wordNum)

/-- The number of flits for so many words. -/
def NocWidth.flitNum (w : NocWidth) (n : Nat) : Nat := (n + w.wordNum - 1) / w.wordNum

/-- Flits with the first of the words in order, low word first. -/
def Begins (w : NocWidth) (ws : List Word) (fs : List Flit) : Prop :=
  ∀ k < ws.length, k < w.wordNum * fs.length → wordAt w fs k = ws.getD k 0

/-- So many flits as the words need have them in order. -/
def Spans (w : NocWidth) (ws : List Word) (fs : List Flit) : Prop :=
  fs.length = w.flitNum ws.length ∧ ∀ k < ws.length, wordAt w fs k = ws.getD k 0

theorem NocWidth.wordNum_pos (w : NocWidth) : 0 < w.wordNum := by
  cases w <;> decide

section Flits

variable {w : NocWidth} {ws : List Word} {fs : List Flit} {f : Flit} {n m : Nat}

theorem lt_flitNum (h : w.wordNum * m < n) : m < w.flitNum n := by
  have hpos := w.wordNum_pos
  have hle : (m + 1) * w.wordNum ≤ n + w.wordNum - 1 := by
    rw [Nat.add_mul, Nat.mul_comm m]
    omega
  exact (Nat.le_div_iff_mul_le hpos).mpr hle

theorem eq_flitNum (h : w.wordNum * m < n) (hn : n ≤ w.wordNum * (m + 1)) : m + 1 = w.flitNum n := by
  have hpos := w.wordNum_pos
  apply Nat.le_antisymm (lt_flitNum h)
  have hlt : n + w.wordNum - 1 < (m + 2) * w.wordNum := by
    rw [Nat.add_mul, Nat.mul_comm m]
    rw [Nat.mul_add] at hn
    omega
  exact Nat.le_of_lt_succ ((Nat.div_lt_iff_lt_mul hpos).mpr hlt)

theorem wordAt_append {k : Nat} (hk : k < w.wordNum * fs.length) : wordAt w (fs ++ [f]) k = wordAt w fs k := by
  have hdiv : k / w.wordNum < fs.length := Nat.div_lt_of_lt_mul hk
  rw [wordAt, wordAt, List.getD_append _ _ _ _ hdiv]

theorem wordAt_last {j : Nat} (hj : j < w.wordNum) : wordAt w (fs ++ [f]) (w.wordNum * fs.length + j) = f j := by
  have hpos := w.wordNum_pos
  rw [wordAt, Nat.mul_add_div hpos, Nat.div_eq_of_lt hj, Nat.add_zero, Nat.mul_add_mod, Nat.mod_eq_of_lt hj,
    List.getD_append_right _ _ _ _ (Nat.le_refl _), Nat.sub_self]
  rfl

theorem Begins.append (h : Begins w ws fs)
    (hf : ∀ j < w.wordNum, w.wordNum * fs.length + j < ws.length → f j = ws.getD (w.wordNum * fs.length + j) 0) :
    Begins w ws (fs ++ [f]) := by
  intro k hk hlt
  rw [List.length_append, List.length_singleton, Nat.mul_add, Nat.mul_one] at hlt
  by_cases hold : k < w.wordNum * fs.length
  · rw [wordAt_append hold]
    exact h k hk hold
  · obtain ⟨j, rfl⟩ := Nat.exists_eq_add_of_le (Nat.le_of_not_lt hold)
    have hj : j < w.wordNum := by omega
    rw [wordAt_last hj]
    exact hf j hj hk

theorem Begins.spans (h : Begins w ws (fs ++ [f])) (hmore : w.wordNum * fs.length < ws.length)
    (hend : ws.length ≤ w.wordNum * (fs.length + 1)) : Spans w ws (fs ++ [f]) := by
  have hlen : (fs ++ [f]).length = fs.length + 1 := List.length_append
  refine ⟨hlen.trans (eq_flitNum hmore hend), fun k hk => h k hk ?_⟩
  rw [hlen]
  exact Nat.lt_of_lt_of_le hk hend

end Flits

/-- What passes at the two ports of the serializer. -/
inductive SerEvent
  | accept (r : Request)
  | flit (f : Flit)

/-- The serializer with what has passed at its ports. -/
structure Replies where
  ser : Ser
  log : List SerEvent := []

namespace Replies

variable {w : NocWidth} {swapEndianess : Bool} {s : Replies} {i : SerIn} {r : Request} {fs : List Flit}

def events (swapEndianess : Bool) (s : Replies) (i : SerIn) : List SerEvent :=
  if s.ser.inGo i then [.accept i.request]
  else if s.ser.flitOutGo i then [.flit (s.ser.flitOut swapEndianess)] else []

def step (w : NocWidth) (swapEndianess : Bool) (s : Replies) (i : SerIn) : Replies where
  ser := s.ser.step w i
  log := s.log ++ s.events swapEndianess i

/-- Behind a reset. -/
def Init (s : Replies) : Prop := s.ser.state = .accept ∧ s.log = []

/-- A request with its response. -/
def exchange (p : Request × List Flit) : List SerEvent := .accept p.1 :: p.2.map .flit

/-- The requests taken in were answered one after the other, each with its whole response before the
next; of the last one a part of the response may be still to come, and it is being offered. -/
def Answers (w : NocWidth) (swapEndianess : Bool) (s : Replies) : Prop :=
  ∃ done : List (Request × List Flit), (∀ p ∈ done, Spans w (p.1.words swapEndianess) p.2) ∧
    ((s.ser.inRdy = true ∧ s.log = done.flatMap exchange) ∨
      s.ser.inRdy = false ∧ s.ser.flitOutVal = true ∧
        ∃ r fs, s.log = done.flatMap exchange ++ exchange (r, fs) ∧
          fs.length < w.flitNum (r.words swapEndianess).length ∧ Begins w (r.words swapEndianess) fs)

/-- A request that is taken is of a type that the bridge answers. -/
def Serves (s : Replies) (i : SerIn) : Prop := s.ser.inGo i = true → i.headerIn.Served

/-- It is no load of zero bytes. -/
def ServesSized (s : Replies) (i : SerIn) : Prop := s.ser.inGo i = true → i.headerIn.Served ∧ ¬ i.headerIn.Empty

instance : Decidable (ServesSized s i) := inferInstanceAs (Decidable (_ → _))

/-- In the middle of the response to `r`, with the flits `fs` sent. -/
structure Sending (w : NocWidth) (swapEndianess : Bool) (r : Request) (fs : List Flit) (s : Ser) : Prop where
  header : s.respHeader = r.header.response
  size : s.datSizeLogF = r.header.sizeLog
  begins : Begins w (r.words swapEndianess) fs
  more : w.wordNum * fs.length < (r.words swapEndianess).length
  place : fs = [] ∧ s.state = .sendHeader ∧ s.dataInF = r.data ∨
    fs ≠ [] ∧ s.state = .sendData ∧ s.dataInF = r.data >>> (64 * (w.wordNum * fs.length - 1)) ∧
      (s.remainingFlits = (r.words swapEndianess).length - w.wordNum * fs.length ∨
        s.remainingFlits = 0 ∧ (r.words swapEndianess).length = w.wordNum * fs.length + 1)

theorem length_words (swapEndianess : Bool) (r : Request) : (r.words swapEndianess).length = r.header.payload + 1 := by
  simp [Request.words]

theorem words_getD {k : Nat} (hk : k + 1 < (r.words swapEndianess).length) :
    (r.words swapEndianess).getD (k + 1) 0 = r.dataWord swapEndianess k := by
  have hlen := length_words swapEndianess r
  have hk' : k < r.header.payload := by omega
  rw [Request.words, List.getD_cons_succ, List.getD_eq_getElem _ _ (by simpa using hk')]
  simp

theorem extract_shift (d : Line) (a k : Nat) :
    (d >>> (64 * a)).extractLsb' (64 * k) 64 = d.extractLsb' (64 * (a + k)) 64 := by
  ext j hj
  rw [BitVec.getElem_extractLsb', BitVec.getElem_extractLsb', BitVec.getLsbD_ushiftRight]
  congr 1
  omega

theorem dataSwapped_eq {s : Ser} {a k : Nat} (hd : s.dataInF = r.data >>> (64 * a)) (hs : s.datSizeLogF = r.header.sizeLog)
    (hk : k < 8) : s.dataSwapped swapEndianess k = r.dataWord swapEndianess (a + k) := by
  rw [Ser.dataSwapped, if_pos hk, Request.dataWord, hd, hs, extract_shift]

theorem Sending.flitOut (h : Sending w swapEndianess r fs s.ser) {j : Nat} (_ : j < w.wordNum)
    (hj : w.wordNum * fs.length + j < (r.words swapEndianess).length) :
    s.ser.flitOut swapEndianess j = (r.words swapEndianess).getD (w.wordNum * fs.length + j) 0 := by
  have hlen := length_words swapEndianess r
  have hle := r.header.payload_le
  rcases h.place with ⟨rfl, hst, hd⟩ | ⟨hne, hst, hd, _⟩
  · have hd' : s.ser.dataInF = r.data >>> (64 * 0) := by rw [hd, Nat.mul_zero, BitVec.ushiftRight_zero]
    rw [Ser.flitOut, if_pos hst, List.length_nil, Nat.mul_zero, Nat.zero_add]
    rw [List.length_nil, Nat.mul_zero, Nat.zero_add] at hj
    cases j with
    | zero => rw [if_pos rfl, h.header]; rfl
    | succ j =>
        rw [if_neg (Nat.succ_ne_zero j), Nat.add_sub_cancel, dataSwapped_eq hd' h.size (by omega), Nat.zero_add,
          words_getD hj]
  · have hpos : 0 < w.wordNum * fs.length := Nat.mul_pos w.wordNum_pos (List.length_pos_iff.mpr hne)
    have hplace : w.wordNum * fs.length + j = w.wordNum * fs.length - 1 + j + 1 := by omega
    rw [Ser.flitOut, if_neg (by rw [hst]; decide), dataSwapped_eq hd h.size (by omega), hplace,
      words_getD (hplace ▸ hj)]

theorem Sending.inGo (h : Sending w swapEndianess r fs s.ser) : s.ser.inGo i = false := by
  rcases h.place with ⟨_, hst, _⟩ | ⟨_, hst, _⟩ <;> simp [Ser.inGo, Ser.inRdy, hst]

theorem Sending.flitOutVal (h : Sending w swapEndianess r fs s.ser) : s.ser.flitOutVal = true := by
  rcases h.place with ⟨_, hst, _⟩ | ⟨_, hst, _⟩ <;> simp [Ser.flitOutVal, hst]

theorem Sending.stall (h : Sending w swapEndianess r fs s.ser) (hi : i.flitOutRdy = false) :
    Sending w swapEndianess r fs (s.ser.step w i) := by
  have hgo : s.ser.inGo i = false := h.inGo
  have hstay : s.ser.stateNext w i = (s.ser.state, s.ser.remainingFlits) := by
    rcases h.place with ⟨_, hst, _⟩ | ⟨_, hst, _⟩
    · simp [Ser.stateNext, hst, hi]
    · simp [Ser.stateNext, hst, hi]
  have hdata : s.ser.dataNext w i = s.ser.dataInF := by
    simp [Ser.dataNext, hgo, Ser.flitOutGo, hi]
  refine ⟨?_, ?_, h.begins, h.more, ?_⟩
  · simpa [Ser.step, hgo] using h.header
  · simpa [Ser.step, hgo] using h.size
  · simpa [Ser.step, hstay, hdata] using h.place

theorem Sending.last (h : Sending w swapEndianess r fs s.ser) (hi : i.flitOutRdy = true)
    (hend : (r.words swapEndianess).length ≤ w.wordNum * (fs.length + 1)) :
    (s.ser.step w i).state = .accept ∧ Spans w (r.words swapEndianess) (fs ++ [s.ser.flitOut swapEndianess]) := by
  have hlen := length_words swapEndianess r
  have hmul : w.wordNum * (fs.length + 1) = w.wordNum * fs.length + w.wordNum := Nat.mul_succ _ _
  have hpos := w.wordNum_pos
  refine ⟨?_, (h.begins.append fun j hj hlt => h.flitOut hj hlt).spans h.more hend⟩
  rcases h.place with ⟨rfl, hst, _⟩ | ⟨_, hst, _, hrem⟩
  · rw [List.length_nil] at hend hmul
    have hshort : ¬ s.ser.respHeader.msgLength.toNat > w.wordNum - 1 := by
      rw [h.header, Header.length_response]
      omega
    simp only [Ser.step, Ser.stateNext, hst, hi, Bool.not_true, Bool.false_eq_true, if_false, hshort]
    split <;> rfl
  · have hshort : s.ser.remainingFlits < w.wordNum + 1 := by omega
    simp [Ser.step, Ser.stateNext, hst, hi, hshort]

theorem Sending.next (h : Sending w swapEndianess r fs s.ser) (hi : i.flitOutRdy = true)
    (hmore : w.wordNum * (fs.length + 1) < (r.words swapEndianess).length) :
    Sending w swapEndianess r (fs ++ [s.ser.flitOut swapEndianess]) (s.ser.step w i) := by
  have hgo : s.ser.inGo i = false := h.inGo
  have hout : s.ser.flitOutGo i = true := by rw [Ser.flitOutGo, h.flitOutVal, hi]; rfl
  have hlen := length_words swapEndianess r
  have hmul : w.wordNum * (fs.length + 1) = w.wordNum * fs.length + w.wordNum := Nat.mul_succ _ _
  have hpos := w.wordNum_pos
  have hone : (fs ++ [s.ser.flitOut swapEndianess]).length = fs.length + 1 := List.length_append
  refine ⟨?_, ?_, h.begins.append fun j hj hlt => h.flitOut hj hlt, hone ▸ hmore,
    .inr ⟨List.append_ne_nil_of_right_ne_nil _ (List.cons_ne_nil _ _), ?_⟩⟩
  · simpa [Ser.step, hgo] using h.header
  · simpa [Ser.step, hgo] using h.size
  rw [hone]
  rcases h.place with ⟨rfl, hst, hd⟩ | ⟨hne, hst, hd, hrem⟩
  · rw [List.length_nil] at hmore hmul ⊢
    have hlong : s.ser.respHeader.msgLength.toNat = r.header.payload := by rw [h.header, Header.length_response]
    have hnext : s.ser.stateNext w i =
        (.sendData, if w.wordNum = 1 then r.header.payload
          else if r.header.payload > w.wordNum then r.header.payload - (w.wordNum - 1) else 0) := by
      simp only [Ser.stateNext, hst, hi, hlong, Bool.not_true, Bool.false_eq_true, if_false]
      rw [if_neg (by omega), if_pos (by omega)]
    refine ⟨?_, ?_, ?_⟩
    · rw [Ser.step, hnext]
    · simp only [Ser.step, Ser.dataNext, hgo, hout, hst, hd, Bool.not_true, Bool.false_eq_true, if_false, if_true]
      congr 1
      omega
    · rw [Ser.step, hnext]
      dsimp only
      -- with just one word left the counter is 0
      split
      · omega
      · split <;> omega
  · have hmulpos : 0 < w.wordNum * fs.length := Nat.mul_pos hpos (List.length_pos_iff.mpr hne)
    have hlong : ¬ s.ser.remainingFlits < w.wordNum + 1 := by omega
    refine ⟨?_, ?_, ?_⟩
    · simp [Ser.step, Ser.stateNext, hst, hlong]
    · simp only [Ser.step, Ser.dataNext, hgo, hout, hst, hd, Bool.not_true, Bool.false_eq_true, if_false,
        reduceCtorEq]
      rw [← BitVec.shiftRight_add]
      congr 1
      omega
    · simp only [Ser.step, Ser.stateNext, hst, hi, hlong, if_false, if_true]
      omega

/-- What the serializer does between the ends of two responses. -/
def Sound (w : NocWidth) (swapEndianess : Bool) (s : Replies) : Prop :=
  ∃ done : List (Request × List Flit), (∀ p ∈ done, Spans w (p.1.words swapEndianess) p.2) ∧
    ((s.ser.state = .accept ∧ s.log = done.flatMap exchange) ∨
      ∃ r fs, Sending w swapEndianess r fs s.ser ∧ s.log = done.flatMap exchange ++ exchange (r, fs))

theorem exchange_append (f : Flit) : exchange (r, fs) ++ [.flit f] = exchange (r, fs ++ [f]) := by
  simp [exchange]

theorem Sound.step (h : Sound w swapEndianess s) (hi : ServesSized s i) :
    Sound w swapEndianess (s.step w swapEndianess i) := by
  obtain ⟨done, hdone, ⟨hst, hlog⟩ | ⟨r, fs, hsend, hlog⟩⟩ := h
  · have hgo : s.ser.inGo i = i.inVal := by simp [Ser.inGo, Ser.inRdy, hst]
    have hout : s.ser.flitOutGo i = false := by simp [Ser.flitOutGo, Ser.flitOutVal, hst]
    cases hval : i.inVal with
    | false =>
        refine ⟨done, hdone, .inl ⟨?_, ?_⟩⟩
        · simp [Replies.step, Ser.step, Ser.stateNext, hst, hval]
        · simp [Replies.step, events, hgo, hval, hout, hlog]
    | true =>
        rw [hval] at hgo
        refine ⟨done, hdone, .inr ⟨i.request, [], ⟨?_, ?_, ?_, ?_, .inl ⟨rfl, ?_, ?_⟩⟩, ?_⟩⟩
        · simpa [Replies.step, Ser.step, hgo, SerIn.request] using Header.respHeader_eq (hi hgo).1 (hi hgo).2
        · simp [Replies.step, Ser.step, hgo, SerIn.request]
        · intro k _ hk
          simp at hk
        · rw [length_words]
          simp
        · simp [Replies.step, Ser.step, Ser.stateNext, hst, hval]
        · simp [Replies.step, Ser.step, Ser.dataNext, hgo, SerIn.request]
        · simp [Replies.step, events, hgo, hlog, exchange]
  · have hgo : s.ser.inGo i = false := hsend.inGo
    have hout : s.ser.flitOutGo i = i.flitOutRdy := by rw [Ser.flitOutGo, hsend.flitOutVal, Bool.true_and]
    cases hrdy : i.flitOutRdy with
    | false =>
        rw [hrdy] at hout
        refine ⟨done, hdone, .inr ⟨r, fs, hsend.stall hrdy, ?_⟩⟩
        simp [Replies.step, events, hgo, hout, hlog]
    | true =>
        rw [hrdy] at hout
        have hlog' : (s.step w swapEndianess i).log =
            done.flatMap exchange ++ exchange (r, fs ++ [s.ser.flitOut swapEndianess]) := by
          rw [← exchange_append, ← List.append_assoc, ← hlog]
          simp [Replies.step, events, hgo, hout]
        by_cases hend : (r.words swapEndianess).length ≤ w.wordNum * (fs.length + 1)
        · obtain ⟨hst, hspans⟩ := hsend.last hrdy hend
          refine ⟨done ++ [(r, fs ++ [s.ser.flitOut swapEndianess])], ?_, .inl ⟨hst, ?_⟩⟩
          · intro p hp
            rcases List.mem_append.mp hp with hp | hp
            · exact hdone p hp
            · rw [List.mem_singleton.mp hp]
              exact hspans
          · rw [hlog', List.flatMap_append, List.flatMap_singleton]
        · exact ⟨done, hdone, .inr ⟨r, _, hsend.next hrdy (Nat.lt_of_not_le hend), hlog'⟩⟩

theorem Sound.answers (h : Sound w swapEndianess s) : Answers w swapEndianess s := by
  obtain ⟨done, hdone, ⟨hst, hlog⟩ | ⟨r, fs, hsend, hlog⟩⟩ := h
  · exact ⟨done, hdone, .inl ⟨by rw [Ser.inRdy, hst]; rfl, hlog⟩⟩
  · have hbusy : s.ser.inRdy = false := by
      rcases hsend.place with ⟨_, hst, _⟩ | ⟨_, hst, _⟩ <;> simp [Ser.inRdy, hst]
    exact ⟨done, hdone, .inr ⟨hbusy, hsend.flitOutVal, r, fs, hlog, lt_flitNum hsend.more, hsend.begins⟩⟩

/-- At every width, over every run, responses leave whole and in the order of their requests. -/
theorem responses_sent (h : Machine.Reaches Init (step w swapEndianess) ServesSized s) :
    Answers w swapEndianess s := by
  refine (h.invariant (P := Sound w swapEndianess) ?_ ?_).answers
  · intro s hs
    exact ⟨[], by simp, .inl ⟨hs.1, by simp [hs.2]⟩⟩
  · intro s i hs hi
    exact hs.step hi

/-- A load of the bytes that a size field stands for. -/
def ncLoad (msgDataSize : BitVec 3) : Header where
  w1 := msgTypeNcLoadReq.setWidth 64 <<< 14
  w2 := msgDataSize.setWidth 64 <<< 8
  w3 := 0

def reset : Replies where
  ser := { dataInF := 0, respHeader := (ncLoad 0).response, datSizeLogF := 0, remainingFlits := 0 }

def cycle (msgDataSize : BitVec 3) : SerIn where
  headerIn := ncLoad msgDataSize
  dataIn := 0
  inVal := true
  flitOutRdy := true

theorem responses_sent_loads :
    Answers .w128 false (Machine.run (step .w128 false) reset (List.replicate 6 (cycle 7))) :=
  responses_sent (.run (.start ⟨rfl, rfl⟩) (by decide +kernel))

/-- A load of zero bytes has 16 data words in its response. -/
theorem response_long : ¬ ∀ (w : NocWidth) (swapEndianess : Bool) (s : Replies),
    Machine.Reaches Init (step w swapEndianess) Serves s → Answers w swapEndianess s := by
  intro h
  have hrun : Machine.Reaches Init (step .w512 false) Serves
      ((reset.step .w512 false (cycle 0)).step .w512 false (cycle 0)) :=
    .next (.next (.start ⟨rfl, rfl⟩) fun _ => by decide) fun hgo => absurd hgo (by decide)
  obtain ⟨done, _, ⟨hrdy, _⟩ | ⟨_, _, r, fs, hlog, hlt, _⟩⟩ := h _ _ _ hrun
  · revert hrdy
    decide
  · have hlog' : [.accept (cycle 0).request, .flit ((reset.step .w512 false (cycle 0)).ser.flitOut false)] =
        done.flatMap exchange ++ exchange (r, fs) := hlog
    cases done with
    | nil =>
        simp only [List.flatMap_nil, List.nil_append, exchange, List.cons.injEq, SerEvent.accept.injEq] at hlog'
        obtain ⟨rfl, hfs⟩ := hlog'
        have hone : fs.length = 1 := by simpa using (congrArg List.length hfs).symm
        rw [hone] at hlt
        revert hlt
        decide
    | cons p done =>
        simp only [List.flatMap_cons, exchange, List.cons_append, List.cons.injEq, List.append_assoc] at hlog'
        cases hp : p.2 with
        | nil =>
            cases done with
            | nil => simp [hp] at hlog'
            | cons p' done => simp [hp, exchange] at hlog'
        | cons f fs' => simp [hp] at hlog'

end Replies

end OpenPiton.NocAxi

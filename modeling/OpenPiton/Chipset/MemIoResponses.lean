import OpenPiton.Chipset.MemIoRequests

namespace OpenPiton.Chipset

open L15 (Word)
open Noc1 (fieldLength)
open Packets

/-- The NOC3 side of `mem_io_splitter`, with the flits it has taken of each source and those it has sent. -/
structure MemIoNoc3 where
  msgState : MsgState := .inval
  msgCounter : BitVec 8 := 0
  msgSrc : MsgEnd := .inval
  buf0Data : Word := 0
  buf0State : MsgState := .inval
  buf1Data : Word := 0
  buf1State : MsgState := .inval
  taken : MsgEnd → List Word := fun _ => []
  sent : List Word := []

structure MemIoNoc3In where
  ioVal : Bool
  ioData : Word
  memVal : Bool
  memData : Word
  noc3Rdy : Bool
  deriving DecidableEq

namespace MemIoNoc3

variable (s : MemIoNoc3) (i : MemIoNoc3In)

/-- `memio_splitter_msg_state_next` -/
def stateNext : MsgState :=
  if s.msgState = .inval then .header0
  else if s.msgCounter = 0 then .header0
  else if s.msgState = .header0 then .data
  else if s.msgState = .data then .data
  else .inval

/-- `memio_splitter_input_mux_sel` -/
def inputMuxSel : MsgEnd :=
  if s.stateNext ≠ .header0 then s.msgSrc
  else if i.memVal && !i.ioVal then .mem
  else if i.ioVal && !i.memVal then .io
  else if !i.ioVal && !i.memVal then s.msgSrc
  else if s.msgSrc = .mem then .io
  else .mem

/-- `memio_splitter_val` -/
def val : Bool := if s.inputMuxSel i = .io then i.ioVal else i.memVal

/-- `memio_splitter_data_mux_out` -/
def dataMuxOut : Word := if s.inputMuxSel i = .io then i.ioData else i.memData

def buf1Val : Bool := s.buf1State != .inval

def stallBuf1 : Bool := s.buf1Val && !i.noc3Rdy

def stallBuf0 : Bool := s.stallBuf1 i

def memioRdy : Bool := !s.stallBuf0 i

def ioRdy : Bool := if s.inputMuxSel i = .io then s.memioRdy i else false

def memRdy : Bool := if s.inputMuxSel i = .io then false else s.memioRdy i

def go : Bool := s.val i && s.memioRdy i

/-- What a source gives in this cycle. -/
def gives : MsgEnd → List Word
  | .io => if i.ioVal && s.ioRdy i then [i.ioData] else []
  | .mem => if i.memVal && s.memRdy i then [i.memData] else []
  | .inval => []

def step : MemIoNoc3 where
  msgState := if s.go i then s.stateNext else s.msgState
  msgCounter :=
    if s.go i then if s.stateNext = .header0 then fieldLength (s.dataMuxOut i) else s.msgCounter - 1 else s.msgCounter
  msgSrc := if s.go i && s.stateNext == .header0 then s.inputMuxSel i else s.msgSrc
  buf0Data := if s.stallBuf0 i then s.buf0Data else s.dataMuxOut i
  buf0State := if s.stallBuf0 i then s.buf0State else if s.go i then s.stateNext else .inval
  buf1Data := if s.stallBuf1 i then s.buf1Data else s.buf0Data
  buf1State := if s.stallBuf1 i then s.buf1State else s.buf0State
  taken k := s.taken k ++ s.gives i k
  sent := s.sent ++ if s.buf1Val && i.noc3Rdy then [s.buf1Data] else []

variable {s i}

/-- The source whose packet is open. -/
def current (s : MemIoNoc3) : Option MsgEnd := if s.stateNext = .header0 then none else some s.msgSrc

def inBuf0 (s : MemIoNoc3) : List Word := if s.buf0State = .inval then [] else [s.buf0Data]

def inBuf1 (s : MemIoNoc3) : List Word := if s.buf1State = .inval then [] else [s.buf1Data]

/-- The flits in the two stages, the older first. -/
def inFlight (s : MemIoNoc3) : List Word := s.inBuf1 ++ s.inBuf0

theorem inFlight_length : s.inFlight.length ≤ 2 := by
  rw [inFlight, List.length_append, inBuf1, inBuf0]
  split <;> split <;> simp

theorem current_eq_none_iff : s.current = none ↔ s.stateNext = .header0 := by
  rw [current]
  split <;> simp [*]

/-- The stages, and what has left them, with the flit that enters. -/
theorem sent_step (s : MemIoNoc3) (i : MemIoNoc3In) (hnext : s.stateNext ≠ .inval) :
    (s.step i).sent ++ (s.step i).inFlight = s.sent ++ s.inFlight ++ if s.go i then [s.dataMuxOut i] else [] := by
  cases hstall : s.stallBuf1 i with
  | true =>
      obtain ⟨hv, hr⟩ := (Bool.and_eq_true _ _).mp hstall
      have hgo : s.go i = false := by simp [go, memioRdy, stallBuf0, hstall]
      have hrdy : i.noc3Rdy = false := by simpa using hr
      simp [step, inFlight, inBuf0, inBuf1, stallBuf0, hstall, hgo, hrdy]
  | false =>
      have hout : (s.step i).sent = s.sent ++ s.inBuf1 := by
        change s.sent ++ _ = _
        rw [inBuf1]
        by_cases hv : s.buf1State = .inval
        · simp [buf1Val, hv]
        · have hrdy : i.noc3Rdy = true := by simpa [stallBuf1, buf1Val, hv] using hstall
          simp [buf1Val, hv, hrdy]
      have hin1 : (s.step i).inBuf1 = s.inBuf0 := by simp [step, inBuf1, inBuf0, hstall]
      have hin0 : (s.step i).inBuf0 = if s.go i then [s.dataMuxOut i] else [] := by
        cases hgo : s.go i <;> simp [step, inBuf0, stallBuf0, hstall, hgo, hnext]
      rw [hout, inFlight, hin1, hin0, inFlight, List.append_assoc, List.append_assoc, List.append_assoc]

/-- The source that the selection stands for gives a flit when one goes, and no other. -/
theorem gives_eq (hsel : s.go i = true → s.inputMuxSel i ≠ .inval) (k : MsgEnd) :
    s.gives i k = if s.go i = true ∧ s.inputMuxSel i = k then [s.dataMuxOut i] else [] := by
  rw [go, val] at hsel
  rw [go, val, dataMuxOut]
  cases hk : s.inputMuxSel i <;> rw [hk] at hsel <;> cases k <;> simp_all [gives, ioRdy, memRdy]

/-- The sources' packets go over whole, and the counter is what the open one lacks. -/
structure Tracks (s : MemIoNoc3) (done : List (MsgEnd × List Word)) (part : List Word) : Prop where
  shares : Shares (fun a => (fieldLength a).toNat) done s.current part s.taken (s.sent ++ s.inFlight)
  count_eq : s.current.isSome → s.msgCounter.toNat = lacks (fun a => (fieldLength a).toNat) part
  state : s.msgState = .inval ∨ s.msgState = .header0 ∨ s.msgState = .data
  open_ne : s.current ≠ some .inval
  unused : s.taken .inval = []

variable {done : List (MsgEnd × List Word)} {part : List Word}

theorem Tracks.stateNext (h : s.Tracks done part) : s.stateNext = .header0 ∨ s.stateNext = .data := by
  rw [MemIoNoc3.stateNext]
  obtain hs | hs | hs := h.state
  · exact .inl (if_pos hs)
  all_goals
    by_cases hc : s.msgCounter = 0#8 <;> simp [hs, hc]

/-- A flit that goes is of the source whose packet is open, if one is. -/
theorem Tracks.sel_of_go (h : s.Tracks done part) (hgo : s.go i = true) :
    s.inputMuxSel i ≠ .inval ∧ (s.current = none ∨ s.current = some (s.inputMuxSel i)) := by
  by_cases hn : s.stateNext = .header0
  · refine ⟨?_, .inl (current_eq_none_iff.mpr hn)⟩
    rw [go, val, inputMuxSel] at hgo
    rw [inputMuxSel]
    cases hio : i.ioVal <;> cases hmem : i.memVal <;> simp_all
    split <;> exact MsgEnd.noConfusion
  · have hcur : s.current = some s.msgSrc := if_neg hn
    have hsel : s.inputMuxSel i = s.msgSrc := if_pos hn
    rw [hsel]
    exact ⟨fun hi => h.open_ne (hi ▸ hcur), .inr hcur⟩

theorem Tracks.stay (h : s.Tracks done part) (hgo : s.go i = false) : (s.step i).Tracks done part := by
  have hcur : (s.step i).current = s.current := by simp [current, MemIoNoc3.stateNext, step, hgo]
  have hflow := sent_step s i (by obtain hn | hn := h.stateNext <;> rw [hn] <;> exact MsgState.noConfusion)
  have htaken : (s.step i).taken = s.taken := by
    funext k
    change s.taken k ++ s.gives i k = _
    rw [gives_eq (by simp [hgo]), if_neg (by simp [hgo]), List.append_nil]
  have hstate : (s.step i).msgState = s.msgState := by simp [step, hgo]
  have hcount : (s.step i).msgCounter = s.msgCounter := by simp [step, hgo]
  rw [hgo, if_neg Bool.false_ne_true, List.append_nil] at hflow
  constructor
  · rw [hcur, htaken, hflow]
    exact h.shares
  · rw [hcur, hcount]
    exact h.count_eq
  · rw [hstate]
    exact h.state
  · rw [hcur]
    exact h.open_ne
  · rw [htaken]
    exact h.unused

theorem Tracks.take (h : s.Tracks done part) (hgo : s.go i = true) : ∃ done part, (s.step i).Tracks done part := by
  obtain ⟨hne, hopen⟩ := h.sel_of_go hgo
  have hflow := sent_step s i (by obtain hn | hn := h.stateNext <;> rw [hn] <;> exact MsgState.noConfusion)
  have htaken : (s.step i).taken = fun k => s.taken k ++ if s.inputMuxSel i = k then [s.dataMuxOut i] else [] := by
    funext k
    change s.taken k ++ s.gives i k = _
    rw [gives_eq fun _ => hne, hgo]
    simp
  have hcount : (s.step i).msgCounter = leftAfter fieldLength s.current s.msgCounter (s.dataMuxOut i) := by
    simp only [step, hgo, if_true, leftAfter, current_eq_none_iff]
    rfl
  have hsrc : (s.step i).msgSrc = s.inputMuxSel i := by
    simp only [step, hgo, Bool.true_and, beq_iff_eq]
    split
    · rfl
    · obtain hnone | hsome := hopen
      · exact absurd (current_eq_none_iff.mp hnone) ‹_›
      · rw [current, if_neg ‹_›] at hsome
        exact Option.some.inj hsome
  have hstate : (s.step i).msgState = s.stateNext := by simp [step, hgo]
  have hnext : (s.step i).stateNext = .header0 ↔ (s.step i).msgCounter = 0#8 := by
    rw [MemIoNoc3.stateNext, hstate]
    obtain hn | hn := h.stateNext <;> by_cases hc : (s.step i).msgCounter = 0#8 <;> simp [hn, hc]
  have hcur : (s.step i).current = if (s.step i).msgCounter = 0#8 then none else some (s.inputMuxSel i) := by
    simp only [current, hnext, hsrc]
  obtain ⟨hshares, hlacks⟩ := h.shares.transfer_counted h.count_eq hopen (s.dataMuxOut i)
  rw [← hcount] at hshares hlacks
  rw [hgo, if_pos rfl] at hflow
  rw [← hcur, ← htaken, ← hflow] at hshares
  refine ⟨_, _, hshares, fun _ => hlacks.symm, ?_, ?_, ?_⟩
  · rw [hstate]
    exact .inr h.stateNext
  · rw [hcur]
    split <;> simp [hne]
  · rw [htaken]
    change s.taken .inval ++ _ = _
    rw [h.unused, if_neg hne]
    rfl

/-- The packets of a state are accounted for. -/
def Sound (s : MemIoNoc3) : Prop := ∃ done part, s.Tracks done part

theorem Sound.start : Sound {} := ⟨[], [], .start, nofun, .inl rfl, nofun, rfl⟩

theorem Sound.step (h : s.Sound) (i : MemIoNoc3In) : (s.step i).Sound := by
  obtain ⟨done, part, h⟩ := h
  cases hgo : s.go i with
  | false => exact ⟨done, part, h.stay hgo⟩
  | true => exact h.take hgo

/-- A cycle in which NOC3 is ready empties the second stage into it and moves the first on. -/
theorem step_of_ready (hi : i.noc3Rdy = true) : (s.step i).sent = s.sent ++ s.inBuf1 ∧ (s.step i).inBuf1 = s.inBuf0 := by
  have hstall : s.stallBuf1 i = false := by simp [stallBuf1, hi]
  refine ⟨?_, by simp [MemIoNoc3.step, inBuf1, inBuf0, hstall]⟩
  change s.sent ++ _ = _
  rw [inBuf1, hi, Bool.and_true]
  by_cases hv : s.buf1State = .inval <;> simp [buf1Val, hv]

/-- For every pair of streams of packets, of which some flits are taken: what has been sent and what is in the two stages
are packets of the streams, whole and in the order of each, the last perhaps only begun; and two cycles in which NOC3 is
ready send what is in the stages. -/
def KeepsResponses (s : MemIoNoc3) : Prop :=
  ∀ pkts : MsgEnd → List (List Word), (∀ k, ∀ p ∈ pkts k, Whole (fun a => (fieldLength a).toNat) p) →
    (∀ k, s.taken k <+: (pkts k).flatten) →
    ∃ done current part inFlight,
      Shares (fun a => (fieldLength a).toNat) done current part s.taken (s.sent ++ inFlight) ∧ inFlight.length ≤ 2 ∧
      (∀ k, own done k <+: pkts k ∧ (current = some k → part <+: ((pkts k).drop (own done k).length).headD [])) ∧
      s.taken .inval = [] ∧
      ∀ i j : MemIoNoc3In, i.noc3Rdy = true → j.noc3Rdy = true → ((s.step i).step j).sent = s.sent ++ inFlight

theorem Sound.keepsResponses (h : s.Sound) : s.KeepsResponses := by
  intro pkts hpkts htaken
  obtain ⟨done, part, h⟩ := h
  refine ⟨done, s.current, part, s.inFlight, h.shares, inFlight_length, fun k => ?_, h.unused, fun i j hi hj => ?_⟩
  · obtain ⟨hdone, hpart⟩ := (h.shares.cut k).within (hpkts k) (htaken k)
    refine ⟨hdone, fun hk => ?_⟩
    rwa [if_pos hk] at hpart
  · rw [(step_of_ready hj).1, (step_of_ready hi).1, (step_of_ready hi).2, inFlight, List.append_assoc]

end MemIoNoc3

theorem memIo_packets {build : Build} {s : MemIoSplitter} {t : MemIoNoc3}
    (hs : Machine.Reaches (· = {}) (MemIoSplitter.step build) (fun _ _ => True) s)
    (ht : Machine.Reaches (· = {}) MemIoNoc3.step (fun _ _ => True) t) : s.KeepsRequests build ∧ t.KeepsResponses := by
  constructor
  · apply MemIoSplitter.Inv.keepsRequests
    refine hs.invariant (P := MemIoSplitter.Inv build) ?_ fun _ i h _ => h.step i
    rintro _ rfl
    exact MemIoSplitter.inv_init
  · apply MemIoNoc3.Sound.keepsResponses
    refine ht.invariant (P := MemIoNoc3.Sound) ?_ fun _ i h _ => h.step i
    rintro _ rfl
    exact MemIoNoc3.Sound.start

/-- An access of the UART, with a gap behind its header, and one of the memory. -/
def requestCycles : List MemIoSplitterIn :=
  [⟨true, Common.lengthHeader 2 1, false, true, true⟩, ⟨false, 5, false, true, true⟩, ⟨true, 0xfff0c2c0000000#64, false, true, true⟩,
    ⟨true, 3, false, false, true⟩, ⟨true, 3, false, true, true⟩, ⟨true, Common.lengthHeader 2 2, false, true, true⟩, ⟨true, 0x40#64, false, true, true⟩,
    ⟨true, 4, false, true, true⟩, ⟨false, 0, false, true, true⟩, ⟨false, 0, false, true, true⟩]

def requests : List (List Taken) :=
  [[⟨Common.lengthHeader 2 1, false⟩, ⟨0xfff0c2c0000000#64, false⟩, ⟨3, false⟩],
    [⟨Common.lengthHeader 2 2, false⟩, ⟨0x40#64, false⟩, ⟨4, false⟩]]

/-- Both sources offer a packet; that of the memory goes first. -/
def responseCycles : List MemIoNoc3In :=
  [⟨true, Common.lengthHeader 0 1, true, Common.lengthHeader 1 2, true⟩, ⟨true, Common.lengthHeader 0 1, false, 0, true⟩,
    ⟨true, Common.lengthHeader 0 1, true, 9, false⟩, ⟨true, Common.lengthHeader 0 1, true, 9, true⟩,
    ⟨true, Common.lengthHeader 0 1, false, 0, true⟩, ⟨false, 0, false, 0, true⟩, ⟨false, 0, false, 0, true⟩]

theorem memIo_packets_two :
    let s := Machine.run (MemIoSplitter.step .plain) {} requestCycles
    let t := Machine.run MemIoNoc3.step {} responseCycles
    ((∀ p ∈ requests, MemIoSplitter.Request p) ∧ s.taken = requests.flatten ∧
      s.sent = MemIoSplitter.routedFlits .plain requests ∧ requests.map (MemIoSplitter.packetDest .plain) = [.io, .mem] ∧
      s.KeepsRequests .plain) ∧
      t.taken .io = [Common.lengthHeader 0 1] ∧ t.taken .mem = [Common.lengthHeader 1 2, 9] ∧
      t.sent = [Common.lengthHeader 1 2, 9, Common.lengthHeader 0 1] ∧ t.KeepsResponses := by
  have hs : Machine.Reaches (· = {}) (MemIoSplitter.step .plain) (fun _ _ => True) {} := .start rfl
  have ht : Machine.Reaches (· = {}) MemIoNoc3.step (fun _ _ => True) {} := .start rfl
  obtain ⟨hrequests, hresponses⟩ := memIo_packets (hs.run (Machine.meets_true _ requestCycles))
    (ht.run (Machine.meets_true _ responseCycles))
  refine ⟨⟨?_, ?_, ?_, ?_, hrequests⟩, ?_, ?_, ?_, hresponses⟩
  all_goals
    decide +kernel

end OpenPiton.Chipset

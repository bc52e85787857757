import OpenPiton.Lib.Machine
import OpenPiton.Noc3.Receiving

namespace OpenPiton.Noc3

open L15 (Word)
open Noc1 (Flit)

namespace Link

variable {cfg : Cfg} {s : Link} {i : Input}

instance (cfg : Cfg) (s : Link) (i : Input) : Decidable (s.Spaced cfg i) :=
  inferInstanceAs (Decidable (_ → _ → _ → _))

/-- What holds in every state of a run. -/
def Flowing (cfg : Cfg) (s : Link) : Prop :=
  s.Sending cfg ∧ ∃ received hq dq n, s.Receiving cfg received hq dq n

theorem Flowing.step (h : s.Flowing cfg) (hs : s.Spaced cfg i) : (s.step cfg i).Flowing cfg := by
  obtain ⟨hsend, received, hq, dq, n, hrec⟩ := h
  exact ⟨hsend.step hs, hrec.step hsend⟩

theorem Init.flowing (h : Init s) : s.Flowing cfg := by
  subst h
  refine ⟨⟨rfl, fun _ => rfl, by simp, by simp, .init _⟩, [], [], [], 0, ?_⟩
  exact ⟨rfl, .inl rfl, .empty (by decide) _, .empty (by decide) _, Nat.dvd_zero _, fun _ => .inl rfl, Nat.le_refl _,
    rfl, rfl, rfl⟩

theorem Sending.part (h : s.Sending cfg) {cur : List Flit}
    (hlen : cur.length * cfg.width.words = s.encoder.flitState) (hpart : Part cfg s.buffer.req cur) :
    cur = [] ∨ ∃ r ∈ s.buffer.pending, Part cfg r cur ∧ cur.length < r.msgLength cfg / cfg.width.words + 1 := by
  cases hv : s.buffer.bufferVal with
  | true =>
    refine .inr ⟨_, by simp [Noc3Buffer.pending, hv], hpart, Nat.lt_succ_of_le ?_⟩
    rw [Nat.le_div_iff_mul_le cfg.width.words_pos, hlen]
    exact h.sent.le
  | false =>
    rw [h.idle hv] at hlen
    rcases Nat.mul_eq_zero.mp hlen with h0 | h0
    · exact .inl (List.eq_nil_of_length_eq_zero h0)
    · exact absurd h0 (Nat.ne_of_gt cfg.width.words_pos)

theorem Flowing.drained (h : s.Flowing cfg) (hv : s.buffer.bufferVal = false) (hlink : s.link = [])
    (hheader : s.bufIn.headerValid = false) (hdata : s.bufIn.data.counter = 0) :
    s.headers = s.taken.map (Req.headerOut cfg) ∧ s.data = s.taken.flatMap (Req.dataWords cfg) := by
  obtain ⟨hsend, received, hq, dq, n, hrec⟩ := h
  have henc := hsend.sent.encodes
  obtain rfl : s.flits = received := by rw [hrec.flits, hlink, List.append_nil]
  have htaken : s.taken = s.done := by simp [hsend.acks, Noc3Buffer.pending, hv]
  have hwords : (s.taken.take n).flatMap (Req.headerWords cfg) ++ hq = s.taken.flatMap (Req.headerWords cfg) := by
    rw [← hrec.headerWords, henc.headers, hsend.idle hv, htaken]
    simp
  have hdq : dq = [] := List.eq_nil_of_length_eq_zero (by rw [← hrec.data.counter_eq, hdata])
  have hdone : s.taken.drop n = [] := by
    -- a message left would have its header on offer
    cases hd : s.taken.drop n with
    | nil => rfl
    | cons r later =>
      conv_rhs at hwords => rw [← List.take_append_drop n s.taken, List.flatMap_append, hd, List.flatMap_cons]
      have hq' := List.append_cancel_left hwords
      have hheld := hrec.header
      rw [hq'] at hheld
      have hflits := (BufIn.headerOut_eq hheld).1
      have hcounter := hheld.counter_eq
      rw [List.length_append, r.length_headerWords] at hcounter
      have hpos : 0 < r.dataPtr := by rw [Req.dataPtr]; split <;> decide
      simp only [BufIn.headerValid, hflits, hcounter, Bool.and_eq_false_iff, bne_eq_false_iff_eq,
        decide_eq_false_iff_not] at hheader
      omega
  have htake : s.taken.take n = s.taken := List.take_of_length_le (List.drop_eq_nil_iff.mp hdone)
  refine ⟨by rw [hrec.headers, htake], ?_⟩
  have hall := hrec.dataWords
  rw [henc.data, hsend.idle hv, hdq, List.append_nil] at hall
  rw [← hall, htaken]
  simp

theorem Flowing.roundTrip (h : s.Flowing cfg) : RoundTrip cfg s where
  acks := h.1.acks
  packets := by
    obtain ⟨packets, cur, hflits, hdone, hpart, hlen⟩ := h.1.sent.packets
    exact ⟨packets, cur, hflits, hdone, h.1.part hlen hpart⟩
  headers := by
    obtain ⟨-, received, hq, dq, n, hrec⟩ := h
    rw [hrec.headers, List.map_take]
    exact List.take_prefix ..
  data := by
    obtain ⟨hsend, received, hq, dq, n, hrec⟩ := h
    have hle := (decode_extends received s.link).2.trans (hrec.flits ▸ hsend.decoded.2)
    rw [hrec.dataWords] at hle
    exact (List.prefix_append ..).trans hle
  drained := h.drained

/-- At every width and line size, for every sequence of requests and every pattern of ready. -/
theorem noc3_round_trip (h : Machine.Reaches Init (step cfg) (Spaced cfg) s) : RoundTrip cfg s :=
  (h.invariant (P := Flowing cfg) (fun _ => Init.flowing) fun _ _ hf hs => hf.step hs).roundTrip

/-- Flits of 128 bits, lines of 64 bytes read in parts. -/
def serial128 : Cfg where
  width := .w128
  lineSize := .b64
  parallelSrams := false
  line_of_parallel := by decide

/-- An ack without data, and one with the words 7 and 9. -/
def ackInput : Input := { new := some { reqtype := .invalAck } }

def dataAckInput : Input := { new := some { reqtype := .invalAck, withData := true, data := [7, 9] } }

def idleInput : Input := {}

theorem reaches_run {cond : Link → Input → Prop} {is : List Input}
    (h : Machine.Meets (step cfg) cond {} is) : Machine.Reaches Init (step cfg) cond (Machine.run (step cfg) {} is) :=
  (Machine.Reaches.start (show Init {} from rfl)).run h

/-- The second ack comes one cycle after the first has left. -/
def spacedInputs : List Input := [ackInput, idleInput, idleInput, dataAckInput] ++ List.replicate 6 idleInput

theorem round_trip_acks : (Machine.run (step serial128) {} spacedInputs).data = [7, 9] ∧
    RoundTrip serial128 (Machine.run (step serial128) {} spacedInputs) :=
  ⟨by decide +kernel, noc3_round_trip (reaches_run (by decide +kernel))⟩

/-- The second ack waits at `noc3buffer` while the first leaves. -/
def backToBackInputs : List Input := [ackInput, dataAckInput, dataAckInput] ++ List.replicate 6 idleInput

/-- The pipeline is acknowledged before any flit of its request has left, and the data of a request
that replaces one of a single flit are those the registers held before. -/
theorem handed_early : ¬ (∀ cfg s, Machine.Reaches Init (step cfg) (fun _ _ => True) s →
      ∃ packets cur, s.flits = packets.flatten ++ cur ∧ List.Forall₂ (Packet cfg) s.taken packets) ∧
    ¬ ∀ cfg s, Machine.Reaches Init (step cfg) (fun _ _ => True) s →
      s.data <+: s.taken.flatMap (Req.dataWords cfg) := by
  constructor
  · intro h
    obtain ⟨packets, cur, hflits, hall⟩ := h serial128 _ (.next (i := ackInput) (.start rfl) trivial)
    obtain ⟨p, ps, hp, -, rfl⟩ : ∃ p ps, Packet serial128 { reqtype := .invalAck } p ∧ ps = [] ∧ packets = p :: ps := by
      cases hall with
      | cons hp hps => cases hps; exact ⟨_, _, hp, rfl, rfl⟩
    have hp0 : p = [] := by
      have : (p :: ps).flatten ++ cur = [] := hflits.symm
      exact (List.append_eq_nil_iff.mp (List.append_eq_nil_iff.mp this).1).1
    have := hp.2
    rw [hp0] at this
    cases this
  · intro h
    have := h serial128 (Machine.run (step serial128) {} backToBackInputs) (reaches_run (by decide))
    revert this
    decide +kernel

end Link

end OpenPiton.Noc3

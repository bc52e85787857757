import OpenPiton.Noc1.Account

namespace OpenPiton.Noc1

open L15 (Noc1Reqtype Word)

theorem prefix_of_flatten {α : Type*} {n : Nat} (hn : 0 < n) {l l' : List (List α)} {rest : List α}
    (hl : ∀ x ∈ l, x.length = n) (hl' : ∀ x ∈ l', x.length = n) (h : l.flatten ++ rest = l'.flatten) :
    l <+: l' := by
  induction l generalizing l' with
  | nil => exact List.nil_prefix
  | cons x l ih =>
    have hx : x.length = n := hl x List.mem_cons_self
    cases l' with
    | nil =>
      have hlen := congrArg List.length h
      simp only [List.flatten_cons, List.length_append, hx, List.flatten_nil, List.length_nil] at hlen
      omega
    | cons y l' =>
      rw [List.flatten_cons, List.flatten_cons, List.append_assoc] at h
      obtain ⟨rfl, htail⟩ := List.append_inj h (by rw [hx, hl' y List.mem_cons_self])
      rw [List.prefix_cons_inj]
      exact ih (fun z hz => hl z (List.mem_cons_of_mem _ hz)) (fun z hz => hl' z (List.mem_cons_of_mem _ hz)) htail

theorem Message.headerWords_length (w : Width) (m : Message) : (m.headerWords w).length = 3 := by
  simp only [headerWords]
  cases w <;> split <;> rfl

namespace Link

variable {w : Width} {t : Tile} {s : Link} {i : Input} {u : List (Flit × Bool)} {k : Nat}

/-- The NOC1 round trip up to a state: what the L2 has popped is what was encoded, message by message
and in order, nothing is left behind when the link has drained, and while the link and the L2 stay
ready the oldest message reaches its tail in a time bounded by its length. -/
structure RoundTrip (w : Width) (t : Tile) (s : Link) : Prop where
  encoded : ∀ p ∈ s.sent, ∃ a, p.2 = p.1.message t a
  accepted : s.accepted <+: s.sent.map Prod.fst
  headers : s.headers <+: s.messages.map (Message.headerWords w)
  data : s.data <+: s.messages.flatMap Message.dataWords
  drained : s.encoder.flitState = 0 → s.link = [] → s.bufIn.headerValid = false → s.bufIn.dataValid = false →
    s.accepted = s.sent.map Prod.fst ∧ s.headers = s.messages.map (Message.headerWords w) ∧
      s.data = s.messages.flatMap Message.dataWords
  progress : s.Pending → ∀ ins : Nat → Input, (∀ n, (ins n).Ready ∧ (ins n).Carried w) →
    ∃ n m, (trace w t s ins n).messages[s.received]? = some m ∧ n ≤ 7 * (m.length + 3) + 8 ∧
      (trace w t s ins n).received = s.received + 1

theorem headers_prefix (ha : Account w s u k) : s.headers <+: s.messages.map (Message.headerWords w) := by
  obtain ⟨hq, dq, h, d, -, -, hheaders, -⟩ := ha.words
  rw [List.append_assoc, List.flatMap_def] at hheaders
  refine prefix_of_flatten (by decide : 0 < 3) ha.triples ?_ hheaders
  intro x hx
  obtain ⟨m, -, rfl⟩ := List.mem_map.mp hx
  exact m.headerWords_length w

theorem data_prefix (ha : Account w s u k) : s.data <+: s.messages.flatMap Message.dataWords := by
  obtain ⟨hq, dq, h, d, -, -, -, hdata⟩ := ha.words
  exact ⟨dq ++ d, by rw [← List.append_assoc, hdata]⟩

theorem accepted_prefix (hs : Sending w t s u) : s.accepted <+: s.sent.map Prod.fst := by
  cases hs with
  | idle _ ha => rw [ha]
  | busy _ _ ha => exact ⟨_, ha⟩

theorem headers_drained (ha : Account w s [] k) (hlink : s.link = []) (hv : s.bufIn.headerValid = false)
    (hd : s.bufIn.dataValid = false) :
    s.headers = s.messages.map (Message.headerWords w) ∧ s.data = s.messages.flatMap Message.dataWords := by
  have hheads := headers_prefix ha
  obtain ⟨-, -, htriples, hq, dq, h, d, hb, hu, hheaders, hdata⟩ := ha
  rw [hlink, List.append_nil] at hu
  have hrest : s.messages.drop s.received = [] := by
    by_contra hne
    exact hu.flits_ne_nil hne rfl
  rw [hrest] at hu
  cases hu
  have hlt : hq.length < 3 := by
    have := hb.header.counter_eq
    simp only [BufIn.headerValid, decide_eq_false_iff_not] at hv
    omega
  have hdq : dq = [] := by
    have := hb.data.counter_eq
    simp only [BufIn.dataValid, bne_eq_false_iff_eq] at hd
    exact List.eq_nil_of_length_eq_zero (by omega)
  refine ⟨hheads.eq_of_length ?_, by simpa [hdq] using hdata⟩
  -- three words a header on both sides, and at most two in the buffer
  have hlen := congrArg List.length hheaders
  have hleft : s.headers.flatten.length = 3 * s.headers.length := by
    rw [List.length_flatten, List.map_congr_left htriples]
    simp [Nat.mul_comm]
  have hright : (s.messages.flatMap (Message.headerWords w)).length = 3 * s.messages.length := by
    rw [List.length_flatMap, List.map_congr_left fun m _ => m.headerWords_length w]
    simp [Nat.mul_comm]
  rw [List.length_append, List.length_append, hleft, hright, List.length_nil] at hlen
  rw [List.length_map]
  omega

theorem messages_step : s.messages <+: (s.step w t i).messages := by
  simp only [messages]
  rcases step_sent (w := w) (t := t) (s := s) (i := i) with h | h <;> rw [h]
  simp

theorem messages_trace {ins : Nat → Input} (n : Nat) : s.messages <+: (trace w t s ins n).messages := by
  induction n with
  | zero => exact List.prefix_rfl
  | succ n ih => exact ih.trans messages_step

theorem getElem?_trace {ins : Nat → Input} {k : Nat} {m : Message} (h : s.messages[k]? = some m) (n : Nat) :
    (trace w t s ins n).messages[k]? = some m := by
  obtain ⟨l, hl⟩ : s.messages <+: (trace w t s ins n).messages := messages_trace n
  rw [← hl, List.getElem?_append_left (List.getElem?_eq_some_iff.mp h).1, h]

theorem trace_step {ins : Nat → Input} (n : Nat) :
    trace w t (s.step w t (ins 0)) (fun j => ins (j + 1)) n = trace w t s ins (n + 1) := by
  induction n with
  | zero => rfl
  | succ n ih => rw [trace, ih]; rfl

theorem reaches_tail {n : Nat} {f : Nat → Input} (hcarry : ∀ q ∈ s.buffer, w.Carries q.1.reqtype)
    (ha : Account w s u k) (hs : Sending w t s u) (hrest : s.messages.drop s.received ≠ [])
    (hn : potential w s k ≤ n) (hi : ∀ n, (f n).Ready ∧ (f n).Carried w) :
    ∃ j ≤ n + 1, (trace w t s f j).received = s.received + 1 := by
  induction n generalizing s u k f with
  | zero =>
    obtain ⟨u', k', -, -, hp⟩ := step_account (i := f 0) hcarry ha hs
    rcases hp (hi 0).1 hrest with hrec | ⟨-, hlt⟩
    · exact ⟨1, by omega, hrec⟩
    · omega
  | succ n ih =>
    obtain ⟨u', k', ha', hs', hp⟩ := step_account (i := f 0) hcarry ha hs
    rcases hp (hi 0).1 hrest with hrec | ⟨hrec, hlt⟩
    · exact ⟨1, by omega, hrec⟩
    · have hrest' : (s.step w t (f 0)).messages.drop (s.step w t (f 0)).received ≠ [] := by
        have hlen := (messages_step (s := s) (w := w) (t := t) (i := f 0)).length_le
        simp only [ne_eq, List.drop_eq_nil_iff, not_le] at hrest ⊢
        omega
      obtain ⟨j, hj, hjrec⟩ := ih (f := fun j => f (j + 1)) (step_carries hcarry (hi 0).2) ha' hs' hrest'
        (by omega) fun n => hi (n + 1)
      refine ⟨j + 1, by omega, ?_⟩
      rw [← trace_step, hjrec, hrec]

/-- Everything sent has been received: the next cycle starts the next message. -/
theorem starts (ha : Account w s u k) (hs : Sending w t s u) (hrest : s.messages.drop s.received = [])
    (hpending : s.Pending) (hready : i.Ready) :
    (s.step w t i).received = s.received ∧ ∃ m, (s.step w t i).messages[s.received]? = some m := by
  obtain ⟨-, hle, -, hq, dq, h, d, -, hu, -⟩ := ha
  rw [hrest] at hu
  generalize hfl : s.link ++ u = fl at hu
  cases hu
  obtain ⟨hlink, rfl⟩ := List.append_eq_nil_iff.mp hfl
  have hlen : s.received = s.messages.length := by
    rw [List.drop_eq_nil_iff] at hrest
    omega
  have hk : s.encoder.flitState = 0 := by
    cases hs with
    | idle hk => exact hk
    | busy _ _ _ _ hsends => cases hsends
  have hoffer : s.offered i = none := by simp [offered, hlink]
  have hfire : s.encoder.fire (s.encoderIn i) = true := by
    have hval : (s.encoderIn i).bufferVal = true ∨ (s.encoderIn i).csmVal = true := by
      rcases hpending with hb | hc | hl
      · exact .inl (by simpa [encoderIn] using hb)
      · exact .inr (by simpa [encoderIn] using hc)
      · exact absurd hlink hl
    have hout : (s.encoderIn i).outReady = true := hready.outReady
    have hdmbr : (s.encoderIn i).dmbrStall = false := hready.dmbrStall
    simpa [Encoder.fire, Encoder.sending, hout, hdmbr] using hval
  have hsent : (s.step w t i).sent = s.sent ++ [(s.request i, s.encoder.msg t (s.encoderIn i))] :=
    send_sent_start (s := s.receive w i) hk hfire
  refine ⟨(receive_none (w := w) hoffer).2.1, s.encoder.msg t (s.encoderIn i), ?_⟩
  rw [messages, hsent, List.map_append, hlen]
  simp [messages]

theorem Flowing.progress (hf : Flowing w t s) (hpending : s.Pending) {ins : Nat → Input}
    (hi : ∀ n, (ins n).Ready ∧ (ins n).Carried w) :
    ∃ n m, (Link.trace w t s ins n).messages[s.received]? = some m ∧ n ≤ 7 * (m.length + 3) + 8 ∧
      (Link.trace w t s ins n).received = s.received + 1 := by
  obtain ⟨hcarry, -, u, k, ha, hs⟩ := hf
  by_cases hrest : s.messages.drop s.received = []
  case neg =>
    have hlt : s.received < s.messages.length := by simpa [List.drop_eq_nil_iff] using hrest
    have hm := List.getElem?_eq_getElem hlt
    obtain ⟨n, hn, hrec⟩ := reaches_tail hcarry ha hs hrest (ha.potential_le hm) hi
    exact ⟨n, _, getElem?_trace hm n, by omega, hrec⟩
  case pos =>
    obtain ⟨hrec, m, hm⟩ := starts ha hs hrest hpending (hi 0).1
    obtain ⟨u', k', ha', hs', -⟩ := step_account (i := ins 0) hcarry ha hs
    have hrest' : (s.step w t (ins 0)).messages.drop (s.step w t (ins 0)).received ≠ [] := by
      rw [hrec, ne_eq, List.drop_eq_nil_iff, not_le]
      exact (List.getElem?_eq_some_iff.mp hm).1
    obtain ⟨n, hn, hrec'⟩ := reaches_tail (f := fun j => ins (j + 1)) (step_carries hcarry (hi 0).2) ha' hs'
      hrest' (ha'.potential_le (by rwa [hrec])) fun n => hi (n + 1)
    rw [trace_step, hrec] at hrec'
    refine ⟨n + 1, m, ?_, by omega, hrec'⟩
    rw [← trace_step]
    exact getElem?_trace hm n

theorem Flowing.roundTrip (hf : Flowing w t s) : RoundTrip w t s := by
  obtain ⟨u, k, ha, hs⟩ := hf.account
  refine ⟨hf.encoded, accepted_prefix hs, headers_prefix ha, data_prefix ha, ?_,
    fun hpending ins hi => hf.progress hpending hi⟩
  intro hk hlink hv hd
  cases hs with
  | idle _ hacc => exact ⟨hacc, headers_drained ha hlink hv hd⟩
  | busy hne => exact absurd hk hne

/-- At every width, for every run of requests that the width carries. -/
theorem round_trip {ins : Nat → Input} (hi : ∀ n, (ins n).Carried w) (n : Nat) :
    RoundTrip w t (trace w t {} ins n) :=
  (Flowing.init.trace hi n).roundTrip

/-- A swap and a load of the CSM on flits of 256 bits. -/
def swapInputs (n : Nat) : Input where
  newBuffer := if n = 0 then some ⟨{ reqtype := .swapRequest, data0 := 17 }, by decide⟩ else none
  newCsm := if n = 1 then some ⟨{ address := 64 }, rfl⟩ else none

theorem round_trip_swap :
    (trace .w256 {} {} swapInputs 8).data = [17] ∧ RoundTrip .w256 {} (trace .w256 {} {} swapInputs 8) := by
  refine ⟨by decide +kernel, round_trip (fun n r hr => ?_) 8⟩
  simp only [swapInputs] at hr
  split at hr
  · obtain rfl : _ = r := by simpa using hr
    decide
  · cases hr

/-- A CAS alone. -/
def casInputs (n : Nat) : Input where
  newBuffer := if n = 0 then some ⟨{ reqtype := .casRequest, data0 := 7, data1 := 9 }, by decide⟩ else none

/-- On flits of 256 bits the L2 pops a third data word after the two of a CAS. -/
theorem cas_not_round_trip : ¬ ∀ w t ins n, RoundTrip w t (trace w t {} ins n) := by
  intro h
  have hdata := (h .w256 {} casInputs 8).data
  revert hdata
  decide +kernel

theorem interrupt_step {p : Flit × Bool} (hw : w.Wide) (hs : s.bufIn.ctrl.msgState = 0)
    (hp : s.link.head? = some p) (hx : fieldType (p.1.word 0) = msgTypeInterruptFwd) :
    (s.step w t i).bufIn.ctrl.msgState = 0 ∧ (s.step w t i).link.head? = some p ∧
      (s.step w t i).received = s.received := by
  have hint : s.bufIn.ctrl.isInterrupt p.1 = true := by simp [Control.isInterrupt, hx, hs]
  have hnext : s.bufIn.ctrl.stateNext w p.1 = 0 := by
    rcases hw with rfl | rfl
    · simp [Control.stateNext, Control.dataStateNext, dataStateOf, hs, hx]
    · rfl
  obtain ⟨hlink, hrec, hstate⟩ : (s.receive w i).link = s.link ∧ (s.receive w i).received = s.received ∧
      (s.receive w i).bufIn.ctrl.msgState = 0 := by
    by_cases hd : i.deliver = true
    · have ho : s.offered i = some p := by simp [offered, hd, hp]
      obtain ⟨hlink, hrec, hbuf⟩ := receive_held (w := w) ho (by simp [BufIn.readyIn, Control.intStall, hint])
      refine ⟨hlink, hrec, ?_⟩
      rw [hbuf, BufIn.step]
      split
      · exact hnext
      · exact hs
    · have ho : s.offered i = none := by simp [offered, hd]
      obtain ⟨hlink, hrec, hbuf⟩ := receive_none (w := w) ho
      exact ⟨hlink, hrec, by rw [hbuf]; exact hs⟩
  refine ⟨hstate, ?_, hrec⟩
  simp only [step, send]
  split <;> simp [hlink, hp]

/-- On wide flits an interrupt is written again in every cycle and never taken. -/
theorem interrupt_stuck {p : Flit × Bool} {ins : Nat → Input} (hw : w.Wide) (hs : s.bufIn.ctrl.msgState = 0)
    (hp : s.link.head? = some p) (hx : fieldType (p.1.word 0) = msgTypeInterruptFwd) (n : Nat) :
    (trace w t s ins n).received = s.received := by
  have hrun : (trace w t s ins n).bufIn.ctrl.msgState = 0 ∧ (trace w t s ins n).link.head? = some p ∧
      (trace w t s ins n).received = s.received := by
    induction n with
    | zero => exact ⟨hs, hp, rfl⟩
    | succ n ih =>
      obtain ⟨hs', hp', hrec⟩ := interrupt_step (t := t) (i := ins n) hw ih.1 ih.2.1 hx
      exact ⟨hs', hp', hrec.trans ih.2.2⟩
  exact hrun.2.2

end Link

end OpenPiton.Noc1

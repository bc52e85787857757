import OpenPiton.Noc1.Buffers

namespace OpenPiton.Noc1

open L15 (Noc1Reqtype Word)

/-- The messages under way from the receiver's registers on, the oldest perhaps in part, as flits
and as the words they bring. `k` counts the writes up to the tail of the oldest. -/
inductive Underway (w : Width) (c : Control) :
    List Message → List (Flit × Bool) → List Word → List Word → Nat → Prop
  | idle : c.Boundary w → Underway w c [] [] [] [] 0
  | busy {m : Message} {later : List Message} {cur : List (Flit × Bool)} {h d : List Word} {k : Nat} :
      cur ≠ [] → k ≤ m.length + 3 → Receives w c cur h d k →
      Underway w c (m :: later) (cur ++ later.flatMap (Message.flits w))
        (h ++ later.flatMap (Message.headerWords w)) (d ++ later.flatMap Message.dataWords) k

namespace Message

theorem flits_ne_nil (w : Width) (m : Message) : m.flits w ≠ [] := by
  cases w
  case w512 => exact List.cons_ne_nil _ _
  all_goals simp only [flits]; split <;> exact List.cons_ne_nil _ _

end Message

namespace Underway

variable {w : Width} {c : Control} {rest : List Message} {fl : List (Flit × Bool)} {h d : List Word} {k : Nat}

theorem of_boundary (hc : c.Boundary w) (hgood : ∀ m ∈ rest, m.Framed ∧ m.Agreed w) :
    ∃ k, Underway w c rest (rest.flatMap (Message.flits w)) (rest.flatMap (Message.headerWords w))
      (rest.flatMap Message.dataWords) k := by
  cases rest with
  | nil => exact ⟨0, .idle hc⟩
  | cons m later =>
    obtain ⟨hm, ha⟩ := hgood m List.mem_cons_self
    obtain ⟨k, hk, hr⟩ := Message.receives_flits hc hm ha
    exact ⟨k, .busy (m.flits_ne_nil w) hk hr⟩

theorem snoc {m : Message} (hu : Underway w c rest fl h d k) (hm : m.Framed) (ha : m.Agreed w) :
    ∃ k', Underway w c (rest ++ [m]) (fl ++ m.flits w) (h ++ m.headerWords w) (d ++ m.dataWords) k' ∧
      (rest ≠ [] → k' = k) := by
  cases hu with
  | idle hc =>
    obtain ⟨k', hk⟩ := @of_boundary w c [m] hc (by simp [hm, ha])
    exact ⟨k', by simpa using hk, fun hne => absurd rfl hne⟩
  | @busy m' later cur h d k hne hk hr =>
    refine ⟨k, ?_, fun _ => rfl⟩
    have hb := @Underway.busy w c m' (later ++ [m]) _ _ _ _ hne hk hr
    simpa using hb

theorem stalled {p : Flit × Bool} (hu : Underway w c rest (p :: fl) h d k) :
    Underway w (c.stalled p.1) rest (p :: fl) h d k := by
  generalize he : p :: fl = fl' at hu
  cases hu with
  | idle => cases he
  | @busy m later cur h d k hne hk hr =>
    obtain ⟨q, qs, rfl⟩ := List.exists_cons_of_ne_nil hne
    obtain rfl : p = q := by simpa using congrArg List.head? he
    exact .busy hne hk hr.stalled

/-- One write of the oldest flit: what it brings, and what is left. -/
structure Wrote (w : Width) (c : Control) (p : Flit × Bool) (h d h' d' : List Word) : Prop where
  header : h = c.headerIn w p.1 ++ h'
  data : d = c.dataIn w p.1 ++ d'
  counts : c.Counts w p.1

theorem hold {p : Flit × Bool} (hu : Underway w c rest (p :: fl) h d k) (hs : c.intStall p.1 = true) :
    ∃ h' d' k', Wrote w c p h d h' d' ∧ k = k' + 1 ∧ Underway w (c.next w p.1) rest (p :: fl) h' d' k' := by
  generalize he : p :: fl = fl' at hu
  cases hu with
  | idle => cases he
  | @busy m later cur h d k hne hk hr =>
    cases hr with
    | done => exact absurd rfl hne
    | take hc hs' _ hn =>
      obtain ⟨rfl, -⟩ := List.cons.inj he
      simp [hs] at hs'
    | @hold _ q qs h d k hc _ hn =>
      obtain ⟨rfl, -⟩ := List.cons.inj he
      refine ⟨_, _, k, ⟨List.append_assoc .., List.append_assoc .., hc⟩, rfl, .busy hne (by omega) hn⟩

theorem take {p : Flit × Bool} (hu : Underway w c rest (p :: fl) h d k) (hs : c.intStall p.1 = false)
    (hgood : ∀ m ∈ rest, m.Framed ∧ m.Agreed w) :
    ∃ h' d' k', Wrote w c p h d h' d' ∧
      if p.2 then Underway w (c.next w p.1) rest.tail fl h' d' k'
      else k = k' + 1 ∧ Underway w (c.next w p.1) rest fl h' d' k' := by
  generalize he : p :: fl = fl' at hu
  cases hu with
  | idle => cases he
  | @busy m later cur h d k hne hk hr =>
    cases hr with
    | done => exact absurd rfl hne
    | hold hc hs' hn =>
      obtain ⟨rfl, -⟩ := List.cons.inj he
      simp [hs] at hs'
    | @take _ q qs h d k hc _ hp hn =>
      obtain ⟨rfl, rfl⟩ := List.cons.inj he
      cases qs with
      | nil =>
        -- the tail: the next message, if any, starts at the boundary
        cases hn with
        | done hb =>
          obtain ⟨k', hk'⟩ := @of_boundary w _ later hb fun m hm => hgood m (List.mem_cons_of_mem _ hm)
          refine ⟨_, _, k', ⟨List.append_assoc .., List.append_assoc .., hc⟩, ?_⟩
          simpa [hp] using hk'
      | cons q' qs =>
        refine ⟨_, _, k, ⟨List.append_assoc .., List.append_assoc .., hc⟩, ?_⟩
        have hb := @Underway.busy w _ m later _ _ _ _ (List.cons_ne_nil q' qs) (by omega) hn
        simpa [hp] using hb

theorem rest_ne_nil {p : Flit × Bool} (hu : Underway w c rest (p :: fl) h d k) : rest ≠ [] := by
  generalize he : p :: fl = fl' at hu
  cases hu with
  | idle => cases he
  | busy => exact List.cons_ne_nil _ _

theorem flits_ne_nil (hu : Underway w c rest fl h d k) (hne : rest ≠ []) : fl ≠ [] := by
  cases hu with
  | idle => exact absurd rfl hne
  | busy hcur => simp [hcur]

theorem le_length {m : Message} (hu : Underway w c rest fl h d k) (hm : rest.head? = some m) :
    k ≤ m.length + 3 := by
  cases hu with
  | idle => simp at hm
  | busy _ hk => simp at hm; exact hm ▸ hk

end Underway

def EncoderIn.val (ei : EncoderIn) : Source → Bool
  | .l15 => ei.bufferVal
  | .csm => ei.csmVal

namespace Link

def messages (s : Link) : List Message := s.sent.map Prod.snd

/-- The words and the flits of the messages so far, for the flits `u` the encoder still owes. -/
structure Account (w : Width) (s : Link) (u : List (Flit × Bool)) (k : Nat) : Prop where
  good : ∀ m ∈ s.messages, m.Framed ∧ m.Agreed w
  received_le : s.received ≤ s.messages.length
  triples : ∀ x ∈ s.headers, x.length = 3
  words : ∃ hq dq h d, s.bufIn.Holds w hq dq ∧
    Underway w s.bufIn.ctrl (s.messages.drop s.received) (s.link ++ u) h d k ∧
    s.headers.flatten ++ hq ++ h = s.messages.flatMap (Message.headerWords w) ∧
    s.data ++ dq ++ d = s.messages.flatMap Message.dataWords

variable {w : Width} {t : Tile} {s : Link} {i : Input} {u : List (Flit × Bool)} {k : Nat} {hq dq : List Word}

theorem receive_headers (h : s.bufIn.Holds w hq dq) :
    (s.receive w i).headers.flatten ++ BufIn.Holds.headerLeft s.bufIn i.headerReadyOut hq =
      s.headers.flatten ++ hq := by
  simp only [receive, BufIn.Holds.headerLeft]
  split
  case isTrue hp =>
    rw [h.headerOut_eq (h.headerPop_le hp), List.flatten_append, List.flatten_singleton, List.append_assoc,
      List.take_append_drop]
  case isFalse => rfl

theorem receive_triples (ht : ∀ x ∈ s.headers, x.length = 3) :
    ∀ x ∈ (s.receive w i).headers, x.length = 3 := by
  intro x hx
  simp only [receive] at hx
  split at hx
  · rcases List.mem_append.mp hx with hx | hx
    · exact ht x hx
    · rw [List.mem_singleton] at hx
      rw [hx]
      rfl
  · exact ht x hx

theorem receive_data (h : s.bufIn.Holds w hq dq) :
    (s.receive w i).data ++ BufIn.Holds.dataLeft s.bufIn i.dataReadyOut dq = s.data ++ dq := by
  simp only [receive, BufIn.Holds.dataLeft]
  split
  case isTrue hp => rw [h.dataOut_eq (h.dataPop_le hp), List.append_assoc, List.take_append_drop]
  case isFalse => rfl

theorem offered_eq {p : Flit × Bool} (h : s.offered i = some p) : ∃ l, s.link = p :: l := by
  simp only [offered] at h
  split at h
  · exact List.head?_eq_some_iff.mp h
  · cases h

theorem receive_none (h : s.offered i = none) :
    (s.receive w i).link = s.link ∧ (s.receive w i).received = s.received ∧
      (s.receive w i).bufIn = s.bufIn.step w none i.headerReadyOut i.dataReadyOut := by
  simp [receive, taken, h]

theorem receive_held {p : Flit × Bool} (h : s.offered i = some p) (hr : s.bufIn.readyIn w p.1 = false) :
    (s.receive w i).link = s.link ∧ (s.receive w i).received = s.received ∧
      (s.receive w i).bufIn = s.bufIn.step w (some p.1) i.headerReadyOut i.dataReadyOut := by
  simp [receive, taken, h, hr, Option.filter]

theorem receive_taken {p : Flit × Bool} (h : s.offered i = some p) (hr : s.bufIn.readyIn w p.1 = true) :
    (s.receive w i).link = s.link.tail ∧
      (s.receive w i).received = (if p.2 then s.received + 1 else s.received) ∧
      (s.receive w i).bufIn = s.bufIn.step w (some p.1) i.headerReadyOut i.dataReadyOut := by
  simp [receive, taken, h, hr, Option.filter]

/-- The account after a cycle in which the receiver writes `x` and `y`. -/
theorem Account.receive {x y h d h' d' : List Word} {k' : Nat} (hgood : ∀ m ∈ s.messages, m.Framed ∧ m.Agreed w)
    (htriples : ∀ p ∈ s.headers, p.length = 3) (hb : s.bufIn.Holds w hq dq)
    (hheaders : s.headers.flatten ++ hq ++ h = s.messages.flatMap (Message.headerWords w))
    (hdata : s.data ++ dq ++ d = s.messages.flatMap Message.dataWords) (hh : h = x ++ h') (hd : d = y ++ d')
    (hle : (s.receive w i).received ≤ s.messages.length)
    (hb' : (s.receive w i).bufIn.Holds w (BufIn.Holds.headerLeft s.bufIn i.headerReadyOut hq ++ x)
      (BufIn.Holds.dataLeft s.bufIn i.dataReadyOut dq ++ y))
    (hu : Underway w (s.receive w i).bufIn.ctrl (s.messages.drop (s.receive w i).received)
      ((s.receive w i).link ++ u) h' d' k') : Account w (s.receive w i) u k' where
  good := hgood
  received_le := hle
  triples := receive_triples htriples
  words := by
    refine ⟨_, _, h', d', hb', hu, ?_, ?_⟩
    · rw [← List.append_assoc, receive_headers hb, List.append_assoc, ← hh]
      exact hheaders
    · rw [← List.append_assoc, receive_data hb, List.append_assoc, ← hd]
      exact hdata

theorem receive_account (ha : Account w s u k) :
    ∃ k', Account w (s.receive w i) u k' ∧
      ((s.receive w i).received = s.received + 1 ∨
        (s.receive w i).received = s.received ∧ k' ≤ k ∧
          (i.Ready → s.link ≠ [] → k' < k ∨ (s.receive w i).link ≠ [] ∧ (s.receive w i).bufIn.slack w < s.bufIn.slack w)) := by
  obtain ⟨hgood, hle, htriples, hq, dq, h, d, hb, hu, hheaders, hdata⟩ := ha
  have idle (c : Control) := @BufIn.Holds.step_idle _ _ _ _ i.headerReadyOut i.dataReadyOut hb c
  cases ho : s.offered i with
  | none =>
    obtain ⟨hlink, hrec, hbuf⟩ := receive_none (w := w) ho
    refine ⟨k, .receive (x := []) (y := []) hgood htriples hb hheaders hdata rfl rfl (by rwa [hrec]) ?_ ?_,
      .inr ⟨hrec, le_rfl, fun hready hne => ?_⟩⟩
    · rw [hbuf, List.append_nil, List.append_nil]
      exact idle s.bufIn.ctrl
    · rw [hbuf, hrec, hlink]
      exact hu
    · simp [offered, hready.deliver, hne] at ho
  | some p =>
    obtain ⟨l, hl⟩ := offered_eq ho
    rw [hl, List.cons_append] at hu
    cases hr : s.bufIn.realReadyIn w p.1 with
    | false =>
      obtain ⟨hlink, hrec, hbuf⟩ := receive_held (w := w) ho (by simp [BufIn.readyIn, hr])
      simp only [BufIn.step, hr] at hbuf
      refine ⟨k, .receive (x := []) (y := []) hgood htriples hb hheaders hdata rfl rfl (by rwa [hrec]) ?_ ?_,
        .inr ⟨hrec, le_rfl, fun hready hne => .inr ⟨by rwa [hlink], ?_⟩⟩⟩
      · rw [hbuf, List.append_nil, List.append_nil]
        exact idle _
      · rw [hbuf, hrec, hlink, hl]
        exact hu.stalled
      · rw [hbuf, hready.headerReadyOut, hready.dataReadyOut, Bool.and_true, Bool.and_true]
        exact hb.slack_lt hr _
    | true =>
      cases hs : s.bufIn.ctrl.intStall p.1 with
      | true =>
        obtain ⟨hlink, hrec, hbuf⟩ := receive_held (w := w) ho (by simp [BufIn.readyIn, hs])
        obtain ⟨h', d', k', ⟨hh, hd, hc⟩, rfl, hu'⟩ := hu.hold hs
        simp only [BufIn.step, hr, if_true] at hbuf
        refine ⟨k', .receive hgood htriples hb hheaders hdata hh hd (by rwa [hrec]) ?_ ?_,
          .inr ⟨hrec, by omega, fun _ _ => .inl (by omega)⟩⟩
        · rw [hbuf]
          exact hb.step_write hr hc _
        · rw [hbuf, hrec, hlink, hl]
          exact hu'
      | false =>
        obtain ⟨hlink, hrec, hbuf⟩ := receive_taken (w := w) ho (by simp [BufIn.readyIn, hr, hs])
        obtain ⟨h', d', k', ⟨hh, hd, hc⟩, hu'⟩ :=
          hu.take hs fun m hm => hgood m (List.mem_of_mem_drop hm)
        simp only [BufIn.step, hr, if_true] at hbuf
        have hlt : s.received < s.messages.length := by
          have := hu.rest_ne_nil
          simpa [List.drop_eq_nil_iff] using this
        have hb' := @BufIn.Holds.step_write _ _ _ _ i.headerReadyOut i.dataReadyOut _ hb hr hc
        cases hp : p.2 with
        | true =>
          rw [hp, if_pos rfl] at hrec
          rw [hp, if_pos rfl, List.tail_drop] at hu'
          refine ⟨k', .receive hgood htriples hb hheaders hdata hh hd (by omega) ?_ ?_, .inl hrec⟩
          · rw [hbuf]
            exact hb' _
          · rw [hbuf, hrec, hlink, hl]
            exact hu'
        | false =>
          simp only [hp, Bool.false_eq_true, if_false] at hrec hu'
          obtain ⟨rfl, hu'⟩ := hu'
          refine ⟨k', .receive hgood htriples hb hheaders hdata hh hd (by omega) ?_ ?_,
            .inr ⟨hrec, by omega, fun _ _ => .inl (by omega)⟩⟩
          · rw [hbuf]
            exact hb' _
          · rw [hbuf, hrec, hlink, hl]
            exact hu'

/-- The oldest request of a source. -/
def head (s : Link) : Source → Option Request
  | .l15 => s.buffer.head?.map fun r => .buffer r.1
  | .csm => s.csm.head?.map fun r => .csm r.1

theorem request_eq {r : Request} (h : s.head (s.encoder.reqSource (s.encoderIn i)) = some r) :
    s.request i = r := by
  simp only [request]
  cases hsrc : s.encoder.reqSource (s.encoderIn i) with
  | l15 =>
    rw [hsrc, head, Option.map_eq_some_iff] at h
    obtain ⟨q, hq, rfl⟩ := h
    simp [encoderIn, hq]
  | csm =>
    rw [hsrc, head, Option.map_eq_some_iff] at h
    obtain ⟨q, hq, rfl⟩ := h
    simp [encoderIn, hq]

theorem msg_eq : s.encoder.msg t (s.encoderIn i) = (s.request i).message t (s.encoderIn i).buffer.address := by
  simp only [Encoder.msg, request]
  cases s.encoder.reqSource (s.encoderIn i) <;> rfl

theorem val_of_head {r : Request} {src : Source} (h : s.head src = some r) :
    (s.encoderIn i).val src = true := by
  cases src with
  | l15 =>
    obtain ⟨q, hq, -⟩ := Option.map_eq_some_iff.mp h
    obtain ⟨qs, hqs⟩ := List.head?_eq_some_iff.mp hq
    simp [EncoderIn.val, encoderIn, hqs]
  | csm =>
    obtain ⟨q, hq, -⟩ := Option.map_eq_some_iff.mp h
    obtain ⟨qs, hqs⟩ := List.head?_eq_some_iff.mp hq
    simp [EncoderIn.val, encoderIn, hqs]

theorem head_of_sending (hk : s.encoder.flitState = 0) (hs : s.encoder.sending (s.encoderIn i) = true) :
    ∃ r, s.head (s.encoder.reqSource (s.encoderIn i)) = some r := by
  simp only [Encoder.sending, Bool.and_eq_true, Bool.or_eq_true] at hs
  simp only [Encoder.reqSource, hk, ne_eq, not_true_eq_false, and_false, false_or]
  cases hc : s.csm with
  | nil =>
    have hval : s.buffer ≠ [] := by simpa [encoderIn, hc] using hs.1
    obtain ⟨q, qs, hq⟩ := List.exists_cons_of_ne_nil hval
    exact ⟨.buffer q.1, by simp [encoderIn, hc, head, hq]⟩
  | cons q qs => exact ⟨.csm q.1, by simp [encoderIn, hc, head]⟩

theorem reqSource_of_head {r : Request} (hk : s.encoder.flitState ≠ 0)
    (h : s.head s.encoder.lastReqSource = some r) :
    s.encoder.reqSource (s.encoderIn i) = s.encoder.lastReqSource := by
  have hval := val_of_head (i := i) h
  cases hl : s.encoder.lastReqSource with
  | l15 => simp [Encoder.reqSource, hl, hk]
  | csm =>
    rw [hl] at hval
    have hc : (s.encoderIn i).csmVal = true := hval
    simp [Encoder.reqSource, hl, hc]

theorem head_good {r : Request} {src : Source} (hcarry : ∀ q ∈ s.buffer, w.Carries q.1.reqtype)
    (h : s.head src = some r) (a : BitVec 40) : (r.message t a).Framed ∧ (r.message t a).Agreed w := by
  cases src with
  | l15 =>
    obtain ⟨q, hq, rfl⟩ := Option.map_eq_some_iff.mp h
    refine ⟨Req.message_framed t _ q.2, ?_⟩
    have hc := hcarry q (List.mem_of_mem_head? hq)
    cases w
    case w64 => trivial
    case w128 => trivial
    case w256 => exact ⟨fun hl => hc.1 (msgLength_eq_one.mp hl), fun hl => hc.2 (msgLength_eq_four.mp hl)⟩
    case w512 => exact fun hl => hc (msgLength_eq_one.mp hl)
  | csm =>
    obtain ⟨q, hq, rfl⟩ := Option.map_eq_some_iff.mp h
    have hl : (q.1.req t).reqtype = .ldRequest := q.2
    have hlen : (Request.message t a (.csm q.1)).length = 2 := congrArg msgLength hl
    refine ⟨Req.message_framed t _ (by simp [hl]), ?_⟩
    cases w <;> simp [Message.Agreed, hlen]

end Link

/-- What is left of a message after its first flit does not depend on the first word. -/
theorem Sends.of_header1 {w : Width} {m : Message} {u : List (Flit × Bool)} {k : Nat} {x : Word} (hw : ¬ w.Wide)
    (hk : k ≠ 0) (hs : Sends w m k u) : Sends w { m with header1 := x } k u := by
  have hflit (k : Nat) (hk : k ≠ 0) : ({ m with header1 := x } : Message).flit w k = m.flit w k := by
    cases w
    case w64 =>
      obtain ⟨j, rfl⟩ := Nat.exists_eq_succ_of_ne_zero hk
      simp only [Message.flit, List.cons.injEq, and_true]
      match j with
      | 0 | 1 | 2 | 3 => rfl
      | j + 4 => rfl
    case w128 => simp [Message.flit, hk]
    case w256 => exact absurd (.inl rfl) hw
    case w512 => exact absurd (.inr rfl) hw
  induction hs with
  | last hd =>
    rw [← hflit _ hk]
    exact .last hd
  | more hd hne hs ih =>
    rw [← hflit _ hk]
    exact .more hd hne (ih hne)

namespace Link

variable {w : Width} {t : Tile} {s : Link} {i : Input} {u : List (Flit × Bool)} {k : Nat}

/-- The flits the encoder still owes of the message it is sending. -/
inductive Sending (w : Width) (t : Tile) (s : Link) : List (Flit × Bool) → Prop
  | idle : s.encoder.flitState = 0 → s.accepted = s.sent.map Prod.fst → Sending w t s []
  | busy {r : Request} {a : BitVec 40} {u : List (Flit × Bool)} : s.encoder.flitState ≠ 0 →
      s.head s.encoder.lastReqSource = some r → s.accepted ++ [r] = s.sent.map Prod.fst →
      (w.Wide → (r.message t a).length = 4) → Sends w (r.message t a) s.encoder.flitState u →
      Sending w t s u

theorem sends_congr {r : Request} {src : Source} {a a' : BitVec 40} (h : s.head src = some r) (hk : k ≠ 0)
    (hw : w.Wide → (r.message t a).length = 4) (hs : Sends w (r.message t a) k u) :
    Sends w (r.message t a') k u := by
  cases src with
  | l15 =>
    obtain ⟨q, hq, rfl⟩ := Option.map_eq_some_iff.mp h
    exact hs
  | csm =>
    obtain ⟨q, hq, rfl⟩ := Option.map_eq_some_iff.mp h
    have hlen : (Request.message t a (.csm q.1)).length = 2 :=
      congrArg msgLength (show (q.1.req t).reqtype = .ldRequest from q.2)
    have hnarrow : ¬ w.Wide := by
      intro hwide
      rw [hw hwide] at hlen
      cases hlen
    exact hs.of_header1 hnarrow hk

theorem send_idle (hf : s.encoder.fire (s.encoderIn i) = false) :
    (s.send w t i).link = s.link ∧ (s.send w t i).sent = s.sent ∧ (s.send w t i).accepted = s.accepted ∧
      (s.send w t i).buffer = s.buffer ++ i.newBuffer.toList ∧ (s.send w t i).csm = s.csm ++ i.newCsm.toList := by
  have hack : s.encoder.bufferAck w t (s.encoderIn i) = false ∧ s.encoder.csmAck w t (s.encoderIn i) = false := by
    simp only [Encoder.fire] at hf
    simp only [Encoder.bufferAck, Encoder.csmAck]
    grind
  simp [send, hf, hack]

theorem head_append {src : Source} {r : Request} {s' : Link} (h : s.head src = some r)
    (hb : ∃ l, s'.buffer = s.buffer ++ l) (hc : ∃ l, s'.csm = s.csm ++ l) : s'.head src = some r := by
  obtain ⟨l, hl⟩ := hb
  obtain ⟨l', hl'⟩ := hc
  cases src with
  | l15 =>
    obtain ⟨q, hq, rfl⟩ := Option.map_eq_some_iff.mp h
    simp [head, hl, hq]
  | csm =>
    obtain ⟨q, hq, rfl⟩ := Option.map_eq_some_iff.mp h
    simp [head, hl', hq]

theorem send_fire {r : Request} {x : Flit × Bool} (hf : s.encoder.fire (s.encoderIn i) = true)
    (hh : s.head (s.encoder.reqSource (s.encoderIn i)) = some r)
    (hacc : s.accepted ++ [r] = (s.send w t i).sent.map Prod.fst)
    (hw : w.Wide → x.2 = false → (s.encoder.msg t (s.encoderIn i)).length = 4)
    (hs : Sends w (s.encoder.msg t (s.encoderIn i)) s.encoder.flitState (x :: u)) :
    (s.send w t i).link = s.link ++ [x] ∧ Sending w t (s.send w t i) u := by
  obtain ⟨hsend, hready⟩ : s.encoder.sending (s.encoderIn i) = true ∧ (s.encoderIn i).outReady = true := by
    simpa [Encoder.fire] using hf
  have hreq := request_eq hh
  have hval := val_of_head (i := i) hh
  cases hs with
  | last hd =>
    refine ⟨?_, .idle ?_ ?_⟩
    · simp only [send, hf, if_true, Encoder.flit, Encoder.sendDone, hd]
    · simp only [send, Encoder.step, hsend, hready, if_true, Encoder.sendDone, hd]
    · have hack : (s.encoder.bufferAck w t (s.encoderIn i) || s.encoder.csmAck w t (s.encoderIn i)) = true := by
        simp only [Encoder.bufferAck, Encoder.csmAck, hsend, hready, Encoder.sendDone, hd]
        cases hsrc : s.encoder.reqSource (s.encoderIn i) <;> rw [hsrc] at hval <;> simp_all [EncoderIn.val]
      rw [← hacc]
      simp only [send, hack, if_true, hreq]
  | more hd hne hs =>
    have hack : s.encoder.bufferAck w t (s.encoderIn i) = false ∧ s.encoder.csmAck w t (s.encoderIn i) = false := by
      simp [Encoder.bufferAck, Encoder.csmAck, Encoder.sendDone, hd]
    have hstate : (s.send w t i).encoder.flitState = flitStateIncr w s.encoder.flitState := by
      simp only [send, Encoder.step, hsend, hready, if_true, Encoder.sendDone, hd, Bool.false_eq_true, if_false]
    have haccepted : (s.send w t i).accepted = s.accepted := by simp [send, hack]
    refine ⟨?_, .busy (r := r) (a := (s.encoderIn i).buffer.address) ?_ ?_ ?_ ?_ ?_⟩
    · simp only [send, hf, if_true, Encoder.flit, Encoder.sendDone, hd]
    · rwa [hstate]
    · exact head_append hh ⟨i.newBuffer.toList, by simp [send, hack]⟩ ⟨i.newCsm.toList, by simp [send, hack]⟩
    · rw [haccepted, hacc]
    · rw [← hreq, ← msg_eq]
      exact fun hwide => hw hwide rfl
    · rw [hstate, ← hreq, ← msg_eq]
      exact hs

theorem sending_of_head {r : Request} (hk : s.encoder.flitState ≠ 0)
    (h : s.head s.encoder.lastReqSource = some r) : s.encoder.sending (s.encoderIn i) = true := by
  have hval := val_of_head (i := i) h
  simp only [Encoder.sending]
  cases hl : s.encoder.lastReqSource <;> rw [hl] at hval <;> simp_all [EncoderIn.val]

theorem Sending.send_idle (hs : Sending w t s u) (hf : s.encoder.fire (s.encoderIn i) = false) :
    Sending w t (s.send w t i) u := by
  obtain ⟨-, hsent, hacc, hbuffer, hcsm⟩ := Link.send_idle (w := w) (t := t) hf
  cases hs with
  | idle hk ha =>
    refine .idle ?_ (by rw [hacc, hsent, ha])
    simp only [Encoder.fire, Bool.and_eq_false_iff] at hf
    simp only [send, Encoder.step]
    rcases hf with hf | hf <;> simp [hf, hk]
  | busy hk hh ha hw hs =>
    have hready : (s.encoderIn i).outReady = false := by
      simpa [Encoder.fire, sending_of_head hk hh] using hf
    have hstate : (s.send w t i).encoder.flitState = s.encoder.flitState := by
      simp [send, Encoder.step, sending_of_head hk hh, hready]
    have hsource : (s.send w t i).encoder.lastReqSource = s.encoder.lastReqSource := reqSource_of_head hk hh
    refine .busy (by rwa [hstate]) ?_ (by rw [hacc, hsent, ha]) hw (by rwa [hstate])
    rw [hsource]
    exact head_append hh ⟨_, hbuffer⟩ ⟨_, hcsm⟩

theorem send_sent_busy (hk : s.encoder.flitState ≠ 0) : (s.send w t i).sent = s.sent := by
  simp [send, hk]

theorem send_sent_start (hk : s.encoder.flitState = 0) (hf : s.encoder.fire (s.encoderIn i) = true) :
    (s.send w t i).sent = s.sent ++ [(s.request i, s.encoder.msg t (s.encoderIn i))] := by
  simp [send, hk, hf]

/-- The account does not change while nothing leaves or a message goes on. -/
theorem Account.send {u' : List (Flit × Bool)} (ha : Account w s u k) (hsent : (s.send w t i).sent = s.sent)
    (hlink : (s.send w t i).link ++ u' = s.link ++ u) : Account w (s.send w t i) u' k := by
  obtain ⟨hgood, hle, htriples, hq, dq, h, d, hb, hu, hheaders, hdata⟩ := ha
  have hm : (s.send w t i).messages = s.messages := by rw [messages, messages, hsent]
  refine ⟨by rwa [hm], by rw [hm]; exact hle, htriples, hq, dq, h, d, hb, ?_, by rw [hm]; exact hheaders,
    by rw [hm]; exact hdata⟩
  rw [hm, hlink]
  exact hu

theorem Account.start {r : Request} {m : Message} {v : List (Flit × Bool)} (ha : Account w s [] k)
    (hm : m.Framed) (hagreed : m.Agreed w) (hsent : (s.send w t i).sent = s.sent ++ [(r, m)])
    (hlink : (s.send w t i).link ++ v = s.link ++ m.flits w) :
    ∃ k', Account w (s.send w t i) v k' ∧ (s.messages.drop s.received ≠ [] → k' = k) := by
  obtain ⟨hgood, hle, htriples, hq, dq, h, d, hb, hu, hheaders, hdata⟩ := ha
  have hmessages : (s.send w t i).messages = s.messages ++ [m] := by
    rw [messages, messages, hsent, List.map_append]
    rfl
  rw [List.append_nil] at hu
  obtain ⟨k', hu', hk'⟩ := hu.snoc hm hagreed
  refine ⟨k', ⟨?_, ?_, htriples, hq, dq, h ++ m.headerWords w, d ++ m.dataWords, hb, ?_, ?_, ?_⟩, hk'⟩
  · rw [hmessages]
    intro m' hm'
    rcases List.mem_append.mp hm' with h' | h'
    · exact hgood m' h'
    · rw [List.mem_singleton.mp h']
      exact ⟨hm, hagreed⟩
  · rw [hmessages, List.length_append]
    exact Nat.le_add_right_of_le hle
  · rw [hmessages, hlink]
    have hdrop : (s.messages ++ [m]).drop s.received = s.messages.drop s.received ++ [m] :=
      List.drop_append_of_le_length hle
    exact hdrop ▸ hu'
  · rw [hmessages, List.flatMap_append, List.flatMap_singleton, ← List.append_assoc]
    exact congrArg (· ++ _) hheaders
  · rw [hmessages, List.flatMap_append, List.flatMap_singleton, ← List.append_assoc]
    exact congrArg (· ++ _) hdata

theorem send_account (hcarry : ∀ q ∈ s.buffer, w.Carries q.1.reqtype) (ha : Account w s u k)
    (hs : Sending w t s u) :
    ∃ u' k', Account w (s.send w t i) u' k' ∧ Sending w t (s.send w t i) u' ∧
      (s.messages.drop s.received ≠ [] → k' = k) ∧
      ((s.link ≠ [] ∨ s.encoder.fire (s.encoderIn i) = true) → (s.send w t i).link ≠ []) := by
  cases hf : s.encoder.fire (s.encoderIn i) with
  | false =>
    obtain ⟨hlink, hsent, -⟩ := send_idle (w := w) (t := t) hf
    exact ⟨u, k, ha.send hsent (by rw [hlink]), hs.send_idle hf, fun _ => rfl, by simp [hlink]⟩
  | true =>
    cases hs with
    | idle hk hacc =>
      obtain ⟨r, hh⟩ := head_of_sending (i := i) hk (Bool.and_eq_true_iff.mp hf).1
      have hsent := send_sent_start (w := w) (t := t) hk hf
      rw [request_eq hh, msg_eq, request_eq hh] at hsent
      obtain ⟨hm, hagreed⟩ := head_good (t := t) hcarry hh (s.encoderIn i).buffer.address
      obtain ⟨x, u', hx⟩ := List.exists_cons_of_ne_nil (Message.flits_ne_nil w _)
      have hsends := Message.sends_flits (w := w) hm
      rw [hx] at hsends
      have hwide : w.Wide → x.2 = false → (r.message t (s.encoderIn i).buffer.address).length = 4 := by
        intro hw hx2
        cases hsends with
        | last => cases hx2
        | more hd =>
          rcases hw with rfl | rfl
          · simpa [Message.sendDone] using hd
          · simp [Message.sendDone] at hd
      obtain ⟨hlink, hsending⟩ := send_fire (t := t) hf hh (by rw [hsent, List.map_append, hacc]; rfl)
        (by rw [msg_eq, request_eq hh]; exact hwide) (by rw [msg_eq, request_eq hh, hk]; exact hsends)
      obtain ⟨k', ha', hk'⟩ := ha.start hm hagreed hsent (v := u') (by rw [hlink, hx, List.append_assoc]; rfl)
      exact ⟨u', k', ha', hsending, hk', by simp [hlink]⟩
    | @busy r a _ hk hh hacc hw hsends =>
      have hsource := reqSource_of_head (i := i) hk hh
      have hh' : s.head (s.encoder.reqSource (s.encoderIn i)) = some r := by rwa [hsource]
      have hsent := send_sent_busy (w := w) (t := t) (i := i) hk
      obtain ⟨x, u', rfl⟩ : ∃ x u', u = x :: u' := by
        cases hsends with
        | last => exact ⟨_, _, rfl⟩
        | more => exact ⟨_, _, rfl⟩
      have hmsg : s.encoder.msg t (s.encoderIn i) = r.message t (s.encoderIn i).buffer.address := by
        rw [msg_eq, request_eq hh']
      have hlen : (r.message t (s.encoderIn i).buffer.address).length = (r.message t a).length := by
        cases r <;> rfl
      obtain ⟨hlink, hsending⟩ := send_fire (t := t) hf hh' (by rw [hsent, hacc])
        (by rw [hmsg, hlen]; exact fun hwide _ => hw hwide) (by rw [hmsg]; exact sends_congr hh hk hw hsends)
      refine ⟨u', k, ha.send hsent (by rw [hlink, List.append_assoc]; rfl), hsending, fun _ => rfl, by simp [hlink]⟩

theorem Sending.receive (hs : Sending w t s u) : Sending w t (s.receive w i) u := by
  cases hs with
  | idle hk ha => exact .idle hk ha
  | busy hk hh ha hw hs => exact .busy hk hh ha hw hs

/-- An upper bound on the cycles to the tail of the oldest message: seven for each of its writes,
within a write six until a flit is on the link, and then what the buffers still have to drain. -/
def potential (w : Width) (s : Link) (k : Nat) : Nat :=
  7 * k + if s.link = [] then 6 else s.bufIn.slack w

theorem Account.slack_le (ha : Account w s u k) : s.bufIn.slack w ≤ 5 := by
  obtain ⟨hq, dq, h, d, hb, -⟩ := ha.words
  exact hb.slack_le

theorem Account.potential_le {m : Message} (ha : Account w s u k) (hm : s.messages[s.received]? = some m) :
    potential w s k ≤ 7 * (m.length + 3) + 6 := by
  obtain ⟨hq, dq, h, d, -, hu, -⟩ := ha.words
  have hk := hu.le_length (by rwa [List.head?_drop])
  have hslack := ha.slack_le
  simp only [potential]
  split <;> omega

/-- With an empty link the encoder owes the next flit of the oldest message. -/
theorem Account.fire (ha : Account w s u k) (hs : Sending w t s u) (hrest : s.messages.drop s.received ≠ [])
    (hlink : s.link = []) (hready : i.Ready) : s.encoder.fire (s.encoderIn i) = true := by
  obtain ⟨hq, dq, h, d, -, hu, -⟩ := ha.words
  rw [hlink, List.nil_append] at hu
  cases hs with
  | idle => exact absurd rfl (hu.flits_ne_nil hrest)
  | busy hk hh =>
    have hout : (s.encoderIn i).outReady = true := hready.outReady
    simp [Encoder.fire, sending_of_head hk hh, hout]

theorem step_account (hcarry : ∀ q ∈ s.buffer, w.Carries q.1.reqtype) (ha : Account w s u k)
    (hs : Sending w t s u) :
    ∃ u' k', Account w (s.step w t i) u' k' ∧ Sending w t (s.step w t i) u' ∧
      (i.Ready → s.messages.drop s.received ≠ [] → (s.step w t i).received = s.received + 1 ∨
        (s.step w t i).received = s.received ∧ potential w (s.step w t i) k' < potential w s k) := by
  obtain ⟨k₁, ha₁, hrec⟩ := receive_account (i := i) ha
  obtain ⟨u', k', ha', hs', hk', hlink⟩ := send_account (s := s.receive w i) (i := i) hcarry ha₁ hs.receive
  refine ⟨u', k', ha', hs', fun hready hrest => ?_⟩
  rcases hrec with hrec | ⟨hrec, hle, hdown⟩
  · exact .inl hrec
  · have hkk : k' = k₁ := hk' (by rw [hrec]; exact hrest)
    have hslack := ha'.slack_le
    refine .inr ⟨hrec, ?_⟩
    rw [hkk]
    by_cases hl : s.link = []
    · have hne : (s.step w t i).link ≠ [] := hlink (.inr (ha.fire hs hrest hl hready))
      have hslack : (s.step w t i).bufIn.slack w ≤ 5 := hslack
      simp only [potential, if_neg hne, if_pos hl]
      omega
    · rcases hdown hready hl with hlt | ⟨hne, hlt⟩
      · have hslack : (s.step w t i).bufIn.slack w ≤ 5 := hslack
        simp only [potential]
        split <;> omega
      · have hne : (s.step w t i).link ≠ [] := hlink (.inl hne)
        have hlt : (s.step w t i).bufIn.slack w < s.bufIn.slack w := hlt
        simp only [potential, if_neg hne, if_neg hl]
        omega

/-- What holds in every state of a run on which the two ends agree. -/
structure Flowing (w : Width) (t : Tile) (s : Link) : Prop where
  carries : ∀ q ∈ s.buffer, w.Carries q.1.reqtype
  encoded : ∀ p ∈ s.sent, ∃ a, p.2 = p.1.message t a
  account : ∃ u k, Account w s u k ∧ Sending w t s u

theorem step_carries (hcarry : ∀ q ∈ s.buffer, w.Carries q.1.reqtype) (hi : i.Carried w) :
    ∀ q ∈ (s.step w t i).buffer, w.Carries q.1.reqtype := by
  intro q hq
  rcases List.mem_append.mp hq with hq | hq
  · split at hq
    · exact hcarry q (List.mem_of_mem_tail hq)
    · exact hcarry q hq
  · exact hi q (Option.mem_toList.mp hq)

theorem step_sent : (s.step w t i).sent = s.sent ∨
    (s.step w t i).sent = s.sent ++ [(s.request i, s.encoder.msg t (s.encoderIn i))] := by
  simp only [step, send]
  split
  · exact .inr rfl
  · exact .inl rfl

theorem Flowing.step (h : Flowing w t s) (hi : i.Carried w) : Flowing w t (s.step w t i) := by
  obtain ⟨hcarry, hencoded, u, k, ha, hs⟩ := h
  obtain ⟨u', k', ha', hs', -⟩ := step_account (i := i) hcarry ha hs
  refine ⟨step_carries hcarry hi, ?_, u', k', ha', hs'⟩
  intro p hp
  rcases step_sent (w := w) (t := t) (s := s) (i := i) with hsent | hsent <;> rw [hsent] at hp
  · exact hencoded p hp
  · rcases List.mem_append.mp hp with hp | hp
    · exact hencoded p hp
    · rw [List.mem_singleton.mp hp]
      exact ⟨_, msg_eq⟩

theorem Flowing.init : Flowing w t {} where
  carries := by simp
  encoded := by simp
  account := by
    refine ⟨[], 0, ⟨by simp [messages], by simp [messages], by simp, [], [], [], [], ?_, ?_, ?_, ?_⟩, .idle rfl rfl⟩
    · exact ⟨.empty (by cases w <;> decide) _, fun _ => by simp, .empty (by decide) _⟩
    · exact .idle ⟨rfl, rfl, by simp⟩
    · rfl
    · rfl

theorem Flowing.trace {ins : Nat → Input} (h : Flowing w t s) (hi : ∀ n, (ins n).Carried w) (n : Nat) :
    Flowing w t (trace w t s ins n) := by
  induction n with
  | zero => exact h
  | succ n ih => exact ih.step (hi n)

end Link

end OpenPiton.Noc1

import OpenPiton.Noc3.Link

namespace OpenPiton.Noc3

open L15 (Word)
open Noc1 (Flit)

namespace Encoder

variable {cfg : Cfg} {e : Encoder} {r : Req} {ready : Bool}

theorem sendDone_iff (hle : e.flitState ≤ r.msgLength cfg) :
    e.sendDone cfg r = true ↔ r.msgLength cfg < e.flitState + cfg.width.words := by
  rw [sendDone]
  split
  case isTrue hw =>
    rw [hw, beq_iff_eq, Width.words]
    omega
  case isFalse => exact decide_eq_true_iff

@[simp] theorem stall_idle : e.stall cfg false r = false := by simp [stall, opens]

theorem stall_iff : e.stall cfg true r = true ↔
    e.flitState = 0 ∧ r.dataPtr < cfg.width.words ∧ e.delay = false := by
  rw [stall]
  split
  case isTrue hw =>
    have : ¬ r.dataPtr < Width.words .w64 := by
      rw [Req.dataPtr, Width.words]
      split <;> decide
    simp [hw, this]
  case isFalse => simp [opens, and_assoc]

theorem step_loaded (r : Req) : (e.step cfg true r ready).Loaded cfg r (e.step cfg true r ready).flitState := by
  intro k hk hmax
  have hptr : e.ptr cfg true r ready = (e.step cfg true r ready).flitState - r.dataPtr := by
    rw [ptr]
    show (if r.dataPtr < e.flitStateNext cfg true r ready then _ else 0) = e.flitStateNext cfg true r ready - _
    split <;> omega
  rw [← hptr] at hmax ⊢
  exact if_pos ⟨hk, by omega⟩

theorem delayNext_eq_false (h : e.flitState ≠ 0) : e.delayNext cfg true r ready = false := by
  simp [delayNext, opens, h]

end Encoder

/-- The flits are whole packets of the requests of `done`, and the words before `pos` of one of `r`;
this is also how the L2 reads them. -/
structure Sent (cfg : Cfg) (done : List Req) (r : Req) (pos : Nat) (fs : List Flit) : Prop where
  dvd : cfg.width.words ∣ pos
  le : pos ≤ r.msgLength cfg
  encodes : Encodes cfg done r pos fs
  packets : ∃ packets cur, fs = packets.flatten ++ cur ∧ List.Forall₂ (Packet cfg) done packets ∧
    Part cfg r cur ∧ cur.length * cfg.width.words = pos

theorem Part.nil {cfg : Cfg} {r : Req} : Part cfg r [] := by
  intro k f hf
  cases hf

theorem Part.concat {cfg : Cfg} {r : Req} {fs : List Flit} {f : Flit} (h : Part cfg r fs)
    (hf : Carries cfg r (fs.length * cfg.width.words) f) : Part cfg r (fs ++ [f]) := by
  intro k g hg
  rcases Nat.lt_or_ge k fs.length with hlt | hge
  · rw [List.getElem?_append_left hlt] at hg
    exact h k g hg
  · have hlt := (List.getElem?_eq_some_iff.mp hg).1
    rw [List.length_append, List.length_singleton] at hlt
    obtain rfl : k = fs.length := by omega
    rw [List.getElem?_concat_length, Option.some.injEq] at hg
    exact hg ▸ hf

namespace Sent

variable {cfg : Cfg} {done : List Req} {r : Req} {pos : Nat} {fs : List Flit} {f : Flit}

theorem init (r : Req) : Sent cfg [] r 0 [] where
  dvd := Nat.dvd_zero _
  le := Nat.zero_le _
  encodes := .nil r
  packets := ⟨[], [], rfl, .nil, .nil, Nat.zero_mul _⟩

theorem next (h : Sent cfg done r 0 fs) (r' : Req) : Sent cfg done r' 0 fs where
  dvd := h.dvd
  le := Nat.zero_le _
  encodes := h.encodes.next r'
  packets := by
    obtain ⟨packets, cur, hfs, hdone, -, hlen⟩ := h.packets
    have hpos := cfg.width.words_pos
    obtain rfl : cur = [] := by
      rcases Nat.mul_eq_zero.mp hlen with h0 | h0
      · exact List.eq_nil_of_length_eq_zero h0
      · omega
    exact ⟨packets, [], hfs, hdone, .nil, hlen⟩

theorem flit (h : Sent cfg done r pos fs) (hf : Carries cfg r pos f)
    (hmore : pos + cfg.width.words ≤ r.msgLength cfg) :
    Sent cfg done r (pos + cfg.width.words) (fs ++ [f]) where
  dvd := Nat.dvd_add h.dvd (Nat.dvd_refl _)
  le := hmore
  encodes := h.encodes.flit hf h.le h.dvd hmore
  packets := by
    obtain ⟨packets, cur, rfl, hdone, hpart, rfl⟩ := h.packets
    exact ⟨packets, cur ++ [f], by simp, hdone, hpart.concat hf, by simp [Nat.add_mul]⟩

theorem last (h : Sent cfg done r pos fs) (hf : Carries cfg r pos f)
    (hlast : r.msgLength cfg < pos + cfg.width.words) (r' : Req) :
    Sent cfg (done ++ [r]) r' 0 (fs ++ [f]) where
  dvd := Nat.dvd_zero _
  le := Nat.zero_le _
  encodes := (h.encodes.last hf h.le h.dvd hlast).next r'
  packets := by
    have hle := h.le
    obtain ⟨packets, cur, rfl, hdone, hpart, rfl⟩ := h.packets
    have hlen : (cur ++ [f]).length = r.msgLength cfg / cfg.width.words + 1 := by
      have hdiv : r.msgLength cfg / cfg.width.words = cur.length :=
        Nat.div_eq_of_lt_le hle (by rw [Nat.add_mul, Nat.one_mul]; exact hlast)
      rw [List.length_append, List.length_singleton, hdiv]
    refine ⟨packets ++ [cur ++ [f]], [], by simp, ?_, .nil, Nat.zero_mul _⟩
    exact List.rel_append hdone (.cons ⟨hpart.concat hf, hlen⟩ .nil)

end Sent

namespace Link

variable {cfg : Cfg} {s : Link} {i : Input}

theorem encoderAck_eq : s.encoderAck cfg i = (s.fire cfg i && s.encoder.sendDone cfg s.buffer.req) := by
  simp only [encoderAck, Encoder.reqAck, fire, Encoder.valOut]
  cases s.buffer.bufferVal <;> cases s.encoder.sendDone cfg s.buffer.req <;> cases i.outReady <;> simp

theorem l15ReqAck_false (h : s.l15ReqAck cfg i = false) :
    (s.step cfg i).buffer.req = s.buffer.req ∧
      (s.step cfg i).buffer.bufferVal = (s.buffer.bufferVal && !s.encoderAck cfg i) := by
  rw [l15ReqAck] at h
  simp only [step, Noc3Buffer.step, h, Bool.false_eq_true, if_false]
  cases s.encoderAck cfg i <;> simp

/-- A request is taken while the buffer is free or as it becomes free. -/
theorem l15ReqAck_true (h : s.l15ReqAck cfg i = true) :
    ∃ r, i.new = some r ∧ (s.step cfg i).buffer = ⟨true, r⟩ ∧
      (s.buffer.bufferVal = false ∨ s.encoderAck cfg i = true) := by
  have hack := h
  simp only [l15ReqAck, Noc3Buffer.l15ReqAck, Bool.and_eq_true, Option.isSome_iff_exists, Bool.or_eq_true,
    Bool.not_eq_true'] at hack
  obtain ⟨⟨r, hr⟩, hfree⟩ := hack
  refine ⟨r, hr, ?_, hfree⟩
  rw [l15ReqAck, hr] at h
  simp [step, Noc3Buffer.step, hr, h]

theorem parallel_step (hp : cfg.parallelSrams = true) (hr : (s.step cfg i).replaced = true) :
    (s.step cfg i).encoder.delay = false := by
  obtain ⟨⟨hack, -⟩, -⟩ : (s.encoderAck cfg i = true ∧ _) ∧ _ := by
    simpa only [Link.step, Bool.and_eq_true] using hr
  rw [encoderAck] at hack
  simp [Link.step, Encoder.step, Encoder.delayNext, hp, hack]

/-- What the buffered request, the encoder and the flits sent have to do with each other. -/
structure Sending (cfg : Cfg) (s : Link) : Prop where
  acks : s.taken = s.done ++ s.buffer.pending
  idle : s.buffer.bufferVal = false → s.encoder.flitState = 0
  loaded : s.buffer.bufferVal = true → s.encoder.flitState ≠ 0 ∨ s.encoder.delay = true ∧ s.replaced = false →
    s.encoder.Loaded cfg s.buffer.req s.encoder.flitState
  parallel : cfg.parallelSrams = true → s.replaced = true → s.encoder.delay = false
  sent : Sent cfg s.done s.buffer.req s.encoder.flitState s.flits

namespace Sending

theorem carries (h : s.Sending cfg) (hs : s.Spaced cfg i) (hf : s.fire cfg i = true) :
    Carries cfg s.buffer.req s.encoder.flitState (s.encoder.flit cfg s.buffer.req) := by
  obtain ⟨⟨hval, hstall⟩, hready⟩ : (s.buffer.bufferVal = true ∧
      s.encoder.stall cfg s.buffer.bufferVal s.buffer.req = false) ∧ i.outReady = true := by
    simpa [fire, Encoder.valOut] using hf
  refine Encoder.carries_flit (fun hroom hdata => h.loaded hval ?_) h.sent.dvd
  by_cases h0 : s.encoder.flitState = 0
  case neg => exact .inl h0
  case pos =>
    rw [h0, Nat.zero_add] at hroom
    have hdelay : s.encoder.delay = true := by
      by_contra hd
      have := Encoder.stall_iff.mpr ⟨h0, hroom, by simpa using hd⟩
      rw [hval, this] at hstall
      cases hstall
    refine .inr ⟨hdelay, ?_⟩
    by_contra hr
    have hr : s.replaced = true := by simpa using hr
    cases hp : cfg.parallelSrams with
    | true => simp [h.parallel hp hr] at hdelay
    | false => simp [hs hp hr ⟨hroom, hdata⟩] at hready

theorem flitState_held (h : s.Sending cfg) (hf : s.fire cfg i = false) :
    (s.step cfg i).encoder.flitState = s.encoder.flitState := by
  show s.encoder.flitStateNext cfg s.buffer.bufferVal s.buffer.req i.outReady = _
  rw [Encoder.flitStateNext]
  cases hv : s.buffer.bufferVal with
  | false => simp [Encoder.valOut, h.idle hv]
  | true =>
    rw [fire, hv] at hf
    cases hs : s.encoder.stall cfg true s.buffer.req <;> simp_all [Encoder.valOut]

theorem flitState_more (h : s.Sending cfg) (hf : s.fire cfg i = true)
    (hmore : s.encoder.flitState + cfg.width.words ≤ s.buffer.req.msgLength cfg) :
    s.encoderAck cfg i = false ∧ (s.step cfg i).encoder.flitState = s.encoder.flitState + cfg.width.words := by
  have hdone : s.encoder.sendDone cfg s.buffer.req = false := by
    rw [Bool.eq_false_iff, ne_eq, Encoder.sendDone_iff h.sent.le]
    omega
  have h10 := (s.buffer.req.kind cfg).le
  refine ⟨by rw [encoderAck_eq, hdone, Bool.and_false], ?_⟩
  show s.encoder.flitStateNext cfg s.buffer.bufferVal s.buffer.req i.outReady = _
  rw [fire, Bool.and_eq_true] at hf
  rw [Encoder.flitStateNext, if_pos hf.1, if_pos hf.2, hdone]
  exact Nat.mod_eq_of_lt (by omega)

theorem flitState_last (h : s.Sending cfg) (hf : s.fire cfg i = true)
    (hlast : s.buffer.req.msgLength cfg < s.encoder.flitState + cfg.width.words) :
    s.encoderAck cfg i = true ∧ (s.step cfg i).encoder.flitState = 0 := by
  have hdone : s.encoder.sendDone cfg s.buffer.req = true := (Encoder.sendDone_iff h.sent.le).mpr hlast
  refine ⟨by rw [encoderAck_eq, hdone, hf]; rfl, ?_⟩
  show s.encoder.flitStateNext cfg s.buffer.bufferVal s.buffer.req i.outReady = _
  rw [fire, Bool.and_eq_true] at hf
  rw [Encoder.flitStateNext, if_pos hf.1, if_pos hf.2, hdone]
  rfl

/-- A request that comes in finds the encoder at the first flit, and its data not loaded. -/
theorem taken (h : s.Sending cfg) (ha : s.l15ReqAck cfg i = true) :
    (s.step cfg i).encoder.flitState = 0 ∧
      ((s.step cfg i).encoder.delay = false ∨ (s.step cfg i).replaced = true) := by
  obtain ⟨r, -, -, hfree⟩ := l15ReqAck_true ha
  rcases hfree with hv | hack
  · have hf : s.fire cfg i = false := by simp [fire, Encoder.valOut, hv]
    refine ⟨by rw [h.flitState_held hf, h.idle hv], .inl ?_⟩
    simp [Link.step, Encoder.step, Encoder.delayNext, Encoder.opens, hv]
  · have hack' := hack
    rw [encoderAck_eq, Bool.and_eq_true] at hack'
    obtain ⟨hf, hdone⟩ := hack'
    refine ⟨(h.flitState_last hf ((Encoder.sendDone_iff h.sent.le).mp hdone)).2, ?_⟩
    by_cases h0 : s.encoder.flitState = 0
    · exact .inr (by simp [Link.step, hack, h0, ha])
    · have hv : s.buffer.bufferVal = true := by
        by_contra hv
        exact h0 (h.idle (by simpa using hv))
      exact .inl (by simp [Link.step, Encoder.step, hv, Encoder.delayNext_eq_false h0])

theorem loaded_step (h : s.Sending cfg) (hv : (s.step cfg i).buffer.bufferVal = true)
    (hl : (s.step cfg i).encoder.flitState ≠ 0 ∨
      (s.step cfg i).encoder.delay = true ∧ (s.step cfg i).replaced = false) :
    (s.step cfg i).encoder.Loaded cfg (s.step cfg i).buffer.req (s.step cfg i).encoder.flitState := by
  cases ha : s.l15ReqAck cfg i with
  | true =>
    obtain ⟨hzero, hnot⟩ := h.taken ha
    rcases hl with hne | ⟨hd, hr⟩
    · exact absurd hzero hne
    · rcases hnot with hn | hn
      · simp [hd] at hn
      · simp [hr] at hn
  | false =>
    obtain ⟨hreq, hval⟩ := l15ReqAck_false ha
    rw [hval, Bool.and_eq_true] at hv
    rw [hreq]
    simp only [Link.step, hv.1]
    exact Encoder.step_loaded s.buffer.req

theorem acks_step (h : s.Sending cfg) :
    (s.step cfg i).taken = (s.step cfg i).done ++ (s.step cfg i).buffer.pending := by
  have hack : s.encoderAck cfg i = true → s.buffer.bufferVal = true := by
    simp only [encoderAck, Encoder.reqAck, Bool.and_eq_true]
    exact fun hk => hk.1.1.1
  have htaken : (s.step cfg i).taken = s.taken ++ (if s.l15ReqAck cfg i then i.new.toList else []) := rfl
  have hdone : (s.step cfg i).done = s.done ++ (if s.encoderAck cfg i then [s.buffer.req] else []) := rfl
  rw [htaken, hdone, h.acks]
  cases ha : s.l15ReqAck cfg i with
  | true =>
    obtain ⟨r, hr, hbuf, hfree⟩ := l15ReqAck_true ha
    rw [hbuf, hr]
    rcases hfree with hv | hk
    · have hk : s.encoderAck cfg i = false := by
        by_contra hk
        simp [hack (by simpa using hk)] at hv
      simp [Noc3Buffer.pending, hv, hk]
    · simp [Noc3Buffer.pending, hack hk, hk]
  | false =>
    obtain ⟨hreq, hval⟩ := l15ReqAck_false ha
    simp only [Noc3Buffer.pending, hreq, hval]
    cases hk : s.encoderAck cfg i with
    | true => simp [hack hk]
    | false => simp

theorem sent_step (h : s.Sending cfg) (hs : s.Spaced cfg i) :
    Sent cfg (s.step cfg i).done (s.step cfg i).buffer.req (s.step cfg i).encoder.flitState
      (s.step cfg i).flits := by
  have hdone : (s.step cfg i).done = s.done ++ (if s.encoderAck cfg i then [s.buffer.req] else []) := rfl
  have hflits : (s.step cfg i).flits =
    s.flits ++ (if s.fire cfg i then [s.encoder.flit cfg s.buffer.req] else []) := rfl
  rw [hdone, hflits]
  cases hf : s.fire cfg i with
  | false =>
    have hk : s.encoderAck cfg i = false := by rw [encoderAck_eq, hf, Bool.false_and]
    simp only [hk, Bool.false_eq_true, if_false, List.append_nil]
    cases ha : s.l15ReqAck cfg i with
    | true =>
      have hzero := (h.taken ha).1
      rw [hzero]
      rw [h.flitState_held hf] at hzero
      exact (hzero ▸ h.sent).next _
    | false =>
      rw [h.flitState_held hf, (l15ReqAck_false ha).1]
      exact h.sent
  | true =>
    have hcarries := h.carries hs hf
    rcases Nat.lt_or_ge (s.buffer.req.msgLength cfg) (s.encoder.flitState + cfg.width.words) with hlast | hmore
    · obtain ⟨hk, hzero⟩ := h.flitState_last hf hlast
      rw [hk, hzero]
      exact h.sent.last hcarries hlast _
    · obtain ⟨hk, hnext⟩ := h.flitState_more hf hmore
      have hv : s.buffer.bufferVal = true := by
        simp only [fire, Encoder.valOut, Bool.and_eq_true] at hf
        exact hf.1.1
      have ha : s.l15ReqAck cfg i = false := by simp [l15ReqAck, Noc3Buffer.l15ReqAck, hv, hk]
      rw [hk, hnext, (l15ReqAck_false ha).1]
      simpa using h.sent.flit hcarries hmore

theorem step (h : s.Sending cfg) (hs : s.Spaced cfg i) : (s.step cfg i).Sending cfg where
  acks := h.acks_step
  idle := by
    intro hv
    cases ha : s.l15ReqAck cfg i with
    | true => exact (h.taken ha).1
    | false =>
      rw [(l15ReqAck_false ha).2] at hv
      cases hf : s.fire cfg i with
      | false =>
        have hk : s.encoderAck cfg i = false := by rw [encoderAck_eq, hf, Bool.false_and]
        rw [h.flitState_held hf]
        exact h.idle (by simpa [hk] using hv)
      | true =>
        have hv' : s.buffer.bufferVal = true := by
          simp only [fire, Encoder.valOut, Bool.and_eq_true] at hf
          exact hf.1.1
        have hk : s.encoderAck cfg i = true := by simpa [hv'] using hv
        rw [encoderAck_eq, Bool.and_eq_true] at hk
        exact (h.flitState_last hf ((Encoder.sendDone_iff h.sent.le).mp hk.2)).2
  loaded := h.loaded_step
  parallel := parallel_step
  sent := h.sent_step hs

end Sending

end Link

end OpenPiton.Noc3

import OpenPiton.Home.Passes

namespace OpenPiton.Home

open L15 L15.State

variable {cfg : Config} {s : State} {i : Input}

theorem decoder_hmcFill {d : DecoderIn} (h : d.reqtype = .hmcFill) : (decoder cfg d).noc2AckStage = .s2 := by
  obtain ⟨fs, reqtype, last, dis, hit, broadcast⟩ := d
  subst h
  rfl

/-- The request that is to acknowledge a message is that of the message. -/
structure Tagged (cfg : Config) (s : State) : Prop where
  s2 : s.owesNoc2S2 cfg = true → (s.s2.d.reqtype = .hmcFill ↔ isRefill s.noc2 = true)
  s3 : s.owesNoc2S3 cfg = true → isRefill s.noc2 = false

theorem Tagged.step (ht : Tagged cfg s) (ha : Awaited cfg s) (hb : Beats cfg s) (hsg : Single cfg s i) :
    Tagged cfg (s.step cfg i) := by
  obtain ⟨k2, k3⟩ := Awaited.owesNoc2_step cfg s i
  have keep : ((s.step cfg i).owesNoc2S2 cfg || (s.step cfg i).owesNoc2S3 cfg) = true → (s.step cfg i).noc2 = s.noc2 :=
    fun ho => (ha.owed_step hb hsg ho).1.2.2
  constructor
  · intro ho
    rw [keep (by rw [ho, Bool.true_or])]
    have hs2 : (s.step cfg i).s2 = s.s2Next cfg i := rfl
    rcases k2 ho with ⟨o2, h3⟩ | ⟨hacc, hst⟩
    · have hv : s.s2.val = true := by
        simp only [owesNoc2S2, Bool.and_eq_true] at o2
        exact o2.1.1
      rw [hs2, s2Next_of_hold hv h3]
      exact ht.s2 o2
    · have hs : (s.preS1 cfg).source = .noc2 := noc2_of_ackStage (by rcases hst with h | h <;> rw [h] <;> simp)
      rw [hs2, s2Next_of_move (stallS2_of_acceptS1 hacc)]
      change (s.decoderInS1 cfg).reqtype = _ ↔ _
      rw [decoderInS1_reqtype, preS1_of_noc2 hs, ofNoc2_hmcFill]
  · intro ho
    rw [keep (by rw [ho, Bool.or_true])]
    rcases k3 ho with ⟨o3, -⟩ | ⟨o2, -, hst⟩
    · exact ht.s3 o3
    · rw [Bool.eq_false_iff, Ne, ← ht.s2 o2]
      intro hr
      rw [S2.ctl, decoder_hmcFill hr] at hst
      cases hst

theorem Init.tagged (h : State.Init s) : Tagged cfg s := by
  constructor <;> simp [owesNoc2S2, owesNoc2S3, h.s2, h.s3]

/-- S2 lets a refill go. -/
def fillsHmc (cfg : Config) (s : State) (i : Input) : Prop :=
  s.s2.val = true ∧ s.s2.d.reqtype = .hmcFill ∧ s.stallS2 cfg i = false

/-- The message under way is the answer to a refill. -/
def AnswerWaits (s : State) : Prop := s.noc2State = .waitingAck ∧ isRefill s.noc2 = true

theorem stallS2_of_hmcFill (hv : s.s2.val = true) (hr : s.s2.d.reqtype = .hmcFill) :
    s.stallS2 cfg i = s.stallS3 cfg i := by
  have hburst : s.burstS2 cfg = false := by
    by_contra hm
    have := burst_mayBurst (by simpa using hm)
    rw [S2.ctl, decoder_noc2AckS2 cfg _ (decoder_hmcFill hr)] at this
    cases this
  simp [stallS2, stallLoadS2, hburst, stallRealS2_eq hv]

theorem owesNoc2S2_of_hmcFill (hb : Beats cfg s) (hv : s.s2.val = true) (hr : s.s2.d.reqtype = .hmcFill) :
    s.owesNoc2S2 cfg = true := by
  have hst : (s.s2.ctl cfg).noc2AckStage = .s2 := decoder_hmcFill hr
  simp [owesNoc2S2, hv, hst, cacheSubline_of_ackS2 hb hst]

theorem AnswerWaits.of_fills (ht : Tagged cfg s) (ha : Awaited cfg s) (hb : Beats cfg s) (h : fillsHmc cfg s i) :
    AnswerWaits s := by
  obtain ⟨hv, hr, -⟩ := h
  have ho := owesNoc2S2_of_hmcFill hb hv hr
  exact ⟨(ha.held (by rw [ho]; simp)).1, (ht.s2 ho).mp hr⟩

theorem AnswerWaits.ack_iff (ht : Tagged cfg s) (hb : Beats cfg s) (hsg : Single cfg s i) (hw : AnswerWaits s) :
    s.noc2Ack cfg i = true ↔ fillsHmc cfg s i := by
  constructor
  · intro hack
    rcases Awaited.noc2Ack_cases hb hsg hw.1 hack with ⟨-, hst⟩ | ⟨o2, h3, -⟩ | ⟨o3, -⟩
    · exfalso
      have hs : (s.preS1 cfg).source = .noc2 := noc2_of_ackStage (by rw [hst]; simp)
      have hr : (s.decoderInS1 cfg).reqtype = .hmcFill := by
        rw [decoderInS1_reqtype, preS1_of_noc2 hs, ofNoc2_hmcFill]
        exact hw.2
      rw [ctlS1, decoder_hmcFill hr] at hst
      cases hst
    · have hr := (ht.s2 o2).mpr hw.2
      have hv : s.s2.val = true := by
        simp only [owesNoc2S2, Bool.and_eq_true] at o2
        exact o2.1.1
      exact ⟨hv, hr, by rw [stallS2_of_hmcFill hv hr, h3]⟩
    · exact absurd hw.2 (by rw [ht.s3 o3]; simp)
  · rintro ⟨hv, hr, h2⟩
    have hst : (s.s2.ctl cfg).noc2AckStage = .s2 := decoder_hmcFill hr
    rw [stallS2_of_hmcFill hv hr] at h2
    simp [noc2Ack, hv, hst, stallRealS2_eq hv, h2]

/-- The answer to a refill waits until S2 lets it go, and comes in when the buffer is idle. -/
theorem answerWaits_step (ht : Tagged cfg s) (hb : Beats cfg s) (hsg : Single cfg s i) :
    AnswerWaits (s.step cfg i) ↔
      (AnswerWaits s ∧ ¬ fillsHmc cfg s i) ∨ s.noc2State = .idle ∧ ∃ m, i.noc2 = some m ∧ isRefill m = true := by
  have hstep : AnswerWaits (s.step cfg i) ↔ (s.noc2Next cfg i).2 = .waitingAck ∧ isRefill (s.noc2Next cfg i).1 = true :=
    Iff.rfl
  rw [hstep]
  cases hs : s.noc2State with
  | idle =>
      have hno : ¬ AnswerWaits s := by simp [AnswerWaits, hs]
      cases hm : i.noc2 <;> simp [noc2Next, hs, hm, hno]
  | waitingAck =>
      by_cases hw : AnswerWaits s
      · rw [← hw.ack_iff ht hb hsg]
        cases hack : s.noc2Ack cfg i <;> simp [noc2Next, hs, hack, hw, hw.2]
      · have hr : isRefill s.noc2 = false := by
          by_contra hr
          exact hw ⟨hs, by simpa using hr⟩
        simp [noc2Next, hs, hw, hr]
  | waitingAckRst =>
      have hno : ¬ AnswerWaits s := by simp [AnswerWaits, hs]
      cases hack : s.noc2Ack cfg i <;> simp [noc2Next, hs, hack, hno]

end OpenPiton.Home

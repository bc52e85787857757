import OpenPiton.Lib.Machine
import Mathlib.Data.Nat.ModEq

namespace OpenPiton.NocAxi

/-- `AXI4_STRB_WIDTH`, the bytes of a line. -/
abbrev AXI4_STRB_WIDTH : Nat := 64
abbrev AXI4_ADDR_WIDTH : Nat := 64

/-- The registers of `axi4_zeroer`, with the requests and beats it has had accepted. -/
structure Zeroer where
  reqGo : Bool := false
  respGo : Bool := false
  reqSent : Nat := 0
  respGot : Nat := 0
  outstanding : Nat := 0
  initCalibCompleteOut : Bool := false
  /-- The addresses of the accepted requests. -/
  awAccepted : List Nat := []
  wAccepted : Nat := 0

structure ZeroerIn where
  initCalibCompleteIn : Bool := true
  mAwready : Bool
  mWready : Bool
  sAwvalid : Bool := false
  sAwaddr : Nat := 0

namespace Zeroer

variable (boardMemSizeMB : Nat)

def maxMemAddr : Nat := boardMemSizeMB * 2 ^ 20 % 2 ^ AXI4_ADDR_WIDTH

def requestsNeeded : Nat := maxMemAddr boardMemSizeMB / AXI4_STRB_WIDTH

def maxOutstanding : Nat := 16

variable (s : Zeroer) (i : ZeroerIn)

/-- `init_calib_complete_out_i`. -/
def complete : Bool :=
  s.reqSent == requestsNeeded boardMemSizeMB && s.respGot == requestsNeeded boardMemSizeMB

def zeroerAwval : Bool :=
  i.initCalibCompleteIn && !s.complete boardMemSizeMB && decide (s.reqSent < requestsNeeded boardMemSizeMB) &&
    s.outstanding != maxOutstanding - 1

def zeroerWval : Bool := true

def zeroerAddr : Nat := s.reqSent * AXI4_STRB_WIDTH % 2 ^ AXI4_ADDR_WIDTH

def mAwaddr : Nat := if s.complete boardMemSizeMB then i.sAwaddr else s.zeroerAddr

def mAwvalid : Bool := if s.complete boardMemSizeMB then i.sAwvalid else s.zeroerAwval boardMemSizeMB i

def sAwready : Bool := if s.complete boardMemSizeMB then i.mAwready else false

/-- A request of the zeroer is accepted. -/
def awGo : Bool := s.zeroerAwval boardMemSizeMB i && i.mAwready

/-- A beat of the zeroer is accepted. -/
def wGo : Bool := zeroerWval && i.mWready

def step : Zeroer where
  reqGo := s.awGo boardMemSizeMB i
  respGo := wGo i
  reqSent := if s.complete boardMemSizeMB then s.reqSent else (s.reqSent + s.reqGo.toNat) % 2 ^ AXI4_ADDR_WIDTH
  respGot := if s.complete boardMemSizeMB then s.respGot else (s.respGot + s.respGo.toNat) % 2 ^ AXI4_ADDR_WIDTH
  outstanding :=
    if s.complete boardMemSizeMB then s.outstanding
    else
      match s.reqGo, s.respGo with
      | true, false => (s.outstanding + 1) % 16
      | false, true => (s.outstanding + 15) % 16
      | _, _ => s.outstanding
  initCalibCompleteOut := s.complete boardMemSizeMB
  awAccepted := if s.awGo boardMemSizeMB i then s.awAccepted ++ [s.zeroerAddr] else s.awAccepted
  wAccepted := if !s.complete boardMemSizeMB && wGo i then s.wAccepted + 1 else s.wAccepted

/-- After a reset of two cycles. -/
def Init (s : Zeroer) : Prop := s = { initCalibCompleteOut := complete boardMemSizeMB {} }

/-- What the slave does for the zeroer to work, whose counters lag the handshakes by a cycle: no
request waits in the cycle after one was accepted, the line whose address is about to pass was or
is accepted, and beyond the last line a request and a beat are accepted only in one cycle. -/
structure Steady : Prop where
  stall : s.complete boardMemSizeMB = false → s.reqGo = true → s.zeroerAwval boardMemSizeMB i = true →
    i.mAwready = true
  line : s.complete boardMemSizeMB = false → s.reqGo = true →
    s.zeroerAddr ∈ s.awAccepted ∨ s.awGo boardMemSizeMB i = true
  last_aw : s.complete boardMemSizeMB = false → s.awGo boardMemSizeMB i = true →
    s.reqSent + s.reqGo.toNat = requestsNeeded boardMemSizeMB →
      s.respGot + s.respGo.toNat = requestsNeeded boardMemSizeMB ∧ i.mWready = true
  last_w : s.complete boardMemSizeMB = false → i.mWready = true →
    s.respGot + s.respGo.toNat = requestsNeeded boardMemSizeMB →
      s.reqSent + s.reqGo.toNat = requestsNeeded boardMemSizeMB ∧ s.awGo boardMemSizeMB i = true

structure Sound : Prop where
  reqSent_le : s.reqSent ≤ requestsNeeded boardMemSizeMB
  respGot_le : s.respGot ≤ requestsNeeded boardMemSizeMB
  /-- The handshakes of the last cycle are not counted yet. -/
  counts : s.complete boardMemSizeMB = false →
    s.awAccepted.length = s.reqSent + s.reqGo.toNat ∧ s.wAccepted = s.respGot + s.respGo.toNat ∧
    s.reqSent + s.reqGo.toNat ≤ requestsNeeded boardMemSizeMB ∧
    s.respGot + s.respGo.toNat ≤ requestsNeeded boardMemSizeMB
  equal : s.complete boardMemSizeMB = true → s.awAccepted.length = s.wAccepted
  covered : ∀ k < s.reqSent, k * AXI4_STRB_WIDTH ∈ s.awAccepted
  out : s.initCalibCompleteOut = true → s.complete boardMemSizeMB = true

variable {boardMemSizeMB s i}

theorem maxMemAddr_eq : maxMemAddr boardMemSizeMB = requestsNeeded boardMemSizeMB * AXI4_STRB_WIDTH := by
  simp only [requestsNeeded, maxMemAddr, AXI4_STRB_WIDTH, AXI4_ADDR_WIDTH]
  omega

theorem requestsNeeded_lt : requestsNeeded boardMemSizeMB < 2 ^ 58 := by
  simp only [requestsNeeded, maxMemAddr, AXI4_STRB_WIDTH, AXI4_ADDR_WIDTH]
  omega

theorem complete_iff : s.complete boardMemSizeMB = true ↔
    s.reqSent = requestsNeeded boardMemSizeMB ∧ s.respGot = requestsNeeded boardMemSizeMB := by
  simp [complete]

theorem complete_step (hc : s.complete boardMemSizeMB = true) :
    (s.step boardMemSizeMB i).complete boardMemSizeMB = true := by
  have h := complete_iff.mp hc
  rw [complete_iff]
  simpa only [step, hc, if_true] using h

theorem Init.sound (h : Init boardMemSizeMB s) : s.Sound boardMemSizeMB := by
  subst h
  refine ⟨Nat.zero_le _, Nat.zero_le _, fun _ => ⟨rfl, rfl, Nat.zero_le _, Nat.zero_le _⟩, fun _ => rfl, ?_, ?_⟩
  · intro k hk
    exact absurd hk (Nat.not_lt_zero k)
  · intro ho
    rw [complete_iff] at ho ⊢
    exact ho

namespace Sound

theorem zeroerAddr_eq (h : s.Sound boardMemSizeMB) : s.zeroerAddr = s.reqSent * AXI4_STRB_WIDTH := by
  have hle := h.reqSent_le
  have hN := @requestsNeeded_lt boardMemSizeMB
  simp only [zeroerAddr, AXI4_STRB_WIDTH, AXI4_ADDR_WIDTH]
  omega

theorem step_complete (h : s.Sound boardMemSizeMB) (hc : s.complete boardMemSizeMB = true) :
    (s.step boardMemSizeMB i).Sound boardMemSizeMB := by
  have hgo : s.awGo boardMemSizeMB i = false := by simp [awGo, zeroerAwval, hc]
  have hsent : (s.step boardMemSizeMB i).reqSent = s.reqSent := if_pos hc
  have hgot : (s.step boardMemSizeMB i).respGot = s.respGot := if_pos hc
  have haw : (s.step boardMemSizeMB i).awAccepted = s.awAccepted := by simp [Zeroer.step, hgo]
  have hw : (s.step boardMemSizeMB i).wAccepted = s.wAccepted := by simp [Zeroer.step, hc]
  have hc' : (s.step boardMemSizeMB i).complete boardMemSizeMB = true := complete_step hc
  refine ⟨hsent ▸ h.reqSent_le, hgot ▸ h.respGot_le, fun hf => ?_, fun _ => ?_, ?_, fun _ => hc'⟩
  · rw [hc'] at hf
    cases hf
  · rw [haw, hw]
    exact h.equal hc
  · rw [hsent, haw]
    exact h.covered

theorem step_running (h : s.Sound boardMemSizeMB) (hc : s.complete boardMemSizeMB = false)
    (hi : s.Steady boardMemSizeMB i) : (s.step boardMemSizeMB i).Sound boardMemSizeMB := by
  have hN := @requestsNeeded_lt boardMemSizeMB
  obtain ⟨hlen, hbeats, hA, hB⟩ := h.counts hc
  have hsent : (s.step boardMemSizeMB i).reqSent = s.reqSent + s.reqGo.toNat := by
    simp only [Zeroer.step, hc, Bool.false_eq_true, if_false, AXI4_ADDR_WIDTH]
    omega
  have hgot : (s.step boardMemSizeMB i).respGot = s.respGot + s.respGo.toNat := by
    simp only [Zeroer.step, hc, Bool.false_eq_true, if_false, AXI4_ADDR_WIDTH]
    omega
  have haw : (s.step boardMemSizeMB i).awAccepted.length =
      s.reqSent + s.reqGo.toNat + (s.awGo boardMemSizeMB i).toNat := by
    cases hgo : s.awGo boardMemSizeMB i <;> simp [Zeroer.step, hgo, hlen]
  have hw : (s.step boardMemSizeMB i).wAccepted = s.respGot + s.respGo.toNat + i.mWready.toNat := by
    cases hr : i.mWready <;> simp [Zeroer.step, hc, hr, wGo, zeroerWval, hbeats]
  have hlast_aw := hi.last_aw hc
  have hlast_w := hi.last_w hc
  have hiff := @complete_iff boardMemSizeMB (s.step boardMemSizeMB i)
  rw [hsent, hgot] at hiff
  refine ⟨hsent ▸ hA, hgot ▸ hB, fun hf => ?_, fun ht => ?_, ?_, fun ho => ?_⟩
  · -- a request or a beat beyond the last line would have completed the zeroing
    have hnot : ¬ (s.reqSent + s.reqGo.toNat = requestsNeeded boardMemSizeMB ∧
        s.respGot + s.respGo.toNat = requestsNeeded boardMemSizeMB) := fun he => by
      rw [hiff.mpr he] at hf
      cases hf
    refine ⟨by rw [haw, hsent]; rfl, by rw [hw, hgot]; rfl, ?_, ?_⟩
    · rw [hsent]
      change _ + (s.awGo boardMemSizeMB i).toNat ≤ _
      cases hgo : s.awGo boardMemSizeMB i with
      | false => exact hA
      | true => exact Nat.lt_of_le_of_ne hA fun he => hnot ⟨he, (hlast_aw hgo he).1⟩
    · rw [hgot]
      change _ + i.mWready.toNat ≤ _
      cases hr : i.mWready with
      | false => exact hB
      | true => exact Nat.lt_of_le_of_ne hB fun he => hnot ⟨(hlast_w hr he).1, he⟩
  · obtain ⟨hAN, hBN⟩ := hiff.mp ht
    rw [haw, hw, hAN, hBN]
    cases hgo : s.awGo boardMemSizeMB i with
    | true => rw [(hlast_aw hgo hAN).2]
    | false =>
        cases hr : i.mWready with
        | false => rfl
        | true => rw [(hlast_w hr hBN).2] at hgo; cases hgo
  · intro k hk
    have hsub : ∀ a ∈ s.awAccepted, a ∈ (s.step boardMemSizeMB i).awAccepted := by
      intro a ha
      simp only [Zeroer.step]
      split
      · exact List.mem_append_left _ ha
      · exact ha
    rw [hsent] at hk
    rcases Nat.lt_or_ge k s.reqSent with hlt | hge
    · exact hsub _ (h.covered k hlt)
    · have hgo : s.reqGo = true := by
        cases hg : s.reqGo with
        | true => rfl
        | false => rw [hg, Bool.toNat_false] at hk; omega
      have hk' : k = s.reqSent := by
        rw [hgo, Bool.toNat_true] at hk
        omega
      rw [hk', ← h.zeroerAddr_eq]
      rcases hi.line hc hgo with ha | ha
      · exact hsub _ ha
      · simp [Zeroer.step, ha]
  · change s.complete boardMemSizeMB = true at ho
    rw [hc] at ho
    cases ho

theorem step (h : s.Sound boardMemSizeMB) (hi : s.Steady boardMemSizeMB i) :
    (s.step boardMemSizeMB i).Sound boardMemSizeMB := by
  cases hc : s.complete boardMemSizeMB with
  | true => exact h.step_complete hc
  | false => exact h.step_running hc hi

/-- While a request waits its address stays, before the zeroing is complete by the slave's patience
and afterwards by the master's whose requests pass through. -/
theorem mAwaddr_step (h : s.Sound boardMemSizeMB) (hi : s.Steady boardMemSizeMB i) {i' : ZeroerIn}
    (hmaster : i.sAwvalid = true → s.sAwready boardMemSizeMB i = false → i'.sAwaddr = i.sAwaddr)
    (hval : s.mAwvalid boardMemSizeMB i = true) (hrdy : i.mAwready = false) :
    (s.step boardMemSizeMB i).mAwaddr boardMemSizeMB i' = s.mAwaddr boardMemSizeMB i := by
  cases hc : s.complete boardMemSizeMB with
  | true =>
      have hc' : (s.step boardMemSizeMB i).complete boardMemSizeMB = true := complete_step hc
      simp only [mAwvalid, sAwready, hc, if_true] at hval hmaster
      simpa only [mAwaddr, hc, hc', if_true] using hmaster hval hrdy
  | false =>
      simp only [mAwvalid, hc, Bool.false_eq_true, if_false] at hval
      have hgo : s.reqGo = false := by
        cases hg : s.reqGo with
        | false => rfl
        | true => rw [hi.stall hc hg hval] at hrdy; cases hrdy
      have hN := @requestsNeeded_lt boardMemSizeMB
      have hle := h.reqSent_le
      have hsent : (s.step boardMemSizeMB i).reqSent = s.reqSent := by
        simp only [Zeroer.step, hc, hgo, Bool.false_eq_true, if_false, Bool.toNat_false, AXI4_ADDR_WIDTH]
        omega
      have hlt : s.reqSent < requestsNeeded boardMemSizeMB := by
        simp only [zeroerAwval, Bool.and_eq_true, decide_eq_true_eq] at hval
        exact hval.1.2
      have hc' : (s.step boardMemSizeMB i).complete boardMemSizeMB = false := by
        rw [Bool.eq_false_iff, ne_eq, complete_iff, hsent]
        omega
      simp only [mAwaddr, hc, hc', Bool.false_eq_true, if_false, zeroerAddr, hsent]

end Sound

/-- In a run over a slave that is steady the counters never pass the last line, no waiting request
changes its address, and the zeroer reports completion only when every line has been accepted, with
one beat for each accepted request. -/
theorem zeroing (h : Machine.Reaches (Init boardMemSizeMB) (step boardMemSizeMB) (Steady boardMemSizeMB) s) :
    s.reqSent ≤ requestsNeeded boardMemSizeMB ∧ s.respGot ≤ requestsNeeded boardMemSizeMB ∧
    (∀ i i', s.Steady boardMemSizeMB i →
      (i.sAwvalid = true → s.sAwready boardMemSizeMB i = false → i'.sAwaddr = i.sAwaddr) →
      s.mAwvalid boardMemSizeMB i = true → i.mAwready = false →
      (s.step boardMemSizeMB i).mAwaddr boardMemSizeMB i' = s.mAwaddr boardMemSizeMB i) ∧
    (s.initCalibCompleteOut = true →
      (∀ a < maxMemAddr boardMemSizeMB, a % AXI4_STRB_WIDTH = 0 → a ∈ s.awAccepted) ∧
      s.awAccepted.length = s.wAccepted) := by
  have hs : s.Sound boardMemSizeMB := h.invariant (fun _ h => h.sound) fun _ _ hs hi => hs.step hi
  refine ⟨hs.reqSent_le, hs.respGot_le, fun i i' hi hm hv hr => hs.mAwaddr_step hi hm hv hr, fun ho => ?_⟩
  have hc := hs.out ho
  refine ⟨fun a ha hmod => ?_, hs.equal hc⟩
  rw [maxMemAddr_eq] at ha
  have hlt : a / AXI4_STRB_WIDTH < s.reqSent := by
    rw [(complete_iff.mp hc).1]
    exact Nat.div_lt_of_lt_mul (by rwa [Nat.mul_comm])
  have hk := hs.covered _ hlt
  rwa [Nat.div_mul_cancel (Nat.dvd_of_mod_eq_zero hmod)] at hk

/-- A slave that takes a request and a beat in every cycle. -/
def ready : ZeroerIn := { mAwready := true, mWready := true }

/-- Until the zeroing is complete as many beats as requests are accepted. -/
def Lockstep (boardMemSizeMB : Nat) (s : Zeroer) : Prop :=
  s.complete boardMemSizeMB = false → s.outstanding = 0 ∧ s.respGo = s.reqGo ∧ s.respGot = s.reqSent

theorem Lockstep.awGo_ready (h : Lockstep boardMemSizeMB s) (hs : s.Sound boardMemSizeMB)
    (hc : s.complete boardMemSizeMB = false) : s.awGo boardMemSizeMB ready = true := by
  obtain ⟨hout, _, hgot⟩ := h hc
  have hne : s.reqSent ≠ requestsNeeded boardMemSizeMB := fun he => by
    rw [complete_iff.mpr ⟨he, hgot.trans he⟩] at hc
    cases hc
  have hlt := Nat.lt_of_le_of_ne hs.reqSent_le hne
  simp [awGo, zeroerAwval, ready, hc, hlt, hout, maxOutstanding]

theorem Lockstep.steady (h : Lockstep boardMemSizeMB s) (hs : s.Sound boardMemSizeMB) :
    s.Steady boardMemSizeMB ready where
  stall _ _ _ := rfl
  line hc _ := .inr (h.awGo_ready hs hc)
  last_aw hc _ he := by
    obtain ⟨_, hgo, hgot⟩ := h hc
    exact ⟨by rw [hgo, hgot, he], rfl⟩
  last_w hc _ he := by
    obtain ⟨_, hgo, hgot⟩ := h hc
    exact ⟨by rw [← he, hgo, hgot], h.awGo_ready hs hc⟩

theorem Lockstep.step (h : Lockstep boardMemSizeMB s) (hs : s.Sound boardMemSizeMB) :
    Lockstep boardMemSizeMB (s.step boardMemSizeMB ready) := by
  intro hc'
  have hc : s.complete boardMemSizeMB = false := by
    cases hc : s.complete boardMemSizeMB with
    | false => rfl
    | true => rw [complete_step hc] at hc'; cases hc'
  obtain ⟨hout, hgo, hgot⟩ := h hc
  refine ⟨?_, (h.awGo_ready hs hc).symm, ?_⟩
  · cases hg : s.reqGo <;> simp [Zeroer.step, hc, hg, hgo ▸ hg, hout]
  · simp [Zeroer.step, hc, hgo, hgot]

theorem reaches_of_ready (h : Machine.Reaches (Init boardMemSizeMB) (step boardMemSizeMB) (fun _ i => i = ready) s) :
    Machine.Reaches (Init boardMemSizeMB) (step boardMemSizeMB) (Steady boardMemSizeMB) s := by
  refine (h.invariant (P := fun s => Machine.Reaches (Init boardMemSizeMB) (step boardMemSizeMB)
    (Steady boardMemSizeMB) s ∧ Lockstep boardMemSizeMB s) ?_ ?_).1
  · rintro s rfl
    exact ⟨.start rfl, fun _ => ⟨rfl, rfl, rfl⟩⟩
  · rintro s i ⟨hr, hl⟩ rfl
    have hs : s.Sound boardMemSizeMB := hr.invariant (fun _ h => h.sound) fun _ _ hs hi => hs.step hi
    exact ⟨.next hr (hl.steady hs), hl.step hs⟩

theorem zeroing_ready :
    let s : Zeroer := (step 1024 (step 1024 { initCalibCompleteOut := complete 1024 {} } ready) ready)
    s.reqSent = 1 ∧ s.reqSent ≤ requestsNeeded 1024 :=
  ⟨rfl, (zeroing (reaches_of_ready (.next (.next (.start rfl) rfl) rfl))).1⟩

/-- A request that waits right after one was accepted changes its address. -/
theorem waiting_address_moves :
    ∃ s i, Machine.Reaches (Init 1024) (step 1024) (fun _ _ => True) s ∧ i.mAwready = false ∧
      i.sAwvalid = false ∧ s.mAwvalid 1024 i = true ∧ (s.step 1024 i).mAwaddr 1024 i ≠ s.mAwaddr 1024 i :=
  ⟨_, ⟨true, false, false, false, 0⟩, .next (i := ⟨true, true, false, false, 0⟩) (.start rfl) trivial,
    rfl, rfl, by decide +kernel, by decide +kernel⟩

end Zeroer

end OpenPiton.NocAxi

import OpenPiton.Chipset.AddressMap
import OpenPiton.Lib.Machine

namespace OpenPiton.Chipset

open L15 (Word)
open Noc1 (fieldLength)
open Packets

inductive FilterState
  | idle
  | onlyHeaderFlit
  | oneFlit
  | twoFlits
  | sending
  | drainTwo
  | drainOne
  deriving DecidableEq

/-- The registers of `packet_filter`, for channels of 64 bits. -/
structure FilterRegs where
  state : FilterState := .idle
  flitBuffer0 : Word := 0
  flitBuffer1 : Word := 0
  numFlits : BitVec 8 := 0
  flitsSent : BitVec 8 := 0
  invalidAccess : Bool := false

/-- What a cycle offers, whether it accepts, and the next registers. -/
structure FilterComb where
  xbarVal : Bool
  xbarData : Word
  noc2Rdy : Bool
  next : FilterRegs

/-- The lines of a cycle; `idleData` is on the data lines when no flit is. -/
structure FilterIn where
  noc2Val : Bool
  xbarRdy : Bool
  uartBootEn : Bool
  idleData : Word := 0

section Comb

variable (dm : DeviceMap) (r : FilterRegs) (noc2Val : Bool) (noc2Data : Word) (xbarRdy uartBootEn : Bool)

/-- The registers with the first flit of a packet, if there is one. -/
def FilterRegs.first (state : FilterState) : FilterRegs :=
  { r with
    state
    flitBuffer0 := if noc2Val then noc2Data else 0
    flitBuffer1 := 0
    numFlits := if noc2Val then fieldLength noc2Data else 0
    flitsSent := 0 }

/-- The registers with the first flit gone and another behind the second. -/
def FilterRegs.shift (state : FilterState) (flit : Word) (flitsSent : BitVec 8) : FilterRegs :=
  { r with state, flitBuffer0 := r.flitBuffer1, flitBuffer1 := flit, flitsSent }

def filterComb : FilterComb :=
  match r.state with
  | .idle =>
      if noc2Val && fieldLength noc2Data == 0 then
        -- a packet of one flit is sent now, but what is offered is the buffer
        ⟨true, r.flitBuffer0, true, r.first noc2Val noc2Data (if xbarRdy then .idle else .onlyHeaderFlit)⟩
      else ⟨false, 0, true, r.first noc2Val noc2Data (if noc2Val then .oneFlit else .idle)⟩
  | .onlyHeaderFlit =>
      if xbarRdy then
        if noc2Val && fieldLength noc2Data == 0 then
          ⟨true, r.flitBuffer0, true, r.first noc2Val noc2Data (if xbarRdy then .idle else .onlyHeaderFlit)⟩
        else ⟨true, r.flitBuffer0, true, r.first noc2Val noc2Data (if noc2Val then .oneFlit else .idle)⟩
      else ⟨true, r.flitBuffer0, false, { r with flitBuffer1 := 0, flitsSent := 0 }⟩
  | .oneFlit =>
      ⟨false, 0, true,
        { state := if noc2Val then .twoFlits else .oneFlit
          flitBuffer0 := if noc2Val then readdressedFlit0 dm uartBootEn r.flitBuffer0 noc2Data else r.flitBuffer0
          flitBuffer1 := if noc2Val then noc2Data else 0
          numFlits := r.numFlits
          flitsSent := 0
          invalidAccess := r.invalidAccess || (noc2Val && invalidAccess dm uartBootEn r.flitBuffer0 noc2Data) }⟩
  | .twoFlits =>
      if r.numFlits == 1 then
        if xbarRdy then ⟨true, r.flitBuffer0, false, r.shift .drainOne noc2Data 1⟩
        else ⟨true, r.flitBuffer0, false, { r with flitsSent := 0 }⟩
      else if xbarRdy && noc2Val then
        ⟨true, r.flitBuffer0, true, r.shift (if r.numFlits == 2 then .drainTwo else .sending) noc2Data 1⟩
      else ⟨false, r.flitBuffer0, false, { r with flitsSent := 0 }⟩
  | .sending =>
      -- the sum has 8 bits
      if xbarRdy && noc2Val && r.flitsSent < r.numFlits + 1 then
        ⟨true, r.flitBuffer0, true,
          r.shift (if r.flitsSent == r.numFlits - 2 then .drainTwo else .sending) noc2Data (r.flitsSent + 1)⟩
      else ⟨false, r.flitBuffer0, false, r⟩
  | .drainTwo =>
      if xbarRdy then ⟨true, r.flitBuffer0, false, r.shift .drainOne 0 (r.flitsSent + 1)⟩
      else ⟨false, r.flitBuffer0, false, r⟩
  | .drainOne =>
      if xbarRdy then
        ⟨true, r.flitBuffer0, false,
          { r with state := .idle, flitBuffer0 := 0, flitBuffer1 := 0, numFlits := 0, flitsSent := 0 }⟩
      else ⟨false, r.flitBuffer0, false, r⟩

end Comb

/-- The filter with the flits that are still to come, were accepted and have left. -/
structure PacketFilter where
  regs : FilterRegs := {}
  pending : List Word := []
  taken : List Word := []
  sent : List Word := []

namespace PacketFilter

variable (dm : DeviceMap) (s : PacketFilter) (i : FilterIn)

def noc2Val : Bool := i.noc2Val && !s.pending.isEmpty

def noc2Data : Word := if s.noc2Val i then s.pending.headD 0 else i.idleData

def comb : FilterComb := filterComb dm s.regs (s.noc2Val i) (s.noc2Data i) i.xbarRdy i.uartBootEn

def step : PacketFilter where
  regs := (s.comb dm i).next
  pending := if s.noc2Val i && (s.comb dm i).noc2Rdy then s.pending.tail else s.pending
  taken := if s.noc2Val i && (s.comb dm i).noc2Rdy then s.taken ++ [s.noc2Data i] else s.taken
  sent := if (s.comb dm i).xbarVal && i.xbarRdy then s.sent ++ [(s.comb dm i).xbarData] else s.sent

/-- A header is accepted in these states. -/
def AtHeader : Prop := s.regs.state = .idle ∨ s.regs.state = .onlyHeaderFlit

instance : Decidable s.AtHeader := inferInstanceAs (Decidable (_ ∨ _))

/-- No packet of one flit comes when the crossbar is ready, and none whose length the counter cannot follow. -/
structure Regular (boots : Set Bool) (s : PacketFilter) (i : FilterIn) : Prop where
  boot : i.uartBootEn ∈ boots
  single : s.AtHeader → s.noc2Val i = true → fieldLength (s.noc2Data i) = 0 → i.xbarRdy = false
  counted : s.AtHeader → s.noc2Val i = true → fieldLength (s.noc2Data i) ≠ 255

instance (boots : Set Bool) [DecidablePred (· ∈ boots)] : Decidable (s.Regular boots i) :=
  decidable_of_iff (i.uartBootEn ∈ boots ∧
    (s.AtHeader → s.noc2Val i = true → fieldLength (s.noc2Data i) = 0 → i.xbarRdy = false) ∧
      (s.AtHeader → s.noc2Val i = true → fieldLength (s.noc2Data i) ≠ 255))
    ⟨fun h => ⟨h.1, h.2.1, h.2.2⟩, fun h => ⟨h.boot, h.single, h.counted⟩⟩

variable {dm s i} {boots : Set Bool} {pkts ps qs rest : List (List Word)} {p : List Word}

/-- The filter in a run over `pkts`: `ps` have left as `qs`, and of the next packet the state tells how far it is. -/
inductive Tracks (dm : DeviceMap) (boots : Set Bool) (pkts : List (List Word)) (s : PacketFilter) : Prop
  | idle {ps qs rest : List (List Word)} (hps : List.Forall₂ (Filtered dm boots) ps qs) (hpkts : pkts = ps ++ rest)
      (hstate : s.regs.state = .idle) (hsent : s.sent = qs.flatten) (hpending : s.pending = rest.flatten)
  | onlyHeaderFlit {ps qs rest : List (List Word)} {h : Word} (hps : List.Forall₂ (Filtered dm boots) ps qs)
      (hpkts : pkts = ps ++ [h] :: rest) (hstate : s.regs.state = .onlyHeaderFlit) (hsent : s.sent = qs.flatten)
      (hpending : s.pending = rest.flatten) (hbuffer : s.regs.flitBuffer0 = h)
  | oneFlit {ps qs rest : List (List Word)} {h a : Word} {t : List Word} (hps : List.Forall₂ (Filtered dm boots) ps qs)
      (hpkts : pkts = ps ++ (h :: a :: t) :: rest) (hstate : s.regs.state = .oneFlit) (hsent : s.sent = qs.flatten)
      (hpending : s.pending = a :: t ++ rest.flatten) (hbuffer : s.regs.flitBuffer0 = h)
      (hnum : s.regs.numFlits.toNat = t.length + 1) (hlt : t.length + 1 < 255)
  | twoFlits {ps qs rest : List (List Word)} {p t : List Word} {b c : Word} (hps : List.Forall₂ (Filtered dm boots) ps qs)
      (hpkts : pkts = ps ++ p :: rest) (hp : Filtered dm boots p (b :: c :: t)) (hstate : s.regs.state = .twoFlits)
      (hsent : s.sent = qs.flatten) (hpending : s.pending = t ++ rest.flatten)
      (hbuffer : s.regs.flitBuffer0 = b ∧ s.regs.flitBuffer1 = c)
      (hnum : s.regs.numFlits.toNat = t.length + 1) (hlt : t.length + 1 < 255)
  | sending {ps qs rest : List (List Word)} {p l t : List Word} {b c : Word} (hps : List.Forall₂ (Filtered dm boots) ps qs)
      (hpkts : pkts = ps ++ p :: rest) (hp : Filtered dm boots p (l ++ b :: c :: t)) (ht : t ≠ [])
      (hstate : s.regs.state = .sending) (hsent : s.sent = qs.flatten ++ l) (hpending : s.pending = t ++ rest.flatten)
      (hbuffer : s.regs.flitBuffer0 = b ∧ s.regs.flitBuffer1 = c)
      (hnum : s.regs.flitsSent.toNat = l.length ∧ s.regs.numFlits.toNat = l.length + t.length + 1)
      (hlt : l.length + t.length + 1 < 255)
  | drainTwo {ps qs rest : List (List Word)} {p l : List Word} {b c : Word} (hps : List.Forall₂ (Filtered dm boots) ps qs)
      (hpkts : pkts = ps ++ p :: rest) (hp : Filtered dm boots p (l ++ [b, c])) (hstate : s.regs.state = .drainTwo)
      (hsent : s.sent = qs.flatten ++ l) (hpending : s.pending = rest.flatten)
      (hbuffer : s.regs.flitBuffer0 = b ∧ s.regs.flitBuffer1 = c)
  | drainOne {ps qs rest : List (List Word)} {p l : List Word} {b : Word} (hps : List.Forall₂ (Filtered dm boots) ps qs)
      (hpkts : pkts = ps ++ p :: rest) (hp : Filtered dm boots p (l ++ [b])) (hstate : s.regs.state = .drainOne)
      (hsent : s.sent = qs.flatten ++ l) (hpending : s.pending = rest.flatten) (hbuffer : s.regs.flitBuffer0 = b)

theorem noc2Val_iff : s.noc2Val i = true ↔ i.noc2Val = true ∧ s.pending ≠ [] := by
  rw [noc2Val, Bool.and_eq_true, Bool.not_eq_true', List.isEmpty_eq_false_iff]

theorem noc2Data_eq {f : Word} {l : List Word} (h : s.noc2Val i = true) (hp : s.pending = f :: l) : s.noc2Data i = f := by
  rw [noc2Data, if_pos h, hp]
  rfl

/-- The cycle by what is offered, accepted and left in the registers. -/
theorem step_eq {v r : Bool} {d : Word} {next : FilterRegs} (h : s.comb dm i = ⟨v, d, r, next⟩) : s.step dm i =
    { regs := next
      pending := if s.noc2Val i && r then s.pending.tail else s.pending
      taken := if s.noc2Val i && r then s.taken ++ [s.noc2Data i] else s.taken
      sent := if v && i.xbarRdy then s.sent ++ [d] else s.sent } := by
  rw [step, h]

theorem forall₂_snoc {p q : List Word} (hps : List.Forall₂ (Filtered dm boots) ps qs) (h : Filtered dm boots p q) :
    List.Forall₂ (Filtered dm boots) (ps ++ [p]) (qs ++ [q]) :=
  List.rel_append hps (.cons h .nil)

theorem next_packet {f : Word} {l : List Word} (hwf : ∀ p ∈ rest, WellFormed p) (h : rest.flatten = f :: l) :
    ∃ t rest', rest = (f :: t) :: rest' ∧ l = t ++ rest'.flatten ∧ t.length = wordLength f := by
  cases rest with
  | nil => cases h
  | cons p rest =>
      have hp := (hwf p List.mem_cons_self).whole
      cases p with
      | nil => exact absurd hp id
      | cons a t =>
          rw [List.flatten_cons, List.cons_append, List.cons.injEq] at h
          obtain ⟨rfl, rfl⟩ := h
          exact ⟨t, rest, rfl, rfl, hp⟩

/-- The state after the first flit of a packet, if there is one. -/
def firstState (val : Bool) (data : Word) (xbarRdy : Bool) : FilterState :=
  if val && fieldLength data == 0 then (if xbarRdy then .idle else .onlyHeaderFlit) else if val then .oneFlit else .idle

theorem first_tracks {s' : PacketFilter} (hwf : ∀ p ∈ pkts, WellFormed p) (hps : List.Forall₂ (Filtered dm boots) ps qs)
    (hpkts : pkts = ps ++ rest) (hpending : s.pending = rest.flatten) (hreg : s.Regular boots i)
    (hat : s.AtHeader) (hsent : s'.sent = qs.flatten)
    (hnext : s'.pending = if s.noc2Val i then s.pending.tail else s.pending)
    (hregs : s'.regs = s.regs.first (s.noc2Val i) (s.noc2Data i) (firstState (s.noc2Val i) (s.noc2Data i) i.xbarRdy)) :
    Tracks dm boots pkts s' := by
  cases hv : s.noc2Val i with
  | false =>
      rw [hv] at hregs hnext
      exact .idle hps hpkts (by rw [hregs]; rfl) hsent (hnext.trans hpending)
  | true =>
      obtain ⟨f, l, hp⟩ := List.exists_cons_of_ne_nil (noc2Val_iff.mp hv).2
      have hdata := noc2Data_eq hv hp
      obtain ⟨t, rest', rfl, rfl, hlen⟩ := next_packet (fun p hp => hwf p (by rw [hpkts]; simp [hp])) (hpending.symm.trans hp)
      rw [hv, hp] at hnext
      have hsingle := hreg.single hat hv
      have hcounted := hreg.counted hat hv
      rw [hv, hdata] at hregs
      rw [hdata] at hsingle hcounted
      by_cases hz : fieldLength f = 0
      · have ht : t = [] := List.length_eq_zero_iff.mp (hlen.trans (congrArg BitVec.toNat hz))
        subst ht
        rw [hsingle hz] at hregs
        refine .onlyHeaderFlit hps hpkts ?_ hsent hnext ?_
        · rw [hregs]
          simp [FilterRegs.first, firstState, hz]
        · rw [hregs]
          rfl
      · cases t with
        | nil => exact absurd (BitVec.eq_of_toNat_eq hlen.symm) hz
        | cons a t =>
            have hlt := (fieldLength f).isLt
            have hne : (fieldLength f).toNat ≠ 255 := fun he => hcounted (BitVec.eq_of_toNat_eq he)
            have hnum : t.length + 1 = (fieldLength f).toNat := hlen
            refine .oneFlit hps hpkts ?_ hsent hnext ?_ ?_ ?_
            · rw [hregs]
              simp only [FilterRegs.first, firstState, Bool.true_and, beq_iff_eq, if_neg hz, if_true]
            · rw [hregs]
              rfl
            · rw [hregs, hnum]
              rfl
            · omega

theorem comb_idle (dm : DeviceMap) (i : FilterIn) (hstate : s.regs.state = .idle) : ∃ v d, s.comb dm i =
    ⟨v, d, true, s.regs.first (s.noc2Val i) (s.noc2Data i) (firstState (s.noc2Val i) (s.noc2Data i) i.xbarRdy)⟩ ∧
      (v = true → s.noc2Val i = true ∧ fieldLength (s.noc2Data i) = 0) := by
  rw [comb, filterComb, hstate, firstState]
  cases hb : s.noc2Val i && fieldLength (s.noc2Data i) == 0 with
  | true =>
      rw [Bool.and_eq_true, beq_iff_eq] at hb
      exact ⟨_, _, rfl, fun _ => hb⟩
  | false => exact ⟨_, _, rfl, nofun⟩

theorem comb_onlyHeaderFlit (hstate : s.regs.state = .onlyHeaderFlit) (hrdy : i.xbarRdy = true) : s.comb dm i =
    ⟨true, s.regs.flitBuffer0, true,
      s.regs.first (s.noc2Val i) (s.noc2Data i) (firstState (s.noc2Val i) (s.noc2Data i) i.xbarRdy)⟩ := by
  rw [comb, filterComb, hstate, firstState, hrdy]
  cases hb : s.noc2Val i && fieldLength (s.noc2Data i) == 0 with
  | true => rfl
  | false => rfl

theorem step_shift {next : FilterRegs} {f : Word} {l : List Word}
    (hcomb : s.comb dm i = ⟨true, s.regs.flitBuffer0, true, next⟩) (hrdy : i.xbarRdy = true) (hval : s.noc2Val i = true)
    (hp : s.pending = f :: l) : s.step dm i =
      { regs := next, pending := l, taken := s.taken ++ [f], sent := s.sent ++ [s.regs.flitBuffer0] } := by
  rw [step_eq hcomb, hval, hrdy, hp, noc2Data_eq hval hp]
  rfl

theorem step_drain {next : FilterRegs} (hcomb : s.comb dm i = ⟨true, s.regs.flitBuffer0, false, next⟩)
    (hrdy : i.xbarRdy = true) : s.step dm i =
      { regs := next, pending := s.pending, taken := s.taken, sent := s.sent ++ [s.regs.flitBuffer0] } := by
  rw [step_eq hcomb, Bool.and_false, hrdy]
  rfl

theorem step_wait {v : Bool} {d : Word} {next : FilterRegs} (hcomb : s.comb dm i = ⟨v, d, false, next⟩)
    (hrdy : (v && i.xbarRdy) = false) : s.step dm i = { s with regs := next } := by
  rw [step_eq hcomb, Bool.and_false, hrdy]
  rfl

theorem twoFlits_step {t : List Word} {b c : Word} (hps : List.Forall₂ (Filtered dm boots) ps qs)
    (hpkts : pkts = ps ++ p :: rest) (hp : Filtered dm boots p (b :: c :: t)) (hstate : s.regs.state = .twoFlits)
    (hsent : s.sent = qs.flatten) (hpending : s.pending = t ++ rest.flatten)
    (hbuffer : s.regs.flitBuffer0 = b ∧ s.regs.flitBuffer1 = c)
    (hnum : s.regs.numFlits.toNat = t.length + 1) (hlt : t.length + 1 < 255) : Tracks dm boots pkts (s.step dm i) := by
  obtain ⟨rfl, rfl⟩ := hbuffer
  by_cases hone : s.regs.numFlits = 1
  · have ht : t = [] := by
      rw [hone] at hnum
      exact List.length_eq_zero_iff.mp (Nat.succ.inj hnum.symm)
    subst ht
    cases hrdy : i.xbarRdy with
    | false =>
        have hcomb : s.comb dm i = ⟨true, s.regs.flitBuffer0, false, { s.regs with flitsSent := 0 }⟩ := by
          simp [comb, filterComb, hstate, hrdy, hone]
        rw [step_wait hcomb hrdy]
        exact .twoFlits hps hpkts hp hstate hsent hpending ⟨rfl, rfl⟩ hnum hlt
    | true =>
        have hcomb : s.comb dm i = ⟨true, s.regs.flitBuffer0, false, s.regs.shift .drainOne (s.noc2Data i) 1⟩ := by
          simp [comb, filterComb, hstate, hrdy, hone]
        rw [step_drain hcomb hrdy]
        exact .drainOne hps hpkts (l := [s.regs.flitBuffer0]) hp rfl (congrArg (· ++ _) hsent) hpending rfl
  · cases hgo : i.xbarRdy && s.noc2Val i with
    | false =>
        have hcomb : s.comb dm i = ⟨false, s.regs.flitBuffer0, false, { s.regs with flitsSent := 0 }⟩ := by
          simp only [comb, filterComb, hstate, beq_iff_eq, if_neg hone, hgo]
          rfl
        rw [step_wait hcomb rfl]
        exact .twoFlits hps hpkts hp hstate hsent hpending ⟨rfl, rfl⟩ hnum hlt
    | true =>
        obtain ⟨hrdy, hval⟩ := (Bool.and_eq_true _ _).mp hgo
        cases t with
        | nil => exact absurd (BitVec.eq_of_toNat_eq hnum) hone
        | cons f t =>
            have hcomb : s.comb dm i = ⟨true, s.regs.flitBuffer0, true,
                s.regs.shift (if s.regs.numFlits == 2 then .drainTwo else .sending) (s.noc2Data i) 1⟩ := by
              simp only [comb, filterComb, hstate, beq_iff_eq, if_neg hone, hgo, if_true]
            rw [step_shift hcomb hrdy hval hpending, noc2Data_eq hval hpending]
            by_cases htwo : s.regs.numFlits = 2
            · have ht : t = [] := by
                rw [htwo] at hnum
                exact List.length_eq_zero_iff.mp (Nat.succ.inj (Nat.succ.inj hnum.symm))
              subst ht
              rw [if_pos (beq_iff_eq.mpr htwo)]
              exact .drainTwo hps hpkts (l := [s.regs.flitBuffer0]) hp rfl (congrArg (· ++ _) hsent) rfl ⟨rfl, rfl⟩
            · have ht : t ≠ [] := by
                rintro rfl
                exact htwo (BitVec.eq_of_toNat_eq hnum)
              rw [if_neg (by simpa using htwo)]
              refine .sending hps hpkts (l := [s.regs.flitBuffer0]) hp ht rfl (congrArg (· ++ _) hsent) rfl ⟨rfl, rfl⟩
                ⟨rfl, ?_⟩ ?_
              · change s.regs.numFlits.toNat = _
                rw [hnum, List.length_cons, List.length_singleton]
                omega
              · rw [List.length_cons] at hlt
                rw [List.length_singleton]
                omega

theorem lt_numFlits {x y : BitVec 8} (hle : x.toNat ≤ y.toNat) (hlt : y.toNat < 255) : x < y + 1 := by
  rw [BitVec.lt_def, Counter.toNat_succ (by omega)]
  omega

theorem sending_step {l t : List Word} {b c : Word} (hps : List.Forall₂ (Filtered dm boots) ps qs)
    (hpkts : pkts = ps ++ p :: rest) (hp : Filtered dm boots p (l ++ b :: c :: t)) (ht : t ≠ [])
    (hstate : s.regs.state = .sending) (hsent : s.sent = qs.flatten ++ l) (hpending : s.pending = t ++ rest.flatten)
    (hbuffer : s.regs.flitBuffer0 = b ∧ s.regs.flitBuffer1 = c)
    (hnum : s.regs.flitsSent.toNat = l.length ∧ s.regs.numFlits.toNat = l.length + t.length + 1)
    (hlt : l.length + t.length + 1 < 255) : Tracks dm boots pkts (s.step dm i) := by
  obtain ⟨rfl, rfl⟩ := hbuffer
  obtain ⟨hflits, hnum⟩ := hnum
  have hless : s.regs.flitsSent < s.regs.numFlits + 1 := lt_numFlits (by omega) (by omega)
  cases hgo : i.xbarRdy && s.noc2Val i with
  | false =>
      have hcomb : s.comb dm i = ⟨false, s.regs.flitBuffer0, false, s.regs⟩ := by
        simp [comb, filterComb, hstate, hgo]
      rw [step_wait hcomb rfl]
      exact .sending hps hpkts hp ht hstate hsent hpending ⟨rfl, rfl⟩ ⟨hflits, hnum⟩ hlt
  | true =>
      obtain ⟨hrdy, hval⟩ := (Bool.and_eq_true _ _).mp hgo
      cases t with
      | nil => exact absurd rfl ht
      | cons f t =>
          have hcomb : s.comb dm i = ⟨true, s.regs.flitBuffer0, true,
              s.regs.shift (if s.regs.flitsSent == s.regs.numFlits - 2 then .drainTwo else .sending) (s.noc2Data i)
                (s.regs.flitsSent + 1)⟩ := by
            simp only [comb, filterComb, hstate, hgo, hless, decide_true, Bool.and_self, if_true]
          rw [step_shift hcomb hrdy hval hpending, noc2Data_eq hval hpending]
          rw [List.length_cons] at hnum hlt
          have hlast : s.regs.flitsSent = s.regs.numFlits - 2 ↔ t.length = 0 := by
            rw [← BitVec.toNat_inj, BitVec.toNat_sub, hflits, hnum]
            change _ = (2 ^ 8 - 2 + _) % 256 ↔ _
            omega
          have hsent' : s.sent ++ [s.regs.flitBuffer0] = qs.flatten ++ (l ++ [s.regs.flitBuffer0]) := by
            rw [hsent, List.append_assoc]
          by_cases hz : t.length = 0
          · obtain rfl : t = [] := List.length_eq_zero_iff.mp hz
            rw [if_pos (beq_iff_eq.mpr (hlast.mpr hz))]
            exact .drainTwo hps hpkts (by rwa [← List.append_cons]) rfl hsent' rfl ⟨rfl, rfl⟩
          · rw [if_neg (by rw [beq_iff_eq, hlast]; exact hz)]
            refine .sending hps hpkts (by rwa [← List.append_cons]) (fun he => hz (congrArg List.length he)) rfl hsent' rfl
              ⟨rfl, rfl⟩ ⟨?_, ?_⟩ ?_
            · change (s.regs.flitsSent + 1).toNat = _
              rw [Counter.toNat_succ (by omega), hflits, List.length_append, List.length_singleton]
            · change s.regs.numFlits.toNat = _
              rw [hnum, List.length_append, List.length_singleton]
              omega
            · rw [List.length_append, List.length_singleton]
              omega

theorem Tracks.step (hwf : ∀ p ∈ pkts, WellFormed p) (hreg : s.Regular boots i) (h : Tracks dm boots pkts s) :
    Tracks dm boots pkts (s.step dm i) := by
  cases h with
  | idle hps hpkts hstate hsent hpending =>
      obtain ⟨v, d, hcomb, hv⟩ := comb_idle dm i hstate
      rw [step_eq hcomb]
      refine first_tracks hwf hps hpkts hpending hreg (.inl hstate) ?_ (by rw [Bool.and_true]) rfl
      cases v with
      | false => exact hsent
      | true =>
          obtain ⟨hval, hz⟩ := hv rfl
          rw [hreg.single (.inl hstate) hval hz]
          exact hsent
  | onlyHeaderFlit hps hpkts hstate hsent hpending hbuffer =>
      cases hrdy : i.xbarRdy with
      | false =>
          have hcomb : s.comb dm i = ⟨true, s.regs.flitBuffer0, false, { s.regs with flitBuffer1 := 0, flitsSent := 0 }⟩ := by
            simp [comb, filterComb, hstate, hrdy]
          rw [step_wait hcomb hrdy]
          exact .onlyHeaderFlit hps hpkts hstate hsent hpending hbuffer
      | true =>
          rw [step_eq (comb_onlyHeaderFlit hstate hrdy)]
          refine first_tracks hwf (forall₂_snoc hps ⟨i.uartBootEn, hreg.boot, rfl⟩) (hpkts.trans (List.append_cons _ _ _))
            hpending hreg (.inr hstate) ?_ (by rw [Bool.and_true]) rfl
          rw [hrdy, hsent, hbuffer, List.flatten_append]
          rfl
  | oneFlit hps hpkts hstate hsent hpending hbuffer hnum hlt =>
      cases hval : s.noc2Val i with
      | false =>
          rw [step_eq (by rw [comb, filterComb, hstate]), hval]
          exact .oneFlit hps hpkts rfl hsent hpending hbuffer hnum hlt
      | true =>
          rw [step_eq (by rw [comb, filterComb, hstate]), hval, hpending, noc2Data_eq hval hpending]
          exact .twoFlits hps hpkts ⟨i.uartBootEn, hreg.boot, rfl⟩ rfl hsent rfl ⟨by rw [hbuffer]; rfl, rfl⟩ hnum hlt
  | twoFlits hps hpkts hp hstate hsent hpending hbuffer hnum hlt =>
      exact twoFlits_step hps hpkts hp hstate hsent hpending hbuffer hnum hlt
  | sending hps hpkts hp ht hstate hsent hpending hbuffer hnum hlt =>
      exact sending_step hps hpkts hp ht hstate hsent hpending hbuffer hnum hlt
  | drainTwo hps hpkts hp hstate hsent hpending hbuffer =>
      obtain ⟨rfl, rfl⟩ := hbuffer
      cases hrdy : i.xbarRdy with
      | false =>
          have hcomb : s.comb dm i = ⟨false, s.regs.flitBuffer0, false, s.regs⟩ := by
            simp [comb, filterComb, hstate, hrdy]
          rw [step_wait hcomb rfl]
          exact .drainTwo hps hpkts hp hstate hsent hpending ⟨rfl, rfl⟩
      | true =>
          have hcomb : s.comb dm i = ⟨true, s.regs.flitBuffer0, false, s.regs.shift .drainOne 0 (s.regs.flitsSent + 1)⟩ := by
            simp [comb, filterComb, hstate, hrdy]
          rw [step_drain hcomb hrdy]
          refine .drainOne hps hpkts (by rwa [← List.append_cons]) rfl ?_ hpending rfl
          rw [hsent, List.append_assoc]
  | drainOne hps hpkts hp hstate hsent hpending hbuffer =>
      obtain rfl := hbuffer
      cases hrdy : i.xbarRdy with
      | false =>
          have hcomb : s.comb dm i = ⟨false, s.regs.flitBuffer0, false, s.regs⟩ := by
            simp [comb, filterComb, hstate, hrdy]
          rw [step_wait hcomb rfl]
          exact .drainOne hps hpkts hp hstate hsent hpending rfl
      | true =>
          have hcomb : s.comb dm i = ⟨true, s.regs.flitBuffer0, false, { s.regs with
              state := .idle, flitBuffer0 := 0, flitBuffer1 := 0, numFlits := 0, flitsSent := 0 }⟩ := by
            simp [comb, filterComb, hstate, hrdy]
          rw [step_drain hcomb hrdy]
          refine .idle (forall₂_snoc hps hp) (hpkts.trans (List.append_cons _ _ _)) rfl ?_ hpending
          rw [hsent, List.flatten_append, List.flatten_singleton, List.append_assoc]

end PacketFilter

end OpenPiton.Chipset

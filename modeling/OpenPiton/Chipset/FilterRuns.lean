import OpenPiton.Chipset.PacketFilter

namespace OpenPiton.Chipset

open L15 (Word)
open Noc1 (fieldLength)
open Packets

namespace PacketFilter

variable {dm : DeviceMap} {s : PacketFilter} {i : FilterIn} {boots : Set Bool}
  {pkts ps qs rest : List (List Word)} {p : List Word}

theorem Filtered.length_eq {p q : List Word} (h : Filtered dm boots p q) : p.length = q.length := by
  obtain ⟨b, -, rfl⟩ := h
  exact (length_readdress dm b p).symm

theorem length_flatten_eq (h : List.Forall₂ (Filtered dm boots) ps qs) : ps.flatten.length = qs.flatten.length := by
  induction h with
  | nil => rfl
  | cons hp _ ih => rw [List.flatten_cons, List.flatten_cons, List.length_append, List.length_append, ih, Filtered.length_eq hp]

/-- The flits that are in the filter. -/
def held (s : PacketFilter) : Nat :=
  match s.regs.state with
  | .idle => 0
  | .onlyHeaderFlit | .oneFlit | .drainOne => 1
  | .twoFlits | .sending | .drainTwo => 2

theorem step_stream : (s.step dm i).taken ++ (s.step dm i).pending = s.taken ++ s.pending := by
  cases hacc : s.noc2Val i && (s.comb dm i).noc2Rdy with
  | false => simp only [step, hacc, Bool.false_eq_true, if_false]
  | true =>
      have hval := ((Bool.and_eq_true _ _).mp hacc).1
      obtain ⟨f, l, hp⟩ := List.exists_cons_of_ne_nil (noc2Val_iff.mp hval).2
      simp only [step, hacc, if_true, noc2Data_eq hval hp, hp, List.tail_cons, List.append_assoc, List.singleton_append]

/-- What has left is the beginning of the packets, readdressed, and what has not is held or still to come. -/
def Accounted (dm : DeviceMap) (boots : Set Bool) (pkts : List (List Word)) (s : PacketFilter) : Prop :=
  ∃ ps qs, ps <+: pkts ∧ List.Forall₂ (Filtered dm boots) ps qs ∧ s.sent <+: qs.flatten ∧
    s.sent.length + s.held + s.pending.length = pkts.flatten.length

theorem accounted_between (hps : List.Forall₂ (Filtered dm boots) ps qs) (hpkts : pkts = ps ++ rest)
    (hsent : s.sent = qs.flatten) (hlen : s.held + s.pending.length = rest.flatten.length) : Accounted dm boots pkts s := by
  refine ⟨ps, qs, hpkts ▸ List.prefix_append _ _, hps, hsent ▸ List.prefix_rfl, ?_⟩
  rw [hpkts, List.flatten_append, List.length_append, hsent, length_flatten_eq hps, Nat.add_assoc, hlen]

theorem accounted_within {l m t : List Word} (hps : List.Forall₂ (Filtered dm boots) ps qs) (hpkts : pkts = ps ++ p :: rest)
    (hp : Filtered dm boots p (l ++ m)) (hsent : s.sent = qs.flatten ++ l) (hpending : s.pending = t ++ rest.flatten)
    (hlen : m.length = s.held + t.length) : Accounted dm boots pkts s := by
  refine ⟨ps ++ [p], qs ++ [l ++ m], ?_, forall₂_snoc hps hp, ?_, ?_⟩
  · exact ⟨rest, by rw [hpkts, ← List.append_cons]⟩
  · rw [hsent, List.flatten_append, List.flatten_singleton, ← List.append_assoc]
    exact List.prefix_append _ _
  · have hplen := Filtered.length_eq hp
    rw [List.length_append] at hplen
    rw [hpkts, hsent, hpending, List.flatten_append, List.flatten_cons]
    simp only [List.length_append]
    rw [length_flatten_eq hps, hplen, hlen]
    omega

theorem Tracks.accounted (h : Tracks dm boots pkts s) : Accounted dm boots pkts s := by
  cases h with
  | idle hps hpkts hstate hsent hpending =>
      refine accounted_between hps hpkts hsent ?_
      rw [held, hstate, hpending]
      exact Nat.zero_add _
  | onlyHeaderFlit hps hpkts hstate hsent hpending =>
      refine accounted_between hps hpkts hsent ?_
      rw [held, hstate, hpending]
      exact Nat.add_comm _ _
  | oneFlit hps hpkts hstate hsent hpending =>
      refine accounted_between hps hpkts hsent ?_
      rw [held, hstate, hpending]
      exact Nat.add_comm _ _
  | twoFlits hps hpkts hp hstate hsent hpending =>
      refine accounted_within (l := []) hps hpkts hp (hsent.trans (List.append_nil _).symm) hpending ?_
      rw [held, hstate]
      exact (Nat.add_comm 2 _).symm
  | sending hps hpkts hp ht hstate hsent hpending =>
      refine accounted_within hps hpkts hp hsent hpending ?_
      rw [held, hstate]
      exact (Nat.add_comm 2 _).symm
  | drainTwo hps hpkts hp hstate hsent hpending =>
      refine accounted_within (t := []) hps hpkts hp hsent hpending ?_
      rw [held, hstate]
      rfl
  | drainOne hps hpkts hp hstate hsent hpending =>
      refine accounted_within (t := []) hps hpkts hp hsent hpending ?_
      rw [held, hstate]
      rfl

/-- How far the filter is from offering a flit. -/
def rank (s : PacketFilter) : Nat :=
  match s.regs.state with
  | .idle => 0
  | .oneFlit => 1
  | _ => 2

/-- All packets have left. -/
def Done (s : PacketFilter) : Prop := s.regs.state = .idle ∧ s.pending = []

theorem Done.step (h : s.Done) : (s.step dm i).Done := by
  obtain ⟨hstate, hp⟩ := h
  have hval : s.noc2Val i = false := by simp [noc2Val, hp]
  obtain ⟨v, d, hcomb, -⟩ := comb_idle dm i hstate
  rw [step_eq hcomb, hval]
  exact ⟨rfl, hp⟩

theorem Done.run (h : s.Done) (is : List FilterIn) : (Machine.run (PacketFilter.step dm) s is).Done := by
  induction is generalizing s with
  | nil => exact h
  | cons i is ih => exact ih h.step

theorem xbarVal_eq (hrdy : i.xbarRdy = true) (hidle : s.regs.state ≠ .idle) (hone : s.regs.state ≠ .oneFlit)
    (htwo : s.regs.state = .twoFlits → s.regs.numFlits ≠ 1 → s.noc2Val i = true)
    (hsending : s.regs.state = .sending → s.noc2Val i = true ∧ s.regs.flitsSent < s.regs.numFlits + 1) :
    (s.comb dm i).xbarVal = true := by
  rw [comb, filterComb, hrdy]
  cases hstate : s.regs.state with
  | idle => exact absurd hstate hidle
  | oneFlit => exact absurd hstate hone
  | onlyHeaderFlit =>
      simp only [if_true]
      split <;> rfl
  | twoFlits =>
      by_cases hnum : s.regs.numFlits = 1
      · simp [hnum]
      · simp only [htwo hstate hnum, beq_iff_eq, if_neg hnum, Bool.and_self, if_true]
  | sending =>
      obtain ⟨hval, hless⟩ := hsending hstate
      simp only [hval, hless, decide_true, Bool.and_self, if_true]
  | drainTwo => rfl
  | drainOne => rfl

theorem rank_le (s : PacketFilter) : s.rank ≤ 2 := by
  unfold rank
  split <;> decide

theorem Tracks.progress (h : Tracks dm boots pkts s) (hreg : s.Regular boots i)
    (hval : i.noc2Val = true) (hrdy : i.xbarRdy = true) :
    s.Done ∨ 3 * s.sent.length + s.rank + 1 ≤ 3 * (s.step dm i).sent.length + (s.step dm i).rank := by
  have hgo : (s.comb dm i).xbarVal = true →
      3 * s.sent.length + s.rank + 1 ≤ 3 * (s.step dm i).sent.length + (s.step dm i).rank := by
    intro hv
    have hrank := s.rank_le
    have hsent : (s.step dm i).sent = s.sent ++ [(s.comb dm i).xbarData] := by
      rw [PacketFilter.step, hv, hrdy]
      rfl
    rw [hsent, List.length_append, List.length_singleton]
    omega
  have hoffer : ∀ {t : List Word} {rest : List (List Word)}, t ≠ [] → s.pending = t ++ rest.flatten → s.noc2Val i = true :=
    fun ht hp => noc2Val_iff.mpr ⟨hval, by simp [hp, ht]⟩
  cases h with
  | idle hps hpkts hstate hsent hpending =>
      by_cases hp : s.pending = []
      · exact .inl ⟨hstate, hp⟩
      · right
        have hv := noc2Val_iff.mpr ⟨hval, hp⟩
        have hne : fieldLength (s.noc2Data i) ≠ 0 := fun hz => by
          rw [hreg.single (.inl hstate) hv hz] at hrdy
          cases hrdy
        obtain ⟨v, d, hcomb, hsingle⟩ := comb_idle dm i hstate
        have hfirst : firstState (s.noc2Val i) (s.noc2Data i) i.xbarRdy = .oneFlit := by
          simp only [firstState, hv, Bool.true_and, beq_iff_eq, if_neg hne, if_true]
        cases v with
        | true => exact absurd (hsingle rfl).2 hne
        | false =>
            rw [step_eq hcomb, rank, rank, hstate]
            simp [FilterRegs.first, hfirst]
  | onlyHeaderFlit hps hpkts hstate =>
      exact .inr (hgo (xbarVal_eq hrdy (by simp [hstate]) (by simp [hstate]) (by simp [hstate]) (by simp [hstate])))
  | oneFlit hps hpkts hstate hsent hpending =>
      right
      have hv := hoffer (List.cons_ne_nil _ _) hpending
      rw [step_eq (by rw [comb, filterComb, hstate]), rank, rank, hstate, hv]
      simp
  | twoFlits hps hpkts hp hstate hsent hpending hbuffer hnum =>
      refine .inr (hgo (xbarVal_eq hrdy (by simp [hstate]) (by simp [hstate]) (fun _ hne => ?_) (by simp [hstate])))
      refine hoffer ?_ hpending
      rintro rfl
      exact hne (BitVec.eq_of_toNat_eq hnum)
  | sending hps hpkts hp ht hstate hsent hpending hbuffer hnum hlt =>
      exact .inr (hgo (xbarVal_eq hrdy (by simp [hstate]) (by simp [hstate]) (by simp [hstate])
        fun _ => ⟨hoffer ht hpending, lt_numFlits (by omega) (by omega)⟩))
  | drainTwo hps hpkts hp hstate =>
      exact .inr (hgo (xbarVal_eq hrdy (by simp [hstate]) (by simp [hstate]) (by simp [hstate]) (by simp [hstate])))
  | drainOne hps hpkts hp hstate =>
      exact .inr (hgo (xbarVal_eq hrdy (by simp [hstate]) (by simp [hstate]) (by simp [hstate]) (by simp [hstate])))

theorem Tracks.run_progress (hwf : ∀ p ∈ pkts, WellFormed p) {is : List FilterIn} (h : Tracks dm boots pkts s)
    (hmeets : Machine.Meets (PacketFilter.step dm) (Regular boots) s is) (hall : ∀ i ∈ is, i.noc2Val = true ∧ i.xbarRdy = true) :
    (Machine.run (PacketFilter.step dm) s is).Done ∨
      3 * s.sent.length + s.rank + is.length ≤
        3 * (Machine.run (PacketFilter.step dm) s is).sent.length + (Machine.run (PacketFilter.step dm) s is).rank := by
  induction is generalizing s with
  | nil => exact .inr (Nat.le_refl _)
  | cons i is ih =>
      obtain ⟨hreg, hmeets⟩ := hmeets
      obtain ⟨hval, hrdy⟩ := hall i List.mem_cons_self
      have hrun := ih (h.step hwf hreg) hmeets fun j hj => hall j (List.mem_cons_of_mem i hj)
      rcases h.progress hreg hval hrdy with hdone | hstep
      · exact .inl (hdone.run (i :: is))
      · refine hrun.imp_right fun hle => ?_
        change _ ≤ 3 * (Machine.run (PacketFilter.step dm) (s.step dm i) is).sent.length +
          (Machine.run (PacketFilter.step dm) (s.step dm i) is).rank
        rw [List.length_cons]
        omega

end PacketFilter

end OpenPiton.Chipset

import OpenPiton.Chipset.WidthAdaptor
import OpenPiton.Chipset.FilterRuns

namespace OpenPiton.Chipset

open L15 (Word)
open Packets

/-- `packet_filter` for channels of more than 64 bits, with the flits that are still to come, were accepted and have
left; `flit_type` and `remain` are those of `tail_hdr_detect`. -/
structure WideFilter where
  detect : TailHdrDetect := {}
  invalidAccess : Bool := false
  pending : List Flit := []
  taken : List Flit := []
  sent : List Flit := []

namespace WideFilter

variable (dm : DeviceMap) (outSize : Nat) (s : WideFilter) (i : FilterIn)

def noc2Val : Bool := i.noc2Val && !s.pending.isEmpty

def noc2Data : Flit := s.pending.headD []

def hdr0 : Word := s.noc2Data.headD 0

def hdr1 : Word := s.noc2Data.getD 1 0

def xbarData : Flit :=
  match s.detect.flitType with
  | .header => readdressedFlit0 dm i.uartBootEn s.hdr0 s.hdr1 :: s.noc2Data.tail
  | .body => s.noc2Data

def step : WideFilter where
  detect := s.detect.step outSize (msgLength s.noc2Data) (s.noc2Val i && i.xbarRdy)
  invalidAccess := s.invalidAccess || (s.noc2Val i && i.xbarRdy && s.detect.flitType == .header &&
    Chipset.invalidAccess dm i.uartBootEn s.hdr0 s.hdr1)
  pending := if s.noc2Val i && i.xbarRdy then s.pending.tail else s.pending
  taken := if s.noc2Val i && i.xbarRdy then s.taken ++ [s.noc2Data] else s.taken
  sent := if s.noc2Val i && i.xbarRdy then s.sent ++ [s.xbarData dm i] else s.sent

/-- The flits of a packet as they leave: those of the readdressed packet, with the same words behind it. -/
def FilteredFlits (dm : DeviceMap) (boots : Set Bool) (e : List Word × List Flit) (gs : List Flit) : Prop :=
  ∃ b ∈ boots, ∃ pad, e.2.flatten = e.1 ++ pad ∧ gs.flatten = readdress dm b e.1 ++ pad ∧
    gs.map List.length = e.2.map List.length

/-- A packet and its flits. -/
def PackedWell (outSize : Nat) (e : List Word × List Flit) : Prop := WellFormed e.1 ∧ Packed wordLength outSize e.1 e.2

variable {dm outSize s i} {boots : Set Bool} {pkts ps rest : List (List Word × List Flit)} {gss : List (List Flit)}
  {e : List Word × List Flit}

theorem readdress_append {b : Bool} {p pad : List Word} (h : WellFormed p) :
    readdress dm b (p ++ pad) = readdress dm b p ++ pad := by
  match p with
  | [] => exact absurd h.whole id
  | [a] =>
      have hmem : isMemReq a = false := by
        by_contra hm
        have := h.addressed (by simpa using hm)
        simp at this
      cases pad with
      | nil => rfl
      | cons c pad =>
          change readdressedFlit0 dm b a c :: c :: pad = a :: c :: pad
          rw [readdressedFlit0, hmem]
          rfl
  | _ :: _ :: _ => rfl

theorem filteredFlits_head (dm : DeviceMap) {b : Bool} {p : List Word} {f : Flit} {fs : List Flit} (hb : b ∈ boots)
    (h : PackedWell outSize (p, f :: fs)) (hsize : 2 ≤ outSize) :
    FilteredFlits dm boots (p, f :: fs) (readdress dm b f :: fs) := by
  obtain ⟨pad, hpad, -⟩ := h.2.padded
  refine ⟨b, hb, pad, hpad, ?_, ?_⟩
  · have hf : f.length = outSize := h.2.length_eq f (by simp)
    rw [← readdress_append h.1, ← hpad]
    match f with
    | [] | [_] => simp at hf; omega
    | _ :: _ :: _ => rfl
  · rw [List.map_cons, List.map_cons, length_readdress]

/-- The filter in a run over `pkts`: `ps` have left as `gss`, and of the next packet the first flits. -/
inductive Tracks (dm : DeviceMap) (outSize : Nat) (boots : Set Bool) (pkts : List (List Word × List Flit)) (s : WideFilter) : Prop
  | between {ps rest : List (List Word × List Flit)} {gss : List (List Flit)} (hps : List.Forall₂ (FilteredFlits dm boots) ps gss)
      (hpkts : pkts = ps ++ rest) (hdetect : s.detect.Detects []) (hsent : s.sent = gss.flatten)
      (hpending : s.pending = (rest.map Prod.snd).flatten)
  | within {ps rest : List (List Word × List Flit)} {gss : List (List Flit)} {p : List Word} {l r m : List Flit}
      (hps : List.Forall₂ (FilteredFlits dm boots) ps gss) (hpkts : pkts = ps ++ (p, l ++ r) :: rest)
      (hp : FilteredFlits dm boots (p, l ++ r) (m ++ r)) (hl : l ≠ []) (hr : r ≠ []) (hdetect : s.detect.Detects l.flatten)
      (hsent : s.sent = gss.flatten ++ m) (hpending : s.pending = r ++ (rest.map Prod.snd).flatten)

theorem noc2Val_eq (h : s.noc2Val i = true) : ∃ f l, s.pending = f :: l := by
  rw [noc2Val, Bool.and_eq_true, Bool.not_eq_true', List.isEmpty_eq_false_iff] at h
  exact List.exists_cons_of_ne_nil h.2

theorem step_stall (h : (s.noc2Val i && i.xbarRdy) = false) : s.step dm outSize i = s := by
  rw [step, h]
  simp [TailHdrDetect.step]

theorem step_fire (dm : DeviceMap) (outSize : Nat) {f : Flit} {l : List Flit} (h : (s.noc2Val i && i.xbarRdy) = true)
    (hp : s.pending = f :: l) :
    ∃ inv, s.step dm outSize i =
      { detect := s.detect.step outSize (msgLength f) true, invalidAccess := inv, pending := l, taken := s.taken ++ [f]
        sent := s.sent ++ [s.xbarData dm i] } := by
  have hdata : s.noc2Data = f := by rw [noc2Data, hp]; rfl
  rw [step, h, hdata, hp]
  exact ⟨_, rfl⟩

theorem xbarData_header {f : Flit} {l : List Flit} (hp : s.pending = f :: l) (hf : 2 ≤ f.length)
    (hd : s.detect.flitType = .header) : s.xbarData dm i = readdress dm i.uartBootEn f := by
  rw [xbarData, hd, hdr0, hdr1, noc2Data, hp]
  match f with
  | [] | [_] => simp at hf
  | _ :: _ :: _ => rfl

theorem xbarData_body {f : Flit} {l : List Flit} (hp : s.pending = f :: l) (hd : s.detect.flitType ≠ .header) :
    s.xbarData dm i = f := by
  rw [xbarData, noc2Data, hp]
  cases ht : s.detect.flitType with
  | header => exact absurd ht hd
  | body => rfl

theorem next_packet {f : Flit} {l : List Flit} (hwf : ∀ e ∈ rest, PackedWell outSize e)
    (h : (rest.map Prod.snd).flatten = f :: l) :
    ∃ p t rest', rest = (p, f :: t) :: rest' ∧ l = t ++ (rest'.map Prod.snd).flatten := by
  cases rest with
  | nil => cases h
  | cons e rest =>
      obtain ⟨p, fs⟩ := e
      have hp := (hwf _ List.mem_cons_self).2
      cases fs with
      | nil =>
          obtain ⟨pad, hpad, -⟩ := hp.padded
          exact absurd (List.append_eq_nil_iff.mp hpad.symm).1 hp.whole.ne_nil
      | cons g t =>
          rw [List.map_cons, List.flatten_cons, List.cons_append, List.cons.injEq] at h
          obtain ⟨rfl, rfl⟩ := h
          exact ⟨p, t, rest, rfl, rfl⟩

theorem Tracks.step (hsize : 2 ≤ outSize) (hwf : ∀ e ∈ pkts, PackedWell outSize e) (hboot : i.uartBootEn ∈ boots)
    (h : Tracks dm outSize boots pkts s) : Tracks dm outSize boots pkts (s.step dm outSize i) := by
  cases hfire : s.noc2Val i && i.xbarRdy with
  | false => rwa [step_stall hfire]
  | true =>
      obtain ⟨f, l', hp⟩ := noc2Val_eq ((Bool.and_eq_true _ _).mp hfire).1
      obtain ⟨inv, hstep⟩ := step_fire dm outSize hfire hp
      rw [hstep]
      cases h with
      | between hps hpkts hdetect hsent hpending =>
          obtain ⟨p, t, rest', rfl, rfl⟩ := next_packet (fun e he => hwf e (by rw [hpkts]; simp [he])) (hpending.symm.trans hp)
          have hwell := hwf (p, f :: t) (by rw [hpkts]; simp)
          have hflen : f.length = outSize := hwell.2.length_eq f (by simp)
          rw [xbarData_header hp (by omega) (hdetect.header_iff.mpr rfl)]
          have hout := filteredFlits_head dm hboot hwell hsize
          have hdetect' := hdetect.step hflen (by omega) []
          have hbegun : Begun wordLength [f].flatten ↔ [f] = [] ∨ t ≠ [] := Packed.begun_iff hwell.2
          rw [List.flatten_singleton] at hbegun
          cases t with
          | nil =>
              rw [cutFlit, List.nil_append, if_neg (by simp [hbegun])] at hdetect'
              refine .between (List.rel_append hps (.cons hout .nil)) (hpkts.trans (List.append_cons _ _ _)) hdetect' ?_ rfl
              rw [hsent, List.flatten_append, List.flatten_singleton]
          | cons g t =>
              rw [cutFlit, List.nil_append, if_pos (by simp [hbegun])] at hdetect'
              refine .within (l := [f]) (m := [_]) hps hpkts hout (by simp) (by simp) ?_ (by rw [hsent]) rfl
              rwa [List.flatten_singleton]
      | @within ps rest gss p l r m hps hpkts hpair hl hr hdetect hsent hpending =>
          obtain ⟨g, r, rfl⟩ := List.exists_cons_of_ne_nil hr
          rw [hpending, List.cons_append, List.cons.injEq] at hp
          obtain ⟨rfl, rfl⟩ := hp
          have hwell := hwf (p, l ++ g :: r) (by rw [hpkts]; simp)
          have hglen : g.length = outSize := hwell.2.length_eq g (by simp)
          have hne : l.flatten ≠ [] := by
            obtain ⟨a, l, rfl⟩ := List.exists_cons_of_ne_nil hl
            have ha : a.length = outSize := hwell.2.length_eq a (by simp)
            exact List.append_ne_nil_of_left_ne_nil (List.ne_nil_of_length_pos (by omega)) _
          rw [xbarData_body hpending (mt hdetect.header_iff.mp hne)]
          have hdetect' := hdetect.step hglen (by omega) []
          rw [List.append_cons l] at hwell hpair hpkts
          have hbegun := Packed.begun_iff hwell.2
          rw [List.flatten_append, List.flatten_singleton] at hbegun
          rw [List.append_cons m] at hpair
          have hsent' : s.sent ++ [g] = gss.flatten ++ (m ++ [g]) := by rw [hsent, List.append_assoc]
          cases r with
          | nil =>
              rw [cutFlit, if_neg (by simp [hbegun])] at hdetect'
              rw [List.append_nil] at hpair hpkts
              rw [List.append_nil] at hpair
              refine .between (List.rel_append hps (.cons hpair .nil)) (hpkts.trans (List.append_cons _ _ _)) hdetect' ?_ rfl
              rw [hsent', List.flatten_append, List.flatten_singleton]
          | cons f r =>
              rw [cutFlit, if_pos (by simp [hbegun])] at hdetect'
              refine .within hps hpkts hpair (by simp) (by simp) ?_ hsent' rfl
              rwa [List.flatten_append, List.flatten_singleton]

theorem Tracks.sent_prefix (h : Tracks dm outSize boots pkts s) : ∃ ps gss, ps <+: pkts ∧
    List.Forall₂ (FilteredFlits dm boots) ps gss ∧ s.sent <+: gss.flatten := by
  cases h with
  | between hps hpkts hdetect hsent => exact ⟨_, _, hpkts ▸ List.prefix_append _ _, hps, hsent ▸ List.prefix_rfl⟩
  | @within ps rest gss p l r m hps hpkts hpair hl hr hdetect hsent =>
      refine ⟨ps ++ [(p, l ++ r)], gss ++ [m ++ r], ⟨rest, ?_⟩, List.rel_append hps (.cons hpair .nil), ?_⟩
      · exact (List.append_cons _ _ _).symm.trans hpkts.symm
      · rw [hsent, List.flatten_append, List.flatten_singleton, ← List.append_assoc]
        exact List.prefix_append _ _

theorem step_stream : (s.step dm outSize i).taken ++ (s.step dm outSize i).pending = s.taken ++ s.pending := by
  cases hfire : s.noc2Val i && i.xbarRdy with
  | false => rw [step_stall hfire]
  | true =>
      obtain ⟨f, l, hp⟩ := noc2Val_eq ((Bool.and_eq_true _ _).mp hfire).1
      obtain ⟨inv, hstep⟩ := step_fire dm outSize hfire hp
      rw [hstep, hp]
      simp

theorem step_lengths (h : s.sent.length = s.taken.length) :
    (s.step dm outSize i).sent.length = (s.step dm outSize i).taken.length := by
  rw [step]
  dsimp only
  split
  · rw [List.length_append, List.length_append, h]
    rfl
  · exact h

theorem run_empty (h : s.pending = []) (is : List FilterIn) : Machine.run (step dm outSize) s is = s := by
  induction is with
  | nil => rfl
  | cons i is ih =>
      change Machine.run (step dm outSize) (s.step dm outSize i) is = s
      rw [step_stall (by simp [noc2Val, h]), ih]

theorem run_progress {is : List FilterIn} (hall : ∀ i ∈ is, i.noc2Val = true ∧ i.xbarRdy = true) :
    (Machine.run (step dm outSize) s is).pending = [] ∨
      s.taken.length + is.length ≤ (Machine.run (step dm outSize) s is).taken.length := by
  induction is generalizing s with
  | nil => exact .inr (Nat.le_refl _)
  | cons i is ih =>
      obtain ⟨hval, hrdy⟩ := hall i List.mem_cons_self
      cases hp : s.pending with
      | nil => exact .inl (by rw [run_empty hp, hp])
      | cons f l =>
          have hfire : (s.noc2Val i && i.xbarRdy) = true := by simp [noc2Val, hval, hrdy, hp]
          obtain ⟨inv, hstep⟩ := step_fire dm outSize hfire hp
          have hrun := ih (s := s.step dm outSize i) fun j hj => hall j (List.mem_cons_of_mem i hj)
          have hlen : (s.step dm outSize i).taken.length = s.taken.length + 1 := by
            rw [hstep, List.length_append, List.length_singleton]
          refine hrun.imp_right fun hle => ?_
          change _ ≤ (Machine.run (step dm outSize) (s.step dm outSize i) is).taken.length
          rw [List.length_cons]
          omega

/-- What has left is the beginning of the packets' flits, those of the readdressed packets, each flit in the cycle in
which it is accepted. -/
def Forwards (dm : DeviceMap) (outSize : Nat) (boots : Set Bool) (pkts : List (List Word × List Flit)) (s : WideFilter) : Prop :=
  (∃ ps gss, ps <+: pkts ∧ List.Forall₂ (FilteredFlits dm boots) ps gss ∧ s.sent <+: gss.flatten) ∧
    s.taken ++ s.pending = (pkts.map Prod.snd).flatten ∧ s.sent.length = s.taken.length ∧
    ∀ is : List FilterIn, (∀ i ∈ is, i.noc2Val = true ∧ i.xbarRdy = true) →
      (Machine.run (step dm outSize) s is).pending = [] ∨
        s.sent.length + is.length ≤ (Machine.run (step dm outSize) s is).sent.length

theorem forwards (hsize : 2 ≤ outSize) (hwf : ∀ e ∈ pkts, PackedWell outSize e)
    (h : Machine.Reaches (· = { pending := (pkts.map Prod.snd).flatten }) (step dm outSize) (fun _ i => i.uartBootEn ∈ boots) s) :
    s.Forwards dm outSize boots pkts := by
  have htracks : Tracks dm outSize boots pkts s := by
    refine h.invariant (P := Tracks dm outSize boots pkts) ?_ fun _ _ ht hboot => ht.step hsize hwf hboot
    rintro _ rfl
    exact .between .nil (List.nil_append pkts).symm rfl rfl rfl
  have hstream : s.taken ++ s.pending = (pkts.map Prod.snd).flatten := by
    refine h.invariant (P := fun s => s.taken ++ s.pending = (pkts.map Prod.snd).flatten) ?_ fun _ _ hs _ => step_stream.trans hs
    rintro _ rfl
    rfl
  have hlen : ∀ {s}, Machine.Reaches (· = { pending := (pkts.map Prod.snd).flatten }) (step dm outSize) (fun _ _ => True) s →
      s.sent.length = s.taken.length := by
    intro s hs
    refine hs.invariant (P := fun s => s.sent.length = s.taken.length) ?_ fun _ _ hs _ => step_lengths hs
    rintro _ rfl
    rfl
  have hany : Machine.Reaches _ (step dm outSize) (fun _ _ => True) s := h.mono fun _ _ _ => trivial
  refine ⟨htracks.sent_prefix, hstream, hlen hany, fun is hall => ?_⟩
  rw [hlen hany, hlen (hany.run (Machine.meets_true _ _))]
  exact run_progress hall

end WideFilter

namespace PacketFilter

variable {dm : DeviceMap} {boots : Set Bool} {pkts : List (List Word)} {s : PacketFilter}

/-- What has left is the beginning of the readdressed packets, the flits accepted since are held, and with flits to accept
and a ready crossbar one leaves in three cycles, until all have. -/
def Forwards (dm : DeviceMap) (boots : Set Bool) (pkts : List (List Word)) (s : PacketFilter) : Prop :=
  (∃ ps qs, ps <+: pkts ∧ List.Forall₂ (Filtered dm boots) ps qs ∧ s.sent <+: qs.flatten) ∧
    s.taken ++ s.pending = pkts.flatten ∧ s.sent.length + s.held = s.taken.length ∧
    ∀ is : List FilterIn, Machine.Meets (step dm) (Regular boots) s is → (∀ i ∈ is, i.noc2Val = true ∧ i.xbarRdy = true) →
      (Machine.run (step dm) s is).sent.length = pkts.flatten.length ∨
        3 * s.sent.length + is.length ≤ 3 * (Machine.run (step dm) s is).sent.length + 2

theorem forwards (hwf : ∀ p ∈ pkts, WellFormed p)
    (h : Machine.Reaches (· = { pending := pkts.flatten }) (step dm) (Regular boots) s) : s.Forwards dm boots pkts := by
  have htracks : ∀ {s}, Machine.Reaches (· = { pending := pkts.flatten }) (step dm) (Regular boots) s →
      Tracks dm boots pkts s := by
    intro s h
    refine h.invariant (P := Tracks dm boots pkts) ?_ fun _ _ ht hreg => ht.step hwf hreg
    rintro _ rfl
    exact .idle .nil (List.nil_append pkts).symm rfl rfl rfl
  have hstream : s.taken ++ s.pending = pkts.flatten := by
    refine h.invariant (P := fun s => s.taken ++ s.pending = pkts.flatten) ?_ fun _ _ hs _ => step_stream.trans hs
    rintro _ rfl
    rfl
  obtain ⟨ps, qs, hps, hall, hsent, hcount⟩ := (htracks h).accounted
  refine ⟨⟨ps, qs, hps, hall, hsent⟩, hstream, ?_, fun is hmeets hgo => ?_⟩
  · rw [← hstream, List.length_append] at hcount
    omega
  · rcases (htracks h).run_progress hwf hmeets hgo with hdone | hle
    · left
      obtain ⟨_, _, -, -, -, hcount⟩ := (htracks (h.run hmeets)).accounted
      rwa [held, hdone.1, hdone.2] at hcount
    · right
      have := (Machine.run (step dm) s is).rank_le
      omega

theorem sending_stuck (hstate : s.regs.state = .sending) (hnum : s.regs.numFlits = 255) (is : List FilterIn) :
    Machine.run (step dm) s is = s := by
  induction is with
  | nil => rfl
  | cons i is ih =>
      have hcomb : s.comb dm i = ⟨false, s.regs.flitBuffer0, false, s.regs⟩ := by
        have hless : ¬ s.regs.flitsSent < 255 + 1 := BitVec.not_lt_zero
        simp only [comb, filterComb, hstate, hnum, hless, decide_false, Bool.and_false, Bool.false_eq_true, if_false]
      change Machine.run (step dm) (s.step dm i) is = s
      rw [step_wait hcomb rfl]
      exact ih

end PacketFilter

/-- Both filters forward the packets of every regular run. -/
theorem filters_forward {dm : DeviceMap} {boots : Set Bool} {pkts : List (List Word)} (hwf : ∀ p ∈ pkts, WellFormed p)
    {s : PacketFilter}
    (hs : Machine.Reaches (· = { pending := pkts.flatten }) (PacketFilter.step dm) (PacketFilter.Regular boots) s)
    {outSize : Nat} (hsize : 2 ≤ outSize) {wpkts : List (List Word × List Flit)}
    (hwide : ∀ e ∈ wpkts, WideFilter.PackedWell outSize e) {w : WideFilter}
    (hw : Machine.Reaches (· = { pending := (wpkts.map Prod.snd).flatten }) (WideFilter.step dm outSize)
      (fun _ i => i.uartBootEn ∈ boots) w) :
    s.Forwards dm boots pkts ∧ w.Forwards dm outSize boots wpkts :=
  ⟨PacketFilter.forwards hwf hs, WideFilter.forwards hsize hwide hw⟩

/-- The memory at port 1 and a device at port 2. -/
def twoDevices : DeviceMap :=
  ⟨[⟨true, false, 0, 0x40000000, 1, false⟩, ⟨false, false, 0x9f00000000, 0x10, 2, false⟩], false⟩

/-- A packet of one flit, and a load of the device. -/
def singleAndLoad : List (List Word) := [[8], [0x44c000, 0x9f000000080000]]

theorem singleAndLoad_wellFormed : ∀ p ∈ singleAndLoad, WellFormed p := by
  intro p hp
  rcases List.mem_pair.mp hp with rfl | rfl
  · exact ⟨by decide, by decide⟩
  · exact ⟨by decide, by decide⟩

/-- The crossbar waits for the packet of one flit. -/
def waiting : List FilterIn :=
  [⟨true, false, false, 0⟩, ⟨false, true, false, 0⟩, ⟨true, true, false, 0⟩, ⟨true, true, false, 0⟩, ⟨false, true, false, 0⟩,
    ⟨false, true, false, 0⟩]

/-- The packet of one flit in a flit of 128 bits, with another word behind it. -/
def singleWide : List (List Word × List Flit) := [([8], [[8, 5]])]

theorem singleWide_packed : ∀ e ∈ singleWide, WideFilter.PackedWell 2 e := by
  intro e he
  obtain rfl := List.mem_singleton.mp he
  exact ⟨⟨by decide, by decide⟩, by decide, by decide, [5], by decide⟩

theorem filters_forward_waiting :
    let s := Machine.run (PacketFilter.step twoDevices) { pending := singleAndLoad.flatten } waiting
    let w := Machine.run (WideFilter.step twoDevices 2) { pending := (singleWide.map Prod.snd).flatten } [⟨true, true, false, 0⟩]
    (s.sent = [8, 0x8000044c000, 0x9f000000080000] ∧ w.sent = [[8, 5]]) ∧
      s.Forwards twoDevices Set.univ singleAndLoad ∧ w.Forwards twoDevices 2 Set.univ singleWide := by
  have hstart : Machine.Reaches (· = { pending := singleAndLoad.flatten }) (PacketFilter.step twoDevices)
    (PacketFilter.Regular Set.univ) { pending := singleAndLoad.flatten } := .start rfl
  have hrun : Machine.Reaches (· = { pending := singleAndLoad.flatten }) (PacketFilter.step twoDevices)
      (PacketFilter.Regular Set.univ) (Machine.run (PacketFilter.step twoDevices) { pending := singleAndLoad.flatten } waiting) :=
    hstart.run (by decide +kernel)
  exact ⟨⟨by decide +kernel, by decide +kernel⟩,
    filters_forward singleAndLoad_wellFormed hrun (Nat.le_refl 2) singleWide_packed (.next (.start rfl) (Set.mem_univ _))⟩

/-- A packet of one flit that finds the crossbar ready leaves as what the buffer held. -/
theorem single_replaced : ¬ ∀ (dm : DeviceMap) (boots : Set Bool) (pkts : List (List Word)) (s : PacketFilter),
    (∀ p ∈ pkts, WellFormed p) →
    Machine.Reaches (· = { pending := pkts.flatten }) (PacketFilter.step dm) (fun _ i => i.uartBootEn ∈ boots) s →
    s.Forwards dm boots pkts := by
  intro h
  have hstart : Machine.Reaches (· = { pending := singleAndLoad.flatten }) (PacketFilter.step twoDevices)
    (fun _ i => i.uartBootEn ∈ Set.univ) { pending := singleAndLoad.flatten } := .start rfl
  obtain ⟨⟨ps, qs, hps, hqs, hsent⟩, -⟩ :=
    h twoDevices Set.univ singleAndLoad _ singleAndLoad_wellFormed (.next (i := ⟨true, true, false, 0⟩) hstart (Set.mem_univ _))
  change [0] <+: qs.flatten at hsent
  cases hqs with
  | nil => cases List.prefix_nil.mp hsent
  | @cons p q ps qs hp _ =>
      obtain ⟨b, -, rfl⟩ := hp
      obtain ⟨rfl, -⟩ := List.cons_prefix_cons.mp hps
      exact absurd (List.cons_prefix_cons.mp hsent).1 (by decide)

end OpenPiton.Chipset

import OpenPiton.NocAxi.Channels
import OpenPiton.Lib.Machine

namespace OpenPiton.NocAxi

variable {c : AddrCfg}

/-- The address transfer that a request asks for. -/
def WriteReq.aw (c : AddrCfg) (req : WriteReq) : Axi.Burst × Nat := (c.burst req.addr req.sizeLog, req.id)

/-- The data transfers that a request asks for. -/
def WriteReq.beats (c : AddrCfg) (req : WriteReq) : List (Axi.Beat c.datWidthUsedLog2) :=
  c.beats (c.burstLen req.sizeLog) req.data req.strb

/-- `noc_axi4_bridge_write` with the requests it took and the transfers it made. -/
structure WriteLog (c : AddrCfg) where
  write : AxiWrite
  requests : List WriteReq := []
  addresses : List (Axi.Burst × Nat) := []
  transfers : List (Axi.Beat c.datWidthUsedLog2) := []

namespace WriteLog

variable (s : WriteLog c) (i : WriteIn)

def step : WriteLog c where
  write := s.write.step c i
  requests := s.requests ++ (s.write.reqGo i).toList
  addresses := if s.write.awgo i then s.addresses ++ [(s.write.aw, s.write.awid)] else s.addresses
  transfers := if s.write.wgo i then s.transfers ++ [s.write.wBeat c] else s.transfers

/-- After a reset, whatever the address registers hold. -/
def Init : Prop := ∃ aw awid, s = { write := { aw := aw, awid := awid } }

/-- A request is for a line at most. -/
def FitsLine : Prop := ∀ req, s.write.reqGo i = some req → req.sizeLog.toNat ≤ 6

instance : Decidable (s.FitsLine i) :=
  match h : s.write.reqGo i with
  | none => .isTrue fun req hr => by rw [h] at hr; cases hr
  | some r => decidable_of_iff (r.sizeLog.toNat ≤ 6) ⟨fun hle req hr => by rw [h] at hr; cases hr; exact hle, fun hf => hf r h⟩

/-- The request in the registers, with those before it, and the number of its transfers that have left. -/
structure Busy (done : List WriteReq) (req : WriteReq) (k : Nat) : Prop where
  state : s.write.reqState ≠ .idle
  requests : s.requests = done ++ [req]
  bursting : s.write.Bursting c req k
  addresses : s.addresses = done.map (WriteReq.aw c) ++ if s.write.awvalid then [] else [req.aw c]
  transfers : s.transfers = done.flatMap (WriteReq.beats c) ++
    if s.write.wvalid then (req.beats c).take k else req.beats c

structure Resting : Prop where
  state : s.write.reqState = .idle
  addresses : s.addresses = s.requests.map (WriteReq.aw c)
  transfers : s.transfers = s.requests.flatMap (WriteReq.beats c)

def Phase : Prop := s.Resting ∨ ∃ done req k, s.Busy done req k

variable {s i} {done : List WriteReq} {req : WriteReq} {k : Nat}

theorem take_beats (hk : k ≤ c.burstLen req.sizeLog) :
    (req.beats c).take (k + 1) =
      (req.beats c).take k ++ [c.beat (c.burstLen req.sizeLog) req.data req.strb k] := by
  rw [List.take_add_one, WriteReq.beats, c.beats_get hk]
  rfl

theorem take_beats_last (hk : k = c.burstLen req.sizeLog) :
    (req.beats c).take k ++ [c.beat (c.burstLen req.sizeLog) req.data req.strb k] = req.beats c := by
  rw [← take_beats hk.le, List.take_of_length_le]
  rw [WriteReq.beats, c.length_beats]
  omega

theorem Resting.step (h : s.Resting) (hi : s.FitsLine i) : (s.step i).Phase := by
  obtain ⟨haw, hw⟩ := AxiWrite.valid_idle s.write h.state
  have hawgo : s.write.awgo i = false := by rw [AxiWrite.awgo, haw, Bool.false_and]
  have hwgo : s.write.wgo i = false := by rw [AxiWrite.wgo, hw, Bool.false_and]
  have hlwgo : s.write.lwgo i = false := by rw [AxiWrite.lwgo, hwgo, Bool.false_and]
  have haddr : (s.step i).addresses = s.addresses := by rw [WriteLog.step, hawgo]; rfl
  have htrans : (s.step i).transfers = s.transfers := by rw [WriteLog.step, hwgo]; rfl
  obtain ⟨hawv, hwv⟩ := AxiWrite.valid_step c s.write i
  cases hreq : s.write.reqGo i with
  | none =>
      have hlog : (s.step i).requests = s.requests := by
        rw [WriteLog.step, hreq]
        exact List.append_nil _
      refine .inl ⟨?_, by rw [haddr, hlog, h.addresses], by rw [htrans, hlog, h.transfers]⟩
      change s.write.reqState.next _ _ _ = _
      rw [h.state, hreq]
      rfl
  | some req =>
      have hlog : (s.step i).requests = s.requests ++ [req] := by rw [WriteLog.step, hreq]; rfl
      rw [hreq, Option.isSome_some, Bool.true_or] at hawv hwv
      refine .inr ⟨s.requests, req, 0, ?_, hlog, .start hreq (hi req hreq), ?_, ?_⟩
      · change s.write.reqState.next _ _ _ ≠ _
        rw [h.state, hreq]
        exact fun he => WriteState.noConfusion he
      · rw [haddr, h.addresses, show (s.step i).write.awvalid = true from hawv, if_pos rfl, List.append_nil]
      · rw [htrans, h.transfers, show (s.step i).write.wvalid = true from hwv, if_pos rfl, List.take_zero, List.append_nil]

theorem Busy.step (h : s.Busy done req k) (i : WriteIn) : (s.step i).Phase := by
  have hreq := AxiWrite.reqGo_busy s.write i h.state
  have hlog : (s.step i).requests = s.requests := by
    rw [WriteLog.step, hreq]
    exact List.append_nil _
  obtain ⟨hawv, hwv⟩ := AxiWrite.valid_step c s.write i
  rw [hreq, Option.isSome_none, Bool.false_or] at hawv hwv
  change (s.step i).write.awvalid = _ at hawv
  change (s.step i).write.wvalid = _ at hwv
  have haw : (s.write.aw, s.write.awid) = req.aw c := by rw [WriteReq.aw, ← h.bursting.aw, ← h.bursting.awid]
  -- the address channel
  have haddr : (s.step i).addresses =
      done.map (WriteReq.aw c) ++ if (s.step i).write.awvalid then [] else [req.aw c] := by
    rw [hawv, WriteLog.step, h.addresses]
    cases hv : s.write.awvalid <;> cases hg : s.write.awgo i <;> simp [haw, AxiWrite.awgo, hv] at hg ⊢
  -- the data channel
  obtain ⟨k', hburst, htrans⟩ : ∃ k', (s.step i).write.Bursting c req k' ∧ (s.step i).transfers =
      done.flatMap (WriteReq.beats c) ++ if (s.step i).write.wvalid then (req.beats c).take k' else req.beats c := by
    have hkept : s.write.wgo i = false → (s.step i).transfers = s.transfers := by
      intro hg
      rw [WriteLog.step, hg]
      rfl
    have hsent : s.write.wgo i = true → (s.step i).transfers = s.transfers ++ [s.write.wBeat c] := by
      intro hg
      rw [WriteLog.step, hg]
      rfl
    cases hg : s.write.wgo i with
    | false =>
        have hlw : s.write.lwgo i = false := by rw [AxiWrite.lwgo, hg, Bool.false_and]
        refine ⟨k, h.bursting.stay h.state fun hgo => Bool.false_ne_true (hg ▸ hgo.1), ?_⟩
        rw [hkept hg, h.transfers, hwv, hlw, Bool.not_false, Bool.and_true]
    | true =>
        have hv : s.write.wvalid = true := ((Bool.and_eq_true _ _).mp hg).1
        have hlw : s.write.lwgo i = s.write.wlast := by rw [AxiWrite.lwgo, hg, Bool.true_and]
        have hlast := h.bursting.wlast
        have hbeat := h.bursting.wBeat
        rw [hsent hg, h.transfers, hwv, hlw, hv, if_pos rfl, Bool.true_and, List.append_assoc, hbeat]
        cases hl : s.write.wlast with
        | false =>
            refine ⟨k + 1, h.bursting.next h.state hg hl, ?_⟩
            rw [Bool.not_false, if_pos rfl, take_beats h.bursting.sent_le]
        | true =>
            refine ⟨k, h.bursting.stay h.state fun hgo => Bool.false_ne_true (hgo.2.symm.trans hl), ?_⟩
            rw [hl] at hlast
            rw [Bool.not_true, if_neg Bool.false_ne_true, take_beats_last (beq_iff_eq.mp hlast.symm)]
  by_cases hidle : (s.step i).write.reqState = .idle
  · obtain ⟨hv, hwv'⟩ := AxiWrite.valid_idle _ hidle
    refine .inl ⟨hidle, ?_, ?_⟩
    · rw [haddr, hv, hlog, h.requests, if_neg Bool.false_ne_true, List.map_append, List.map_singleton]
    · rw [htrans, hwv', hlog, h.requests, if_neg Bool.false_ne_true, List.flatMap_append, List.flatMap_singleton]
  · exact .inr ⟨done, req, k', hidle, hlog.trans h.requests, hburst, haddr, htrans⟩

theorem Phase.step (h : s.Phase) (hi : s.FitsLine i) : (s.step i).Phase := by
  rcases h with h | ⟨done, req, k, h⟩
  · exact h.step hi
  · exact h.step i

theorem phase_of_reaches (h : Machine.Reaches Init step FitsLine s) : s.Phase := by
  refine h.invariant (P := Phase) ?_ fun s i hs hi => hs.step hi
  rintro s ⟨aw, awid, rfl⟩
  exact .inl ⟨rfl, rfl, rfl⟩

theorem offers_kept (h : s.Phase) (i : WriteIn) :
    (s.write.awvalid = true → i.awready = false → (s.step i).write.awvalid = true ∧
      (s.step i).write.aw = s.write.aw ∧ (s.step i).write.awid = s.write.awid) ∧
    (s.write.wvalid = true → i.wready = false → (s.step i).write.wvalid = true ∧
      (s.step i).write.wBeat c = s.write.wBeat c) := by
  obtain ⟨hawv, hwv⟩ := AxiWrite.valid_step c s.write i
  rcases h with h | ⟨done, req, k, h⟩
  · obtain ⟨haw, hw⟩ := AxiWrite.valid_idle s.write h.state
    exact ⟨fun hv => absurd (haw.symm.trans hv) Bool.false_ne_true, fun hv => absurd (hw.symm.trans hv) Bool.false_ne_true⟩
  · have hreq := AxiWrite.reqGo_busy s.write i h.state
    rw [hreq, Option.isSome_none, Bool.false_or] at hawv hwv
    constructor
    · intro hv hr
      refine ⟨?_, ?_, ?_⟩
      · rw [AxiWrite.awgo, hr, Bool.and_false, hv] at hawv
        exact hawv
      · simp only [step, AxiWrite.step, hreq]
      · simp only [step, AxiWrite.step, hreq]
    · intro hv hr
      have hg : s.write.wgo i = false := by rw [AxiWrite.wgo, hr, Bool.and_false]
      rw [AxiWrite.lwgo, hg, Bool.false_and, hv] at hwv
      have hnext := h.bursting.stay h.state fun hgo => Bool.false_ne_true (hg ▸ hgo.1)
      exact ⟨hwv, hnext.wBeat.trans h.bursting.wBeat.symm⟩

/-- The write channels conform: every request has one address transfer and as many data transfers as that says, the last
one marked, and those of a request are offered only when the requests before it are through. -/
structure Conforms (s : WriteLog c) : Prop where
  beats : ∀ req ∈ s.requests, (req.beats c).length = (req.aw c).1.len + 1 ∧
    ∀ k beat, (req.beats c)[k]? = some beat → (beat.last = true ↔ k = (req.aw c).1.len)
  addresses : s.addresses <+: s.requests.map (WriteReq.aw c)
  transfers : s.transfers <+: s.requests.flatMap (WriteReq.beats c)
  idle : s.write.reqState = .idle → s.addresses = s.requests.map (WriteReq.aw c) ∧
    s.transfers = s.requests.flatMap (WriteReq.beats c)
  offered : s.write.reqState ≠ .idle → ∃ done req, s.requests = done ++ [req] ∧
    done.map (WriteReq.aw c) <+: s.addresses ∧ done.flatMap (WriteReq.beats c) <+: s.transfers ∧
    (s.write.awvalid = true → s.addresses = done.map (WriteReq.aw c) ∧ (s.write.aw, s.write.awid) = req.aw c) ∧
    (s.write.wvalid = true → ∃ k, s.transfers = done.flatMap (WriteReq.beats c) ++ (req.beats c).take k ∧
      (req.beats c)[k]? = some (s.write.wBeat c))
  kept : ∀ i : WriteIn,
    (s.write.awvalid = true → i.awready = false → (s.step i).write.awvalid = true ∧
      (s.step i).write.aw = s.write.aw ∧ (s.step i).write.awid = s.write.awid) ∧
    (s.write.wvalid = true → i.wready = false → (s.step i).write.wvalid = true ∧
      (s.step i).write.wBeat c = s.write.wBeat c)

theorem beats_spec (req : WriteReq) : (req.beats c).length = (req.aw c).1.len + 1 ∧
    ∀ k beat, (req.beats c)[k]? = some beat → (beat.last = true ↔ k = (req.aw c).1.len) := by
  refine ⟨c.length_beats _ _ _, fun k beat hk => ?_⟩
  have hlt := (List.getElem?_eq_some_iff.mp hk).1
  rw [WriteReq.beats, c.length_beats] at hlt
  rw [WriteReq.beats, c.beats_get (Nat.le_of_lt_succ hlt), Option.some_inj] at hk
  rw [← hk]
  exact beq_iff_eq

/-- For requests of a line at most. -/
theorem conforms (h : Machine.Reaches Init step FitsLine s) : s.Conforms := by
  have hphase := phase_of_reaches h
  have hbeats : ∀ req ∈ s.requests, _ := fun req _ => beats_spec (c := c) req
  rcases hphase with hrest | ⟨done, req, k, hbusy⟩
  · exact ⟨hbeats, hrest.addresses ▸ List.prefix_rfl, hrest.transfers ▸ List.prefix_rfl,
      fun _ => ⟨hrest.addresses, hrest.transfers⟩, fun hne => absurd hrest.state hne, offers_kept (.inl hrest)⟩
  · refine ⟨hbeats, ?_, ?_, fun hidle => absurd hidle hbusy.state, fun _ => ⟨done, req, hbusy.requests, ?_, ?_, ?_, ?_⟩,
      offers_kept (.inr ⟨_, _, _, hbusy⟩)⟩
    · rw [hbusy.addresses, hbusy.requests, List.map_append, List.map_singleton, List.prefix_append_right_inj]
      split
      · exact List.nil_prefix
      · exact List.prefix_rfl
    · rw [hbusy.transfers, hbusy.requests, List.flatMap_append, List.flatMap_singleton, List.prefix_append_right_inj]
      split
      · exact List.take_prefix _ _
      · exact List.prefix_rfl
    · rw [hbusy.addresses]
      exact List.prefix_append _ _
    · rw [hbusy.transfers]
      exact List.prefix_append _ _
    · intro hv
      rw [hbusy.addresses, hv, if_pos rfl, List.append_nil]
      exact ⟨rfl, by rw [WriteReq.aw, ← hbusy.bursting.aw, ← hbusy.bursting.awid]⟩
    · intro hv
      refine ⟨k, by rw [hbusy.transfers, hv, if_pos rfl], ?_⟩
      rw [WriteReq.beats, c.beats_get hbusy.bursting.sent_le, hbusy.bursting.wBeat]

def dat64 : AddrCfg := eightBytes

def quiet : WriteLog dat64 := { write := { aw := ⟨0, 0, 0⟩, awid := 0 } }

/-- A write of `2 ^ sizeLog` bytes, taken up without a stall. -/
def writeOf (sizeLog : BitVec 3) : List WriteIn :=
  { req := some ⟨64, sizeLog, 1, 0x0f0e0d0c0b0a09080706050403020100, 0xffff⟩ } ::
    List.replicate 8 { awready := true, wready := true }

theorem conforms_sixteen_bytes :
    let s := Machine.run step quiet (writeOf 4)
    s.transfers.length = 2 ∧ s.Conforms :=
  ⟨by decide +kernel, conforms (.run (.start ⟨_, _, rfl⟩) (by decide +kernel))⟩

/-- The burst of a write of 128 bytes is longer than the counter of its transfers. -/
theorem long_burst : ¬ ∀ (c : AddrCfg) (s : WriteLog c), Machine.Reaches Init step (fun _ _ => True) s → s.Conforms := by
  intro h
  have hrun : Machine.Reaches Init step (fun _ _ => True) (Machine.run step quiet (writeOf 7)) :=
    .run (.start ⟨_, _, rfl⟩) (by decide +kernel)
  have hlen := congrArg List.length ((h dat64 _ hrun).idle (by decide +kernel)).2
  revert hlen
  decide +kernel

end WriteLog

end OpenPiton.NocAxi

import OpenPiton.Lib.Machine
import OpenPiton.NocAxi.Reassembly

namespace OpenPiton.NocAxi

/-- The deserializer between a link and what takes its packets, with the flits that are still to
come and the packets taken. -/
structure Stream where
  deser : Deser := {}
  pending : List Flit
  taken : List (Header × (Nat → Word)) := []

/-- A cycle: whether the link offers its next flit, what it drives without one, and the ready
inputs. -/
structure StreamIn where
  offer : Bool
  idle : Flit := fun _ => 0
  phyInitDone : Bool := true
  outRdy : Bool

namespace Stream

variable {w : NocWidth} {swapEndianess : Bool} {s : Stream} {i : StreamIn} {p : Packet} {ps : List Packet}

def deserIn (s : Stream) (i : StreamIn) : DeserIn where
  flitInVal := i.offer && !s.pending.isEmpty
  flitIn := if i.offer then s.pending.headD i.idle else i.idle
  phyInitDone := i.phyInitDone
  outRdy := i.outRdy

/-- What the deserializer shows while `out_val` is high. -/
def shown (s : Stream) : List (Header × (Nat → Word)) :=
  if s.deser.outVal then [(s.deser.headerOut, s.deser.dataOut)] else []

def step (w : NocWidth) (swapEndianess : Bool) (s : Stream) (i : StreamIn) : Stream where
  deser := s.deser.step w swapEndianess (s.deserIn i)
  pending := if s.deser.flitInGo (s.deserIn i) then s.pending.tail else s.pending
  taken := if i.outRdy then s.taken ++ s.shown else s.taken

/-- Flits of whole packets, one packet behind the other. -/
def Carries (w : NocWidth) : List Packet → List Flit → Prop
  | [], flits => flits = []
  | p :: ps, flits => ∃ fs gs, flits = fs ++ gs ∧ p.Carries w 0 fs ∧ Carries w ps gs

/-- After a reset, with the flits of the packets to come. -/
def Init (w : NocWidth) (ps : List Packet) (s : Stream) : Prop :=
  ∃ pending, Carries w ps pending ∧ s = { pending := pending }

/-- At 512 bits a packet is taken in the cycle it is shown. -/
def Prompt (w : NocWidth) (s : Stream) (i : StreamIn) : Prop :=
  w = .w512 → s.deser.outVal = true → i.outRdy = true

/-- The pending flits are those of the packets, of the first one perhaps only the last ones. -/
def Awaits (w : NocWidth) : List Packet → List Flit → Prop
  | [], flits => flits = []
  | p :: ps, flits => ∃ f fs gs, flits = fs ++ gs ∧ fs ≠ [] ∧ p.Carries w f fs ∧ Carries w ps gs

/-- What is still to come while the packets `rest` are. -/
def Progress (w : NocWidth) (swapEndianess : Bool) (rest : List Packet) (s : Stream) : Prop :=
  (s.deser.state = .send ∧ Carries w rest s.pending) ∨
  match rest with
  | [] => s.deser.state = .acceptW1 ∧ s.pending = []
  | p :: rest => ∃ f fs gs, s.pending = fs ++ gs ∧ p.Carries w f fs ∧ Carries w rest gs ∧
      s.deser.Within w swapEndianess p f

/-- The packets that have come in were taken or are shown. -/
def Sound (w : NocWidth) (swapEndianess : Bool) (ps : List Packet) (s : Stream) : Prop :=
  ∃ done rest, ps = done ++ rest ∧ s.Progress w swapEndianess rest ∧
    List.Forall₂ (fun p o => Deser.Delivers swapEndianess p o.1 o.2) done (s.taken ++ s.shown)

theorem Progress.of_idle {rest : List Packet} (hst : s.deser.state = .acceptW1) (h : Carries w rest s.pending) :
    s.Progress w swapEndianess rest := by
  cases rest with
  | nil => exact .inr ⟨hst, h⟩
  | cons p rest =>
      obtain ⟨fs, gs, heq, hfs, hgs⟩ := h
      exact .inr ⟨0, fs, gs, heq, hfs, hgs, .start hst⟩

theorem Init.sound (h : Init w ps s) : s.Sound w swapEndianess ps := by
  obtain ⟨pending, hps, rfl⟩ := h
  exact ⟨[], ps, rfl, .of_idle rfl hps, .nil⟩

theorem shown_of_ne (h : s.deser.state ≠ .send) : s.shown = [] := by
  rw [shown, if_neg]
  simpa [Deser.outVal] using h

theorem shown_of_send (h : s.deser.state = .send) : s.shown = [(s.deser.headerOut, s.deser.dataOut)] := by
  rw [shown, if_pos]
  simp [Deser.outVal, h]

theorem not_go_of_send (h : s.deser.state = .send) : s.deser.flitInGo (s.deserIn i) = false := by
  simp [Deser.flitInGo, Deser.flitInRdy, h]

theorem step_taken (h : s.deser.state ≠ .send) : (s.step w swapEndianess i).taken = s.taken := by
  cases hr : i.outRdy <;> simp [step, hr, shown_of_ne h]

theorem Sound.step_send {done rest : List Packet} (hst : s.deser.state = .send) (hrest : Carries w rest s.pending)
    (hdone : List.Forall₂ (fun p o => Deser.Delivers swapEndianess p o.1 o.2) done (s.taken ++ s.shown))
    (hi : s.Prompt w i) : (s.step w swapEndianess i).Sound w swapEndianess (done ++ rest) := by
  have hpending : (s.step w swapEndianess i).pending = s.pending := by simp [step, not_go_of_send hst]
  refine ⟨done, rest, rfl, ?_⟩
  cases hr : i.outRdy with
  | true =>
      have hst' : (s.step w swapEndianess i).deser.state = .acceptW1 := Deser.state_step_taken hst hr
      have htaken : (s.step w swapEndianess i).taken = s.taken ++ s.shown := by simp [step, hr]
      have hshown : (s.step w swapEndianess i).shown = [] := shown_of_ne (by rw [hst']; decide)
      refine ⟨.of_idle hst' (by rwa [hpending]), ?_⟩
      rwa [htaken, hshown, List.append_nil]
  | false =>
      have hw : w ≠ .w512 := fun hw => by
        have := hi hw (by simp [Deser.outVal, hst])
        rw [hr] at this
        cases this
      have hdeser : (s.step w swapEndianess i).deser = s.deser := Deser.step_held hst hr hw
      have htaken : (s.step w swapEndianess i).taken = s.taken := by simp [step, hr]
      refine ⟨.inl ⟨by rw [hdeser, hst], by rwa [hpending]⟩, ?_⟩
      rwa [htaken, shown, hdeser]

theorem Sound.step_within {done rest : List Packet} {f : Nat} {fs gs : List Flit} (hp : p.WellFormed)
    (hfit : w.Fits p.data.length) (heq : s.pending = fs ++ gs) (hfs : p.Carries w f fs) (hgs : Carries w rest gs)
    (hs : s.deser.Within w swapEndianess p f)
    (hdone : List.Forall₂ (fun p o => Deser.Delivers swapEndianess p o.1 o.2) done (s.taken ++ s.shown)) :
    (s.step w swapEndianess i).Sound w swapEndianess (done ++ p :: rest) := by
  rw [shown_of_ne hs.ne_send, List.append_nil] at hdone
  have htaken : (s.step w swapEndianess i).taken = s.taken := step_taken hs.ne_send
  cases hgo : s.deser.flitInGo (s.deserIn i) with
  | false =>
      have hs' : (s.step w swapEndianess i).deser.Within w swapEndianess p f := hs.step_gap hp hfit hgo
      refine ⟨done, p :: rest, rfl, .inr ⟨f, fs, gs, ?_, hfs, hgs, hs'⟩, ?_⟩
      · simp [step, hgo, heq]
      · rwa [htaken, shown_of_ne hs'.ne_send, List.append_nil]
  | true =>
      cases fs with
      | nil => exact absurd hs.more (Nat.not_lt.mpr hfs)
      | cons fl fs =>
          obtain ⟨_, hfl, hfs'⟩ := hfs
          have hoffer : i.offer = true := by
            have := Deser.val_of_go hgo
            simp only [deserIn, Bool.and_eq_true] at this
            exact this.1
          have hin : (s.deserIn i).flitIn = fl := by simp [deserIn, hoffer, heq]
          have hpending : (s.step w swapEndianess i).pending = fs ++ gs := by simp [step, hgo, heq]
          rcases hs.step_go hp hfit hgo (by rwa [hin]) with hw | ⟨hlast, hd⟩
          · have hw' : (s.step w swapEndianess i).deser.Within w swapEndianess p (f + 1) := hw
            refine ⟨done, p :: rest, rfl, .inr ⟨f + 1, fs, gs, hpending, hfs', hgs, hw'⟩, ?_⟩
            rwa [htaken, shown_of_ne hw'.ne_send, List.append_nil]
          · have hd' : (s.step w swapEndianess i).deser.Done swapEndianess p := hd
            have hnil : fs = [] := by
              cases fs with
              | nil => rfl
              | cons fl' fs => exact absurd hfs'.1 (Nat.not_lt.mpr hlast)
            subst hnil
            refine ⟨done ++ [p], rest, by simp, .inl ⟨hd'.state_eq, by rwa [hpending]⟩, ?_⟩
            rw [htaken, shown_of_send hd'.state_eq]
            exact List.rel_append hdone (.cons hd'.delivers .nil)

theorem Sound.step (hps : ∀ p ∈ ps, p.WellFormed ∧ w.Fits p.data.length) (h : s.Sound w swapEndianess ps)
    (hi : s.Prompt w i) : (s.step w swapEndianess i).Sound w swapEndianess ps := by
  obtain ⟨done, rest, rfl, hprogress, hdone⟩ := h
  rcases hprogress with ⟨hst, hrest⟩ | hprogress
  · exact step_send hst hrest hdone hi
  · cases rest with
    | nil =>
        obtain ⟨hst, hnil⟩ := hprogress
        have hgo : s.deser.flitInGo (s.deserIn i) = false := by simp [Deser.flitInGo, deserIn, hnil]
        have hst' : (s.step w swapEndianess i).deser.state = .acceptW1 := Deser.state_step_idle hst hgo
        have hne : s.deser.state ≠ .send := by rw [hst]; decide
        have hshown : (s.step w swapEndianess i).shown = [] := shown_of_ne (by rw [hst']; decide)
        refine ⟨done, [], rfl, .inr ⟨hst', by simp [Stream.step, hgo, hnil]⟩, ?_⟩
        rwa [step_taken hne, hshown, ← shown_of_ne hne]
    | cons p rest =>
        obtain ⟨f, fs, gs, heq, hfs, hgs, hs⟩ := hprogress
        obtain ⟨hp, hfit⟩ := hps p (by simp)
        exact step_within hp hfit heq hfs hgs hs hdone

theorem Progress.awaits {rest : List Packet} (h : s.Progress w swapEndianess rest) : Awaits w rest s.pending := by
  have hne : ∀ {p : Packet} {f : Nat} {fs : List Flit}, p.Carries w f fs → w.wordNum * f < p.data.length + 3 → fs ≠ [] := by
    rintro p f fs hfs hmore rfl
    exact absurd hmore (Nat.not_lt.mpr hfs)
  rcases h with ⟨_, h⟩ | h
  · cases rest with
    | nil => exact h
    | cons p rest =>
        obtain ⟨fs, gs, heq, hfs, hgs⟩ := h
        exact ⟨0, fs, gs, heq, hne hfs (by omega), hfs, hgs⟩
  · cases rest with
    | nil => exact h.2
    | cons p rest =>
        obtain ⟨f, fs, gs, heq, hfs, hgs, hs⟩ := h
        exact ⟨f, fs, gs, heq, hne hfs hs.more, hfs, hgs⟩

/-- Over a stream of packets that fit, the packets taken and the one shown are exactly those that
have come in whole, in order, and a shown packet stays until it is taken. -/
theorem no_loss (hps : ∀ p ∈ ps, p.WellFormed ∧ w.Fits p.data.length)
    (h : Machine.Reaches (Init w ps) (step w swapEndianess) (Prompt w) s) :
    (∃ done rest, ps = done ++ rest ∧ Awaits w rest s.pending ∧
      List.Forall₂ (fun p o => Deser.Delivers swapEndianess p o.1 o.2) done (s.taken ++ s.shown)) ∧
    ∀ i, s.Prompt w i → s.deser.outVal = true → i.outRdy = false →
      (s.step w swapEndianess i).deser.outVal = true ∧
      (s.step w swapEndianess i).deser.headerOut = s.deser.headerOut ∧
      (s.step w swapEndianess i).deser.dataOut = s.deser.dataOut := by
  constructor
  · obtain ⟨done, rest, heq, hprogress, hdone⟩ :=
      h.invariant (P := Sound w swapEndianess ps) (fun _ h => h.sound) fun _ _ hs hi => hs.step hps hi
    exact ⟨done, rest, heq, hprogress.awaits, hdone⟩
  · intro i hi hval hr
    have hst : s.deser.state = .send := by simpa [Deser.outVal] using hval
    have hw : w ≠ .w512 := fun hw => by
      have := hi hw hval
      rw [hr] at this
      cases this
    have hdeser : (s.step w swapEndianess i).deser = s.deser := Deser.step_held hst hr hw
    rw [hdeser]
    exact ⟨hval, rfl, rfl⟩

instance (s : Stream) (i : StreamIn) : Decidable (s.Prompt w i) :=
  inferInstanceAs (Decidable (w = .w512 → s.deser.outVal = true → i.outRdy = true))

theorem carries_one (w : NocWidth) (pad : Word) (p : Packet) : Carries w [p] (p.flits w pad) :=
  ⟨_, [], (List.append_nil _).symm, p.carries_flits w pad, rfl⟩

theorem no_loss_one_packet :
    let s := Machine.run (step .w64 false) { pending := (Packet.sample 1).flits .w64 0 }
      (List.replicate 5 { offer := true, outRdy := true })
    s.taken.length = 1 ∧ ∃ done rest, [Packet.sample 1] = done ++ rest ∧ Awaits .w64 rest s.pending ∧
      List.Forall₂ (fun p o => Deser.Delivers false p o.1 o.2) done (s.taken ++ s.shown) := by
  have hps : ∀ p ∈ [Packet.sample 1], p.WellFormed ∧ NocWidth.w64.Fits p.data.length := by
    intro p hp
    rw [List.mem_singleton.mp hp]
    exact ⟨Deser.sample_wellFormed (by decide), by decide⟩
  have hrun : Machine.Reaches (Init .w64 [Packet.sample 1]) (step .w64 false) (Prompt .w64)
      (Machine.run (step .w64 false) { pending := (Packet.sample 1).flits .w64 0 }
        (List.replicate 5 { offer := true, outRdy := true })) :=
    .run (.start ⟨_, carries_one _ _ _, rfl⟩) (by decide +kernel)
  exact ⟨by decide +kernel, (no_loss hps hrun).1⟩

/-- At 512 bits a packet that is not taken at once is gone. -/
theorem packet_dropped :
    ∃ s i, Machine.Reaches (Init .w512 [Packet.sample 1]) (step .w512 false) (fun _ _ => True) s ∧
      s.deser.outVal = true ∧ i.outRdy = false ∧ (s.step .w512 false i).deser.outVal = false :=
  ⟨_, { offer := false, outRdy := false },
    .next (i := { offer := true, outRdy := false }) (.start ⟨_, carries_one _ 0 _, rfl⟩) trivial,
    by decide +kernel, rfl, by decide +kernel⟩

end Stream

end OpenPiton.NocAxi

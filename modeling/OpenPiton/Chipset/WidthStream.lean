import OpenPiton.Chipset.WidthAdaptor

namespace OpenPiton.Chipset.WidthAdaptor

open L15 (Word)
open Packets

variable {worldNum cntW : Nat} {s : WidthAdaptor} {i : WidthIn} {stream : List Flit} {f : Flit} {rest : List Flit}

theorem flitValI_eq (h : s.flitValI i = true) : ∃ f rest, s.pending = f :: rest := by
  rw [flitValI, Bool.and_eq_true] at h
  cases hp : s.pending with
  | nil =>
      rw [hp] at h
      cases h.2
  | cons f rest => exact ⟨f, rest, rfl⟩

theorem flitDataI_eq (h : s.pending = f :: rest) : s.flitDataI = f := by
  rw [flitDataI, h]
  rfl

theorem next_eq {n c : Nat} (h : c < n) : (c + 1) % n = if c = n - 1 then 0 else c + 1 := by
  split
  · rw [show c + 1 = n by omega, Nat.mod_self]
  · exact Nat.mod_eq_of_lt (by omega)

/-- The flits that come, were accepted and have left, and the packets that were cut from them. -/
structure Streams (stream : List Flit) (width : Nat) (s : WidthAdaptor) : Prop where
  stream_eq : stream = s.taken ++ s.pending
  cut_eq : packetsOf s.sent = packetsOf s.taken
  width_eq : ∀ g ∈ s.sent, g.length = width

theorem Streams.width_snoc {width : Nat} {g : Flit} (h : Streams stream width s) (hg : g.length = width) :
    ∀ f ∈ s.sent ++ [g], f.length = width := by
  intro f hf
  rcases List.mem_append.mp hf with hf | hf
  · exact h.width_eq f hf
  · rw [List.mem_singleton.mp hf, hg]

namespace Serialer

/-- The open packet has left up to the place of the counter in the flit that is offered. -/
structure Sound (worldNum cntW : Nat) (stream : List Flit) (s : WidthAdaptor) : Prop extends Streams stream worldNum s where
  counter_lt : s.counter < 2 ^ cntW
  detects : s.detect.Detects (cutFlits wordLength s.sent).2
  open_eq : (cutFlits wordLength s.sent).2 =
    (cutFlits wordLength s.taken).2 ++ s.flitDataI.take (s.counter * worldNum)

theorem step_stall (h : (s.flitValI i && i.flitRdy) = false) : step worldNum cntW s i = s := by
  have hrdy : (s.flitValI i && flitRdyO worldNum cntW s i) = false := by
    rw [flitRdyO]
    split
    · exact h
    · exact Bool.and_false _
  rw [step, h, hrdy]
  rfl

/-- A flit leaves; the one it is of is accepted with its last, or with the tail of the packet. -/
theorem step_fire (hval : s.flitValI i = true) (hrdy : i.flitRdy = true) :
    step worldNum cntW s i =
      if isTailOut worldNum s then
        { s with
          detect := s.detect.step worldNum (msgLength (flitDataO worldNum s)) true
          counter := 0, pending := s.pending.tail, taken := s.taken ++ [s.flitDataI]
          sent := s.sent ++ [flitDataO worldNum s] }
      else if s.counter = 2 ^ cntW - 1 then
        { s with
          detect := s.detect.step worldNum (msgLength (flitDataO worldNum s)) true
          counter := (s.counter + 1) % 2 ^ cntW, pending := s.pending.tail, taken := s.taken ++ [s.flitDataI]
          sent := s.sent ++ [flitDataO worldNum s] }
      else
        { s with
          detect := s.detect.step worldNum (msgLength (flitDataO worldNum s)) true
          counter := (s.counter + 1) % 2 ^ cntW
          sent := s.sent ++ [flitDataO worldNum s] } := by
  rw [step, flitRdyO, hval, hrdy]
  cases isTailOut worldNum s with
  | true => simp
  | false =>
      by_cases hlast : s.counter = 2 ^ cntW - 1
      · simp [hlast]
      · simp [hlast]

theorem length_flitDataO (hlen : s.flitDataI.length = worldNum * 2 ^ cntW) (hcount : s.counter < 2 ^ cntW) :
    (flitDataO worldNum s).length = worldNum := by
  have hmul : (s.counter + 1) * worldNum ≤ s.flitDataI.length := by
    rw [hlen, Nat.mul_comm worldNum]
    exact Nat.mul_le_mul_right _ hcount
  rw [Nat.add_mul, Nat.one_mul] at hmul
  rw [flitDataO, List.length_take, List.length_drop]
  omega

theorem Sound.words_eq (h : Sound worldNum cntW stream s) : (cutFlits wordLength s.sent).2 ++ flitDataO worldNum s =
    (cutFlits wordLength s.taken).2 ++ s.flitDataI.take ((s.counter + 1) * worldNum) := by
  rw [h.open_eq, flitDataO, List.append_assoc, Nat.add_mul, Nat.one_mul, List.take_add]

theorem Sound.step (hpos : 0 < worldNum) (hwidth : ∀ f ∈ stream, f.length = worldNum * 2 ^ cntW)
    (h : Sound worldNum cntW stream s) (i : WidthIn) : Sound worldNum cntW stream (step worldNum cntW s i) := by
  cases hfire : s.flitValI i && i.flitRdy with
  | false => rwa [step_stall hfire]
  | true =>
      obtain ⟨hval, hrdy⟩ := (Bool.and_eq_true _ _).mp hfire
      obtain ⟨f, rest, hp⟩ := flitValI_eq hval
      have hdata := flitDataI_eq hp
      have hlen : f.length = worldNum * 2 ^ cntW := hwidth f (by rw [h.stream_eq, hp]; simp)
      have hcount := h.counter_lt
      have hglen := length_flitDataO (hdata.symm ▸ hlen) hcount
      have hwords := h.words_eq
      rw [hdata] at hwords
      have htail := h.detects.isTail_iff hglen hpos
      have hdetects := h.detects.step hglen hpos (cutFlits wordLength s.sent).1
      have hwidth_eq := h.width_snoc hglen
      have hsent : cutFlits wordLength (s.sent ++ [flitDataO worldNum s]) =
          cutFlit wordLength (cutFlits wordLength s.sent) (flitDataO worldNum s) := cutFlits_snoc _
      have htaken : cutFlits wordLength (s.taken ++ [f]) = cutFlit wordLength (cutFlits wordLength s.taken) f := cutFlits_snoc _
      rw [step_fire hval hrdy, hdata, hp, List.tail_cons]
      cases ht : isTailOut worldNum s with
      | true =>
          rw [if_pos rfl]
          have hfull := htail.mp ht
          have hpre : (cutFlits wordLength s.sent).2 ++ flitDataO worldNum s <+: (cutFlits wordLength s.taken).2 ++ f := by
            rw [hwords]
            exact List.prefix_append_right_inj _ |>.mpr (List.take_prefix _ _)
          obtain ⟨hfull', htake⟩ := cut_of_prefix hfull hpre
          rw [cutFlit, if_neg hfull] at hsent hdetects
          rw [cutFlit, if_neg hfull'] at htaken
          refine ⟨⟨?_, ?_, hwidth_eq⟩, ?_, ?_, ?_⟩
          · rw [h.stream_eq, hp, List.append_assoc]
            rfl
          · rw [packetsOf, hsent, packetsOf, htaken, htake]
            exact congrArg (· ++ _) h.cut_eq
          · exact Nat.two_pow_pos cntW
          · rw [hsent]
            exact hdetects
          · rw [hsent, htaken, Nat.zero_mul, List.take_zero, List.append_nil]
      | false =>
          rw [if_neg (by decide)]
          have hbegun : Begun wordLength ((cutFlits wordLength s.sent).2 ++ flitDataO worldNum s) := by
            by_contra hfull
            rw [isTailOut, htail.mpr hfull] at ht
            cases ht
          rw [cutFlit, if_pos hbegun] at hsent hdetects
          by_cases hlast : s.counter = 2 ^ cntW - 1
          · have hall : f.take ((s.counter + 1) * worldNum) = f := by
              rw [List.take_of_length_le]
              rw [hlen, hlast, Nat.sub_add_cancel (Nat.two_pow_pos cntW), Nat.mul_comm]
            rw [hall] at hwords
            rw [hwords] at hbegun
            rw [cutFlit, if_pos hbegun] at htaken
            rw [if_pos hlast, next_eq hcount, if_pos hlast]
            refine ⟨⟨?_, ?_, hwidth_eq⟩, ?_, ?_, ?_⟩
            · rw [h.stream_eq, hp, List.append_assoc]
              rfl
            · rw [packetsOf, hsent, packetsOf, htaken]
              exact h.cut_eq
            · exact Nat.two_pow_pos cntW
            · rw [hsent]
              exact hdetects
            · rw [hsent, htaken, hwords, Nat.zero_mul, List.take_zero, List.append_nil]
          · rw [if_neg hlast, next_eq hcount, if_neg hlast]
            refine ⟨⟨hp ▸ h.stream_eq, ?_, hwidth_eq⟩, ?_, ?_, ?_⟩
            · rw [packetsOf, hsent]
              exact h.cut_eq
            · change s.counter + 1 < 2 ^ cntW
              omega
            · rw [hsent]
              exact hdetects
            · rw [hsent]
              exact hwords

end Serialer

namespace Parallelr

/-- The words of the open packet that have not left are in the buffer, up to the place of the counter. -/
structure Sound (worldNum cntW : Nat) (stream : List Flit) (s : WidthAdaptor) : Prop
    extends Streams stream (worldNum * 2 ^ cntW) s where
  counter_lt : s.counter < 2 ^ cntW
  detects : s.detect.Detects (cutFlits wordLength s.taken).2
  open_eq : (cutFlits wordLength s.taken).2 =
    (cutFlits wordLength s.sent).2 ++ (List.range s.counter).flatMap s.buffArray
  buff_width : ∀ k, (s.buffArray k).length = worldNum

/-- The last flit of a packet leaves at once, unless it completes a flit of the output. -/
def TailTaken (worldNum cntW : Nat) (s : WidthAdaptor) (i : WidthIn) : Prop :=
  s.flitValI i = true → isTailIn worldNum s = true → s.counter ≠ 2 ^ cntW - 1 → i.flitRdy = true

theorem step_stall (h : (s.flitValI i && flitRdyO cntW s i) = false) : step worldNum cntW s i = s := by
  have hout : (flitValO worldNum cntW s i && i.flitRdy) = false := by
    rw [flitRdyO] at h
    rw [flitValO]
    cases hval : s.flitValI i with
    | false => rfl
    | true =>
        rw [hval, Bool.true_and] at h
        split at h
        · cases h
        · rw [h, Bool.and_false]
  have hbuff : buffNext worldNum cntW s i = s.buffArray := by
    funext k
    rw [buffNext, h]
    rfl
  rw [step, h, hout, hbuff]
  rfl

/-- A flit is accepted; with the tail of a packet, or with the last flit of the buffer, a flit leaves. -/
theorem step_fire (hcond : TailTaken worldNum cntW s i) (hval : s.flitValI i = true) (hrdy : flitRdyO cntW s i = true) :
    step worldNum cntW s i =
      { s with
        detect := s.detect.step worldNum (msgLength s.flitDataI) true
        counter := if isTailIn worldNum s then 0 else (s.counter + 1) % 2 ^ cntW
        buffArray := buffNext worldNum cntW s i
        pending := s.pending.tail
        taken := s.taken ++ [s.flitDataI]
        sent :=
          if isTailIn worldNum s ∨ s.counter = 2 ^ cntW - 1 then s.sent ++ [flitDataO cntW s] else s.sent } := by
  have hout : (flitValO worldNum cntW s i && i.flitRdy) =
      decide (isTailIn worldNum s = true ∨ s.counter = 2 ^ cntW - 1) := by
    rw [flitValO, hval, Bool.true_and]
    by_cases hlast : s.counter = 2 ^ cntW - 1
    · rw [flitRdyO] at hrdy
      simp_all
    · cases ht : isTailIn worldNum s with
      | true => simp [hcond hval ht hlast]
      | false => simp [hlast]
  rw [step, hval, hrdy, hout]
  simp

theorem buffer_snoc (hval : s.flitValI i = true) (hrdy : flitRdyO cntW s i = true) :
    (List.range (s.counter + 1)).flatMap (buffNext worldNum cntW s i) =
      (List.range s.counter).flatMap s.buffArray ++ s.flitDataI := by
  have hbuff : ∀ k, buffNext worldNum cntW s i k =
      if s.counter = k then s.flitDataI else if s.counter < k then List.replicate worldNum 0 else s.buffArray k := by
    intro k
    rw [buffNext, hval, hrdy]
    rfl
  rw [List.range_succ, List.flatMap_append, List.flatMap_singleton, hbuff, if_pos rfl]
  congr 1
  refine List.flatMap_congr fun k hk => ?_
  have hlt := List.mem_range.mp hk
  rw [hbuff, if_neg (by omega), if_neg (by omega)]

theorem buffered_eq : (List.range s.counter).flatMap (fun k => if s.counter = k then s.flitDataI else s.buffArray k) =
    (List.range s.counter).flatMap s.buffArray :=
  List.flatMap_congr fun _ hk => if_neg (Nat.ne_of_gt (List.mem_range.mp hk))

theorem flitDataO_last (hlast : s.counter = 2 ^ cntW - 1) :
    flitDataO cntW s = (List.range s.counter).flatMap s.buffArray ++ s.flitDataI := by
  rw [flitDataO, ← hlast, buffered_eq]

/-- A flit of the output begins with what is buffered and the flit that comes. -/
theorem prefix_flitDataO (hlt : s.counter < 2 ^ cntW) :
    (List.range s.counter).flatMap s.buffArray ++ s.flitDataI <+: flitDataO cntW s := by
  by_cases hlast : s.counter = 2 ^ cntW - 1
  · rw [flitDataO_last hlast]
  · obtain ⟨m, hm⟩ : ∃ m, 2 ^ cntW - 1 = s.counter + (m + 1) := ⟨2 ^ cntW - 1 - s.counter - 1, by omega⟩
    rw [flitDataO, hm, List.range_add, List.flatMap_append, buffered_eq, List.range_succ_eq_map, List.map_cons,
      List.flatMap_cons, Nat.add_zero, if_pos rfl, List.append_assoc, List.append_assoc]
    exact (List.prefix_append_right_inj _).mpr (List.prefix_append _ _)

theorem length_flatMap_const {l : List Nat} {g : Nat → Flit} {w : Nat} (h : ∀ k, (g k).length = w) :
    (l.flatMap g).length = w * l.length := by
  induction l with
  | nil => rfl
  | cons a l ih => rw [List.flatMap_cons, List.length_append, ih, h, List.length_cons, Nat.mul_succ, Nat.add_comm]

theorem length_flitDataO (hdata : s.flitDataI.length = worldNum) (hbuff : ∀ k, (s.buffArray k).length = worldNum) :
    (flitDataO cntW s).length = worldNum * 2 ^ cntW := by
  have hpos := Nat.two_pow_pos cntW
  rw [flitDataO, List.length_append, hdata, length_flatMap_const (w := worldNum), List.length_range, ← Nat.mul_succ,
    Nat.succ_eq_add_one, Nat.sub_add_cancel hpos]
  intro k
  split
  · exact hdata
  · exact hbuff k

theorem length_buffNext (hdata : s.flitDataI.length = worldNum) (hbuff : ∀ k, (s.buffArray k).length = worldNum) (k : Nat) :
    (buffNext worldNum cntW s i k).length = worldNum := by
  unfold buffNext
  split_ifs
  · exact hdata
  · exact List.length_replicate
  · exact hbuff k
  · exact hbuff k

theorem Sound.step (hpos : 0 < worldNum) (hwidth : ∀ f ∈ stream, f.length = worldNum)
    (h : Sound worldNum cntW stream s) (hcond : TailTaken worldNum cntW s i) :
    Sound worldNum cntW stream (step worldNum cntW s i) := by
  cases hfire : s.flitValI i && flitRdyO cntW s i with
  | false => rwa [step_stall hfire]
  | true =>
      obtain ⟨hval, hrdy⟩ := (Bool.and_eq_true _ _).mp hfire
      obtain ⟨f, rest, hp⟩ := flitValI_eq hval
      have hdata := flitDataI_eq hp
      have hlen : s.flitDataI.length = worldNum := hwidth _ (by rw [hdata, h.stream_eq, hp]; simp)
      have hcount := h.counter_lt
      have htail := h.detects.isTail_iff hlen hpos
      have hdetects := h.detects.step hlen hpos (cutFlits wordLength s.taken).1
      have hout : (flitDataO cntW s).length = _ := length_flitDataO hlen h.buff_width
      have hbuff : ∀ k, (buffNext worldNum cntW s i k).length = worldNum := length_buffNext hlen h.buff_width
      have hstream : stream = s.taken ++ [s.flitDataI] ++ s.pending.tail := by
        rw [h.stream_eq, hp, hdata, List.append_assoc]
        rfl
      have hwords := (List.append_assoc _ _ _).symm.trans (congrArg (· ++ s.flitDataI) h.open_eq.symm)
      have htaken :
          cutFlits wordLength (s.taken ++ [s.flitDataI]) = cutFlit wordLength (cutFlits wordLength s.taken) s.flitDataI :=
        cutFlits_snoc _
      have hsent : cutFlits wordLength (s.sent ++ [flitDataO cntW s]) =
          cutFlit wordLength (cutFlits wordLength s.sent) (flitDataO cntW s) := cutFlits_snoc _
      have hwidth_eq := h.width_snoc hout
      rw [step_fire hcond hval hrdy]
      cases ht : isTailIn worldNum s with
      | true =>
          have hfull := htail.mp ht
          have hpre := (List.prefix_append_right_inj (cutFlits wordLength s.sent).2).mpr (prefix_flitDataO hcount)
          rw [hwords] at hpre
          obtain ⟨hfull', htake⟩ := cut_of_prefix hfull hpre
          rw [cutFlit, if_neg hfull] at htaken hdetects
          rw [cutFlit, if_neg hfull'] at hsent
          rw [if_pos rfl, if_pos (Or.inl rfl)]
          refine ⟨⟨hstream, ?_, hwidth_eq⟩, Nat.two_pow_pos cntW, ?_, ?_, hbuff⟩
          · rw [packetsOf, hsent, packetsOf, htaken, htake]
            exact congrArg (· ++ _) h.cut_eq
          · rw [htaken]
            exact hdetects
          · rw [htaken, hsent]
            rfl
      | false =>
          have hbegun : Begun wordLength ((cutFlits wordLength s.taken).2 ++ s.flitDataI) := by
            by_contra hfull
            rw [isTailIn, htail.mpr hfull] at ht
            cases ht
          rw [cutFlit, if_pos hbegun] at htaken hdetects
          rw [if_neg (by decide), next_eq hcount]
          by_cases hlast : s.counter = 2 ^ cntW - 1
          · rw [← hwords, ← flitDataO_last hlast] at hbegun
            rw [cutFlit, if_pos hbegun, flitDataO_last hlast, hwords] at hsent
            rw [if_pos hlast, if_pos (Or.inr hlast)]
            refine ⟨⟨hstream, ?_, hwidth_eq⟩, Nat.two_pow_pos cntW, ?_, ?_, hbuff⟩
            · rw [packetsOf, flitDataO_last hlast, hsent, packetsOf, htaken]
              exact h.cut_eq
            · rw [htaken]
              exact hdetects
            · rw [htaken, flitDataO_last hlast, hsent]
              exact (List.append_nil _).symm
          · rw [if_neg hlast, if_neg (by simpa using hlast)]
            refine ⟨⟨hstream, ?_, h.width_eq⟩, ?_, ?_, ?_, hbuff⟩
            · rw [packetsOf, packetsOf, htaken]
              exact h.cut_eq
            · change s.counter + 1 < 2 ^ cntW
              omega
            · rw [htaken]
              exact hdetects
            · rw [htaken]
              change _ = _ ++ (List.range (s.counter + 1)).flatMap (buffNext worldNum cntW s i)
              rw [buffer_snoc hval hrdy, hwords]

/-- The last flit of a packet that finds the receiver busy is accepted and does not leave. -/
theorem Sound.lost (hpos : 0 < worldNum) (hwidth : ∀ f ∈ stream, f.length = worldNum) (h : Sound worldNum cntW stream s)
    (hcond : ¬ TailTaken worldNum cntW s i) : (Parallelr.step worldNum cntW s i).sent = s.sent ∧
      ∃ p, packetsOf (Parallelr.step worldNum cntW s i).taken = packetsOf s.taken ++ [p] := by
  simp only [TailTaken, not_forall, Bool.not_eq_true] at hcond
  obtain ⟨hval, ht, hlast, hrdy⟩ := hcond
  obtain ⟨f, rest, hp⟩ := flitValI_eq hval
  have hlen : s.flitDataI.length = worldNum := hwidth _ (by rw [flitDataI_eq hp, h.stream_eq, hp]; simp)
  have hfull := (h.detects.isTail_iff hlen hpos).mp ht
  have hacc : flitRdyO cntW s i = true := by simp [flitRdyO, hlast]
  constructor
  · change (if flitValO worldNum cntW s i && i.flitRdy then _ else s.sent) = _
    rw [hrdy, Bool.and_false, if_neg (by decide)]
  · refine ⟨((cutFlits wordLength s.taken).2 ++ s.flitDataI).take
      (size wordLength ((cutFlits wordLength s.taken).2 ++ s.flitDataI)), ?_⟩
    change packetsOf (if s.flitValI i && flitRdyO cntW s i then s.taken ++ [s.flitDataI] else s.taken) = _
    rw [hval, hacc, Bool.and_self, if_pos rfl, packetsOf, cutFlits_snoc, cutFlit, if_neg hfull]
    rfl

end Parallelr

theorem bypass_sound {width : Nat} (hwidth : ∀ f ∈ stream, f.length = width) (h : Streams stream width s)
    (hsame : s.sent = s.taken) : Streams stream width (s.bypass i) ∧ (s.bypass i).sent = (s.bypass i).taken := by
  rw [bypass]
  cases hfire : s.flitValI i && i.flitRdy with
  | false => exact ⟨h, hsame⟩
  | true =>
      obtain ⟨f, rest, hp⟩ := flitValI_eq ((Bool.and_eq_true _ _).mp hfire).1
      have hdata := flitDataI_eq hp
      refine ⟨⟨?_, ?_, h.width_snoc (hwidth _ (by rw [hdata, h.stream_eq, hp]; simp))⟩, ?_⟩
      · change stream = s.taken ++ [s.flitDataI] ++ s.pending.tail
        rw [h.stream_eq, hp, hdata, List.append_assoc]
        rfl
      · change packetsOf (s.sent ++ _) = packetsOf (s.taken ++ _)
        rw [hsame]
      · exact congrArg (· ++ _) hsame

/-- A receiver of wider flits is ready for the last flit of a packet, unless the flit fills the buffer. -/
def TailTaken (kIn kOut : Nat) (s : WidthAdaptor) (i : WidthIn) : Prop :=
  kIn < kOut → Parallelr.TailTaken (2 ^ kIn) (kOut - kIn) s i

instance (kIn kOut : Nat) (s : WidthAdaptor) (i : WidthIn) : Decidable (s.TailTaken kIn kOut i) :=
  inferInstanceAs (Decidable (kIn < kOut → s.flitValI i = true → Parallelr.isTailIn (2 ^ kIn) s = true →
    s.counter ≠ 2 ^ (kOut - kIn) - 1 → i.flitRdy = true))

/-- The invariant of each of the three adaptors. -/
def Sound (kIn kOut : Nat) (stream : List Flit) (s : WidthAdaptor) : Prop :=
  if kIn = kOut then Streams stream (2 ^ kOut) s ∧ s.sent = s.taken
  else if kOut < kIn then Serialer.Sound (2 ^ kOut) (kIn - kOut) stream s
  else Parallelr.Sound (2 ^ kIn) (kOut - kIn) stream s

variable {kIn kOut : Nat}

theorem Sound.streams (h : s.Sound kIn kOut stream) : Streams stream (2 ^ kOut) s := by
  unfold Sound at h
  split_ifs at h
  · exact h.1
  · exact h.toStreams
  · have hstreams := h.toStreams
    rwa [← Nat.pow_add, Nat.add_sub_cancel' (by omega)] at hstreams

theorem Sound.step (hwidth : ∀ f ∈ stream, f.length = 2 ^ kIn) (h : s.Sound kIn kOut stream) (hcond : s.TailTaken kIn kOut i) :
    (s.step i kIn kOut).Sound kIn kOut stream := by
  unfold Sound at h ⊢
  unfold WidthAdaptor.step
  split_ifs at h ⊢ with heq hlt
  · exact bypass_sound (heq ▸ hwidth) h.1 h.2
  · refine Serialer.Sound.step (Nat.two_pow_pos kOut) ?_ h i
    rwa [← Nat.pow_add, Nat.add_sub_cancel' hlt.le]
  · exact Parallelr.Sound.step (Nat.two_pow_pos kIn) hwidth h (hcond (by omega))

theorem Sound.start (kIn kOut : Nat) (stream : List Flit) : (start kIn stream).Sound kIn kOut stream := by
  unfold Sound
  split_ifs
  · exact ⟨⟨rfl, rfl, nofun⟩, rfl⟩
  · exact ⟨⟨rfl, rfl, nofun⟩, Nat.two_pow_pos _, rfl, by simp [WidthAdaptor.start]⟩
  · exact ⟨⟨rfl, rfl, nofun⟩, Nat.two_pow_pos _, rfl, rfl, fun _ => List.length_replicate⟩

/-- The packets cut from the output are those that were accepted, in order and word for word. -/
theorem words_kept {pkts : List (List Word)} {fss : List (List Flit)}
    (hpkts : List.Forall₂ (Packed wordLength (2 ^ kIn)) pkts fss)
    (h : Machine.Reaches (· = start kIn fss.flatten) (fun s i => s.step i kIn kOut) (TailTaken kIn kOut) s) :
    packetsOf s.sent = packetsOf s.taken ∧ packetsOf s.taken <+: pkts ∧ (s.pending = [] → packetsOf s.sent = pkts) ∧
      fss.flatten = s.taken ++ s.pending ∧ ∀ f ∈ s.sent, f.length = 2 ^ kOut := by
  have hs : s.Sound kIn kOut fss.flatten := by
    refine h.invariant (P := WidthAdaptor.Sound kIn kOut fss.flatten) ?_ fun _ _ h hc => h.step (length_of_packed hpkts) hc
    rintro _ rfl
    exact .start kIn kOut _
  obtain ⟨hstream, hcut, hwidth⟩ := hs.streams
  have hall : packetsOf fss.flatten = pkts := congrArg Prod.fst (cutFlits_packed hpkts)
  refine ⟨hcut, ?_, fun hp => ?_, hstream, hwidth⟩
  · rw [← hall, hstream]
    exact cutFlits_mono (List.prefix_append _ _)
  · rw [hcut, ← hall, hstream, hp, List.append_nil]

/-- Two packets for flits of two words: the first has one word, and a word to spare. -/
def twoPackets : List (List Word) := [[0], [0x400000, 7]]

def twoPacketsFlits : List (List Flit) := [[[0]], [[0x400000], [7]]]

theorem twoPackets_packed : List.Forall₂ (Packed wordLength (2 ^ 0)) twoPackets twoPacketsFlits :=
  .cons ⟨by decide, by decide, [], by decide⟩ (.cons ⟨by decide, by decide, [], by decide⟩ .nil)

/-- A receiver that waits, but not with the packet of one word. -/
def patient : List WidthIn := [⟨false, false⟩, ⟨true, true⟩, ⟨true, false⟩, ⟨true, false⟩, ⟨true, true⟩]

theorem words_kept_patient :
    let s := Machine.run (fun s i => step s i 0 1) (start 0 twoPacketsFlits.flatten) patient
    s.sent = [[0, 0], [0x400000, 7]] ∧ packetsOf s.sent = twoPackets := by
  have hstart : Machine.Reaches (· = start 0 twoPacketsFlits.flatten) (fun s i => s.step i 0 1) (TailTaken 0 1)
    (start 0 twoPacketsFlits.flatten) := .start rfl
  have hrun : Machine.Reaches (· = start 0 twoPacketsFlits.flatten) (fun s i => s.step i 0 1) (TailTaken 0 1)
    (Machine.run (fun s i => step s i 0 1) (start 0 twoPacketsFlits.flatten) patient) := hstart.run (by decide +kernel)
  exact ⟨by decide +kernel, (words_kept twoPackets_packed hrun).2.2.1 (by decide +kernel)⟩

/-- The packet of one word is accepted while the receiver waits. -/
theorem tail_lost : ¬ ∀ (kIn kOut : Nat) (pkts : List (List Word)) (fss : List (List Flit)) (s : WidthAdaptor),
    List.Forall₂ (Packed wordLength (2 ^ kIn)) pkts fss →
    Machine.Reaches (· = start kIn fss.flatten) (fun s i => s.step i kIn kOut) (fun _ _ => True) s →
    packetsOf s.sent = packetsOf s.taken := by
  intro h
  have hstart : Machine.Reaches (· = start 0 twoPacketsFlits.flatten) (fun s i => s.step i 0 1) (fun _ _ => True)
    (start 0 twoPacketsFlits.flatten) := .start rfl
  exact absurd (h 0 1 twoPackets twoPacketsFlits _ twoPackets_packed (.next (i := ⟨true, false⟩) hstart trivial)) (by decide)

end OpenPiton.Chipset.WidthAdaptor

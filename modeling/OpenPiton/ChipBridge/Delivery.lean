import OpenPiton.ChipBridge.Bridge
import OpenPiton.Lib.Counter

namespace OpenPiton.ChipBridge

/-- The beats to come make up the flits of a list, the first perhaps behind the half that is there. -/
inductive Stream : Option (Net × BitVec 32) → List Beat → List (Net × BitVec 64) → Prop
  | nil : Stream none [] []
  | idle {data : BitVec 32} {bs : List Beat} {fl : List (Net × BitVec 64)} : Stream none bs fl →
      Stream none (⟨none, data⟩ :: bs) fl
  | first {n : Net} {lo : BitVec 32} {bs : List Beat} {fl : List (Net × BitVec 64)} : Stream (some (n, lo)) bs fl →
      Stream none (⟨some n, lo⟩ :: bs) fl
  | second {n : Net} {lo hi : BitVec 32} {bs : List Beat} {fl : List (Net × BitVec 64)} : Stream none bs fl →
      Stream (some (n, lo)) (⟨some n, hi⟩ :: bs) ((n, hi ++ lo) :: fl)

namespace Stream

variable {half : Option (Net × BitVec 32)} {bs bs' : List Beat} {fl fl' : List (Net × BitVec 64)}

theorem append (h : Stream half bs fl) (h' : Stream none bs' fl') : Stream half (bs ++ bs') (fl ++ fl') := by
  induction h with
  | nil => exact h'
  | idle _ ih => exact .idle ih
  | first _ ih => exact .first ih
  | second _ ih => exact .second ih

theorem idles (data : List (BitVec 32)) : Stream none (data.map (Beat.mk none)) [] := by
  induction data with
  | nil => exact .nil
  | cons d data ih => exact .idle ih

theorem flit (n : Net) (w : BitVec 64) :
    Stream none [⟨some n, w.extractLsb' 0 32⟩, ⟨some n, w.extractLsb' 32 32⟩] [(n, w)] := by
  have hw : w.extractLsb' 32 32 ++ w.extractLsb' 0 32 = w := by
    ext i hi
    grind
  have h : Stream none [⟨some n, w.extractLsb' 0 32⟩, ⟨some n, w.extractLsb' 32 32⟩]
      [(n, w.extractLsb' 32 32 ++ w.extractLsb' 0 32)] := .first (.second .nil)
  rwa [hw] at h

end Stream

namespace Receiver

/-- The half that the receiver has. -/
def Half (r : Receiver) : Option (Net × BitVec 32) → Prop
  | none => r.channelBufferCount = false
  | some (n, lo) => r.channelBufferCount = true ∧ r.bufferedChannel = some n ∧ r.channelBuffer = lo

variable {kind : Kind} {r : Receiver} {half : Option (Net × BitVec 32)} {b : Beat} {bs : List Beat}
  {fl : List (Net × BitVec 64)}

/-- Both receivers take the stream apart. -/
theorem Half.step (kind : Kind) (h : r.Half half) (hs : Stream half (b :: bs) fl) :
    ∃ half' fl', (r.step kind b).Half half' ∧ Stream half' bs fl' ∧ fl = (r.sort kind b).toList ++ fl' := by
  cases hs with
  | idle hs =>
      have hcount : r.channelBufferCount = false := h
      refine ⟨none, fl, ?_, hs, ?_⟩
      · cases kind <;> simp [Half, Receiver.step, hcount]
      · simp [Receiver.sort, hcount]
  | @first n lo bs fl hs =>
      have hcount : r.channelBufferCount = false := h
      refine ⟨some (n, lo), fl, ?_, hs, ?_⟩
      · cases kind <;> simp [Half, Receiver.step, hcount]
      · simp [Receiver.sort, hcount]
  | @second n lo hi bs fl hs =>
      obtain ⟨hcount, hchannel, hbuffer⟩ := h
      refine ⟨none, fl, ?_, hs, ?_⟩
      · cases kind <;> simp [Half, Receiver.step, hcount, hchannel]
      · simp [Receiver.sort, hcount, hchannel, hbuffer]

end Receiver

/-- The flits of a network. -/
def ofNet (n : Net) (fl : List (Net × BitVec 64)) : List (BitVec 64) := (fl.filter fun p => p.1 = n).map Prod.snd

theorem ofNet_append (n : Net) (fl fl' : List (Net × BitVec 64)) : ofNet n (fl ++ fl') = ofNet n fl ++ ofNet n fl' := by
  rw [ofNet, List.filter_append, List.map_append]
  rfl

namespace Chooser

variable {c : Chooser} {i : ChooserIn} {n : Net}

theorem select_open (hc : c.selectCounter = false) (h : c.select i = some n) : c.shut i n = false := by
  simp only [select, hc, Bool.false_eq_true, if_false] at h
  cases h1 : c.shut i .n1 <;> cases h2 : c.shut i .n2 <;> cases h3 : c.shut i .n3 <;>
    simp only [h1, h2, h3, Bool.and_self, Bool.and_true, Bool.and_false, Bool.false_eq_true, if_false, if_true] at h
  all_goals
    cases n <;> first | assumption | (exfalso; revert h; first | (split <;> simp) | simp)

theorem takes_iff (hc : c.selectCounter = false) : c.takes i n = true ↔ c.select i = some n := by
  rw [takes, rdy, hc]
  constructor
  · intro h
    simp only [Bool.not_false, Bool.and_true, Bool.and_eq_true, beq_iff_eq] at h
    exact h.1
  · intro h
    have hopen := select_open hc h
    simp only [shut, Bool.or_eq_false_iff, Bool.not_eq_false'] at hopen
    simp [h, hopen.2]

theorem takes_held (hc : c.selectCounter = true) : c.takes i n = false := by
  simp [takes, rdy, hc]

theorem credit_lt (h : c.takes i n = true) : c.credit n ≠ 255 := by
  cases hc : c.selectCounter with
  | true => simp [takes_held hc] at h
  | false =>
      have hopen := select_open hc ((takes_iff hc).mp h)
      simp only [shut, Bool.or_eq_false_iff, beq_eq_false_iff_ne] at hopen
      exact hopen.1

theorem dataOut_eq (h : c.takes i n = true) : c.dataOut i = i.din n := by
  have hr : c.rdy i n = true := (Bool.and_eq_true _ _ ▸ h).1
  have hother : ∀ m ≠ n, c.rdy i m = false := by
    intro m hm
    simp only [rdy, Bool.and_eq_true, beq_iff_eq] at hr
    rw [rdy, hr.1]
    simp [hm.symm]
  rw [dataOut]
  cases n with
  | n1 => rw [if_pos hr]
  | n2 => rw [if_neg (by simp [hother .n1]), if_pos hr]
  | n3 => rw [if_neg (by simp [hother .n1]), if_neg (by simp [hother .n2]), if_pos hr]

/-- The credits count what leaves less what comes back, without wrapping. -/
theorem creditNext_eq (hle : (c.credit n).toNat ≤ 255)
    (hcredit : i.creditFromFpga n = true → 0 < (c.credit n).toNat) :
    (c.creditNext i n).toNat + (i.creditFromFpga n).toNat = (c.credit n).toNat + (c.takes i n).toNat ∧
      (c.creditNext i n).toNat ≤ 255 := by
  rw [creditNext]
  cases ht : c.takes i n with
  | true =>
      have hne : (c.credit n).toNat ≠ 255 := fun h => credit_lt ht (BitVec.eq_of_toNat_eq h)
      cases hf : i.creditFromFpga n with
      | true => exact ⟨rfl, hle⟩
      | false =>
          have hadd := Counter.toNat_succ (c := c.credit n) (by omega)
          change (c.credit n + 1).toNat + 0 = (c.credit n).toNat + 1 ∧ (c.credit n + 1).toNat ≤ 255
          omega
  | false =>
      cases hf : i.creditFromFpga n with
      | true =>
          have hpos := hcredit hf
          have hsub := Counter.toNat_pred hpos
          change (c.credit n - 1).toNat + 1 = (c.credit n).toNat + 0 ∧ (c.credit n - 1).toNat ≤ 255
          omega
      | false => exact ⟨rfl, hle⟩

end Chooser

namespace Bridge

theorem move_eq {α : Type} (line : List α) (x : α) : (move line x).1 :: (move line x).2 = line ++ [x] := by
  cases line <;> rfl

theorem length_move {α : Type} (line : List α) (x : α) : (move line x).2.length = line.length := by
  simp [move]

/-- The beats to come for the receiver: those on the channel and those in the serializer. -/
def pending (s : Bridge) : List Beat :=
  s.channel ++ [s.serializer.beat] ++ if s.serializer.counter then [] else [⟨s.serializer.channel, s.serializer.data⟩]

/-- The credits of a network on the way back. -/
def returning (s : Bridge) (n : Net) : Nat := s.credits.countP (· n) + s.creditFifo.countP (· n)

/-- The chooser holds a choice just while the serializer has a half to send. -/
structure Aligned (s : Bridge) : Prop where
  counter : s.serializer.counter = !s.chooser.selectCounter
  held : s.chooser.selectCounter = true → s.chooser.selectReg = s.serializer.channel ∧ s.serializer.channel ≠ none

/-- What holds in every state: `half` is at the receiver and the flits `fl` are under way. -/
structure Flow (cfg : Cfg) (s : Bridge) (half : Option (Net × BitVec 32)) (fl : List (Net × BitVec 64)) : Prop where
  aligned : s.Aligned
  latency : s.channel.length = cfg.latency
  arrived : ∀ n, s.arrived n = s.sent n ++ s.source n
  receiver : s.receiver.Half half
  stream : Stream half s.pending fl
  sent : ∀ n, s.consumed n ++ s.fifo n ++ ofNet n fl = s.sent n
  returned : ∀ n, s.returned n + s.returning n = (s.consumed n).length
  credit : ∀ n, (s.sent n).length = s.returned n + (s.chooser.credit n).toNat
  credit_le : ∀ n, (s.chooser.credit n).toNat ≤ 255

variable {cfg : Cfg} {s : Bridge} {half : Option (Net × BitVec 32)} {fl : List (Net × BitVec 64)}
  {shown : Net → Bool} {creditShown : Bool}

theorem Init.flow (h : s.Init cfg) : s.Flow cfg none [] := by
  obtain ⟨hsource, hchooser, hser, ⟨data, hchannel, hlen⟩, hrec, hfifo, hcf, hcredits, harr, hsent, hcons, hret⟩ := h
  refine ⟨⟨by simp [hser, hchooser], by simp [hchooser]⟩, by simp [hchannel, hlen], ?_, hrec, ?_, ?_, ?_, ?_, ?_⟩
  · intro n
    rw [harr, hsent, hsource, List.append_nil]
  · have hp : s.pending = (data ++ [0]).map (Beat.mk none) := by simp [pending, hchannel, hser, Serializer.beat]
    rw [hp]
    exact Stream.idles _
  · intro n
    rw [hcons, hfifo, hsent]
    rfl
  · intro n
    rw [hret, hcons]
    simp [returning, hcredits, hcf]
  · intro n
    rw [hsent, hret]
    simp [hchooser]
  · intro n
    simp [hchooser]

/-- A flit under way or at the consumer has a credit, and so has each credit on its way back. -/
theorem Flow.account (h : s.Flow cfg half fl) (n : Net) :
    (s.fifo n).length + (ofNet n fl).length + s.returning n = (s.chooser.credit n).toNat := by
  have hsent := congrArg List.length (h.sent n)
  have hret := h.returned n
  have hcredit := h.credit n
  simp only [List.length_append] at hsent
  omega

/-- The serializer sends the flit that the chooser takes, and nothing else. -/
theorem Flow.pending_tick (cfg : Cfg) (shown : Net → Bool) (creditShown : Bool) (h : s.Aligned) : ∃ rest added new, s.pending = (move s.channel s.serializer.beat).1 :: rest ∧
    (s.tick cfg shown creditShown).pending = rest ++ added ∧ Stream none added new ∧
    (∀ n, ofNet n new = if s.chooser.takes (s.chooserIn shown creditShown) n then
      [(s.chooserIn shown creditShown).din n] else []) ∧ (s.tick cfg shown creditShown).Aligned := by
  have hmove := move_eq s.channel s.serializer.beat
  have hcounter := h.counter
  cases hc : s.chooser.selectCounter with
  | true =>
      obtain ⟨hreg, hne⟩ := h.held hc
      rw [hc, Bool.not_true] at hcounter
      have hser : (s.tick cfg shown creditShown).serializer = { s.serializer with dataF := s.serializer.data, counter := true } := by
        simp [tick, Serializer.step, hcounter, hne]
      have hsel : (s.tick cfg shown creditShown).chooser.selectCounter = false := by
        simp [tick, Chooser.step, Chooser.select, hc]
      refine ⟨(move s.channel s.serializer.beat).2 ++ [⟨s.serializer.channel, s.serializer.data⟩], [], [], ?_, ?_, .nil, ?_, ?_⟩
      · rw [pending, ← hmove, hcounter]
        rfl
      · rw [pending, hser]
        simp [Serializer.beat, tick]
      · intro n
        rw [Chooser.takes_held hc]
        rfl
      · exact ⟨by rw [hser, hsel]; rfl, fun hs => by rw [hsel] at hs; cases hs⟩
  | false =>
      rw [hc, Bool.not_false] at hcounter
      cases hsel : s.chooser.select (s.chooserIn shown creditShown) with
      | none =>
          have hser : (s.tick cfg shown creditShown).serializer = { s.serializer with channel := none, counter := true } := by
            simp [tick, Serializer.step, hcounter, hsel]
          have hsel' : (s.tick cfg shown creditShown).chooser.selectCounter = false := by
            simp [tick, Chooser.step, hsel]
          refine ⟨(move s.channel s.serializer.beat).2, [⟨none, s.serializer.dataF⟩], [], ?_, ?_, .idle .nil, ?_, ?_⟩
          · rw [pending, ← hmove, hcounter]
            simp
          · rw [pending, hser]
            simp [Serializer.beat, tick]
          · intro n
            have ht : s.chooser.takes (s.chooserIn shown creditShown) n = false := by
              rw [Bool.eq_false_iff, ne_eq, Chooser.takes_iff hc, hsel]
              exact fun h => by cases h
            rw [ht]
            rfl
          · exact ⟨by rw [hser, hsel']; rfl, fun hs => by rw [hsel'] at hs; cases hs⟩
      | some m =>
          have ht := (Chooser.takes_iff hc).mpr hsel
          have hdata := Chooser.dataOut_eq ht
          have hser : (s.tick cfg shown creditShown).serializer =
              { dataF := ((s.chooserIn shown creditShown).din m).extractLsb' 0 32
                data := ((s.chooserIn shown creditShown).din m).extractLsb' 32 32
                channel := some m
                counter := false } := by
            simp [tick, Serializer.step, hcounter, hsel, hdata]
          refine ⟨(move s.channel s.serializer.beat).2, _, _, ?_, ?_,
            Stream.flit m ((s.chooserIn shown creditShown).din m), ?_, ?_⟩
          · rw [pending, ← hmove, hcounter]
            simp
          · rw [pending, hser]
            simp [Serializer.beat, tick]
          · intro n
            by_cases hn : m = n
            · subst hn
              simp [ofNet, ht]
            · have ht' : s.chooser.takes (s.chooserIn shown creditShown) n = false := by
                rw [Bool.eq_false_iff, ne_eq, Chooser.takes_iff hc, hsel]
                exact fun h => hn (Option.some.inj h)
              simp [ofNet, ht', hn]
          · constructor
            · rw [hser]
              simp [tick, Chooser.step, hsel, hc]
            · intro _
              rw [hser]
              exact ⟨hsel, Option.some_ne_none m⟩

theorem countP_headD (l : List (Net → Bool)) (n : Net) :
    l.tail.countP (· n) + (l.headD (fun _ => false) n).toNat = l.countP (· n) := by
  cases l with
  | nil => rfl
  | cons x l =>
      change l.countP (· n) + (x n).toNat = _
      rw [List.countP_cons]
      cases x n <;> rfl

/-- A credit leaves the buffer, or goes over the channel, or reaches the chooser. -/
theorem returning_tick (cfg : Cfg) (s : Bridge) (shown : Net → Bool) (creditShown : Bool) (n : Net) : (s.tick cfg shown creditShown).returning n +
    ((s.chooserIn shown creditShown).creditFromFpga n).toNat = s.returning n := by
  have hmove := move_eq s.credits (s.creditOut creditShown)
  have hline : (move s.credits (s.creditOut creditShown)).2.countP (· n) +
      ((move s.credits (s.creditOut creditShown)).1 n).toNat = s.credits.countP (· n) + (s.creditOut creditShown n).toNat := by
    have := congrArg (List.countP (· n)) hmove
    rw [List.countP_cons, List.countP_append, List.countP_singleton] at this
    cases h1 : (move s.credits (s.creditOut creditShown)).1 n <;> cases h2 : s.creditOut creditShown n <;>
      simp [h1, h2] at this ⊢ <;> omega
  have hfifo : (s.tick cfg shown creditShown).creditFifo.countP (· n) + (s.creditOut creditShown n).toNat =
      s.creditFifo.countP (· n) := by
    cases creditShown with
    | false => rfl
    | true => exact countP_headD s.creditFifo n
  change (move s.credits (s.creditOut creditShown)).2.countP (· n) + _ + _ = _
  simp only [returning, chooserIn] at *
  omega

theorem fifo_tick {n : Net} {fl' : List (Net × BitVec 64)} (hroom : (s.fifo n).length + (ofNet n ((s.sorted cfg).toList ++ fl')).length ≤ cfg.depth) :
    (s.tick cfg shown creditShown).fifo n = s.fifo n ++ ofNet n (s.sorted cfg).toList := by
  change s.fifo n ++ _ = _
  congr 1
  cases hs : s.sorted cfg with
  | none => rfl
  | some p =>
      by_cases hp : p.1 = n
      · rw [hs, ofNet_append, List.length_append] at hroom
        have hlt : (s.fifo n).length < cfg.depth := by
          have : (ofNet n (some p).toList).length = 1 := by simp [ofNet, hp]
          omega
        simp [ofNet, hp, hlt, Option.filter_some]
      · simp [ofNet, hp, Option.filter_some]

theorem Flow.tick (h : s.Flow cfg half fl) (shown : Net → Bool) (creditShown : Bool) :
    ∃ half' fl' new, (s.tick cfg shown creditShown).Flow cfg half' (fl' ++ new) ∧ fl = (s.sorted cfg).toList ++ fl' := by
  obtain ⟨rest, added, new, hpending, hpending', hadded, hnew, haligned⟩ :=
    Flow.pending_tick cfg shown creditShown h.aligned
  have hstream := h.stream
  rw [hpending] at hstream
  obtain ⟨half', fl', hhalf, hstream', hfl⟩ := h.receiver.step cfg.kind hstream
  change fl = (s.sorted cfg).toList ++ fl' at hfl
  have hcredit (n : Net) := Chooser.creditNext_eq (i := s.chooserIn shown creditShown) (h.credit_le n) fun hc => by
    have haccount := h.account n
    have hret := returning_tick cfg s shown creditShown n
    rw [hc] at hret
    simp only [Bool.toNat_true] at hret
    omega
  have htake (n : Net) : s.chooser.takes (s.chooserIn shown creditShown) n = true →
      s.source n = (s.chooserIn shown creditShown).din n :: (s.source n).tail := by
    intro ht
    have hval : (s.chooserIn shown creditShown).val n = true := (Bool.and_eq_true _ _ ▸ ht).2
    cases hs : s.source n with
    | nil => simp [chooserIn, hs] at hval
    | cons w ws => simp [chooserIn, hs]
  refine ⟨half', fl', new, ⟨haligned, ?_, ?_, hhalf, ?_, ?_, ?_, ?_, ?_⟩, hfl⟩
  · change (move s.channel s.serializer.beat).2.length = cfg.latency
    rw [length_move, h.latency]
  · intro n
    change s.arrived n = (s.sent n ++ _) ++ (if _ then _ else _)
    rw [h.arrived n]
    split
    case isTrue ht =>
      conv_lhs => rw [htake n ht]
      rw [List.append_assoc]
      rfl
    case isFalse => rw [List.append_nil]
  · rw [hpending']
    exact hstream'.append hadded
  · intro n
    have haccount := h.account n
    have hle := h.credit_le n
    have hdepth := cfg.depth_ge
    rw [hfl] at haccount
    rw [fifo_tick (show (s.fifo n).length + (ofNet n ((s.sorted cfg).toList ++ fl')).length ≤ cfg.depth by omega), ofNet_append, hnew]
    change s.consumed n ++ _ ++ _ = s.sent n ++ _
    rw [← h.sent n, hfl, ofNet_append]
    simp only [List.append_assoc]
  · intro n
    have hret := returning_tick cfg s shown creditShown n
    have := h.returned n
    change s.returned n + ((s.chooserIn shown creditShown).creditFromFpga n).toNat + _ = (s.consumed n).length
    omega
  · intro n
    have hlen : ((if s.chooser.takes (s.chooserIn shown creditShown) n then [(s.chooserIn shown creditShown).din n] else []) :
        List (BitVec 64)).length = (s.chooser.takes (s.chooserIn shown creditShown) n).toNat := by
      cases s.chooser.takes (s.chooserIn shown creditShown) n <;> rfl
    have hcount := (hcredit n).1
    have := h.credit n
    change (s.sent n ++ _).length = s.returned n + ((s.chooserIn shown creditShown).creditFromFpga n).toNat +
      (s.chooser.creditNext (s.chooserIn shown creditShown) n).toNat
    rw [List.length_append, hlen]
    omega
  · intro n
    exact (hcredit n).2

theorem Flow.arrive (h : s.Flow cfg half fl) (val : Net → Bool) (data : Net → BitVec 64) :
    (s.step cfg (.arrive val data)).Flow cfg half fl := by
  refine ⟨⟨h.aligned.counter, h.aligned.held⟩, h.latency, ?_, h.receiver, h.stream, h.sent, h.returned, h.credit, h.credit_le⟩
  intro n
  change s.arrived n ++ _ = s.sent n ++ (s.source n ++ _)
  rw [h.arrived n, List.append_assoc]

theorem consume_fifo (rdy : Net → Bool) (n : Net) : (s.step cfg (.consume rdy)).consumed n ++ (s.step cfg (.consume rdy)).fifo n =
    s.consumed n ++ s.fifo n := by
  change s.consumed n ++ (if _ then _ else _) ++ (if _ then _ else _) = _
  split
  · rw [List.append_assoc, ← List.drop_one, List.take_append_drop]
  · rw [List.append_nil]

theorem Flow.consume (h : s.Flow cfg half fl) (rdy : Net → Bool) : (s.step cfg (.consume rdy)).Flow cfg half fl := by
  have hcount (n : Net) : (s.step cfg (.consume rdy)).creditFifo.countP (· n) =
      s.creditFifo.countP (· n) + (s.creditGather cfg rdy n).toNat := by
    change (s.creditFifo ++ if _ then _ else _).countP (· n) = _
    rw [List.countP_append]
    congr 1
    split
    case isTrue =>
      rw [List.countP_singleton]
      cases s.creditGather cfg rdy n <;> rfl
    case isFalse hnone =>
      simp only [Bool.or_eq_true, not_or, Bool.not_eq_true] at hnone
      cases n <;> simp [hnone]
  have hlen (n : Net) : ((if s.creditGather cfg rdy n then (s.fifo n).take 1 else []) : List (BitVec 64)).length =
      (s.creditGather cfg rdy n).toNat := by
    cases hg : s.creditGather cfg rdy n with
    | false => rfl
    | true =>
        have hne : s.fifo n ≠ [] := by
          simp only [creditGather, Bool.and_eq_true, Bool.not_eq_true', List.isEmpty_eq_false_iff] at hg
          exact hg.2.1
        have := List.length_pos_iff.mpr hne
        simp only [if_true, List.length_take, Bool.toNat_true]
        omega
  refine ⟨⟨h.aligned.counter, h.aligned.held⟩, h.latency, h.arrived, h.receiver, h.stream, ?_, ?_, h.credit, h.credit_le⟩
  · intro n
    rw [consume_fifo rdy n]
    exact h.sent n
  · intro n
    have hret := h.returned n
    change s.returned n + (s.credits.countP (· n) + (s.step cfg (.consume rdy)).creditFifo.countP (· n)) =
      (s.consumed n ++ if _ then _ else _).length
    rw [List.length_append, hlen n, hcount n]
    simp only [returning] at hret
    omega

theorem Flow.step (h : s.Flow cfg half fl) (e : Event) : ∃ half' fl', (s.step cfg e).Flow cfg half' fl' := by
  cases e with
  | arrive val data => exact ⟨half, fl, h.arrive val data⟩
  | tick shown creditShown =>
      obtain ⟨half', fl', new, h', -⟩ := h.tick shown creditShown
      exact ⟨half', fl' ++ new, h'⟩
  | consume rdy => exact ⟨half, fl, h.consume rdy⟩

theorem arrived_step (e : Event) (n : Net) :
    s.consumed n ++ s.fifo n <+: (s.step cfg e).consumed n ++ (s.step cfg e).fifo n := by
  cases e with
  | arrive val data => exact List.prefix_rfl
  | tick shown creditShown =>
      change s.consumed n ++ s.fifo n <+: s.consumed n ++ (s.fifo n ++ _)
      rw [← List.append_assoc]
      exact List.prefix_append _ _
  | consume rdy =>
      rw [consume_fifo rdy n]

theorem arrived_run (es : List Event) (n : Net) :
    s.consumed n ++ s.fifo n <+: (Machine.run (step cfg) s es).consumed n ++ (Machine.run (step cfg) s es).fifo n := by
  induction es generalizing s with
  | nil => exact List.prefix_rfl
  | cons e es ih => exact (arrived_step e n).trans ih

/-- What is to come at a moment: the beats `old` with the flits `fl`. They complete the flits of `base`. -/
structure Passing (s : Bridge) (old : List Beat) (base : Net → List (BitVec 64)) (half : Option (Net × BitVec 32))
    (fl : List (Net × BitVec 64)) : Prop where
  pending : old <+: s.pending
  receiver : s.receiver.Half half
  stream : Stream half old fl
  base : ∀ n, base n <+: s.consumed n ++ s.fifo n ++ ofNet n fl

variable {b : Beat} {old : List Beat} {base : Net → List (BitVec 64)} {fl₀ : List (Net × BitVec 64)}
  {half₀ : Option (Net × BitVec 32)}

theorem Passing.tick (hp : s.Passing (b :: old) base half₀ fl₀) (h : s.Flow cfg half fl) (shown : Net → Bool) (creditShown : Bool) :
    ∃ half' fl', (s.tick cfg shown creditShown).Passing old base half' fl' := by
  obtain ⟨rest, added, new, hpending, hpending', -, -, -⟩ :=
    Flow.pending_tick cfg shown creditShown h.aligned
  obtain ⟨-, fl', -, -, hfl⟩ := h.tick shown creditShown
  have hold := hp.pending
  rw [hpending, List.cons_prefix_cons] at hold
  obtain ⟨rfl, hold⟩ := hold
  obtain ⟨half', fl₁, hhalf, hstream, hfl₁⟩ := hp.receiver.step cfg.kind hp.stream
  change fl₀ = (s.sorted cfg).toList ++ fl₁ at hfl₁
  refine ⟨half', fl₁, ⟨?_, hhalf, hstream, ?_⟩⟩
  · rw [hpending']
    exact hold.trans (List.prefix_append _ _)
  · intro n
    have haccount := h.account n
    have hle := h.credit_le n
    have hdepth := cfg.depth_ge
    rw [hfl] at haccount
    have hbase := hp.base n
    rw [hfl₁, ofNet_append] at hbase
    rw [fifo_tick (show (s.fifo n).length + (ofNet n ((s.sorted cfg).toList ++ fl')).length ≤ cfg.depth by omega)]
    simpa only [Bridge.tick, List.append_assoc] using hbase

/-- The flits that were to come have arrived when the channel has moved as often as it had beats. -/
theorem Passing.run (h : s.Flow cfg half fl) (hp : s.Passing old base half₀ fl₀) {es : List Event}
    (hticks : old.length ≤ es.countP Event.isTick) (n : Net) :
    base n <+: (Machine.run (step cfg) s es).consumed n ++ (Machine.run (step cfg) s es).fifo n := by
  induction es generalizing s old half fl half₀ fl₀ with
  | nil =>
      obtain rfl : old = [] := List.eq_nil_of_length_eq_zero (Nat.le_zero.mp hticks)
      have hbase := hp.base n
      cases hp.stream
      change base n <+: s.consumed n ++ s.fifo n
      simpa [ofNet] using hbase
  | cons e es ih =>
      obtain ⟨half', fl', h'⟩ := h.step e
      cases old with
      | nil =>
          have hbase := hp.base n
          cases hp.stream
          refine List.IsPrefix.trans ?_ (arrived_run (e :: es) n)
          simpa [ofNet] using hbase
      | cons b old =>
          cases e with
          | arrive val data =>
              exact ih h' (show Passing _ (b :: old) _ _ _ from ⟨hp.pending, hp.receiver, hp.stream, hp.base⟩) hticks
          | tick shown creditShown =>
              obtain ⟨half₁, fl₁, hp'⟩ := hp.tick h shown creditShown
              refine ih h' hp' ?_
              rw [List.countP_cons_of_pos rfl, List.length_cons] at hticks
              omega
          | consume rdy =>
              refine ih h' (show Passing _ (b :: old) _ _ _ from ⟨hp.pending, hp.receiver, hp.stream, fun n => ?_⟩) hticks
              rw [consume_fifo rdy n]
              exact hp.base n

theorem Flow.delivery (h : s.Flow cfg half fl) : Delivery s where
  sent := h.arrived
  received n := ⟨ofNet n fl, h.sent n⟩
  credit := h.credit
  credit_le := h.credit_le
  fifo_le n := by
    have := h.account n
    omega

theorem Flow.length_pending (h : s.Flow cfg half fl) : s.pending.length ≤ cfg.latency + 2 := by
  rw [pending, List.length_append, List.length_append, h.latency]
  split <;> simp

theorem chip_bridge_delivers (h : Machine.Reaches (Init cfg) (step cfg) (fun _ _ => True) s) :
    Delivery s ∧ ∀ es : List Event, cfg.latency + 2 ≤ es.countP Event.isTick → ∀ n,
      s.sent n <+: (Machine.run (step cfg) s es).consumed n ++ (Machine.run (step cfg) s es).fifo n := by
  obtain ⟨half, fl, hflow⟩ : ∃ half fl, s.Flow cfg half fl :=
    h.invariant (P := fun s => ∃ half fl, s.Flow cfg half fl) (fun _ hi => ⟨none, [], Init.flow hi⟩)
      fun _ e ⟨_, _, hf⟩ _ => hf.step e
  refine ⟨hflow.delivery, fun es hticks n => ?_⟩
  have hp : s.Passing s.pending s.sent half fl :=
    ⟨List.prefix_rfl, hflow.receiver, hflow.stream, fun n => by rw [hflow.sent n]⟩
  exact hp.run hflow (hflow.length_pending.trans hticks) n

/-- The receiver of the FPGA behind three registers and a cycle of wire. -/
def fpgaCfg : Cfg := ⟨.fpgaBridgeRcv, 4, 3, 8, 256, 1024, by decide⟩

def resetBridge : Bridge where
  source _ := []
  chooser := {}
  serializer := {}
  channel := List.replicate 4 ⟨none, 0⟩
  receiver := {}
  fifo _ := []
  creditFifo := []
  credits := List.replicate 3 fun _ => false
  arrived _ := []
  sent _ := []
  consumed _ := []
  returned _ := 0

theorem init_resetBridge : Init fpgaCfg resetBridge :=
  ⟨fun _ => rfl, rfl, rfl, ⟨List.replicate 4 0, rfl, rfl⟩, rfl, fun _ => rfl, rfl, rfl, fun _ => rfl, fun _ => rfl,
    fun _ => rfl, fun _ => rfl⟩

/-- A flit on each of the networks 1 and 2, which then go over the channel. -/
def twoFlits : List Event :=
  [.arrive (fun n => n != .n3) fun n => if n = .n1 then 5#64 <<< 32 else 7] ++
    List.replicate 12 (.tick (fun _ => true) true) ++ [.consume fun _ => true]

theorem delivers_two_flits : ((Machine.run (step fpgaCfg) resetBridge twoFlits).consumed .n1 = [5#64 <<< 32] ∧
    (Machine.run (step fpgaCfg) resetBridge twoFlits).consumed .n2 = [7]) ∧
    Delivery (Machine.run (step fpgaCfg) resetBridge twoFlits) ∧
    ∀ es : List Event, fpgaCfg.latency + 2 ≤ es.countP Event.isTick → ∀ n,
      (Machine.run (step fpgaCfg) resetBridge twoFlits).sent n <+:
        (Machine.run (step fpgaCfg) (Machine.run (step fpgaCfg) resetBridge twoFlits) es).consumed n ++
          (Machine.run (step fpgaCfg) (Machine.run (step fpgaCfg) resetBridge twoFlits) es).fifo n :=
  ⟨by decide +kernel, chip_bridge_delivers (.run (.start init_resetBridge) (by decide))⟩

end Bridge

end OpenPiton.ChipBridge

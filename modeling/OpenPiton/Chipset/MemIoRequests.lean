import OpenPiton.Chipset.MemIoSplitter

namespace OpenPiton.Chipset

open L15 (Word)
open Noc1 (fieldLength)
open Packets

namespace Parse

variable {build : Build}

/-- The registers after the flits of a list. -/
def after (build : Build) (l : List Taken) : Parse := l.foldl (next build) {}

theorem after_snoc (l : List Taken) (a : Taken) : after build (l ++ [a]) = (after build l).next build a := by
  rw [after, List.foldl_append]
  rfl

end Parse

namespace MemIoSplitter

variable {build : Build} {s : MemIoSplitter} {i : MemIoSplitterIn}

/-- The second stage goes on when it is empty or its destination is ready, and the first follows. -/
def shift (s : MemIoSplitter) (i : MemIoSplitterIn) : MemIoSplitter :=
  if s.stallBuf1 i then s
  else
    { s with
      buf0State := .inval
      buf1Data := s.buf0Data
      buf1State := s.buf0State
      buf1Dest := s.parse.dest
      sent := s.sent ++ s.delivers i }

def take (build : Build) (s : MemIoSplitter) (i : MemIoSplitterIn) : MemIoSplitter :=
  { s with
    parse := s.parse.next build ⟨i.noc2Data, i.uartBootEn⟩
    buf0Data := i.noc2Data
    buf0State := s.parse.stateNext
    taken := s.taken ++ [⟨i.noc2Data, i.uartBootEn⟩] }

/-- The first stage takes a flit when it is empty. -/
def accept (build : Build) (s : MemIoSplitter) (i : MemIoSplitterIn) : MemIoSplitter :=
  if s.buf0State ≠ .inval then s
  else if i.noc2Val then s.take build i
  else { s with buf0Data := i.noc2Data }

theorem delivers_of_empty (h : s.buf1State = .inval) : s.delivers i = [] := by
  simp [delivers, val, buf1Val, h]

theorem delivers_of_stall (h : s.stallBuf1 i = true) : s.delivers i = [] := by
  rw [stallBuf1, Bool.and_eq_true, Bool.not_eq_true', rdyMuxOut] at h
  cases hsel : s.rdyMuxSel <;> rw [hsel] at h <;> simp_all [delivers, val]

theorem delivers_of_go (h : s.stallBuf1 i = false) (hv : s.buf1State ≠ .inval) :
    s.rdyMuxSel ≠ .inval ∧ s.delivers i = [(s.rdyMuxSel, s.buf1Data)] := by
  have hv : s.buf1Val = true := bne_iff_ne.mpr hv
  rw [stallBuf1, hv, Bool.true_and, Bool.not_eq_false', rdyMuxOut] at h
  cases hsel : s.rdyMuxSel <;> rw [hsel] at h <;> simp_all [delivers, val]

def inBuf0 (s : MemIoSplitter) : List Word := if s.buf0State = .inval then [] else [s.buf0Data]

def inBuf1 (s : MemIoSplitter) : List Word := if s.buf1State = .inval then [] else [s.buf1Data]

theorem inBuf0_length : s.inBuf0.length ≤ 1 := by
  rw [inBuf0]
  split <;> simp

theorem inBuf1_length : s.inBuf1.length ≤ 1 := by
  rw [inBuf1]
  split <;> simp

theorem delivers_length (h : s.stallBuf1 i = false) : (s.delivers i).length = s.inBuf1.length := by
  rw [inBuf1]
  by_cases hv : s.buf1State = .inval
  · rw [if_pos hv, delivers_of_empty hv]
    rfl
  · rw [if_neg hv, (delivers_of_go h hv).2]
    rfl

theorem step_eq (build : Build) (s : MemIoSplitter) (i : MemIoSplitterIn) : s.step build i = (s.shift i).accept build i := by
  cases hstall : s.stallBuf1 i with
  | true =>
      rw [shift, if_pos hstall, accept]
      by_cases h0 : s.buf0State = .inval
      · cases hv : i.noc2Val <;> apply MemIoSplitter.ext <;>
          simp [step, take, go, noc2Rdy, stallBuf0, hstall, h0, hv, delivers_of_stall hstall]
      · apply MemIoSplitter.ext <;> simp [step, go, noc2Rdy, stallBuf0, hstall, h0, delivers_of_stall hstall]
  | false =>
      rw [shift, if_neg (by simp [hstall]), accept]
      cases hv : i.noc2Val <;> apply MemIoSplitter.ext <;> simp [step, take, go, noc2Rdy, stallBuf0, hstall, hv]

/-- The registers of the parser after the flit at a place of the stream. -/
def parseAt (build : Build) (s : MemIoSplitter) (k : Nat) : Parse := Parse.after build (s.taken.take (k + 1))

/-- The destination that the flit at a place goes to: its own once the address has been seen, else that of the flit
after it, which has the address. -/
def Routed (build : Build) (s : MemIoSplitter) (k : Nat) (d : MsgEnd) : Prop :=
  d ≠ .inval ∧
    ((s.parseAt build k).dest = d ∨
      (s.parseAt build k).dest = .inval ∧ k + 1 < s.taken.length ∧ (s.parseAt build (k + 1)).state = .header1 ∧
        (s.parseAt build (k + 1)).dest = d)

variable (build) in
theorem parseAt_snoc {t : MemIoSplitter} {a : Taken} (ht : t.taken = s.taken ++ [a]) {k : Nat} (hk : k < s.taken.length) :
    t.parseAt build k = s.parseAt build k := by
  rw [parseAt, parseAt, ht, List.take_append_of_le_length (by omega)]

structure Inv (build : Build) (s : MemIoSplitter) : Prop where
  parse : s.parse = Parse.after build s.taken
  flits : s.taken.map Taken.word = s.sent.map Prod.snd ++ s.inBuf1 ++ s.inBuf0
  buf0 : s.buf0State ≠ .inval → s.buf0State = s.parse.state
  buf1 : s.buf1State ≠ .inval → s.buf1Dest = (s.parseAt build s.sent.length).dest
  routed : ∀ k d w, s.sent[k]? = some (d, w) → s.Routed build k d

theorem inv_init : Inv build {} where
  parse := rfl
  flits := rfl
  buf0 h := absurd rfl h
  buf1 h := absurd rfl h
  routed k d w h := by simp at h

namespace Inv

theorem length_taken (h : s.Inv build) : s.taken.length = s.sent.length + s.inBuf1.length + s.inBuf0.length := by
  have := congrArg List.length h.flits
  simpa [Nat.add_assoc] using this

theorem parse_last (h : s.Inv build) {k : Nat} (hk : s.taken.length = k + 1) : s.parseAt build k = s.parse := by
  rw [h.parse, parseAt, ← hk, List.take_length]

/-- What the destination is chosen for is the flit that comes next. -/
theorem routed_next (h : s.Inv build) (hv : s.buf1State ≠ .inval) (hsel : s.rdyMuxSel ≠ .inval) :
    s.Routed build s.sent.length s.rdyMuxSel := by
  refine ⟨hsel, ?_⟩
  have hb1 := h.buf1 hv
  by_cases hd : s.buf1Dest = .inval
  · right
    rw [rdyMuxSel, if_neg (not_not_intro hd)] at hsel ⊢
    by_cases h0 : s.buf0State = .header1
    · have hlen : s.taken.length = s.sent.length + 1 + 1 := by
        rw [h.length_taken, inBuf1, inBuf0, if_neg hv, if_neg (by rw [h0]; decide)]
        rfl
      have hstate := h.buf0 (by rw [h0]; decide)
      rw [h.parse_last hlen, if_pos h0, ← hstate, ← hb1]
      exact ⟨hd, by omega, h0, rfl⟩
    · rw [if_neg h0] at hsel
      exact absurd rfl hsel
  · left
    rw [rdyMuxSel, if_pos hd]
    exact hb1.symm

theorem shift (h : s.Inv build) (i : MemIoSplitterIn) : (s.shift i).Inv build := by
  rw [MemIoSplitter.shift]
  cases hstall : s.stallBuf1 i with
  | true => exact h
  | false =>
      rw [if_neg Bool.false_ne_true]
      have hlast : s.buf0State ≠ .inval →
          s.parse.dest = (Parse.after build (s.taken.take ((s.sent ++ s.delivers i).length + 1))).dest := by
        intro h0
        have hlen : s.taken.length = (s.sent ++ s.delivers i).length + 1 := by
          rw [h.length_taken, inBuf0, if_neg h0, List.length_append, delivers_length hstall]
          rfl
        rw [← hlen, List.take_length, ← h.parse]
      by_cases hv : s.buf1State = .inval
      · have hdel : s.delivers i = [] := delivers_of_empty hv
        refine ⟨h.parse, ?_, fun h0 => absurd rfl h0, hlast, ?_⟩
        · have := h.flits
          simp only [inBuf0, inBuf1, hv, if_true, List.append_nil] at this
          simpa [inBuf0, inBuf1, hdel] using this
        · rw [hdel, List.append_nil]
          exact h.routed
      · obtain ⟨hsel, hdel⟩ := delivers_of_go hstall hv
        refine ⟨h.parse, ?_, fun h0 => absurd rfl h0, hlast, ?_⟩
        · have := h.flits
          simp only [inBuf0, inBuf1, hv, if_false] at this
          simpa [inBuf0, inBuf1, hdel] using this
        · intro k d w hk
          rw [hdel, List.getElem?_append] at hk
          split at hk
          · exact h.routed k d w hk
          · rw [List.getElem?_singleton] at hk
            split at hk
            case isFalse => cases hk
            case isTrue hlt hk0 =>
              obtain rfl : k = s.sent.length := by omega
              obtain ⟨rfl, -⟩ := Prod.mk.injEq _ _ _ _ ▸ Option.some.inj hk
              exact h.routed_next hv hsel

theorem accept (h : s.Inv build) (i : MemIoSplitterIn) : (s.accept build i).Inv build := by
  rw [MemIoSplitter.accept]
  by_cases h0 : s.buf0State = .inval
  · rw [if_neg (not_not_intro h0)]
    have hflits := h.flits
    have hlen := h.length_taken
    simp only [inBuf0, h0, if_true, List.append_nil, List.length_nil, Nat.add_zero] at hflits hlen
    cases hv : i.noc2Val with
    | false =>
        rw [if_neg Bool.false_ne_true]
        exact ⟨h.parse, by simpa [inBuf0, inBuf1, h0] using hflits, fun hn => absurd h0 hn, h.buf1, h.routed⟩
    | true =>
        rw [if_pos rfl]
        have hne : s.parse.stateNext ≠ .inval := by
          rw [Parse.stateNext]
          split <;> first | exact MsgState.noConfusion | (split <;> exact MsgState.noConfusion)
        refine ⟨?_, ?_, fun _ => rfl, fun h1 => ?_, fun k d w hk => ?_⟩
        · change s.parse.next build _ = Parse.after build (s.taken ++ [_])
          rw [Parse.after_snoc, ← h.parse]
        · have hin : (s.take build i).inBuf0 = [i.noc2Data] := if_neg hne
          change (s.taken ++ [_]).map Taken.word = s.sent.map Prod.snd ++ s.inBuf1 ++ _
          rw [hin, List.map_append, hflits]
          rfl
        · change s.buf1State ≠ .inval at h1
          rw [inBuf1, if_neg h1, List.length_singleton] at hlen
          have hsame := parseAt_snoc build (s := s) (t := s.take build i) rfl (k := s.sent.length) (by omega)
          exact (h.buf1 h1).trans (congrArg Parse.dest hsame.symm)
        · obtain ⟨hd, hroute⟩ := h.routed k d w hk
          have hlt : k < s.sent.length := (List.getElem?_eq_some_iff.mp hk).1
          have hsame {k : Nat} := parseAt_snoc build (s := s) (t := s.take build i) rfl (k := k)
          change (s.take build i).Routed build k d
          rw [Routed, hsame (by omega)]
          refine ⟨hd, hroute.imp_right ?_⟩
          rintro ⟨hinval, hlt', hstate, hdest⟩
          rw [hsame hlt']
          refine ⟨hinval, ?_, hstate, hdest⟩
          change k + 1 < (s.taken ++ _).length
          rw [List.length_append]
          omega
  · rw [if_pos h0]
    exact h

theorem step (h : s.Inv build) (i : MemIoSplitterIn) : (s.step build i).Inv build := by
  rw [step_eq]
  exact (h.shift i).accept i

end Inv

/-- A packet with three header words. -/
def Request (p : List Taken) : Prop := Whole (fun a => (fieldLength a.word).toNat) p ∧ 3 ≤ p.length

instance : DecidablePred Request := fun _ => inferInstanceAs (Decidable (_ ∧ _))

/-- The destination that the second header selects, with the `uart_boot_en` that it came with. -/
def packetDest (build : Build) : List Taken → MsgEnd
  | _ :: b :: _ => destNext build b.boot b.word
  | _ => .inval

end MemIoSplitter

namespace Parse

open MemIoSplitter

variable {build : Build} {r : Parse} {p : List Taken}

/-- Between two packets. -/
def AtEnd (r : Parse) : Prop := r.stateNext = .header0

/-- The registers within a packet, after so many of its flits. -/
structure Inside (build : Build) (p : List Taken) (n : Nat) (r : Parse) : Prop where
  counter : r.counter.toNat = p.length - n
  state : r.state = if n = 1 then .header0 else if n = 2 then .header1 else if n = 3 then .header2 else .data
  dest : r.dest = if n = 1 then .inval else packetDest build p

theorem Inside.next {n : Nat} (h : Inside build p n r) (hn : 0 < n) (hlt : n < p.length) (hp : 3 ≤ p.length) {a : Taken}
    (ha : p[n]? = some a) : Inside build p (n + 1) (r.next build a) := by
  have hc := h.counter
  have hlt' := r.counter.isLt
  have hne : r.counter ≠ 0#8 := by
    intro h0
    rw [h0] at hc
    simp at hc
    omega
  have hsub : (r.counter - 1).toNat = p.length - (n + 1) := by
    rw [Counter.toNat_pred (by omega), hc]
    omega
  have hnext : r.stateNext = if n = 1 then .header1 else if n = 2 then .header2 else .data := by
    rw [stateNext, h.state]
    by_cases h1 : n = 1
    · simp [h1]
    · by_cases h2 : n = 2
      · simp [h2]
      · by_cases h3 : n = 3 <;> simp [h1, h2, h3, hne]
  have h0 : r.stateNext ≠ .header0 := by
    rw [hnext]
    split
    · exact MsgState.noConfusion
    · split <;> exact MsgState.noConfusion
  refine ⟨?_, ?_, ?_⟩
  · rw [Parse.next, if_neg h0]
    exact hsub
  · change r.stateNext = _
    rw [hnext]
    by_cases h1 : n = 1
    · simp [h1]
    · by_cases h2 : n = 2
      · simp [h2]
      · rw [if_neg h1, if_neg h2, if_neg (by omega), if_neg (by omega), if_neg (by omega)]
  · simp only [Parse.next, if_neg h0]
    by_cases h1 : n = 1
    · subst h1
      rw [hnext, if_pos rfl, if_pos rfl, if_neg (by decide)]
      match p, ha with
      | _ :: b :: _, ha =>
          obtain rfl : b = a := by simpa using ha
          rfl
    · have hother : r.stateNext ≠ .header1 := by
        rw [hnext, if_neg h1]
        split <;> exact MsgState.noConfusion
      rw [if_neg hother, if_neg (by omega), h.dest, if_neg h1]

theorem Inside.first (h : r.AtEnd) (hp : Request p) {a : Taken} (ha : p[0]? = some a) : Inside build p 1 (r.next build a) := by
  rw [AtEnd] at h
  refine ⟨?_, h, ?_⟩
  · rw [Parse.next, h, if_pos rfl]
    match p, hp, ha with
    | b :: l, hp, ha =>
        obtain rfl : b = a := by simpa using ha
        rw [List.length_cons, Nat.add_sub_cancel]
        exact hp.1.symm
  · rw [Parse.next, h, if_pos rfl]
    rfl

theorem Inside.last (h : Inside build p p.length r) (hp : 3 ≤ p.length) : r.AtEnd := by
  have hzero : r.counter = 0 := by
    apply BitVec.eq_of_toNat_eq
    rw [h.counter, Nat.sub_self]
    rfl
  have hstate := h.state
  rw [if_neg (by omega), if_neg (by omega)] at hstate
  rw [AtEnd, stateNext, hstate, hzero]
  by_cases h3 : p.length = 3
  · rw [if_pos h3]
    rfl
  · rw [if_neg h3]
    rfl

variable (build) in
theorem inside_take (h : r.AtEnd) (hp : Request p) {j : Nat} (hj : j < p.length) :
    Inside build p (j + 1) ((p.take (j + 1)).foldl (next build) r) := by
  have hget {j : Nat} (hj : j < p.length) : p[j]? = some (p.get ⟨j, hj⟩) := List.getElem?_eq_getElem hj
  induction j with
  | zero =>
      rw [List.take_add_one, hget hj]
      exact Inside.first h hp (hget hj)
  | succ j ih =>
      have hlt : j < p.length := by omega
      rw [List.take_add_one, hget hj, Option.toList_some, List.foldl_append]
      exact (ih hlt).next (by omega) hj hp.2 (hget hj)

theorem atEnd_flatten {pkts : List (List Taken)} (h : r.AtEnd) (hpkts : ∀ p ∈ pkts, Request p) :
    (pkts.flatten.foldl (next build) r).AtEnd := by
  induction pkts generalizing r with
  | nil => exact h
  | cons p pkts ih =>
      have hp := hpkts p List.mem_cons_self
      rw [List.flatten_cons, List.foldl_append]
      apply ih _ fun q hq => hpkts q (List.mem_cons_of_mem p hq)
      obtain ⟨n, hn⟩ : ∃ n, p.length = n + 1 := ⟨p.length - 1, by have := hp.2; omega⟩
      have hin := inside_take build h hp (j := n) (by omega)
      rw [← hn, List.take_length] at hin
      exact hin.last hp.2

end Parse

namespace MemIoSplitter

variable {build : Build} {s : MemIoSplitter} {i : MemIoSplitterIn} {pkts done rest : List (List Taken)} {p : List Taken}
  {j : Nat}

/-- The flits of packets, each with the destination of its packet. -/
def routedFlits (build : Build) (pkts : List (List Taken)) : List (MsgEnd × Word) :=
  pkts.flatMap fun p => p.map fun a => (packetDest build p, a.word)

variable (build) in
theorem packetDest_ne_inval (h : 3 ≤ p.length) : packetDest build p ≠ .inval := by
  match p, h with
  | _ :: b :: _ :: _, _ => exact destNext_ne_inval build b.boot b.word

variable (build) in
theorem inside_at (hpkts : ∀ q ∈ done ++ p :: rest, Request q) (hj : j < p.length)
    (htake : s.taken.take (done.flatten.length + j + 1) = done.flatten ++ p.take (j + 1)) :
    Parse.Inside build p (j + 1) (s.parseAt build (done.flatten.length + j)) := by
  rw [parseAt, htake, Parse.after, List.foldl_append]
  apply Parse.inside_take build _ (hpkts p (by simp)) hj
  apply Parse.atEnd_flatten (show Parse.AtEnd {} from rfl)
  intro q hq
  exact hpkts q (List.mem_append_left _ hq)

theorem take_eq (htaken : s.taken <+: (done ++ p :: rest).flatten) (hj : j < p.length)
    (hk : done.flatten.length + j < s.taken.length) :
    s.taken.take (done.flatten.length + j + 1) = done.flatten ++ p.take (j + 1) := by
  obtain ⟨t, ht⟩ := htaken
  rw [List.flatten_append, List.flatten_cons] at ht
  calc s.taken.take (done.flatten.length + j + 1) = (s.taken ++ t).take (done.flatten.length + j + 1) :=
        (List.take_append_of_le_length (by omega)).symm
    _ = (done.flatten ++ (p ++ rest.flatten)).take (done.flatten.length + (j + 1)) := by rw [ht, Nat.add_assoc]
    _ = done.flatten ++ p.take (j + 1) := by
        rw [List.take_length_add_append, List.take_append_of_le_length (by omega)]

/-- The destination of a flit is that of its packet, whose second header has been taken. -/
theorem routed_packet (hpkts : ∀ q ∈ done ++ p :: rest, Request q) (htaken : s.taken <+: (done ++ p :: rest).flatten)
    (hj : j < p.length) (hk : done.flatten.length + j < s.taken.length) {d : MsgEnd}
    (h : s.Routed build (done.flatten.length + j) d) : d = packetDest build p ∧ done.flatten.length + 2 ≤ s.taken.length := by
  obtain ⟨hd, hroute⟩ := h
  have hp := (hpkts p (by simp)).2
  have hin := inside_at build hpkts hj (take_eq htaken hj hk)
  by_cases h0 : j = 0
  · subst h0
    obtain hdest | ⟨-, hlt, -, hdest⟩ := hroute
    · rw [hin.dest, if_pos rfl] at hdest
      exact absurd hdest.symm hd
    · have hnext := inside_at build hpkts (j := 1) (by omega) (take_eq htaken (by omega) (by omega))
      have hdest' := hnext.dest
      rw [if_neg (by decide)] at hdest'
      exact ⟨hdest.symm.trans hdest', by omega⟩
  · have hdest' := hin.dest
    rw [if_neg (by omega)] at hdest'
    obtain hdest | ⟨hinval, -⟩ := hroute
    · exact ⟨hdest.symm.trans hdest', by omega⟩
    · exact absurd (hdest'.symm.trans hinval) (packetDest_ne_inval build hp)

variable (build) in
theorem length_routedFlits (pkts : List (List Taken)) : (routedFlits build pkts).length = pkts.flatten.length := by
  simp [routedFlits, List.length_flatMap, List.length_flatten]

theorem routedFlits_getElem? (hj : j < p.length) :
    (routedFlits build (done ++ p :: rest))[done.flatten.length + j]? =
      ((done ++ p :: rest).flatten.map Taken.word)[done.flatten.length + j]?.map fun w => (packetDest build p, w) := by
  have hlen := length_routedFlits build done
  have hwords : (done.flatten.map Taken.word).length = done.flatten.length := List.length_map _
  rw [routedFlits, List.flatMap_append, ← routedFlits, List.getElem?_append_right (by omega), hlen, Nat.add_sub_cancel_left,
    List.flatMap_cons, List.getElem?_append_left (by simpa using hj), List.flatten_append, List.flatten_cons, List.map_append,
    List.getElem?_append_right (by omega), hwords, Nat.add_sub_cancel_left, List.map_append,
    List.getElem?_append_left (by simpa using hj), List.getElem?_map, List.getElem?_map, Option.map_map]
  rfl

theorem routed_flit (hpkts : ∀ q ∈ pkts, Request q) (htaken : s.taken <+: pkts.flatten) {k : Nat} {d : MsgEnd} {w : Word}
    (hw : (s.taken.map Taken.word)[k]? = some w) (h : s.Routed build k d) :
    (routedFlits build pkts)[k]? = some (d, w) ∧
      ∃ done p rest, pkts = done ++ p :: rest ∧ done.flatten.length ≤ k ∧ k < done.flatten.length + p.length ∧
        d = packetDest build p ∧ done.flatten.length + 2 ≤ s.taken.length := by
  obtain ⟨hk, -⟩ := List.getElem?_eq_some_iff.mp hw
  rw [List.length_map] at hk
  obtain ⟨done, p, rest, j, rfl, hj, rfl⟩ := exists_packet (hk.trans_le htaken.length_le)
  obtain ⟨rfl, hsecond⟩ := routed_packet hpkts htaken hj hk h
  refine ⟨?_, done, p, rest, rfl, by omega, by omega, rfl, hsecond⟩
  obtain ⟨t, ht⟩ := htaken
  rw [routedFlits_getElem? hj, ← ht, List.map_append, List.getElem?_append_left (by simpa using hk), hw]
  rfl

theorem Inv.word_next (h : s.Inv build) (hv : s.buf1State ≠ .inval) :
    (s.taken.map Taken.word)[s.sent.length]? = some s.buf1Data := by
  rw [h.flits, inBuf1, if_neg hv, List.append_assoc, List.getElem?_append_right (by simp)]
  simp

theorem Inv.sent_routed (h : s.Inv build) (hpkts : ∀ q ∈ pkts, Request q) (htaken : s.taken <+: pkts.flatten) :
    s.sent <+: routedFlits build pkts := by
  rw [List.prefix_iff_getElem?]
  intro k hk
  have hget : s.sent[k]? = some s.sent[k] := List.getElem?_eq_getElem hk
  have hw : (s.taken.map Taken.word)[k]? = some s.sent[k].2 := by
    rw [h.flits, List.append_assoc, List.getElem?_append_left (by simpa using hk), List.getElem?_map, hget]
    rfl
  exact (routed_flit hpkts htaken hw (h.routed k _ _ hget)).1

/-- A flit of a packet that is taken whole is offered to a destination. -/
theorem Inv.sel_of_whole (h : s.Inv build) (hpkts : ∀ q ∈ pkts, Request q) (hwhole : pkts.flatten <+: s.taken)
    (hlt : s.sent.length < pkts.flatten.length) (hv : s.buf1State ≠ .inval) : s.rdyMuxSel ≠ .inval := by
  obtain ⟨done, p, rest, j, rfl, hj, hk⟩ := exists_packet hlt
  have hp := (hpkts p (by simp)).2
  have hlen := h.length_taken
  rw [inBuf1, if_neg hv, List.length_singleton] at hlen
  have hle := hwhole.length_le
  rw [List.flatten_append, List.flatten_cons, List.length_append, List.length_append] at hle
  have hbuf0 := s.inBuf0_length
  have htake : s.taken.take (done.flatten.length + j + 1) = done.flatten ++ p.take (j + 1) := by
    obtain ⟨t, ht⟩ := hwhole
    rw [← ht, List.flatten_append, List.flatten_cons, Nat.add_assoc, List.append_assoc, List.append_assoc,
      List.take_length_add_append, List.take_append_of_le_length (by omega)]
  have hin := inside_at build hpkts hj htake
  have hdest := hin.dest
  rw [if_neg (by omega), ← hk, ← h.buf1 hv] at hdest
  rw [rdyMuxSel, if_pos (hdest.symm ▸ packetDest_ne_inval build hp), hdest]
  exact packetDest_ne_inval build hp

def Ready (i : MemIoSplitterIn) : Prop := i.ioRdy = true ∧ i.memRdy = true

theorem sel_of_stall (hi : Ready i) (h : s.stallBuf1 i = true) : s.buf1State ≠ .inval ∧ s.rdyMuxSel = .inval := by
  obtain ⟨hv, hr⟩ := (Bool.and_eq_true _ _).mp h
  refine ⟨by simpa [buf1Val] using hv, ?_⟩
  rw [rdyMuxOut] at hr
  cases hs : s.rdyMuxSel
  case inval => rfl
  case io => simp [hs, hi.1] at hr
  case mem => simp [hs, hi.2] at hr

/-- What waits for an address does not keep the flit with it out. -/
theorem Inv.rdy_of_ready (h : s.Inv build) (hpkts : ∀ q ∈ pkts, Request q) (htaken : s.taken <+: pkts.flatten)
    (hi : Ready i) : s.noc2Rdy i = true := by
  rw [noc2Rdy, Bool.not_eq_true']
  by_contra hstall
  obtain ⟨hstall, h0⟩ := (Bool.and_eq_true _ _).mp (Bool.not_eq_false _ ▸ hstall)
  obtain ⟨hv, hsel⟩ := sel_of_stall hi hstall
  have h0 : s.buf0State ≠ .inval := by simpa using h0
  have hlen : s.taken.length = s.sent.length + 1 + 1 := by
    rw [h.length_taken, inBuf1, inBuf0, if_neg hv, if_neg h0]
    rfl
  obtain ⟨done, p, rest, j, rfl, hj, hk⟩ := exists_packet (k := s.sent.length) (lt_of_lt_of_le (by omega) htaken.length_le)
  have hp := (hpkts p (by simp)).2
  have hne := packetDest_ne_inval build hp
  have hdest := (inside_at build hpkts hj (take_eq htaken hj (by omega))).dest
  rw [← hk, ← h.buf1 hv] at hdest
  rw [rdyMuxSel] at hsel
  by_cases hz : j = 0
  · subst hz
    have hnext := inside_at build hpkts (j := 1) (by omega) (take_eq htaken (by omega) (by omega))
    rw [h.parse_last (k := done.flatten.length + 1) (by omega)] at hnext
    have hstate := hnext.state
    have hdest' := hnext.dest
    rw [if_neg (by decide), if_pos rfl, ← h.buf0 h0] at hstate
    rw [if_neg (by decide)] at hdest'
    rw [if_neg (by simp [hdest]), if_pos hstate, hdest'] at hsel
    exact hne hsel
  · rw [if_neg (by omega)] at hdest
    rw [hdest, if_pos hne] at hsel
    exact hne hsel

theorem accept_sent (s : MemIoSplitter) : (s.accept build i).sent = s.sent ∧ (s.accept build i).buf1State = s.buf1State := by
  rw [accept]
  split
  · exact ⟨rfl, rfl⟩
  · split <;> exact ⟨rfl, rfl⟩

variable (build) in
theorem step_of_ready (hi : Ready i) (hsel : s.buf1State ≠ .inval → s.rdyMuxSel ≠ .inval) :
    (s.step build i).sent.length = s.sent.length + s.inBuf1.length ∧ (s.step build i).buf1State = s.buf0State := by
  have hgo : s.stallBuf1 i = false := by
    by_contra hstall
    obtain ⟨hv, hs⟩ := sel_of_stall hi (Bool.not_eq_false _ ▸ hstall)
    exact hsel hv hs
  rw [step_eq, (accept_sent _).1, (accept_sent _).2, shift, if_neg (by simp [hgo])]
  exact ⟨by rw [List.length_append, delivers_length hgo], rfl⟩

theorem taken_step (s : MemIoSplitter) (i : MemIoSplitterIn) : s.taken <+: (s.step build i).taken := List.prefix_append _ _

/-- Two cycles with ready destinations send what was taken of whole packets. -/
theorem Inv.drains (h : s.Inv build) (hpkts : ∀ q ∈ pkts, Request q) (htaken : s.taken = pkts.flatten)
    {i j : MemIoSplitterIn} (hi : Ready i) (hj : Ready j) :
    s.taken.length ≤ ((s.step build i).step build j).sent.length := by
  have hlen := h.length_taken
  have hmono : (s.step build i).sent.length ≤ ((s.step build i).step build j).sent.length := by
    change _ ≤ ((s.step build i).sent ++ (s.step build i).delivers j).length
    rw [List.length_append]
    exact Nat.le_add_right _ _
  have hsel : s.buf1State ≠ .inval → s.rdyMuxSel ≠ .inval := by
    intro hv
    rw [inBuf1, if_neg hv, List.length_singleton] at hlen
    exact h.sel_of_whole hpkts (by rw [htaken]) (by rw [← htaken]; omega) hv
  obtain ⟨hsent, hbuf1⟩ := step_of_ready build hi hsel
  by_cases hrest : (s.step build i).sent.length < pkts.flatten.length
  · have h0 : s.buf0State ≠ .inval := by
      intro h0
      rw [inBuf0, if_pos h0, List.length_nil] at hlen
      rw [hsent, ← htaken] at hrest
      omega
    have hwhole : pkts.flatten <+: (s.step build i).taken := htaken ▸ taken_step s i
    have hnext := step_of_ready build hj fun hv => (h.step i).sel_of_whole hpkts hwhole hrest hv
    have hin : (s.step build i).inBuf1.length = 1 := by
      rw [inBuf1, if_neg (by rw [hbuf1]; exact h0)]
      rfl
    have hone := s.inBuf0_length
    rw [hnext.1, hin, hsent]
    omega
  · rw [htaken]
    omega

/-- For every stream of packets with three header words, of which some flits are taken: the flits sent are the first of
the stream, each to the destination that the address of its packet selects; those in between are at most two; a flit is
offered only when the second header of its packet has been taken, and to its destination; with the destinations ready
the next flit can be taken; and the packets taken whole are out after two such cycles. -/
def KeepsRequests (build : Build) (s : MemIoSplitter) : Prop :=
  ∀ pkts : List (List Taken), (∀ p ∈ pkts, Request p) → s.taken <+: pkts.flatten →
    s.sent <+: routedFlits build pkts ∧
      (∃ inFlight, s.taken.map Taken.word = s.sent.map Prod.snd ++ inFlight ∧ inFlight.length ≤ 2) ∧
      (∀ d, d ≠ .inval → s.val d = true →
        (routedFlits build pkts)[s.sent.length]? = some (d, s.buf1Data) ∧
          ∃ done p rest, pkts = done ++ p :: rest ∧ done.flatten.length ≤ s.sent.length ∧
            s.sent.length < done.flatten.length + p.length ∧ d = packetDest build p ∧
            done.flatten.length + 2 ≤ s.taken.length) ∧
      (∀ i, Ready i → s.noc2Rdy i = true) ∧
      (s.taken = pkts.flatten → ∀ i j, Ready i → Ready j →
        s.taken.length ≤ ((s.step build i).step build j).sent.length)

theorem Inv.keepsRequests (h : s.Inv build) : s.KeepsRequests build := by
  intro pkts hpkts htaken
  refine ⟨h.sent_routed hpkts htaken, ⟨s.inBuf1 ++ s.inBuf0, ?_, ?_⟩, ?_, fun i => h.rdy_of_ready hpkts htaken,
    fun hall i j => h.drains hpkts hall⟩
  · rw [h.flits, List.append_assoc]
  · rw [List.length_append]
    exact Nat.add_le_add s.inBuf1_length s.inBuf0_length
  · intro d hd hval
    rw [val, Bool.and_eq_true, beq_iff_eq] at hval
    obtain ⟨hv, rfl⟩ := hval
    have hv' : s.buf1State ≠ .inval := by simpa [buf1Val] using hv
    exact routed_flit hpkts htaken (h.word_next hv') (h.routed_next hv' hd)

end MemIoSplitter

end OpenPiton.Chipset
